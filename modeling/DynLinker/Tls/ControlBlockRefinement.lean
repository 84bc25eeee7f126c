import DynLinker.Tls.ControlBlockMemory

/-! The control blocks in memory and the records of the runtime: over every run of
`init_tcb`, `set_dtv_value` and `deallocate_tcb` the words are those of the records, and
the vectors in use are exactly the ones that the allocator has handed out. -/

set_option autoImplicit false

namespace DynLinker.Tls

open Lib

/-- The words at an address are those of a vector. -/
structure HoldsVector (memory : ByteMemory) (dtv : Nat) (contents : Dtv) : Prop where
  slots : contents.slots = dtvSlotCount
  above : dtvEntrySize < dtv
  below : dtv + (dtvSlotCount + 1) * dtvEntrySize ≤ 2 ^ usizeBits
  count : memory.word 8 (dtv - dtvEntrySize) = dtvSlotCount
  entries : ∀ id, 0 < id → id ≤ dtvSlotCount →
    memory.word 8 (dtv + id * dtvEntrySize) = (contents.entries id).first ∧
      memory.word 8 (dtv + id * dtvEntrySize + 8) = (contents.entries id).second

/-- The words at a thread pointer are those of a record. -/
structure HoldsTcb (memory : ByteMemory) (tp : Nat) (tcb : Tcb) : Prop where
  self : memory.word 8 (tp + tcbSelfOffset) = tcb.self
  noVector : tcb.dtv = none → memory.word 8 (tp + tcbDtvOffset) = 0
  vector : ∀ contents, tcb.dtv = some contents →
    HoldsVector memory (memory.word 8 (tp + tcbDtvOffset)) contents
  threadSelf : memory.word 8 (tp + tcbThreadSelfOffset) = tcb.threadSelf
  stackGuard : memory.word 8 (tp + tcbStackGuardOffset) = tcb.stackGuard
  pointerGuard : memory.word 8 (tp + tcbPointerGuardOffset) = tcb.pointerGuard

/-- Each thread in use has its record in memory, apart from everybody else's, and the
allocator's calls leave exactly the threads' vectors. -/
structure Represents (blocks : ControlBlocks) (runtime : Runtime) : Prop where
  distinct : blocks.threads.Nodup
  nonzero : ∀ tp ∈ blocks.threads, tp ≠ 0
  bounded : ∀ tp ∈ blocks.threads, (TcbMemory.header tp).base +
    (TcbMemory.header tp).size ≤ 2 ^ usizeBits
  own : ∀ tp ∈ blocks.threads, (TcbMemory.footprint blocks.state.memory tp).Pairwise Region.Apart
  apart : ∀ left ∈ blocks.threads, ∀ right ∈ blocks.threads, left ≠ right →
    ∀ mine ∈ TcbMemory.footprint blocks.state.memory left,
      ∀ other ∈ TcbMemory.footprint blocks.state.memory right, mine.Apart other
  records : ∀ tp ∈ blocks.threads, HoldsTcb blocks.state.memory tp (runtime.tcbs tp)
  accounted : ∃ live, replay [] blocks.state.calls = some live ∧
    live.Perm (blocks.threads.flatMap (TcbMemory.vector blocks.state.memory))

section Words

variable {memory after : ByteMemory} {tp : Nat}

theorem word_of_header (agree : after.Agree memory (TcbMemory.header tp)) {offset : Nat}
    (inside : offset ≤ tcbPointerGuardOffset) :
    after.word 8 (tp + offset) = memory.word 8 (tp + offset) := by
  apply ByteMemory.word_congr
  refine agree.inside ⟨Nat.le_add_right _ _, ?_⟩
  simp only [TcbMemory.header]
  omega

theorem vector_frame (agree : after.Agree memory (TcbMemory.header tp)) :
    TcbMemory.vector after tp = TcbMemory.vector memory tp := by
  rw [TcbMemory.vector, word_of_header agree (by decide), TcbMemory.vector]

theorem footprint_frame (agree : after.Agree memory (TcbMemory.header tp)) :
    TcbMemory.footprint after tp = TcbMemory.footprint memory tp := by
  rw [TcbMemory.footprint, vector_frame agree, TcbMemory.footprint]

theorem header_mem_footprint : TcbMemory.header tp ∈ TcbMemory.footprint memory tp :=
  List.mem_cons_self

namespace HoldsVector

variable {dtv : Nat} {contents : Dtv}

/-- The block of the vector: the count, 64 entries, and one entry to spare. -/
theorem vector_eq (held : HoldsVector memory (memory.word 8 (tp + tcbDtvOffset)) contents) :
    TcbMemory.vector memory tp = [⟨memory.word 8 (tp + tcbDtvOffset) - dtvEntrySize,
      ⟨(dtvSlotCount + 2) * dtvEntrySize, 8⟩⟩] := by
  have present : memory.word 8 (tp + tcbDtvOffset) ≠ 0 :=
    Nat.ne_of_gt (Nat.lt_of_le_of_lt (Nat.zero_le _) held.above)
  simp only [TcbMemory.vector, if_neg present]

theorem frame (held : HoldsVector memory dtv contents)
    (agree : after.Agree memory ⟨dtv - dtvEntrySize, (dtvSlotCount + 2) * dtvEntrySize⟩) :
    HoldsVector after dtv contents := by
  have above := held.above
  simp only [dtvEntrySize] at above
  have word {address : Nat} (from_ : dtv - dtvEntrySize ≤ address)
      (to_ : address + 8 ≤ dtv - dtvEntrySize + (dtvSlotCount + 2) * dtvEntrySize) :
      after.word 8 address = memory.word 8 address :=
    ByteMemory.word_congr (agree.inside ⟨from_, to_⟩)
  refine ⟨held.slots, held.above, held.below, ?_, ?_⟩
  · rw [word (Nat.le_refl _) (by simp only [dtvSlotCount, dtvEntrySize]; omega)]
    exact held.count
  · intro id positive listed
    simp only [dtvSlotCount] at listed
    rw [word (by omega) (by simp only [dtvSlotCount, dtvEntrySize]; omega),
      word (by omega) (by simp only [dtvSlotCount, dtvEntrySize]; omega)]
    exact held.entries id positive listed

end HoldsVector

theorem HoldsTcb.frame {tcb : Tcb} (held : HoldsTcb memory tp tcb)
    (agree : ∀ region ∈ TcbMemory.footprint memory tp, after.Agree memory region) :
    HoldsTcb after tp tcb := by
  have header := agree _ header_mem_footprint
  refine ⟨?_, ?_, ?_, ?_, ?_, ?_⟩
  · rw [word_of_header header (by decide)]
    exact held.self
  · intro none
    rw [word_of_header header (by decide)]
    exact held.noVector none
  · intro contents some
    have vector := held.vector contents some
    rw [word_of_header header (by decide)]
    apply vector.frame
    apply agree
    rw [TcbMemory.footprint, vector.vector_eq]
    exact List.mem_cons_of_mem _ List.mem_cons_self
  · rw [word_of_header header (by decide)]
    exact held.threadSelf
  · rw [word_of_header header (by decide)]
    exact held.stackGuard
  · rw [word_of_header header (by decide)]
    exact held.pointerGuard

end Words

theorem dtvLayout_new :
    dtvLayout (dtvSlotCount + 2) = some ⟨(dtvSlotCount + 2) * dtvEntrySize, 8⟩ := by
  rw [dtvLayout, Layout.fromSizeAlign]
  exact if_pos ⟨⟨3, by decide, rfl⟩, by decide⟩

theorem saturatingAdd_slots : saturatingAdd dtvSlotCount 2 = dtvSlotCount + 2 := by
  decide

namespace TcbMemory

variable {state : TcbMemory} {address value query : Nat}

theorem read_write (fits : value < 2 ^ usizeBits) : (state.write address value).read address = value :=
  ByteMemory.word_writeWord fits

theorem read_write_apart (apart : query + 8 ≤ address ∨ address + 8 ≤ query) :
    (state.write address value).read query = state.read query :=
  ByteMemory.word_writeWord_apart apart

theorem vector_of_null {tp : Nat} (null : state.read (tp + tcbDtvOffset) = 0) :
    vector state.memory tp = [] := by
  rw [read] at null
  simp only [vector, null, if_pos]

theorem vector_of_pointer {tp base : Nat}
    (pointer : state.read (tp + tcbDtvOffset) = base + dtvEntrySize) :
    vector state.memory tp = [⟨base, ⟨(dtvSlotCount + 2) * dtvEntrySize, 8⟩⟩] := by
  have present : base + dtvEntrySize ≠ 0 := Nat.succ_ne_zero _
  rw [read] at pointer
  simp only [vector, pointer, if_neg present, Nat.add_sub_cancel]

/-- A write to the header, after others. -/
theorem write_within {before : ByteMemory} {tp offset : Nat}
    (within : before.Within state.memory [header tp]) (inside : offset ≤ tcbPointerGuardOffset) :
    before.Within (state.write (tp + offset) value).memory [header tp] := by
  apply within.trans
  apply ByteMemory.Within.writeWord List.mem_cons_self
  simp only [Region.Inside, header]
  omega

theorem entry_written (state : TcbMemory) (value toFree : Nat) {dtv id : Nat}
    (above : dtvEntrySize < dtv) (inside : id ≤ dtvSlotCount) :
    state.memory.Within ((state.write (dtv + id * dtvEntrySize) value).write
        (dtv + id * dtvEntrySize + 8) toFree).memory
      [⟨dtv - dtvEntrySize, (dtvSlotCount + 2) * dtvEntrySize⟩] := by
  simp only [dtvEntrySize, dtvSlotCount] at above inside ⊢
  have first : state.memory.Within (state.write (dtv + id * 16) value).memory
      [⟨dtv - 16, (64 + 2) * 16⟩] := by
    apply ByteMemory.Within.writeWord List.mem_cons_self
    simp only [Region.Inside]
    omega
  apply first.trans
  apply ByteMemory.Within.writeWord List.mem_cons_self
  simp only [Region.Inside]
  omega

section Held

variable {tp id : Nat} {tcb : Tcb}

theorem holdsVector_set {dtv toFree : Nat} {contents : Dtv}
    (held : HoldsVector state.memory dtv contents) (positive : 0 < id)
    (word : value < 2 ^ usizeBits) (freed : toFree < 2 ^ usizeBits) :
    HoldsVector ((state.write (dtv + id * dtvEntrySize) value).write
        (dtv + id * dtvEntrySize + 8) toFree).memory dtv
      { contents with entries := Function.update contents.entries id ⟨value, toFree⟩ } := by
  have above := held.above
  simp only [dtvEntrySize] at above
  refine ⟨held.slots, held.above, held.below, ?_, ?_⟩
  · refine Eq.trans (read_write_apart ?_) (Eq.trans (read_write_apart ?_) held.count)
    · simp only [dtvEntrySize]
      omega
    · simp only [dtvEntrySize]
      omega
  · intro other counted listed
    by_cases same : other = id
    · subst other
      dsimp only
      rw [Function.update_self]
      refine ⟨?_, read_write freed⟩
      exact Eq.trans (read_write_apart (.inl (Nat.le_refl _))) (read_write word)
    · dsimp only
      rw [Function.update_of_ne same]
      obtain ⟨first, second⟩ := held.entries other counted listed
      refine ⟨?_, ?_⟩
      · refine Eq.trans (read_write_apart ?_) (Eq.trans (read_write_apart ?_) first)
        · simp only [dtvEntrySize]
          omega
        · simp only [dtvEntrySize]
          omega
      · refine Eq.trans (read_write_apart ?_) (Eq.trans (read_write_apart ?_) second)
        · simp only [dtvEntrySize]
          omega
        · simp only [dtvEntrySize]
          omega

theorem dtvEntry_eq (held : HoldsTcb state.memory tp tcb) (nonzero : tp ≠ 0) :
    state.dtvEntry tp id = (tcb.dtvEntry id).map fun _ =>
      state.read (tp + tcbDtvOffset) + id * dtvEntrySize := by
  cases vector : tcb.dtv with
  | none =>
      have null : state.read (tp + tcbDtvOffset) = 0 := held.noVector vector
      simp [dtvEntry, Tcb.dtvEntry, vector, null]
  | some contents =>
      have stored := held.vector contents vector
      have present : state.read (tp + tcbDtvOffset) ≠ 0 :=
        Nat.ne_of_gt (Nat.lt_of_le_of_lt (Nat.zero_le _) stored.above)
      have count : state.read (state.read (tp + tcbDtvOffset) - dtvEntrySize) = contents.slots :=
        stored.count.trans stored.slots.symm
      by_cases reserved : id = 0
      · simp [dtvEntry, Tcb.dtvEntry, vector, reserved]
      · by_cases past : contents.slots < id
        · simp [dtvEntry, Tcb.dtvEntry, vector, nonzero, reserved, present, count, past]
        · simp [dtvEntry, Tcb.dtvEntry, vector, nonzero, reserved, present, count, past]

theorem read_entry (held : HoldsTcb state.memory tp tcb) {entry : DtvEntry}
    (found : tcb.dtvEntry id = some entry) :
    state.read (state.read (tp + tcbDtvOffset) + id * dtvEntrySize) = entry.first := by
  obtain ⟨contents, vector, listed⟩ := Option.bind_eq_some_iff.mp found
  obtain ⟨absent, same⟩ := Option.ite_none_left_eq_some.mp listed
  cases same
  have stored := held.vector contents vector
  rw [not_or, Nat.not_lt, stored.slots] at absent
  exact (stored.entries id (Nat.pos_of_ne_zero absent.1) absent.2).1

theorem dtvValue_eq {runtime : Runtime} (held : HoldsTcb state.memory tp (runtime.tcbs tp))
    (nonzero : tp ≠ 0) : state.dtvValue tp id = runtime.dtvValue tp id := by
  rw [dtvValue, dtvEntry_eq held nonzero, Runtime.dtvValue, if_neg nonzero]
  cases found : (runtime.tcbs tp).dtvEntry id with
  | none => rfl
  | some entry => simp [read_entry held found]

/-- `deallocate_tcb` gives the vector back, if there is one, and clears the pointer. -/
theorem deallocateTcb_spec (held : HoldsTcb state.memory tp tcb) (nonzero : tp ≠ 0) :
    (state.deallocateTcb tp).calls = state.calls ++ (vector state.memory tp).map .dealloc ∧
      state.memory.Within (state.deallocateTcb tp).memory [header tp] ∧
      HoldsTcb (state.deallocateTcb tp).memory tp { tcb with dtv := none } := by
  cases stored : tcb.dtv with
  | none =>
      have null : state.read (tp + tcbDtvOffset) = 0 := held.noVector stored
      have unchanged : state.deallocateTcb tp = state := by
        simp [deallocateTcb, null]
      have same : { tcb with dtv := none } = tcb := by
        rw [← stored]
      have nothing := vector_of_null null
      rw [unchanged, same, nothing, List.map_nil, List.append_nil]
      exact ⟨rfl, .refl _ _, held⟩
  | some contents =>
      have holds := held.vector contents stored
      have present : state.read (tp + tcbDtvOffset) ≠ 0 :=
        Nat.ne_of_gt (Nat.lt_of_le_of_lt (Nat.zero_le _) holds.above)
      have count : state.read (state.read (tp + tcbDtvOffset) - dtvEntrySize) = dtvSlotCount :=
        holds.count
      have layout : dtvLayout (saturatingAdd dtvSlotCount 2) =
          some ⟨(dtvSlotCount + 2) * dtvEntrySize, 8⟩ := by
        rw [saturatingAdd_slots]
        exact dtvLayout_new
      have freed : state.deallocateTcb tp =
          (state.dealloc (state.read (tp + tcbDtvOffset) - dtvEntrySize)
            ⟨(dtvSlotCount + 2) * dtvEntrySize, 8⟩).write (tp + tcbDtvOffset) 0 := by
        simp only [deallocateTcb, if_neg nonzero, if_neg present, count, layout]
      have other {offset : Nat} (apart : offset + 8 ≤ tcbDtvOffset ∨ tcbDtvOffset + 8 ≤ offset) :
          (state.deallocateTcb tp).memory.word 8 (tp + offset) = state.read (tp + offset) := by
        rw [freed]
        exact read_write_apart (by omega)
      refine ⟨?_, ?_, ?_⟩
      · rw [freed, holds.vector_eq]
        simp only [write, dealloc, read, List.map_cons, List.map_nil]
      · rw [freed]
        exact write_within (.refl _ _) (by decide)
      · refine ⟨?_, ?_, ?_, ?_, ?_, ?_⟩
        · rw [other (by decide)]
          exact held.self
        · intro _
          rw [freed]
          exact read_write (by decide)
        · intro contents impossible
          cases impossible
        · rw [other (by decide)]
          exact held.threadSelf
        · rw [other (by decide)]
          exact held.stackGuard
        · rw [other (by decide)]
          exact held.pointerGuard

/-- `set_dtv_value` answers as on the records. -/
theorem setDtvValue_answer {runtime : Runtime} (held : HoldsTcb state.memory tp (runtime.tcbs tp))
    (nonzero : tp ≠ 0) (value toFree : Nat) :
    (state.setDtvValue tp id value toFree).1 =
      (runtime.setDtvValue tp id value toFree).isSome := by
  rw [setDtvValue, dtvEntry_eq held nonzero, Runtime.setDtvValue, if_neg nonzero]
  cases found : (runtime.tcbs tp).dtvEntry id with
  | none => rfl
  | some entry => rfl

theorem setDtvValue_spec (id : Nat) {value toFree : Nat} (held : HoldsTcb state.memory tp tcb)
    (nonzero : tp ≠ 0) (own : (footprint state.memory tp).Pairwise Region.Apart)
    (word : value < 2 ^ usizeBits) (freed : toFree < 2 ^ usizeBits) :
    (state.setDtvValue tp id value toFree).2.calls = state.calls ∧
      state.memory.Within (state.setDtvValue tp id value toFree).2.memory
        (footprint state.memory tp) ∧
      vector (state.setDtvValue tp id value toFree).2.memory tp = vector state.memory tp ∧
      HoldsTcb (state.setDtvValue tp id value toFree).2.memory tp
        (if (tcb.dtvEntry id).isSome then tcb.setDtvEntry id ⟨value, toFree⟩ else tcb) := by
  rw [setDtvValue, dtvEntry_eq held nonzero]
  cases found : tcb.dtvEntry id with
  | none => exact ⟨rfl, .refl _ _, rfl, held⟩
  | some entry =>
      obtain ⟨contents, vector, listed⟩ := Option.bind_eq_some_iff.mp found
      obtain ⟨absent, _⟩ := Option.ite_none_left_eq_some.mp listed
      have stored : HoldsVector state.memory (state.read (tp + tcbDtvOffset)) contents :=
        held.vector contents vector
      rw [not_or, Nat.not_lt, stored.slots] at absent
      obtain ⟨identified, inside⟩ := absent
      have positive := Nat.pos_of_ne_zero identified
      have split : footprint state.memory tp = [header tp,
          ⟨state.read (tp + tcbDtvOffset) - dtvEntrySize, (dtvSlotCount + 2) * dtvEntrySize⟩] := by
        rw [footprint, stored.vector_eq]
        rfl
      rw [split] at own ⊢
      have apart : (header tp).Apart ⟨state.read (tp + tcbDtvOffset) - dtvEntrySize,
          (dtvSlotCount + 2) * dtvEntrySize⟩ :=
        List.rel_of_pairwise_cons own List.mem_cons_self
      have changed := entry_written state value toFree stored.above inside
      have header := changed.agree fun _ block => List.mem_singleton.mp block ▸ apart
      have listed := holdsVector_set stored positive word freed
      refine ⟨rfl, changed.mono fun _ block => List.mem_cons_of_mem _ block,
        vector_frame header, ?_⟩
      rw [if_pos Option.isSome_some]
      dsimp only [Option.map]
      refine ⟨?_, ?_, ?_, ?_, ?_, ?_⟩
      · exact (word_of_header header (by decide)).trans held.self
      · intro impossible
        simp [Tcb.setDtvEntry, vector] at impossible
      · intro updated same
        rw [Tcb.setDtvEntry, vector] at same
        cases same
        rw [word_of_header header (by decide)]
        exact listed
      · exact (word_of_header header (by decide)).trans held.threadSelf
      · exact (word_of_header header (by decide)).trans held.stackGuard
      · exact (word_of_header header (by decide)).trans held.pointerGuard

theorem writeTcb_read {dtv : Nat} (self : tp < 2 ^ usizeBits) (pointer : dtv < 2 ^ usizeBits) :
    (state.writeTcb tp dtv).read (tp + tcbSelfOffset) = tp ∧
      (state.writeTcb tp dtv).read (tp + tcbDtvOffset) = dtv ∧
      (state.writeTcb tp dtv).read (tp + tcbThreadSelfOffset) = tp ∧
      (state.writeTcb tp dtv).read (tp + tcbStackGuardOffset) = bootstrapStackGuard ∧
      (state.writeTcb tp dtv).read (tp + tcbPointerGuardOffset) = bootstrapPointerGuard := by
  simp only [writeTcb, tcbSelfOffset, tcbDtvOffset, tcbThreadSelfOffset, tcbStackGuardOffset,
    tcbPointerGuardOffset]
  refine ⟨?_, ?_, ?_, ?_, ?_⟩
  · rw [read_write_apart (by omega), read_write_apart (by omega), read_write_apart (by omega),
      read_write_apart (by omega), read_write self]
  · rw [read_write_apart (by omega), read_write_apart (by omega), read_write_apart (by omega),
      read_write pointer]
  · rw [read_write_apart (by omega), read_write_apart (by omega), read_write self]
  · rw [read_write_apart (by omega), read_write (by decide)]
  · rw [read_write (by decide)]

theorem writeTcb_within (dtv : Nat) :
    state.memory.Within (state.writeTcb tp dtv).memory [header tp] := by
  rw [writeTcb]
  apply write_within
  · apply write_within
    · apply write_within
      · apply write_within
        · exact write_within (.refl _ _) (by decide)
        · decide
      · decide
    · decide
  · decide

/-- `allocate_dtv`: a count and zeroed entries, in a block of the allocator's. -/
theorem allocateDtv_spec {base : Nat} (nonzero : base ≠ 0)
    (bounded : base + (dtvSlotCount + 2) * dtvEntrySize ≤ 2 ^ usizeBits) :
    ∃ next, state.allocateDtv base = .ok (base + dtvEntrySize, next) ∧
      next.calls = state.calls ++ [.alloc ⟨base, ⟨(dtvSlotCount + 2) * dtvEntrySize, 8⟩⟩] ∧
      state.memory.Within next.memory [⟨base, (dtvSlotCount + 2) * dtvEntrySize⟩] ∧
      HoldsVector next.memory (base + dtvEntrySize) .new := by
  refine ⟨(state.allocZeroed ⟨(dtvSlotCount + 2) * dtvEntrySize, 8⟩ base).write base dtvSlotCount,
    ?_, ?_, ?_, ?_⟩
  · rw [allocateDtv, dtvLayout_new]
    rfl
  · rfl
  · have zeroed : state.memory.Within
        (state.allocZeroed ⟨(dtvSlotCount + 2) * dtvEntrySize, 8⟩ base).memory
        [⟨base, (dtvSlotCount + 2) * dtvEntrySize⟩] := by
      apply ByteMemory.Within.write List.mem_cons_self
      rw [List.length_replicate]
      exact ⟨Nat.le_refl _, Nat.le_refl _⟩
    apply zeroed.trans
    apply ByteMemory.Within.writeWord List.mem_cons_self
    have room : 8 ≤ (dtvSlotCount + 2) * dtvEntrySize := by
      decide
    exact ⟨Nat.le_refl _, Nat.add_le_add_left room _⟩
  · refine ⟨rfl, Nat.lt_add_of_pos_left (Nat.pos_of_ne_zero nonzero), ?_, ?_, ?_⟩
    · simp only [dtvSlotCount, dtvEntrySize] at bounded ⊢
      omega
    · rw [Nat.add_sub_cancel]
      exact read_write (by decide)
    · intro id positive listed
      simp only [dtvSlotCount] at listed
      have zero {address : Nat} (above : base + dtvEntrySize ≤ address)
          (below : address + 8 ≤ base + (dtvSlotCount + 2) * dtvEntrySize) :
          ((state.allocZeroed ⟨(dtvSlotCount + 2) * dtvEntrySize, 8⟩ base).write base
            dtvSlotCount).memory.word 8 address = 0 := by
        simp only [dtvEntrySize] at above
        have kept : ((state.allocZeroed ⟨(dtvSlotCount + 2) * dtvEntrySize, 8⟩ base).write base
            dtvSlotCount).read address =
              (state.allocZeroed ⟨(dtvSlotCount + 2) * dtvEntrySize, 8⟩ base).read address :=
          read_write_apart (by omega)
        exact kept.trans (ByteMemory.word_zeroed (by omega) below)
      refine ⟨zero ?_ ?_, zero ?_ ?_⟩ <;>
        · simp only [dtvSlotCount, dtvEntrySize]
          omega

end Held

end TcbMemory

theorem Runtime.setDtvValue_tcbs (runtime : Runtime) {tp : Nat} (nonzero : tp ≠ 0)
    (id value toFree : Nat) :
    ((runtime.setDtvValue tp id value toFree).getD runtime).tcbs =
      Function.update runtime.tcbs tp
        (if ((runtime.tcbs tp).dtvEntry id).isSome then
          (runtime.tcbs tp).setDtvEntry id ⟨value, toFree⟩ else runtime.tcbs tp) := by
  rw [Runtime.setDtvValue, if_neg nonzero]
  cases found : (runtime.tcbs tp).dtvEntry id with
  | none => simp
  | some entry => simp

namespace Represents

open TcbMemory

variable {blocks : ControlBlocks} {runtime next : Runtime} {state : TcbMemory} {tp : Nat}

/-- What the allocator has handed out, with one thread's part in front. -/
theorem vectors_split (represents : Represents blocks runtime) (listed : tp ∈ blocks.threads) :
    ∃ live, replay [] blocks.state.calls = some live ∧
      live.Perm (vector blocks.state.memory tp ++
        (blocks.threads.erase tp).flatMap (vector blocks.state.memory)) := by
  obtain ⟨live, replayed, same⟩ := represents.accounted
  have front := (List.perm_cons_erase listed).flatMap_right (vector blocks.state.memory)
  rw [List.flatMap_cons] at front
  exact ⟨live, replayed, same.trans front⟩

/-- One thread's control block changes, in memory that no other thread uses. -/
theorem change (represents : Represents blocks runtime) (listed : tp ∈ blocks.threads)
    {touched : List Region} (within : blocks.state.memory.Within state.memory touched)
    (clear : ∀ other ∈ blocks.threads, other ≠ tp →
      ∀ used ∈ footprint blocks.state.memory other, ∀ region ∈ touched, used.Apart region)
    (same : ∀ other, other ≠ tp → next.tcbs other = runtime.tcbs other)
    (record : HoldsTcb state.memory tp (next.tcbs tp))
    (own : (footprint state.memory tp).Pairwise Region.Apart)
    (inside : ∀ used ∈ footprint state.memory tp,
      used ∈ touched ∨ used ∈ footprint blocks.state.memory tp)
    (accounted : ∃ live, replay [] state.calls = some live ∧
      live.Perm (vector state.memory tp ++
        (blocks.threads.erase tp).flatMap (vector blocks.state.memory))) :
    Represents { blocks with state := state } next := by
  have agree {other : Nat} (present : other ∈ blocks.threads) (different : other ≠ tp)
      (used : Region) (mine : used ∈ footprint blocks.state.memory other) :
      state.memory.Agree blocks.state.memory used :=
    within.agree (clear other present different used mine)
  have kept {other : Nat} (present : other ∈ blocks.threads) (different : other ≠ tp) :
      footprint state.memory other = footprint blocks.state.memory other :=
    footprint_frame (agree present different _ header_mem_footprint)
  have away {other : Nat} (present : other ∈ blocks.threads) (different : other ≠ tp)
      (used : Region) (theirs : used ∈ footprint blocks.state.memory other) (mine : Region)
      (ours : mine ∈ footprint state.memory tp) : used.Apart mine := by
    cases inside mine ours with
    | inl changed => exact clear other present different used theirs mine changed
    | inr old => exact represents.apart other present tp listed different used theirs mine old
  refine ⟨represents.distinct, represents.nonzero, represents.bounded, ?_, ?_, ?_, ?_⟩
  · intro other present
    by_cases different : other = tp
    · rw [different]
      exact own
    · rw [kept present different]
      exact represents.own other present
  · intro left leftListed right rightListed distinct mine mineListed other otherListed
    by_cases leftSame : left = tp
    · rw [leftSame] at mineListed distinct
      rw [kept rightListed distinct.symm] at otherListed
      exact (away rightListed distinct.symm other otherListed mine mineListed).symm
    · rw [kept leftListed leftSame] at mineListed
      by_cases rightSame : right = tp
      · rw [rightSame] at otherListed
        exact away leftListed leftSame mine mineListed other otherListed
      · rw [kept rightListed rightSame] at otherListed
        exact represents.apart left leftListed right rightListed distinct mine mineListed other
          otherListed
  · intro other present
    by_cases different : other = tp
    · rw [different]
      exact record
    · rw [same other different]
      exact (represents.records other present).frame (agree present different)
  · obtain ⟨live, replayed, split⟩ := accounted
    refine ⟨live, replayed, split.trans ?_⟩
    have front := (List.perm_cons_erase listed).flatMap_right (vector state.memory)
    rw [List.flatMap_cons] at front
    have others : (blocks.threads.erase tp).flatMap (vector blocks.state.memory) =
        (blocks.threads.erase tp).flatMap (vector state.memory) := by
      apply List.flatMap_congr
      intro other remaining
      obtain ⟨different, present⟩ := (represents.distinct.mem_erase_iff).mp remaining
      exact (vector_frame (agree present different _ header_mem_footprint)).symm
    rw [others]
    exact front.symm

theorem deallocate (represents : Represents blocks runtime) (listed : tp ∈ blocks.threads) :
    Represents { blocks with state := blocks.state.deallocateTcb tp } (runtime.deallocateTcb tp) ∧
      (runtime.deallocateTcb tp).tcbs tp = { runtime.tcbs tp with dtv := none } := by
  have nonzero := represents.nonzero tp listed
  obtain ⟨calls, within, record⟩ :=
    deallocateTcb_spec (represents.records tp listed) nonzero
  have cleared : (runtime.deallocateTcb tp).tcbs tp = { runtime.tcbs tp with dtv := none } := by
    rw [Runtime.deallocateTcb, if_neg nonzero]
    exact Function.update_self ..
  have nothing := vector_of_null (record.noVector rfl)
  have lone : footprint (blocks.state.deallocateTcb tp).memory tp = [header tp] := by
    rw [footprint, nothing, List.map_nil]
  refine ⟨represents.change listed within ?_ ?_ ?_ ?_ ?_ ?_, cleared⟩
  · intro other present different used theirs region touched
    rw [List.mem_singleton.mp touched]
    exact represents.apart other present tp listed different used theirs _ header_mem_footprint
  · intro other different
    rw [Runtime.deallocateTcb, if_neg nonzero]
    exact Function.update_of_ne different ..
  · rw [cleared]
    exact record
  · rw [lone]
    exact List.pairwise_singleton ..
  · intro used mine
    rw [lone] at mine
    exact .inl mine
  · obtain ⟨live, replayed, split⟩ := represents.vectors_split listed
    obtain ⟨left, freed, rest⟩ := replay_deallocs split
    refine ⟨left, ?_, ?_⟩
    · rw [calls, replay_append, replayed, Option.bind_some, freed]
    · rw [nothing]
      exact rest

/-- A new vector in unused memory for a thread that has none. -/
theorem install (represents : Represents blocks runtime) (listed : tp ∈ blocks.threads)
    (none : (runtime.tcbs tp).dtv = none) {base : Nat} (nonzero : base ≠ 0)
    (bounded : base + (dtvSlotCount + 2) * dtvEntrySize ≤ 2 ^ usizeBits)
    (unused : ControlBlocks.Unused blocks.state.memory blocks.threads
      ⟨base, (dtvSlotCount + 2) * dtvEntrySize⟩) :
    ∃ allocated, blocks.state.allocateDtv base = .ok (base + dtvEntrySize, allocated) ∧
      Represents { blocks with state := allocated.writeTcb tp (base + dtvEntrySize) }
        (runtime.initTcb tp) := by
  obtain ⟨allocated, accepted, calls, within, holds⟩ :=
    @allocateDtv_spec blocks.state base nonzero bounded
  have apart := unused tp listed _ header_mem_footprint
  have room : 0 < tcbPointerGuardOffset + 8 := by
    decide
  have reach : tp < 2 ^ usizeBits :=
    Nat.lt_of_lt_of_le (Nat.lt_add_of_pos_right room) (represents.bounded tp listed)
  have pointer : base + dtvEntrySize < 2 ^ usizeBits := by
    simp only [dtvSlotCount, dtvEntrySize] at bounded ⊢
    omega
  obtain ⟨self, dtv, threadSelf, stackGuard, pointerGuard⟩ :=
    @writeTcb_read allocated tp (base + dtvEntrySize) reach pointer
  have written : allocated.memory.Within
      (allocated.writeTcb tp (base + dtvEntrySize)).memory [header tp] := writeTcb_within _
  have stored : HoldsVector (allocated.writeTcb tp (base + dtvEntrySize)).memory
      (base + dtvEntrySize) .new := by
    apply holds.frame
    rw [Nat.add_sub_cancel]
    exact written.agree fun _ block => List.mem_singleton.mp block ▸ apart
  have installed : (runtime.initTcb tp).tcbs tp =
      ⟨tp, some .new, tp, bootstrapStackGuard, bootstrapPointerGuard⟩ := Function.update_self ..
  have blocksOf : vector (allocated.writeTcb tp (base + dtvEntrySize)).memory tp =
      [⟨base, ⟨(dtvSlotCount + 2) * dtvEntrySize, 8⟩⟩] := vector_of_pointer dtv
  have regions : footprint (allocated.writeTcb tp (base + dtvEntrySize)).memory tp =
      [header tp, ⟨base, (dtvSlotCount + 2) * dtvEntrySize⟩] := by
    rw [footprint, blocksOf, List.map_singleton]
  refine ⟨allocated, accepted, ?_⟩
  have changed : blocks.state.memory.Within
      (allocated.writeTcb tp (base + dtvEntrySize)).memory
      [header tp, ⟨base, (dtvSlotCount + 2) * dtvEntrySize⟩] :=
    (within.mono fun _ block => List.mem_cons_of_mem _ block).trans
      (written.mono fun _ mine => List.mem_singleton.mp mine ▸ List.mem_cons_self)
  refine represents.change listed changed ?_ ?_ ?_ ?_ ?_ ?_
  · intro other present different used theirs region touched
    cases List.mem_cons.mp touched with
    | inl mine =>
        rw [mine]
        exact represents.apart other present tp listed different used theirs _ header_mem_footprint
    | inr block =>
        rw [List.mem_singleton.mp block]
        exact (unused other present used theirs).symm
  · intro other different
    exact Function.update_of_ne different ..
  · rw [installed]
    refine ⟨self, nofun, ?_, threadSelf, stackGuard, pointerGuard⟩
    intro contents same
    cases same
    rw [TcbMemory.read] at dtv
    rw [dtv]
    exact stored
  · rw [regions]
    exact List.pairwise_pair.mpr apart.symm
  · intro used mine
    rw [regions] at mine
    exact .inl mine
  · obtain ⟨live, replayed, split⟩ := represents.vectors_split listed
    have nothing := vector_of_null ((represents.records tp listed).noVector none)
    rw [nothing, List.nil_append] at split
    refine ⟨live ++ [⟨base, ⟨(dtvSlotCount + 2) * dtvEntrySize, 8⟩⟩], ?_, ?_⟩
    · have logged : (allocated.writeTcb tp (base + dtvEntrySize)).calls = allocated.calls := rfl
      rw [logged, calls, replay_append, replayed, Option.bind_some, replay_alloc]
    · rw [blocksOf]
      exact (List.perm_append_singleton _ _).trans (split.cons _)

/-- The memory of a thread that is gone is nobody's, once its vector is given back. -/
theorem forget (represents : Represents blocks runtime)
    (nothing : vector blocks.state.memory tp = []) :
    Represents { blocks with threads := blocks.threads.erase tp } runtime := by
  have remaining {other : Nat} (listed : other ∈ blocks.threads.erase tp) :
      other ∈ blocks.threads := List.mem_of_mem_erase listed
  refine ⟨represents.distinct.erase tp, ?_, ?_, ?_, ?_, ?_, ?_⟩
  · exact fun other listed => represents.nonzero other (remaining listed)
  · exact fun other listed => represents.bounded other (remaining listed)
  · exact fun other listed => represents.own other (remaining listed)
  · exact fun left first right second =>
      represents.apart left (remaining first) right (remaining second)
  · exact fun other listed => represents.records other (remaining listed)
  · obtain ⟨live, replayed, same⟩ := represents.accounted
    refine ⟨live, replayed, same.trans ?_⟩
    by_cases listed : tp ∈ blocks.threads
    · have front := (List.perm_cons_erase listed).flatMap_right (vector blocks.state.memory)
      rwa [List.flatMap_cons, nothing, List.nil_append] at front
    · rw [List.erase_of_not_mem listed]

theorem store (represents : Represents blocks runtime) {address : Nat} {bytes : List UInt8}
    (unused : ControlBlocks.Unused blocks.state.memory blocks.threads ⟨address, bytes.length⟩) :
    Represents { blocks with
      state := { blocks.state with memory := blocks.state.memory.write address bytes } }
      runtime := by
  have agree {other : Nat} (listed : other ∈ blocks.threads) (used : Region)
      (mine : used ∈ footprint blocks.state.memory other) :
      (blocks.state.memory.write address bytes).Agree blocks.state.memory used :=
    ByteMemory.write_apart _ _ _ _ (unused other listed used mine).symm
  have header {other : Nat} (listed : other ∈ blocks.threads) :=
    agree listed _ header_mem_footprint
  refine ⟨represents.distinct, represents.nonzero, represents.bounded, ?_, ?_, ?_, ?_⟩
  · intro other listed
    rw [footprint_frame (header listed)]
    exact represents.own other listed
  · intro left first right second
    rw [footprint_frame (header first), footprint_frame (header second)]
    exact represents.apart left first right second
  · exact fun other listed => (represents.records other listed).frame (agree listed)
  · obtain ⟨live, replayed, same⟩ := represents.accounted
    refine ⟨live, replayed, same.trans (List.Perm.of_eq ?_)⟩
    exact List.flatMap_congr fun other listed => (vector_frame (header listed)).symm

theorem join (represents : Represents blocks runtime) (nonzero : tp ≠ 0)
    (fresh : tp ∉ blocks.threads)
    (bounded : (header tp).base + (header tp).size ≤ 2 ^ usizeBits)
    (unused : ControlBlocks.Unused blocks.state.memory blocks.threads (header tp))
    (record : HoldsTcb blocks.state.memory tp .zero)
    (same : ∀ other ∈ blocks.threads, next.tcbs other = runtime.tcbs other)
    (zero : next.tcbs tp = .zero) :
    Represents { blocks with threads := tp :: blocks.threads } next := by
  have nothing := vector_of_null (record.noVector rfl)
  have lone : footprint blocks.state.memory tp = [header tp] := by
    rw [footprint, nothing, List.map_nil]
  refine ⟨List.nodup_cons.mpr ⟨fresh, represents.distinct⟩, ?_, ?_, ?_, ?_, ?_, ?_⟩
  · exact List.forall_mem_cons.mpr ⟨nonzero, represents.nonzero⟩
  · exact List.forall_mem_cons.mpr ⟨bounded, represents.bounded⟩
  · refine List.forall_mem_cons.mpr ⟨?_, represents.own⟩
    rw [lone]
    exact List.pairwise_singleton ..
  · intro left first right second distinct mine mineListed other otherListed
    rw [List.mem_cons] at first second
    cases first with
    | inl new =>
        cases second with
        | inl again => exact absurd (new.trans again.symm) distinct
        | inr old =>
            rw [new, lone] at mineListed
            rw [List.mem_singleton.mp mineListed]
            exact unused right old other otherListed
    | inr old =>
        cases second with
        | inl new =>
            rw [new, lone] at otherListed
            rw [List.mem_singleton.mp otherListed]
            exact (unused left old mine mineListed).symm
        | inr both =>
            exact represents.apart left old right both distinct mine mineListed other otherListed
  · refine List.forall_mem_cons.mpr ⟨?_, ?_⟩
    · rw [zero]
      exact record
    · intro other listed
      rw [same other listed]
      exact represents.records other listed
  · obtain ⟨live, replayed, split⟩ := represents.accounted
    refine ⟨live, replayed, ?_⟩
    rw [List.flatMap_cons, nothing, List.nil_append]
    exact split

theorem set (represents : Represents blocks runtime) (listed : tp ∈ blocks.threads)
    (id : Nat) {value toFree : Nat} (word : value < 2 ^ usizeBits)
    (freed : toFree < 2 ^ usizeBits) :
    Represents { blocks with state := (blocks.state.setDtvValue tp id value toFree).2 }
      ((runtime.setDtvValue tp id value toFree).getD runtime) := by
  have nonzero := represents.nonzero tp listed
  have own := represents.own tp listed
  obtain ⟨calls, within, same, record⟩ :=
    setDtvValue_spec id (represents.records tp listed) nonzero own word freed
  have regions : footprint (blocks.state.setDtvValue tp id value toFree).2.memory tp =
      footprint blocks.state.memory tp := by
    rw [footprint, same, footprint]
  have stored := runtime.setDtvValue_tcbs nonzero id value toFree
  refine represents.change listed within ?_ ?_ ?_ ?_ ?_ ?_
  · intro other present different used theirs region mine
    exact represents.apart other present tp listed different used theirs region mine
  · intro other different
    rw [stored]
    exact Function.update_of_ne different ..
  · rw [stored, Function.update_self]
    exact record
  · rw [regions]
    exact own
  · intro used mine
    rw [regions] at mine
    exact .inl mine
  · rw [calls, same]
    exact represents.vectors_split listed

end Represents

namespace ControlBlocks

open TcbMemory

variable {blocks next : ControlBlocks} {runtime : Runtime} {action : ControlAction}

/-- A part of the region that was just written is still nobody's. -/
theorem Unused.write {memory : ByteMemory} {threads : List Nat} {address : Nat}
    {bytes : List UInt8} (unused : Unused memory threads ⟨address, bytes.length⟩) {inner : Region}
    (inside : inner.Inside ⟨address, bytes.length⟩) :
    Unused (memory.write address bytes) threads inner := by
  intro other listed used mine
  have agree := ByteMemory.write_apart memory address bytes (header other)
    (unused other listed _ header_mem_footprint).symm
  rw [footprint_frame agree] at mine
  exact ((unused other listed used mine).symm.inside inside).symm

theorem zeroed_record (memory : ByteMemory) {base size tp : Nat}
    (inside : (header tp).Inside ⟨base, size⟩) :
    HoldsTcb (memory.write base (List.replicate size 0)) tp .zero := by
  obtain ⟨above, below⟩ := inside
  simp only [header, tcbPointerGuardOffset] at above below
  have zero {offset : Nat} (listed : offset ≤ tcbPointerGuardOffset) :
      (memory.write base (List.replicate size 0)).word 8 (tp + offset) = 0 := by
    simp only [tcbPointerGuardOffset] at listed
    exact ByteMemory.word_zeroed (by omega) (by omega)
  exact ⟨zero (by decide), fun _ => zero (by decide), nofun, zero (by decide), zero (by decide),
    zero (by decide)⟩

/-- An allowed action is carried out, and the records follow it. -/
theorem act_represents (represents : Represents blocks runtime) (allowed : blocks.Allowed action) :
    ∃ next, blocks.act action = .ok next ∧ Represents next (runtime.control action) := by
  cases action with
  | storage base layout tp =>
      obtain ⟨nonzero, fresh, inside, bounded, unused⟩ := allowed
      refine ⟨_, rfl, ?_⟩
      have length : (List.replicate layout.size (0 : UInt8)).length = layout.size :=
        List.length_replicate
      rw [← length] at unused
      have within : (header tp).Inside ⟨base, (List.replicate layout.size (0 : UInt8)).length⟩ :=
        length.symm ▸ inside
      refine (represents.store unused).join nonzero fresh (inside.2.trans bounded)
        (unused.write within) (zeroed_record _ inside) ?_ ?_
      · intro other listed
        have away := unused other listed _ header_mem_footprint
        rw [length] at away
        refine if_neg fun covered => ?_
        simp only [Region.Apart, header, tcbPointerGuardOffset] at away
        omega
      · obtain ⟨above, below⟩ := inside
        simp only [header, tcbPointerGuardOffset] at above below
        exact if_pos ⟨above, by omega⟩
  | init tp base =>
      obtain ⟨listed, nonzero, bounded, unused⟩ := allowed
      obtain ⟨cleared, record⟩ := represents.deallocate listed
      have none : ((runtime.deallocateTcb tp).tcbs tp).dtv = none := by
        rw [record]
      obtain ⟨allocated, accepted, installed⟩ :=
        cleared.install listed none nonzero bounded unused
      have done : blocks.state.initTcb tp base =
          .ok (allocated.writeTcb tp (base + dtvEntrySize)) := by
        rw [initTcb, accepted]
        rfl
      have same : (runtime.deallocateTcb tp).initTcb tp = runtime.initTcb tp := by
        rw [Runtime.deallocateTcb, if_neg (represents.nonzero tp listed)]
        simp [Runtime.initTcb]
      refine ⟨{ blocks with state := allocated.writeTcb tp (base + dtvEntrySize) }, ?_, ?_⟩
      · rw [act, done]
        rfl
      · rw [Runtime.control, ← same]
        exact installed
  | set tp id value toFree =>
      obtain ⟨listed, word, freed⟩ := allowed
      exact ⟨_, rfl, represents.set listed id word freed⟩
  | deallocate tp => exact ⟨_, rfl, (represents.deallocate allowed).1⟩
  | retire tp =>
      obtain ⟨cleared, record⟩ := represents.deallocate allowed
      have empty := (cleared.records tp allowed).noVector (by rw [record])
      exact ⟨_, rfl, cleared.forget (vector_of_null empty)⟩
  | store address bytes => exact ⟨_, rfl, represents.store allowed⟩

theorem run_represents {start finish : ControlBlocks} {actions : List ControlAction}
    (initial : system.initial start) (run : system.Run start actions finish) :
    Represents finish (Runtime.controlled actions) := by
  induction run with
  | refl =>
      obtain ⟨memory, rfl⟩ := initial
      exact ⟨List.nodup_nil, nofun, nofun, nofun, nofun, nofun, ⟨[], rfl, .refl _⟩⟩
  | snoc _ step ih =>
      obtain ⟨next, acted, represents⟩ := act_represents ih step.1
      rw [Runtime.controlled, List.foldl_append]
      cases acted.symm.trans step.2
      exact represents

end ControlBlocks

/-- After every run the words in memory are the records that the same calls make, every
answer about a vector is the one that the records give, and each vector is given back once,
with the layout that it was allocated with. No control block touches another. -/
theorem control_blocks_hold_records (start finish : ControlBlocks) (actions : List ControlAction)
    (initial : ControlBlocks.system.initial start)
    (run : ControlBlocks.system.Run start actions finish) :
    (∀ tp ∈ finish.threads,
      HoldsTcb finish.state.memory tp ((Runtime.controlled actions).tcbs tp) ∧
        (∀ id, finish.state.dtvValue tp id = (Runtime.controlled actions).dtvValue tp id) ∧
        ∀ id value toFree, (finish.state.setDtvValue tp id value toFree).1 =
          ((Runtime.controlled actions).setDtvValue tp id value toFree).isSome) ∧
      (∃ live, replay [] finish.state.calls = some live ∧
        live.Perm (finish.threads.flatMap (TcbMemory.vector finish.state.memory))) ∧
      (finish.threads.flatMap (TcbMemory.footprint finish.state.memory)).Pairwise Region.Apart ∧
      ∀ action, finish.Allowed action → ∃ next, finish.act action = .ok next := by
  have represents := ControlBlocks.run_represents initial run
  refine ⟨?_, represents.accounted, ?_, ?_⟩
  · intro tp listed
    have record := represents.records tp listed
    have nonzero := represents.nonzero tp listed
    exact ⟨record, fun id => TcbMemory.dtvValue_eq record nonzero,
      fun id value toFree => TcbMemory.setDtvValue_answer record nonzero value toFree⟩
  · rw [List.pairwise_flatMap]
    refine ⟨represents.own, represents.distinct.imp_of_mem ?_⟩
    intro left right leftListed rightListed distinct
    exact represents.apart left leftListed right rightListed distinct
  · intro action allowed
    obtain ⟨next, acted, _⟩ := ControlBlocks.act_represents represents allowed
    exact ⟨next, acted⟩

/-- A vector is replaced by one at the same place, and another thread comes and goes. -/
def vectorCalls : List ControlAction := [
  .storage 0x1000 ⟨0x100, 64⟩ 0x1040,
  .init 0x1040 0x2000,
  .set 0x1040 1 0x5000 0x5000,
  .storage 0x3000 ⟨0x100, 64⟩ 0x3080,
  .init 0x3080 0x6000,
  .store 0x1078 [1, 2, 3],
  .init 0x1040 0x2000,
  .set 0x1040 2 0x7000 0,
  .retire 0x3080]

def ControlBlocks.actAllowed (blocks : ControlBlocks) (action : ControlAction) :
    Option ControlBlocks :=
  if blocks.Allowed action then (blocks.act action).toOption else none

theorem control_blocks_hold_records_reused :
    ∃ finish, ControlBlocks.system.Run (.empty fun _ => 0xff) vectorCalls finish ∧
      finish.state.dtvValue 0x1040 1 = none ∧ finish.state.dtvValue 0x1040 2 = some 0x7000 := by
  have evaluated : ((TransitionSystem.runLabels ControlBlocks.actAllowed
      (.empty fun _ => 0xff) vectorCalls).map ControlBlocks.threads) = some [0x1040] := by
    decide +kernel
  obtain ⟨finish, ran, threads⟩ := Option.map_eq_some_iff.mp evaluated
  have run : ControlBlocks.system.Run (.empty fun _ => 0xff) vectorCalls finish := by
    refine TransitionSystem.Run.refl.runLabels ?_ ran
    intro before action next served
    obtain ⟨allowed, acted⟩ := Option.ite_none_right_eq_some.mp served
    exact ⟨allowed, toOption_eq_some_iff.mp acted⟩
  have holds := control_blocks_hold_records _ finish vectorCalls ⟨_, rfl⟩ run
  obtain ⟨_, answers, _⟩ := holds.1 0x1040 (threads ▸ List.mem_cons_self)
  refine ⟨finish, run, ?_, ?_⟩
  · rw [answers]
    decide +kernel
  · rw [answers]
    decide +kernel

end DynLinker.Tls
