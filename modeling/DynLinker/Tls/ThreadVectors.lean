import DynLinker.Tls.RuntimeProperties

/-! What the calls of the runtime do to the vectors of the threads: which entries they
write, and what they leave alone. -/

set_option autoImplicit false

namespace DynLinker.Tls

open Lib

theorem Tcb.dtvEntry_setDtvEntry_ne (tcb : Tcb) {id other : Nat} (entry : DtvEntry)
    (different : other ≠ id) : (tcb.setDtvEntry id entry).dtvEntry other = tcb.dtvEntry other := by
  cases vector : tcb.dtv with
  | none => simp [setDtvEntry, dtvEntry, vector]
  | some dtv => simp [setDtvEntry, dtvEntry, vector, Function.update_of_ne different]

theorem Tcb.dtvEntry_setDtvEntry_self {tcb : Tcb} {id : Nat} {old : DtvEntry} (entry : DtvEntry)
    (present : tcb.dtvEntry id = some old) :
    (tcb.setDtvEntry id entry).dtvEntry id = some entry := by
  cases vector : tcb.dtv with
  | none => simp [dtvEntry, vector] at present
  | some dtv =>
      simp only [dtvEntry, vector, Option.bind_eq_bind, Option.bind_some] at present
      split at present
      · cases present
      · next inside =>
          simp only [setDtvEntry, dtvEntry, vector, Option.map_some, Option.bind_eq_bind,
            Option.bind_some, Function.update_self]
          exact if_neg inside

namespace Runtime

variable {runtime next : Runtime} {tp id : Nat}

theorem dtvValue_congr (same : next.tcbs tp = runtime.tcbs tp) (id : Nat) :
    next.dtvValue tp id = runtime.dtvValue tp id := by
  rw [dtvValue, dtvValue, same]

theorem initTcb_own (runtime : Runtime) (tp : Nat) : (runtime.initTcb tp).tcbs tp =
    ⟨tp, some .new, tp, bootstrapStackGuard, bootstrapPointerGuard⟩ :=
  Function.update_self _ _ _

theorem initTcb_dtvValue (runtime : Runtime) (tp id : Nat) :
    (runtime.initTcb tp).dtvValue tp id = none := by
  rw [dtvValue]
  split
  · rfl
  · rw [initTcb_own, Tcb.dtvEntry]
    change (if id = 0 ∨ dtvSlotCount < id then none else some (⟨0, 0⟩ : DtvEntry)).bind _ = none
    split
    · rfl
    · rfl

/-- Only bytes and control blocks are written. -/
def OnlyWrites (runtime next : Runtime) : Prop :=
  ∃ memory tcbs, next = { runtime with memory := memory, tcbs := tcbs }

theorem OnlyWrites.trans {middle : Runtime} (first : runtime.OnlyWrites middle)
    (second : middle.OnlyWrites next) : runtime.OnlyWrites next := by
  obtain ⟨_, _, rfl⟩ := first
  obtain ⟨_, _, rfl⟩ := second
  exact ⟨_, _, rfl⟩

/-- One entry of one vector is written, or nothing at all. -/
structure Stores (runtime next : Runtime) (tp id value : Nat) : Prop where
  writes : runtime.OnlyWrites next
  others : ∀ other, other ≠ tp → next.tcbs other = runtime.tcbs other
  kept : ∀ other, other ≠ id → next.dtvValue tp other = runtime.dtvValue tp other
  stored : ∀ found, next.dtvValue tp id = some found →
    found = value ∨ runtime.dtvValue tp id = some found

theorem Stores.of_memory (memory : ByteMemory) {value : Nat} :
    Stores runtime { runtime with memory := memory } tp id value :=
  ⟨⟨_, _, rfl⟩, fun _ _ => rfl, fun _ _ => rfl, fun _ found => .inr found⟩

theorem setDtvValue_stores {value toFree : Nat}
    (accepted : runtime.setDtvValue tp id value toFree = some next) :
    Stores runtime next tp id value ∧
      next.dtvValue tp id = if value = 0 then none else some value := by
  rw [setDtvValue] at accepted
  split at accepted
  · cases accepted
  · next nonnull =>
      obtain ⟨old, present, returned⟩ := Option.bind_eq_some_iff.mp accepted
      cases returned
      let final := { runtime with
        tcbs := Function.update runtime.tcbs tp
          ((runtime.tcbs tp).setDtvEntry id ⟨value, toFree⟩) }
      have own : final.tcbs tp = (runtime.tcbs tp).setDtvEntry id ⟨value, toFree⟩ :=
        Function.update_self _ _ _
      have exactly : final.dtvValue tp id = if value = 0 then none else some value := by
        rw [dtvValue, if_neg nonnull, own, Tcb.dtvEntry_setDtvEntry_self _ present]
        rfl
      refine ⟨⟨⟨_, _, rfl⟩, ?_, ?_, ?_⟩, exactly⟩
      · intro other different
        exact Function.update_of_ne different _ _
      · intro other different
        change final.dtvValue tp other = _
        rw [dtvValue, dtvValue, if_neg nonnull, if_neg nonnull, own,
          Tcb.dtvEntry_setDtvEntry_ne _ _ different]
      · intro found stored
        change final.dtvValue tp id = some found at stored
        rw [exactly] at stored
        split at stored
        · cases stored
        · exact .inl (Option.some.inj stored).symm

theorem initStaticTlsModule_stores {module : StaticTlsModule}
    (accepted : runtime.initStaticTlsModule tp module = .ok next) :
    Stores runtime next tp module.id (offsetPtr tp module.offset) := by
  rw [initStaticTlsModule] at accepted
  split at accepted
  · cases accepted
    exact .of_memory _
  · obtain ⟨bytes, _, returned⟩ := bind_eq_ok.mp accepted
    have same := Except.ok.inj returned
    cases stored : setDtvValue { runtime with
        memory := runtime.memory.write (offsetPtr tp module.offset) bytes } tp module.id
        (offsetPtr tp module.offset) 0 with
    | none =>
        rw [stored, Option.getD_none] at same
        exact same ▸ .of_memory _
    | some final =>
        rw [stored, Option.getD_some] at same
        obtain ⟨⟨writes, others, kept, found⟩, _⟩ := setDtvValue_stores stored
        exact same ▸ ⟨.trans ⟨_, _, rfl⟩ writes, others, kept, found⟩

theorem initModules_vectors {modules : List StaticTlsModule}
    (accepted : modules.foldlM (fun runtime module => runtime.initStaticTlsModule tp module)
      runtime = .ok next) :
    runtime.OnlyWrites next ∧
      (∀ other, other ≠ tp → next.tcbs other = runtime.tcbs other) ∧
      ∀ id value, next.dtvValue tp id = some value →
        (∃ module ∈ modules, module.id = id ∧ value = offsetPtr tp module.offset) ∨
          runtime.dtvValue tp id = some value := by
  induction modules generalizing runtime with
  | nil =>
      cases accepted
      exact ⟨⟨_, _, rfl⟩, fun _ _ => rfl, fun _ _ found => .inr found⟩
  | cons module rest ih =>
      rw [List.foldlM_cons] at accepted
      obtain ⟨middle, first, later⟩ := bind_eq_ok.mp accepted
      obtain ⟨firstWrites, firstOthers, firstKept, firstStored⟩ := initStaticTlsModule_stores first
      obtain ⟨writes, others, stored⟩ := ih later
      refine ⟨firstWrites.trans writes, ?_, ?_⟩
      · intro other different
        exact (others other different).trans (firstOthers other different)
      · intro id value found
        rcases stored id value found with ⟨writer, listed, rest⟩ | before
        · exact .inl ⟨writer, List.mem_cons_of_mem _ listed, rest⟩
        · by_cases same : id = module.id
          · subst same
            rcases firstStored value before with written | old
            · exact .inl ⟨module, List.mem_cons_self, rfl, written⟩
            · exact .inr old
          · rw [firstKept id same] at before
            exact .inr before

theorem initRseqArea_eq (runtime : Runtime) (tp used : Nat) :
    ∃ memory, runtime.initRseqArea tp used = { runtime with memory := memory } := by
  rw [initRseqArea]
  split
  · exact ⟨_, rfl⟩
  · exact ⟨_, rfl⟩

/-- A thread starts with the entries of the static modules and no others. -/
theorem init_vectors {result : Nat × Runtime} (nonnull : tp ≠ 0)
    (accepted : runtime.init tp = .ok result) :
    result.1 = tp ∧ runtime.OnlyWrites result.2 ∧
      (∀ other, other ≠ tp → result.2.tcbs other = runtime.tcbs other) ∧
      ∀ id value, result.2.dtvValue tp id = some value →
        ∃ module ∈ runtime.staticModules, module.id = id ∧ value = offsetPtr tp module.offset := by
  rw [init, if_neg nonnull] at accepted
  obtain ⟨middle, folding, returned⟩ := bind_eq_ok.mp accepted
  cases returned
  obtain ⟨writes, others, stored⟩ := initModules_vectors folding
  obtain ⟨memory, same⟩ := initRseqArea_eq middle tp middle.staticUsedInfo.1
  rw [same]
  refine ⟨rfl, (OnlyWrites.trans ⟨_, _, rfl⟩ writes).trans ⟨_, _, rfl⟩, ?_, ?_⟩
  · intro other different
    exact (others other different).trans (Function.update_of_ne different _ _)
  · intro id value found
    rcases stored id value found with static | old
    · exact static
    · rw [initTcb_dtvValue] at old
      cases old

/-- A block is filled: the call fails and writes no vector, or one entry points to the
new block. -/
theorem fillDynamicBlock_vectors {ptr : Nat} {info : TlsInfo} {source : Option TlsImageSource}
    {block : Option Nat} {layout : Layout}
    (accepted : runtime.fillDynamicBlock tp id info source layout ptr = .ok (block, next)) :
    (∃ memory leaked, block = none ∧ next = { runtime.allocZeroed layout ptr with
      memory := memory, leaked := leaked ++ runtime.leaked } ∧
      (leaked = [] ∨ leaked = [⟨ptr, pageRoundedSize layout⟩])) ∨
    ∃ stored, block = some ptr ∧ (runtime.allocZeroed layout ptr).OnlyWrites stored ∧
      next = { stored with dynamicBlocks := runtime.dynamicBlocks ++ [⟨tp, ptr, layout⟩] } ∧
      (∀ other, other ≠ tp → next.tcbs other = (runtime.allocZeroed layout ptr).tcbs other) ∧
      (∀ other, other ≠ id →
        next.dtvValue tp other = (runtime.allocZeroed layout ptr).dtvValue tp other) ∧
      next.dtvValue tp id = if ptr = 0 then none else some ptr := by
  unfold fillDynamicBlock at accepted
  cases source with
  | none =>
      obtain ⟨rfl, rfl⟩ := Prod.mk.inj (Except.ok.inj accepted)
      exact .inl ⟨_, [_], rfl, rfl, .inr rfl⟩
  | some source =>
      cases given : source.image with
      | none =>
          simp only [given] at accepted
          obtain ⟨rfl, rfl⟩ := Prod.mk.inj (Except.ok.inj accepted)
          exact .inl ⟨_, [], rfl, rfl, .inl rfl⟩
      | some image =>
          simp only [given] at accepted
          obtain ⟨bytes, _, storing⟩ := bind_eq_ok.mp accepted
          split at storing
          · obtain ⟨rfl, rfl⟩ := Prod.mk.inj (Except.ok.inj storing)
            exact .inl ⟨_, [], rfl, rfl, .inl rfl⟩
          · next stored entry =>
              obtain ⟨rfl, rfl⟩ := Prod.mk.inj (Except.ok.inj storing)
              obtain ⟨⟨writes, others, kept, _⟩, exactly⟩ := setDtvValue_stores entry
              have whole := OnlyWrites.trans ⟨_, _, rfl⟩ writes
              refine .inr ⟨stored, rfl, whole, ?_, others, kept, exactly⟩
              obtain ⟨_, _, rfl⟩ := whole
              rfl

theorem allocZeroed_tcbs {layout : Layout} {ptr : Nat}
    (outside : ¬ (ptr ≤ tp ∧ tp < ptr + layout.size)) :
    (runtime.allocZeroed layout ptr).tcbs tp = runtime.tcbs tp := by
  simp only [allocZeroed, if_neg outside]

/-- The thread's blocks are freed, all of them, and no other thread's vector is touched. -/
theorem dlDeallocateTls_vectors (runtime : Runtime) (nonnull : tp ≠ 0) (deallocTcb : Bool) :
    (∀ other, other ≠ tp →
      (runtime.dlDeallocateTls tp deallocTcb).tcbs other = runtime.tcbs other) ∧
    (runtime.dlDeallocateTls tp deallocTcb).leaked = runtime.leaked ∧
    (runtime.dlDeallocateTls tp deallocTcb).dynamicBlocks.Perm
      (runtime.dynamicBlocks.filter fun block => !decide (block.tp = tp)) := by
  have freed : (runtime.freeDynamicBlocks tp).dynamicBlocks.Perm
      (runtime.dynamicBlocks.filter fun block => !decide (block.tp = tp)) :=
    removeBySwap_perm (fun _ impossible => by cases impossible) (Nat.zero_add _).ge
  have cleared : ∀ other, other ≠ tp → (runtime.deallocateTcb tp).tcbs other =
      runtime.tcbs other := by
    intro other different
    rw [deallocateTcb, if_neg nonnull]
    exact Function.update_of_ne different _ _
  have untouched : (runtime.deallocateTcb tp).dynamicBlocks = runtime.dynamicBlocks ∧
      (runtime.deallocateTcb tp).leaked = runtime.leaked := by
    rw [deallocateTcb, if_neg nonnull]
    exact ⟨rfl, rfl⟩
  rw [dlDeallocateTls, deallocate, if_neg nonnull]
  cases deallocTcb with
  | false =>
      refine ⟨cleared, untouched.2, ?_⟩
      rw [freeDynamicBlocks, untouched.1]
      exact freed
  | true =>
      simp only [if_true]
      split
      · refine ⟨cleared, untouched.2, ?_⟩
        rw [freeDynamicBlocks, untouched.1]
        exact freed
      · refine ⟨cleared, untouched.2, ?_⟩
        simp only [freeDynamicBlocks, untouched.1]
        exact freed

end Runtime

end DynLinker.Tls
