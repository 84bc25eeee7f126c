import DynLinker.Lib.TransitionSystem
import DynLinker.Tls.StaticTables
import Mathlib.Data.Int.ModEq

/-! The layout of static thread-local storage over any history of registrations. Blocks
are never handed out twice, not even after their module is gone, and the three functions
that compute sizes from the cursor agree. -/

set_option autoImplicit false

namespace DynLinker.Tls

open Lib

/-- The fields are `usize` values. -/
structure TlsInfo.Word (info : TlsInfo) : Prop where
  memsz : info.memsz < 2 ^ usizeBits
  vaddr : info.vaddr < 2 ^ usizeBits
  align : info.align < 2 ^ usizeBits

/-- The runtime and every block that `register_static_module` ever handed out. -/
structure LayoutHistory where
  runtime : Runtime
  handedOut : List StaticTlsModule

/-- For a registration: the segment, and the answers of the kernel should the initial
thread's area still have to be made. -/
inductive LayoutAction where
  | registerStatic (info : TlsInfo) (base : Nat) (installed : Bool)
  | unregister (id : Nat)

namespace LayoutHistory

def new : LayoutHistory := ⟨.new, []⟩

def handOut (handedOut : List StaticTlsModule) (info : TlsInfo) :
    Except TlsError (Nat × Int) → List StaticTlsModule
  | .error _ => handedOut
  | .ok (id, offset) => handedOut ++ [⟨id, info, none, offset⟩]

def act (history : LayoutHistory) : LayoutAction → LayoutHistory
  | .registerStatic info base installed =>
      let (result, runtime) := history.runtime.registerStaticModule info base installed
      ⟨runtime, handOut history.handedOut info result⟩
  | .unregister id => { history with runtime := history.runtime.unregisterModule id }

def Possible : LayoutAction → Prop
  | .registerStatic info _ _ => info.Word
  | .unregister _ => True

def system : TransitionSystem LayoutHistory LayoutAction where
  initial history := history = new
  step history action next := Possible action ∧ history.act action = next

end LayoutHistory

/-- The alignment that a block is given. -/
def TlsInfo.roundedAlign (info : TlsInfo) : Option Nat :=
  checkedNextPowerOfTwo usizeBits (max info.align 1)

/-! ## One registration -/

namespace Runtime

variable {runtime : Runtime}

/-- What a registration did to the cursor and to the tables. -/
inductive Registers (runtime : Runtime) (info : TlsInfo) :
    Except TlsError (Nat × Int) → Runtime → Prop where
  | failed {error : TlsError} {next : Runtime} :
      next.staticUsedInfo = runtime.staticUsedInfo → next.modules = runtime.modules →
      next.staticModules = runtime.staticModules → Registers runtime info (.error error) next
  | placed {finish align id : Nat} {next : Runtime} :
      placeStatic runtime.staticUsedInfo.1 info = some (finish, align) →
      next.staticUsedInfo = (finish, max runtime.staticUsedInfo.2 align) →
      Registers runtime info (.ok (id, -(finish : Int))) next

theorem registerStaticIn_registers {area : StaticTlsArea} (present : runtime.staticTls = some area)
    (info : TlsInfo) :
    Registers runtime info (runtime.registerStaticIn area info).1
      (runtime.registerStaticIn area info).2 := by
  have cursor : runtime.staticUsedInfo = (area.used, area.maxAlign) := by
    rw [staticUsedInfo, present]
  rcases registerStaticIn_cases runtime area info with
    ⟨error, failed⟩ | ⟨finish, align, placing, succeeded⟩
  · rw [failed]
    exact .failed rfl rfl rfl
  · rw [succeeded]
    refine @Registers.placed runtime info finish align _ _ ?_ ?_
    · rw [cursor]
      exact placing
    · rw [cursor]
      rfl

theorem Registers.of_same {other next : Runtime} {info : TlsInfo}
    {result : Except TlsError (Nat × Int)} (registers : Registers other info result next)
    (cursor : other.staticUsedInfo = runtime.staticUsedInfo)
    (modules : other.modules = runtime.modules)
    (staticModules : other.staticModules = runtime.staticModules) :
    Registers runtime info result next := by
  cases registers with
  | failed sameCursor sameModules sameStatic =>
      exact .failed (sameCursor.trans cursor) (sameModules.trans modules)
        (sameStatic.trans staticModules)
  | placed placing after =>
      rw [cursor] at placing after
      exact .placed placing after

theorem registerStaticModule_registers (info : TlsInfo) (base : Nat) (installed : Bool) :
    Registers runtime info (runtime.registerStaticModule info base installed).1
      (runtime.registerStaticModule info base installed).2 := by
  cases present : runtime.staticTls with
  | some area =>
      rw [registerStaticModule, present]
      exact registerStaticIn_registers present info
  | none =>
      have cursor : runtime.staticUsedInfo = (0, 1) := by
        rw [staticUsedInfo, present]
      cases installed with
      | false =>
          rw [registerStaticModule, present]
          refine .failed ?_ rfl rfl
          change staticUsedInfo { runtime with staticTls := runtime.staticTls } = _
          rfl
      | true =>
          rw [registerStaticModule_new runtime info base present]
          have area : (runtime.withArea base).staticTls =
            some ⟨base + staticTlsArenaSize, 0, 1⟩ := rfl
          exact (registerStaticIn_registers area info).of_same cursor.symm rfl rfl

theorem unregisterModule_staticUsedInfo (id : Nat) :
    (runtime.unregisterModule id).staticUsedInfo = runtime.staticUsedInfo := by
  rw [unregisterModule]
  split
  · rfl
  · rfl

end Runtime

/-! ## Every history -/

/-- The blocks lie one below the other above the cursor, on the addresses their segments
ask for; the cursor leaves room for the rseq area, and the alignment is a power of two. -/
structure LaidOut (history : LayoutHistory) : Prop where
  placed : Placed history.runtime.staticUsedInfo.1 history.handedOut
  fits : ∃ total, staticUsedWithRseq history.runtime.staticUsedInfo.1 = some total ∧
    total ≤ staticTlsArenaSize
  congruent : ∀ block ∈ history.handedOut, ∃ align, block.info.roundedAlign = some align ∧
    Int.ModEq align block.offset block.info.vaddr
  power : ∃ low < usizeBits, history.runtime.staticUsedInfo.2 = 2 ^ low

namespace LaidOut

variable {history : LayoutHistory}

theorem new : LaidOut .new where
  placed := .nil _
  fits := ⟨rseqAreaSize, staticUsedWithRseq_zero, by decide⟩
  congruent _ listed := by cases listed
  power := ⟨0, by decide, rfl⟩

theorem register (valid : LaidOut history) {info : TlsInfo} (word : info.Word) (base : Nat)
    (installed : Bool) : LaidOut (history.act (.registerStatic info base installed)) := by
  have registers := history.runtime.registerStaticModule_registers info base installed
  rw [LayoutHistory.act]
  revert registers
  generalize history.runtime.registerStaticModule info base installed = result
  intro registers
  obtain ⟨result, next⟩ := result
  cases registers with
  | failed cursor _ _ =>
      refine ⟨?_, ?_, valid.congruent, ?_⟩
      · exact cursor ▸ valid.placed
      · exact cursor ▸ valid.fits
      · exact cursor ▸ valid.power
  | @placed finish align id _ placing cursor =>
      obtain ⟨beyond, fits⟩ := Runtime.placeStatic_spec placing
      obtain ⟨rounding, ending, _⟩ := Runtime.placeStatic_eq_some_iff.mp placing
      obtain ⟨low, bounded, rfl, _⟩ := checkedNextPowerOfTwo_spec rounding
      refine ⟨?_, ?_, ?_, ?_⟩
      · rw [show Runtime.staticUsedInfo next = _ from cursor]
        exact valid.placed.append beyond
      · rw [show Runtime.staticUsedInfo next = _ from cursor]
        exact fits
      · intro block listed
        rcases List.mem_append.mp listed with old | new
        · exact valid.congruent block old
        · cases List.mem_singleton.mp new
          refine ⟨2 ^ low, rounding, ?_⟩
          have aligned := staticModuleEnd_congruent bounded.le word.vaddr ending
          refine (Int.modEq_iff_dvd).mpr ?_
          rw [sub_neg_eq_add, add_comm]
          exact_mod_cast aligned
      · rw [show Runtime.staticUsedInfo next = _ from cursor]
        exact max_two_pow valid.power ⟨low, bounded, rfl⟩

theorem unregister (valid : LaidOut history) (id : Nat) :
    LaidOut (history.act (.unregister id)) := by
  have cursor := history.runtime.unregisterModule_staticUsedInfo id
  refine ⟨?_, ?_, valid.congruent, ?_⟩
  · exact cursor ▸ valid.placed
  · exact cursor ▸ valid.fits
  · exact cursor ▸ valid.power

end LaidOut

theorem laidOut_inductive : LayoutHistory.system.Inductive LaidOut where
  initially history initial := initial ▸ LaidOut.new
  preserved history action next valid step := by
    obtain ⟨possible, rfl⟩ := step
    cases action with
    | registerStatic info base installed => exact valid.register possible base installed
    | unregister id => exact valid.unregister id

/-! ## Sizes -/

/-- Where the allocation of a thread's storage puts things: the size and the alignment
are those of `static_info`, and the static part reaches below the rseq area. -/
theorem LaidOut.storageLayout_eq {history : LayoutHistory} (valid : LaidOut history)
    {staticSize : Nat} {layout : Layout}
    (accepted : history.runtime.storageLayout = some (staticSize, layout)) :
    history.runtime.staticInfo = (layout.size, layout.align) := by
  obtain ⟨total, computed, accepted⟩ := Option.bind_eq_some_iff.mp accepted
  obtain ⟨align, rounding, accepted⟩ := Option.bind_eq_some_iff.mp accepted
  obtain ⟨raised, raising, accepted⟩ := Option.bind_eq_some_iff.mp accepted
  obtain ⟨whole, adding, accepted⟩ := Option.bind_eq_some_iff.mp accepted
  obtain ⟨chosen, laying, returned⟩ := Option.bind_eq_some_iff.mp accepted
  cases returned
  obtain ⟨rfl, _, _⟩ := Layout.fromSizeAlign_spec laying
  obtain ⟨_, same⟩ := checkedAdd_eq_some_iff.mp adding
  have positive : max whole 1 = whole := by
    refine Nat.max_eq_left ?_
    rw [same]
    exact Nat.le_add_left_of_le (by decide)
  obtain ⟨most, inside, power⟩ := storageAlign_power valid.power
  have ours := power 8 (by decide)
  have theirs := power 1 (by decide)
  rw [ours, checkedNextPowerOfTwo_two_pow inside] at rounding
  cases rounding
  rw [Runtime.staticInfo, computed, Option.getD_some, theirs, raising, Option.bind_some, adding,
    Option.getD_some, positive]

/-- What the layout promises in one state. -/
structure StaticLayout (history : LayoutHistory) : Prop where
  disjoint : history.handedOut.Pairwise fun left right : StaticTlsModule =>
    left.offset + (left.info.memsz : Int) ≤ right.offset ∨
      right.offset + (right.info.memsz : Int) ≤ left.offset
  inside : ∀ block ∈ history.handedOut,
    -(staticTlsArenaSize : Int) ≤ block.offset ∧ block.offset + block.info.memsz ≤ 0
  rseq : ∃ total, staticUsedWithRseq history.runtime.staticUsedInfo.1 = some total ∧
    total ≤ staticTlsArenaSize ∧
    ∀ block ∈ history.handedOut, -(total : Int) + rseqAreaSize ≤ block.offset
  congruent : ∀ block ∈ history.handedOut, ∃ align, block.info.roundedAlign = some align ∧
    Int.ModEq align block.offset block.info.vaddr
  failing : ∀ info base installed error next,
    history.runtime.registerStaticModule info base installed = (.error error, next) →
    next.staticUsedInfo = history.runtime.staticUsedInfo ∧
      next.modules = history.runtime.modules ∧ next.staticModules = history.runtime.staticModules
  storage : ∀ base tp next, history.runtime.allocateStorage base = some (tp, next) →
    ∃ layout total, next.allocations = history.runtime.allocations ++ [⟨tp, base, layout⟩] ∧
      history.runtime.staticInfo = (layout.size, layout.align) ∧
      staticUsedWithRseq history.runtime.staticUsedInfo.1 = some total ∧
      (base : Int) ≤ tp - total ∧ (tp : Int) - total + rseqAreaSize ≤ base + layout.size ∧
      ∀ block ∈ history.handedOut, (base : Int) ≤ tp + block.offset ∧
        tp + block.offset + block.info.memsz ≤ base + layout.size

theorem LaidOut.staticLayout {history : LayoutHistory} (valid : LaidOut history) :
    StaticLayout history where
  disjoint := valid.placed.ordered.imp fun below => .inr below
  inside block listed := by
    obtain ⟨total, computed, bounded⟩ := valid.fits
    obtain ⟨finish, offset, size, used⟩ := valid.placed.below block listed
    have room := staticUsedWithRseq_spec computed
    omega
  rseq := by
    obtain ⟨total, computed, bounded⟩ := valid.fits
    refine ⟨total, computed, bounded, ?_⟩
    intro block listed
    obtain ⟨finish, offset, size, used⟩ := valid.placed.below block listed
    have room := staticUsedWithRseq_spec computed
    omega
  congruent := valid.congruent
  failing info base installed error next failed := by
    have registers := history.runtime.registerStaticModule_registers info base installed
    rw [failed] at registers
    cases registers with
    | failed cursor modules staticModules => exact ⟨cursor, modules, staticModules⟩
  storage base tp next accepted := by
    obtain ⟨⟨staticSize, layout⟩, laying, returned⟩ := Option.bind_eq_some_iff.mp accepted
    cases returned
    obtain ⟨⟨total, computed, reach⟩, size, _⟩ := Runtime.storageLayout_spec laying
    have room := staticUsedWithRseq_spec computed
    refine ⟨layout, total, rfl, valid.storageLayout_eq laying, computed, ?_, ?_, ?_⟩
    · omega
    · rw [size]
      simp only [rseqAreaSize] at *
      omega
    · intro block listed
      obtain ⟨finish, offset, small, used⟩ := valid.placed.below block listed
      rw [size]
      omega

/-- In every state that registrations, successful or not, and removals lead to. -/
theorem static_layout_invariant {history : LayoutHistory}
    (reached : LayoutHistory.system.Reachable history) : StaticLayout history :=
  (laidOut_inductive.reachable reached).staticLayout

/-- A block of 16 bytes whose segment starts 8 bytes after a multiple of 32. -/
def skewedInfo : TlsInfo := ⟨16, 8, 32⟩

/-- The history in which it is handed out, its module goes, and another one follows. -/
theorem static_layout_invariant_skewed :
    ∃ history, LayoutHistory.system.Run .new [.registerStatic skewedInfo 4096 true,
        .unregister 1, .registerStatic ⟨100, 0, 1⟩ 0 true] history ∧
      history.handedOut.map (·.offset) = [-24, -124] ∧ StaticLayout history := by
  have fits : LayoutHistory.Possible (.registerStatic skewedInfo 4096 true) :=
    ⟨by decide, by decide, by decide⟩
  have removes : LayoutHistory.Possible (.unregister 1) := trivial
  have follows : LayoutHistory.Possible (.registerStatic ⟨100, 0, 1⟩ 0 true) :=
    ⟨by decide, by decide, by decide⟩
  let first := LayoutHistory.new.act (.registerStatic skewedInfo 4096 true)
  let second := first.act (.unregister 1)
  let third := second.act (.registerStatic ⟨100, 0, 1⟩ 0 true)
  have start : LayoutHistory.system.Run .new [] .new := .refl
  have early : LayoutHistory.system.Run .new _ first := start.snoc ⟨fits, rfl⟩
  have middle : LayoutHistory.system.Run .new _ second := early.snoc ⟨removes, rfl⟩
  have run : LayoutHistory.system.Run .new _ third := middle.snoc ⟨follows, rfl⟩
  refine ⟨_, run, by decide +kernel, static_layout_invariant ⟨_, _, rfl, run⟩⟩

end DynLinker.Tls
