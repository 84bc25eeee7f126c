import DynLinker.Lib.AllocatorLog
import DynLinker.Tls.RuntimeProperties
import DynLinker.Tls.ThreadVectors
import DynLinker.Tls.WorldProperties

/-! The dynamic blocks and the allocator (`allocate_dynamic_block` and
`free_dynamic_blocks` in `tls.rs`): which blocks are allocated after a run, and which of
them the runtime still knows. -/

set_option autoImplicit false

namespace DynLinker.Tls

open Lib

/-- What the allocator hands out and takes back. -/
structure HeapBlock where
  ptr : Nat
  layout : Layout
deriving DecidableEq

def DynamicTlsBlock.heap (block : DynamicTlsBlock) : HeapBlock := ⟨block.ptr, block.layout⟩

/-- A result and the allocator's calls on the way to it. -/
abbrev Logged (Result : Type) : Type := Result × List (HeapCall HeapBlock)

namespace Runtime

/-! ## The calls -/

/-- `allocate_dynamic_block` with its calls of `alloc_zeroed` and `dealloc`. -/
def allocateDynamicBlockLogged (runtime : Runtime) (tp id : Nat) (info : TlsInfo)
    (source : Option TlsImageSource) (ptr : Nat) :
    Except Panic (Logged (Option Nat × Runtime)) :=
  match blockLayout info with
  | none => .ok ((none, runtime), [])
  | some layout =>
      let allocated := runtime.allocZeroed layout ptr
      match source with
      | none => .ok ((none, { allocated with
          leaked := ⟨ptr, pageRoundedSize layout⟩ :: allocated.leaked }), [.alloc ⟨ptr, layout⟩])
      | some source =>
          match source.image with
          | none => .ok ((none, allocated), [.alloc ⟨ptr, layout⟩, .dealloc ⟨ptr, layout⟩])
          | some image => do
              let bytes ← blockBytes info image
              let written := { allocated with memory := allocated.memory.write ptr bytes }
              match written.setDtvValue tp id ptr ptr with
              | none =>
                  return ((none, written), [.alloc ⟨ptr, layout⟩, .dealloc ⟨ptr, layout⟩])
              | some stored =>
                  return ((some ptr, { stored with
                    dynamicBlocks := stored.dynamicBlocks ++ [⟨tp, ptr, layout⟩] }),
                    [.alloc ⟨ptr, layout⟩])

def dynamicTlsAddrLogged (runtime : Runtime) (tp id : Nat) (info : TlsInfo)
    (source : Option TlsImageSource) (tiOffset ptr : Nat) : Except Panic (Logged (Nat × Runtime)) :=
  if tp = 0 then .ok ((0, runtime), [])
  else match runtime.dtvValue tp id with
    | some block => .ok ((block + tiOffset, runtime), [])
    | none => do
        let ((block, runtime), calls) ← runtime.allocateDynamicBlockLogged tp id info source ptr
        match block with
        | none => return ((0, runtime), calls)
        | some block => return ((block + tiOffset, runtime), calls)

def getAddrLogged (runtime : Runtime) (tp id tiOffset ptr : Nat) :
    Except Panic (Logged (Nat × Runtime)) :=
  match runtime.tlsModule id with
  | none => .ok ((0, runtime), [])
  | some (.static _ offset) => .ok ((staticTlsAddr tp offset tiOffset, runtime), [])
  | some (.dynamic info source) => runtime.dynamicTlsAddrLogged tp id info source tiOffset ptr

/-- `free_dynamic_blocks` with its calls of `dealloc`. -/
def freeDynamicBlocksLogged (runtime : Runtime) (tp : Nat) : Logged Runtime :=
  let (kept, removed) := drainBySwap (fun block => block.tp = tp) runtime.dynamicBlocks.length 0
    runtime.dynamicBlocks
  ({ runtime with dynamicBlocks := kept }, removed.map fun block => .dealloc block.heap)

/-- `deallocate`, as far as the dynamic blocks go. -/
def deallocateLogged (runtime : Runtime) (storage : Nat) (deallocTcb : Bool) : Logged Runtime :=
  if storage = 0 then (runtime, [])
  else
    let (runtime, calls) := runtime.freeDynamicBlocksLogged storage
    if deallocTcb then
      match runtime.allocations.findIdx? fun allocation => allocation.tp = storage with
      | none => (runtime, calls)
      | some index =>
          ({ runtime with allocations := swapRemove runtime.allocations index }, calls)
    else (runtime, calls)

def dlDeallocateTlsLogged (runtime : Runtime) (storage : Nat) (deallocTcb : Bool) :
    Logged Runtime :=
  (runtime.deallocateTcb storage).deallocateLogged storage deallocTcb

/-! ## The log changes nothing -/

variable {runtime : Runtime}

theorem allocateDynamicBlockLogged_fst (runtime : Runtime) (tp id : Nat) (info : TlsInfo)
    (source : Option TlsImageSource) (ptr : Nat) :
    (runtime.allocateDynamicBlockLogged tp id info source ptr).map Prod.fst =
      runtime.allocateDynamicBlock tp id info source ptr := by
  unfold allocateDynamicBlockLogged allocateDynamicBlock
  cases blockLayout info with
  | none => rfl
  | some layout =>
      cases source with
      | none => rfl
      | some source =>
          simp only [fillDynamicBlock]
          cases source.image with
          | none => rfl
          | some image =>
              simp only
              cases blockBytes info image with
              | error panic => rfl
              | ok bytes =>
                  simp only [bind, Except.bind]
                  generalize setDtvValue _ tp id ptr ptr = stored
                  cases stored with
                  | none => rfl
                  | some stored => rfl

theorem getAddrLogged_fst (runtime : Runtime) (tp id tiOffset ptr : Nat) :
    (runtime.getAddrLogged tp id tiOffset ptr).map Prod.fst =
      runtime.getAddr tp id tiOffset ptr := by
  rw [getAddrLogged, getAddr]
  cases runtime.tlsModule id with
  | none => rfl
  | some module =>
      cases module with
      | static info offset => rfl
      | dynamic info source =>
          simp only [dynamicTlsAddrLogged, dynamicTlsAddr]
          split
          · rfl
          · cases runtime.dtvValue tp id with
            | some block => rfl
            | none =>
                simp only [← allocateDynamicBlockLogged_fst]
                cases runtime.allocateDynamicBlockLogged tp id info source ptr with
                | error panic => rfl
                | ok logged =>
                    obtain ⟨⟨block, next⟩, calls⟩ := logged
                    cases block with
                    | none => rfl
                    | some block => rfl

theorem getAddrLogged_of_getAddr {next : Runtime} {tp id tiOffset ptr addr : Nat}
    (accepted : runtime.getAddr tp id tiOffset ptr = .ok (addr, next)) :
    ∃ calls, runtime.getAddrLogged tp id tiOffset ptr = .ok ((addr, next), calls) := by
  rw [← getAddrLogged_fst] at accepted
  cases logging : runtime.getAddrLogged tp id tiOffset ptr with
  | error panic =>
      rw [logging] at accepted
      cases accepted
  | ok logged =>
      obtain ⟨result, calls⟩ := logged
      rw [logging] at accepted
      cases accepted
      exact ⟨calls, rfl⟩

theorem dlDeallocateTlsLogged_fst (runtime : Runtime) (storage : Nat) (deallocTcb : Bool) :
    (runtime.dlDeallocateTlsLogged storage deallocTcb).1 =
      runtime.dlDeallocateTls storage deallocTcb := by
  have freed : ∀ before : Runtime, (before.freeDynamicBlocksLogged storage).1 =
      before.freeDynamicBlocks storage := by
    intro before
    rw [freeDynamicBlocks, ← drainBySwap_fst]
    rfl
  simp only [dlDeallocateTlsLogged, dlDeallocateTls, deallocateLogged, deallocate, ← freed]
  split
  · rfl
  · split
    · generalize List.findIdx? _ _ = position
      cases position with
      | none => rfl
      | some index => rfl
    · rfl

/-! ## What a call does to the blocks -/

/-- The call does not allocate a block for a module without an image. -/
def ImagePublished (runtime : Runtime) (tp id : Nat) : Prop :=
  ∀ info, runtime.tlsModule id = some (.dynamic info none) → runtime.wantedBlock tp id = none

/-- How `get_addr` uses the allocator. -/
inductive BlockUse (runtime : Runtime) (tp id ptr : Nat) (next : Runtime) :
    List (HeapCall HeapBlock) → Prop where
  | unused :
      next.dynamicBlocks = runtime.dynamicBlocks → runtime.ImagePublished tp id →
      BlockUse runtime tp id ptr next []
  | lost {layout : Layout} :
      next.dynamicBlocks = runtime.dynamicBlocks → ¬runtime.ImagePublished tp id →
      BlockUse runtime tp id ptr next [.alloc ⟨ptr, layout⟩]
  | returned {layout : Layout} :
      next.dynamicBlocks = runtime.dynamicBlocks → runtime.ImagePublished tp id →
      BlockUse runtime tp id ptr next [.alloc ⟨ptr, layout⟩, .dealloc ⟨ptr, layout⟩]
  | recorded {layout : Layout} :
      next.dynamicBlocks = runtime.dynamicBlocks ++ [⟨tp, ptr, layout⟩] →
      runtime.ImagePublished tp id → tp ≠ 0 → 0 < pageRoundedSize layout →
      runtime.wantedBlock tp id = some layout →
      BlockUse runtime tp id ptr next [.alloc ⟨ptr, layout⟩]

instance (runtime : Runtime) (tp id : Nat) : Decidable (runtime.ImagePublished tp id) :=
  match slot : runtime.tlsModule id with
  | some (.dynamic _ none) => decidable_of_iff (runtime.wantedBlock tp id = none)
      ⟨fun unwanted _ _ => unwanted, fun published => published _ slot⟩
  | some (.dynamic _ (some _)) => .isTrue fun _ unpublished => by simp [slot] at unpublished
  | some (.static _ _) => .isTrue fun _ unpublished => by simp [slot] at unpublished
  | none => .isTrue fun _ unpublished => by simp [slot] at unpublished

theorem ImagePublished.of_slot {tp id : Nat} {module : TlsModule}
    (slot : runtime.tlsModule id = some module)
    (published : ∀ info, module ≠ .dynamic info none) : runtime.ImagePublished tp id := by
  intro info unpublished
  exact absurd (Option.some.inj (slot.symm.trans unpublished)) (published info)

theorem ImagePublished.of_unwanted {tp id : Nat} (unwanted : runtime.wantedBlock tp id = none) :
    runtime.ImagePublished tp id :=
  fun _ _ => unwanted

/-- A thread without a block for the module asks for one. -/
theorem blockUse_of_allocate {next : Runtime} {tp id ptr : Nat} {info : TlsInfo}
    {source : Option TlsImageSource} {block : Option Nat} {calls : List (HeapCall HeapBlock)}
    (slot : runtime.tlsModule id = some (.dynamic info source)) (nonnull : tp ≠ 0)
    (wanted : runtime.wantedBlock tp id = blockLayout info)
    (accepted : runtime.allocateDynamicBlockLogged tp id info source ptr =
      .ok ((block, next), calls)) : BlockUse runtime tp id ptr next calls := by
  unfold allocateDynamicBlockLogged at accepted
  cases chosen : blockLayout info with
  | none =>
      rw [chosen] at accepted
      cases accepted
      exact .unused rfl (.of_unwanted (wanted.trans chosen))
  | some layout =>
      rw [chosen] at accepted wanted
      cases source with
      | none =>
          cases accepted
          refine .lost rfl fun published => ?_
          exact absurd (wanted.symm.trans (published info slot)) (by simp)
      | some source =>
          have published : runtime.ImagePublished tp id := .of_slot slot fun _ => by simp
          cases given : source.image with
          | none =>
              simp only [given] at accepted
              cases accepted
              exact .returned rfl published
          | some image =>
              simp only [given] at accepted
              obtain ⟨bytes, _, storing⟩ := bind_eq_ok.mp accepted
              split at storing
              · cases storing
                exact .returned rfl published
              · next stored entry =>
                  cases storing
                  obtain ⟨⟨⟨memory, tcbs, rfl⟩, _⟩, _⟩ := setDtvValue_stores entry
                  have covered := size_le_pageRoundedSize chosen
                  exact .recorded rfl published nonnull (by omega) wanted

theorem blockUse_of_getAddr {next : Runtime} {tp id tiOffset ptr addr : Nat}
    {calls : List (HeapCall HeapBlock)}
    (accepted : runtime.getAddrLogged tp id tiOffset ptr = .ok ((addr, next), calls)) :
    BlockUse runtime tp id ptr next calls := by
  unfold getAddrLogged at accepted
  cases slot : runtime.tlsModule id with
  | none =>
      rw [slot] at accepted
      cases accepted
      exact .unused rfl (.of_unwanted (by rw [wantedBlock, slot]))
  | some module =>
      rw [slot] at accepted
      cases module with
      | static info offset =>
          cases accepted
          exact .unused rfl (.of_unwanted (by rw [wantedBlock, slot]))
      | dynamic info source =>
          change runtime.dynamicTlsAddrLogged tp id info source tiOffset ptr = _ at accepted
          have wanted : runtime.wantedBlock tp id =
              if tp = 0 ∨ (runtime.dtvValue tp id).isSome then none else blockLayout info := by
            rw [wantedBlock, slot]
          rw [dynamicTlsAddrLogged] at accepted
          split at accepted
          · next null =>
              cases accepted
              exact .unused rfl (.of_unwanted (wanted.trans (if_pos (.inl null))))
          · next nonnull =>
              cases known : runtime.dtvValue tp id with
              | some block =>
                  rw [known] at accepted wanted
                  cases accepted
                  exact .unused rfl (.of_unwanted (wanted.trans (if_pos (.inr rfl))))
              | none =>
                  rw [known] at accepted wanted
                  rw [if_neg (by simp [nonnull])] at wanted
                  obtain ⟨⟨⟨block, middle⟩, used⟩, allocating, returned⟩ := bind_eq_ok.mp accepted
                  have same : middle = next ∧ used = calls := by
                    cases block with
                    | none =>
                        cases returned
                        exact ⟨rfl, rfl⟩
                    | some block =>
                        cases returned
                        exact ⟨rfl, rfl⟩
                  obtain ⟨rfl, rfl⟩ := same
                  exact blockUse_of_allocate slot nonnull wanted allocating

/-- The blocks of one thread are given back, each once; the others stay. -/
theorem dlDeallocateTlsLogged_spec (runtime : Runtime) {tp : Nat} (nonnull : tp ≠ 0)
    (deallocTcb : Bool) :
    ∃ freed : List DynamicTlsBlock, (runtime.dlDeallocateTlsLogged tp deallocTcb).2 =
        freed.map (fun block => .dealloc block.heap) ∧
      freed.Perm (runtime.dynamicBlocks.filter fun block => block.tp = tp) ∧
      (runtime.dlDeallocateTlsLogged tp deallocTcb).1.dynamicBlocks.Perm
        (runtime.dynamicBlocks.filter fun block => !decide (block.tp = tp)) := by
  have untouched : (runtime.deallocateTcb tp).dynamicBlocks = runtime.dynamicBlocks := by
    rw [deallocateTcb, if_neg nonnull]
  refine ⟨(drainBySwap (fun block => block.tp = tp) runtime.dynamicBlocks.length 0
    runtime.dynamicBlocks).2, ?_, ?_, ?_⟩
  · simp only [dlDeallocateTlsLogged, deallocateLogged, if_neg nonnull, freeDynamicBlocksLogged,
      untouched]
    split
    · split
      · rfl
      · rfl
    · rfl
  · exact drainBySwap_perm (fun _ impossible => by cases impossible) (Nat.zero_add _).ge
  · rw [dlDeallocateTlsLogged_fst]
    exact (dlDeallocateTls_vectors runtime nonnull deallocTcb).2.2

theorem dlDeallocateTlsLogged_null (runtime : Runtime) (deallocTcb : Bool) :
    runtime.dlDeallocateTlsLogged 0 deallocTcb = (runtime, []) :=
  rfl

/-! ## Calls that leave the blocks alone -/

theorem OnlyWrites.blocks {next : Runtime} (writes : runtime.OnlyWrites next) :
    next.dynamicBlocks = runtime.dynamicBlocks := by
  obtain ⟨_, _, rfl⟩ := writes
  rfl

theorem init_blocks {tp : Nat} {result : Nat × Runtime} (accepted : runtime.init tp = .ok result) :
    result.2.dynamicBlocks = runtime.dynamicBlocks := by
  by_cases null : tp = 0
  · rw [init, if_pos null] at accepted
    cases accepted
    rfl
  · exact (init_vectors null accepted).2.1.blocks

theorem allocate_blocks {base : Nat} {result : Nat × Runtime}
    (accepted : runtime.allocate base = .ok result) :
    result.2.dynamicBlocks = runtime.dynamicBlocks := by
  rw [allocate] at accepted
  cases allocating : runtime.allocateStorage base with
  | none =>
      rw [allocating] at accepted
      cases accepted
      rfl
  | some pair =>
      rw [allocating] at accepted
      obtain ⟨layout, _, returned⟩ := Option.bind_eq_some_iff.mp allocating
      cases returned
      exact (init_blocks accepted).trans rfl

theorem initTlsModule_blocks {next : Runtime} {source : TlsImageSource} {id : Nat}
    {offset : Option Int} {result : Except TlsError Unit}
    (accepted : runtime.initTlsModule source id offset = .ok (result, next)) :
    next.dynamicBlocks = runtime.dynamicBlocks := by
  rcases initTlsModule_cases accepted with
    rfl | ⟨info, old, slot, rfl⟩ | ⟨info, registered, slot, _, initialising⟩
  · rfl
  · rfl
  · rw [initStaticTls] at initialising
    cases replacing : runtime.replaceSlot id (.static info registered) with
    | error error =>
        rw [replacing] at initialising
        cases initialising
        rfl
    | ok replaced =>
        rw [replacing] at initialising
        obtain rfl := replaceSlot_spec replacing
        cases present : runtime.staticTls with
        | none =>
            simp only [present] at initialising
            cases initialising
            rfl
        | some area =>
            simp only [present] at initialising
            obtain ⟨middle, writing, returned⟩ := bind_eq_ok.mp initialising
            cases returned
            obtain ⟨memory, same⟩ := initRseqArea_eq middle area.tp area.used
            obtain ⟨⟨memory, tcbs, rfl, _⟩, _⟩ := initStaticTlsModule_spec writing
            rw [same]

theorem addStaticModule_blocks {next : Runtime} {info : TlsInfo} {offset : Int} {id : Nat}
    (registered : runtime.addStaticModule info offset = .ok (id, next)) :
    next.dynamicBlocks = runtime.dynamicBlocks := by
  rw [addStaticModule] at registered
  cases registering : runtime.registerModule (.static info offset) with
  | error error =>
      rw [registering] at registered
      cases registered
  | ok result =>
      obtain ⟨_, appended⟩ := registerModule_spec registering
      rw [registering] at registered
      cases registered
      rw [appended]

theorem unregisterModule_blocks (id : Nat) :
    (runtime.unregisterModule id).dynamicBlocks = runtime.dynamicBlocks := by
  rw [unregisterModule]
  split
  · rfl
  · rfl

theorem registerStaticIn_blocks (area : StaticTlsArea) (info : TlsInfo) :
    (runtime.registerStaticIn area info).2.dynamicBlocks = runtime.dynamicBlocks := by
  rcases registerStaticIn_cases runtime area info with ⟨error, failed⟩ | ⟨finish, align, _, succeeded⟩
  · rw [failed]
  · rw [succeeded]
    rfl

end Runtime

/-! ## Runs -/

namespace World

variable {world next : World}

/-- The allocator's calls of an action, as far as the dynamic blocks go. -/
def heapCalls (world : World) : Action → List (HeapCall HeapBlock)
  | .getAddr tp id tiOffset ptr =>
      match world.runtime.getAddrLogged tp id tiOffset ptr with
      | .ok (_, calls) => calls
      | .error _ => []
  | .deallocate tp deallocTcb => (world.runtime.dlDeallocateTlsLogged tp deallocTcb).2
  | .registerDynamic _ | .registerStatic _ _ _ | .addStatic _ _ | .initTls _ _ _
  | .unregister _ | .allocate _ | .provide _ | .init _ | .reclaim _ => []

theorem registerStaticAt_blocks (world : World) (info : TlsInfo) (base : Nat) (installed : Bool) :
    (world.registerStaticAt info base installed).runtime.dynamicBlocks =
      world.runtime.dynamicBlocks := by
  have registerIn : ∀ (before : World) (area : StaticTlsArea),
      (before.registerIn area info).runtime.dynamicBlocks = before.runtime.dynamicBlocks := by
    intro before area
    refine .trans ?_ (Runtime.registerStaticIn_blocks area info)
    rw [World.registerIn]
    cases (before.runtime.registerStaticIn area info).1 with
    | error _ => rfl
    | ok _ => rfl
  cases present : world.runtime.staticTls with
  | some area =>
      rw [registerStaticAt_known present]
      exact registerIn world area
  | none =>
      cases installed with
      | false =>
          rw [registerStaticAt_refused present]
          rfl
      | true =>
          rw [registerStaticAt_first present]
          exact registerIn (world.withArea base) _

theorem registerWith_blocks {result : Except TlsError (Nat × Runtime)}
    (registered : ∀ id runtime, result = .ok (id, runtime) →
      runtime.dynamicBlocks = world.runtime.dynamicBlocks) :
    (world.registerWith result).runtime.dynamicBlocks = world.runtime.dynamicBlocks := by
  cases result with
  | error _ => rfl
  | ok pair => exact registered pair.1 pair.2 rfl

end World

/-- A world with the log of its allocator. -/
structure AccountedWorld where
  world : World
  calls : List (HeapCall HeapBlock)

namespace AccountedWorld

def system : TransitionSystem AccountedWorld Action where
  initial state := state = ⟨.new, []⟩
  step state action next := state.world.act action = some (.ok next.world) ∧
    next.calls = state.calls ++ state.world.heapCalls action

def recorded (state : AccountedWorld) : List DynamicTlsBlock := state.world.runtime.dynamicBlocks

/-- The blocks that are allocated are those that the runtime records, each once. -/
def Accounted (state : AccountedWorld) : Prop :=
  (∃ allocated, replay [] state.calls = some allocated ∧
    allocated.Perm (state.recorded.map DynamicTlsBlock.heap)) ∧
  (state.recorded.map DynamicTlsBlock.ptr).Nodup

/-- `deallocate` of a thread gives back the thread's blocks, each once and as it was
allocated; the other blocks stay allocated and recorded. -/
def FreesExactly (state : AccountedWorld) (tp : Nat) (deallocTcb : Bool) : Prop :=
  ∃ (freed : List DynamicTlsBlock) (allocated left : List HeapBlock),
    freed.Perm (state.recorded.filter fun block => block.tp = tp) ∧
    (state.world.runtime.dlDeallocateTlsLogged tp deallocTcb).2 =
      freed.map (fun block => .dealloc block.heap) ∧
    (state.world.runtime.dlDeallocateTlsLogged tp deallocTcb).1.dynamicBlocks.Perm
      (state.recorded.filter fun block => block.tp ≠ tp) ∧
    replay [] state.calls = some allocated ∧
    replay allocated (state.world.runtime.dlDeallocateTlsLogged tp deallocTcb).2 = some left ∧
    allocated.Perm (freed.map DynamicTlsBlock.heap ++ left)

/-- No call allocates a block for a module whose image is not published. -/
def ImagesPublished (state : AccountedWorld) : Action → Prop
  | .getAddr tp id _ _ => state.world.runtime.ImagePublished tp id
  | .registerDynamic _ | .registerStatic _ _ _ | .addStatic _ _ | .initTls _ _ _
  | .unregister _ | .allocate _ | .provide _ | .init _ | .deallocate _ _ | .reclaim _ => True

instance (state : AccountedWorld) (action : Action) : Decidable (state.ImagesPublished action) :=
  match action with
  | .getAddr tp id _ _ => inferInstanceAs (Decidable (state.world.runtime.ImagePublished tp id))
  | .registerDynamic _ => inferInstanceAs (Decidable True)
  | .registerStatic _ _ _ => inferInstanceAs (Decidable True)
  | .addStatic _ _ => inferInstanceAs (Decidable True)
  | .initTls _ _ _ => inferInstanceAs (Decidable True)
  | .unregister _ => inferInstanceAs (Decidable True)
  | .allocate _ => inferInstanceAs (Decidable True)
  | .provide _ => inferInstanceAs (Decidable True)
  | .init _ => inferInstanceAs (Decidable True)
  | .deallocate _ _ => inferInstanceAs (Decidable True)
  | .reclaim _ => inferInstanceAs (Decidable True)

/-- The allocated blocks are the recorded ones and the lost ones. -/
structure Accounts (state : AccountedWorld) (lost : List HeapBlock) : Prop where
  replayed : ∃ allocated, replay [] state.calls = some allocated ∧
    allocated.Perm (state.recorded.map DynamicTlsBlock.heap ++ lost)
  distinct : (state.recorded.map DynamicTlsBlock.ptr).Nodup
  owned : ∀ block ∈ state.recorded, block.tp ≠ 0 ∧ 0 < pageRoundedSize block.layout

namespace Accounts

variable {state next : AccountedWorld} {lost : List HeapBlock}

/-- A call that does not touch the blocks. -/
theorem keep (accounts : state.Accounts lost) (recorded : next.recorded = state.recorded)
    (calls : next.calls = state.calls) : next.Accounts lost :=
  ⟨by rw [recorded, calls]; exact accounts.replayed, by rw [recorded]; exact accounts.distinct,
    by rw [recorded]; exact accounts.owned⟩

/-- The kernel's answer is the pointer of no recorded block. -/
theorem fresh (accounts : state.Accounts lost) {ptr : Nat} {layout : Layout}
    (granted : state.world.Granted ptr (some layout)) (positive : 0 < pageRoundedSize layout) :
    ptr ∉ state.recorded.map DynamicTlsBlock.ptr := by
  intro listed
  obtain ⟨block, member, rfl⟩ := List.mem_map.mp listed
  have used : (⟨block.ptr, pageRoundedSize block.layout⟩ : Region) ∈ state.world.regions :=
    List.mem_append_left _ (List.mem_append_right _ (List.mem_map.mpr ⟨block, member, rfl⟩))
  have apart := granted.2.2 _ used
  have sized := (accounts.owned block member).2
  simp only [Region.Apart] at apart
  omega

theorem getAddr (accounts : state.Accounts lost) {tp id ptr : Nat}
    {calls : List (HeapCall HeapBlock)}
    (use : state.world.runtime.BlockUse tp id ptr next.world.runtime calls)
    (logged : next.calls = state.calls ++ calls)
    (granted : state.world.Granted ptr (state.world.runtime.wantedBlock tp id)) :
    ∃ more, next.Accounts (lost ++ more) ∧
      (state.world.runtime.ImagePublished tp id ↔ more = []) := by
  obtain ⟨allocated, replayed, split⟩ := accounts.replayed
  have continued : replay [] next.calls = replay allocated calls := by
    rw [logged, replay_append, replayed]
    rfl
  cases use with
  | unused kept published =>
      refine ⟨[], ?_, iff_of_true published rfl⟩
      rw [List.append_nil] at logged ⊢
      exact accounts.keep kept logged
  | @lost layout kept unpublished =>
      refine ⟨[⟨ptr, layout⟩], ?_, iff_of_false unpublished (by simp)⟩
      have same : next.recorded = state.recorded := kept
      refine ⟨⟨_, continued.trans (replay_alloc _ _), ?_⟩, ?_, ?_⟩
      · rw [same, ← List.append_assoc]
        exact split.append_right _
      · rw [same]
        exact accounts.distinct
      · rw [same]
        exact accounts.owned
  | @returned layout kept published =>
      refine ⟨[], ?_, iff_of_true published rfl⟩
      have same : next.recorded = state.recorded := kept
      obtain ⟨left, returned, permuted⟩ := replay_alloc_dealloc allocated ⟨ptr, layout⟩
      rw [List.append_nil]
      refine ⟨⟨left, continued.trans returned, ?_⟩, ?_, ?_⟩
      · rw [same]
        exact permuted.trans split
      · rw [same]
        exact accounts.distinct
      · rw [same]
        exact accounts.owned
  | @recorded layout added published nonnull positive wanted =>
      refine ⟨[], ?_, iff_of_true published rfl⟩
      have same : next.recorded = state.recorded ++ [⟨tp, ptr, layout⟩] := added
      rw [wanted] at granted
      rw [List.append_nil]
      refine ⟨⟨_, continued.trans (replay_alloc _ _), ?_⟩, ?_, ?_⟩
      · rw [same, List.map_append, List.append_assoc]
        refine (split.append_right _).trans ?_
        rw [List.append_assoc]
        exact List.perm_append_comm.append_left _
      · rw [same, List.map_append]
        exact List.nodup_append_comm.mp (List.nodup_cons.mpr ⟨accounts.fresh granted positive,
          accounts.distinct⟩)
      · intro block listed
        rw [same] at listed
        rcases List.mem_append.mp listed with old | new
        · exact accounts.owned block old
        · rw [List.mem_singleton.mp new]
          exact ⟨nonnull, positive⟩

/-- The blocks that `deallocate` gives back and the recorded blocks that it leaves. -/
theorem freed (accounts : state.Accounts lost) (tp : Nat) (deallocTcb : Bool) :
    ∃ freed : List DynamicTlsBlock,
      (state.world.runtime.dlDeallocateTlsLogged tp deallocTcb).2 =
        freed.map (fun block => .dealloc block.heap) ∧
      freed.Perm (state.recorded.filter fun block => block.tp = tp) ∧
      (state.world.runtime.dlDeallocateTlsLogged tp deallocTcb).1.dynamicBlocks.Perm
        (state.recorded.filter fun block => !decide (block.tp = tp)) := by
  by_cases null : tp = 0
  · subst null
    rw [Runtime.dlDeallocateTlsLogged_null]
    refine ⟨[], rfl, ?_, ?_⟩
    · rw [List.filter_eq_nil_iff.mpr fun block listed => by
        simpa using (accounts.owned block listed).1]
    · rw [List.filter_eq_self.mpr fun block listed => by
        simpa using (accounts.owned block listed).1]
      exact .refl _
  · exact Runtime.dlDeallocateTlsLogged_spec state.world.runtime null deallocTcb

/-- The freed blocks and those that are left, as the allocator sees them. -/
theorem replay_freed (accounts : state.Accounts lost) {tp : Nat} {freed : List DynamicTlsBlock}
    (removed : freed.Perm (state.recorded.filter fun block => block.tp = tp)) :
    ∃ allocated left, replay [] state.calls = some allocated ∧
      replay allocated (freed.map fun block => .dealloc block.heap) = some left ∧
      left.Perm ((state.recorded.filter fun block => !decide (block.tp = tp)).map
        DynamicTlsBlock.heap ++ lost) ∧
      allocated.Perm (freed.map DynamicTlsBlock.heap ++ left) := by
  obtain ⟨allocated, replayed, split⟩ := accounts.replayed
  have parts : (state.recorded.map DynamicTlsBlock.heap).Perm (freed.map DynamicTlsBlock.heap ++
      (state.recorded.filter fun block => !decide (block.tp = tp)).map DynamicTlsBlock.heap) := by
    rw [← List.map_append]
    refine List.Perm.map _ ?_
    exact (List.filter_append_perm _ state.recorded).symm.trans (removed.symm.append_right _)
  have whole := split.trans (parts.append_right lost)
  rw [List.append_assoc] at whole
  obtain ⟨left, given, same⟩ := replay_deallocs whole
  rw [List.map_map] at given
  exact ⟨allocated, left, replayed, given, same, whole.trans (same.symm.append_left _)⟩

theorem freesExactly (accounts : state.Accounts lost) (tp : Nat) (deallocTcb : Bool) :
    state.FreesExactly tp deallocTcb := by
  obtain ⟨freed, calls, removed, kept⟩ := accounts.freed tp deallocTcb
  obtain ⟨allocated, left, replayed, given, _, split⟩ := accounts.replay_freed removed
  refine ⟨freed, allocated, left, removed, calls, ?_, replayed, ?_, split⟩
  · simpa only [ne_eq, decide_not] using kept
  · rw [calls]
    exact given

theorem deallocate (accounts : state.Accounts lost) {tp : Nat} {deallocTcb : Bool}
    (runtime : next.world.runtime = state.world.runtime.dlDeallocateTls tp deallocTcb)
    (logged : next.calls =
      state.calls ++ (state.world.runtime.dlDeallocateTlsLogged tp deallocTcb).2) :
    next.Accounts lost := by
  obtain ⟨freed, calls, removed, kept⟩ := accounts.freed tp deallocTcb
  obtain ⟨allocated, left, replayed, given, same, _⟩ := accounts.replay_freed removed
  have remaining : next.recorded.Perm
      (state.recorded.filter fun block => !decide (block.tp = tp)) := by
    rw [recorded, runtime, ← Runtime.dlDeallocateTlsLogged_fst]
    exact kept
  have sublist : (state.recorded.filter fun block => !decide (block.tp = tp)).Sublist
      state.recorded := List.filter_sublist
  refine ⟨⟨left, ?_, ?_⟩, ?_, ?_⟩
  · rw [logged, calls, replay_append, replayed]
    exact given
  · exact same.trans ((remaining.map _).symm.append_right _)
  · exact (remaining.map _).nodup_iff.mpr ((sublist.map _).nodup accounts.distinct)
  · intro block listed
    exact accounts.owned block (sublist.subset (remaining.mem_iff.mp listed))

theorem step (accounts : state.Accounts lost) {action : Action}
    (stepped : system.step state action next) :
    ∃ more, next.Accounts (lost ++ more) ∧ (state.ImagesPublished action ↔ more = []) := by
  obtain ⟨acted, logged⟩ := stepped
  have transition := World.transition_of_act acted
  generalize same : next.world = after at transition
  -- a call that leaves the recorded blocks and the allocator alone
  have quiet : after.runtime.dynamicBlocks = state.recorded →
      state.world.heapCalls action = [] → state.ImagesPublished action →
      ∃ more, next.Accounts (lost ++ more) ∧ (state.ImagesPublished action ↔ more = []) := by
    intro kept silent published
    rw [← same] at kept
    rw [silent, List.append_nil] at logged
    refine ⟨[], ?_, iff_of_true published rfl⟩
    rw [List.append_nil]
    exact accounts.keep kept logged
  cases transition with
  | registerDynamic =>
      refine quiet (World.registerWith_blocks ?_) rfl trivial
      intro id runtime registered
      obtain ⟨_, rfl⟩ := Runtime.registerModule_spec registered
      rfl
  | registerStatic granted =>
      exact quiet (World.registerStaticAt_blocks _ _ _ _) rfl trivial
  | addStatic =>
      refine quiet (World.registerWith_blocks ?_) rfl trivial
      intro id runtime registered
      exact Runtime.addStaticModule_blocks registered
  | initTls accepted =>
      exact quiet (Runtime.initTlsModule_blocks accepted) rfl trivial
  | unregister =>
      exact quiet (Runtime.unregisterModule_blocks _) rfl trivial
  | @getAddr tp id tiOffset ptr addr runtime live granted accepted =>
      obtain ⟨calls, logging⟩ := Runtime.getAddrLogged_of_getAddr accepted
      have used := Runtime.blockUse_of_getAddr logging
      have moved : next.world.runtime = runtime := by rw [same]
      rw [← moved] at used
      refine accounts.getAddr used ?_ granted
      rw [logged, World.heapCalls, logging]
  | allocate granted accepted =>
      exact quiet (Runtime.allocate_blocks accepted) rfl trivial
  | provide based unused =>
      exact quiet rfl rfl trivial
  | init stored accepted =>
      exact quiet (Runtime.init_blocks accepted) rfl trivial
  | @deallocate tp deallocTcb stored =>
      refine ⟨[], ?_, iff_of_true trivial rfl⟩
      rw [List.append_nil]
      exact accounts.deallocate (by rw [same]) logged
  | reclaim ended =>
      exact quiet rfl rfl trivial

theorem new : Accounts ⟨.new, []⟩ [] where
  replayed := ⟨[], rfl, .refl _⟩
  distinct := List.nodup_nil
  owned _ listed := absurd listed List.not_mem_nil

theorem accounted (accounts : state.Accounts []) : state.Accounted := by
  obtain ⟨allocated, replayed, split⟩ := accounts.replayed
  rw [List.append_nil] at split
  exact ⟨⟨allocated, replayed, split⟩, accounts.distinct⟩

theorem lost_eq_nil (accounts : state.Accounts lost) (accounted : state.Accounted) :
    lost = [] := by
  obtain ⟨allocated, replayed, split⟩ := accounts.replayed
  obtain ⟨⟨others, again, known⟩, _⟩ := accounted
  cases replayed.symm.trans again
  have lengths := (known.symm.trans split).length_eq
  rw [List.length_append] at lengths
  exact List.eq_nil_of_length_eq_zero (by omega)

end Accounts

/-- By induction on the run: what is lost was lost by a call that met no published image. -/
theorem run_accounts {start finish : AccountedWorld} {actions : List Action}
    (initial : system.initial start) (run : system.Run start actions finish) :
    ∃ lost, finish.Accounts lost ∧
      (lost = [] → (system.restrict ImagesPublished).Run start actions finish) := by
  induction run with
  | refl =>
      cases initial
      exact ⟨[], .new, fun _ => .refl⟩
  | snoc _ stepped ih =>
      obtain ⟨lost, accounts, restricted⟩ := ih
      obtain ⟨more, next, published⟩ := accounts.step stepped
      refine ⟨lost ++ more, next, ?_⟩
      intro nothing
      obtain ⟨noneLost, noMore⟩ := List.append_eq_nil_iff.mp nothing
      exact (restricted noneLost).snoc ⟨published.mpr noMore, stepped⟩

theorem accounts_inductive :
    (system.restrict ImagesPublished).Inductive fun state => state.Accounts [] where
  initially _ initial := initial ▸ .new
  preserved _ _ _ accounts stepped := by
    obtain ⟨more, next, published⟩ := accounts.step stepped.2
    rwa [published.mp stepped.1] at next

/-- After any run the allocated blocks are exactly the recorded ones if and only if no call
of the run has allocated a block for a module whose image was not published. In any
state, `deallocate` frees exactly the blocks of its thread. -/
theorem dynamic_blocks_accounted_iff (start finish : AccountedWorld) (actions : List Action)
    (initial : system.initial start) (run : system.Run start actions finish) :
    (finish.Accounted ↔ (system.restrict ImagesPublished).Run start actions finish) ∧
      ∀ (tp : Nat) (deallocTcb : Bool), finish.FreesExactly tp deallocTcb := by
  obtain ⟨lost, accounts, restricted⟩ := run_accounts initial run
  refine ⟨⟨?_, ?_⟩, fun tp deallocTcb => accounts.freesExactly tp deallocTcb⟩
  · intro accounted
    exact restricted (accounts.lost_eq_nil accounted)
  · intro published
    exact (accounts_inductive.reachable ⟨start, actions, initial, published⟩).accounted

/-- One call of `system.restrict condition`, executed. -/
def actWhen (condition : AccountedWorld → Action → Prop)
    [∀ state action, Decidable (condition state action)] (state : AccountedWorld)
    (action : Action) : Option AccountedWorld :=
  if condition state action then
    ((state.world.act action).bind Except.toOption).map fun world =>
      ⟨world, state.calls ++ state.world.heapCalls action⟩
  else none

theorem run_of_actWhen {condition : AccountedWorld → Action → Prop}
    [∀ state action, Decidable (condition state action)] {actions : List Action}
    {start finish : AccountedWorld}
    (ran : TransitionSystem.runLabels (actWhen condition) start actions = some finish) :
    (system.restrict condition).Run start actions finish := by
  refine TransitionSystem.Run.runGuarded ?_ ran
  intro state label next accepted
  obtain ⟨world, acted, rfl⟩ := Option.map_eq_some_iff.mp accepted
  exact ⟨bind_toOption_eq_some_iff.mp acted, rfl⟩

def scratchModule : TlsInfo := ⟨8, 0, 8⟩

/-- A thread asks for a module that does not exist, for one whose image cannot be read, and
for the same one with an image. -/
def publishedUse : List Action := [
  .allocate 0x400000, .registerDynamic scratchModule, .getAddr 0x400040 9 0 0x600000,
  .initTls ⟨none⟩ 1 none, .getAddr 0x400040 1 0 0x600000,
  .initTls ⟨some [1, 2, 3]⟩ 1 none, .getAddr 0x400040 1 0 0x600000]

theorem dynamic_blocks_accounted_published :
    ∃ finish, system.Run ⟨.new, []⟩ publishedUse finish ∧
      finish.recorded = [⟨0x400040, 0x600000, ⟨8, 8⟩⟩] ∧ finish.Accounted ∧
      finish.FreesExactly 0x400040 true := by
  have evaluated : (TransitionSystem.runLabels (actWhen ImagesPublished) ⟨.new, []⟩
      publishedUse).map (fun state =>
        decide (state.recorded = [⟨0x400040, 0x600000, ⟨8, 8⟩⟩])) = some true := by
    decide +kernel
  obtain ⟨finish, ran, facts⟩ := Option.map_eq_some_iff.mp evaluated
  have run := run_of_actWhen ran
  obtain ⟨accounted, frees⟩ := dynamic_blocks_accounted_iff _ finish _ rfl run.unrestrict
  exact ⟨finish, run.unrestrict, of_decide_eq_true facts, accounted.mpr run, frees 0x400040 true⟩

/-- A thread asks for a module whose image is not published. -/
def unpublishedUse : List Action := [
  .allocate 0x400000, .registerDynamic scratchModule, .getAddr 0x400040 1 0 0x600000]

/-- The block stays allocated, and nothing records it. -/
theorem unpublished_block_lost :
    ∃ finish, system.Run ⟨.new, []⟩ unpublishedUse finish ∧ finish.recorded = [] ∧
      replay [] finish.calls = some [⟨0x600000, ⟨8, 8⟩⟩] ∧ ¬finish.Accounted := by
  have evaluated : (TransitionSystem.runLabels (actWhen fun _ _ => True) ⟨.new, []⟩
      unpublishedUse).map (fun state => decide (state.recorded = [] ∧
        replay [] state.calls = some [⟨0x600000, ⟨8, 8⟩⟩])) = some true := by
    decide +kernel
  obtain ⟨finish, ran, facts⟩ := Option.map_eq_some_iff.mp evaluated
  obtain ⟨none, lost⟩ := of_decide_eq_true facts
  refine ⟨finish, (run_of_actWhen ran).unrestrict, none, lost, ?_⟩
  rintro ⟨⟨allocated, replayed, known⟩, _⟩
  cases lost.symm.trans replayed
  rw [none] at known
  exact absurd known.length_eq (by decide)

end AccountedWorld

end DynLinker.Tls
