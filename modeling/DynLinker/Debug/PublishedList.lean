import DynLinker.Debug.StartupMapsProperties
import DynLinker.Loader.ReferenceContext
import DynLinker.Registry.World

/-! The list that the startup publishes, for every way in which the interpreter can show
up in the load group: under its own map, under another map at the same base, or not at
all. -/

set_option autoImplicit false

namespace DynLinker.Debug

open Lib Loader Registry

/-- The test of `startup_state` for the interpreter. -/
def isRtld (rtld : LinkMapAddress) (base : Nat) (handle : ModuleHandle) : Bool :=
  handle.elf.any fun elf => handle.linkMap = some rtld || elf.base = base

/-- A load group with the program first: its native modules have link maps, no two of them
the same, and the program is not the interpreter. -/
structure ProgramGroup (rtld : LinkMapAddress) (base : Nat) (scope : List ModuleHandle)
    (main : LinkMapAddress) : Prop where
  owned : ∀ handle ∈ scope, ∀ elf, handle.elf = some elf → elf.userData.isSome
  distinct : (scope.filterMap ModuleHandle.linkMap).Nodup
  root : scope.head?.bind ModuleHandle.linkMap = some main
  program : ∀ handle, scope.head? = some handle → isRtld rtld base handle = false

/-- The maps of a group that are not the interpreter's, in group order. -/
def othersOf (rtld : LinkMapAddress) (base : Nat) (scope : List ModuleHandle) :
    List LinkMapAddress :=
  (scope.filter fun handle => !isRtld rtld base handle).filterMap ModuleHandle.linkMap

theorem startupMaps_others {rtld : LinkMapAddress} {base : Nat} {scope : List ModuleHandle}
    (owned : ∀ handle ∈ scope, ∀ elf, handle.elf = some elf → elf.userData.isSome) :
    ∃ libc, Manager.startupMaps (some (rtld, base)) scope =
      .ok (othersOf rtld base scope, libc) := by
  induction scope with
  | nil => exact ⟨none, rfl⟩
  | cons handle rest ih =>
      obtain ⟨libc, mapped⟩ := ih fun later member => owned later (List.mem_cons_of_mem _ member)
      cases native : handle.elf with
      | none =>
          have unmapped : handle.linkMap = none := by simp [ModuleHandle.linkMap, native]
          have foreign : isRtld rtld base handle = false := by simp [isRtld, native]
          refine ⟨libc, ?_⟩
          simp only [Manager.startupMaps, native, mapped, othersOf, foreign, Bool.not_false,
            List.filter_cons_of_pos, List.filterMap_cons_none unmapped]
      | some elf =>
          obtain ⟨data, stored⟩ := Option.isSome_iff_exists.mp
            (owned handle List.mem_cons_self elf native)
          have own : handle.linkMap = some data.linkMap := by
            simp [ModuleHandle.linkMap, native, stored]
          refine ⟨libc.or (if handle.name = "libc.so.6" then some data.linkMap else none), ?_⟩
          have test : (some (rtld, base)).any (fun entry =>
              data.linkMap = entry.1 || elf.base = entry.2) = isRtld rtld base handle := by
            simp [isRtld, native, own]
          rw [Manager.startupMaps, native]
          dsimp only
          rw [stored, mapped]
          change Except.ok (if (some (rtld, base)).any (fun entry =>
            data.linkMap = entry.1 || elf.base = entry.2) = true then _ else _, _) = _
          rw [test]
          cases interpreter : isRtld rtld base handle with
          | true =>
              have skipped : othersOf rtld base (handle :: rest) = othersOf rtld base rest := by
                simp [othersOf, interpreter]
              rw [skipped]
              rfl
          | false =>
              have pushed : othersOf rtld base (handle :: rest) =
                  data.linkMap :: othersOf rtld base rest := by
                simp [othersOf, interpreter, own]
              rw [pushed]
              rfl

namespace ProgramGroup

variable {rtld main : LinkMapAddress} {base : Nat} {scope : List ModuleHandle}

/-- The program stays first, and what follows it is the rest of the group. -/
theorem others_eq (group : ProgramGroup rtld base scope main) :
    othersOf rtld base scope = main :: othersOf rtld base scope.tail := by
  obtain ⟨handle, first, own⟩ := Option.bind_eq_some_iff.mp group.root
  obtain ⟨rest, split⟩ := List.head?_eq_some_iff.mp first
  have program := group.program handle first
  rw [split, othersOf, List.filter_cons_of_pos (by simp [program]), List.filterMap_cons_some own]
  rfl

theorem rtld_not_mem_others : rtld ∉ othersOf rtld base scope := by
  intro member
  obtain ⟨handle, kept, own⟩ := List.mem_filterMap.mp member
  obtain ⟨elf, native, _⟩ := Option.bind_eq_some_iff.mp own
  have other := (List.mem_filter.mp kept).2
  simp [isRtld, native, own] at other

theorem others_nodup (group : ProgramGroup rtld base scope main) :
    (othersOf rtld base scope).Nodup :=
  group.distinct.sublist (List.filter_sublist.filterMap _)

/-- The published list: the program, the interpreter, and the others in group order. -/
theorem published_nodup (group : ProgramGroup rtld base scope main) :
    (main :: rtld :: othersOf rtld base scope.tail).Nodup := by
  have outside := @rtld_not_mem_others rtld base scope
  have distinct := group.others_nodup
  rw [group.others_eq] at outside distinct
  have swapped : (rtld :: main :: othersOf rtld base scope.tail).Nodup :=
    List.nodup_cons.mpr ⟨outside, distinct⟩
  exact (List.Perm.swap _ _ _).nodup_iff.mp swapped

end ProgramGroup

/-- The hook of the startup yields the program, the interpreter and the remaining members
that are not the interpreter, each once and in group order; linked by
`link_loaded_objects`, that is what a debugger walks from the program. -/
theorem published_list_exact {Ctx : Type} [ElfLoader Ctx] (manager aliased : Manager Ctx)
    (ctx : Ctx) (root : ModuleId) (rtld main : LinkMapAddress) (base : Nat)
    (scope : List ModuleHandle) (promoting : ElfLoader.promoteGlobal manager.linkCtx root = .ok ctx)
    (aliasing : Manager.registerInitialAliases { manager with linkCtx := ctx } = .ok aliased)
    (grouping : ElfLoader.loadGroup aliased.linkCtx root = .ok scope)
    (group : ProgramGroup rtld base scope main) :
    ∃ state, manager.startupState root (some (rtld, base)) = .ok (.ok state, aliased) ∧
      state.main = main ∧
      state.maps = main :: rtld :: othersOf rtld base scope.tail ∧ state.maps.Nodup ∧
      ∀ custom : CustomDebug,
        Segment (custom.linkLoadedObjects none state.maps).next (some main) state.maps none ∧
        Segment (custom.linkLoadedObjects none state.maps).prev state.maps.getLast?
          state.maps.reverse none := by
  obtain ⟨libc, mapped⟩ := @startupMaps_others rtld base scope group.owned
  refine ⟨⟨main, main :: rtld :: othersOf rtld base scope.tail, libc⟩, ?_, rfl, rfl,
    group.published_nodup, ?_⟩
  · simp only [Manager.startupState, promoting, aliasing, bind, Except.bind, grouping, group.root,
      mapped, group.others_eq]
    rfl
  · intro custom
    have linked := @CustomDebug.linkLoadedObjects_linked custom _ group.published_nodup
    exact ⟨linked.forward, linked.backward⟩

/-- A second image of the loader, mapped where the kernel mapped the first one. -/
def loaderCopy : GraphModule where
  key := "/lib/ld.so"
  handle := ⟨⟨1⟩, "ld.so", [(0x7000, 0x8000)], [],
    some ⟨none, "ld.so", [], 0x7000, none, none, some ⟨"ld.so", ⟨0xa00, by decide⟩⟩⟩⟩
  flags := OpenFlags.empty
  dependencies := []

def loaderProgram : GraphModule where
  key := "/bin/prog"
  handle := ⟨⟨2⟩, "prog", [(0x10000, 0x14000)], [],
    some ⟨none, "prog", [], 0x10000, none, none, some ⟨"prog", ⟨0xb00, by decide⟩⟩⟩⟩
  flags := OpenFlags.empty
  dependencies := [⟨1⟩]

abbrev LoaderContext : Type :=
  ReferenceContext [("/lib/ld.so", loaderCopy), ("/bin/prog", loaderProgram)]

/-- The program is published, and the hook is about to run. -/
def loaderActions : List (Action LoaderContext) := [
  .openWith false "/lib/ld.so" .rtldNow (.file "/lib/ld.so") none, .publish 0, .initialised 0,
  .openWith false "/bin/prog" .rtldNow (.file "/bin/prog") none, .publish 0]

def kernelLoader : LinkMapAddress := ⟨0x700, by decide⟩

theorem loaderGroup : ProgramGroup kernelLoader 0x7000 [loaderProgram.handle, loaderCopy.handle]
    ⟨0xb00, by decide⟩ where
  owned handle member elf native := by
    rcases List.mem_pair.mp member with rfl | rfl
    · cases native
      rfl
    · cases native
      rfl
  distinct := by decide
  root := by decide
  program handle first := by
    cases first
    decide

/-- What the hook finds of the program with the root id: the promoted context, the names
added to it, and the load group. -/
def hookInputs (world : World LoaderContext) (root : ModuleId) :
    Option (LoaderContext × Manager LoaderContext × List ModuleHandle) := do
  let ctx ← (ElfLoader.promoteGlobal world.manager.linkCtx root).toOption
  let aliased ← (Manager.registerInitialAliases { world.manager with linkCtx := ctx }).toOption
  let scope ← (ElfLoader.loadGroup aliased.linkCtx root).toOption
  return (ctx, aliased, scope)

theorem published_list_exact_copy :
    ∃ (manager : Manager LoaderContext) (state : Manager.StartupState)
      (next : Manager LoaderContext),
      manager.startupState ⟨1⟩ (some (kernelLoader, 0x7000)) = .ok (.ok state, next) ∧
      state.maps = [⟨0xb00, by decide⟩, kernelLoader] := by
  have evaluated : (((World.new : World LoaderContext).runActions loaderActions).bind fun world =>
      (hookInputs world ⟨1⟩).map fun inputs => (world, inputs)).map (fun found => found.2.2.2) =
      some [loaderProgram.handle, loaderCopy.handle] := by
    decide +kernel
  obtain ⟨⟨world, ctx, aliased, scope⟩, found, group⟩ := Option.map_eq_some_iff.mp evaluated
  obtain ⟨started, _, found⟩ := Option.bind_eq_some_iff.mp found
  obtain ⟨inputs, found, same⟩ := Option.map_eq_some_iff.mp found
  cases same
  obtain ⟨promoted, promoting, found⟩ := Option.bind_eq_some_iff.mp found
  obtain ⟨named, aliasing, found⟩ := Option.bind_eq_some_iff.mp found
  obtain ⟨members, grouping, returned⟩ := Option.bind_eq_some_iff.mp found
  cases returned
  cases group
  obtain ⟨state, accepted, _, maps, _⟩ := published_list_exact world.manager aliased ctx ⟨1⟩
    kernelLoader ⟨0xb00, by decide⟩ 0x7000 _ (toOption_eq_some_iff.mp promoting)
    (toOption_eq_some_iff.mp aliasing) (toOption_eq_some_iff.mp grouping) loaderGroup
  exact ⟨world.manager, state, aliased, accepted, maps⟩

end DynLinker.Debug
