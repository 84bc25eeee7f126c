import DynLinker.Lib.FiniteReachability
import DynLinker.Loader.ContextProperties
import DynLinker.Loader.ElfLoader
import Mathlib.Data.List.Dedup

/-! A small link context over a fixed table of files. It shows that the laws of
`LawfulElfLoader` can be met together, and concrete runs are evaluated on it. Two
paths with the same module key are two names of one file. -/

set_option autoImplicit false

namespace DynLinker.Loader

open Lib

structure ReferenceContext (files : List (String × GraphModule)) where
  view : ContextView
  nextId : Nat
  nextSerial : Nat
  idsBelow : ∀ record ∈ view.modules, record.id.index < nextId
  serialsBelow : ∀ lease ∈ view.issued, lease.serial < nextSerial
  linkMapUnique : ∀ left ∈ view.modules, ∀ right ∈ view.modules, ∀ address,
    left.handle.linkMap = some address → right.handle.linkMap = some address → left = right

inductive ReferencePending where
  | committed (id : ModuleId)
  | fresh (graph : GraphModule)

/-- A new module may share neither a name, an instance nor a link map. -/
def Conflicts (graph : GraphModule) (record : ModuleRecord) : Prop :=
  graph.key = record.key ∨ graph.key ∈ record.aliases ∨
    record.handle.instanceId = graph.handle.instanceId ∨
    (record.handle.linkMap ≠ none ∧ record.handle.linkMap = graph.handle.linkMap)

instance (graph : GraphModule) (record : ModuleRecord) : Decidable (Conflicts graph record) := by
  unfold Conflicts
  infer_instance

namespace ReferenceContext

variable {files : List (String × GraphModule)}

def empty : ReferenceContext files where
  view := .empty
  nextId := 0
  nextSerial := 0
  idsBelow := by simp [ContextView.empty]
  serialsBelow := by simp [ContextView.empty]
  linkMapUnique := by simp [ContextView.empty]

def rewrite (ctx : ReferenceContext files) (change : ModuleRecord → ModuleRecord)
    (id_eq : ∀ record, (change record).id = record.id)
    (handle_eq : ∀ record, (change record).handle = record.handle) : ReferenceContext files where
  view := { ctx.view with modules := ctx.view.modules.map change }
  nextId := ctx.nextId
  nextSerial := ctx.nextSerial
  idsBelow := by
    intro record member
    obtain ⟨old, present, rfl⟩ := List.mem_map.mp member
    rw [id_eq]
    exact ctx.idsBelow old present
  serialsBelow := ctx.serialsBelow
  linkMapUnique := by
    intro left leftMember right rightMember address leftMap rightMap
    obtain ⟨oldLeft, leftPresent, rfl⟩ := List.mem_map.mp leftMember
    obtain ⟨oldRight, rightPresent, rfl⟩ := List.mem_map.mp rightMember
    rw [handle_eq] at leftMap rightMap
    rw [ctx.linkMapUnique oldLeft leftPresent oldRight rightPresent address leftMap rightMap]

def withScope (ctx : ReferenceContext files) (scope : List ModuleHandle) :
    ReferenceContext files :=
  { ctx with view := { ctx.view with globalScope := scope } }

def freshLease (ctx : ReferenceContext files) (id : ModuleId) : NativeModuleLease :=
  ⟨ctx.nextSerial, id⟩

def issueLease (ctx : ReferenceContext files) (id : ModuleId) : ReferenceContext files where
  view := ctx.view.issue (ctx.freshLease id)
  nextId := ctx.nextId
  nextSerial := ctx.nextSerial + 1
  idsBelow := ctx.idsBelow
  serialsBelow := by
    intro lease member
    rcases List.mem_cons.mp member with rfl | old
    · exact Nat.lt_succ_self _
    · exact Nat.lt_succ_of_lt (ctx.serialsBelow lease old)
  linkMapUnique := ctx.linkMapUnique

def consumeLease (ctx : ReferenceContext files) (lease : NativeModuleLease) :
    ReferenceContext files :=
  { ctx with view := ctx.view.consume lease }

def retireLease (ctx : ReferenceContext files) (lease : NativeModuleLease)
    (unloaded : List ModuleId) : ReferenceContext files where
  view := (ctx.view.retire lease).unload unloaded
  nextId := ctx.nextId
  nextSerial := ctx.nextSerial
  idsBelow record member := ctx.idsBelow record (List.mem_filter.mp member).1
  serialsBelow := ctx.serialsBelow
  linkMapUnique left leftMember right rightMember :=
    ctx.linkMapUnique left (List.mem_filter.mp leftMember).1 right
      (List.mem_filter.mp rightMember).1

def graphRecord (ctx : ReferenceContext files) (graph : GraphModule) : ModuleRecord :=
  ⟨⟨ctx.nextId⟩, graph.key, [], graph.flags, graph.handle, graph.dependencies⟩

def appendModule (ctx : ReferenceContext files) (graph : GraphModule)
    (apart : ∀ record ∈ ctx.view.modules, ¬ Conflicts graph record) :
    ReferenceContext files where
  view := ctx.view.append [ctx.graphRecord graph]
  nextId := ctx.nextId + 1
  nextSerial := ctx.nextSerial
  idsBelow := by
    intro record member
    rcases List.mem_append.mp member with old | new
    · exact Nat.lt_succ_of_lt (ctx.idsBelow record old)
    · cases List.mem_singleton.mp new
      exact Nat.lt_succ_self _
  serialsBelow := ctx.serialsBelow
  linkMapUnique := by
    have different : ∀ record ∈ ctx.view.modules, ∀ address,
        record.handle.linkMap = some address → graph.handle.linkMap ≠ some address := by
      intro record member address recorded added
      exact apart record member (.inr (.inr (.inr ⟨by simp [recorded], recorded.trans added.symm⟩)))
    intro left leftMember right rightMember address leftMap rightMap
    rcases List.mem_append.mp leftMember with oldLeft | newLeft
    · rcases List.mem_append.mp rightMember with oldRight | newRight
      · exact ctx.linkMapUnique left oldLeft right oldRight address leftMap rightMap
      · cases List.mem_singleton.mp newRight
        exact absurd rightMap (different left oldLeft address leftMap)
    · cases List.mem_singleton.mp newLeft
      rcases List.mem_append.mp rightMember with oldRight | newRight
      · exact absurd leftMap (different right oldRight address rightMap)
      · exact (List.mem_singleton.mp newRight).symm

def edge (source target : ModuleRecord) : Bool :=
  target.handle.instanceId ∈ source.dependencies

def group (view : ContextView) (root : ModuleRecord) : List ModuleHandle :=
  root.handle :: (((FiniteReachability.reached view.modules edge root).map (·.handle)).dedup.filter
    fun handle => handle ≠ root.handle)

/-- What a release leaves behind that no leased or pinned module reaches. -/
def unneeded (view : ContextView) : List ModuleId :=
  ((view.modules.filter fun record =>
    ¬ ∃ lease ∈ view.outstanding ++ view.pinned, ∃ root ∈ view.modules,
      root.id = lease.id ∧ record ∈ FiniteReachability.reached view.modules edge root).map
    (·.id)).dedup

def notCommitted : LinkError := ⟨"module is not committed"⟩

def insert (ctx : ReferenceContext files) (graph : GraphModule) :
    Except LinkError (NativeModuleLease × ReferenceContext files) :=
  if apart : ∀ record ∈ ctx.view.modules, ¬ Conflicts graph record then
    .ok (ctx.freshLease ⟨ctx.nextId⟩, (ctx.appendModule graph apart).issueLease ⟨ctx.nextId⟩)
  else .error ⟨"module is already committed"⟩

/-- The committed module that a path stands for. -/
def committedAt (ctx : ReferenceContext files) (path : String) : Option ModuleId := do
  let graph ← files.lookup path
  let record ← ctx.view.modules.find? fun record => record.key = graph.key
  return record.id

def prepareLoad (ctx : ReferenceContext files) (path : String) :
    Except LinkError ReferencePending :=
  match ctx.committedAt path with
  | some id => .ok (.committed id)
  | none => match files.lookup path with
    | some graph => .ok (.fresh graph)
    | none => .error ⟨"no such file"⟩

/-- The committed module that has this key or alias. -/
def namedModule (ctx : ReferenceContext files) (name : String) : Option ModuleId :=
  (ctx.view.modules.find? fun record => name = record.key ∨ name ∈ record.aliases).map (·.id)

/-- A key that names a committed module stands for it, and the image is dropped. -/
def prepareMapped (ctx : ReferenceContext files) (key : String) (raw : GraphModule) :
    Except LinkError ReferencePending :=
  match ctx.namedModule key with
  | some id => .ok (.committed id)
  | none => .ok (.fresh { raw with key := key })

def publish (ctx : ReferenceContext files) :
    ReferencePending → Except LinkError (LoadResult × ReferenceContext files)
  | .committed id =>
      if (ctx.view.find id).isSome then .ok (⟨ctx.freshLease id, []⟩, ctx.issueLease id)
      else .error notCommitted
  | .fresh graph =>
      match ctx.insert { graph with flags := OpenFlags.empty } with
      | .ok (lease, next) => .ok (⟨lease, [lease.id]⟩, next)
      | .error failure => .error failure

instance : ElfLoader (ReferenceContext files) where
  Raw := GraphModule
  Pending := ReferencePending
  new := empty
  view := view
  moduleId := namedModule
  moduleIdAt ctx addr := (ctx.view.modules.find? fun record =>
    ∃ range ∈ record.handle.ranges, range.1 ≤ addr ∧ addr < range.2).map (·.id)
  loadGroup ctx id := match ctx.view.find id with
    | some root => .ok (group ctx.view root)
    | none => .error notCommitted
  insert := insert
  addAlias ctx id name :=
    if (ctx.view.find id).isSome then
      .ok (ctx.rewrite (fun record =>
        { record with aliases := if record.id = id then record.aliases ++ [name]
            else record.aliases }) (fun _ => rfl) (fun _ => rfl))
    else .error notCommitted
  setMeta ctx id flags :=
    if (ctx.view.find id).isSome then
      .ok (ctx.rewrite (fun record =>
        if record.id = id then { record with flags := flags } else record)
        (fun record => by split <;> rfl) (fun record => by split <;> rfl))
    else .error notCommitted
  promoteGlobal ctx id := match ctx.view.find id with
    | some root => .ok (ctx.withScope (ctx.view.globalScope ++ group ctx.view root))
    | none => .error notCommitted
  acquire ctx id :=
    if (ctx.view.find id).isSome then .ok (ctx.freshLease id, ctx.issueLease id)
    else .error notCommitted
  pin ctx lease :=
    if lease ∈ ctx.view.outstanding then .ok (ctx.consumeLease lease) else .error notCommitted
  release ctx lease :=
    if lease ∈ ctx.view.outstanding then
      .ok (unneeded (ctx.view.retire lease),
        ctx.retireLease lease (unneeded (ctx.view.retire lease)))
    else .error notCommitted
  loadDylib _ _ := .error ⟨"no image"⟩
  resolveCommitted ctx _ path := .ok (ctx.committedAt path)
  prepareLoad ctx _ path := ctx.prepareLoad path
  prepareMapped ctx _ key raw := ctx.prepareMapped key raw
  relocate pending := .ok pending
  publish := publish
  rollback ctx load :=
    if load.lease ∈ ctx.view.outstanding then
      .ok (ctx.retireLease load.lease (load.modules.filter
        fun id => id ∈ unneeded (ctx.view.retire load.lease)).dedup)
    else .error notCommitted

/-! ## The laws -/

theorem mem_group {view : ContextView} {root : ModuleRecord} (listed : root ∈ view.modules)
    (handle : ModuleHandle) :
    handle ∈ group view root ↔ ∃ record, view.InGroup root record ∧ record.handle = handle := by
  have sameEdges : FiniteReachability.ListedEdge view.modules edge = view.GroupEdge := by
    funext source target
    simp [FiniteReachability.ListedEdge, ContextView.GroupEdge, edge]
  have reached : ∀ record, record ∈ FiniteReachability.reached view.modules edge root ↔
      view.InGroup root record := by
    intro record
    rw [FiniteReachability.mem_reached_iff listed, sameEdges]
    rfl
  simp only [group, List.mem_cons, List.mem_filter, List.mem_dedup, List.mem_map]
  constructor
  · rintro (rfl | ⟨⟨record, member, rfl⟩, _⟩)
    · exact ⟨root, .refl, rfl⟩
    · exact ⟨record, (reached record).mp member, rfl⟩
  · rintro ⟨record, inGroup, rfl⟩
    by_cases same : record.handle = root.handle
    · exact .inl same
    · exact .inr ⟨⟨record, (reached record).mpr inGroup, rfl⟩, decide_eq_true same⟩

theorem group_nodup (view : ContextView) (root : ModuleRecord) : (group view root).Nodup := by
  rw [group, List.nodup_cons]
  refine ⟨?_, (List.nodup_dedup _).filter _⟩
  simp

theorem freshLease_unissued (ctx : ReferenceContext files) (id : ModuleId) :
    ctx.freshLease id ∉ ctx.view.issued := by
  intro member
  exact Nat.lt_irrefl _ (ctx.serialsBelow _ member)

theorem nextId_uncommitted (ctx : ReferenceContext files) :
    ¬ ctx.view.Committed ⟨ctx.nextId⟩ := by
  rintro ⟨record, member, same⟩
  have below := ctx.idsBelow record member
  rw [same] at below
  exact Nat.lt_irrefl _ below

theorem mem_unneeded {view : ContextView} {id : ModuleId} (member : id ∈ unneeded view) :
    view.Committed id ∧ ¬ view.Leased id ∧ ¬ view.Pinned id := by
  obtain ⟨record, kept, rfl⟩ := List.mem_map.mp (List.mem_dedup.mp member)
  obtain ⟨present, unreached⟩ := List.mem_filter.mp kept
  have unreached := of_decide_eq_true unreached
  have held : ∀ lease ∈ view.outstanding ++ view.pinned, lease.id ≠ record.id := by
    intro lease leased same
    apply unreached
    exact ⟨lease, leased, record, present, same.symm,
      (FiniteReachability.mem_reached_iff present).mpr .refl⟩
  refine ⟨⟨record, present, rfl⟩, ?_, ?_⟩
  · rintro ⟨lease, leased, same⟩
    exact held lease (List.mem_append_left _ leased) same
  · rintro ⟨lease, pinned, same⟩
    exact held lease (List.mem_append_right _ pinned) same

theorem insert_ok {ctx next : ReferenceContext files} {graph : GraphModule}
    {lease : NativeModuleLease} (accepted : ctx.insert graph = .ok (lease, next)) :
    lease = ctx.freshLease ⟨ctx.nextId⟩ ∧
      next.view = (ctx.view.append [ctx.graphRecord graph]).issue lease := by
  rw [insert] at accepted
  split at accepted
  · cases accepted
    exact ⟨rfl, rfl⟩
  · cases accepted

theorem publish_ok {ctx next : ReferenceContext files} {pending : ReferencePending}
    {load : LoadResult} (accepted : ctx.publish pending = .ok (load, next)) :
    (∃ id, pending = .committed id ∧ ctx.view.Committed id ∧
      load = ⟨ctx.freshLease id, []⟩ ∧ next.view = ctx.view.issue (ctx.freshLease id)) ∨
    ∃ graph, pending = .fresh graph ∧
      load = ⟨ctx.freshLease ⟨ctx.nextId⟩, [⟨ctx.nextId⟩]⟩ ∧
      next.view = (ctx.view.append [ctx.graphRecord { graph with flags := OpenFlags.empty }]).issue
        (ctx.freshLease ⟨ctx.nextId⟩) := by
  cases pending with
  | committed id =>
      rw [publish] at accepted
      split at accepted
      · next present =>
          obtain ⟨record, found⟩ := Option.isSome_iff_exists.mp present
          cases accepted
          exact .inl ⟨id, rfl, ContextView.committed_iff_find.mpr ⟨record, found⟩, rfl, rfl⟩
      · cases accepted
  | fresh graph =>
      rw [publish] at accepted
      cases inserted : ctx.insert { graph with flags := OpenFlags.empty } with
      | error failure =>
          rw [inserted] at accepted
          cases accepted
      | ok value =>
          obtain ⟨lease, final⟩ := value
          rw [inserted] at accepted
          cases accepted
          obtain ⟨rfl, result⟩ := insert_ok inserted
          exact .inr ⟨graph, rfl, rfl, result⟩

theorem committedAt_committed {ctx : ReferenceContext files} {path : String} {id : ModuleId}
    (found : ctx.committedAt path = some id) : ctx.view.Committed id := by
  obtain ⟨graph, _, found⟩ := Option.bind_eq_some_iff.mp found
  obtain ⟨record, present, same⟩ := Option.bind_eq_some_iff.mp found
  cases same
  exact ⟨record, List.mem_of_find?_eq_some present, rfl⟩

theorem find_isSome {view : ContextView} {id : ModuleId} :
    (view.find id).isSome = true ↔ view.Committed id := by
  rw [Option.isSome_iff_exists, ContextView.committed_iff_find]

instance : LawfulElfLoader (ReferenceContext files) where
  view_new := rfl
  linkMap_unique ctx left right address leftMember rightMember leftMap rightMap :=
    ctx.linkMapUnique left leftMember right rightMember address leftMap rightMap
  moduleId_named ctx name id found := by
    obtain ⟨record, present, same⟩ := Option.map_eq_some_iff.mp found
    have named := List.find?_some present
    simp only [decide_eq_true_eq] at named
    exact ⟨record, List.mem_of_find?_eq_some present, same, named⟩
  moduleId_total ctx name record member named := by
    have some_ : (ctx.view.modules.find? fun record =>
        name = record.key ∨ name ∈ record.aliases).isSome := by
      rw [List.find?_isSome]
      exact ⟨record, member, decide_eq_true named⟩
    obtain ⟨found, present⟩ := Option.isSome_iff_exists.mp some_
    exact ⟨found.id, Option.map_eq_some_iff.mpr ⟨found, present, rfl⟩⟩
  moduleIdAt_contains ctx addr id found := by
    obtain ⟨record, present, same⟩ := Option.map_eq_some_iff.mp found
    have contained := List.find?_some present
    simp only [decide_eq_true_eq] at contained
    exact ⟨record, List.mem_of_find?_eq_some present, same, contained⟩
  loadGroup_total ctx id committed := by
    obtain ⟨root, found⟩ := ContextView.committed_iff_find.mp committed
    change ctx.view.find id = some root at found
    exact ⟨group ctx.view root, by simp only [ElfLoader.loadGroup, found]⟩
  loadGroup_spec ctx id scope accepted := by
    simp only [ElfLoader.loadGroup] at accepted
    split at accepted
    · next root found =>
        cases accepted
        exact ⟨root, found, rfl, group_nodup _ _, mem_group (ContextView.find_some found).1⟩
    · cases accepted
  insert_total ctx graph apart := by
    have free : ∀ record ∈ ctx.view.modules, ¬ Conflicts graph record := by
      intro record member conflict
      obtain ⟨unnamed, instances, linkMaps⟩ := apart record member
      rcases conflict with key | carried | same | ⟨mapped, same⟩
      · exact unnamed (.inl key)
      · exact unnamed (.inr carried)
      · exact instances same
      · obtain ⟨address, recorded⟩ := Option.ne_none_iff_exists'.mp mapped
        exact linkMaps address recorded (same ▸ recorded)
    exact ⟨_, _, dif_pos free⟩
  insert_spec ctx next graph lease accepted := by
    obtain ⟨rfl, result⟩ := insert_ok accepted
    exact ⟨nextId_uncommitted ctx, freshLease_unissued ctx _, result⟩
  addAlias_total ctx id name committed := ⟨_, if_pos (find_isSome.mpr committed)⟩
  addAlias_spec ctx next id name accepted := by
    simp only [ElfLoader.addAlias] at accepted
    split at accepted
    · next present =>
        obtain ⟨root, member, same⟩ := find_isSome.mp present
        cases accepted
        refine ⟨_, rfl, ?_, ?_⟩
        · intro record _ given carried
          split at carried
          · next same =>
              rcases List.mem_append.mp carried with old | new
              · exact .inl old
              · exact .inr ⟨same, List.mem_singleton.mp new⟩
          · exact .inl carried
        · rintro given (rfl | ⟨record, recorded, named⟩)
          · refine ⟨_, List.mem_map.mpr ⟨root, member, rfl⟩, .inr ?_⟩
            simp [same]
          · refine ⟨_, List.mem_map.mpr ⟨record, recorded, rfl⟩, named.imp (fun key => key)
              fun carried => ?_⟩
            change given ∈ if record.id = id then record.aliases ++ [name] else record.aliases
            split
            · exact List.mem_append_left _ carried
            · exact carried
    · cases accepted
  setMeta_total ctx id flags committed := ⟨_, if_pos (find_isSome.mpr committed)⟩
  setMeta_spec ctx next id flags accepted := by
    simp only [ElfLoader.setMeta] at accepted
    split at accepted
    · next present =>
        cases accepted
        exact ⟨find_isSome.mp present, rfl⟩
    · cases accepted
  promoteGlobal_total ctx id committed := by
    obtain ⟨root, found⟩ := ContextView.committed_iff_find.mp committed
    change ctx.view.find id = some root at found
    exact ⟨_, by simp only [ElfLoader.promoteGlobal, found]; rfl⟩
  promoteGlobal_spec ctx next id accepted := by
    simp only [ElfLoader.promoteGlobal] at accepted
    split at accepted
    · next root found =>
        cases accepted
        refine ⟨root, group ctx.view root, found, rfl, ?_⟩
        intro handle
        change handle ∈ ctx.view.globalScope ++ group ctx.view root ↔ _
        rw [List.mem_append, mem_group (ContextView.find_some found).1]
        rfl
    · cases accepted
  acquire_total ctx id committed := ⟨_, _, if_pos (find_isSome.mpr committed)⟩
  acquire_spec ctx next id lease accepted := by
    simp only [ElfLoader.acquire] at accepted
    split at accepted
    · next present =>
        cases accepted
        exact ⟨find_isSome.mp present, rfl, freshLease_unissued ctx id, rfl⟩
    · cases accepted
  pin_total ctx lease member := ⟨_, if_pos member⟩
  pin_spec ctx next lease accepted := by
    simp only [ElfLoader.pin] at accepted
    split at accepted
    · next member =>
        cases accepted
        exact ⟨member, rfl⟩
    · cases accepted
  release_total ctx lease member := ⟨_, _, if_pos member⟩
  release_spec ctx next lease unloaded accepted := by
    simp only [ElfLoader.release] at accepted
    split at accepted
    · next member =>
        cases accepted
        exact ⟨member, rfl, List.nodup_dedup _, fun id gone => mem_unneeded gone⟩
    · cases accepted
  resolveCommitted_spec ctx caller path id accepted := by
    injection accepted with found
    exact committedAt_committed found
  publish_spec ctx next pending load accepted := by
    rcases publish_ok accepted with ⟨id, _, committed, rfl, result⟩ | ⟨graph, _, rfl, result⟩
    · have same : ctx.view.append [] = ctx.view := by simp [ContextView.append]
      refine ⟨[], ?_, rfl, List.nodup_nil, by simp, freshLease_unissued ctx id,
        .inr ⟨rfl, committed⟩⟩
      exact result.trans (congrArg (fun view => view.issue (ctx.freshLease id)) same.symm)
    · refine ⟨_, result, rfl, List.nodup_singleton _, ?_, freshLease_unissued ctx _,
        .inl List.mem_cons_self⟩
      intro record member
      cases List.mem_singleton.mp member
      exact ⟨nextId_uncommitted ctx, rfl⟩
  rollback_total ctx load member := ⟨_, if_pos member⟩
  rollback_spec ctx next load accepted := by
    simp only [ElfLoader.rollback] at accepted
    split at accepted
    · next member =>
        cases accepted
        refine ⟨member, _, rfl, List.nodup_dedup _, ?_⟩
        intro id gone
        obtain ⟨listed, free⟩ := List.mem_filter.mp (List.mem_dedup.mp gone)
        exact ⟨listed, (mem_unneeded (of_decide_eq_true free)).2⟩
    · cases accepted

end ReferenceContext

end DynLinker.Loader
