import DynLinker.Loader.ReferenceContext
import DynLinker.Registry.HostImport
import DynLinker.Registry.ManagerProperties

/-! The edges that the import records. An object's edges are fixed when it is
registered, so they reach only the objects that the host reported before it. -/

set_option autoImplicit false

namespace DynLinker.Registry

open Lib Loader ElfLoader

/-- Different objects share no name of their own, no instance and no link map. -/
def DistinctObjects (objects : List HostObject) : Prop :=
  objects.Pairwise fun left right =>
    (∀ name, left.OwnName name → ¬ right.OwnName name) ∧
      left.instanceId ≠ right.instanceId ∧ left.linkMap ≠ right.linkMap

def OwnedIn (objects : List HostObject) (name : String) : Prop :=
  ∃ object ∈ objects, object.OwnName name

def NamedIn (objects : List HostObject) (name : String) : Prop :=
  ∃ object ∈ objects, object.Names name

instance (objects : List HostObject) (name : String) : Decidable (OwnedIn objects name) :=
  inferInstanceAs (Decidable (∃ object ∈ objects, object.OwnName name))

instance (objects : List HostObject) (name : String) : Decidable (NamedIn objects name) :=
  inferInstanceAs (Decidable (∃ object ∈ objects, object.Names name))

/-- The edges lead, one by one, to objects that the needed names stand for. -/
def EdgesExact (view : ContextView) (objects : List HostObject) (object : HostObject) : Prop :=
  ∃ record ∈ view.modules, record.handle = object.handle ∧
    List.Forall₂ (fun needed edge =>
        ∃ target ∈ objects, target.Names needed ∧ target.instanceId = edge)
      (object.neededLibs.filter fun needed => NamedIn objects needed) record.dependencies

/-- What `dlopen(NULL)` searches holds the main program and everything that its
members need from the set. -/
def MainGroupComplete {Ctx : Type} [ElfLoader Ctx] (manager : Manager Ctx)
    (objects : List HostObject) : Prop :=
  ∀ main rest, objects = main :: rest →
    ∃ opened next, manager.mainLibrary = some (opened, next) ∧ main.handle ∈ opened.scope ∧
      ∀ member ∈ objects, member.handle ∈ opened.scope → ∀ needed ∈ member.neededLibs,
        NamedIn objects needed →
        ∃ target ∈ objects, target.Names needed ∧ target.handle ∈ opened.scope

/-- Every needed name of the set belongs to an object that was reported earlier. -/
def DependenciesFirst (objects : List HostObject) : Prop :=
  ∀ before object after, objects = before ++ object :: after →
    ∀ needed ∈ object.neededLibs, NamedIn objects needed → OwnedIn before needed

/-- The edges of an object registered after `before`. -/
def EdgesFrom (before : List HostObject) (object : HostObject) (edges : List InstanceId) : Prop :=
  List.Forall₂ (fun needed edge =>
      ∃ target ∈ before, target.OwnName needed ∧ target.instanceId = edge)
    (object.neededLibs.filter fun needed => OwnedIn before needed) edges

/-- One record for each registered object, in order, with its edges. -/
structure Linked (view : ContextView) (before : List HostObject) : Prop where
  ids : (view.modules.map (·.id)).Nodup
  order : view.modules.map (·.handle) = before.map (·.handle)
  edges : ∀ early object late, before = early ++ object :: late →
    ∃ record ∈ view.modules, record.handle = object.handle ∧
      EdgesFrom early object record.dependencies

/-- While objects are registered, the known names are exactly their own names. -/
structure Imported (view : ContextView) (before : List HostObject) : Prop
    extends Linked view before where
  source : ∀ record ∈ view.modules, ∃ object ∈ before, record.handle = object.handle ∧
    ∀ name, record.Named name → object.OwnName name
  named : ∀ name, OwnedIn before name → ∃ record ∈ view.modules, record.Named name

variable {Ctx : Type} [ElfLoader Ctx] [LawfulElfLoader Ctx]

omit [LawfulElfLoader Ctx] in
theorem find_of_member {view : ContextView} (nodup : (view.modules.map (·.id)).Nodup)
    {record : ModuleRecord} (member : record ∈ view.modules) :
    view.find record.id = some record := by
  obtain ⟨found, present⟩ := ContextView.committed_iff_find.mp ⟨record, member, rfl⟩
  obtain ⟨foundMember, same⟩ := ContextView.find_some present
  rw [present, List.inj_on_of_nodup_map nodup foundMember member same]

/-- The edges computed at registration are those to the objects known by then. -/
theorem knownDependencies_edges {ctx : Ctx} {before : List HostObject}
    (imported : Imported (ElfLoader.view ctx) before) (object : HostObject) :
    EdgesFrom before object (Manager.knownDependencies ctx object.neededLibs) := by
  unfold EdgesFrom Manager.knownDependencies
  induction object.neededLibs with
  | nil => exact .nil
  | cons needed rest ih =>
      cases found : moduleId ctx needed with
      | none =>
          have unowned : ¬ OwnedIn before needed := by
            intro owned
            obtain ⟨record, member, named⟩ := imported.named needed owned
            obtain ⟨id, known⟩ := LawfulElfLoader.moduleId_total ctx needed record member named
            rw [found] at known
            cases known
          rw [List.filter_cons_of_neg (by simpa using unowned), List.filterMap_cons_none found]
          exact ih
      | some id =>
          obtain ⟨record, member, rfl, named⟩ := LawfulElfLoader.moduleId_named _ _ _ found
          obtain ⟨target, listed, sameHandle, names⟩ := imported.source record member
          have owned : OwnedIn before needed := ⟨target, listed, names needed named⟩
          have known : module ctx record.id = some target.handle := by
            rw [module, find_of_member imported.ids member, Option.map_some, sameHandle]
          rw [List.filter_cons_of_pos (by simpa using owned), List.filterMap_cons_some found,
            List.filterMap_cons_some known, List.map_cons]
          exact .cons ⟨target, listed, names needed named, rfl⟩ ih

/-! ## One registration -/

omit [LawfulElfLoader Ctx] in
theorem Linked.of_aliased {before after : ContextView} {objects : List HostObject}
    {id : ModuleId} {name : String} (linked : Linked before objects)
    (aliased : Manager.Aliased before after id name) : Linked after objects := by
  obtain ⟨aliases, rfl, _⟩ := aliased.shape
  refine ⟨?_, ?_, ?_⟩
  · rw [List.map_map]
    exact linked.ids
  · rw [List.map_map]
    exact linked.order
  · intro early object late split
    obtain ⟨record, member, handle, edges⟩ := linked.edges early object late split
    exact ⟨_, List.mem_map.mpr ⟨record, member, rfl⟩, handle, edges⟩

omit [LawfulElfLoader Ctx] in
theorem Linked.append {view : ContextView} {before : List HostObject} {object : HostObject}
    {record : ModuleRecord} (linked : Linked view before) (fresh : ¬ view.Committed record.id)
    (handle : record.handle = object.handle) (edges : EdgesFrom before object record.dependencies) :
    Linked (view.append [record]) (before ++ [object]) := by
  refine ⟨?_, ?_, ?_⟩
  · rw [ContextView.append, List.map_append, List.nodup_append]
    refine ⟨linked.ids, by simp, ?_⟩
    intro id old other new same
    obtain ⟨known, member, rfl⟩ := List.mem_map.mp old
    rw [List.map_singleton, List.mem_singleton] at new
    exact fresh ⟨known, member, same.trans new⟩
  · rw [ContextView.append, List.map_append, linked.order, List.map_append, List.map_singleton,
      List.map_singleton, handle]
  · intro early other late split
    rcases List.eq_nil_or_concat late with rfl | ⟨initial, last, rfl⟩
    · obtain ⟨rfl, same⟩ := List.append_inj' split rfl
      cases same
      exact ⟨record, List.mem_append_right _ List.mem_cons_self, handle, edges⟩
    · rw [List.concat_eq_append, ← List.cons_append, ← List.append_assoc] at split
      obtain ⟨rfl, _⟩ := List.append_inj' split rfl
      obtain ⟨known, member, sameHandle, known_edges⟩ := linked.edges early other initial rfl
      exact ⟨known, List.mem_append_left _ member, sameHandle, known_edges⟩

theorem importObject_imported {manager next : Manager Ctx} {before : List HostObject}
    {object : HostObject} (imported : Imported manager.view before)
    (accepted : manager.importObject object = .ok next) :
    Imported next.view (before ++ [object]) := by
  obtain ⟨elf, lease, aliased, downcast, absent, named, modules, _⟩ :=
    Manager.registerLoaded_spec accepted
  obtain rfl : object.elf = elf := Option.some.inj downcast
  have linked : Linked (manager.view.append [Manager.loadedRecord manager.linkCtx lease.id
      object.loaded object.elf Manager.hostFlags]) (before ++ [object]) :=
    imported.toLinked.append absent rfl (knownDependencies_edges imported object)
  have issued : Linked ((manager.view.append [Manager.loadedRecord manager.linkCtx lease.id
      object.loaded object.elf Manager.hostFlags]).issue lease) (before ++ [object]) :=
    ⟨linked.ids, linked.order, linked.edges⟩
  have aliasedLinked : Linked aliased (before ++ [object]) := issued.of_aliased named
  obtain ⟨aliases, shape, only⟩ := named.shape
  refine ⟨⟨?_, ?_, ?_⟩, ?_, ?_⟩
  · rw [modules]
    exact aliasedLinked.ids
  · rw [modules]
    exact aliasedLinked.order
  · rw [modules]
    exact aliasedLinked.edges
  · rw [modules, shape]
    intro record member
    obtain ⟨old, listed, rfl⟩ := List.mem_map.mp member
    rcases List.mem_append.mp listed with known | added
    · obtain ⟨source, present, handle, names⟩ := imported.source old known
      refine ⟨source, List.mem_append_left _ present, handle, ?_⟩
      intro name carried
      rcases carried with key | alias_
      · exact names name (.inl key)
      · rcases only old listed name alias_ with kept | ⟨same, _⟩
        · exact names name (.inr kept)
        · exact absurd ⟨old, known, same⟩ absent
    · obtain rfl := List.mem_singleton.mp added
      refine ⟨object, List.mem_append_right _ List.mem_cons_self, rfl, ?_⟩
      intro name carried
      rcases carried with key | alias_
      · exact .inl key
      · rcases only _ listed name alias_ with kept | ⟨_, rfl, nonempty⟩
        · cases kept
        · exact .inr ⟨rfl, nonempty⟩
  · rw [modules]
    rintro name ⟨owner, listed, owned⟩
    apply named.total
    rcases List.mem_append.mp listed with known | added
    · obtain ⟨record, member, carried⟩ := imported.named name ⟨owner, known, owned⟩
      exact .inr ⟨record, List.mem_append_left _ member, carried⟩
    · obtain rfl := List.mem_singleton.mp added
      rcases owned with key | ⟨fileName, nonempty⟩
      · exact .inr ⟨_, List.mem_append_right _ List.mem_cons_self, .inl key⟩
      · have present : owner.fileName ≠ "" := fileName ▸ nonempty
        exact .inl ⟨fileName, present⟩

theorem importObject_total {manager : Manager Ctx} {before : List HostObject}
    {object : HostObject} (imported : Imported manager.view before)
    (apart : ∀ earlier ∈ before, (∀ name, earlier.OwnName name → ¬ object.OwnName name) ∧
      earlier.instanceId ≠ object.instanceId ∧ earlier.linkMap ≠ object.linkMap) :
    ∃ next, manager.importObject object = .ok next := by
  refine Manager.registerLoaded_total _ ⟨rfl, rfl⟩ rfl ?_
  intro record member
  obtain ⟨earlier, listed, handle, names⟩ := imported.source record member
  obtain ⟨noName, noInstance, noLinkMap⟩ := apart earlier listed
  refine ⟨?_, ?_, ?_⟩
  · intro carried
    exact noName _ (names _ carried) (.inl rfl)
  · rw [handle]
    exact noInstance
  · intro address recorded same
    rw [handle] at recorded
    exact noLinkMap (Option.some.inj (recorded.trans same.symm))

/-! ## The whole import -/

theorem imported_new : Imported (Manager.new : Manager Ctx).view [] := by
  have start : (Manager.new : Manager Ctx).view = ContextView.empty := LawfulElfLoader.view_new
  rw [start]
  refine ⟨⟨List.nodup_nil, rfl, ?_⟩, ?_, ?_⟩
  · intro early object late split
    exact absurd split.symm (List.append_ne_nil_of_right_ne_nil _ (List.cons_ne_nil _ _))
  · intro record member
    cases member
  · rintro name ⟨object, member, _⟩
    cases member

theorem importObjects_imported {objects before : List HostObject} {manager : Manager Ctx}
    (distinct : DistinctObjects (before ++ objects)) (imported : Imported manager.view before) :
    ∃ next, objects.foldlM Manager.importObject manager = .ok next ∧
      Imported next.view (before ++ objects) := by
  induction objects generalizing before manager with
  | nil => exact ⟨manager, rfl, by rwa [List.append_nil]⟩
  | cons object rest ih =>
      have apart := (List.pairwise_append.mp distinct).2.2
      obtain ⟨middle, registering⟩ := importObject_total imported
        fun earlier listed => apart earlier listed object List.mem_cons_self
      have next := importObject_imported imported registering
      rw [List.append_cons] at distinct ⊢
      obtain ⟨final, importing, finished⟩ := ih distinct next
      refine ⟨final, ?_, finished⟩
      rw [List.foldlM_cons]
      exact bind_eq_ok.mpr ⟨middle, registering, importing⟩

theorem addAliases_linked {names : List String} {objects : List HostObject} {id : ModuleId}
    {manager next : Manager Ctx} (linked : Linked manager.view objects)
    (accepted : names.foldlM (fun manager given => Manager.addAlias manager id given) manager =
      .ok next) : Linked next.view objects := by
  induction names generalizing manager with
  | nil =>
      cases accepted
      exact linked
  | cons name rest ih =>
      rw [List.foldlM_cons] at accepted
      obtain ⟨middle, adding, accepted⟩ := bind_eq_ok.mp accepted
      exact ih (linked.of_aliased (Manager.addAlias_spec adding).1) accepted

theorem addCompatAliases_linked {objects : List HostObject} {name : String}
    {manager next : Manager Ctx} (linked : Linked manager.view objects)
    (accepted : manager.addCompatAliases name = .ok next) : Linked next.view objects := by
  rw [Manager.addCompatAliases] at accepted
  split at accepted
  · cases accepted
    exact linked
  · exact addAliases_linked linked accepted

/-- The import succeeds on distinct objects and records their edges in order. -/
theorem importHost_linked {objects : List HostObject} (distinct : DistinctObjects objects) :
    ∃ manager, (Manager.new : Manager Ctx).importHost objects = .ok manager ∧
      Linked manager.view objects := by
  have start : Imported (Manager.new : Manager Ctx).view [] := imported_new
  have whole : DistinctObjects ([] ++ objects) := distinct
  obtain ⟨registered, importing, imported⟩ := importObjects_imported whole start
  obtain ⟨libc, first⟩ := Manager.addCompatAliases_total registered "libc.so.6"
  obtain ⟨final, second⟩ := Manager.addCompatAliases_total libc "ld-linux-x86-64.so.2"
  refine ⟨final, bind_eq_ok.mpr ⟨registered, importing, ?_⟩, ?_⟩
  · exact bind_eq_ok.mpr ⟨libc, first, bind_eq_ok.mpr ⟨final, second, rfl⟩⟩
  · exact addCompatAliases_linked (addCompatAliases_linked imported.toLinked first) second

omit [LawfulElfLoader Ctx] in
theorem NamedIn.of_owned {before objects : List HostObject} {name : String}
    (included : before ⊆ objects) (owned : OwnedIn before name) : NamedIn objects name := by
  obtain ⟨object, member, own⟩ := owned
  exact ⟨object, included member, .inl own⟩

/-- An object has one record: its link map tells records apart. -/
theorem record_unique {manager : Manager Ctx} {left right : ModuleRecord} {object : HostObject}
    (leftMember : left ∈ manager.view.modules) (rightMember : right ∈ manager.view.modules)
    (leftHandle : left.handle = object.handle) (rightHandle : right.handle = object.handle) :
    left = right := by
  apply LawfulElfLoader.linkMap_unique manager.linkCtx left right object.linkMap leftMember
    rightMember
  · rw [leftHandle]
    rfl
  · rw [rightHandle]
    rfl

theorem Linked.edgesExact_iff {manager : Manager Ctx} {objects early late : List HostObject}
    {object : HostObject} (linked : Linked manager.view objects)
    (split : objects = early ++ object :: late) :
    EdgesExact manager.view objects object ↔
      ∀ needed ∈ object.neededLibs, NamedIn objects needed → OwnedIn early needed := by
  have included : early ⊆ objects := by
    rw [split]
    exact List.subset_append_left _ _
  obtain ⟨record, member, handle, edges⟩ := linked.edges early object late split
  constructor
  · rintro ⟨other, otherMember, otherHandle, exact_⟩
    obtain rfl : other = record := record_unique otherMember member otherHandle handle
    have sublist : (object.neededLibs.filter fun needed => OwnedIn early needed).Sublist
        (object.neededLibs.filter fun needed => NamedIn objects needed) := by
      apply List.monotone_filter_right
      intro needed owned
      exact decide_eq_true (NamedIn.of_owned included (of_decide_eq_true owned))
    have same := sublist.eq_of_length (edges.length_eq.trans exact_.length_eq.symm)
    intro needed listed named
    have kept : needed ∈ object.neededLibs.filter fun needed => NamedIn objects needed :=
      List.mem_filter.mpr ⟨listed, decide_eq_true named⟩
    rw [← same] at kept
    exact of_decide_eq_true (List.mem_filter.mp kept).2
  · intro first
    refine ⟨record, member, handle, ?_⟩
    have same : (object.neededLibs.filter fun needed => NamedIn objects needed) =
        object.neededLibs.filter fun needed => OwnedIn early needed := by
      apply List.filter_congr
      intro needed listed
      exact decide_eq_decide.mpr ⟨first needed listed, NamedIn.of_owned included⟩
    rw [same]
    refine edges.imp ?_
    rintro needed edge ⟨target, present, own, reached⟩
    exact ⟨target, included present, .inl own, reached⟩

omit [LawfulElfLoader Ctx] in
theorem Linked.record_of_object {view : ContextView} {objects : List HostObject}
    (linked : Linked view objects) {object : HostObject} (listed : object ∈ objects) :
    ∃ record ∈ view.modules, record.handle = object.handle := by
  have present : object.handle ∈ view.modules.map (·.handle) := by
    rw [linked.order]
    exact List.mem_map.mpr ⟨object, listed, rfl⟩
  exact List.mem_map.mp present

theorem exists_edge_of_mem {Left Right : Type} {related : Left → Right → Prop}
    {lefts : List Left} {rights : List Right} (paired : List.Forall₂ related lefts rights)
    {left : Left} (member : left ∈ lefts) : ∃ right ∈ rights, related left right := by
  induction paired with
  | nil => cases member
  | cons head _ ih =>
      rcases List.mem_cons.mp member with rfl | later
      · exact ⟨_, List.mem_cons_self, head⟩
      · obtain ⟨right, present, found⟩ := ih later
        exact ⟨right, List.mem_cons_of_mem _ present, found⟩

/-- An exact edge of a group member leads to another member. -/
theorem Linked.group_closed {manager : Manager Ctx} {objects : List HostObject}
    (linked : Linked manager.view objects) {root record : ModuleRecord}
    (rootMember : root ∈ manager.view.modules) (inGroup : manager.view.InGroup root record)
    {member : HostObject} (handle : record.handle = member.handle)
    (exact_ : EdgesExact manager.view objects member) {needed : String}
    (needs : needed ∈ member.neededLibs) (named : NamedIn objects needed) :
    ∃ target ∈ objects, target.Names needed ∧
      ∃ next, manager.view.InGroup root next ∧ next.handle = target.handle := by
  obtain ⟨edged, edgedMember, edgedHandle, edges⟩ := exact_
  have recordMember : record ∈ manager.view.modules := by
    cases inGroup with
    | refl => exact rootMember
    | tail _ step => exact step.1
  cases record_unique recordMember edgedMember handle edgedHandle
  have kept : needed ∈ member.neededLibs.filter fun needed => NamedIn objects needed :=
    List.mem_filter.mpr ⟨needs, decide_eq_true named⟩
  obtain ⟨edge, reached, target, present, names, rfl⟩ := exists_edge_of_mem edges kept
  obtain ⟨next, nextMember, nextHandle⟩ := linked.record_of_object present
  refine ⟨target, present, names, next, inGroup.tail ⟨nextMember, ?_⟩, nextHandle⟩
  rw [nextHandle]
  exact reached

theorem Linked.mainGroupComplete {manager : Manager Ctx} {objects : List HostObject}
    (linked : Linked manager.view objects)
    (exact_ : ∀ object ∈ objects, EdgesExact manager.view objects object) :
    MainGroupComplete manager objects := by
  intro main rest split
  have order := linked.order
  rw [split, List.map_cons] at order
  obtain ⟨root, tail, modules, rootHandle, _⟩ := List.map_eq_cons_iff.mp order
  have rootMember : root ∈ manager.view.modules := by
    rw [modules]
    exact List.mem_cons_self
  have first : (loadOrder manager.linkCtx).head? = some root.id := by
    rw [loadOrder, show (ElfLoader.view manager.linkCtx).modules = root :: tail from modules]
    rfl
  obtain ⟨opened, next, opening⟩ := Manager.openModule_total ⟨root, rootMember, rfl⟩
  obtain ⟨grouping, _⟩ := Manager.openModule_spec opening
  obtain ⟨found, present, _, _, members⟩ := LawfulElfLoader.loadGroup_spec _ _ _ grouping
  cases (find_of_member linked.ids rootMember).symm.trans present
  refine ⟨opened, next, ?_, ?_, ?_⟩
  · rw [Manager.mainLibrary, first]
    exact opening
  · exact (members _).mpr ⟨root, .refl, rootHandle⟩
  · intro member listed inScope needed needs named
    obtain ⟨record, inGroup, handle⟩ := (members _).mp inScope
    obtain ⟨target, present, names, next, nextGroup, nextHandle⟩ :=
      linked.group_closed rootMember inGroup handle (exact_ member listed) needs named
    exact ⟨target, present, names, (members _).mpr ⟨next, nextGroup, nextHandle⟩⟩

/-- The import records every dependency of the set exactly when the host reports
each object after the objects it needs. -/
theorem import_edges_exact_iff (objects : List HostObject) (distinct : DistinctObjects objects) :
    ∃ manager, (Manager.new : Manager Ctx).importHost objects = .ok manager ∧
      (((∀ object ∈ objects, EdgesExact manager.view objects object) ∧
        MainGroupComplete manager objects) ↔ DependenciesFirst objects) := by
  obtain ⟨manager, importing, linked⟩ :
      ∃ manager, (Manager.new : Manager Ctx).importHost objects = .ok manager ∧
        Linked manager.view objects := importHost_linked distinct
  refine ⟨manager, importing, ?_⟩
  constructor
  · rintro ⟨exact_, _⟩ before object after split
    apply (linked.edgesExact_iff split).mp
    apply exact_
    rw [split]
    exact List.mem_append_right _ List.mem_cons_self
  · intro ordered
    have exact_ : ∀ object ∈ objects, EdgesExact manager.view objects object := by
      intro object listed
      obtain ⟨before, after, split⟩ := List.append_of_mem listed
      exact (linked.edgesExact_iff split).mpr (ordered before object after split)
    exact ⟨exact_, linked.mainGroupComplete exact_⟩

/-! ## A program and its C library -/

def dynamicPhdr : Phdr := ⟨ptDynamic, 0x3000, 0x1f0⟩

def hostMain : HostObject where
  instanceId := ⟨1⟩
  name := ""
  soname := none
  fileName := ""
  neededLibs := ["libc.so.6"]
  base := 0x10000
  phdrs := [dynamicPhdr]
  tlsModId := none
  ranges := [(0x10000, 0x14000)]
  symbols := [("main", 0x10100)]
  linkMap := ⟨0x500, Nat.succ_ne_zero _⟩
  dynamic := ⟨dynamicPhdr, List.mem_cons_self, rfl⟩

def hostLibc : HostObject where
  instanceId := ⟨2⟩
  name := "/lib/libc.so.6"
  soname := some "libc.so.6"
  fileName := "libc.so.6"
  neededLibs := []
  base := 0x20000
  phdrs := [dynamicPhdr]
  tlsModId := none
  ranges := [(0x20000, 0x24000)]
  symbols := [("malloc", 0x20100)]
  linkMap := ⟨0x600, Nat.succ_ne_zero _⟩
  dynamic := ⟨dynamicPhdr, List.mem_cons_self, rfl⟩

theorem hostMain_ownName {name : String} : hostMain.OwnName name ↔ name = "" := by
  simp only [HostObject.OwnName, HostObject.key, hostMain, Option.getD_none]
  constructor
  · rintro (rfl | ⟨rfl, nonempty⟩)
    · rfl
    · exact absurd rfl nonempty
  · exact .inl

theorem hostLibc_ownName {name : String} : hostLibc.OwnName name ↔ name = "libc.so.6" := by
  simp only [HostObject.OwnName, HostObject.key, hostLibc, Option.getD_some]
  constructor
  · rintro (rfl | ⟨rfl, _⟩) <;> rfl
  · exact .inl

theorem hostObjects_apart (name : String) (main : hostMain.OwnName name) :
    ¬ hostLibc.OwnName name := by
  rw [hostMain_ownName] at main
  rw [hostLibc_ownName, main]
  decide

theorem host_main_first_distinct : DistinctObjects [hostMain, hostLibc] := by
  refine List.pairwise_pair.mpr ⟨hostObjects_apart, by decide, by decide⟩

theorem host_libc_first_distinct : DistinctObjects [hostLibc, hostMain] := by
  refine List.pairwise_pair.mpr ⟨?_, by decide, by decide⟩
  exact fun name libc main => hostObjects_apart name main libc

/-- The usual order: the program comes first, so its edge to the C library is lost
and `dlopen(NULL)` searches the program alone. -/
theorem import_main_first_loses_edge :
    DistinctObjects [hostMain, hostLibc] ∧ "libc.so.6" ∈ hostMain.neededLibs ∧
      NamedIn [hostMain, hostLibc] "libc.so.6" ∧
      (∃ manager, (Manager.new : Manager (ReferenceContext [])).importHost [hostMain, hostLibc] =
        .ok manager ∧ ¬ EdgesExact manager.view [hostMain, hostLibc] hostMain) ∧
      ((Manager.new : Manager (ReferenceContext [])).importHost [hostMain, hostLibc]).map
        (fun manager => manager.mainLibrary.map fun found => found.1.scope) =
          .ok (some [hostMain.handle]) := by
  have named : NamedIn [hostMain, hostLibc] "libc.so.6" := by decide
  refine ⟨host_main_first_distinct, by decide, named, ?_, by decide +kernel⟩
  obtain ⟨manager, importing, linked⟩ :
      ∃ manager, (Manager.new : Manager (ReferenceContext [])).importHost [hostMain, hostLibc] =
        .ok manager ∧ Linked manager.view [hostMain, hostLibc] :=
    importHost_linked host_main_first_distinct
  refine ⟨manager, importing, ?_⟩
  intro exact_
  have split : [hostMain, hostLibc] = [] ++ hostMain :: [hostLibc] := rfl
  obtain ⟨owner, member, _⟩ :=
    (linked.edgesExact_iff split).mp exact_ "libc.so.6" (by decide) named
  cases member

theorem host_libc_first_ordered : DependenciesFirst [hostLibc, hostMain] := by
  intro before object after split needed needs named
  cases before with
  | nil =>
      cases split
      cases needs
  | cons first rest =>
      injection split with head tail
      cases rest with
      | nil =>
          cases tail
          cases List.mem_singleton.mp needs
          exact ⟨first, List.mem_cons_self, head ▸ hostLibc_ownName.mpr rfl⟩
      | cons second later =>
          injection tail with _ impossible
          exact absurd impossible.symm (List.append_ne_nil_of_right_ne_nil _ (List.cons_ne_nil _ _))

/-- The other order keeps the edge. -/
theorem import_libc_first_keeps_edge :
    ∃ manager, (Manager.new : Manager (ReferenceContext [])).importHost [hostLibc, hostMain] =
        .ok manager ∧
      (∀ object ∈ [hostLibc, hostMain], EdgesExact manager.view [hostLibc, hostMain] object) ∧
      MainGroupComplete manager [hostLibc, hostMain] := by
  obtain ⟨manager, importing, exact_⟩ := @import_edges_exact_iff (ReferenceContext []) _ _
    [hostLibc, hostMain] host_libc_first_distinct
  exact ⟨manager, importing, exact_.mpr host_libc_first_ordered⟩

end DynLinker.Registry
