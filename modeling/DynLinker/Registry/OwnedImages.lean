import DynLinker.Debug.LinkMapsProperties
import DynLinker.Registry.OpenProperties
import DynLinker.Registry.Process

/-! The link maps that an open in progress owns. Each stage of an open adds the maps of
the images it loads and drops those of the images it gives up; besides them, the
debugger's list is what it was. -/

set_option autoImplicit false

namespace DynLinker.Registry

open Lib Loader ElfLoader ImageLoader Debug

/-- The list is well linked, and besides the owned maps it holds `rest`. -/
structure Owns (debug : DebugWorld) (owned rest : List LinkMapAddress) : Prop where
  linked : WellLinked debug
  others : debug.listed.filter (fun linkMap => linkMap ∉ owned) = rest

theorem listedAfter_adds (images : List LoadedImage) (nodes : List LinkMapAddress) :
    (images.map fun image => DebugAction.add image.linkMap image.contents).foldl listedAfter nodes =
      nodes ++ images.map (·.linkMap) := by
  induction images generalizing nodes with
  | nil => exact (List.append_nil nodes).symm
  | cons image rest ih =>
      rw [List.map_cons, List.foldl_cons, ih, listedAfter, List.append_assoc]
      rfl

theorem listedAfter_drops (maps nodes : List LinkMapAddress) :
    (maps.map DebugAction.drop).foldl listedAfter nodes = nodes.diff maps := by
  rw [List.foldl_map, List.diff_eq_foldl]
  rfl

section Effects

variable {Ctx : Type} {cell : RefCell (Manager Ctx)} {around : Surroundings}
  {after : Process Ctx} {owned kept rest : List LinkMapAddress}

theorem run_panicking {Answer : Type} {result : Except Panic Answer} {answer : Answer}
    {before : Process Ctx} :
    panicking result before = .ok (answer, after) ↔ result = .ok answer ∧ after = before := by
  rw [panicking, CellM.run_lift]
  cases result with
  | error panic => simp [Except.mapError]
  | ok value => simp [Except.mapError]

theorem run_debugActions {actions : List DebugAction}
    (ran : debugActions actions (cell, around) = .ok ((), after)) :
    ∃ debug, TransitionSystem.runLabels DebugWorld.act around.debug actions = some debug ∧
      after = (cell, { around with debug := debug }) := by
  obtain ⟨next, changed, rfl⟩ := CellM.run_surroundings.mp ran
  split at changed
  · next debug acted =>
      cases changed
      exact ⟨debug, acted, rfl⟩
  · cases changed

/-- New images are owned by whoever loaded them. -/
theorem addImages_owns {images : List LoadedImage} (owns : Owns around.debug owned rest)
    (ran : addImages images (cell, around) = .ok ((), after)) :
    ∃ debug, after = (cell, { around with debug := debug }) ∧
      Owns debug (owned ++ images.map (·.linkMap)) rest := by
  obtain ⟨debug, acted, rfl⟩ := run_debugActions ran
  obtain ⟨linked, listed⟩ := wellLinked_runLabels owns.linked acted
  rw [listedAfter_adds] at listed
  refine ⟨debug, rfl, linked, ?_⟩
  have apart := linked.listed_nodup
  rw [listed] at apart
  have new : (images.map (·.linkMap)).filter
      (fun linkMap => linkMap ∉ owned ++ images.map (·.linkMap)) = [] := by
    apply List.filter_eq_nil_iff.mpr
    intro linkMap member
    simp [List.mem_append, member]
  rw [listed, List.filter_append, new, List.append_nil, ← owns.others]
  apply List.filter_congr
  intro linkMap old
  have notNew : linkMap ∉ images.map (·.linkMap) :=
    fun added => List.disjoint_of_nodup_append apart old added
  rw [decide_eq_decide, List.mem_append, not_or]
  exact ⟨And.left, fun free => ⟨free, notNew⟩⟩

/-- Dropped images leave the list, and nothing else does. -/
theorem dropImages_owns {maps : List LinkMapAddress} (owns : Owns around.debug owned rest)
    (ran : dropImages maps (cell, around) = .ok ((), after))
    (covers : ∀ linkMap, linkMap ∈ owned ↔ linkMap ∈ maps ∨ linkMap ∈ kept) :
    ∃ debug, after = (cell, { around with debug := debug }) ∧ Owns debug kept rest := by
  obtain ⟨debug, acted, rfl⟩ := run_debugActions ran
  obtain ⟨linked, listed⟩ := wellLinked_runLabels owns.linked acted
  rw [listedAfter_drops, owns.linked.listed_nodup.sdiff_eq_filter] at listed
  refine ⟨debug, rfl, linked, ?_⟩
  rw [listed, List.filter_filter, ← owns.others]
  apply List.filter_congr
  intro linkMap _
  have covered := covers linkMap
  simp only [← Bool.decide_and, decide_eq_decide]
  tauto

theorem dropImages_owned (owns : Owns around.debug owned rest)
    (ran : dropImages owned (cell, around) = .ok ((), after)) :
    ∃ debug, after = (cell, { around with debug := debug }) ∧ Owns debug [] rest :=
  dropImages_owns owns ran (by simp)

theorem keepImages_owns (owns : Owns around.debug owned rest)
    (ran : keepImages owned kept (cell, around) = .ok ((), after)) (subset : kept ⊆ owned) :
    ∃ debug, after = (cell, { around with debug := debug }) ∧ Owns debug kept rest := by
  refine dropImages_owns owns ran ?_
  intro linkMap
  rw [List.mem_filter, decide_eq_true_eq]
  constructor
  · intro member
    by_cases own : linkMap ∈ kept
    · exact .inr own
    · exact .inl ⟨member, own⟩
  · rintro (dropped | own)
    · exact dropped.1
    · exact subset own

theorem Owns.listed {debug : DebugWorld} (owns : Owns debug [] rest) : debug.listed = rest := by
  rw [← owns.others]
  simp

end Effects

end DynLinker.Registry
