import DynLinker.Loader.Images
import DynLinker.Loader.ReferenceContext

/-! The images of the small link context: a file is mapped when it is first opened. -/

set_option autoImplicit false

namespace DynLinker.Loader

namespace ReferenceContext

variable {files : List (String × GraphModule)}

def imageOf (handle : ModuleHandle) : List LoadedImage :=
  handle.linkMap.toList.map fun linkMap => ⟨(handle.elf.map (·.base)).getD 0, linkMap⟩

instance : ImageLoader (ReferenceContext files) where
  rawMaps raw := GraphModule.handle raw |>.linkMap.toList
  pendingMaps
    | .committed _ => []
    | .fresh graph => graph.handle.linkMap.toList
  dylibImages _ _ := []
  loadImages ctx _ path := match ctx.prepareLoad path with
    | .ok (.fresh graph) => imageOf graph.handle
    | .ok (.committed _) => []
    | .error _ => []
  mappedImages _ _ _ _ := []

theorem imageOf_maps (handle : ModuleHandle) :
    (imageOf handle).map (·.linkMap) = handle.linkMap.toList := by
  rw [imageOf, List.map_map]
  exact List.map_id _

theorem find_append_new {view : ContextView} {record : ModuleRecord}
    (absent : ¬ view.Committed record.id) :
    (view.append [record]).find record.id = some record := by
  have none_old : view.find record.id = none := by
    by_contra found
    obtain ⟨old, present⟩ := Option.ne_none_iff_exists'.mp found
    exact absent (ContextView.committed_iff_find.mpr ⟨old, present⟩)
  rw [ContextView.find] at none_old
  simp [ContextView.find, ContextView.append, List.find?_append, none_old]

/-- A published module has its graph's handle, and no committed module had it. -/
theorem publish_handle {ctx next : ReferenceContext files} {graph : GraphModule}
    {load : LoadResult} (published : ctx.publish (.fresh graph) = .ok (load, next)) :
    load.modules = [⟨ctx.nextId⟩] ∧ ElfLoader.module next ⟨ctx.nextId⟩ = some graph.handle ∧
      ∀ record ∈ ctx.view.modules, record.handle ≠ graph.handle := by
  rcases publish_ok published with ⟨_, impossible, _⟩ | ⟨given, same, loaded, result⟩
  · cases impossible
  · cases same
    refine ⟨congrArg LoadResult.modules loaded, ?_, ?_⟩
    · have found := @find_append_new ctx.view
        (ctx.graphRecord { graph with flags := OpenFlags.empty }) (nextId_uncommitted ctx)
      change (next.view.find ⟨ctx.nextId⟩).map (·.handle) = _
      rw [result]
      exact congrArg (Option.map (·.handle)) found
    · intro record listed same
      rw [publish] at published
      split at published
      · next lease final inserted =>
          rw [insert] at inserted
          split at inserted
          · next apart =>
              exact apart record listed (.inr (.inr (.inl (congrArg (·.instanceId) same))))
          · cases inserted
      · cases published

instance : LawfulImageLoader (ReferenceContext files) where
  loadDylib_maps _ _ _ impossible := by cases impossible
  prepareLoad_maps ctx caller path pending prepared := by
    change ctx.prepareLoad path = .ok pending at prepared
    cases pending with
    | committed id => exact List.nil_subset _
    | fresh graph =>
        have built : ImageLoader.loadImages ctx caller path = imageOf graph.handle := by
          simp only [ImageLoader.loadImages, prepared]
        rw [built, imageOf_maps]
        exact List.Subset.refl _
  prepareMapped_maps ctx caller key raw pending prepared := by
    change ctx.prepareMapped key raw = .ok pending at prepared
    rw [prepareMapped] at prepared
    split at prepared
    · cases prepared
      exact List.nil_subset _
    · cases prepared
      exact List.subset_append_left _ _
  relocate_maps pending relocated same := by
    cases same
    rfl
  publish_maps ctx next pending load published := by
    cases pending with
    | committed id =>
        rcases publish_ok published with ⟨_, _, _, rfl, _⟩ | ⟨_, impossible, _⟩
        · rfl
        · cases impossible
    | fresh graph =>
        obtain ⟨modules, found, _⟩ := publish_handle published
        rw [modules, List.filterMap_cons, found]
        change _ = graph.handle.linkMap.toList
        cases linked : graph.handle.linkMap <;> simp [linked]
  publish_new ctx next pending load published id member handle found record listed := by
    cases pending with
    | committed id =>
        rcases publish_ok published with ⟨_, _, _, rfl, _⟩ | ⟨_, impossible, _⟩
        · cases member
        · cases impossible
    | fresh graph =>
        obtain ⟨modules, known, new⟩ := publish_handle published
        rw [modules] at member
        cases List.mem_singleton.mp member
        cases known.symm.trans found
        exact new record listed

end ReferenceContext

end DynLinker.Loader
