import DynLinker.Registry.ManagerProperties
import DynLinker.Registry.Open

/-! What the parts of `open_with` do to the registry. -/

set_option autoImplicit false

namespace DynLinker.Registry

open Lib Loader ElfLoader

namespace Manager

variable {Ctx : Type} [ElfLoader Ctx] [LawfulElfLoader Ctx]

omit [LawfulElfLoader Ctx] in
theorem openCommitted_cases {manager next : Manager Ctx} {request path : String}
    {flags : OpenFlags} {caller : Option ModuleId} {outcome : OpenOutcome Ctx}
    (accepted : manager.openCommitted request path flags caller = .ok (outcome, next)) :
    (∃ id promoted opened, outcome = .finished (.ok opened) ∧
        manager.promote id flags = .ok promoted ∧
        promoted.openModule id = some (opened, next)) ∨
      (next = manager ∧ ∃ error, outcome = .finished (.error error)) := by
  rw [openCommitted] at accepted
  split at accepted
  · cases accepted
    exact .inr ⟨rfl, _, rfl⟩
  · cases accepted
    exact .inr ⟨rfl, _, rfl⟩
  · next id _ =>
      obtain ⟨promoted, promoting, accepted⟩ := bind_eq_ok.mp accepted
      obtain ⟨⟨opened, final⟩, opening, accepted⟩ := bind_eq_ok.mp accepted
      cases accepted
      exact .inl ⟨id, promoted, opened, rfl, promoting, expectSome_eq_ok.mp opening⟩

omit [LawfulElfLoader Ctx] in
theorem prepareOutcome_cases (flags : OpenFlags) (result : Except LinkError (Pending Ctx)) :
    (∃ error, prepareOutcome flags result = .finished (.error error)) ∨
      ∃ pending, prepareOutcome flags result = .prepared flags pending := by
  cases result with
  | error failure => exact .inl ⟨_, rfl⟩
  | ok pending => exact .inr ⟨pending, rfl⟩

/-- A first part of an open that succeeds went through a promotion; one that does not
left the registry alone. -/
def OpenCases (manager next : Manager Ctx) (flags : OpenFlags) (outcome : OpenOutcome Ctx) :
    Prop :=
  (∃ id promoted opened, outcome = .finished (.ok opened) ∧
      manager.promote id flags = .ok promoted ∧
      promoted.openModule id = some (opened, next)) ∨
    (next = manager ∧ ((∃ error, outcome = .finished (.error error)) ∨
      ∃ pending, outcome = .prepared flags pending))

omit [LawfulElfLoader Ctx] in
theorem prepare_cases {manager next : Manager Ctx} {request : String} {flags : OpenFlags}
    {root : LinkRoot Ctx} {caller : Option Nat} {outcome : OpenOutcome Ctx}
    (accepted : manager.prepare request flags root caller = .ok (outcome, next)) :
    OpenCases manager next flags outcome := by
  cases root with
  | file path =>
      rw [prepare] at accepted
      split at accepted
      · rcases openCommitted_cases accepted with promoted | ⟨same, failed⟩
        · exact .inl promoted
        · exact .inr ⟨same, .inl failed⟩
      · cases accepted
        exact .inr ⟨rfl, prepareOutcome_cases _ _⟩
  | binary key bytes =>
      rw [prepare] at accepted
      split at accepted
      · cases accepted
        exact .inr ⟨rfl, .inl ⟨_, rfl⟩⟩
      · cases accepted
        exact .inr ⟨rfl, prepareOutcome_cases _ _⟩
  | mapped key raw =>
      cases accepted
      exact .inr ⟨rfl, prepareOutcome_cases _ _⟩

theorem openWith_cases {manager next : Manager Ctx} {bindNow : Bool} {request : String}
    {flags : OpenFlags} {root : LinkRoot Ctx} {caller : Option Nat} {outcome : OpenOutcome Ctx}
    (accepted : manager.openWith bindNow request flags root caller = .ok (outcome, next)) :
    OpenCases manager next (effectiveFlags bindNow flags) outcome := by
  rw [openWith] at accepted
  simp only at accepted
  split at accepted
  · exact prepare_cases accepted
  · obtain ⟨⟨found, middle⟩, existing, continued⟩ := bind_eq_ok.mp accepted
    clear accepted
    rcases openExisting_spec existing with
      ⟨rfl, rfl, _⟩ | ⟨id, promoted, opened, _, promoting, opening, rfl⟩
    · simp only at continued
      split at continued
      · cases continued
        exact .inr ⟨rfl, .inl ⟨_, rfl⟩⟩
      · exact prepare_cases continued
    · cases continued
      exact .inl ⟨id, promoted, opened, rfl, promoting, opening⟩

theorem publishPending_spec {manager next : Manager Ctx} {pending : Pending Ctx}
    {load : LoadResult} (accepted : manager.publishPending pending = .ok (load, next)) :
    ∃ added : List ModuleRecord,
      next.view = (manager.view.append added).issue load.lease ∧
      added.map (·.id) = load.modules ∧
      (∀ record ∈ added, record.flags = OpenFlags.empty) ∧
      manager.view.Extends next.view ∧ next.handles = manager.handles ∧
      next.adds = manager.adds ∧ next.subs = manager.subs := by
  rw [publishPending] at accepted
  split at accepted
  · cases accepted
  · next relocated _ =>
      split at accepted
      · cases accepted
      · next found ctx publishing =>
          cases accepted
          obtain ⟨added, result, ids, _, fresh, unissued, rooted⟩ :=
            LawfulElfLoader.publish_spec _ _ _ _ publishing
          refine ⟨added, result, ids, fun record member => (fresh record member).2, ?_,
            rfl, rfl, rfl⟩
          change (ElfLoader.view manager.linkCtx).Extends (ElfLoader.view ctx)
          rw [result]
          refine (ContextView.Extends.append _ added).trans (.issue ?_ unissued)
          rcases rooted with new | ⟨_, old⟩
          · rw [← ids] at new
            obtain ⟨record, member, same⟩ := List.mem_map.mp new
            exact ⟨record, List.mem_append_right _ member, same⟩
          · exact (ContextView.Extends.append _ added).committed old

theorem rollbackLoad_spec {manager : Manager Ctx} {load : LoadResult}
    (leased : load.lease ∈ manager.view.outstanding) :
    ∃ unloaded, manager.view.Releases (manager.rollbackLoad load).view load.lease unloaded ∧
      (manager.rollbackLoad load).handles = manager.handles ∧
      (manager.rollbackLoad load).adds = manager.adds := by
  obtain ⟨ctx, rolling⟩ := LawfulElfLoader.rollback_total manager.linkCtx load leased
  obtain ⟨member, unloaded, result, _, free⟩ := LawfulElfLoader.rollback_spec _ _ _ rolling
  have next : manager.rollbackLoad load = { manager with linkCtx := ctx } := by
    rw [rollbackLoad, rolling]
  rw [next]
  exact ⟨unloaded, ⟨member, result, fun id gone => (free id gone).2⟩, rfl, rfl⟩

omit [LawfulElfLoader Ctx] in
/-- The hook changes the global scope and the aliases, whether or not it succeeds. -/
theorem startupState_cases {manager next : Manager Ctx} {root : ModuleId}
    {rtld : Option (LinkMapAddress × Nat)} {result : Except Error StartupState}
    (accepted : manager.startupState root rtld = .ok (result, next)) :
    next = manager ∨ ∃ ctx, promoteGlobalIf true manager.linkCtx root "" = .ok ctx ∧
      registerInitialAliases { manager with linkCtx := ctx } = .ok next := by
  rw [startupState] at accepted
  split at accepted
  · cases accepted
    exact .inl rfl
  · next ctx promoting =>
      obtain ⟨aliased, adding, accepted⟩ := bind_eq_ok.mp accepted
      refine .inr ⟨ctx, expectOk_eq_ok.mpr promoting, ?_⟩
      split at accepted
      · cases accepted
        exact adding
      · split at accepted
        · cases accepted
          exact adding
        · obtain ⟨⟨maps, libc⟩, _, accepted⟩ := bind_eq_ok.mp accepted
          cases accepted
          exact adding

theorem startupState_grows {manager next : Manager Ctx} {root : ModuleId}
    {rtld : Option (LinkMapAddress × Nat)} {result : Except Error StartupState}
    (accepted : manager.startupState root rtld = .ok (result, next)) : manager.Grows next := by
  rcases startupState_cases accepted with rfl | ⟨ctx, promoting, adding⟩
  · exact .refl _
  · obtain ⟨grown, outstanding, _, _⟩ := promoteGlobalIf_spec promoting
    have first : manager.Grows { manager with linkCtx := ctx } :=
      ⟨rfl, rfl, grown, outstanding⟩
    exact first.trans (registerInitialAliases_grows adding)

end Manager

end DynLinker.Registry
