import CloudOps.Analysis.ExecutionRecord

/-!
# Snapshots before and after an execution

The loop snapshots a resource before every action on it and writes the entry anew each time,
while it works on the copy. So the entry of `beforeState` is the resource before the last
action on it, `snapshots_of_run`, and it is the resource before the execution exactly if the
actions before the last one change neither tags nor config: `snapshots_true_iff`.
-/

set_option autoImplicit false

namespace CloudOps.Analysis

open CloudOps.Computation CloudOps.Model CloudOps.Model.RemediationService CloudOps.Interface

/-! ## The last action on a resource -/

section Loop

variable {config : ApiConfig} {dryRun : Bool} {loop loop' : LoopState}
  {action last : RemediationAction} {actions others : List RemediationAction} {writes : List DbOp}
  {id : String} {r : CloudResource}

/-- Where the last action on a resource stands in the plan. -/
theorem split_at_last (h : actionsOn id actions = others ++ [last]) : ∃ pre post,
    actions = pre ++ last :: post ∧ last.resourceId = id ∧ actionsOn id pre = others ∧
      actionsOn id post = [] := by
  obtain ⟨pre, rest, rfl, hpre, hrest⟩ := List.filter_eq_append_iff.mp h
  obtain ⟨skipped, post, rfl, hskipped, hlast, hpost⟩ := List.filter_eq_cons_iff.mp hrest
  refine ⟨pre ++ skipped, post, by simp, by simpa using hlast, ?_, hpost⟩
  have hnone : actionsOn id skipped = [] := List.filter_eq_nil_iff.mpr hskipped
  show (pre ++ skipped).filter _ = others
  rw [List.filter_append, hpre, show skipped.filter _ = [] from hnone, List.append_nil]

/-- A run goes through its first actions, then through the others. -/
theorem loopRun_append_ok {pre post : List RemediationAction}
    (h : loopRun config dryRun loop (pre ++ post) = .ok loop') :
    ∃ loop₁, loopRun config dryRun loop pre = .ok loop₁ ∧
      loopRun config dryRun loop₁ post = .ok loop' := by
  induction pre generalizing loop with
  | nil => exact ⟨loop, rfl, h⟩
  | cons action pre ih =>
      obtain ⟨loop₁, writes, hstep, hrest, -⟩ := loopRun_cons h
      obtain ⟨loop₂, hpre, hpost⟩ := ih hrest
      refine ⟨loop₂, ?_, hpost⟩
      rw [loopRun, hstep]
      exact hpre

/-- The last action is applied to what the others have made. -/
theorem actOn_concat : actOn r (others ++ [last]) =
    updated (actOn r others) (effect (actOn r others).state last) := by
  unfold actOn
  rw [List.foldl_append]
  rfl

/-- The rounds for other resources leave the entries of a resource alone. -/
theorem loopRun_others (h : loopRun config dryRun loop actions = .ok loop')
    (hnone : actionsOn id actions = []) :
    loop'.beforeState.get? id = loop.beforeState.get? id ∧
      loop'.afterState.get? id = loop.afterState.get? id := by
  induction actions generalizing loop with
  | nil =>
      cases h
      exact ⟨rfl, rfl⟩
  | cons action actions ih =>
      obtain ⟨loop₁, writes, hstep, hrest, -⟩ := loopRun_cons h
      have hne : id ≠ action.resourceId := by
        rintro rfl
        rw [actionsOn_cons_self] at hnone
        cases hnone
      rw [actionsOn_cons_ne (Ne.symm hne)] at hnone
      obtain ⟨hbefore, hafter⟩ := ih hrest hnone
      rw [hbefore, hafter]
      rcases loopStep_records hstep with ⟨-, rfl⟩ | ⟨_, _, _, _, -, -, hbefore₁, hafter₁, -⟩
      · exact ⟨rfl, rfl⟩
      · rw [hbefore₁, hafter₁, Dict.get?_set_ne hne, Dict.get?_set_ne hne]
        exact ⟨rfl, rfl⟩

/-- **What a real run records of a resource**: what it was before the last action on it, and what
that action has made of it.
SRCLINE: apps/api/src/services/remediation-service.ts:187-219 -/
theorem snapshots_of_run (hmut : mutates config dryRun = true)
    (h : loopRun config dryRun loop actions = .ok loop') (hkeyed : Keyed loop.copies)
    (hr : loop.copies.get? id = some r) (hlast : actionsOn id actions = others ++ [last]) :
    loop'.beforeState.get? id = some ⟨(actOn r others).tags, (actOn r others).config⟩ ∧
      loop'.afterState.get? id = some (.stored ⟨(actOn r (others ++ [last])).tags,
        (actOn r (others ++ [last])).config⟩) := by
  obtain ⟨pre, post, rfl, rfl, rfl, hpost⟩ := split_at_last hlast
  obtain ⟨loop₁, hpre, hrest⟩ := loopRun_append_ok h
  obtain ⟨loop₂, writes, hstep, hlater, -⟩ := loopRun_cons hrest
  have hcopy := (loopRun_mutates hmut hpre hkeyed hr).1
  obtain ⟨hbefore, hafter⟩ := loopRun_others hlater hpost
  rw [hbefore, hafter, actOn_concat]
  constructor
  · rcases loopStep_records hstep with ⟨hnone, -⟩ | ⟨r', _, _, _, hr', -, hset, -⟩
    · rw [hcopy] at hnone
      cases hnone
    · obtain rfl := Option.some.inj (hcopy.symm.trans hr')
      rw [hset, Dict.get?_set_self]
  · rcases loopStep_cases hstep with ⟨hnone, -⟩ | ⟨r', hr', -, ⟨-, -, hset, -⟩ | ⟨hnot, -⟩⟩
    · rw [hcopy] at hnone
      cases hnone
    · obtain rfl := Option.some.inj (hcopy.symm.trans hr')
      rw [hset, Dict.get?_set_self]
      rfl
    · rw [hmut] at hnot
      cases hnot

end Loop

/-! ## True snapshots -/

/-- The record shows every resource of the plan as it was before the execution and as it is after
it. -/
def TrueSnapshots (db : Database) (plan : RemediationPlan) (e : RemediationExecution)
    (after : Database) : Prop :=
  ∀ r ∈ db.resources, r.workspaceId = plan.workspaceId →
    r.id ∈ plan.actions.map (·.resourceId) →
      e.beforeState.get? r.id = some ⟨r.tags, r.config⟩ ∧
        ∃ r' ∈ after.resources, r'.id = r.id ∧
          e.afterState.get? r.id = some (.stored ⟨r'.tags, r'.config⟩)

/-- The actions on a resource before the last one. -/
def earlierActions (id : String) (actions : List RemediationAction) : List RemediationAction :=
  (actionsOn id actions).dropLast

/-- What actions change of tags and config is in place if there are any. -/
theorem actOn_keeps_iff {r : CloudResource} {actions : List RemediationAction}
    (hallowed : ∀ a ∈ actions, a.actionType ∈ ALLOWLISTED_ACTIONS) :
    ((actOn r actions).tags = r.tags ∧ (actOn r actions).config = r.config) ↔
      actions = [] ∨ InPlace r.state (actions.filterMap changeOf) := by
  by_cases hnil : actions = []
  · subst hnil
    exact iff_of_true ⟨rfl, rfl⟩ (Or.inl rfl)
  · have hchanges : actions.filterMap changeOf ≠ [] := filterMap_changeOf_ne_nil hnil hallowed
    have hstate : (actOn r actions).state =
        changes.applyAll r.state (actions.filterMap changeOf) := by
      rw [actOn_state, foldl_effect_eq_applyAll hallowed]
    rw [or_iff_right hnil, ← applyAll_keeps_iff hchanges, ← hstate]
    rfl

section Runs

variable {hashToken : String → String} {config : ApiConfig} {db : Database}
  {requests : ℕ → Incoming} {s : ServicePool} {q : ℕ} {plan : RemediationPlan}
  {e : RemediationExecution}

/-- **When snapshots are true**: exactly when, for every resource of the plan, the actions before
the last one change neither its tags nor its config.
SRCLINE: apps/api/src/services/remediation-service.ts:187-219 -/
theorem snapshots_true_iff (h : ExecutedAlone hashToken config db requests q plan e s)
    (hmock : config.CLOUD_PROVIDER = .mock) (hdryRun : plan.dryRun = false) :
    TrueSnapshots db plan e s.store ↔ ∀ r ∈ db.resources, r.workspaceId = plan.workspaceId →
      r.id ∈ plan.actions.map (·.resourceId) →
        earlierActions r.id plan.actions = [] ∨
          InPlace r.state ((earlierActions r.id plan.actions).filterMap changeOf) := by
  obtain ⟨resources, loop, hloop⟩ := h.loop
  have hmut : mutates config plan.dryRun = true := by simp [mutates, hmock, hdryRun]
  refine forall₄_congr fun r hr hws hid => ?_
  have hcopy := hloop.copy hr hws hid
  have hstored := h.storedAfter hmock hdryRun hr hws hid
  obtain ⟨hmem, hstoredId⟩ := Collection.get?_eq_some_iff.mp hstored
  obtain ⟨others, last, hactions⟩ := actionsOn_eq_concat hid
  obtain ⟨hbefore, hafter⟩ := snapshots_of_run hmut hloop.run (keyed_byId resources) hcopy hactions
  have hallowed : ∀ a ∈ others, a.actionType ∈ ALLOWLISTED_ACTIONS := fun a ha =>
    loopRun_allowed hloop.run (Option.isSome_of_eq_some hcopy) a
      (hactions ▸ List.mem_append_left _ ha)
  have hearlier : earlierActions r.id plan.actions = others := by
    rw [earlierActions, hactions, List.dropLast_concat]
  rw [hloop.beforeState, hloop.afterState, hbefore, hafter, hearlier, ← actOn_keeps_iff hallowed]
  rw [hactions] at hmem hstoredId
  constructor
  · rintro ⟨hsnapshot, -⟩
    exact Snapshot.mk.inj (Option.some.inj hsnapshot)
  · rintro ⟨htags, hconfig⟩
    exact ⟨by rw [htags, hconfig], _, hmem, hstoredId, rfl⟩

end Runs

/-! ## Two actions on one resource -/

/-- Snapshots are true, whatever the plan and the resources are. -/
def SnapshotsTrue (hashToken : String → String) (config : ApiConfig) : Prop :=
  ∀ db requests q plan e s, ExecutedAlone hashToken config db requests q plan e s →
    plan.dryRun = false → TrueSnapshots db plan e s.store

/-- The snapshot of a bucket that is closed and then backed up shows it closed.
SRCLINE: apps/api/src/services/remediation-service.ts:187-190 -/
theorem snapshots_not_true : ¬ SnapshotsTrue (fun token => token) ⟨.mock, false, 900000⟩ := by
  intro h
  let run := (executedRun ["f-1", "f-2"] false 2).get (by decide +kernel)
  have hrun : ExecutedAlone _ _ _ (planFor ["f-1", "f-2"] false) 2 run.1 run.2.1 run.2.2 :=
    executedAlone_of_run (Option.some_get _).symm (by decide +kernel)
  have hbefore := (h _ _ _ _ _ _ hrun (by decide +kernel) bucket (by decide +kernel)
    (by decide +kernel) (by decide +kernel)).1
  have hclosed : run.2.1.beforeState.get? bucket.id ≠ some ⟨bucket.tags, bucket.config⟩ := by
    decide +kernel
  exact hclosed hbefore

/-- The snapshots of a plan with one action are true. -/
theorem snapshots_true_single : ∃ plan e s, ExecutedAlone (fun token => token)
    ⟨.mock, false, 900000⟩ twoFindings (planFor ["f-1"] false) 2 plan e s ∧
      TrueSnapshots twoFindings plan e s.store := by
  let run := (executedRun ["f-1"] false 1).get (by decide +kernel)
  have hrun : ExecutedAlone _ _ _ (planFor ["f-1"] false) 2 run.1 run.2.1 run.2.2 :=
    executedAlone_of_run (Option.some_get _).symm (by decide +kernel)
  refine ⟨_, _, _, hrun, (snapshots_true_iff hrun rfl (by decide +kernel)).mpr
    fun r hr _ _ => Or.inl ?_⟩
  obtain rfl : r = bucket := List.mem_singleton.mp hr
  decide +kernel

end CloudOps.Analysis
