import CloudOps.Analysis.ExecutionRecord

/-!
# What a reported success has changed

The results of an execution do not depend on whether anything is saved, and a real run
against AWS with mutations enabled saves nothing (`loopWrites_eq_nil`). So a reported success
has taken effect exactly if the provider is the mock, or the actions find their changes in
place: `success_tookEffect_iff`.
-/

set_option autoImplicit false

namespace CloudOps.Analysis

open CloudOps.Computation CloudOps.Model CloudOps.Model.RemediationService CloudOps.Interface

/-- A loop that does not mutate writes nothing.
SRCLINE: apps/api/src/services/remediation-service.ts:204-216 -/
theorem loopWrites_eq_nil {config : ApiConfig} {dryRun : Bool} {loop : LoopState}
    {actions : List RemediationAction} (hmut : mutates config dryRun = false) :
    loopWrites config dryRun loop actions = [] := by
  induction actions generalizing loop with
  | nil => rfl
  | cons action actions ih =>
      unfold loopWrites
      split
      · rfl
      · next loop' writes hstep =>
        rcases loopStep_writes hstep with rfl | ⟨_, _, _, _, _, hmut', _⟩
        · exact ih
        · rw [hmut] at hmut'
          cases hmut'

/-- A permitted real run mutates exactly if the provider is the mock.
SRCLINE: apps/api/src/services/remediation-service.ts:163-165, 204-216 -/
theorem mutates_iff_mock {config : ApiConfig}
    (hpermitted : rejectMutationsIfDisabled config.ENABLE_AWS_MUTATIONS config.CLOUD_PROVIDER =
      .ok ()) : mutates config false = true ↔ config.CLOUD_PROVIDER = .mock := by
  constructor
  · intro hmut
    have hnot := (not_aws_of_mutates hmut fun _ => hpermitted).2
    cases hprovider : config.CLOUD_PROVIDER with
    | aws => exact absurd hprovider hnot
    | mock => rfl
  · intro hmock
    simp [mutates, hmock]

/-- Every reported success has taken effect: the stored resource is what the actions on it make
of the resource before the execution. -/
def TookEffect (db : Database) (plan : RemediationPlan) (e : RemediationExecution)
    (after : Database) : Prop :=
  ∀ result ∈ e.results, result.ok = true → ∃ r ∈ db.resources, r.id = result.resourceId ∧
    ∃ r' ∈ after.resources, r'.id = r.id ∧
      applyActions r.state (actionsOn r.id plan.actions) = .ok r'.state

/-- The actions find their changes in place. -/
def FindsInPlace (r : ResourceState) (actions : List RemediationAction) : Prop :=
  InPlace r (actions.filterMap changeOf) ∧ (.restart ∈ actions.filterMap changeOf → Recovered r)

section Runs

variable {hashToken : String → String} {config : ApiConfig} {db : Database}
  {requests : ℕ → Incoming} {s : ServicePool} {q : ℕ} {plan : RemediationPlan}
  {e : RemediationExecution} {after : Database} {resources : List CloudResource}
  {loop : LoopState}

/-- The resources with a reported success are those of the plan in its workspace. -/
theorem LoopRan.reported (h : LoopRan config db plan e after resources loop) (id : String) :
    (∃ result ∈ e.results, result.ok = true ∧ result.resourceId = id) ↔
      id ∈ plan.actions.map (·.resourceId) ∧
        ∃ r ∈ db.resources, r.id = id ∧ r.workspaceId = plan.workspaceId := by
  have haccounts := (LoopAccounts.start resources).run h.run
  rw [List.nil_append] at haccounts
  rw [h.results, ← reported_iff haccounts.results id]
  refine and_congr_right fun hmem => ?_
  rw [h.loaded id hmem]
  constructor
  · intro hsome
    obtain ⟨r, hr⟩ := Option.isSome_iff_exists.mp hsome
    obtain ⟨hstored, hws⟩ := Option.filter_eq_some_iff.mp hr
    obtain ⟨hmem, hid⟩ := Collection.get?_eq_some_iff.mp hstored
    exact ⟨r, hmem, hid, by simpa using hws⟩
  · rintro ⟨r, hr, rfl, hws⟩
    have hget : db.resources.get? r.id = some r := Collection.get?_id hr
    rw [hget, Option.filter_some, if_pos (by simpa using hws)]
    rfl

/-- What success means, resource by resource. -/
theorem LoopRan.tookEffect_iff (h : LoopRan config db plan e after resources loop) :
    TookEffect db plan e after ↔ ∀ r ∈ db.resources, r.workspaceId = plan.workspaceId →
      r.id ∈ plan.actions.map (·.resourceId) → ∃ r' ∈ after.resources, r'.id = r.id ∧
        applyActions r.state (actionsOn r.id plan.actions) = .ok r'.state := by
  constructor
  · intro htook r hr hws hid
    obtain ⟨result, hmem, hok, hresult⟩ := (h.reported r.id).mpr ⟨hid, r, hr, rfl, hws⟩
    obtain ⟨r₀, hr₀, hid₀, hafter⟩ := htook result hmem hok
    obtain rfl : r₀ = r := Collection.eq_of_id hr₀ hr (hid₀.trans hresult)
    exact hafter
  · intro hall result hmem hok
    obtain ⟨hid, r, hr, hrid, hws⟩ := (h.reported result.resourceId).mp ⟨result, hmem, hok, rfl⟩
    exact ⟨r, hr, hrid, hall r hr hws (hrid ▸ hid)⟩

/-- **When reported success means that the actions took effect**: exactly when the provider is
the mock, or the actions on every resource of the plan find their changes in place.
SRCLINE: apps/api/src/services/remediation-service.ts:163-241 -/
theorem success_tookEffect_iff (h : ExecutedAlone hashToken config db requests q plan e s)
    (hdryRun : plan.dryRun = false) : TookEffect db plan e s.store ↔
      config.CLOUD_PROVIDER = .mock ∨ ∀ r ∈ db.resources, r.workspaceId = plan.workspaceId →
        r.id ∈ plan.actions.map (·.resourceId) →
          FindsInPlace r.state (actionsOn r.id plan.actions) := by
  obtain ⟨resources, loop, hloop⟩ := h.loop
  rw [hloop.tookEffect_iff]
  have hallowed : ∀ r ∈ db.resources, r.workspaceId = plan.workspaceId →
      r.id ∈ plan.actions.map (·.resourceId) →
        ∀ a ∈ actionsOn r.id plan.actions, a.actionType ∈ ALLOWLISTED_ACTIONS :=
    fun r hr hws hid => loopRun_allowed hloop.run (Option.isSome_of_eq_some (hloop.copy hr hws hid))
  by_cases hmock : config.CLOUD_PROVIDER = .mock
  · refine iff_of_true (fun r hr hws hid => ?_) (Or.inl hmock)
    obtain ⟨hmem, hstoredId⟩ :=
      Collection.get?_eq_some_iff.mp (h.storedAfter hmock hdryRun hr hws hid)
    refine ⟨_, hmem, hstoredId, ?_⟩
    rw [applyActions_eq_foldl (hallowed r hr hws hid), actOn_state]
  · rw [or_iff_right hmock]
    refine forall₄_congr fun r hr hws hid => ?_
    -- nothing has been saved
    have hmut : mutates config plan.dryRun = false := by
      rw [hdryRun, ← Bool.not_eq_true, mutates_iff_mock (hloop.permitted hdryRun)]
      exact hmock
    have hget : db.resources.get? r.id = some r := Collection.get?_id hr
    have hstored : s.store.resources.get? r.id = some r := by
      rw [hloop.stored r.id hid, loopWrites_eq_nil hmut, hget]
      rfl
    obtain ⟨hmem, -⟩ := Collection.get?_eq_some_iff.mp hstored
    obtain ⟨others, last, hactions⟩ := actionsOn_eq_concat hid
    have hchanges : (actionsOn r.id plan.actions).filterMap changeOf ≠ [] :=
      filterMap_changeOf_ne_nil (by simp [hactions]) (hallowed r hr hws hid)
    rw [FindsInPlace, ← applyAll_eq_self_iff hchanges,
      applyActions_eq_foldl (hallowed r hr hws hid),
      foldl_effect_eq_applyAll (hallowed r hr hws hid)]
    constructor
    · rintro ⟨r', hr', hid', hstate⟩
      obtain rfl : r' = r := Collection.eq_of_id hr' hmem hid'
      exact Except.ok.inj hstate
    · intro hstate
      exact ⟨r, hmem, rfl, by rw [hstate]⟩

end Runs

/-! ## AWS with mutations enabled -/

/-- Reported successes have taken effect, whatever the plan and the resources are. -/
def SuccessTakesEffect (hashToken : String → String) (config : ApiConfig) : Prop :=
  ∀ db requests q plan e s, ExecutedAlone hashToken config db requests q plan e s →
    plan.dryRun = false → TookEffect db plan e s.store

/-- The plan for the bucket is executed against AWS; nothing is saved. -/
def bucketOnAws : Option ServicePool :=
  service.run (serve (fun token => token) ⟨.aws, true, 900000⟩ bucketStore bucketRequests)
    (List.replicate 5 (.run 0) ++ List.replicate 4 (.run 1) ++ List.replicate 9 (.run 2))

/-- With mutations enabled the execution against AWS reports a success and leaves the bucket
public.
SRCLINE: apps/api/src/services/remediation-service.ts:204-219 -/
theorem success_without_effect :
    ¬ SuccessTakesEffect (fun token => token) ⟨.aws, true, 900000⟩ := by
  intro h
  let s := bucketOnAws.get (by decide +kernel)
  let e := (returnedExecution s 2).get (by decide +kernel)
  let plan := (s.store.plans.get? e.planId).get (by decide +kernel)
  have halone : ExecutedAlone (fun token => token) ⟨.aws, true, 900000⟩ bucketStore
      bucketRequests 2 plan e s :=
    executedAlone_of_returned (Machine.reaches_of_run _ (Option.some_get _).symm) rfl
      (Option.some_get _).symm (Option.some_get _).symm (by decide +kernel)
  have hok : ∃ result ∈ e.results, result.ok = true := by decide +kernel
  obtain ⟨result, hmem, hresult⟩ := hok
  obtain ⟨r, hr, -, r', hr', -, heffect⟩ :=
    h _ _ _ _ _ _ halone (by decide +kernel) result hmem hresult
  obtain rfl : r = bucket := List.mem_singleton.mp hr
  have hpublic : ∀ r' ∈ s.store.resources.docs,
      applyActions bucket.state (actionsOn bucket.id plan.actions) ≠ .ok r'.state := by
    decide +kernel
  exact hpublic r' hr' heffect

/-- Under the mock provider the success has taken effect. -/
theorem success_tookEffect_mock : ∃ plan e s, ExecutedAlone (fun token => token)
    ⟨.mock, false, 900000⟩ twoFindings (planFor ["f-1", "f-2"] false) 2 plan e s ∧
      TookEffect twoFindings plan e s.store := by
  let run := (executedRun ["f-1", "f-2"] false 2).get (by decide +kernel)
  have hrun : ExecutedAlone _ _ _ (planFor ["f-1", "f-2"] false) 2 run.1 run.2.1 run.2.2 :=
    executedAlone_of_run (Option.some_get _).symm (by decide +kernel)
  exact ⟨_, _, _, hrun, (success_tookEffect_iff hrun (by decide +kernel)).mpr (Or.inl rfl)⟩

end CloudOps.Analysis
