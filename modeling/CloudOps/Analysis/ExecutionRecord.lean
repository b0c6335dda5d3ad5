import CloudOps.Analysis.DryRunFidelity
import CloudOps.Analysis.ExecuteFootprint

/-!
# What an execution record accounts for

The action loop keeps four variables in step: for every action it is through with there is
one result, and for every such action whose resource was loaded there is an entry before and
an entry after. `LoopAccounts` is this invariant, kept by every round whatever the round
writes. The status is read off the results, and the plan is settled by it.
-/

set_option autoImplicit false

namespace CloudOps.Analysis

open CloudOps.Computation CloudOps.Model CloudOps.Model.RemediationService CloudOps.Interface

/-! ## The loop keeps its variables in step -/

/-- The result reports the action: its type and resource, and success if the resource is
there. -/
def Reports (loaded : String → Prop) (action : RemediationAction) (result : ActionResult) : Prop :=
  result.actionType = action.actionType ∧ result.resourceId = action.resourceId ∧
    (result.ok = true ↔ loaded action.resourceId)

/-- The variables of the loop account for the actions it is through with. -/
structure LoopAccounts (loaded : String → Prop) (done : List RemediationAction)
    (loop : LoopState) : Prop where
  copies : ∀ id, (loop.copies.get? id).isSome ↔ loaded id
  results : List.Forall₂ (Reports loaded) done loop.results
  beforeState : ∀ id, (loop.beforeState.get? id).isSome ↔
    id ∈ done.map (·.resourceId) ∧ loaded id
  afterState : ∀ id, (loop.afterState.get? id).isSome ↔ id ∈ done.map (·.resourceId) ∧ loaded id

section Loop

variable {config : ApiConfig} {dryRun : Bool} {loop loop' : LoopState}
  {action : RemediationAction} {actions done : List RemediationAction} {writes : List DbOp}
  {loaded : String → Prop} {results : List ActionResult}

/-- **What a round records**: a failure, or a snapshot, a state after it and a success.
SRCLINE: apps/api/src/services/remediation-service.ts:176-220 -/
theorem loopStep_records (h : loopStep config dryRun loop action = .ok (loop', writes)) :
    (loop.copies.get? action.resourceId = none ∧
      loop' = { loop with results := loop.results ++ [notFoundResult action] }) ∨
    ∃ r r' after message, loop.copies.get? action.resourceId = some r ∧
      (loop'.copies = loop.copies ∨ loop'.copies = loop.copies.set action.resourceId r') ∧
      loop'.beforeState = loop.beforeState.set action.resourceId ⟨r.tags, r.config⟩ ∧
      loop'.afterState = loop.afterState.set action.resourceId after ∧
      loop'.results = loop.results ++ [simulatedResult action message] := by
  unfold loopStep at h
  cases hr : loop.copies.get? action.resourceId with
  | none =>
      simp only [hr, Except.ok.injEq, Prod.mk.injEq] at h
      exact Or.inl ⟨rfl, h.1.symm⟩
  | some r =>
      by_cases hallowed : action.actionType ∈ ALLOWLISTED_ACTIONS
      · obtain ⟨message, happly⟩ := applySimulatedAction_ok (r := r.state) hallowed
        simp only [hr, happly] at h
        split at h
        · simp only [Except.ok.injEq, Prod.mk.injEq] at h
          obtain ⟨rfl, -⟩ := h
          exact Or.inr ⟨r, _, _, message, rfl, Or.inr rfl, rfl, rfl, rfl⟩
        · simp only [Except.ok.injEq, Prod.mk.injEq] at h
          obtain ⟨rfl, -⟩ := h
          exact Or.inr ⟨r, r, _, message, rfl, Or.inl rfl, rfl, rfl, rfl⟩
      · simp [hr, applySimulatedAction_error hallowed] at h

/-- **A round accounts for one more action.** -/
theorem LoopAccounts.step (h : LoopAccounts loaded done loop)
    (hstep : loopStep config dryRun loop action = .ok (loop', writes)) :
    LoopAccounts loaded (done ++ [action]) loop' := by
  have hmem : ∀ id, id ∈ (done ++ [action]).map (·.resourceId) ↔
      id ∈ done.map (·.resourceId) ∨ id = action.resourceId := by simp
  rcases loopStep_records hstep with ⟨hnone, rfl⟩ |
    ⟨r, r', after, message, hr, hcopies, hbefore, hafter, hresults⟩
  · have hmissing : ¬ loaded action.resourceId := by
      rw [← h.copies, hnone]
      simp
    have hkeys : ∀ id, id ∈ (done ++ [action]).map (·.resourceId) ∧ loaded id ↔
        id ∈ done.map (·.resourceId) ∧ loaded id := by
      intro id
      rw [hmem]
      constructor
      · rintro ⟨hold | rfl, hid⟩
        · exact ⟨hold, hid⟩
        · exact absurd hid hmissing
      · rintro ⟨hold, hid⟩
        exact ⟨Or.inl hold, hid⟩
    refine ⟨h.copies, ?_, fun id => ?_, fun id => ?_⟩
    · exact List.rel_append h.results (.cons ⟨rfl, rfl, by simp [notFoundResult, hmissing]⟩ .nil)
    · rw [hkeys]
      exact h.beforeState id
    · rw [hkeys]
      exact h.afterState id
  · have hfound : loaded action.resourceId := by
      rw [← h.copies, hr]
      rfl
    have hkeys : ∀ id, id ∈ (done ++ [action]).map (·.resourceId) ∧ loaded id ↔
        (id ∈ done.map (·.resourceId) ∧ loaded id) ∨ id = action.resourceId := by
      intro id
      rw [hmem]
      constructor
      · rintro ⟨hold | rfl, hid⟩
        · exact Or.inl ⟨hold, hid⟩
        · exact Or.inr rfl
      · rintro (⟨hold, hid⟩ | rfl)
        · exact ⟨Or.inl hold, hid⟩
        · exact ⟨Or.inr rfl, hfound⟩
    refine ⟨fun id => ?_, ?_, fun id => ?_, fun id => ?_⟩
    · rcases hcopies with hsame | hset
      · rw [hsame]
        exact h.copies id
      · rw [hset, Dict.isSome_get?_set, h.copies]
        exact or_iff_left_of_imp fun hid => hid ▸ hfound
    · rw [hresults]
      exact List.rel_append h.results (.cons ⟨rfl, rfl, by simp [simulatedResult, hfound]⟩ .nil)
    · rw [hbefore, Dict.isSome_get?_set, h.beforeState, hkeys]
    · rw [hafter, Dict.isSome_get?_set, h.afterState, hkeys]

/-- **The loop accounts for all its actions.** -/
theorem LoopAccounts.run (h : LoopAccounts loaded done loop)
    (hrun : loopRun config dryRun loop actions = .ok loop') :
    LoopAccounts loaded (done ++ actions) loop' := by
  induction actions generalizing loop done with
  | nil =>
      cases hrun
      rw [List.append_nil]
      exact h
  | cons action actions ih =>
      obtain ⟨loop₁, writes, hstep, hrest, -⟩ := loopRun_cons hrun
      have hlater := ih (h.step hstep) hrest
      rw [List.append_assoc] at hlater
      exact hlater

/-- The variables before the first round. -/
theorem LoopAccounts.start (resources : List CloudResource) :
    LoopAccounts (fun id => ((byId resources).get? id).isSome) [] (loopStart resources) := by
  refine ⟨fun id => Iff.rfl, .nil, fun id => ?_, fun id => ?_⟩
  · simp [loopStart]
  · simp [loopStart]

/-! ## The status -/

/-- No result has failed exactly when all are ok. -/
theorem failedCount_eq_zero_iff : failedCount results = 0 ↔ ∀ r ∈ results, r.ok = true := by
  unfold failedCount
  rw [List.length_eq_zero_iff, List.filter_eq_nil_iff]
  simp

/-- All results have failed exactly when none is ok. -/
theorem failedCount_eq_length_iff :
    failedCount results = results.length ↔ ∀ r ∈ results, r.ok = false := by
  unfold failedCount
  rw [List.length_filter_eq_length_iff]
  simp

/-- A list without results succeeds. -/
theorem executionStatus_eq_succeeded_iff :
    executionStatus results = .succeeded ↔ ∀ r ∈ results, r.ok = true := by
  rw [← failedCount_eq_zero_iff]
  unfold executionStatus
  split
  · next h => simp [h]
  · next h => split <;> simp [h]

/-- An execution is failed when it has results and none is ok. -/
theorem executionStatus_eq_failed_iff :
    executionStatus results = .failed ↔ results ≠ [] ∧ ∀ r ∈ results, r.ok = false := by
  rw [← failedCount_eq_length_iff]
  unfold executionStatus
  split
  · next h =>
    refine iff_of_false (by simp) fun hfailed => hfailed.1 ?_
    rw [h] at hfailed
    exact List.length_eq_zero_iff.mp hfailed.2.symm
  · next h =>
    have hne : results ≠ [] := by
      rintro rfl
      exact h rfl
    split
    · next hall => simp [hne, hall]
    · next hall => simp [hall]

/-- An execution is a partial failure when some results are ok and some are not. -/
theorem executionStatus_eq_partialFailure_iff : executionStatus results = .partialFailure ↔
    (∃ r ∈ results, r.ok = true) ∧ ∃ r ∈ results, r.ok = false := by
  have hneither : executionStatus results = .partialFailure ↔
      executionStatus results ≠ .succeeded ∧ executionStatus results ≠ .failed := by
    unfold executionStatus
    split
    · simp
    · split <;> simp
  rw [hneither, ne_eq, ne_eq, executionStatus_eq_succeeded_iff, executionStatus_eq_failed_iff]
  constructor
  · rintro ⟨hsome, hall⟩
    have hbad : ∃ r ∈ results, r.ok = false := by simpa using hsome
    obtain ⟨r, hr, -⟩ := hbad
    have hgood : ∃ r ∈ results, r.ok = true := by
      simpa using not_and.mp hall (List.ne_nil_of_mem hr)
    exact ⟨hgood, by simpa using hsome⟩
  · rintro ⟨⟨r, hr, hok⟩, hbad⟩
    refine ⟨by simpa using hbad, fun hfailed => ?_⟩
    have hnot := hfailed.2 r hr
    rw [hok] at hnot
    cases hnot

/-- The resources with an entry are those of the successful results. -/
theorem reported_iff (h : List.Forall₂ (Reports loaded) actions results) (id : String) :
    id ∈ actions.map (·.resourceId) ∧ loaded id ↔
      ∃ result ∈ results, result.ok = true ∧ result.resourceId = id := by
  induction h with
  | nil => simp
  | @cons action result actions results hreports _ ih =>
      obtain ⟨-, hid, hok⟩ := hreports
      rw [List.map_cons, List.mem_cons, List.exists_mem_cons_iff, ← ih, hok, hid]
      constructor
      · rintro ⟨rfl | hmem, hloaded⟩
        · exact Or.inl ⟨hloaded, rfl⟩
        · exact Or.inr ⟨hmem, hloaded⟩
      · rintro (⟨hloaded, rfl⟩ | ⟨hmem, hloaded⟩)
        · exact ⟨Or.inl rfl, hloaded⟩
        · exact ⟨Or.inr hmem, hloaded⟩

end Loop

/-! ## The record -/

/-- The record accounts for every action of the plan, the resources having been looked up in
`loadedAt`. -/
structure AccountsForActions (plan : RemediationPlan) (loadedAt : Database)
    (e : RemediationExecution) : Prop where
  results : List.Forall₂ (Reports fun id => ∃ r ∈ loadedAt.resources, r.id = id ∧
    r.workspaceId = plan.workspaceId) plan.actions e.results
  beforeState : ∀ id, (e.beforeState.get? id).isSome ↔
    ∃ result ∈ e.results, result.ok = true ∧ result.resourceId = id
  afterState : ∀ id, (e.afterState.get? id).isSome ↔
    ∃ result ∈ e.results, result.ok = true ∧ result.resourceId = id
  succeeded : e.status = .succeeded ↔ ∀ result ∈ e.results, result.ok = true
  failed : e.status = .failed ↔ e.results ≠ [] ∧ ∀ result ∈ e.results, result.ok = false
  partialFailure : e.status = .partialFailure ↔
    (∃ result ∈ e.results, result.ok = true) ∧ ∃ result ∈ e.results, result.ok = false

/-- What was found of a plan's resources, looked up by identity. -/
theorem loaded_iff {db : Database} {workspaceId id : String} {ids : List String} (h : id ∈ ids) :
    ((byId (db.findResources workspaceId ids)).get? id).isSome ↔
      ∃ r ∈ db.resources, r.id = id ∧ r.workspaceId = workspaceId := by
  constructor
  · intro hsome
    obtain ⟨r, hr⟩ := Option.isSome_iff_exists.mp hsome
    obtain ⟨hmem, hid⟩ := mem_of_get?_byId hr
    obtain ⟨hmem, hws, -⟩ := mem_findResources.mp hmem
    exact ⟨r, hmem, hid, hws⟩
  · rintro ⟨r, hmem, rfl, hws⟩
    exact get?_byId_isSome (mem_findResources.mpr ⟨hmem, hws, h⟩)

/-- **The record of a loop that went through** accounts for every action.
SRCLINE: apps/api/src/services/remediation-service.ts:167-239 -/
theorem execution_accountsForActions {c : ExecuteCall} {plan : RemediationPlan}
    {matched : ApprovalToken} {loadedAt : Database} {loop : LoopState}
    (hrun : loopRun c.config plan.dryRun (loopStart (loadedAt.findResources plan.workspaceId
      (plan.actions.map (·.resourceId)).eraseDups)) plan.actions = .ok loop) :
    AccountsForActions plan loadedAt (c.execution plan matched loop) := by
  have haccounts := (LoopAccounts.start _).run hrun
  rw [List.nil_append] at haccounts
  refine ⟨?_, fun id => ?_, fun id => ?_, executionStatus_eq_succeeded_iff,
    executionStatus_eq_failed_iff, executionStatus_eq_partialFailure_iff⟩
  · have hnamed : ∀ action ∈ plan.actions, action.resourceId ∈
        (plan.actions.map (·.resourceId)).eraseDups := fun action hmem => by
      rw [List.mem_eraseDups]
      exact List.mem_map_of_mem hmem
    refine ((List.forall₂_and_left _ _).mpr ⟨hnamed, haccounts.results⟩).imp ?_
    rintro action result ⟨hmem, htype, hid, hok⟩
    exact ⟨htype, hid, hok.trans (loaded_iff hmem)⟩
  · exact (haccounts.beforeState id).trans (reported_iff haccounts.results id)
  · exact (haccounts.afterState id).trans (reported_iff haccounts.results id)

/-! ## The plan is settled -/

/-- Request `q` has left the plan with the status: it has saved it so and not again, and this is
its status unless another request has saved it since. -/
def LeavesPlan (s : ServicePool) (q : ℕ) (plan : RemediationPlan) (status : PlanStatus) : Prop :=
  ∃ older before newer, s.history = older ++ (q, ⟨.savePlan plan.id (some status), before⟩) ::
      newer ∧
    (∀ ev, (q, ev) ∈ newer → ∀ status', ev.op ≠ .savePlan plan.id status') ∧
    ((∀ q' ev, (q', ev) ∈ newer → q' ≠ q → ∀ status', ev.op ≠ .savePlan plan.id status') →
      plan.status = status)

/-- A call that does not save a plan leaves it as it is. -/
theorem mem_plans_of_not_saved {op : DbOp} {db : Database} {plan : RemediationPlan}
    (hop : ∀ status, op ≠ .savePlan plan.id status) (hplan : plan ∈ db.plans) :
    plan ∈ (op.exec db).2.plans := by
  cases op with
  | createPlan new => exact mem_createIn.mpr (Or.inl hplan)
  | savePlan id status =>
      have hne : plan.id ≠ id := by
        rintro rfl
        exact hop status rfl
      show plan ∈ db.plans.update id _
      rw [Collection.mem_update]
      exact ⟨plan, hplan, if_neg hne⟩
  | _ => exact hplan

/-- A plan that is not saved along a path stays as it is. -/
theorem plan_stays {history : History} {db db' : Database} {plan : RemediationPlan}
    (hc : Pool.Chained database db history db')
    (hsaves : ∀ q ev, (q, ev) ∈ history → ∀ status, ev.op ≠ .savePlan plan.id status)
    (hplan : plan ∈ db.plans) : plan ∈ db'.plans := by
  induction history generalizing db with
  | nil =>
      rw [show db' = db from hc]
      exact hplan
  | cons e history ih =>
      obtain ⟨q, ev⟩ := e
      obtain ⟨rfl, hrest⟩ := hc
      refine ih hrest (fun q' ev' hev => hsaves q' ev' (List.mem_cons_of_mem _ hev)) ?_
      exact mem_plans_of_not_saved (hsaves q ev List.mem_cons_self) hplan

section Runs

variable {faults : Faults DbOp AppError} {db : Database} {procs : ℕ → DbProg Response}
  {G : ServicePool → PoolEvent → Prop} {s : ServicePool} {q : ℕ} {c : ExecuteCall}

/-- **The last write of a plan** by an execution that has gone through.
SRCLINE: apps/api/src/services/remediation-service.ts:240-241 -/
theorem leavesPlan_of_settled (hc : procs q = c.program)
    (hs : (Pool.machine database faults).Reaches G (Pool.initial db procs) s)
    {plan : RemediationPlan} {status : PlanStatus} {first : List DbOp} {event : AuditEvent}
    (hwrites : writesOf (own q s.history) =
      first ++ [.savePlan plan.id (some status), .recordAudit event])
    (hstored : plan ∈ s.store.plans) : LeavesPlan s q plan status := by
  have hconforms : Pool.Conforms database faults c.Justified c.Ending (s.procs q)
      (own q s.history) := Pool.conforms_of_emits (hc ▸ c.program_emits) hs
  obtain ⟨ownOlder, before, ownNewer, hown, -, hlast⟩ := writesOf_split hwrites
  obtain ⟨older, newer, hsplit, rfl, rfl⟩ := own_split hown
  have hnot : ∀ ev, (q, ev) ∈ newer → ∀ status', ev.op ≠ .savePlan plan.id status' := by
    rintro ⟨op, at_⟩ hev status' rfl
    have hwritten : DbOp.savePlan plan.id status' ∈ writesOf (own q newer) :=
      mem_writesOf.mpr ⟨rfl, at_, mem_own.mpr hev⟩
    rw [hlast] at hwritten
    simp at hwritten
  refine ⟨older, before, newer, hsplit, hnot, fun hothers => ?_⟩
  -- the plan was there when it was saved
  obtain ⟨loaded, matched, resources, hloaded, hstage⟩ :=
    (hconforms.emitted_at hsplit).written rfl
  obtain ⟨readAt, hread, hplan⟩ := hloaded.planRead
  have hpath := Pool.chained_of_reaches hs
  rw [hsplit] at hpath
  have hle : Database.Le readAt before :=
    (hpath.split.1.le Database.Le.refl (fun _ _ _ => Database.Le.trans)
      fun _ ev _ => Database.le_exec ev.op ev.before).2 q _ (mem_own.mp hread)
  obtain ⟨found, hfound, hsame⟩ := (hle.trans (Database.le_exec
    (.savePlan plan.id (some status)) before)).plans loaded (findPlan_mem hplan).1
  have hid : found.id = plan.id := by
    rw [hsame]
    exact hstage.savePlan.1.symm
  have hstatus : found.status = status := status_savePlan (hid.symm ▸ hfound)
  have hkept : found ∈ s.store.plans := by
    refine plan_stays hpath.split.2 (fun q' ev hev => ?_) hfound
    rw [hid]
    by_cases hq : q' = q
    · exact hnot ev (hq ▸ hev)
    · exact hothers q' ev hev hq
  obtain rfl : found = plan := Collection.eq_of_id hkept hstored hid
  exact hstatus

/-- **The execution record accounts for every action**, and the plan is left completed exactly
if the record says that the execution has succeeded.
SRCLINE: apps/api/src/services/remediation-service.ts:167-241 -/
theorem execution_accounts {e : RemediationExecution} (hc : procs q = c.program)
    (hs : (Pool.machine database faults).Reaches G (Pool.initial db procs) s)
    (hreturned : s.procs q = .ret (.execution e false)) :
    ∃ plan ∈ s.store.plans, plan.id = e.planId ∧ plan.workspaceId = e.workspaceId ∧
      (∃ loadedAt, (q, ⟨.findResources plan.workspaceId
          (plan.actions.map (·.resourceId)).eraseDups, loadedAt⟩) ∈ s.history ∧
        AccountsForActions plan loadedAt e) ∧
      ∃ status, LeavesPlan s q plan status ∧ (status = .completed ↔ e.status = .succeeded) ∧
        (status = .failed ↔ e.status ≠ .succeeded) := by
  have hconforms : Pool.Conforms database faults c.Justified c.Ending (s.procs q)
      (own q s.history) := Pool.conforms_of_emits (hc ▸ c.program_emits) hs
  have hending := hconforms.emits.resolve_right (by rw [hreturned]; simp)
  rw [hreturned] at hending
  obtain ⟨loaded, matched, resources, loop, event, hloaded, hrun, hwrites, -, rfl⟩ :=
    ExecuteCall.Ending.executed hending
  obtain ⟨hid, hws, ⟨plan, hplan, hsame⟩, -⟩ := hloaded.stored hs fun ev => mem_own.mp
  have hplanId : plan.id = loaded.id := by rw [hsame]
  have hplanWs : plan.workspaceId = c.workspaceId := by rw [hsame]; exact hws
  have hactions : plan.actions = loaded.actions := by rw [hsame]
  have hdryRun : plan.dryRun = loaded.dryRun := by rw [hsame]
  obtain ⟨loadedAt, hread, rfl⟩ := hloaded.resourcesRead
  refine ⟨plan, hplan, hplanId.trans hid, hplanWs, ⟨loadedAt, ?_, ?_⟩,
    finalStatus (c.execution loaded matched loop).status, ?_, ?_, ?_⟩
  · rw [hplanWs, hactions]
    exact mem_own.mp hread
  · have hsameRun : loopRun c.config plan.dryRun (loopStart (loadedAt.findResources
        plan.workspaceId (plan.actions.map (·.resourceId)).eraseDups)) plan.actions = .ok loop := by
      rw [hplanWs, hactions, hdryRun]
      exact hrun
    have haccounts : AccountsForActions plan loadedAt (c.execution plan matched loop) :=
      execution_accountsForActions hsameRun
    exact ⟨haccounts.results, haccounts.beforeState, haccounts.afterState, haccounts.succeeded,
      haccounts.failed, haccounts.partialFailure⟩
  · rw [List.append_cons, ← hplanId] at hwrites
    exact leavesPlan_of_settled hc hs hwrites hplan
  · unfold finalStatus
    split
    · next h => simp [h]
    · next h => simp [h]
  · unfold finalStatus
    split
    · next h => simp [h]
    · next h => simp [h]

end Runs

/-- The execution of two actions on the bucket leaves a record of both. -/
theorem execution_accounts_twoFindings : ∃ (s : ServicePool) (e : RemediationExecution),
    e.results.length = 2 ∧ ∃ plan ∈ s.store.plans,
      (∃ loadedAt, AccountsForActions plan loadedAt e) ∧
      ∃ status, LeavesPlan s 2 plan status ∧ (status = .completed ↔ e.status = .succeeded) := by
  let run := (executedRun ["f-1", "f-2"] false 2).get (by decide +kernel)
  have halone : ExecutedAlone _ _ _ (planFor ["f-1", "f-2"] false) 2 run.1 run.2.1 run.2.2 :=
    executedAlone_of_run (Option.some_get _).symm (by decide +kernel)
  let call : ExecuteCall := ⟨fun token => token, ⟨.mock, false, 900000⟩, "ws", "p-1", "operator",
    "c-2", ⟨"approval-token-01", "key-0001", 1, 1, 2, 2, "e-1", 3⟩⟩
  obtain ⟨plan, hplan, -, -, ⟨loadedAt, -, haccounts⟩, status, hleaves, hcompleted, -⟩ :=
    execution_accounts (c := call) rfl halone.reaches halone.returned
  exact ⟨run.2.2, run.2.1, by decide +kernel, plan, hplan, ⟨loadedAt, haccounts⟩, status, hleaves,
    hcompleted⟩

end CloudOps.Analysis
