import CloudOps.Analysis.SingleExecution
import CloudOps.Model.Routes

/-!
# Which plan requests are not found

`createPlan` decides whether all requested findings are there by counting what a query by ids
returns, which names each document once. A request that names a finding twice is therefore told
that a finding is missing; the last section says that this is the only way in which the count is
wrong.
-/

set_option autoImplicit false

namespace CloudOps.Analysis

open CloudOps.Computation CloudOps.Model CloudOps.Model.RemediationService

/-- The id of a finding of the workspace. -/
def FindingThere (db : Database) (workspaceId id : String) : Prop :=
  ∃ stored ∈ db.findings, stored.id = id ∧ stored.workspaceId = workspaceId

section CreatePlan

variable {db : Database} {workspaceId actorId correlationId : String} {input : PlanInput}
  {actions : List (Option RemediationAction)} {ids : List String}

/-! ## What the query returns -/

/-- The findings that are found are those with one of the identities in the workspace. -/
theorem mem_findFindings {finding : Finding} : finding ∈ db.findFindings workspaceId ids ↔
    finding ∈ db.findings ∧ finding.workspaceId = workspaceId ∧ finding.id ∈ ids := by
  simp [Database.findFindings, Collection.mem_filter]

/-- No finding is found twice. -/
theorem nodup_findFindings : ((db.findFindings workspaceId ids).map (·.id)).Nodup :=
  db.findings.nodup_id.sublist (List.filter_sublist.map _)

/-- The findings a request asks for are found, each once. -/
theorem perm_findFindings (h : ∀ id ∈ ids, FindingThere db workspaceId id) :
    ((db.findFindings workspaceId ids).map (·.id)).Perm ids.dedup := by
  rw [List.perm_ext_iff_of_nodup nodup_findFindings ids.nodup_dedup]
  intro id
  rw [List.mem_map, List.mem_dedup]
  constructor
  · rintro ⟨stored, hmem, rfl⟩
    exact (mem_findFindings.mp hmem).2.2
  · intro hid
    obtain ⟨stored, hmem, rfl, hws⟩ := h id hid
    exact ⟨stored, mem_findFindings.mpr ⟨hmem, hws, hid⟩, rfl⟩

/-- **When the count is right**: no id is named twice and none is missing. -/
theorem length_findFindings_iff : (db.findFindings workspaceId ids).length = ids.length ↔
    ids.Nodup ∧ ∀ id ∈ ids, FindingThere db workspaceId id := by
  constructor
  · intro hlength
    have hsub : (db.findFindings workspaceId ids).map (·.id) ⊆ ids := by
      intro id hid
      obtain ⟨stored, hmem, rfl⟩ := List.mem_map.mp hid
      exact (mem_findFindings.mp hmem).2.2
    have hperm : ((db.findFindings workspaceId ids).map (·.id)).Perm ids :=
      (List.subperm_of_subset nodup_findFindings hsub).perm_of_length_le (by simp [hlength])
    refine ⟨hperm.nodup_iff.mp nodup_findFindings, fun id hid => ?_⟩
    obtain ⟨stored, hmem, hsame⟩ := List.mem_map.mp (hperm.symm.subset hid)
    obtain ⟨hstored, hws, -⟩ := mem_findFindings.mp hmem
    exact ⟨stored, hstored, hsame, hws⟩
  · rintro ⟨hnodup, hthere⟩
    have hperm := perm_findFindings hthere
    rw [hnodup.dedup] at hperm
    simpa using hperm.length_eq

/-! ## What a finding resolves to -/

/-- A finding whose action type may be planned gets its action.
SRCLINE: apps/api/src/services/remediation-service.ts:62-76 -/
theorem planAction_of_type {recs : List Recommendation} {finding : Finding}
    {actionType : ActionType}
    (htype : (((recs.find? fun r => r.findingId == finding.id).map (·.actionType)).orElse
      fun _ => ACTION_BY_RULE finding.ruleId).getD .manualReview = actionType)
    (hallow : actionType = .manualReview ∨ actionType ∈ ALLOWLISTED_ACTIONS) :
    planAction recs finding = .ok (if actionType = .manualReview then none else some {
      actionType := actionType
      resourceId := finding.resourceId
      findingId := finding.id
      params := defaultParams actionType finding.resourceId }) := by
  unfold planAction
  simp only [htype]
  by_cases hmanual : actionType = .manualReview
  · rw [if_pos hmanual, if_pos hmanual]
    rfl
  · rw [if_neg hmanual, if_neg hmanual, assertAllowlisted,
      if_pos (hallow.resolve_left hmanual)]
    rfl

/-- What `planAction` throws is forbidden. -/
theorem planAction_error {recs : List Recommendation} {finding : Finding} {e : AppError}
    (h : planAction recs finding = .error e) : ∃ message, e = .forbidden message := by
  unfold planAction at h
  simp only at h
  split at h
  · cases h
  · unfold assertAllowlisted at h
    split at h
    · cases h
    · cases h
      exact ⟨_, rfl⟩

/-- The action type a finding resolves to in its workspace.
SRCLINE: apps/api/src/services/remediation-service.ts:57-67 -/
def resolvedType (db : Database) (workspaceId : String) (finding : Finding) : ActionType :=
  (((db.recommendations.find? fun r =>
    r.workspaceId == workspaceId && r.findingId == finding.id).map (·.actionType)).orElse
      fun _ => ACTION_BY_RULE finding.ruleId).getD .manualReview

/-- The action a finding resolves to, `none` for one to be reviewed by hand. -/
def resolvedAction (db : Database) (workspaceId : String) (finding : Finding) :
    Option RemediationAction :=
  if resolvedType db workspaceId finding = .manualReview then none else some {
    actionType := resolvedType db workspaceId finding
    resourceId := finding.resourceId
    findingId := finding.id
    params := defaultParams (resolvedType db workspaceId finding) finding.resourceId }

/-- The finding may be planned for. -/
def Plannable (db : Database) (workspaceId : String) (finding : Finding) : Prop :=
  resolvedType db workspaceId finding = .manualReview ∨
    resolvedType db workspaceId finding ∈ ALLOWLISTED_ACTIONS

/-- Asking for the recommendations of several findings loses none of one of them. -/
theorem find_findRecommendations {findingId : String} (h : findingId ∈ ids) :
    (db.findRecommendations workspaceId ids).find? (fun r => r.findingId == findingId) =
      db.recommendations.find? fun r =>
        r.workspaceId == workspaceId && r.findingId == findingId := by
  show (db.recommendations.docs.filter _).find? _ = db.recommendations.docs.find? _
  rw [List.find?_filter]
  refine congrArg (fun p => List.find? p db.recommendations.docs)
    (funext fun r => Bool.eq_iff_iff.mpr ?_)
  simp only [Bool.and_eq_true, decide_eq_true_eq, beq_iff_eq, List.contains_iff_mem]
  constructor
  · rintro ⟨⟨hws, -⟩, hid⟩
    exact ⟨hws, hid⟩
  · rintro ⟨hws, rfl⟩
    exact ⟨⟨hws, h⟩, rfl⟩

/-- The action planned for a requested finding that may be planned for. -/
theorem planAction_resolved {finding : Finding} (hmem : finding.id ∈ ids)
    (h : Plannable db workspaceId finding) :
    planAction (db.findRecommendations workspaceId ids) finding =
      .ok (resolvedAction db workspaceId finding) := by
  refine planAction_of_type ?_ h
  rw [find_findRecommendations hmem]
  rfl

/-! ## A plan made without interruption -/

/-- What `createPlan` does once it has worked out the actions. -/
def insertPlan (workspaceId actorId correlationId : String) (input : PlanInput)
    (actions : List (Option RemediationAction)) : DbProg Response := do
  let plan := newPlan workspaceId actorId correlationId input actions.reduceOption
  RemediationPlanModel.create plan
  recordAudit (planAudit actorId correlationId input plan)
  return .plan plan false

/-- A request whose findings are counted right goes on to their actions. -/
theorem createPlan_found (hkey : db.findPlanByKey workspaceId input.idempotencyKey = none)
    (hlength : (db.findFindings workspaceId input.findingIds).length = input.findingIds.length) :
    (createPlan workspaceId actorId correlationId input).run database db =
      (Prog.ofExcept ((db.findFindings workspaceId input.findingIds).mapM (planAction
        (db.findRecommendations workspaceId
          ((db.findFindings workspaceId input.findingIds).map (·.id))))) >>=
        insertPlan workspaceId actorId correlationId input).run database db := by
  have hreply : ((DbOp.findPlanByKey workspaceId input.idempotencyKey).exec db).1 = none := hkey
  unfold createPlan
  refine run_call.trans ?_
  rw [hreply]
  refine run_call.trans ?_
  show (if (db.findFindings workspaceId input.findingIds).length ≠ input.findingIds.length then _
    else _ : DbProg Response).run database db = _
  rw [if_neg (not_not_intro hlength)]
  exact run_call

/-- A request whose findings are not counted right is not found. -/
theorem createPlan_notFound (hkey : db.findPlanByKey workspaceId input.idempotencyKey = none)
    (hlength : (db.findFindings workspaceId input.findingIds).length ≠ input.findingIds.length) :
    (createPlan workspaceId actorId correlationId input).run database db =
      (.error (.notFound "One or more findings were not found in this workspace"), db) := by
  have hreply : ((DbOp.findPlanByKey workspaceId input.idempotencyKey).exec db).1 = none := hkey
  unfold createPlan
  refine run_call.trans ?_
  rw [hreply]
  refine run_call.trans ?_
  show (if (db.findFindings workspaceId input.findingIds).length ≠ input.findingIds.length then _
    else _ : DbProg Response).run database db = _
  rw [if_pos hlength]
  rfl

/-- A plan whose actions could be worked out is inserted, or its indexes are taken.
SRCLINE: apps/api/src/services/remediation-service.ts:37-100 -/
theorem createPlan_run (hkey : db.findPlanByKey workspaceId input.idempotencyKey = none)
    (hlength : (db.findFindings workspaceId input.findingIds).length = input.findingIds.length)
    (hactions : (db.findFindings workspaceId input.findingIds).mapM (planAction
      (db.findRecommendations workspaceId
        ((db.findFindings workspaceId input.findingIds).map (·.id)))) = .ok actions) :
    let plan := newPlan workspaceId actorId correlationId input actions.reduceOption
    (∃ db', (createPlan workspaceId actorId correlationId input).run database db =
        (.ok (.plan plan false), db') ∧ plan ∈ db'.plans) ∨
      (db.plans.Conflicts plan ∧
        ((createPlan workspaceId actorId correlationId input).run database db).1 =
          .error .duplicateKey) := by
  intro plan
  have hcreate : (createPlan workspaceId actorId correlationId input).run database db =
      ((RemediationPlanModel.create plan >>= fun _ =>
        recordAudit (planAudit actorId correlationId input plan) >>= fun _ =>
          return Response.plan plan false : DbProg Response)).run database db := by
    rw [createPlan_found hkey hlength, hactions]
    rfl
  rw [hcreate]
  cases hinsert : db.plans.insert? plan with
  | some plans =>
      have hreply : ((DbOp.createPlan plan).exec db).1 = .ok () := by
        show (createIn db.plans plan).1 = _
        rw [createIn, hinsert]
      have hplans : ((DbOp.createPlan plan).exec db).2.plans = plans := by
        show (createIn db.plans plan).2 = _
        rw [createIn, hinsert]
      refine Or.inl ⟨_, run_attempt hreply, ?_⟩
      show plan ∈ ((DbOp.createPlan plan).exec db).2.plans
      rw [hplans]
      exact (Collection.mem_insert? hinsert).mpr (Or.inr rfl)
  | none =>
      have hreply : ((DbOp.createPlan plan).exec db).1 = .error .duplicateKey := by
        show (createIn db.plans plan).1 = _
        rw [createIn, hinsert]
      refine Or.inr ⟨Collection.insert?_eq_none_iff.mp hinsert, ?_⟩
      show ((Prog.ofExcept ((DbOp.createPlan plan).exec db).1 >>= _ : DbProg Response).run
        database _).1 = _
      rw [hreply]
      rfl

/-- A request whose findings are counted right is not told that one is missing. -/
theorem createPlan_ne_notFound (hkey : db.findPlanByKey workspaceId input.idempotencyKey = none)
    (hlength : (db.findFindings workspaceId input.findingIds).length = input.findingIds.length)
    (message : String) : ((createPlan workspaceId actorId correlationId input).run database db).1 ≠
      .error (.notFound message) := by
  cases hactions : (db.findFindings workspaceId input.findingIds).mapM (planAction
      (db.findRecommendations workspaceId
        ((db.findFindings workspaceId input.findingIds).map (·.id)))) with
  | error e =>
      obtain ⟨finding, -, herror⟩ := error_of_mapM hactions
      obtain ⟨forbidden, rfl⟩ := planAction_error herror
      rw [createPlan_found hkey hlength, hactions]
      intro h
      cases h
  | ok actions =>
      rcases createPlan_run hkey hlength hactions with ⟨db', hrun, -⟩ | ⟨-, hrun⟩
      · rw [hrun]
        intro h
        cases h
      · rw [hrun]
        intro h
        cases h

/-- A request whose actions could be worked out is not forbidden. -/
theorem createPlan_ne_forbidden
    (hlength : (db.findFindings workspaceId input.findingIds).length = input.findingIds.length)
    (hactions : (db.findFindings workspaceId input.findingIds).mapM (planAction
      (db.findRecommendations workspaceId
        ((db.findFindings workspaceId input.findingIds).map (·.id)))) = .ok actions)
    (message : String) : ((createPlan workspaceId actorId correlationId input).run database db).1 ≠
      .error (.forbidden message) := by
  cases hkey : db.findPlanByKey workspaceId input.idempotencyKey with
  | some existing =>
      have hreply : ((DbOp.findPlanByKey workspaceId input.idempotencyKey).exec db).1 =
          some existing := hkey
      unfold createPlan
      refine fun h => absurd ((congrArg Prod.fst run_call).symm.trans h) ?_
      rw [hreply]
      intro h
      cases h
  | none =>
      rcases createPlan_run hkey hlength hactions with ⟨db', hrun, -⟩ | ⟨-, hrun⟩
      · rw [hrun]
        intro h
        cases h
      · rw [hrun]
        intro h
        cases h

/-- A plan with a new key and a new id finds its indexes free. -/
theorem newPlan_not_conflicts {actions : List RemediationAction}
    (hkey : db.findPlanByKey workspaceId input.idempotencyKey = none)
    (hnew : ∀ plan ∈ db.plans, plan.id ≠ input.newPlanId) :
    ¬ db.plans.Conflicts (newPlan workspaceId actorId correlationId input actions) := by
  rintro ⟨plan, hmem, hsame | hsame⟩
  · exact absurd hsame (hnew plan hmem)
  · have hnone := Collection.find?_eq_none.mp hkey plan hmem
    have hws : plan.workspaceId = workspaceId := congrArg Prod.fst hsame
    have hid : plan.idempotencyKey = input.idempotencyKey := congrArg Prod.snd hsame
    simp [hws, hid] at hnone

/-! ## When the not-found condition is exact -/

/-- The plan's actions are those of the requested findings, each finding taken once. -/
def PlansOnce (db : Database) (workspaceId : String) (findingIds : List String)
    (plan : RemediationPlan) : Prop :=
  ∃ findings : List Finding, (findings.map (·.id)).Perm findingIds.dedup ∧
    (∀ finding ∈ findings, finding ∈ db.findings ∧ finding.workspaceId = workspaceId) ∧
    plan.actions = findings.filterMap (resolvedAction db workspaceId)

/-- `createPlan` says that a finding was not found exactly when one is missing; otherwise it
stores the plan, unless an action may not be planned. -/
structure NotFoundExact (db : Database) (workspaceId actorId correlationId : String)
    (input : PlanInput) : Prop where
  notFound : (∃ message,
      ((createPlan workspaceId actorId correlationId input).run database db).1 =
        .error (.notFound message)) ↔
    ∃ id ∈ input.findingIds, ¬ FindingThere db workspaceId id
  stores : (∀ id ∈ input.findingIds, FindingThere db workspaceId id) →
    (∀ finding ∈ db.findings, finding.workspaceId = workspaceId → finding.id ∈ input.findingIds →
      Plannable db workspaceId finding) →
    ∃ plan db', (createPlan workspaceId actorId correlationId input).run database db =
        (.ok (.plan plan false), db') ∧
      plan ∈ db'.plans ∧ PlansOnce db workspaceId input.findingIds plan

/-- A request without repetitions for findings that are there stores its plan. -/
theorem createPlan_stores (hkey : db.findPlanByKey workspaceId input.idempotencyKey = none)
    (hnew : ∀ plan ∈ db.plans, plan.id ≠ input.newPlanId) (hnodup : input.findingIds.Nodup)
    (hthere : ∀ id ∈ input.findingIds, FindingThere db workspaceId id)
    (hplannable : ∀ finding ∈ db.findings, finding.workspaceId = workspaceId →
      finding.id ∈ input.findingIds → Plannable db workspaceId finding) :
    ∃ plan db', (createPlan workspaceId actorId correlationId input).run database db =
        (.ok (.plan plan false), db') ∧
      plan ∈ db'.plans ∧ PlansOnce db workspaceId input.findingIds plan := by
  have hlength := length_findFindings_iff.mpr ⟨hnodup, hthere⟩
  have hactions : (db.findFindings workspaceId input.findingIds).mapM (planAction
      (db.findRecommendations workspaceId
        ((db.findFindings workspaceId input.findingIds).map (·.id)))) =
      .ok ((db.findFindings workspaceId input.findingIds).map (resolvedAction db workspaceId)) := by
    refine mapM_eq_map fun finding hmem => ?_
    obtain ⟨hstored, hws, hid⟩ := mem_findFindings.mp hmem
    exact planAction_resolved (List.mem_map_of_mem hmem) (hplannable finding hstored hws hid)
  have hstored := @createPlan_run db workspaceId actorId correlationId input _ hkey hlength hactions
  rcases hstored with ⟨db', hrun, hmem⟩ | ⟨hconflict, -⟩
  · refine ⟨_, db', hrun, hmem, db.findFindings workspaceId input.findingIds,
      perm_findFindings hthere, fun finding hfinding => ?_, ?_⟩
    · obtain ⟨hstored, hws, -⟩ := mem_findFindings.mp hfinding
      exact ⟨hstored, hws⟩
    · show List.reduceOption _ = _
      rw [List.reduceOption, List.filterMap_map]
      rfl
  · exact absurd hconflict (newPlan_not_conflicts hkey hnew)

/-- **When the not-found condition is exact**: no finding is named twice, or one of them really is
missing.
SRCLINE: apps/api/src/services/remediation-service.ts:50-77, packages/shared/src/schemas.ts:20-24 -/
theorem createPlan_notFound_iff
    (hkey : db.findPlanByKey workspaceId input.idempotencyKey = none)
    (hnew : ∀ plan ∈ db.plans, plan.id ≠ input.newPlanId) :
    NotFoundExact db workspaceId actorId correlationId input ↔
      (input.findingIds.Nodup ∨ ∃ id ∈ input.findingIds, ¬ FindingThere db workspaceId id) := by
  constructor
  · intro hexact
    by_contra hneither
    obtain ⟨hrepeats, hthere⟩ := not_or.mp hneither
    refine hthere (hexact.notFound.mp ⟨_, congrArg Prod.fst (createPlan_notFound hkey ?_)⟩)
    exact fun hlength => hrepeats (length_findFindings_iff.mp hlength).1
  · intro h
    by_cases hmissing : ∃ id ∈ input.findingIds, ¬ FindingThere db workspaceId id
    · obtain ⟨id, hid, hgone⟩ := hmissing
      refine ⟨⟨fun _ => ⟨id, hid, hgone⟩, fun _ => ⟨_, congrArg Prod.fst
        (createPlan_notFound hkey ?_)⟩⟩, fun hthere => absurd (hthere id hid) hgone⟩
      exact fun hlength => hgone ((length_findFindings_iff.mp hlength).2 id hid)
    · have hnodup := h.resolve_right hmissing
      have hthere : ∀ id ∈ input.findingIds, FindingThere db workspaceId id := by
        simpa only [not_exists, not_and, not_not] using hmissing
      refine ⟨⟨fun ⟨message, herror⟩ => absurd herror ?_, fun hgone => absurd hgone hmissing⟩,
        fun _ => createPlan_stores hkey hnew hnodup hthere⟩
      exact createPlan_ne_notFound hkey (length_findFindings_iff.mpr ⟨hnodup, hthere⟩) message

end CreatePlan

/-- A request that names its finding once is answered. -/
theorem createPlan_notFound_once : NotFoundExact bucketStore "ws" "operator" "c-0"
    ⟨["f-1"], false, "plan-key", "p-1", 0⟩ :=
  (createPlan_notFound_iff rfl fun plan hmem => absurd hmem (Collection.not_mem_empty plan)).mpr
    (Or.inl (List.nodup_singleton _))

/-- A request the schema admits names the bucket's finding twice, and is told that a finding is
missing. -/
theorem createPlan_notFound_twice :
    createRemediationPlanSchema ⟨["f-1", "f-1"], false, "plan-key", "p-1", 0⟩ = true ∧
      ¬ NotFoundExact bucketStore "ws" "operator" "c-0"
        ⟨["f-1", "f-1"], false, "plan-key", "p-1", 0⟩ := by
  refine ⟨by decide, fun hexact => ?_⟩
  obtain ⟨id, hid, hgone⟩ := hexact.notFound.mp ⟨_, rfl⟩
  have hsame : id = "f-1" := by simpa using hid
  subst hsame
  exact hgone ⟨_, List.mem_cons_self, rfl, rfl⟩

end CloudOps.Analysis
