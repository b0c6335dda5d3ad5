import CloudOps.Analysis.AnalysisStored
import CloudOps.Analysis.PlanRequests
import CloudOps.Analysis.PlannedEffects
import CloudOps.Analysis.Reprocessing

/-!
# Plans agree with the policy engine

Two tables say which action a finding asks for: the recommendations of the engine, which the
processor stores beside the findings, and `ACTION_BY_RULE`, which `createPlan` falls back to
when a recommendation is missing. They agree on every rule, so the plan for findings that the
processor has stored does not depend on which recommendations are there.
-/

set_option autoImplicit false

namespace CloudOps.Analysis

open CloudOps.Computation CloudOps.Model CloudOps.Model.RemediationService CloudOps.Interface

/-! ## The two tables -/

/-- **The two tables agree.**
SRCLINE: apps/api/src/services/remediation-service.ts:22-32,
services/diagnostics/app/engine.py:23-215 -/
theorem ACTION_BY_RULE_ruleId (p : Policy) : ACTION_BY_RULE p.ruleId = some p.action := by
  cases p <;> decide

/-- Every action the engine recommends is allowlisted, except a manual review. -/
theorem action_allowlisted (p : Policy) :
    p.action = .manualReview ∨ p.action ∈ ALLOWLISTED_ACTIONS := by
  cases p <;> decide

/-- The engine reports the finding for some inventory. -/
def Reported (numerals : PyNumerals) (json : List (String × PyVal) → JsonText)
    (workspaceId : String) (finding : EngineFinding) : Prop :=
  ∃ correlationId resources result,
    engineAnalysis numerals json workspaceId correlationId resources = .ok result ∧
      finding ∈ result.findings

/-- The action the engine's report of a finding asks for, `none` for a manual review. -/
def actionFor (findingId : String) (report : EngineFinding) : Option RemediationAction :=
  if report.recommendation.actionType = .manualReview then none else some {
    actionType := report.recommendation.actionType
    resourceId := report.resourceId
    findingId := findingId
    params := defaultParams report.recommendation.actionType report.resourceId }

section Tables

variable {numerals : PyNumerals} {json : List (String × PyVal) → JsonText} {workspaceId : String}
  {report : EngineFinding} {stored : Finding}

/-- What the engine reports is in the table of the service. -/
theorem Reported.table (h : Reported numerals json workspaceId report) :
    ACTION_BY_RULE report.ruleId = some report.recommendation.actionType ∧
      (report.recommendation.actionType = .manualReview ∨
        report.recommendation.actionType ∈ ALLOWLISTED_ACTIONS) := by
  obtain ⟨correlationId, resources, result, hresult, hmem⟩ := h
  obtain ⟨response, hresponse⟩ := analyze_inventory numerals workspaceId correlationId resources
  rw [engineAnalysis_eq hresponse] at hresult
  cases hresult
  obtain ⟨finding, hfinding, rfl⟩ := List.mem_map.mp hmem
  obtain ⟨resource, -, p, hreports⟩ := analyze_reports hresponse finding hfinding
  have hrule : (finding.received json).ruleId = p.ruleId := hreports.ruleId
  have haction : (finding.received json).recommendation.actionType = p.action := hreports.actionType
  rw [hrule, haction]
  exact ⟨ACTION_BY_RULE_ruleId p, action_allowlisted p⟩

/-- The action for a stored finding by the table alone. -/
def tableAction (stored : Finding) : Option RemediationAction :=
  (ACTION_BY_RULE stored.ruleId).bind fun actionType =>
    if actionType = .manualReview then none else some {
      actionType := actionType
      resourceId := stored.resourceId
      findingId := stored.id
      params := defaultParams actionType stored.resourceId }

/-- A stored finding asks for the action the engine recommends. -/
theorem tableAction_eq (h : Reported numerals json workspaceId report)
    (hcarries : Carries report stored) : tableAction stored = actionFor stored.id report := by
  unfold tableAction actionFor
  rw [hcarries.ruleId, h.table.1, hcarries.resourceId]
  rfl

/-- **What is planned for a stored finding**, with or without its recommendation. -/
theorem planAction_eq_table {recs : List Recommendation}
    (h : Reported numerals json workspaceId report) (hcarries : Carries report stored)
    (hrecs : ∀ rec ∈ recs, rec.findingId = stored.id → ∃ advised,
      Reported numerals json workspaceId advised ∧ advised.ruleId = stored.ruleId ∧
        Advises advised rec) :
    planAction recs stored = .ok (tableAction stored) := by
  obtain ⟨htable, hallow⟩ := h.table
  rw [← hcarries.ruleId] at htable
  rw [planAction_of_agree htable ?_ hallow]
  · unfold tableAction
    rw [htable]
    rfl
  · intro rec hrec hid
    obtain ⟨advised, hreported, hrule, hadvises⟩ := hrecs rec hrec hid
    have hsame := hreported.table.1
    rw [hrule, htable] at hsame
    rw [hadvises.actionType]
    exact (Option.some.inj hsame).symm

end Tables

/-! ## Findings stored from the engine's reports -/

section Stored

variable {numerals : PyNumerals} {json : List (String × PyVal) → JsonText}
  {workspaceId jobId : String} {db : Database} {runs : ℕ → RunCall}
  {G : RunPool → PoolEvent → Prop} {s : RunPool}

/-- The findings written in a history of runs. -/
def writtenIn (history : History) : List EngineFinding :=
  history.filterMap fun e => writtenFor? e.2.op

/-- **What is stored for a job is what the engine has reported**, and so are the recommendations
that are there.
SRCLINE: apps/worker/src/processor.ts:82-154 -/
theorem reported_of_reaches
    (hengine : ∀ q, (runs q).analyze =
      engineAnalysis numerals json workspaceId (runs q).correlationId)
    (hfirst : ∀ stored ∈ db.findings, stored.jobId ≠ jobId)
    (hids : ∀ r ∈ db.recommendations, ∀ q n, r.findingId ≠ ((runs q).draws n).newFindingId)
    (hs : jobRuns.Reaches G (process workspaceId jobId db runs) s) :
    (∀ stored ∈ s.store.findings, stored.jobId = jobId → stored.workspaceId = workspaceId ∧
      ∃ report, Reported numerals json workspaceId report ∧ Carries report stored) ∧
    ∀ r ∈ s.store.recommendations, ∀ stored ∈ s.store.findings, stored.jobId = jobId →
      r.findingId = stored.id → ∃ advised, Reported numerals json workspaceId advised ∧
        advised.ruleId = stored.ruleId ∧ Advises advised r := by
  have hreported : ∀ finding ∈ writtenIn s.history,
      Reported numerals json workspaceId finding := by
    intro finding hmem
    obtain ⟨⟨q, ev⟩, hev, hwritten⟩ := List.mem_filterMap.mp hmem
    obtain ⟨resources, result, hresult, hfinding⟩ := analysed_of_reaches hs hev hwritten
    rw [hengine q] at hresult
    exact ⟨_, resources, result, hresult, hfinding⟩
  have hinv : FromAnalysis workspaceId jobId (writtenIn s.history) (drawnIds runs) s.store :=
    fromAnalysis_of_reaches hs (fun q ev hev finding hwritten =>
      List.mem_filterMap.mpr ⟨(q, ev), hev, hwritten⟩) hfirst hids
  constructor
  · intro stored hmem hjob
    obtain ⟨hws, finding, hfinding, hcarries⟩ := hinv.findings stored hmem hjob
    exact ⟨hws, finding, hreported finding hfinding, hcarries⟩
  · intro r hr stored hmem hjob hid
    obtain ⟨-, finding, hfinding, hkey, hadvises⟩ := hinv.recommendations r hr stored hmem hjob hid
    exact ⟨finding, hreported finding hfinding, (congrArg (·.2.2.2) hkey).symm, hadvises⟩

end Stored

/-! ## The plan and the engine's reports -/

/-- Requested findings of a job, each with a report of the engine that it carries. -/
structure ReportsOf (numerals : PyNumerals) (json : List (String × PyVal) → JsonText)
    (workspaceId jobId : String) (db : Database) (findingIds : List String)
    (reports : List (String × EngineFinding)) : Prop where
  ids : reports.map Prod.fst = findingIds
  reported : ∀ e ∈ reports, Reported numerals json workspaceId e.2
  stored : ∀ e ∈ reports, ∃ stored ∈ db.findings, stored.id = e.1 ∧ stored.jobId = jobId ∧
    Carries e.2 stored

section Agreement

variable {numerals : PyNumerals} {json : List (String × PyVal) → JsonText}
  {workspaceId jobId : String} {db : Database} {findingIds : List String}
  {reports : List (String × EngineFinding)}

/-- Findings that carry reports can be listed with them. -/
theorem exists_reportsOf (h : ∀ id ∈ findingIds, ∃ stored ∈ db.findings, stored.id = id ∧
      stored.jobId = jobId ∧ ∃ report, Reported numerals json workspaceId report ∧
        Carries report stored) :
    ∃ reports, ReportsOf numerals json workspaceId jobId db findingIds reports := by
  induction findingIds with
  | nil => exact ⟨[], rfl, by simp, by simp⟩
  | cons id ids ih =>
      obtain ⟨reports, hreports⟩ := ih fun id' hid' => h id' (List.mem_cons_of_mem _ hid')
      obtain ⟨stored, hmem, hid, hjob, report, hreported, hcarries⟩ := h id List.mem_cons_self
      refine ⟨(id, report) :: reports, ?_, ?_, ?_⟩
      · rw [List.map_cons, hreports.ids]
      · exact List.forall_mem_cons.mpr ⟨hreported, hreports.reported⟩
      · exact List.forall_mem_cons.mpr ⟨⟨stored, hmem, hid, hjob, hcarries⟩, hreports.stored⟩

/-- **The table and the reports ask for the same actions**, up to order. -/
theorem perm_tableActions (hreports : ReportsOf numerals json workspaceId jobId db findingIds
      reports) {findings : List Finding} (hsub : ∀ stored ∈ findings, stored ∈ db.findings)
    (hperm : (findings.map (·.id)).Perm findingIds) :
    (findings.filterMap tableAction).Perm (reports.filterMap fun e => actionFor e.1 e.2) := by
  -- both lists are what the ids ask for in the store
  let action (id : String) : Option RemediationAction := (db.findings.get? id).bind tableAction
  have hfindings : findings.filterMap tableAction = (findings.map (·.id)).filterMap action := by
    rw [List.filterMap_map]
    refine List.filterMap_congr fun stored hmem => ?_
    have hget : db.findings.get? stored.id = some stored := Collection.get?_id (hsub stored hmem)
    show tableAction stored = (db.findings.get? stored.id).bind tableAction
    rw [hget]
    rfl
  have hreports' : (reports.filterMap fun e => actionFor e.1 e.2) =
      findingIds.filterMap action := by
    rw [← hreports.ids, List.filterMap_map]
    refine List.filterMap_congr fun e he => ?_
    obtain ⟨stored, hmem, hid, -, hcarries⟩ := hreports.stored e he
    have hget : db.findings.get? stored.id = some stored := Collection.get?_id hmem
    show actionFor e.1 e.2 = (db.findings.get? e.1).bind tableAction
    rw [← hid, hget]
    exact (tableAction_eq (hreports.reported e he) hcarries).symm
  rw [hfindings, hreports']
  exact hperm.filterMap action

/-- **Plans agree with the policy engine.** Findings of a job are stored by any number of runs,
interleaved and cut off anywhere, from what the engine reports; any of the recommendations may be
missing. Whichever findings a plan is made for, `createPlan` is not forbidden, and the plan it
stores has, up to order, one action for each finding the engine does not want reviewed by hand,
the one it recommends.
SRCLINE: apps/api/src/services/remediation-service.ts:23-100,
services/diagnostics/app/engine.py:23-237, apps/worker/src/processor.ts:109-141 -/
theorem plan_agrees_with_engine {runs : ℕ → RunCall} {G : RunPool → PoolEvent → Prop}
    {s : RunPool}
    (hengine : ∀ q, (runs q).analyze =
      engineAnalysis numerals json workspaceId (runs q).correlationId)
    (hfirst : ∀ stored ∈ db.findings, stored.jobId ≠ jobId)
    (hids : ∀ r ∈ db.recommendations, ∀ q n, r.findingId ≠ ((runs q).draws n).newFindingId)
    (hs : jobRuns.Reaches G (process workspaceId jobId db runs) s)
    (kept : Collection Recommendation) (hkept : ∀ r ∈ kept, r ∈ s.store.recommendations)
    (actorId correlationId : String) (input : PlanInput) (hnodup : input.findingIds.Nodup)
    (hrequested : ∀ id ∈ input.findingIds, ∃ stored ∈ s.store.findings, stored.id = id ∧
      stored.jobId = jobId) :
    (∃ reports, ReportsOf numerals json workspaceId jobId s.store input.findingIds reports) ∧
    (∀ message, ((createPlan workspaceId actorId correlationId input).run database
      { s.store with recommendations := kept }).1 ≠ .error (.forbidden message)) ∧
    ∀ reports, ReportsOf numerals json workspaceId jobId s.store input.findingIds reports →
      s.store.findPlanByKey workspaceId input.idempotencyKey = none →
      (∀ plan ∈ s.store.plans, plan.id ≠ input.newPlanId) →
      ∃ plan db', (createPlan workspaceId actorId correlationId input).run database
          { s.store with recommendations := kept } = (.ok (.plan plan false), db') ∧
        plan ∈ db'.plans ∧ plan.actions.Perm (reports.filterMap fun e => actionFor e.1 e.2) := by
  obtain ⟨hstored, hadvised⟩ := reported_of_reaches hengine hfirst hids hs
  let db' : Database := { s.store with recommendations := kept }
  have hworkspace : ∀ id ∈ input.findingIds, ∃ stored ∈ db'.findings, stored.id = id ∧
      stored.workspaceId = workspaceId := by
    intro id hid
    obtain ⟨stored, hmem, hsame, hjob⟩ := hrequested id hid
    exact ⟨stored, hmem, hsame, (hstored stored hmem hjob).1⟩
  have hperm := hnodup.dedup ▸ perm_findFindings hworkspace
  have hlength : (db'.findFindings workspaceId input.findingIds).length =
      input.findingIds.length := by
    rw [← hperm.length_eq, List.length_map]
  have hfound : ∀ stored ∈ db'.findFindings workspaceId input.findingIds,
      stored ∈ s.store.findings := fun stored hmem => (Collection.mem_filter.mp hmem).1
  have hjobs : ∀ stored ∈ db'.findFindings workspaceId input.findingIds,
      stored.jobId = jobId := by
    intro stored hmem
    have hid : stored.id ∈ input.findingIds := hperm.subset (List.mem_map_of_mem hmem)
    obtain ⟨stored', hmem', hsame, hjob⟩ := hrequested stored.id hid
    rw [Collection.eq_of_id (hfound stored hmem) hmem' hsame.symm]
    exact hjob
  have hactions : (db'.findFindings workspaceId input.findingIds).mapM (planAction
      (db'.findRecommendations workspaceId
        ((db'.findFindings workspaceId input.findingIds).map (·.id)))) =
      .ok ((db'.findFindings workspaceId input.findingIds).map tableAction) := by
    refine mapM_eq_map fun stored hmem => ?_
    obtain ⟨-, report, hreported, hcarries⟩ :=
      hstored stored (hfound stored hmem) (hjobs stored hmem)
    refine planAction_eq_table hreported hcarries fun rec hrec hid => ?_
    exact hadvised rec (hkept rec (Collection.mem_filter.mp hrec).1) stored (hfound stored hmem)
      (hjobs stored hmem) hid
  refine ⟨?_, createPlan_ne_forbidden hlength hactions, fun reports hreports hkey hnew => ?_⟩
  · refine exists_reportsOf fun id hid => ?_
    obtain ⟨stored, hmem, hsame, hjob⟩ := hrequested id hid
    exact ⟨stored, hmem, hsame, hjob, (hstored stored hmem hjob).2⟩
  · have hfree : db'.findPlanByKey workspaceId input.idempotencyKey = none := hkey
    rcases createPlan_run hfree hlength hactions with ⟨db'', hrun, hplan⟩ | ⟨hconflict, -⟩
    · refine ⟨_, db'', hrun, hplan, ?_⟩
      have hreduce :
          ((db'.findFindings workspaceId input.findingIds).map tableAction).reduceOption =
            (db'.findFindings workspaceId input.findingIds).filterMap tableAction := by
        rw [List.reduceOption, List.filterMap_map]
        rfl
      show (List.reduceOption _).Perm _
      rw [hreduce]
      exact perm_tableActions hreports hfound hperm
    · exact absurd hconflict (newPlan_not_conflicts hfree hnew)

end Agreement

/-! ## A run that is cut off between its two upserts -/

/-- Runs that ask the engine about the bucket. -/
def assetsRuns (_ : ℕ) : RunCall where
  correlationId := "c-1"
  resourceIds := none
  resourceTypes := none
  analyze := engineAnalysis ⟨fun _ => none, fun _ => none⟩ (fun _ => "\x7b\x7d") "ws" "c-1"
  draws := assetsDraws

/-- The bucket lacks its tags and is public; the run stores both findings, but only the first
recommendation. -/
def cutOffRun : RunPool :=
  (jobRuns.run (process "ws" "job-1" assetsStore assetsRuns) (List.replicate 5 (.run 0))).get
    (by decide +kernel)

/-- The plan of two findings of a run that was cut off agrees with the engine. -/
theorem plan_agrees_with_engine_cutOff :
    ∃ reports plan db', ReportsOf ⟨fun _ => none, fun _ => none⟩ (fun _ => "\x7b\x7d") "ws" "job-1"
        cutOffRun.store ["f", "f0"] reports ∧
      (createPlan "ws" "operator" "c-2" ⟨["f", "f0"], false, "plan-key", "p-1", 0⟩).run database
        { cutOffRun.store with recommendations := cutOffRun.store.recommendations } =
          (.ok (.plan plan false), db') ∧
      plan ∈ db'.plans ∧ plan.actions.Perm (reports.filterMap fun e => actionFor e.1 e.2) := by
  have hs : jobRuns.Reaches Machine.unguarded (process "ws" "job-1" assetsStore assetsRuns)
      cutOffRun :=
    Machine.reaches_of_run (List.replicate 5 (.run 0)) (Option.some_get _).symm
  have hdocs : ∀ id ∈ ["f", "f0"], ∃ stored ∈ cutOffRun.store.findings.docs, stored.id = id ∧
      stored.jobId = "job-1" := by decide +kernel
  have hstored : ∀ id ∈ ["f", "f0"], ∃ stored ∈ cutOffRun.store.findings, stored.id = id ∧
      stored.jobId = "job-1" := by
    intro id hid
    obtain ⟨stored, hmem, hstored⟩ := hdocs id hid
    exact ⟨stored, Collection.mem_def.mpr hmem, hstored⟩
  have hplans : cutOffRun.store.plans.docs = [] := by decide +kernel
  have hengine : ∀ q, (assetsRuns q).analyze = engineAnalysis ⟨fun _ => none, fun _ => none⟩
      (fun _ => "\x7b\x7d") "ws" (assetsRuns q).correlationId := fun _ => rfl
  have hfirst : ∀ stored ∈ assetsStore.findings, stored.jobId ≠ "job-1" :=
    fun stored hmem => absurd hmem (Collection.not_mem_empty stored)
  have hids : ∀ r ∈ assetsStore.recommendations, ∀ q n,
      r.findingId ≠ ((assetsRuns q).draws n).newFindingId :=
    fun r hmem => absurd hmem (Collection.not_mem_empty r)
  obtain ⟨⟨reports, hreports⟩, -, hplan⟩ := plan_agrees_with_engine hengine hfirst hids hs
    cutOffRun.store.recommendations (fun r hr => hr) "operator" "c-2"
    ⟨["f", "f0"], false, "plan-key", "p-1", 0⟩ (by decide) hstored
  have hnone : ∀ plan, plan ∉ cutOffRun.store.plans := by
    intro plan hmem
    rw [Collection.mem_def, hplans] at hmem
    exact List.not_mem_nil hmem
  obtain ⟨plan, db', hrun, hmem, hperm⟩ := hplan reports hreports
    (Collection.find?_eq_none.mpr fun plan hmem => absurd hmem (hnone plan))
    fun plan hmem => absurd hmem (hnone plan)
  exact ⟨reports, plan, db', hreports, hrun, hmem, hperm⟩

end CloudOps.Analysis
