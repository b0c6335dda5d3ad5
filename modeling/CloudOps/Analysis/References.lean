import CloudOps.Analysis.HttpRuns

/-!
# No reference dangles

A finding belongs to a stored job, a recommendation to a stored finding, a plan to stored
findings, a token to a stored plan, an execution to a stored plan and one of its tokens, each in
one workspace. The database enforces none of this; that what a call refers to has been read or
written before does (`Refers`), since documents stay. `Coherent` is kept by every call that
refers to what is stored (`Coherent.exec`), so it holds whatever requests and workers do.
-/

set_option autoImplicit false

namespace CloudOps.Analysis

open CloudOps.Computation CloudOps.Model

/-- The finding a recommendation is for. -/
def recommendedFor (stored : Recommendation) : String × String × String × String :=
  (stored.findingId, stored.workspaceId, stored.jobId, stored.resourceId)

/-- **What a document refers to is stored**, in its workspace. -/
structure Coherent (db : Database) : Prop where
  findings : ∀ finding ∈ db.findings, ∃ job ∈ db.jobs, job.id = finding.jobId ∧
    job.workspaceId = finding.workspaceId
  recommendations : ∀ stored ∈ db.recommendations, ∃ finding ∈ db.findings,
    findingOrigin finding = recommendedFor stored
  plans : ∀ plan ∈ db.plans,
    (∀ id ∈ plan.findingIds, ∃ finding ∈ db.findings, finding.id = id ∧
      finding.workspaceId = plan.workspaceId) ∧
    ∀ action ∈ plan.actions, ∃ finding ∈ db.findings, finding.id = action.findingId ∧
      finding.workspaceId = plan.workspaceId ∧ finding.resourceId = action.resourceId
  tokens : ∀ token ∈ db.tokens, ∃ plan ∈ db.plans, plan.id = token.planId ∧
    plan.workspaceId = token.workspaceId
  executions : ∀ execution ∈ db.executions,
    (∃ plan ∈ db.plans, plan.id = execution.planId ∧
      plan.workspaceId = execution.workspaceId) ∧
    ∃ token ∈ db.tokens, token.id = execution.approvalTokenId ∧
      token.planId = execution.planId ∧ token.workspaceId = execution.workspaceId

section Targets

variable {db db' : Database} {W id : String}

/-! ## What is referred to stays -/

/-- A job that is referred to stays. -/
theorem Stays.job (h : Stays db db')
    (hjob : ∃ job ∈ db.jobs, job.id = id ∧ job.workspaceId = W) :
    ∃ job ∈ db'.jobs, job.id = id ∧ job.workspaceId = W := by
  obtain ⟨job, hmem, rfl, rfl⟩ := hjob
  obtain ⟨job', hmem', horigin⟩ := h.jobs job hmem
  exact ⟨job', hmem', congrArg (·.1) horigin, congrArg (·.2.1) horigin⟩

/-- A finding that is referred to stays. -/
theorem Stays.finding (h : Stays db db')
    (hfinding : ∃ finding ∈ db.findings, finding.id = id ∧ finding.workspaceId = W) :
    ∃ finding ∈ db'.findings, finding.id = id ∧ finding.workspaceId = W := by
  obtain ⟨finding, hmem, rfl, rfl⟩ := hfinding
  obtain ⟨finding', hmem', horigin⟩ := h.findings finding hmem
  exact ⟨finding', hmem', congrArg (·.1) horigin, congrArg (·.2.1) horigin⟩

/-- A finding that is referred to stays, with its resource. -/
theorem Stays.findingFor {resourceId : String} (h : Stays db db')
    (hfinding : ∃ finding ∈ db.findings, finding.id = id ∧ finding.workspaceId = W ∧
      finding.resourceId = resourceId) : ∃ finding ∈ db'.findings, finding.id = id ∧
        finding.workspaceId = W ∧ finding.resourceId = resourceId := by
  obtain ⟨finding, hmem, rfl, rfl, rfl⟩ := hfinding
  obtain ⟨finding', hmem', horigin⟩ := h.findings finding hmem
  exact ⟨finding', hmem', congrArg (·.1) horigin, congrArg (·.2.1) horigin,
    congrArg (·.2.2.2) horigin⟩

/-- A plan that is referred to stays. -/
theorem Stays.plan (h : Stays db db')
    (hplan : ∃ plan ∈ db.plans, plan.id = id ∧ plan.workspaceId = W) :
    ∃ plan ∈ db'.plans, plan.id = id ∧ plan.workspaceId = W := by
  obtain ⟨plan, hmem, rfl, rfl⟩ := hplan
  obtain ⟨plan', hmem', hsame⟩ := h.documents.plans plan hmem
  exact ⟨plan', hmem', by rw [hsame], by rw [hsame]⟩

/-- A token that is referred to stays, with its plan. -/
theorem Stays.token {planId : String} (h : Stays db db')
    (htoken : ∃ token ∈ db.tokens, token.id = id ∧ token.planId = planId ∧
      token.workspaceId = W) : ∃ token ∈ db'.tokens, token.id = id ∧ token.planId = planId ∧
        token.workspaceId = W := by
  obtain ⟨token, hmem, rfl, rfl, rfl⟩ := htoken
  obtain ⟨token', hmem', hsame, -⟩ := h.documents.tokens token hmem
  exact ⟨token', hmem', by rw [hsame], by rw [hsame], by rw [hsame]⟩

end Targets

/-- A recommendation after a call was there before, or is for the finding that the call names. -/
theorem mem_recommendations_for {db : Database} {op : DbOp} {stored : Recommendation}
    (h : stored ∈ (op.exec db).2.recommendations) : stored ∈ db.recommendations ∨
      ∃ ws jobId correlation findingId out now newId,
        op = .upsertRecommendation ws jobId correlation findingId out now newId ∧
          recommendedFor stored = (findingId, ws, jobId, out.resourceId) := by
  cases op with
  | upsertRecommendation ws jobId correlation findingId out now newId =>
      have hcases := Collection.of_mem_upsert h
      rcases hcases with hold | ⟨old, hmem, hfilter, rfl⟩ | ⟨rfl, -, -⟩
      · exact Or.inl hold
      · simp only [Bool.and_eq_true, beq_iff_eq] at hfilter
        refine Or.inr ⟨ws, jobId, correlation, findingId, out, now, newId, rfl, ?_⟩
        simp [recommendedFor, EngineFinding.setRecommendation, hfilter.1, hfilter.2]
      · exact Or.inr ⟨ws, jobId, correlation, findingId, out, now, newId, rfl, rfl⟩
  | _ => exact Or.inl h

/-- **A call that refers to what is stored leaves nothing dangling.** -/
theorem Coherent.exec {db : Database} {op : DbOp} (h : Coherent db) (hop : Refers db op) :
    Coherent (op.exec db).2 := by
  have hstays : Stays db (op.exec db).2 := respects_stays.exec op db
  constructor
  case findings =>
    intro finding hfinding
    rcases mem_findings_exec hfinding with hold | ⟨ws, jobId, _, out, _, _, rfl, hkey, -, -⟩
    · exact hstays.job (h.findings finding hold)
    · simp only [keyOf, keyFor, Prod.mk.injEq] at hkey
      rw [hkey.1, hkey.2.1]
      exact hstays.job hop
  case recommendations =>
    intro stored hstored
    have hfound : ∃ finding ∈ db.findings, findingOrigin finding = recommendedFor stored := by
      rcases mem_recommendations_for hstored with hold |
        ⟨ws, jobId, _, findingId, out, _, _, rfl, hfor⟩
      · exact h.recommendations stored hold
      · rw [hfor]
        exact hop
    obtain ⟨finding, hmem, horigin⟩ := hfound
    obtain ⟨finding', hmem', hsame⟩ := hstays.findings finding hmem
    exact ⟨finding', hmem', hsame.trans horigin⟩
  case plans =>
    intro plan hplan
    rcases mem_plans_exec hplan with hold | ⟨rfl, -⟩ | ⟨plan, hold, status, rfl, rfl⟩
    · exact ⟨fun id hid => hstays.finding ((h.plans plan hold).1 id hid),
        fun action haction => hstays.findingFor ((h.plans plan hold).2 action haction)⟩
    · exact hop
    · exact h.plans plan hold
  case tokens =>
    intro token htoken
    rcases mem_tokens_exec htoken with hold | ⟨rfl, -⟩ | ⟨token, hold, usedAt, rfl, rfl⟩
    · exact hstays.plan (h.tokens token hold)
    · exact hop
    · exact h.tokens token hold
  case executions =>
    intro execution hexecution
    rcases mem_executions_exec hexecution with hold | ⟨rfl, -⟩
    · exact ⟨hstays.plan (h.executions execution hold).1,
        hstays.token (h.executions execution hold).2⟩
    · exact hop

section Runs

variable {app : AppConfig} {db : Database} {clients : ℕ → AppClient}
  {G : AppPool → PoolEvent → Prop} {s : AppPool}

/-- **No reference dangles** after a store in which none does, however the requests and the workers
interleave, writes failing or not.
SRCLINE: apps/worker/src/processor.ts:109-150,
apps/api/src/services/remediation-service.ts:37-252 -/
theorem references_hold (hdb : Coherent db)
    (hs : (Pool.machine database faults).Reaches G (appStart app db clients) s) :
    Coherent s.store := by
  refine Pool.invariant_of_performs (I := fun store _ => Coherent store) hs hdb ?_
  intro t e q op ht _ hp ih
  rcases permitted_of_performs ht hp with ⟨_, _, _, _, hpermits⟩ | hworker
  · exact ih.exec hpermits.refers
  · exact ih.exec hworker.2

/-- The finding, its recommendation, the plan, its token and the execution of the bucket. -/
theorem references_hold_remediation : ∃ s : AppPool, s.store.findings.docs.length = 1 ∧
    s.store.recommendations.docs.length = 1 ∧ s.store.executions.docs.length = 1 ∧
      Coherent s.store := by
  have hdb : Coherent bucketInventory :=
    ⟨fun _ h => absurd h List.not_mem_nil, fun _ h => absurd h List.not_mem_nil,
      fun _ h => absurd h List.not_mem_nil, fun _ h => absurd h List.not_mem_nil,
      fun _ h => absurd h List.not_mem_nil⟩
  exact ⟨remediationPool, by decide +kernel, by decide +kernel, by decide +kernel,
    references_hold hdb remediationPool_reached⟩

end Runs

end CloudOps.Analysis
