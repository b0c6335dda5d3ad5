import CloudOps.Analysis.FailureRetries
import CloudOps.Analysis.JobIntake
import CloudOps.Analysis.JobStages
import CloudOps.Analysis.Reprocessing

/-!
# What the summary of a completed job counts

The summary counts the rounds of the run that completes the job. What is stored for the job
comes from all its runs, those that timed out and still write included. `summaries_agree` says
which completions and which late writes keep the two equal.
-/

set_option autoImplicit false

namespace CloudOps.Analysis

open CloudOps.Computation CloudOps.Model CloudOps.Model.JobProcessor

/-! ## The calls -/

/-- Everything that writes jobs, their results or the resources they are about. -/
inductive WorkerCall
  | create (c : CreateCall)
  | retry (workspaceId id actorId correlationId : String) (now auditedAt : Time)
  | sync (c : SyncCall)
  | processNext (config : JobQueueConfig)
      (analyze : List CloudResource → Except AppError DiagnosticEngineResult) (draws : AttemptDraws)
  | processNextTimedOut (config : JobQueueConfig)
      (analyze : List CloudResource → Except AppError DiagnosticEngineResult) (draws : AttemptDraws)
  | fail (config : JobQueueConfig) (jobId : String) (error : StructuredFailure) (random : ℚ)
      (now : Time)
  | heartbeat (config : JobQueueConfig) (jobId workerId : String) (now : Time)
  | recoverAbandoned (now : Time)

/-- The program of a call; its outcome does not matter here. -/
def WorkerCall.program : WorkerCall → DbProg Unit
  | .create c => do
    let _ ← c.program
    return ()
  | .retry workspaceId id actorId correlationId now auditedAt => do
    let _ ← JobService.retry workspaceId id actorId correlationId now auditedAt
    return ()
  | .sync c => do
    let _ ← c.program
    return ()
  | .processNext config analyze draws => do
    let _ ← JobProcessor.processNext config analyze draws
    return ()
  | .processNextTimedOut config analyze draws =>
    JobProcessor.processNextTimedOut config analyze draws
  | .fail config jobId error random now => do
    let _ ← JobProcessor.fail config jobId error random now
    return ()
  | .heartbeat config jobId workerId now => .call (.heartbeatJob config jobId workerId now) .ret
  | .recoverAbandoned now => .call (.recoverAbandoned now) .ret

/-- Calls in flight on the database. -/
abbrev WorkerPool : Type := Pool DbOp DbOp.Reply Database AppError Unit

/-- The machine that interleaves them at their database calls; a write may fail. -/
abbrev workers : Machine WorkerPool PoolEvent := Pool.machine database faults

/-- A call that writes no finding, no recommendation and no completed job. -/
def isPlain : DbOp → Bool
  | .upsertFinding .. | .upsertRecommendation .. | .completeJob .. | .createJob .. => false
  | _ => true

/-- What each call relies on: a recommendation is for a finding that has been written, and a
completion counts what its run has written. -/
inductive WorkerStage (past : Past) : DbOp → Prop
  | finding (workspaceId jobId correlationId : String) (finding : EngineFinding) (now : Time)
      (newId : String) :
      WorkerStage past (.upsertFinding workspaceId jobId correlationId finding now newId)
  | recommendation (workspaceId jobId correlationId id : String) (finding : EngineFinding)
      (now : Time) (newId : String) (hwrote : WroteFinding workspaceId jobId past finding id) :
      WorkerStage past
        (.upsertRecommendation workspaceId jobId correlationId id finding now newId)
  | complete (workspaceId jobId : String) (findings : List EngineFinding)
      (summary : JobResultSummary) (now : Time)
      (hkeys : upsertKeys past = findings.map (keyFor workspaceId jobId))
      (hwrote : ∀ finding ∈ findings, Wrote workspaceId jobId past finding)
      (hfindings : summary.findingsCreated = findings.length)
      (hrecommendations : summary.recommendationsCreated = findings.length) :
      WorkerStage past (.completeJob jobId summary now)
  | create (job : DiagnosticJob) (hstatus : job.status = .pending) :
      WorkerStage past (.createJob job)
  | plain (op : DbOp) (hop : isPlain op = true) : WorkerStage past op

/-- What each call of a worker or of the jobs' requests relies on; none creates a plan. -/
structure WorkerCalls (past : Past) (op : DbOp) : Prop where
  stage : WorkerStage past op
  plans : ∀ plan, op ≠ .createPlan plan

section Programs

variable {past : Past} {op : DbOp} {workspaceId jobId : String}
  {analyze : List CloudResource → Except AppError DiagnosticEngineResult}

/-- What a run relies on is what a worker relies on. -/
theorem RunStage.worker {draws : ℕ → RoundDraws}
    (h : RunStage workspaceId jobId analyze draws past op) : WorkerCalls past op := by
  cases h with
  | inventory ids types => exact ⟨.plain _ rfl, by simp⟩
  | finding correlationId finding now n _ => exact ⟨.finding .., by simp⟩
  | recommendation correlationId id finding now newId _ hwrote =>
      exact ⟨.recommendation _ _ _ _ _ _ _ hwrote, by simp⟩
  | health check => exact ⟨.plain _ rfl, by simp⟩

/-- A retry keeps to what workers rely on. -/
theorem RetryStage.worker {id : String} {now : Time} (h : RetryStage workspaceId id now past op) :
    WorkerCalls past op := by
  cases h <;> exact ⟨.plain _ rfl, by simp⟩

/-- A failure keeps to what workers rely on. -/
theorem FailStage.worker {config : JobQueueConfig} {error : StructuredFailure} {random : ℚ}
    {now : Time} (h : FailStage config jobId error random now op) : WorkerCalls past op := by
  cases h <;> exact ⟨.plain _ rfl, by simp⟩

/-- **An attempt completes its job with what its run has written.**
SRCLINE: apps/worker/src/processor.ts:24-80 -/
theorem processNext_emits (config : JobQueueConfig) (draws : AttemptDraws) :
    (processNext config analyze draws).Emits database WorkerCalls (fun _ _ => True) [] := by
  refine emits_call ⟨.plain _ rfl, by simp⟩ fun before job? _ => ?_
  cases job? with
  | none => trivial
  | some job =>
    refine Prog.Emits.handle
      (Prog.Emits.bind ((run_emits rfl).mono (fun _ _ => RunStage.worker) ?_))
    intro past outcome hends
    cases outcome with
    | error err =>
        refine Prog.Emits.bind (fail_emits.mono (fun _ _ => FailStage.worker) ?_)
        intro past result _
        cases result <;> trivial
    | ok summary =>
        obtain ⟨result, hprocessed, hfindings, hrecommendations⟩ := hends
        exact ⟨⟨.complete job.workspaceId job.id result.findings summary draws.completedAt
          hprocessed.keys hprocessed.wrote hfindings hrecommendations, by simp⟩, fun _ => trivial⟩

/-- A run that has lost the race writes on and completes nothing.
SRCLINE: packages/shared/src/observability/retry.ts:19-33 -/
theorem processNextTimedOut_emits (config : JobQueueConfig) (draws : AttemptDraws) :
    (processNextTimedOut config analyze draws).Emits database WorkerCalls (fun _ _ => True)
      [] := by
  refine emits_call ⟨.plain _ rfl, by simp⟩ fun before job? _ => ?_
  cases job? with
  | none => trivial
  | some job =>
    exact Prog.Emits.handle ((run_emits rfl).mono (fun _ _ => RunStage.worker) fun _ _ _ => trivial)

/-- Every call keeps to what workers rely on. -/
theorem WorkerCall.program_emits (c : WorkerCall) :
    c.program.Emits database WorkerCalls (fun _ _ => True) [] := by
  cases c with
  | create c =>
      refine (emits_discard c.program_emits).mono (fun past op h => ?_) fun _ _ _ => trivial
      cases h with
      | insert found hnone => exact ⟨.create c.job rfl, by simp⟩
      | _ => exact ⟨.plain _ rfl, by simp⟩
  | retry workspaceId id actorId correlationId now auditedAt =>
      exact (emits_discard retry_emits).mono (fun _ _ => RetryStage.worker) fun _ _ _ => trivial
  | sync c =>
      refine (emits_discard SyncCall.program_emits).mono (fun past op h => ?_) fun _ _ _ => trivial
      obtain ⟨-, items, -, hstage⟩ := h
      generalize writesOf past = written at hstage
      cases hstage with
      | upsert pre post i hitems => exact ⟨.plain _ rfl, by simp [SyncCall.upsert]⟩
      | audit event => exact ⟨.plain _ rfl, by simp⟩
  | processNext config analyze draws =>
      exact (emits_discard (processNext_emits config draws)).mono (fun _ _ h => h)
        fun _ _ _ => trivial
  | processNextTimedOut config analyze draws => exact processNextTimedOut_emits config draws
  | fail config jobId error random now =>
      exact (emits_discard fail_emits).mono (fun _ _ => FailStage.worker) fun _ _ _ => trivial
  | heartbeat config jobId workerId now => exact ⟨⟨.plain _ rfl, by simp⟩, fun _ => trivial⟩
  | recoverAbandoned now => exact ⟨⟨.plain _ rfl, by simp⟩, fun _ => trivial⟩

end Programs

/-! ## What is stored for a job -/

def findingCount (db : Database) (jobId : String) : ℕ :=
  (db.findings.filter fun f => f.jobId == jobId).length

def recommendationCount (db : Database) (jobId : String) : ℕ :=
  (db.recommendations.filter fun r => r.jobId == jobId).length

/-- Every recommendation is for a stored finding of its job. -/
def Owned (db : Database) : Prop :=
  ∀ r ∈ db.recommendations, ∃ stored ∈ db.findings, stored.id = r.findingId ∧
    stored.jobId = r.jobId ∧ stored.workspaceId = r.workspaceId

/-- Every finding of the job has its recommendation. -/
def Recommended (db : Database) (jobId : String) : Prop :=
  ∀ stored ∈ db.findings, stored.jobId = jobId → ∃ r ∈ db.recommendations,
    r.workspaceId = stored.workspaceId ∧ r.findingId = stored.id

/-- The summary counts what is stored for the job. -/
structure Counted (db : Database) (jobId : String) (summary : JobResultSummary) : Prop where
  findings : summary.findingsCreated = findingCount db jobId
  recommendations : summary.recommendationsCreated = findingCount db jobId
  recommended : Recommended db jobId

/-- The invariant: every completed job has a summary that counts what is stored for it. -/
structure JobsAccounted (db : Database) : Prop where
  owned : Owned db
  counted : ∀ job ∈ db.jobs, job.status = .completed →
    ∃ summary, job.resultSummary = some summary ∧ Counted db job.id summary

section Counts

variable {db db' : Database} {op : DbOp} {jobId : String}

/-- **As many recommendations as findings**, where every finding has one. -/
theorem recommendationCount_eq (howned : Owned db) (h : Recommended db jobId) :
    recommendationCount db jobId = findingCount db jobId := by
  have hids : ((db.findings.filter fun f => f.jobId == jobId).map (·.id)).Nodup :=
    db.findings.nodup_id.sublist (List.filter_sublist.map _)
  have hfindingIds :
      ((db.recommendations.filter fun r => r.jobId == jobId).map (·.findingId)).Nodup := by
    refine List.Nodup.map_on ?_ (db.recommendations.nodup_id.of_map.filter _)
    intro r hr r' hr' hsame
    have hmem := (Collection.mem_filter.mp hr).1
    have hmem' := (Collection.mem_filter.mp hr').1
    obtain ⟨stored, hstored, hid, -, hws⟩ := howned r hmem
    obtain ⟨stored', hstored', hid', -, hws'⟩ := howned r' hmem'
    obtain rfl := Collection.eq_of_id hstored hstored' (hid.trans (hsame.trans hid'.symm))
    exact Collection.eq_of_index hmem hmem' (Prod.ext (hws.symm.trans hws') hsame)
  have hperm := (List.perm_ext_iff_of_nodup hfindingIds hids).mpr fun id => ?_
  · have hlength := hperm.length_eq
    rw [List.length_map, List.length_map] at hlength
    exact hlength
  · simp only [List.mem_map, Collection.mem_filter, beq_iff_eq]
    constructor
    · rintro ⟨r, ⟨hr, hjob⟩, rfl⟩
      obtain ⟨stored, hstored, hid, hstoredJob, -⟩ := howned r hr
      exact ⟨stored, ⟨hstored, hstoredJob.trans hjob⟩, hid⟩
    · rintro ⟨stored, ⟨hstored, hjob⟩, rfl⟩
      obtain ⟨r, hr, -, hid⟩ := h stored hstored hjob
      obtain ⟨stored', hstored', hid', hjob', -⟩ := howned r hr
      obtain rfl := Collection.eq_of_id hstored' hstored (hid'.trans hid)
      exact ⟨r, ⟨hr, hjob'.symm.trans hjob⟩, hid⟩

/-- An update that completes nothing and keeps the summaries. -/
theorem completed_of_update {jobs : Collection DiagnosticJob} {p : DiagnosticJob → Bool}
    {f : DiagnosticJob → DiagnosticJob} {job' : DiagnosticJob}
    (hid : ∀ job, Document._id (f job) = Document._id job)
    (hix : ∀ job, Document.uniqueIndex (f job) = Document.uniqueIndex job)
    (h : job' ∈ jobs.updateMany p f hid hix) (hstatus : job'.status = .completed)
    (hf : ∀ job, (f job).status = .completed →
      job.status = .completed ∧ (f job).resultSummary = job.resultSummary) :
    ∃ job ∈ jobs, job.id = job'.id ∧ job.status = .completed ∧
      job.resultSummary = job'.resultSummary := by
  obtain ⟨job, hjob, heq⟩ := Collection.mem_updateMany.mp h
  by_cases hp : p job = true
  · rw [if_pos hp] at heq
    subst heq
    exact ⟨job, hjob, (hid job).symm, (hf job hstatus).1, (hf job hstatus).2.symm⟩
  · rw [if_neg hp] at heq
    subst heq
    exact ⟨job, hjob, rfl, hstatus, rfl⟩

/-- A completed job after a call was completed before, or has just been completed or created. -/
theorem completed_exec {job' : DiagnosticJob} (h : job' ∈ (op.exec db).2.jobs)
    (hstatus : job'.status = .completed) :
    (∃ job ∈ db.jobs, job.id = job'.id ∧ job.status = .completed ∧
      job.resultSummary = job'.resultSummary) ∨
    (∃ summary now, op = .completeJob job'.id summary now ∧ job'.resultSummary = some summary) ∨
    op = .createJob job' := by
  cases op with
  | createJob job =>
      rcases mem_createIn.mp h with hold | ⟨-, rfl⟩
      · exact Or.inl ⟨job', hold, rfl, hstatus, rfl⟩
      · exact Or.inr (Or.inr rfl)
  | saveJob call =>
      refine Or.inl (completed_of_update (f := retrySave call) (fun _ => rfl) (fun _ => rfl) h
        hstatus fun job hcompleted => ⟨?_, rfl⟩)
      simp only [retrySave, savedField] at hcompleted
      split at hcompleted
      · exact hcompleted
      · cases hcompleted
  | claimJob config workerId now id =>
      change job' ∈ (JobQueue.claim config db.jobs workerId now id).getD db.jobs at h
      unfold JobQueue.claim at h
      split at h
      · exact Or.inl ⟨job', h, rfl, hstatus, rfl⟩
      · split at h
        · exact Or.inl (completed_of_update (f := claimUpdate config workerId now) (fun _ => rfl)
            (fun _ => rfl) h hstatus fun job hcompleted => by cases hcompleted)
        · exact Or.inl ⟨job', h, rfl, hstatus, rfl⟩
  | heartbeatJob config id workerId now =>
      exact Or.inl (completed_of_update (f := heartbeatUpdate config now) (fun _ => rfl)
        (fun _ => rfl) h hstatus fun job hcompleted => ⟨hcompleted, rfl⟩)
  | completeJob id summary now =>
      change job' ∈ db.jobs.update id (completeUpdate summary now) at h
      rw [Collection.mem_update] at h
      obtain ⟨job, hjob, heq⟩ := h
      split at heq
      · next hid =>
        subst heq
        refine Or.inr (Or.inl ⟨summary, now, ?_, rfl⟩)
        rw [show (completeUpdate summary now job).id = id from hid]
      · subst heq
        exact Or.inl ⟨job, hjob, rfl, hstatus, rfl⟩
  | failJob config call random now =>
      refine Or.inl (completed_of_update (f := failUpdate config call random now) (fun job => ?_)
        (fun job => ?_) h hstatus fun job hcompleted => ?_)
      · unfold failUpdate
        split <;> rfl
      · unfold failUpdate
        split <;> rfl
      · unfold failUpdate at hcompleted
        split at hcompleted
        · cases hcompleted
        · cases hcompleted
  | recoverAbandoned now =>
      exact Or.inl (completed_of_update (f := recoverUpdate now) (fun _ => rfl) (fun _ => rfl) h
        hstatus fun job hcompleted => by cases hcompleted)
  | _ => exact Or.inl ⟨job', h, rfl, hstatus, rfl⟩

end Counts

/-! ## What a call keeps -/

section Steps

variable {db db' : Database} {workspaceId jobId correlationId : String} {finding : EngineFinding}
  {now : Time} {newId : String}

/-- A count stays right as long as findings and recommendations stay. -/
theorem Counted.congr {summary : JobResultSummary} (h : Counted db jobId summary)
    (hfindings : db'.findings = db.findings) (hrecs : db'.recommendations = db.recommendations) :
    Counted db' jobId summary where
  findings := by rw [h.findings, findingCount, findingCount, hfindings]
  recommendations := by rw [h.recommendations, findingCount, findingCount, hfindings]
  recommended := by
    intro stored hmem hjob
    rw [hfindings] at hmem
    rw [hrecs]
    exact h.recommended stored hmem hjob

/-- A call that leaves findings and recommendations alone keeps the account, if it completes
a job only with what is stored for it. -/
theorem JobsAccounted.jobs (h : JobsAccounted db) (hfindings : db'.findings = db.findings)
    (hrecs : db'.recommendations = db.recommendations)
    (hjobs : ∀ job' ∈ db'.jobs, job'.status = .completed →
      (∃ job ∈ db.jobs, job.id = job'.id ∧ job.status = .completed ∧
        job.resultSummary = job'.resultSummary) ∨
      ∃ summary, job'.resultSummary = some summary ∧ Counted db job'.id summary) :
    JobsAccounted db' where
  owned := by
    intro r hr
    rw [hrecs] at hr
    rw [hfindings]
    exact h.owned r hr
  counted := by
    intro job' hmem hstatus
    rcases hjobs job' hmem hstatus with ⟨job, hjob, hid, hcompleted, hsame⟩ |
      ⟨summary, hsome, hcounted⟩
    · obtain ⟨summary, hsome, hcounted⟩ := h.counted job hjob hcompleted
      rw [hid] at hcounted
      exact ⟨summary, hsame.symm.trans hsome, hcounted.congr hfindings hrecs⟩
    · exact ⟨summary, hsome, hcounted.congr hfindings hrecs⟩

/-- **A finding that is written again, or for a job that is not completed**, keeps the account.
SRCLINE: apps/worker/src/processor.ts:110-124 -/
theorem JobsAccounted.upsertFinding (h : JobsAccounted db)
    (hagain : (∃ job ∈ db.jobs, job.id = jobId ∧ job.status = .completed) →
      ∃ stored ∈ db.findings, keyOf stored = keyFor workspaceId jobId finding) :
    JobsAccounted
      ((DbOp.upsertFinding workspaceId jobId correlationId finding now newId).exec db).2 where
  owned := by
    intro r hr
    obtain ⟨stored, hmem, hid, hjob, hws⟩ := h.owned r hr
    obtain ⟨stored', hmem', hid', hkey⟩ := findings_stay (.upsertFinding workspaceId jobId
      correlationId finding now newId) hmem
    exact ⟨stored', hmem', hid'.trans hid, (congrArg (·.2.1) hkey).trans hjob,
      (congrArg (·.1) hkey).trans hws⟩
  counted := by
    intro job hjob hstatus
    obtain ⟨summary, hsome, hcounted⟩ := h.counted job hjob hstatus
    have hcount : findingCount ((DbOp.upsertFinding workspaceId jobId correlationId finding now
        newId).exec db).2 job.id = findingCount db job.id := by
      refine Collection.length_filter_upsert (fun _ => rfl) fun hnew => ?_
      have hsame : job.id = jobId := (eq_of_beq hnew).symm
      obtain ⟨stored, hmem, hkey⟩ := hagain ⟨job, hjob, hsame, hstatus⟩
      refine ⟨stored, hmem, ?_⟩
      obtain ⟨hws, hkey⟩ := Prod.mk.inj hkey
      obtain ⟨hjobId, hkey⟩ := Prod.mk.inj hkey
      obtain ⟨hresource, hrule⟩ := Prod.mk.inj hkey
      simp only [hws, hjobId, hresource, hrule, beq_self_eq_true, Bool.and_self]
    refine ⟨summary, hsome, ?_, ?_, ?_⟩
    · rw [hcount]
      exact hcounted.findings
    · rw [hcount]
      exact hcounted.recommendations
    · intro stored hmem hstored
      rcases mem_findings_exec hmem with hold | ⟨_, _, _, _, _, _, hop, hkey, -, hfrom⟩
      · exact hcounted.recommended stored hold hstored
      · cases hop
        rcases hfrom with ⟨old, hold, hid, hkeyOld⟩ | ⟨-, hfree⟩
        · obtain ⟨r, hr, hws, hrid⟩ := hcounted.recommended old hold
            ((congrArg (·.2.1) hkeyOld).trans hstored)
          exact ⟨r, hr, hws.trans (congrArg (·.1) hkeyOld), hrid.trans hid⟩
        · -- a new finding of a completed job is none that was there
          have hsame : job.id = jobId := hstored.symm.trans (congrArg (·.2.1) hkey)
          obtain ⟨old, hold, hkeyOld⟩ := hagain ⟨job, hjob, hsame, hstatus⟩
          exact absurd hkeyOld (hfree old hold).2

/-- **A recommendation for a stored finding of its job** keeps the account.
SRCLINE: apps/worker/src/processor.ts:125-140 -/
theorem JobsAccounted.upsertRecommendation {id : String} (h : JobsAccounted db)
    (hstored : ∃ stored ∈ db.findings, stored.id = id ∧
      keyOf stored = keyFor workspaceId jobId finding) :
    JobsAccounted ((DbOp.upsertRecommendation workspaceId jobId correlationId id finding now
      newId).exec db).2 where
  owned := by
    intro r hr
    rcases mem_recommendations_exec hr with hold | ⟨_, _, _, _, _, _, _, hop, hws, hid, hjob, -⟩
    · exact h.owned r hold
    · cases hop
      obtain ⟨stored, hmem, hstoredId, hkey⟩ := hstored
      exact ⟨stored, hmem, hstoredId.trans hid.symm, (congrArg (·.2.1) hkey).trans hjob.symm,
        (congrArg (·.1) hkey).trans hws.symm⟩
  counted := by
    intro job hjob hstatus
    obtain ⟨summary, hsome, hcounted⟩ := h.counted job hjob hstatus
    refine ⟨summary, hsome, hcounted.findings, hcounted.recommendations, ?_⟩
    intro stored hmem hstoredJob
    obtain ⟨r, hr, hws, hid⟩ := hcounted.recommended stored hmem hstoredJob
    obtain ⟨r', hr', -, hws', hid'⟩ := recommendations_stay (.upsertRecommendation workspaceId
      jobId correlationId id finding now newId) hr
    exact ⟨r', hr', hws'.trans hws, hid'.trans hid⟩

/-- What is stored for the job is what a program has upserted, one finding for each upsert. -/
structure WroteAll (jobId : String) (past : Past) (db : Database) : Prop where
  distinct : (upsertKeys past).Nodup
  stored : ∀ stored ∈ db.findings, stored.jobId = jobId → keyOf stored ∈ upsertKeys past

/-- **A completion counts what is stored** when its run has written all of it. -/
theorem counted_of_wroteAll {history : History} {db₀ : Database} {q : ℕ}
    {findings : List EngineFinding} {summary : JobResultSummary}
    (hchained : Pool.Chained database db₀ history db)
    (hkeys : upsertKeys (own q history) = findings.map (keyFor workspaceId jobId))
    (hwrote : ∀ finding ∈ findings, Wrote workspaceId jobId (own q history) finding)
    (hfindings : summary.findingsCreated = findings.length)
    (hrecommendations : summary.recommendationsCreated = findings.length)
    (hall : WroteAll jobId (own q history) db) : Counted db jobId summary := by
  have hcount : findings.length = findingCount db jobId := by
    have hstored : ((db.findings.filter fun f => f.jobId == jobId).map keyOf).Nodup :=
      db.findings.nodup_index.sublist (List.filter_sublist.map _)
    have hdistinct := hall.distinct
    rw [hkeys] at hdistinct
    have hperm := (List.perm_ext_iff_of_nodup hdistinct hstored).mpr fun key => ?_
    · have hlength := hperm.length_eq
      rw [List.length_map, List.length_map] at hlength
      exact hlength
    · rw [← hkeys]
      simp only [List.mem_map, Collection.mem_filter, beq_iff_eq]
      constructor
      · intro hkey
        rw [hkeys] at hkey
        obtain ⟨finding, hfinding, rfl⟩ := List.mem_map.mp hkey
        obtain ⟨id, hwritten, -⟩ := hwrote finding hfinding
        obtain ⟨stored, hmem, -, hstoredKey⟩ := hwritten.stored hchained
        exact ⟨stored, ⟨hmem, congrArg (·.2.1) hstoredKey⟩, hstoredKey⟩
      · rintro ⟨stored, ⟨hmem, hjob⟩, rfl⟩
        exact hall.stored stored hmem hjob
  refine ⟨hfindings.trans hcount, hrecommendations.trans hcount, ?_⟩
  intro stored hmem hjob
  have hkey := hall.stored stored hmem hjob
  rw [hkeys] at hkey
  obtain ⟨finding, hfinding, hkeyFor⟩ := List.mem_map.mp hkey
  obtain ⟨id, hwritten, hrecommended⟩ := hwrote finding hfinding
  obtain ⟨stored', hmem', hid, hkey'⟩ := hwritten.stored hchained
  obtain rfl := eq_of_key hmem' hmem (hkey'.trans hkeyFor)
  obtain ⟨r, hr, hws, hrid⟩ := hrecommended.stored hchained
  exact ⟨r, hr, hws.trans (congrArg (·.1) hkeyFor), hrid.trans hid.symm⟩

end Steps

/-! ## Runs -/

/-- A run completes its job when it has written everything that is stored for the job, and once
the job is completed no run writes a finding that is not stored yet. -/
structure SameFindings (s : WorkerPool) (e : PoolEvent) : Prop where
  completes : ∀ q jobId summary now, s.Performs e q (.completeJob jobId summary now) →
    WroteAll jobId (own q s.history) s.store
  upserts : ∀ q workspaceId jobId correlationId finding now newId,
    s.Performs e q (.upsertFinding workspaceId jobId correlationId finding now newId) →
      (∃ job ∈ s.store.jobs, job.id = jobId ∧ job.status = .completed) →
        ∃ stored ∈ s.store.findings, keyOf stored = keyFor workspaceId jobId finding

/-- In runs of these calls from the empty database under a guard, the summary of every completed
job agrees with the store. -/
def SummariesAgree (calls : ℕ → WorkerCall) (G : WorkerPool → PoolEvent → Prop) : Prop :=
  ∀ s, workers.Reaches G (Pool.initial .empty fun q => (calls q).program) s →
    ∀ job ∈ s.store.jobs, job.status = .completed → ∃ summary, job.resultSummary = some summary ∧
      summary.findingsCreated = findingCount s.store job.id ∧
      summary.recommendationsCreated = recommendationCount s.store job.id

/-- **Summaries agree with the store** in every run in which the completing run has written
everything that is stored for its job and no late run adds to it.
SRCLINE: apps/worker/src/processor.ts:24-154, packages/shared/src/observability/retry.ts:19-33,
packages/shared/src/jobs/queue.ts:47-64 -/
theorem summaries_agree (calls : ℕ → WorkerCall) : SummariesAgree calls SameFindings := by
  intro s hs job hjob hstatus
  have haccounted : JobsAccounted s.store := by
    refine Pool.invariant_of_performs (I := fun store _ => JobsAccounted store) hs ?_ ?_
    · exact ⟨fun r hr => absurd hr (Collection.not_mem_empty r),
        fun job hjob => absurd hjob (Collection.not_mem_empty job)⟩
    · intro t e q op ht hG hp h
      have hchained := Pool.chained_of_reaches ht
      have hstage : WorkerStage (own q t.history) op := by
        obtain ⟨k, hq⟩ := hp.next
        have hconforms := Pool.conforms_of_reaches (fun q => (calls q).program_emits) ht q
        rw [hq] at hconforms
        exact hconforms.next.stage
      change JobsAccounted (op.exec t.store).2
      cases hstage with
      | finding workspaceId jobId correlationId finding now newId =>
          exact h.upsertFinding (hG.upserts q _ _ _ _ _ _ hp)
      | recommendation workspaceId jobId correlationId id finding now newId hwrote =>
          exact h.upsertRecommendation (hwrote.stored hchained)
      | complete workspaceId jobId findings summary now hkeys hwrote hfindings hrecommendations =>
          have hcounted := counted_of_wroteAll hchained hkeys hwrote hfindings hrecommendations
            (hG.completes q _ _ _ hp)
          refine h.jobs rfl rfl fun job' hmem hcompleted => ?_
          rcases completed_exec hmem hcompleted with hold | ⟨summary', now', hop, hsome⟩ | hop
          · exact Or.inl hold
          · cases hop
            exact Or.inr ⟨_, hsome, hcounted⟩
          · cases hop
      | create job hpending =>
          refine h.jobs rfl rfl fun job' hmem hcompleted => ?_
          rcases completed_exec hmem hcompleted with hold | ⟨summary', now', hop, -⟩ | hop
          · exact Or.inl hold
          · cases hop
          · cases hop
            rw [hpending] at hcompleted
            cases hcompleted
      | plain op hop =>
          have hsame : (op.exec t.store).2.findings = t.store.findings ∧
              (op.exec t.store).2.recommendations = t.store.recommendations := by
            cases op <;> first | exact ⟨rfl, rfl⟩ | cases hop
          refine h.jobs hsame.1 hsame.2 fun job' hmem hcompleted => ?_
          rcases completed_exec hmem hcompleted with hold | ⟨summary', now', rfl, -⟩ | rfl
          · exact Or.inl hold
          · cases hop
          · cases hop
  obtain ⟨summary, hsome, hcounted⟩ := haccounted.counted job hjob hstatus
  refine ⟨summary, hsome, hcounted.findings, ?_⟩
  rw [recommendationCount_eq haccounted.owned hcounted.recommended]
  exact hcounted.recommendations

/-! ## A run that has timed out before the bucket was closed -/

/-- A bucket without tags, as the provider lists it. -/
def listedBucket (publicAccess : Bool) : ListedResource :=
  ⟨.mock, .s3, "eu-west-1", "arn:aws:s3:::assets", "assets", Dict.empty,
    ⟨some publicAccess, none, none, none, none, none, none⟩,
    ⟨none, none, none, none, none, none, none⟩⟩

/-- A request that syncs the bucket. -/
def syncBucket (publicAccess : Bool) (now : Time) (newId : String) : SyncCall :=
  ⟨⟨.mock, false, 900000⟩, "ws", "operator", "c-sync",
    ⟨none, none, .ok [⟨listedBucket publicAccess, now, newId⟩], now⟩⟩

/-- The diagnostics: public access first, and the missing tags of a private bucket. -/
def inspectBucket (resources : List CloudResource) : Except AppError DiagnosticEngineResult :=
  if resources.any fun r => r.config.publicAccess = some true then
    .ok ⟨bucketAnalysis.take 1⟩
  else .ok ⟨bucketAnalysis.drop 1⟩

/-- The draws of an attempt of a worker at an instant. -/
def attemptAt (q : ℕ) (workerId : String) (now : Time) : AttemptDraws :=
  ⟨workerId, "job-1", now, now, now, 0, (bucketRuns q).draws⟩

/-- The bucket is synced while it is public and again when it is private; in between a job is
created, and a first attempt of it times out. -/
def timedOutOnce : ℕ → WorkerCall
  | 0 => .sync (syncBucket true 0 "r-1")
  | 1 => .create ⟨⟨3, 20000⟩, "ws", "operator", "c-0", ⟨none, none, "job-key-1"⟩, ⟨"job-1", 0, 0⟩⟩
  | 2 => .processNextTimedOut ⟨30000, 3, 10, 20⟩ inspectBucket (attemptAt 2 "worker-1" 1)
  | 3 => .fail ⟨30000, 3, 10, 20⟩ "job-1" (failureOf jobTimedOut 20001) 0
    20001
  | 4 => .sync (syncBucket false 20002 "r-2")
  | _ => .processNext ⟨30000, 3, 10, 20⟩ inspectBucket (attemptAt 5 "worker-2" 30000)

/-- The timed-out run has written its finding; the second attempt completes the job. -/
def completedAfterTimeout : List PoolEvent :=
  [0, 0, 1, 1, 1, 2, 2, 2, 3, 3, 4, 4, 5, 5, 5, 5, 5, 5].map .run

/-- Whether a completed job counts another number of findings than are stored for it. -/
def miscounts (db : Database) (job : DiagnosticJob) : Bool :=
  job.status == .completed &&
    job.resultSummary.any fun summary => summary.findingsCreated != findingCount db job.id

/-- The summary of the second attempt counts one finding, and two are stored for the job.
SRCLINE: apps/worker/src/processor.ts:109-153, packages/shared/src/observability/retry.ts:19-33 -/
theorem summaries_do_not_agree : ¬ SummariesAgree timedOutOnce Machine.unguarded := by
  intro h
  let start : WorkerPool := Pool.initial .empty fun q => (timedOutOnce q).program
  let s := (workers.run start completedAfterTimeout).get (by decide +kernel)
  have hs : workers.Reaches Machine.unguarded start s :=
    Machine.reaches_of_run completedAfterTimeout (Option.some_get _).symm
  have hmiscounts : (s.store.jobs.docs.any (miscounts s.store)) = true := by decide +kernel
  obtain ⟨job, hjob, hmiscount⟩ := List.any_eq_true.mp hmiscounts
  simp only [miscounts, Bool.and_eq_true, beq_iff_eq] at hmiscount
  obtain ⟨hstatus, hsummary⟩ := hmiscount
  obtain ⟨summary, hsome, hfindings, -⟩ := h s hs job hjob hstatus
  rw [hsome, Option.any_some, hfindings] at hsummary
  simp at hsummary

/-! ## A run that has timed out and finds the same -/

/-- Whether a completion finds what its run has written, and an upsert for a completed job a
finding that is stored. -/
def sameFindings (s : WorkerPool) (q : ℕ) : DbOp → Bool
  | .completeJob jobId _ _ => decide (upsertKeys (own q s.history)).Nodup &&
    s.store.findings.docs.all fun stored =>
      decide (stored.jobId = jobId → keyOf stored ∈ upsertKeys (own q s.history))
  | .upsertFinding workspaceId jobId _ finding _ _ =>
    !(s.store.jobs.docs.any fun job => decide (job.id = jobId ∧ job.status = .completed)) ||
      s.store.findings.docs.any fun stored =>
        decide (keyOf stored = keyFor workspaceId jobId finding)
  | _ => true

/-- The check of the calls decides the condition. -/
theorem sameFindings_of_check (s : WorkerPool) (e : PoolEvent)
    (h : Pool.passes sameFindings s e = true) : SameFindings s e where
  completes := by
    intro q jobId summary now hp
    obtain ⟨hdistinct, hstored⟩ := Bool.and_eq_true_iff.mp (hp.passed h)
    exact ⟨of_decide_eq_true hdistinct, fun stored hmem =>
      of_decide_eq_true (List.all_eq_true.mp hstored stored hmem)⟩
  upserts := by
    rintro q workspaceId jobId correlationId finding now newId hp ⟨job, hjob, hcompleted⟩
    rcases Bool.or_eq_true_iff.mp (hp.passed h) with hnone | hsome
    · have hany : s.store.jobs.docs.any (fun job => decide (job.id = jobId ∧
          job.status = .completed)) = true :=
        List.any_eq_true.mpr ⟨job, hjob, decide_eq_true hcompleted⟩
      rw [hany] at hnone
      cases hnone
    · obtain ⟨stored, hmem, hkey⟩ := List.any_eq_true.mp hsome
      exact ⟨stored, hmem, of_decide_eq_true hkey⟩

/-- The bucket stays public: the timed-out run has written its finding, the second attempt writes it
again and completes the job, and then the timed-out run goes on. -/
def foundTwice : List PoolEvent :=
  [0, 0, 1, 1, 1, 2, 2, 2, 3, 3, 5, 5, 5, 5, 5, 5, 2].map .run

/-- The calls after that. -/
def foundTwicePool : WorkerPool :=
  (workers.runChecked (Pool.passes sameFindings)
    (Pool.initial .empty fun q => (timedOutOnce q).program) foundTwice).get (by decide +kernel)

/-- The completed job counts its one finding and its one recommendation. -/
theorem summaries_agree_foundTwice : ∃ job ∈ foundTwicePool.store.jobs, job.status = .completed ∧
    findingCount foundTwicePool.store job.id = 1 ∧ ∃ summary, job.resultSummary = some summary ∧
      summary.findingsCreated = findingCount foundTwicePool.store job.id ∧
      summary.recommendationsCreated = recommendationCount foundTwicePool.store job.id := by
  have hs : workers.Reaches SameFindings
      (Pool.initial .empty fun q => (timedOutOnce q).program) foundTwicePool :=
    Machine.reaches_of_runChecked sameFindings_of_check foundTwice (Option.some_get _).symm
  have hjobs : foundTwicePool.store.jobs.docs.map (fun job =>
      (job.status, findingCount foundTwicePool.store job.id)) = [(.completed, 1)] := by
    decide +kernel
  obtain ⟨job, hjob, heq⟩ := List.mem_map.mp (hjobs ▸ List.mem_singleton_self _)
  have hstatus : job.status = .completed := congrArg Prod.fst heq
  exact ⟨job, hjob, hstatus, congrArg Prod.snd heq,
    summaries_agree timedOutOnce foundTwicePool hs job hjob hstatus⟩

end CloudOps.Analysis
