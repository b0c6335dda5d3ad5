import CloudOps.Analysis.JobSteps

/-!
# Terminal job states

`heartbeat` filters on the status and the owner of the job, `retry` checks the status it
read; `complete` and `fail` address the job by its id alone. A late call therefore writes
over a finished job: `terminalJobs_not_absorbing` is a run in which a worker whose lease
has run out fails a job that its successor has completed, and the job is queued again.

`terminalJobs_absorbing` is the positive half. As long as `complete` and `fail` write to
jobs that are still open, and a `retry` saves over the dead-lettered job it read, a
finished job keeps its status, summary, error and completion time until it is retried.
-/

set_option autoImplicit false

namespace CloudOps.Analysis

open CloudOps.Computation CloudOps.Model
open Machine (unguarded)

/-- The part of a job that says how it ended. -/
def outcome (job : DiagnosticJob) :
    JobStatus × Option JobResultSummary × Option StructuredFailure × Option Time :=
  (job.status, job.resultSummary, job.lastError, job.completedAt)

/-- Event `e` saves a manual retry over job `id`, which is dead-lettered. -/
def RetriesDeadLettered (id : String) (s : JobStore) (e : JobEvent) : Prop :=
  ∃ i call job, e = .retrySave i ∧ s.retryCalls[i]? = some call ∧ call.loaded.id = id ∧
    s.jobs.get? id = some job ∧ job.status = .deadLettered

/-- In runs under the guard `G` a finished job keeps its outcome, through any events but a
manual retry of it while it is dead-lettered. -/
def TerminalJobsAbsorbing (cfg : JobQueueConfig) (G : JobStore → JobEvent → Prop) : Prop :=
  ∀ now s t job, (jobStore cfg).Reaches G (JobStore.initial now) s → job ∈ s.jobs →
    job.status.isTerminal = true →
    (jobStore cfg).Reaches (fun s e => G s e ∧ ¬ RetriesDeadLettered job.id s e) s t →
      ∃ job' ∈ t.jobs, job'.id = job.id ∧ outcome job' = outcome job

/-- The condition on a step: `complete` and the write of `fail` land on a job that is not
finished, the save of `retry` on a job that is still dead-lettered. -/
def LandsOnExpectedStatus (s : JobStore) : JobEvent → Prop
  | .complete e _ => ∀ ex job, s.executions[e]? = some ex → s.jobs.get? ex.jobId = some job →
      job.status.isTerminal = false
  | .failWrite i _ => ∀ call job, s.failCalls[i]? = some call →
      s.jobs.get? call.jobId = some job → job.status.isTerminal = false
  | .retrySave i => ∀ call job, s.retryCalls[i]? = some call →
      s.jobs.get? call.loaded.id = some job → job.status = .deadLettered
  | _ => True

variable {cfg : JobQueueConfig} {s s' : JobStore} {e : JobEvent}

/-- **One step keeps the outcome of a finished job**, when it lands on the status it relies
on and does not retry the job.
SRCLINE: packages/shared/src/jobs/queue.ts:47-101 -/
theorem outcome_write {id : String} {job job' : DiagnosticJob} {n : ℕ}
    (hget : s.jobs.get? id = some job) (hw : JobWrite cfg s job e job' n)
    (hterm : job.status.isTerminal = true) (hG : LandsOnExpectedStatus s e)
    (hretry : ¬ RetriesDeadLettered id s e) : outcome job' = outcome job := by
  obtain rfl := (Collection.get?_eq_some_iff.mp hget).2
  cases hw with
  | same => rfl
  | claim workerId hfilter =>
      cases hs : job.status <;>
        simp_all [claimFilter, JobStatus.isQueued, JobStatus.isTerminal]
  | heartbeat i ex _ _ hfilter =>
      cases hs : job.status <;> simp_all [heartbeatFilter, JobStatus.isTerminal]
  | complete i ex summary hex hid =>
      have hopen := hG ex job hex (hid ▸ hget)
      rw [hterm] at hopen; cases hopen
  | fail i call random hcall hid =>
      have hopen := hG call job hcall (hid ▸ hget)
      rw [hterm] at hopen; cases hopen
  | recover hfilter =>
      cases hs : job.status <;> simp_all [recoverFilter, JobStatus.isTerminal]
  | retry i call hcall hid =>
      have hdead := hG call job hcall (hid ▸ hget)
      exact absurd ⟨i, call, job, rfl, hcall, hid, hget, hdead⟩ hretry

/-- **Terminal states are absorbing** in every run whose `complete` and `fail` writes land
on open jobs and whose retries save over the dead-lettered job they read.
SRCLINE: packages/shared/src/jobs/queue.ts:47-101, apps/api/src/services/job-service.ts:81-104 -/
theorem terminalJobs_absorbing (cfg : JobQueueConfig) :
    TerminalJobsAbsorbing cfg LandsOnExpectedStatus := by
  intro now s t job _ hmem hterm hrun
  have hkeep : ∃ job', t.jobs.get? job.id = some job' ∧ outcome job' = outcome job := by
    refine hrun.invariant
      (I := fun t => ∃ job', t.jobs.get? job.id = some job' ∧ outcome job' = outcome job)
      ⟨job, Collection.get?_id hmem, rfl⟩ ?_
    rintro u e u' ⟨cur, hcur, hout⟩ ⟨hG, hretry⟩ hstep
    obtain ⟨next, hnext, hw⟩ := get?_step_of_some hstep hcur
    have hstatus : cur.status = job.status := congrArg Prod.fst hout
    exact ⟨next, hnext, (outcome_write hcur hw (hstatus ▸ hterm) hG hretry).trans hout⟩
  obtain ⟨job', hget, hout⟩ := hkeep
  obtain ⟨hmem', hid⟩ := Collection.get?_eq_some_iff.mp hget
  exact ⟨job', hmem', hid, hout⟩

/-- A late `fail` queues a completed job again: the first worker loses its lease, its
successor completes the job, then the call of the first one arrives.
SRCLINE: packages/shared/src/jobs/queue.ts:66-101 -/
theorem terminalJobs_not_absorbing :
    ¬ TerminalJobsAbsorbing ⟨30000, 5, 500, 15000⟩ unguarded := by
  intro h
  obtain ⟨job', hmem, _, hout⟩ := h 0 _ _ _
    (Machine.reaches_of_run [
      .create ⟨5, 20000⟩ "job-1" "ws" "operator" "c-1" ⟨none, none, "key-00001"⟩,
      .claim "worker-1" "job-1", .tick 30000, .recoverAbandoned,
      .claim "worker-2" "job-1", .complete 1 ⟨3, 2, 2⟩] rfl)
    (List.mem_singleton.mpr rfl) rfl
    (Machine.reaches_of_run_guarded [
      .failRead 0 ⟨"TIMEOUT", "Job execution timed out", true, none, 30000⟩,
      .failWrite 0 0] rfl (by
        rintro e he s
        refine ⟨trivial, ?_⟩
        rintro ⟨i, call, job, rfl, _⟩
        simp at he))
  obtain rfl := List.mem_singleton.mp hmem
  exact absurd (congrArg Prod.fst hout) (by decide)

/-! ## A completed job beside one that is retried -/

/-- Whether a step lands on the status it relies on. -/
def landsOnExpectedStatus (s : JobStore) : JobEvent → Bool
  | .complete e _ => s.executions[e]?.all fun ex =>
    (s.jobs.get? ex.jobId).all fun job => !job.status.isTerminal
  | .failWrite i _ => s.failCalls[i]?.all fun call =>
    (s.jobs.get? call.jobId).all fun job => !job.status.isTerminal
  | .retrySave i => s.retryCalls[i]?.all fun call =>
    (s.jobs.get? call.loaded.id).all fun job => decide (job.status = .deadLettered)
  | _ => true

/-- The check decides the condition. -/
theorem landsOnExpectedStatus_of_check (s : JobStore) (e : JobEvent)
    (h : landsOnExpectedStatus s e = true) : LandsOnExpectedStatus s e := by
  cases e with
  | complete i summary =>
      intro ex job hex hget
      simpa [landsOnExpectedStatus, hex, hget] using h
  | failWrite i random =>
      intro call job hcall hget
      simpa [landsOnExpectedStatus, hcall, hget] using h
  | retrySave i =>
      intro call job hcall hget
      simpa [landsOnExpectedStatus, hcall, hget] using h
  | _ => trivial

/-- Whether a step retries no job with this id. -/
def retriesOther (id : String) (s : JobStore) : JobEvent → Bool
  | .retrySave i => s.retryCalls[i]?.all fun call => decide (call.loaded.id ≠ id)
  | _ => true

/-- The check decides that the job is not retried. -/
theorem not_retries_of_check {id : String} {s : JobStore} {e : JobEvent}
    (h : retriesOther id s e = true) : ¬ RetriesDeadLettered id s e := by
  rintro ⟨i, call, job, rfl, hcall, hid, -, -⟩
  simp only [retriesOther, hcall, Option.all_some, decide_eq_true_eq] at h
  exact h hid

/-- One job is completed, another one is dead-lettered. -/
def oneOfEach : List JobEvent :=
  [.create ⟨5, 20000⟩ "job-1" "ws" "operator" "c-1" ⟨none, none, "key-00001"⟩,
    .create ⟨1, 20000⟩ "job-2" "ws" "operator" "c-2" ⟨none, none, "key-00002"⟩,
    .claim "worker-1" "job-1", .claim "worker-2" "job-2", .complete 0 ⟨3, 2, 2⟩,
    .failRead 1 ⟨"TIMEOUT", "Job execution timed out", true, none, 0⟩, .failWrite 0 0]

/-- The dead-lettered one is retried and completed, while the first worker beats on. -/
def retriedBeside : List JobEvent :=
  [.heartbeat 0, .retryRead "ws" "job-2", .retrySave 0, .tick 30000, .recoverAbandoned,
    .claim "worker-3" "job-2", .heartbeat 0, .complete 2 ⟨1, 1, 1⟩]

/-- The store when both jobs have ended. -/
def endedStore : JobStore :=
  ((jobStore ⟨30000, 5, 500, 15000⟩).runChecked landsOnExpectedStatus (JobStore.initial 0)
    oneOfEach).get (by decide +kernel)

/-- The store when the second one has been retried. -/
def retriedStore : JobStore :=
  ((jobStore ⟨30000, 5, 500, 15000⟩).runChecked
    (fun s e => landsOnExpectedStatus s e && retriesOther "job-1" s e) endedStore
    retriedBeside).get (by decide +kernel)

/-- The first job keeps the outcome it had before the second was retried. -/
theorem terminalJobs_absorbing_beside : ∃ job ∈ endedStore.jobs, ∃ job' ∈ retriedStore.jobs,
    job.id = "job-1" ∧ job.resultSummary = some ⟨3, 2, 2⟩ ∧ job'.id = job.id ∧
      outcome job' = outcome job ∧
      retriedStore.jobs.docs.map (·.status) = [.completed, .completed] := by
  have hs : (jobStore ⟨30000, 5, 500, 15000⟩).Reaches LandsOnExpectedStatus (JobStore.initial 0)
      endedStore :=
    Machine.reaches_of_runChecked landsOnExpectedStatus_of_check oneOfEach
      (Option.some_get _).symm
  have ht : (jobStore ⟨30000, 5, 500, 15000⟩).Reaches
      (fun s e => LandsOnExpectedStatus s e ∧ ¬ RetriesDeadLettered "job-1" s e) endedStore
      retriedStore := by
    refine Machine.reaches_of_runChecked (fun s e h => ?_) retriedBeside (Option.some_get _).symm
    obtain ⟨hlands, hother⟩ := Bool.and_eq_true_iff.mp h
    exact ⟨landsOnExpectedStatus_of_check s e hlands, not_retries_of_check hother⟩
  have hended : endedStore.jobs.docs.map (fun job => (job.id, job.status, job.resultSummary)) =
      [("job-1", .completed, some ⟨3, 2, 2⟩), ("job-2", .deadLettered, none)] := by
    decide +kernel
  obtain ⟨job, hjob, heq⟩ := List.mem_map.mp (hended ▸ List.mem_cons_self)
  obtain ⟨hid, hrest⟩ := Prod.mk.inj heq
  obtain ⟨hstatus, hsummary⟩ := Prod.mk.inj hrest
  obtain ⟨job', hjob', hid', hout⟩ := terminalJobs_absorbing _ 0 endedStore retriedStore job hs hjob
    (by rw [hstatus]; rfl) (by rw [hid]; exact ht)
  exact ⟨job, hjob, job', hjob', hid, hsummary, hid', hout, by decide +kernel⟩

end CloudOps.Analysis
