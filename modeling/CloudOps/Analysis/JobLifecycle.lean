import CloudOps.Analysis.JobSteps

/-!
# Every job keeps the fields of its status and stays recoverable

The queue has no transactions; seven operations write subsets of the same fields, and two
of them read first and write later. Still no interleaving produces a job that neither the
claim filter nor the recovery filter matches: whichever write clears a field also sets the
status that allows it to be empty.

* `CarriesFields job` is the invariant of one document, kept by every write
  (`carriesFields_write`); a stale `retry` is the delicate one, and it goes through because
  a `retry` only passes its check on a status other than `pending`, so its save always
  writes `pending` (`retrySave_status`).
* `Recoverable` follows from it pointwise (`recoverable_of_carriesFields`).
-/

set_option autoImplicit false

namespace CloudOps.Analysis

open CloudOps.Computation CloudOps.Model
open Machine (unguarded)

/-- The statuses a stored job can have, and the fields each of them carries. -/
structure CarriesFields (job : DiagnosticJob) : Prop where
  status : job.status ∈ [JobStatus.pending, .running, .retryWait, .completed, .deadLettered]
  running : job.status = .running → job.claimedBy.isSome ∧ job.leaseUntil.isSome
  completed : job.status = .completed → job.resultSummary.isSome ∧ job.completedAt.isSome ∧
    job.leaseUntil = none ∧ job.lastError = none
  deadLettered : job.status = .deadLettered → job.lastError.isSome ∧ job.completedAt.isSome ∧
    job.leaseUntil = none

/-- From any instant on at which the job is due and its lease, if any, is over, a recovery
followed by a claim at that instant or later gets the job. -/
def Recoverable (cfg : JobQueueConfig) (jobs : Collection DiagnosticJob) (job : DiagnosticJob) :
    Prop :=
  ∀ now, job.nextRunAt ≤ now → (∀ leaseUntil, job.leaseUntil = some leaseUntil → leaseUntil ≤ now) →
    ∀ claimedAt, now ≤ claimedAt → ∀ workerId,
      (JobQueue.claim cfg (JobQueue.recoverAbandoned jobs now) workerId claimedAt job.id).isSome

/-- A `retry` in flight has read a status other than `pending`. -/
def RetriesRead (s : JobStore) : Prop :=
  ∀ call ∈ s.retryCalls, retryable call.loaded.status = true

variable {cfg : JobQueueConfig} {s s' : JobStore} {e : JobEvent}

/-! ## The calls in flight -/

/-- The retries in flight after a step were in flight before or have just passed the status
check.
SRCLINE: apps/api/src/services/job-service.ts:81-88 -/
theorem retriesRead_step (h : JobStore.step cfg s e = some s') (hs : RetriesRead s) :
    RetriesRead s' := by
  intro call hcall
  cases e with
  | retryRead workspaceId id =>
      obtain ⟨job, _, _, hstatus, rfl⟩ := retryRead_eq_some h
      rcases List.mem_append.mp hcall with hcall | hcall
      · exact hs call hcall
      · obtain rfl := List.mem_singleton.mp hcall
        exact hstatus
  | retrySave i =>
      simp only [JobStore.step, Option.map_eq_some_iff] at h
      obtain ⟨saved, _, rfl⟩ := h
      exact hs call (List.mem_of_mem_eraseIdx hcall)
  | claim workerId jobId =>
      obtain ⟨_, _, _, rfl⟩ := claim_eq_some h
      exact hs call hcall
  | heartbeat i =>
      simp only [JobStore.step, Option.map_eq_some_iff] at h
      obtain ⟨ex, _, rfl⟩ := h
      rcases heartbeat_cases cfg s i ex with ⟨_, _, _, heq⟩ | heq <;>
      · rw [heq] at hcall
        exact hs call hcall
  | create svc id workspaceId actorId correlationId input =>
      simp only [JobStore.step, Option.map_eq_some_iff] at h
      obtain ⟨_, _, rfl⟩ := h
      exact hs call hcall
  | complete i summary =>
      simp only [JobStore.step, Option.map_eq_some_iff] at h
      obtain ⟨_, _, rfl⟩ := h
      exact hs call hcall
  | failRead i error =>
      simp only [JobStore.step, Option.map_eq_some_iff] at h
      obtain ⟨_, _, rfl⟩ := h
      exact hs call hcall
  | failWrite i random =>
      simp only [JobStore.step, Option.map_eq_some_iff] at h
      obtain ⟨_, _, rfl⟩ := h
      exact hs call hcall
  | tick ms => cases h; exact hs call hcall
  | recoverAbandoned => cases h; exact hs call hcall

/-! ## One write -/

/-- A `retry` that passed its check always writes the status.
SRCLINE: apps/api/src/services/job-service.ts:84-88 -/
theorem retrySave_status {call : RetryCall} (h : retryable call.loaded.status = true)
    (stored : DiagnosticJob) : (retrySave call stored).status = .pending := by
  have hne : JobStatus.pending ≠ call.loaded.status := by
    intro heq
    rw [← heq] at h
    simp [retryable] at h
  simp [retrySave, savedField, hne]

/-- A job as `create` inserts it carries its fields.
SRCLINE: apps/api/src/services/job-service.ts:29-42 -/
theorem carriesFields_newJob {now : Time} {job : DiagnosticJob} (h : IsNewJob now e job) :
    CarriesFields job := by
  obtain ⟨svc, id, workspaceId, actorId, correlationId, input, -, rfl⟩ := h
  constructor <;> simp [JobService.newJob]

/-- Every write of the store keeps `CarriesFields`.
SRCLINE: packages/shared/src/jobs/queue.ts:15-119 -/
theorem carriesFields_write {job job' : DiagnosticJob} {n : ℕ} (hw : JobWrite cfg s job e job' n)
    (hretries : RetriesRead s) (hjob : CarriesFields job) : CarriesFields job' := by
  cases hw with
  | same => exact hjob
  | claim workerId _ => constructor <;> simp [claimUpdate]
  | heartbeat i ex _ _ hfilter =>
      have hrun : job.status = .running := by
        simp only [heartbeatFilter, Bool.and_eq_true, beq_iff_eq] at hfilter
        exact hfilter.2
      have hclaimed := (hjob.running hrun).1
      constructor <;> simp [heartbeatUpdate, hrun, hclaimed]
  | complete i ex summary _ _ => constructor <;> simp [completeUpdate]
  | fail i call random _ _ =>
      unfold failUpdate
      split <;> constructor <;> simp
  | recover _ => constructor <;> simp [recoverUpdate]
  | retry i call hcall _ =>
      have hstatus := retrySave_status (hretries call (List.mem_of_getElem? hcall)) job
      constructor <;> simp [hstatus]

/-! ## Recovery -/

/-- A job that carries its fields and is not finished is recoverable: recovery leaves it in
a queued status, due and without a lease that still runs.
SRCLINE: packages/shared/src/jobs/queue.ts:103-119 -/
theorem recoverable_of_carriesFields {jobs : Collection DiagnosticJob} {job : DiagnosticJob}
    (hmem : job ∈ jobs) (hjob : CarriesFields job) (hopen : job.status.isTerminal = false) :
    Recoverable cfg jobs job := by
  intro now hdue hlease claimedAt hle workerId
  have hget : (JobQueue.recoverAbandoned jobs now).get? job.id =
      some (if recoverFilter now job then recoverUpdate now job else job) := by
    have hself : jobs.get? job.id = some job := Collection.get?_id hmem
    rw [JobQueue.recoverAbandoned, Collection.get?_updateMany, hself, Option.map_some]
  have hclaimable : claimFilter claimedAt
      (if recoverFilter now job then recoverUpdate now job else job) = true := by
    by_cases hrun : job.status = .running
    · -- a running job has a lease, and that lease is over
      obtain ⟨leaseUntil, hl⟩ := Option.isSome_iff_exists.mp (hjob.running hrun).2
      have hover := hlease leaseUntil hl
      have hfilter : recoverFilter now job = true := by simp [recoverFilter, hrun, hl, hover]
      simp [hfilter, claimFilter, recoverUpdate, JobStatus.isQueued, hle]
    · have hfilter : recoverFilter now job = false := by simp [recoverFilter, hrun]
      have hqueued : job.status.isQueued = true := by
        have hstatus := hjob.status
        cases hs : job.status <;> simp_all [JobStatus.isTerminal, JobStatus.isQueued]
      have hdue' : job.nextRunAt ≤ claimedAt := hdue.trans hle
      cases hl : job.leaseUntil with
      | none => simp [hfilter, claimFilter, hqueued, hdue', hl]
      | some leaseUntil =>
          have hover : leaseUntil ≤ claimedAt := (hlease leaseUntil hl).trans hle
          simp [hfilter, claimFilter, hqueued, hdue', hl, hover]
  simp [JobQueue.claim, hget, hclaimable]

/-! ## Every run -/

/-- The invariant of the store: its documents carry their fields and its retries in flight
have passed their check. -/
theorem carriesFields_run {now : Time}
    (h : (jobStore cfg).Reaches unguarded (JobStore.initial now) s) :
    (∀ job ∈ s.jobs, CarriesFields job) ∧ RetriesRead s := by
  refine h.invariant (I := fun s => (∀ job ∈ s.jobs, CarriesFields job) ∧ RetriesRead s)
    ⟨?_, ?_⟩ ?_
  · intro job hjob
    exact absurd hjob (Collection.not_mem_empty job)
  · intro call hcall
    exact absurd hcall List.not_mem_nil
  · rintro s e s' ⟨hjobs, hretries⟩ - hstep
    refine ⟨fun job' hjob' => ?_, retriesRead_step hstep hretries⟩
    rcases step_job hstep hjob' with ⟨job, hjob, hw⟩ | hnew
    · exact carriesFields_write hw hretries (hjobs job hjob)
    · exact carriesFields_newJob hnew

/-- **No job is stranded**: in every state any interleaving reaches, every stored job has
one of the five statuses with the fields that status carries, and every job that is neither
completed nor dead-lettered can be recovered and claimed.
SRCLINE: packages/shared/src/jobs/queue.ts:15-119, apps/api/src/services/job-service.ts:15-104 -/
theorem jobStore_no_job_stranded (now : Time)
    (h : (jobStore cfg).Reaches unguarded (JobStore.initial now) s) :
    ∀ job ∈ s.jobs, CarriesFields job ∧
      (job.status.isTerminal = false → Recoverable cfg s.jobs job) := by
  intro job hjob
  have hfields := (carriesFields_run h).1 job hjob
  exact ⟨hfields, recoverable_of_carriesFields hjob hfields⟩

/-- The theorem on a run of a creation and a claim: the running job is recoverable. -/
theorem jobStore_no_job_stranded_running :
    ∃ (cfg : JobQueueConfig) (s : JobStore), ∃ job ∈ s.jobs, job.status = .running ∧
      CarriesFields job ∧ (job.status.isTerminal = false → Recoverable cfg s.jobs job) := by
  refine ⟨⟨30000, 5, 500, 15000⟩, _, _, List.mem_singleton.mpr rfl, ?_,
    jobStore_no_job_stranded 0 (Machine.reaches_of_run [
      .create ⟨5, 20000⟩ "job-1" "ws" "operator" "c-1" ⟨none, none, "key-00001"⟩,
      .claim "worker-1" "job-1"] rfl) _ (List.mem_singleton.mpr rfl)⟩
  rfl

end CloudOps.Analysis
