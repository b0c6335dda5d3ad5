import CloudOps.Model.JobQueue

/-!
# What one step of the job store does to one job

`JobWrite cfg s e job job'` lists the writes event `e` can make to a stored job in state
`s`; `step_job` says that every document after a step is the result of such a write or was
just created, and `get?_step` reads the same off the lookup by id. Every invariant of the
store is a case analysis over these seven writes, and no later proof unfolds `step` to look
at the documents again.
-/

set_option autoImplicit false

namespace CloudOps.Analysis

open CloudOps.Computation CloudOps.Model

/-- The writes event `e` can make to the stored document `job` in state `s`, with the number
of times the job has then been handed out since its last manual retry. -/
inductive JobWrite (cfg : JobQueueConfig) (s : JobStore) (job : DiagnosticJob) :
    JobEvent → DiagnosticJob → ℕ → Prop
  | same (e : JobEvent) : JobWrite cfg s job e job (s.handOuts job.id)
  | claim (workerId : String) (h : claimFilter s.now job = true) :
      JobWrite cfg s job (.claim workerId job.id) (claimUpdate cfg workerId s.now job)
        (s.handOuts job.id + 1)
  | heartbeat (e : ℕ) (ex : Execution) (hex : s.executions[e]? = some ex)
      (hid : ex.jobId = job.id) (h : heartbeatFilter ex.workerId job = true) :
      JobWrite cfg s job (.heartbeat e) (heartbeatUpdate cfg s.now job) (s.handOuts job.id)
  | complete (e : ℕ) (ex : Execution) (summary : JobResultSummary)
      (hex : s.executions[e]? = some ex) (hid : ex.jobId = job.id) :
      JobWrite cfg s job (.complete e summary) (completeUpdate summary s.now job)
        (s.handOuts job.id)
  | fail (i : ℕ) (call : FailCall) (random : ℚ) (hcall : s.failCalls[i]? = some call)
      (hid : call.jobId = job.id) :
      JobWrite cfg s job (.failWrite i random) (failUpdate cfg call random s.now job)
        (s.handOuts job.id)
  | recover (h : recoverFilter s.now job = true) :
      JobWrite cfg s job .recoverAbandoned (recoverUpdate s.now job) (s.handOuts job.id)
  | retry (i : ℕ) (call : RetryCall) (hcall : s.retryCalls[i]? = some call)
      (hid : call.loaded.id = job.id) :
      JobWrite cfg s job (.retrySave i) (retrySave call job) 0

/-- `job` is the document that event `e` inserts for `JobService.create`. -/
def IsNewJob (now : Time) (e : JobEvent) (job : DiagnosticJob) : Prop :=
  ∃ (svc : JobService) (id workspaceId actorId correlationId : String) (input : CreateJobInput),
    e = .create svc id workspaceId actorId correlationId input ∧
      job = svc.newJob id workspaceId actorId correlationId input now

variable {cfg : JobQueueConfig} {s s' : JobStore} {e : JobEvent}

/-- The lookup by id finds a job with that id. -/
theorem id_of_get? {jobs : Collection DiagnosticJob} {id : String} {job : DiagnosticJob}
    (h : jobs.get? id = some job) : job.id = id :=
  (Collection.get?_eq_some_iff.mp h).2

/-- What a successful claim of the store consists of.
SRCLINE: packages/shared/src/jobs/queue.ts:15-35 -/
theorem claim_eq_some {workerId jobId : String} (h : s.claim cfg workerId jobId = some s') :
    ∃ job, s.jobs.get? jobId = some job ∧ claimFilter s.now job = true ∧
      s' = { s with
        jobs := s.jobs.update jobId (claimUpdate cfg workerId s.now)
        executions := s.executions ++ [⟨jobId, workerId, s.now + cfg.leaseMs, false⟩]
        handOuts := Function.update s.handOuts jobId (s.handOuts jobId + 1) } := by
  simp only [JobStore.claim, JobQueue.claim, Option.map_eq_some_iff] at h
  obtain ⟨jobs, hjobs, rfl⟩ := h
  split at hjobs
  · cases hjobs
  · next job hjob =>
    split at hjobs
    · next hfilter =>
      cases hjobs
      exact ⟨job, hjob, hfilter, rfl⟩
    · cases hjobs

/-- A heartbeat either matches its job and renews both leases, or changes nothing.
SRCLINE: packages/shared/src/jobs/queue.ts:37-45 -/
theorem heartbeat_cases (cfg : JobQueueConfig) (s : JobStore) (i : ℕ) (ex : Execution) :
    (∃ job, s.jobs.get? ex.jobId = some job ∧ heartbeatFilter ex.workerId job = true ∧
      s.heartbeat cfg i ex = { s with
        jobs := s.jobs.update ex.jobId (heartbeatUpdate cfg s.now)
        executions := s.executions.set i { ex with leaseEnd := s.now + cfg.leaseMs } }) ∨
      s.heartbeat cfg i ex = s := by
  unfold JobStore.heartbeat
  split
  · exact Or.inr rfl
  · next job hjob =>
    split
    · next hfilter => exact Or.inl ⟨job, hjob, hfilter, rfl⟩
    · exact Or.inr rfl

/-- What a `retry` that passes its checks has read.
SRCLINE: apps/api/src/services/job-service.ts:81-88 -/
theorem retryRead_eq_some {workspaceId id : String} (h : s.retryRead workspaceId id = some s') :
    ∃ job ∈ s.jobs, job.id = id ∧ retryable job.status = true ∧
      s' = { s with retryCalls := s.retryCalls ++ [⟨job, s.now⟩] } := by
  unfold JobStore.retryRead at h
  split at h
  · cases h
  · next job hjob =>
    split at h
    · next hstatus =>
      cases h
      obtain ⟨hmem, hid⟩ := Collection.mem_of_find? hjob
      simp only [Bool.and_eq_true, decide_eq_true_eq] at hid
      exact ⟨job, hmem, hid.1, hstatus, rfl⟩
    · cases h

/-- **The step lemma of the job store**: the document with a given id after a step is a
`JobWrite` of the one before, or was created by the step.
SRCLINE: packages/shared/src/jobs/queue.ts:15-119 -/
theorem get?_step (h : JobStore.step cfg s e = some s') (id : String) {job' : DiagnosticJob}
    (hjob' : s'.jobs.get? id = some job') :
    (∃ job, s.jobs.get? id = some job ∧ JobWrite cfg s job e job' (s'.handOuts id)) ∨
      (s.jobs.get? id = none ∧ s'.handOuts id = s.handOuts id ∧ IsNewJob s.now e job') := by
  -- the steps that leave this job alone
  have untouched (hjobs : s'.jobs.get? id = s.jobs.get? id)
      (hhand : s'.handOuts id = s.handOuts id) :
      ∃ job, s.jobs.get? id = some job ∧ JobWrite cfg s job e job' (s'.handOuts id) := by
    rw [hjobs] at hjob'
    obtain rfl := id_of_get? hjob'
    exact ⟨job', hjob', hhand ▸ .same e⟩
  cases e with
  | tick ms => cases h; exact Or.inl (untouched rfl rfl)
  | create svc newId workspaceId actorId correlationId input =>
      simp only [JobStore.step, Option.map_eq_some_iff] at h
      obtain ⟨jobs, hins, rfl⟩ := h
      by_cases hid : id = newId
      · subst hid
        have hnone := Collection.get?_eq_none_of_insert? hins
        have hself := Collection.get?_insert?_self hins
        exact Or.inr ⟨hnone, rfl, svc, id, workspaceId, actorId, correlationId, input, rfl,
          Option.some.inj (hjob'.symm.trans hself)⟩
      · exact Or.inl (untouched (Collection.get?_insert?_ne hins hid) rfl)
  | claim workerId jobId =>
      obtain ⟨job, hget, hfilter, rfl⟩ := claim_eq_some h
      by_cases hid : id = jobId
      · subst hid
        rw [Collection.get?_update_self, hget] at hjob'
        obtain rfl := id_of_get? hget
        cases hjob'
        exact Or.inl ⟨job, hget, by simpa using JobWrite.claim workerId hfilter⟩
      · exact Or.inl (untouched (by rw [Collection.get?_update_ne hid]) (by simp [hid]))
  | heartbeat i =>
      simp only [JobStore.step, Option.map_eq_some_iff] at h
      obtain ⟨ex, hex, rfl⟩ := h
      rcases heartbeat_cases cfg s i ex with ⟨job, hget, hfilter, heq⟩ | heq
      · rw [heq] at hjob' untouched ⊢
        by_cases hid : id = ex.jobId
        · subst hid
          rw [Collection.get?_update_self, hget] at hjob'
          cases hjob'
          have hid := id_of_get? hget
          exact Or.inl ⟨job, hget, hid ▸ .heartbeat i ex hex hid.symm hfilter⟩
        · exact Or.inl (untouched (by rw [Collection.get?_update_ne hid]) rfl)
      · exact Or.inl (untouched (by rw [heq]) (by rw [heq]))
  | complete i summary =>
      simp only [JobStore.step, Option.map_eq_some_iff] at h
      obtain ⟨ex, hex, rfl⟩ := h
      by_cases hid : id = ex.jobId
      · subst hid
        simp only [JobStore.complete, Collection.get?_update_self, Option.map_eq_some_iff] at hjob'
        obtain ⟨job, hget, rfl⟩ := hjob'
        have hid := id_of_get? hget
        exact Or.inl ⟨job, hget, hid ▸ .complete i ex summary hex hid.symm⟩
      · exact Or.inl (untouched (by rw [JobStore.complete, Collection.get?_update_ne hid]) rfl)
  | failRead i error =>
      simp only [JobStore.step, Option.map_eq_some_iff] at h
      obtain ⟨ex, _, rfl⟩ := h
      exact Or.inl (untouched rfl rfl)
  | failWrite i random =>
      simp only [JobStore.step, Option.map_eq_some_iff] at h
      obtain ⟨call, hcall, rfl⟩ := h
      by_cases hid : id = call.jobId
      · subst hid
        simp only [JobStore.failWrite, Collection.get?_update_self, Option.map_eq_some_iff] at hjob'
        obtain ⟨job, hget, rfl⟩ := hjob'
        have hid := id_of_get? hget
        exact Or.inl ⟨job, hget, hid ▸ .fail i call random hcall hid.symm⟩
      · exact Or.inl (untouched (by rw [JobStore.failWrite, Collection.get?_update_ne hid]) rfl)
  | recoverAbandoned =>
      cases h
      simp only [JobQueue.recoverAbandoned, Collection.get?_updateMany,
        Option.map_eq_some_iff] at hjob'
      obtain ⟨job, hget, rfl⟩ := hjob'
      obtain rfl := id_of_get? hget
      split
      · next hfilter => exact Or.inl ⟨job, hget, .recover hfilter⟩
      · exact Or.inl ⟨job, hget, .same _⟩
  | retryRead workspaceId jobId =>
      obtain ⟨job, _, _, _, rfl⟩ := retryRead_eq_some h
      exact Or.inl (untouched rfl rfl)
  | retrySave i =>
      simp only [JobStore.step, Option.map_eq_some_iff] at h
      obtain ⟨call, hcall, rfl⟩ := h
      by_cases hid : id = call.loaded.id
      · subst hid
        simp only [JobStore.retrySave, Collection.get?_update_self, Option.map_eq_some_iff] at hjob'
        obtain ⟨job, hget, rfl⟩ := hjob'
        have hid := id_of_get? hget
        exact Or.inl ⟨job, hget, by simpa [JobStore.retrySave] using .retry i call hcall hid.symm⟩
      · exact Or.inl (untouched (by rw [JobStore.retrySave, Collection.get?_update_ne hid])
          (by simp [JobStore.retrySave, hid]))

/-- No step removes a job. -/
theorem get?_step_isSome (h : JobStore.step cfg s e = some s') {id : String}
    (hid : (s.jobs.get? id).isSome) : (s'.jobs.get? id).isSome := by
  cases e with
  | tick ms => cases h; exact hid
  | create svc newId workspaceId actorId correlationId input =>
      simp only [JobStore.step, Option.map_eq_some_iff] at h
      obtain ⟨jobs, hins, rfl⟩ := h
      obtain ⟨job, hjob⟩ := Option.isSome_iff_exists.mp hid
      exact Option.isSome_iff_exists.mpr ⟨job, Collection.get?_of_insert? hins hjob⟩
  | claim workerId jobId =>
      obtain ⟨_, _, _, rfl⟩ := claim_eq_some h
      simpa only [Collection.get?_update_isSome] using hid
  | heartbeat i =>
      simp only [JobStore.step, Option.map_eq_some_iff] at h
      obtain ⟨ex, _, rfl⟩ := h
      rcases heartbeat_cases cfg s i ex with ⟨_, _, _, heq⟩ | heq
      · simpa only [heq, Collection.get?_update_isSome] using hid
      · rwa [heq]
  | complete i summary =>
      simp only [JobStore.step, Option.map_eq_some_iff] at h
      obtain ⟨_, _, rfl⟩ := h
      simpa only [JobStore.complete, Collection.get?_update_isSome] using hid
  | failRead i error =>
      simp only [JobStore.step, Option.map_eq_some_iff] at h
      obtain ⟨_, _, rfl⟩ := h
      exact hid
  | failWrite i random =>
      simp only [JobStore.step, Option.map_eq_some_iff] at h
      obtain ⟨_, _, rfl⟩ := h
      simpa only [JobStore.failWrite, Collection.get?_update_isSome] using hid
  | recoverAbandoned =>
      cases h
      simpa only [JobQueue.recoverAbandoned, Collection.get?_updateMany_isSome] using hid
  | retryRead workspaceId jobId =>
      obtain ⟨_, _, _, _, rfl⟩ := retryRead_eq_some h
      exact hid
  | retrySave i =>
      simp only [JobStore.step, Option.map_eq_some_iff] at h
      obtain ⟨_, _, rfl⟩ := h
      simpa only [JobStore.retrySave, Collection.get?_update_isSome] using hid

/-- The step lemma, followed forwards from a stored job. -/
theorem get?_step_of_some (h : JobStore.step cfg s e = some s') {id : String}
    {job : DiagnosticJob} (hjob : s.jobs.get? id = some job) :
    ∃ job', s'.jobs.get? id = some job' ∧ JobWrite cfg s job e job' (s'.handOuts id) := by
  obtain ⟨job', hjob'⟩ := Option.isSome_iff_exists.mp
    (get?_step_isSome h (Option.isSome_iff_exists.mpr ⟨job, hjob⟩))
  refine ⟨job', hjob', ?_⟩
  rcases get?_step h id hjob' with ⟨old, hold, hw⟩ | ⟨hnone, _⟩
  · obtain rfl := Option.some.inj (hjob.symm.trans hold)
    exact hw
  · rw [hjob] at hnone; cases hnone

/-- The step lemma, read through membership. -/
theorem step_job (h : JobStore.step cfg s e = some s') {job' : DiagnosticJob}
    (hjob' : job' ∈ s'.jobs) :
    (∃ job ∈ s.jobs, JobWrite cfg s job e job' (s'.handOuts job'.id)) ∨ IsNewJob s.now e job' := by
  rcases get?_step h job'.id (Collection.get?_id hjob') with ⟨job, hget, hw⟩ | ⟨_, _, hnew⟩
  · exact Or.inl ⟨job, (Collection.get?_eq_some_iff.mp hget).1, hw⟩
  · exact Or.inr hnew

end CloudOps.Analysis
