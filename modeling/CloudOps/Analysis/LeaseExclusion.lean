import CloudOps.Analysis.JobLifecycle

/-!
# Mutual exclusion of live leases

An execution that has not called `complete` or `fail` holds its job until the end of the
lease set by its claim or by its last successful heartbeat. No other claim may get the job
before that instant. The claim filter alone does not ensure this: it looks at the lease
stored with the job, and `fail` clears that lease by the job's id, whoever holds it. A worker that
fails a job after its own lease has run out so releases the lease of its successor
(`leases_not_exclusive`).

`leases_exclusive` excludes exactly that release. The invariant, `LeaseCovered`, says of every
open execution whose lease still runs that its job is either running under a stored lease at
least as long, or finished. Two executions under one worker id renew each other's stored
lease, so the stored lease may be longer than the execution's, never shorter.
-/

set_option autoImplicit false

namespace CloudOps.Analysis

open CloudOps.Computation CloudOps.Model

/-- An open execution of the job: it has not called `complete` or `fail`. -/
def OpenExecution (s : JobStore) (jobId : String) (ex : Execution) : Prop :=
  ex ∈ s.executions ∧ ex.jobId = jobId ∧ ex.called = false

/-- The steps of the queue itself, and the creation of jobs: everything but `retry`. -/
def QueueStep (_ : JobStore) : JobEvent → Prop
  | .retryRead _ _ => False
  | .retrySave _ => False
  | _ => True

/-- The condition on a step that puts a job back into the queue, the retrying branch of
`fail` or a manual retry: no other open execution of the job holds a lease that still
runs. -/
def ReleasesNoLiveLease (s : JobStore) : JobEvent → Prop
  | .failWrite i _ => ∀ call, s.failCalls[i]? = some call → call.deadLetters = false →
      ∀ ex, OpenExecution s call.jobId ex → ex.leaseEnd ≤ s.now
  | .retrySave i => ∀ call, s.retryCalls[i]? = some call →
      ∀ ex, OpenExecution s call.loaded.id ex → ex.leaseEnd ≤ s.now
  | _ => True

/-- In runs under the guard `G` no claim of a job succeeds before the lease end of an open
execution of it. -/
def LeasesExclusive (cfg : JobQueueConfig) (G : JobStore → JobEvent → Prop) : Prop :=
  ∀ now s workerId jobId s', (jobStore cfg).Reaches G (JobStore.initial now) s →
    JobStore.step cfg s (.claim workerId jobId) = some s' →
      ∀ ex, OpenExecution s jobId ex → ex.leaseEnd ≤ s.now

/-- The lease of an execution, seen from its job: over, covered by the stored lease of the
running job, or void because the job is finished. -/
def LeaseCovered (now : Time) (ex : Execution) (job : DiagnosticJob) : Prop :=
  ex.leaseEnd ≤ now ∨
    (job.status = .running ∧ ∃ leaseUntil, job.leaseUntil = some leaseUntil ∧
      ex.leaseEnd ≤ leaseUntil) ∨
    (job.status.isQueued = false ∧ job.status ≠ .running)

/-- The invariant of the leases. -/
structure LeaseInv (cfg : JobQueueConfig) (s : JobStore) : Prop where
  covered : ∀ ex ∈ s.executions, ex.called = false →
    ∀ job, s.jobs.get? ex.jobId = some job → LeaseCovered s.now ex job
  known : ∀ ex ∈ s.executions, (s.jobs.get? ex.jobId).isSome
  bounded : ∀ id job, s.jobs.get? id = some job → job.status = .running →
    ∀ leaseUntil, job.leaseUntil = some leaseUntil → leaseUntil ≤ s.now + cfg.leaseMs
  retries : RetriesRead s

variable {cfg : JobQueueConfig} {s s' : JobStore} {e : JobEvent}

/-! ## The clock and the executions -/

/-- The clock never goes back. -/
theorem now_step (h : JobStore.step cfg s e = some s') : s.now ≤ s'.now := by
  cases e with
  | tick ms => cases h; simp
  | claim workerId jobId => obtain ⟨_, _, _, rfl⟩ := claim_eq_some h; rfl
  | heartbeat i =>
      simp only [JobStore.step, Option.map_eq_some_iff] at h
      obtain ⟨ex, _, rfl⟩ := h
      rcases heartbeat_cases cfg s i ex with ⟨_, _, _, heq⟩ | heq <;> rw [heq]
  | retryRead workspaceId jobId => obtain ⟨_, _, _, _, rfl⟩ := retryRead_eq_some h; rfl
  | recoverAbandoned => cases h; rfl
  | _ =>
      simp only [JobStore.step, Option.map_eq_some_iff] at h
      obtain ⟨_, _, rfl⟩ := h
      rfl

/-- The executions after a step: those before, some of them marked as having called, and
the one a successful claim or heartbeat has just given its lease. -/
theorem executions_step (h : JobStore.step cfg s e = some s') {ex' : Execution}
    (hex' : ex' ∈ s'.executions) :
    ex' ∈ s.executions ∨ (∃ ex ∈ s.executions, ex.jobId = ex'.jobId ∧ ex'.called = true) ∨
      ∃ job job', s.jobs.get? ex'.jobId = some job ∧ s'.jobs.get? ex'.jobId = some job' ∧
        s'.now = s.now ∧ job'.status = .running ∧ job'.leaseUntil = some ex'.leaseEnd ∧
        ex'.leaseEnd = s.now + cfg.leaseMs := by
  cases e with
  | claim workerId jobId =>
      obtain ⟨job, hget, _, rfl⟩ := claim_eq_some h
      rcases List.mem_append.mp hex' with hold | hnew
      · exact Or.inl hold
      · obtain rfl := List.mem_singleton.mp hnew
        exact Or.inr (Or.inr ⟨job, claimUpdate cfg workerId s.now job, hget,
          by simp [Collection.get?_update_self, hget], rfl, rfl, rfl, rfl⟩)
  | heartbeat i =>
      simp only [JobStore.step, Option.map_eq_some_iff] at h
      obtain ⟨ex, hex, rfl⟩ := h
      rcases heartbeat_cases cfg s i ex with ⟨job, hget, hfilter, heq⟩ | heq
      · rw [heq] at hex' ⊢
        rcases List.mem_or_eq_of_mem_set hex' with hold | rfl
        · exact Or.inl hold
        · have hrun : job.status = .running := by
            simp only [heartbeatFilter, Bool.and_eq_true, beq_iff_eq] at hfilter
            exact hfilter.2
          exact Or.inr (Or.inr ⟨job, heartbeatUpdate cfg s.now job, hget,
            by simp [Collection.get?_update_self, hget], rfl, hrun, rfl, rfl⟩)
      · rw [heq] at hex'
        exact Or.inl hex'
  | complete i summary =>
      simp only [JobStore.step, Option.map_eq_some_iff] at h
      obtain ⟨ex, hex, rfl⟩ := h
      rcases List.mem_or_eq_of_mem_set hex' with hold | rfl
      · exact Or.inl hold
      · exact Or.inr (Or.inl ⟨ex, List.mem_of_getElem? hex, rfl, rfl⟩)
  | failRead i error =>
      simp only [JobStore.step, Option.map_eq_some_iff] at h
      obtain ⟨ex, hex, rfl⟩ := h
      rcases List.mem_or_eq_of_mem_set hex' with hold | rfl
      · exact Or.inl hold
      · exact Or.inr (Or.inl ⟨ex, List.mem_of_getElem? hex, rfl, rfl⟩)
  | retryRead workspaceId jobId =>
      obtain ⟨_, _, _, _, rfl⟩ := retryRead_eq_some h
      exact Or.inl hex'
  | tick ms => cases h; exact Or.inl hex'
  | recoverAbandoned => cases h; exact Or.inl hex'
  | _ =>
      simp only [JobStore.step, Option.map_eq_some_iff] at h
      obtain ⟨_, _, rfl⟩ := h
      exact Or.inl hex'

/-! ## One write -/

/-- **A write keeps the lease of an open execution covered**, when it does not release it.
SRCLINE: packages/shared/src/jobs/queue.ts:15-119 -/
theorem leaseCovered_write {job job' : DiagnosticJob} {n : ℕ} {ex : Execution}
    (hget : s.jobs.get? ex.jobId = some job) (hw : JobWrite cfg s job e job' n)
    (hex : ex ∈ s.executions) (hopen : ex.called = false) (hG : ReleasesNoLiveLease s e)
    (hbound : job.status = .running → ∀ leaseUntil, job.leaseUntil = some leaseUntil →
      leaseUntil ≤ s.now + cfg.leaseMs)
    (hcov : LeaseCovered s.now ex job) : LeaseCovered s.now ex job' := by
  have hid' : job.id = ex.jobId := id_of_get? hget
  cases hw with
  | same => exact hcov
  | claim workerId hfilter =>
      -- only a lease that is over leaves the job claimable
      have hqueued : job.status.isQueued = true := by
        simp only [claimFilter, Bool.and_eq_true] at hfilter
        exact hfilter.1.1
      rcases hcov with hover | ⟨hrun, _⟩ | ⟨hnot, _⟩
      · exact Or.inl hover
      · simp [hrun, JobStatus.isQueued] at hqueued
      · rw [hqueued] at hnot; cases hnot
  | heartbeat i ex' _ _ hfilter =>
      have hrun : job.status = .running := by
        simp only [heartbeatFilter, Bool.and_eq_true, beq_iff_eq] at hfilter
        exact hfilter.2
      rcases hcov with hover | ⟨_, leaseUntil, hl, hle⟩ | ⟨_, hne⟩
      · exact Or.inl hover
      · exact Or.inr (Or.inl ⟨hrun, _, rfl, hle.trans (hbound hrun leaseUntil hl)⟩)
      · exact absurd hrun hne
  | complete i ex' summary _ _ =>
      exact Or.inr (Or.inr ⟨by simp [completeUpdate, JobStatus.isQueued], by simp [completeUpdate]⟩)
  | fail i call random hcall hid =>
      unfold failUpdate
      split
      · exact Or.inr (Or.inr ⟨by simp [JobStatus.isQueued], by simp⟩)
      · next hbranch =>
        exact Or.inl (hG call hcall (by simpa using hbranch) ex ⟨hex, by rw [hid, hid'], hopen⟩)
  | recover hfilter =>
      rcases hcov with hover | ⟨_, leaseUntil, hl, hle⟩ | ⟨_, hne⟩
      · exact Or.inl hover
      · have hend : leaseUntil ≤ s.now := by simp [recoverFilter, hl] at hfilter; exact hfilter.2
        exact Or.inl (hle.trans hend)
      · simp [recoverFilter, hne] at hfilter
  | retry i call hcall hid =>
      exact Or.inl (hG call hcall ex ⟨hex, by rw [hid, hid'], hopen⟩)

/-- A write leaves a running job with a lease of at most `leaseMs` from now.
SRCLINE: packages/shared/src/jobs/queue.ts:15-45 -/
theorem lease_bounded_write {job job' : DiagnosticJob} {n : ℕ} (hw : JobWrite cfg s job e job' n)
    (hretries : RetriesRead s)
    (hbound : job.status = .running → ∀ leaseUntil, job.leaseUntil = some leaseUntil →
      leaseUntil ≤ s.now + cfg.leaseMs) :
    job'.status = .running → ∀ leaseUntil, job'.leaseUntil = some leaseUntil →
      leaseUntil ≤ s.now + cfg.leaseMs := by
  cases hw with
  | same => exact hbound
  | claim workerId _ => simp [claimUpdate]
  | heartbeat i ex _ _ _ => simp [heartbeatUpdate]
  | complete i ex summary _ _ => simp [completeUpdate]
  | fail i call random _ _ => unfold failUpdate; split <;> simp
  | recover _ => simp [recoverUpdate]
  | retry i call hcall _ =>
      simp [retrySave_status (hretries call (List.mem_of_getElem? hcall)) job]

/-! ## Every run -/

/-- **The step lemma of the leases.**
SRCLINE: packages/shared/src/jobs/queue.ts:15-119 -/
theorem leaseInv_step (hstep : JobStore.step cfg s e = some s') (hG : ReleasesNoLiveLease s e)
    (hinv : LeaseInv cfg s) : LeaseInv cfg s' where
  covered := by
    intro ex' hex' hopen job' hget'
    rcases executions_step hstep hex' with hold | ⟨_, _, _, hcalled⟩ |
      ⟨_, job₁, _, hget₁, _, hrun, hlease, _⟩
    · obtain ⟨job, hget⟩ := Option.isSome_iff_exists.mp (hinv.known ex' hold)
      obtain ⟨job₁, hget₁, hw⟩ := get?_step_of_some hstep hget
      obtain rfl := Option.some.inj (hget₁.symm.trans hget')
      have hcov := leaseCovered_write hget hw hold hopen hG (hinv.bounded _ job hget)
        (hinv.covered ex' hold hopen job hget)
      exact hcov.imp_left fun hover => hover.trans (now_step hstep)
    · rw [hopen] at hcalled; cases hcalled
    · obtain rfl := Option.some.inj (hget₁.symm.trans hget')
      exact Or.inr (Or.inl ⟨hrun, _, hlease, le_rfl⟩)
  known := by
    intro ex' hex'
    rcases executions_step hstep hex' with hold | ⟨ex, hold, hid, _⟩ |
      ⟨_, job₁, _, hget₁, _, _, _, _⟩
    · exact get?_step_isSome hstep (hinv.known ex' hold)
    · exact hid ▸ get?_step_isSome hstep (hinv.known ex hold)
    · exact Option.isSome_iff_exists.mpr ⟨job₁, hget₁⟩
  bounded := by
    intro id job' hget' hrun leaseUntil hl
    rcases get?_step hstep id hget' with ⟨job, hget, hw⟩ | ⟨_, _, hnew⟩
    · have hle := lease_bounded_write hw hinv.retries (hinv.bounded id job hget) hrun leaseUntil hl
      have := now_step hstep
      linarith
    · obtain ⟨_, _, _, _, _, _, _, rfl⟩ := hnew
      simp [JobService.newJob] at hrun
  retries := retriesRead_step hstep hinv.retries

/-- **Live leases are exclusive** in every run in which no step queues a job again while
another open execution holds a lease on it that still runs.
SRCLINE: packages/shared/src/jobs/queue.ts:15-119,
docs/design-decisions/0001-mongodb-job-queue.md:9-18 -/
theorem leases_exclusive (cfg : JobQueueConfig) : LeasesExclusive cfg ReleasesNoLiveLease := by
  intro now s workerId jobId s' hrun hclaim ex ⟨hex, hid, hopen⟩
  have hinv : LeaseInv cfg s := by
    refine hrun.invariant (I := LeaseInv cfg) ⟨?_, ?_, ?_, ?_⟩ ?_
    · intro ex hex; exact absurd hex List.not_mem_nil
    · intro ex hex; exact absurd hex List.not_mem_nil
    · intro id job hget; simp [JobStore.initial] at hget
    · intro call hcall; exact absurd hcall List.not_mem_nil
    · intro s e s' hinv hG hstep
      exact leaseInv_step hstep hG hinv
  obtain ⟨job, hget, hfilter, _⟩ := claim_eq_some hclaim
  have hqueued : job.status.isQueued = true := by
    simp only [claimFilter, Bool.and_eq_true] at hfilter
    exact hfilter.1.1
  rcases hinv.covered ex hex hopen job (hid ▸ hget) with hover | ⟨hrunning, _⟩ | ⟨hnot, _⟩
  · exact hover
  · simp [hrunning, JobStatus.isQueued] at hqueued
  · rw [hqueued] at hnot; cases hnot

/-- A late `fail`: the first worker's lease runs out, the second one claims the job until
60000, then the first one's `fail` queues the job again, due at 31000. -/
def lateFail : List JobEvent :=
  [.create ⟨5, 20000⟩ "job-1" "ws" "operator" "c-1" ⟨none, none, "key-00001"⟩,
    .claim "worker-1" "job-1", .tick 30000, .recoverAbandoned, .claim "worker-2" "job-1",
    .failRead 0 ⟨"TIMEOUT", "Job execution timed out", true, none, 30000⟩,
    .failWrite 0 0, .tick 1000]

/-- After a late `fail` a third worker claims the job 29 s before the second one's lease ends.
SRCLINE: packages/shared/src/jobs/queue.ts:66-101 -/
theorem leases_not_exclusive : ¬ LeasesExclusive ⟨30000, 5, 500, 15000⟩ QueueStep := by
  intro h
  let cfg : JobQueueConfig := ⟨30000, 5, 500, 15000⟩
  let s := ((jobStore cfg).run (JobStore.initial 0) lateFail).get (by decide +kernel)
  have hreach : (jobStore cfg).Reaches QueueStep (JobStore.initial 0) s := by
    refine Machine.reaches_of_run_guarded lateFail (Option.some_get _).symm ?_
    intro e he s
    revert e
    simp [lateFail, QueueStep]
  obtain ⟨s', hclaim⟩ : ∃ s', JobStore.step cfg s (.claim "worker-3" "job-1") = some s' :=
    Option.isSome_iff_exists.mp (by decide +kernel)
  have hsecond : OpenExecution s "job-1" ⟨"job-1", "worker-2", 60000, false⟩ :=
    ⟨List.mem_of_getElem? (i := 1) (by decide +kernel), rfl, rfl⟩
  have hover := h 0 s _ _ s' hreach hclaim _ hsecond
  exact absurd hover (by decide +kernel)

/-! ## A run in which no lease is released early -/

/-- Whether every open execution of a job has come to the end of its lease. -/
def leasesOver (s : JobStore) (jobId : String) : Bool :=
  s.executions.all fun ex => decide (ex.jobId = jobId → ex.called = false → ex.leaseEnd ≤ s.now)

/-- Whether a step releases no lease that still runs. -/
def releasesNoLiveLease (s : JobStore) : JobEvent → Bool
  | .failWrite i _ => s.failCalls[i]?.all fun call => call.deadLetters || leasesOver s call.jobId
  | .retrySave i => s.retryCalls[i]?.all fun call => leasesOver s call.loaded.id
  | _ => true

/-- Where the leases of a job are over, its open executions have none that still runs. -/
theorem leaseEnd_le_of_leasesOver {jobId : String} {ex : Execution}
    (h : leasesOver s jobId = true) (hex : OpenExecution s jobId ex) : ex.leaseEnd ≤ s.now :=
  of_decide_eq_true (List.all_eq_true.mp h ex hex.1) hex.2.1 hex.2.2

/-- The check decides the condition. -/
theorem releasesNoLiveLease_of_check (s : JobStore) (e : JobEvent)
    (h : releasesNoLiveLease s e = true) : ReleasesNoLiveLease s e := by
  cases e with
  | failWrite i random =>
      intro call hcall hretries ex hex
      simp only [releasesNoLiveLease, hcall, Option.all_some, hretries, Bool.false_or] at h
      exact leaseEnd_le_of_leasesOver h hex
  | retrySave i =>
      intro call hcall ex hex
      simp only [releasesNoLiveLease, hcall, Option.all_some] at h
      exact leaseEnd_le_of_leasesOver h hex
  | _ => trivial

/-- The first worker beats once and is heard of no more; the second one claims the job when that
lease is over, and fails within its own. -/
def releasedInTime : List JobEvent :=
  [.create ⟨5, 20000⟩ "job-1" "ws" "operator" "c-1" ⟨none, none, "key-00001"⟩,
    .claim "worker-1" "job-1", .tick 10000, .heartbeat 0, .tick 30000, .recoverAbandoned,
    .claim "worker-2" "job-1", .tick 1000,
    .failRead 1 ⟨"TIMEOUT", "Job execution timed out", true, none, 41000⟩, .failWrite 0 0,
    .tick 1000]

/-- The store after that. -/
def releasedStore : JobStore :=
  ((jobStore ⟨30000, 5, 500, 15000⟩).runChecked releasesNoLiveLease (JobStore.initial 0)
    releasedInTime).get (by decide +kernel)

/-- A third worker claims the job while the execution of the first is still open, its lease over
at 40000. -/
theorem leases_exclusive_released : ∃ s' ex,
    JobStore.step ⟨30000, 5, 500, 15000⟩ releasedStore (.claim "worker-3" "job-1") = some s' ∧
      OpenExecution releasedStore "job-1" ex ∧ ex.workerId = "worker-1" ∧
      ex.leaseEnd ≤ releasedStore.now := by
  have hs : (jobStore ⟨30000, 5, 500, 15000⟩).Reaches ReleasesNoLiveLease (JobStore.initial 0)
      releasedStore :=
    Machine.reaches_of_runChecked releasesNoLiveLease_of_check releasedInTime
      (Option.some_get _).symm
  obtain ⟨s', hclaim⟩ : ∃ s', JobStore.step ⟨30000, 5, 500, 15000⟩ releasedStore
      (.claim "worker-3" "job-1") = some s' := Option.isSome_iff_exists.mp (by decide +kernel)
  have hfirst : OpenExecution releasedStore "job-1" ⟨"job-1", "worker-1", 40000, false⟩ :=
    ⟨List.mem_of_getElem? (i := 0) (by decide +kernel), rfl, rfl⟩
  exact ⟨s', _, hclaim, hfirst, rfl, leases_exclusive _ 0 releasedStore _ _ s' hs hclaim _ hfirst⟩

end CloudOps.Analysis
