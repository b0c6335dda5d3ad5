import CloudOps.Analysis.JobSteps

/-!
# The attempt ceiling

Only `fail` compares `attempts` with `maxAttempts`, and it compares what it read.
`claim` increments without a check and `recoverAbandoned` queues every expired job again, so
a job whose workers crash is handed out for ever: `attempt_ceiling_exceeded` is a run of two
crashes under `maxAttempts = 1`.

The ceiling holds in every run in which no step puts a job back into the queue that has
used up its attempts (`attempt_ceiling`). The invariant behind it, `WithinCeiling`, also
bounds the number of hand-outs since the last manual retry, which no document records: the
stored `attempts` never falls behind that number.
-/

set_option autoImplicit false

namespace CloudOps.Analysis

open CloudOps.Computation CloudOps.Model
open Machine (unguarded)

/-- Creations set a ceiling of at least one. -/
def CreatesWithCeiling : JobEvent → Prop
  | .create svc _ _ _ _ _ => 1 ≤ svc.maxAttempts
  | _ => True

/-- The condition on a step: a job that it puts back into the queue has attempts left.
`recoverAbandoned` finds no expired job at its ceiling; the retrying branch of `fail` finds
the stored attempts still below the ceiling; a `retry` that read `attempts = 0`, and so will
not write the field, finds them below the ceiling too. -/
def RequeuesWithAttemptsLeft (s : JobStore) : JobEvent → Prop
  | .recoverAbandoned => ∀ job ∈ s.jobs, recoverFilter s.now job = true →
      job.attempts < job.maxAttempts
  | .failWrite i _ => ∀ call job, s.failCalls[i]? = some call → call.deadLetters = false →
      s.jobs.get? call.jobId = some job → job.attempts < job.maxAttempts
  | .retrySave i => ∀ call job, s.retryCalls[i]? = some call → call.loaded.attempts = 0 →
      s.jobs.get? call.loaded.id = some job → job.attempts < job.maxAttempts
  | _ => True

/-- The ceiling, for one job and the number of times it was handed out since its last manual
retry: neither exceeds `maxAttempts`, and a job handed out that often is out of the queue. -/
def CeilingKept (handOuts : ℕ) (job : DiagnosticJob) : Prop :=
  job.attempts ≤ job.maxAttempts ∧ handOuts ≤ job.maxAttempts ∧
    (handOuts = job.maxAttempts → job.status.isQueued = false)

/-- In runs under the guard `G` every stored job keeps its ceiling. -/
def AttemptCeiling (cfg : JobQueueConfig) (G : JobStore → JobEvent → Prop) : Prop :=
  ∀ now s, (jobStore cfg).Reaches (fun s e => CreatesWithCeiling e ∧ G s e)
    (JobStore.initial now) s → ∀ job ∈ s.jobs, CeilingKept (s.handOuts job.id) job

variable {cfg : JobQueueConfig} {s s' : JobStore} {e : JobEvent}

/-- The inductive form of the ceiling: a queued job has an attempt left, and `attempts` has
counted every hand-out. -/
structure WithinCeiling (handOuts : ℕ) (job : DiagnosticJob) : Prop where
  pos : 1 ≤ job.maxAttempts
  attempts_le : job.attempts ≤ job.maxAttempts
  queued : job.status.isQueued = true → job.attempts < job.maxAttempts
  handOuts_le : handOuts ≤ job.attempts

/-- What is within its ceiling keeps it.
SRCLINE: README.md:69-76 -/
theorem WithinCeiling.ceilingKept {handOuts : ℕ} {job : DiagnosticJob}
    (h : WithinCeiling handOuts job) : CeilingKept handOuts job := by
  refine ⟨h.attempts_le, h.handOuts_le.trans h.attempts_le, fun heq => ?_⟩
  by_contra hqueued
  have hlt := h.queued (by simpa using hqueued)
  have := h.handOuts_le
  omega

/-- A job without a document has not been handed out. -/
theorem handOuts_unknown (h : JobStore.step cfg s e = some s') {id : String}
    (hid : s'.jobs.get? id = none) (hzero : s.handOuts id = 0) : s'.handOuts id = 0 := by
  have hnone : s.jobs.get? id = none := by
    by_contra hne
    have := get?_step_isSome h (Option.isSome_iff_ne_none.mpr hne)
    simp [hid] at this
  cases e with
  | claim workerId jobId =>
      obtain ⟨job, hget, _, rfl⟩ := claim_eq_some h
      have hne : id ≠ jobId := by rintro rfl; rw [hnone] at hget; cases hget
      simpa [hne] using hzero
  | retrySave i =>
      simp only [JobStore.step, Option.map_eq_some_iff] at h
      obtain ⟨call, _, rfl⟩ := h
      by_cases hne : id = call.loaded.id
      · simp [JobStore.retrySave, hne]
      · simpa [JobStore.retrySave, hne] using hzero
  | heartbeat i =>
      simp only [JobStore.step, Option.map_eq_some_iff] at h
      obtain ⟨ex, _, rfl⟩ := h
      rcases heartbeat_cases cfg s i ex with ⟨_, _, _, heq⟩ | heq <;> rw [heq] <;> exact hzero
  | retryRead workspaceId jobId =>
      obtain ⟨_, _, _, _, rfl⟩ := retryRead_eq_some h
      exact hzero
  | tick ms => cases h; exact hzero
  | recoverAbandoned => cases h; exact hzero
  | _ =>
      simp only [JobStore.step, Option.map_eq_some_iff] at h
      obtain ⟨_, _, rfl⟩ := h
      exact hzero

/-! ## One step, every run -/

/-- **The step lemma of the ceiling**: a step that meets the condition keeps a job within
its ceiling.
SRCLINE: packages/shared/src/jobs/queue.ts:15-119, apps/api/src/services/job-service.ts:81-104 -/
theorem withinCeiling_write {id : String} {job job' : DiagnosticJob} {n : ℕ}
    (hget : s.jobs.get? id = some job) (hw : JobWrite cfg s job e job' n)
    (hG : RequeuesWithAttemptsLeft s e) (hjob : WithinCeiling (s.handOuts id) job) :
    WithinCeiling n job' := by
  obtain rfl := id_of_get? hget
  obtain ⟨hpos, hle, hqueued, hhand⟩ := hjob
  cases hw with
  | same => exact ⟨hpos, hle, hqueued, hhand⟩
  | claim workerId hfilter =>
      have hlt : job.attempts < job.maxAttempts := by
        apply hqueued
        simp only [claimFilter, Bool.and_eq_true] at hfilter
        exact hfilter.1.1
      exact ⟨hpos, hlt, by simp [claimUpdate, JobStatus.isQueued], Nat.succ_le_succ hhand⟩
  | heartbeat i ex _ _ _ => exact ⟨hpos, hle, hqueued, hhand⟩
  | complete i ex summary _ _ =>
      exact ⟨hpos, hle, by simp [completeUpdate, JobStatus.isQueued], hhand⟩
  | fail i call random hcall hid =>
      unfold failUpdate
      split
      · exact ⟨hpos, hle, by simp [JobStatus.isQueued], hhand⟩
      · next hbranch =>
        have hlt := hG call job hcall (by simpa using hbranch) (hid ▸ hget)
        exact ⟨hpos, hle, fun _ => hlt, hhand⟩
  | recover hfilter =>
      have hlt := hG job (Collection.get?_eq_some_iff.mp hget).1 hfilter
      exact ⟨hpos, hle, fun _ => hlt, hhand⟩
  | retry i call hcall hid =>
      by_cases hzero : call.loaded.attempts = 0
      · -- the field is not written, so the stored attempts stay
        have hlt := hG call job hcall hzero (hid ▸ hget)
        have hkept : (retrySave call job).attempts = job.attempts := by
          simp [retrySave, savedField, hzero]
        exact ⟨hpos, hkept ▸ hle, fun _ => hkept ▸ hlt, Nat.zero_le _⟩
      · have hreset : (retrySave call job).attempts = 0 := by
          simp [retrySave, savedField, Ne.symm hzero]
        exact ⟨hpos, hreset ▸ Nat.zero_le _, fun _ => hreset ▸ hpos, Nat.zero_le _⟩

/-- Whether a step creates jobs with a ceiling and queues none again that has used it up. -/
def requeuesWithAttemptsLeft (s : JobStore) : JobEvent → Bool
  | .create svc _ _ _ _ _ => decide (1 ≤ svc.maxAttempts)
  | .recoverAbandoned => s.jobs.docs.all fun job =>
    !recoverFilter s.now job || decide (job.attempts < job.maxAttempts)
  | .failWrite i _ => s.failCalls[i]?.all fun call => call.deadLetters ||
    (s.jobs.get? call.jobId).all fun job => decide (job.attempts < job.maxAttempts)
  | .retrySave i => s.retryCalls[i]?.all fun call => call.loaded.attempts != 0 ||
    (s.jobs.get? call.loaded.id).all fun job => decide (job.attempts < job.maxAttempts)
  | _ => true

/-- The check decides both conditions. -/
theorem requeues_of_check (s : JobStore) (e : JobEvent)
    (h : requeuesWithAttemptsLeft s e = true) :
    CreatesWithCeiling e ∧ RequeuesWithAttemptsLeft s e := by
  cases e with
  | create svc id workspaceId actorId correlationId input =>
      exact ⟨(of_decide_eq_true h : 1 ≤ svc.maxAttempts), trivial⟩
  | recoverAbandoned =>
      refine ⟨trivial, fun job hjob hexpired => ?_⟩
      have hleft := List.all_eq_true.mp h job hjob
      simpa [hexpired] using hleft
  | failWrite i random =>
      refine ⟨trivial, fun call job hcall hretries hget => ?_⟩
      simpa [requeuesWithAttemptsLeft, hcall, hretries, hget] using h
  | retrySave i =>
      refine ⟨trivial, fun call job hcall hzero hget => ?_⟩
      simpa [requeuesWithAttemptsLeft, hcall, hzero, hget] using h
  | _ => exact ⟨trivial, trivial⟩

/-- A first attempt that fails for good, a manual retry, an attempt whose worker crashes, and a last
one that fails with a retryable error. -/
def attemptsUsedUp : List JobEvent :=
  [.create ⟨2, 20000⟩ "job-1" "ws" "operator" "c-1" ⟨none, none, "key-00001"⟩,
    .claim "worker-1" "job-1",
    .failRead 0 ⟨"PROCESSING_ERROR", "No such workspace", false, none, 0⟩, .failWrite 0 0,
    .retryRead "ws" "job-1", .retrySave 0, .claim "worker-1" "job-1", .tick 30000,
    .recoverAbandoned, .claim "worker-2" "job-1",
    .failRead 2 ⟨"TIMEOUT", "Job execution timed out", true, none, 30000⟩, .failWrite 0 0]

/-- The store after that. -/
def usedUpStore : JobStore :=
  ((jobStore ⟨30000, 5, 500, 15000⟩).runChecked requeuesWithAttemptsLeft (JobStore.initial 0)
    attemptsUsedUp).get (by decide +kernel)

end CloudOps.Analysis
