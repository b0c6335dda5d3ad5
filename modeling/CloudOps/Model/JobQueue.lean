import CloudOps.Computation.Transition
import CloudOps.Model.Types
import CloudOps.Model.Retry

/-!
# The job queue (`jobs/queue.ts`, `job-service.ts`)

First the functions: the filter and the update of each database operation of `JobQueue`
and of `JobService.create` and `retry`, as the source writes them. Then the machine
`jobStore`, whose events are single database steps. `fail` and `retry` are two steps each,
a read and a later write; between the two the call's local variables wait in the state, so
a crash is a call that is never resumed. Any execution may heartbeat, complete or fail at
any moment after its claim, early, late or again.

The machine also keeps what no document records: the lease each execution believes it
holds and whether it has called `complete` or `fail`, and how often a job was handed out
since its last manual retry. No step of the store reads these.
-/

set_option autoImplicit false

namespace CloudOps.Model

open CloudOps.Computation

/-! ## `JobQueue` -/

/-- SRCLINE: packages/shared/src/jobs/queue.ts:5-10 -/
structure JobQueueConfig where
  leaseMs : Time
  maxAttempts : ℕ
  backoffBaseMs : ℚ
  backoffMaxMs : ℚ

/-- The statuses from which a worker can claim: `$in: ['pending', 'retry_wait']`. -/
def JobStatus.isQueued (status : JobStatus) : Bool :=
  status == .pending || status == .retryWait

/-- The statuses a worker's call is meant to leave for good. -/
def JobStatus.isTerminal (status : JobStatus) : Bool :=
  status == .completed || status == .deadLettered

/-- The filter of `claim`.
SRCLINE: packages/shared/src/jobs/queue.ts:18-23 -/
def claimFilter (now : Time) (job : DiagnosticJob) : Bool :=
  job.status.isQueued && decide (job.nextRunAt ≤ now) &&
    match job.leaseUntil with
    | none => true
    | some leaseUntil => decide (leaseUntil ≤ now)

/-- The update of `claim`.
SRCLINE: packages/shared/src/jobs/queue.ts:24-32 -/
def claimUpdate (cfg : JobQueueConfig) (workerId : String) (now : Time)
    (job : DiagnosticJob) : DiagnosticJob :=
  { job with
    status := .running
    claimedBy := some workerId
    leaseUntil := some (now + cfg.leaseMs)
    heartbeatAt := some now
    attempts := job.attempts + 1
    version := job.version + 1 }

/-- The filter of `heartbeat` beside the id.
SRCLINE: packages/shared/src/jobs/queue.ts:41 -/
def heartbeatFilter (workerId : String) (job : DiagnosticJob) : Bool :=
  job.claimedBy == some workerId && job.status == .running

/-- SRCLINE: packages/shared/src/jobs/queue.ts:42 -/
def heartbeatUpdate (cfg : JobQueueConfig) (now : Time) (job : DiagnosticJob) : DiagnosticJob :=
  { job with heartbeatAt := some now, leaseUntil := some (now + cfg.leaseMs) }

/-- The update of `complete`, which addresses the job by its id alone.
SRCLINE: packages/shared/src/jobs/queue.ts:47-64 -/
def completeUpdate (summary : JobResultSummary) (now : Time) (job : DiagnosticJob) :
    DiagnosticJob :=
  { job with
    status := .completed
    resultSummary := some summary
    completedAt := some now
    leaseUntil := none
    lastError := none }

/-- What `fail` keeps between its read and its write. -/
structure FailCall where
  jobId : String
  attempts : ℕ
  maxAttempts : ℕ
  error : StructuredFailure

/-- The test `attempts >= job.maxAttempts || !error.retryable`.
SRCLINE: packages/shared/src/jobs/queue.ts:70 -/
def FailCall.deadLetters (call : FailCall) : Bool :=
  decide (call.maxAttempts ≤ call.attempts) || !call.error.retryable

/-- The write of `fail`, in its two branches.
SRCLINE: packages/shared/src/jobs/queue.ts:66-101 -/
def failUpdate (cfg : JobQueueConfig) (call : FailCall) (random : ℚ) (now : Time)
    (job : DiagnosticJob) : DiagnosticJob :=
  if call.deadLetters then
    { job with
      status := .deadLettered
      lastError := some call.error
      leaseUntil := none
      completedAt := some now }
  else
    let delay := exponentialBackoffWithJitter
      { attempt := call.attempts, baseMs := cfg.backoffBaseMs, maxMs := cfg.backoffMaxMs,
        jitterRatio := none } random
    { job with
      status := .retryWait
      lastError := some call.error
      leaseUntil := none
      nextRunAt := now + delay }

/-- The filter of `recoverAbandoned`; `$lte` never matches `null`.
SRCLINE: packages/shared/src/jobs/queue.ts:105-108 -/
def recoverFilter (now : Time) (job : DiagnosticJob) : Bool :=
  job.status == .running &&
    match job.leaseUntil with
    | none => false
    | some leaseUntil => decide (leaseUntil ≤ now)

/-- SRCLINE: packages/shared/src/jobs/queue.ts:109-116 -/
def recoverUpdate (now : Time) (job : DiagnosticJob) : DiagnosticJob :=
  { job with status := .retryWait, nextRunAt := now, leaseUntil := none, claimedBy := none }

/-- `claim` on a chosen job: `findOneAndUpdate` may pick any job that matches, so the caller
names the one it gets; `none` when that one does not match.
SRCLINE: packages/shared/src/jobs/queue.ts:15-35 -/
def JobQueue.claim (cfg : JobQueueConfig) (jobs : Collection DiagnosticJob) (workerId : String)
    (now : Time) (jobId : String) : Option (Collection DiagnosticJob) :=
  match jobs.get? jobId with
  | none => none
  | some job =>
      if claimFilter now job then some (jobs.update jobId (claimUpdate cfg workerId now))
      else none

/-- SRCLINE: packages/shared/src/jobs/queue.ts:103-119 -/
def JobQueue.recoverAbandoned (jobs : Collection DiagnosticJob) (now : Time) :
    Collection DiagnosticJob :=
  jobs.updateMany (recoverFilter now) (recoverUpdate now)

/-! ## `JobService` -/

structure JobService where
  maxAttempts : ℕ
  timeoutMs : Time

structure CreateJobInput where
  resourceIds : Option (List String)
  resourceTypes : Option (List ResourceType)
  idempotencyKey : String

/-- The document `JobService.create` inserts, with the schema's defaults.
SRCLINE: apps/api/src/services/job-service.ts:29-42 -/
def JobService.newJob (svc : JobService) (id workspaceId actorId correlationId : String)
    (input : CreateJobInput) (now : Time) : DiagnosticJob where
  id := id
  workspaceId := workspaceId
  status := .pending
  resourceIds := input.resourceIds
  resourceTypes := input.resourceTypes
  idempotencyKey := input.idempotencyKey
  correlationId := correlationId
  leaseUntil := none
  heartbeatAt := none
  claimedBy := none
  attempts := 0
  maxAttempts := svc.maxAttempts
  nextRunAt := now
  lastError := none
  resultSummary := none
  createdBy := actorId
  completedAt := none
  timeoutMs := svc.timeoutMs
  version := 1
  createdAt := now

/-- A field of a mongoose `save`: written when its value differs from the loaded one. -/
def savedField {α : Type} [DecidableEq α] (loaded assigned stored : α) : α :=
  if assigned = loaded then stored else assigned

/-- What `retry` keeps between its read and its save: the document as it was read, and the
instant it puts into `nextRunAt`. -/
structure RetryCall where
  loaded : DiagnosticJob
  nextRunAt : Time

/-- The status test of `retry`.
SRCLINE: apps/api/src/services/job-service.ts:84 -/
def retryable (status : JobStatus) : Bool :=
  status == .failed || status == .deadLettered

/-- The save of `retry` on the document as it is stored by then.
SRCLINE: apps/api/src/services/job-service.ts:87-94 -/
def retrySave (call : RetryCall) (stored : DiagnosticJob) : DiagnosticJob :=
  { stored with
    status := savedField call.loaded.status .pending stored.status
    nextRunAt := savedField call.loaded.nextRunAt call.nextRunAt stored.nextRunAt
    attempts := savedField call.loaded.attempts 0 stored.attempts
    leaseUntil := savedField call.loaded.leaseUntil none stored.leaseUntil
    claimedBy := savedField call.loaded.claimedBy none stored.claimedBy
    lastError := savedField call.loaded.lastError none stored.lastError
    completedAt := savedField call.loaded.completedAt none stored.completedAt }

/-- The save of a retry keeps the identity. -/
theorem retrySave_id (call : RetryCall) (job : DiagnosticJob) :
    Document._id (retrySave call job) = Document._id job := rfl

/-- The save of a retry keeps the index. -/
theorem retrySave_index (call : RetryCall) (job : DiagnosticJob) :
    Document.uniqueIndex (retrySave call job) = Document.uniqueIndex job := rfl

/-! ## The job store -/

/-- A worker execution, created by a successful claim. -/
structure Execution where
  jobId : String
  workerId : String
  /-- set by the claim and by each successful heartbeat of this execution -/
  leaseEnd : Time
  /-- whether it has called `complete` or `fail` -/
  called : Bool
  deriving DecidableEq, Repr

structure JobStore where
  now : Time
  jobs : Collection DiagnosticJob
  executions : List Execution
  failCalls : List FailCall
  retryCalls : List RetryCall
  /-- successful claims of a job since its last manual retry -/
  handOuts : String → ℕ

/-- The store before the first request. -/
def JobStore.initial (now : Time) : JobStore where
  now := now
  jobs := Collection.empty
  executions := []
  failCalls := []
  retryCalls := []
  handOuts := fun _ => 0

/-- One database step of one caller, or the passing of time. Executions and calls in flight
are named by their position. -/
inductive JobEvent
  | tick (ms : ℕ)
  | create (svc : JobService) (id workspaceId actorId correlationId : String)
      (input : CreateJobInput)
  | claim (workerId jobId : String)
  | heartbeat (execution : ℕ)
  | complete (execution : ℕ) (summary : JobResultSummary)
  | failRead (execution : ℕ) (error : StructuredFailure)
  | failWrite (call : ℕ) (random : ℚ)
  | recoverAbandoned
  | retryRead (workspaceId id : String)
  | retrySave (call : ℕ)

namespace JobStore

/-- A successful claim opens an execution. -/
def claim (cfg : JobQueueConfig) (s : JobStore) (workerId jobId : String) : Option JobStore :=
  (JobQueue.claim cfg s.jobs workerId s.now jobId).map fun jobs =>
    { s with
      jobs := jobs
      executions := s.executions ++ [⟨jobId, workerId, s.now + cfg.leaseMs, false⟩]
      handOuts := Function.update s.handOuts jobId (s.handOuts jobId + 1) }

/-- A heartbeat that no longer matches changes nothing. -/
def heartbeat (cfg : JobQueueConfig) (s : JobStore) (e : ℕ) (ex : Execution) : JobStore :=
  match s.jobs.get? ex.jobId with
  | none => s
  | some job =>
      if heartbeatFilter ex.workerId job then
        { s with
          jobs := s.jobs.update ex.jobId (heartbeatUpdate cfg s.now)
          executions := s.executions.set e { ex with leaseEnd := s.now + cfg.leaseMs } }
      else s

def complete (s : JobStore) (e : ℕ) (ex : Execution) (summary : JobResultSummary) : JobStore :=
  { s with
    jobs := s.jobs.update ex.jobId (completeUpdate summary s.now)
    executions := s.executions.set e { ex with called := true } }

/-- The read of `fail`; for a missing job the call ends here. -/
def failRead (s : JobStore) (e : ℕ) (ex : Execution) (error : StructuredFailure) : JobStore :=
  { s with
    executions := s.executions.set e { ex with called := true }
    failCalls := match s.jobs.get? ex.jobId with
      | none => s.failCalls
      | some job => s.failCalls ++ [⟨ex.jobId, job.attempts, job.maxAttempts, error⟩] }

def failWrite (cfg : JobQueueConfig) (s : JobStore) (i : ℕ) (call : FailCall) (random : ℚ) :
    JobStore :=
  { s with
    jobs := s.jobs.update call.jobId (failUpdate cfg call random s.now)
      (by intro job; unfold failUpdate; split <;> rfl)
      (by intro job; unfold failUpdate; split <;> rfl)
    failCalls := s.failCalls.eraseIdx i }

/-- The read of `retry`; `none` when it throws.
SRCLINE: apps/api/src/services/job-service.ts:81-88 -/
def retryRead (s : JobStore) (workspaceId id : String) : Option JobStore :=
  match s.jobs.find? fun job => job.id = id && job.workspaceId = workspaceId with
  | none => none
  | some job =>
      if retryable job.status then
        some { s with retryCalls := s.retryCalls ++ [⟨job, s.now⟩] }
      else none

def retrySave (s : JobStore) (i : ℕ) (call : RetryCall) : JobStore :=
  { s with
    jobs := s.jobs.update call.loaded.id (Model.retrySave call)
    retryCalls := s.retryCalls.eraseIdx i
    handOuts := Function.update s.handOuts call.loaded.id 0 }

/-- The step function of the job store. -/
def step (cfg : JobQueueConfig) (s : JobStore) : JobEvent → Option JobStore
  | .tick ms => some { s with now := s.now + ms }
  | .create svc id workspaceId actorId correlationId input =>
      (s.jobs.insert? (svc.newJob id workspaceId actorId correlationId input s.now)).map
        fun jobs => { s with jobs := jobs }
  | .claim workerId jobId => s.claim cfg workerId jobId
  | .heartbeat e => s.executions[e]?.map fun ex => s.heartbeat cfg e ex
  | .complete e summary => s.executions[e]?.map fun ex => s.complete e ex summary
  | .failRead e error => s.executions[e]?.map fun ex => s.failRead e ex error
  | .failWrite i random => s.failCalls[i]?.map fun call => s.failWrite cfg i call random
  | .recoverAbandoned => some { s with jobs := JobQueue.recoverAbandoned s.jobs s.now }
  | .retryRead workspaceId id => s.retryRead workspaceId id
  | .retrySave i => s.retryCalls[i]?.map fun call => s.retrySave i call

end JobStore

/-- The job store as a machine. -/
def jobStore (cfg : JobQueueConfig) : Machine JobStore JobEvent := ⟨JobStore.step cfg⟩

end CloudOps.Model
