import CloudOps.Model.Database
import Mathlib.Data.List.Infix

/-!
# The job processor (`apps/worker/src/processor.ts`)

`run` as a program over the database: the analysis is what the diagnostics client returned
or threw, the identities of new documents and the clock readings are arguments, one record of
them for each finding. `fail` is the failing half of `processNext`.

`withTimeout` lets the run go on when it has lost the race, so a run that timed out is a
`run` whose outcome nobody reads (`processNextTimedOut`), and `fail` may come at any of its
calls.
-/

set_option autoImplicit false

namespace CloudOps.Model

open CloudOps.Computation

/-- The message of an error. -/
def AppError.message : AppError → String
  | .validation message | .unauthorized message | .forbidden message | .notFound message
  | .conflict message | .dependency message _ => message
  | .duplicateKey => "E11000 duplicate key error"
  | .internal error => error.message

/-- The name of the error's class.
SRCLINE: packages/shared/src/errors.ts:1-63 -/
def AppError.name : AppError → String
  | .validation _ => "ValidationError"
  | .unauthorized _ => "UnauthorizedError"
  | .forbidden _ => "ForbiddenError"
  | .notFound _ => "NotFoundError"
  | .conflict _ => "ConflictError"
  | .dependency _ _ => "DependencyError"
  | .duplicateKey => "MongoServerError"
  | .internal error => error.name

/-- The `retryable` of an `AppError`; any other exception has none.
SRCLINE: packages/shared/src/errors.ts:1-63 -/
def AppError.retryable : AppError → Option Bool
  | .dependency _ retryable => some retryable
  | .validation _ | .unauthorized _ | .forbidden _ | .notFound _ | .conflict _ => some false
  | .duplicateKey | .internal _ => none

/-- `message.includes(text)`. -/
def includes (message text : String) : Bool := decide (text.toList <:+: message.toList)

namespace JobProcessor

/-- What the round for one finding draws from elsewhere. -/
structure RoundDraws where
  findingAt : Time
  newFindingId : String
  recommendationAt : Time
  newRecommendationId : String
  observedAt : Time

/-- SRCLINE: apps/worker/src/processor.ts:142-149 -/
def healthCheckOf (workspaceId : String) (finding : EngineFinding) (observedAt : Time) :
    HealthCheck where
  workspaceId := workspaceId
  resourceId := finding.resourceId
  status := if finding.severity = "critical" ∨ finding.severity = "high" then .unhealthy
    else .degraded
  checks := [⟨finding.ruleId, false, finding.title⟩]
  observedAt := observedAt

/-- The persistence loop: the counters after the findings still to come.
SRCLINE: apps/worker/src/processor.ts:109-150 -/
def persist (workspaceId jobId correlationId : String) (draws : ℕ → RoundDraws) :
    List EngineFinding → ℕ → ℕ → DbProg (ℕ × ℕ)
  | [], findingsCreated, recommendationsCreated => return (findingsCreated, recommendationsCreated)
  | finding :: findings, findingsCreated, recommendationsCreated => do
    let draw := draws findingsCreated
    let stored ← FindingModel.findOneAndUpdate workspaceId jobId correlationId finding
      draw.findingAt draw.newFindingId
    let _ ← RecommendationModel.findOneAndUpdate workspaceId jobId correlationId stored.id finding
      draw.recommendationAt draw.newRecommendationId
    HealthCheckModel.create (healthCheckOf workspaceId finding draw.observedAt)
    persist workspaceId jobId correlationId draws findings (findingsCreated + 1)
      (recommendationsCreated + 1)

/-- SRCLINE: apps/worker/src/processor.ts:82-153 -/
def run (workspaceId jobId correlationId : String) (resourceIds : Option (List String))
    (resourceTypes : Option (List ResourceType))
    (analyze : List CloudResource → Except AppError DiagnosticEngineResult)
    (draws : ℕ → RoundDraws) : DbProg JobResultSummary := do
  let resources ← CloudResourceModel.findInventory workspaceId resourceIds resourceTypes
  let analysis ← Prog.ofExcept (analyze resources)
  let (findingsCreated, recommendationsCreated) ←
    persist workspaceId jobId correlationId draws analysis.findings 0 0
  return ⟨resources.length, findingsCreated, recommendationsCreated⟩

/-- The failure the `catch` of `processNext` reports.
SRCLINE: apps/worker/src/processor.ts:53-62 -/
def failureOf (err : AppError) (now : Time) : StructuredFailure where
  code := if includes err.message "timed out" then "TIMEOUT" else "PROCESSING_ERROR"
  message := err.message
  retryable := !includes err.message "not retryable"
  cause := some err.name
  «at» := now

/-- What an attempt that takes too long throws.
SRCLINE: apps/worker/src/processor.ts:32-43 -/
def jobTimedOut : AppError := .internal ⟨"Error", "Job execution timed out"⟩

/-- `JobQueue.fail` as two calls.
SRCLINE: packages/shared/src/jobs/queue.ts:66-101 -/
def fail (config : JobQueueConfig) (jobId : String) (error : StructuredFailure) (random : ℚ)
    (now : Time) : DbProg (Option DiagnosticJob) := do
  let job? ← DiagnosticJobModel.findById jobId
  match job? with
  | none => return none
  | some job =>
    DiagnosticJobModel.fail config ⟨jobId, job.attempts, job.maxAttempts, error⟩ random now

/-- What one call of `processNext` draws from elsewhere. -/
structure AttemptDraws where
  workerId : String
  /-- the job the queue hands out, if it can be claimed -/
  jobId : String
  claimedAt : Time
  completedAt : Time
  failedAt : Time
  random : ℚ
  rounds : ℕ → RoundDraws

/-- The `try` of `processNext` for the job it has claimed.
SRCLINE: apps/worker/src/processor.ts:33-43 -/
def process (analyze : List CloudResource → Except AppError DiagnosticEngineResult)
    (draws : AttemptDraws) (job : DiagnosticJob) : DbProg Unit := do
  let result ← run job.workspaceId job.id job.correlationId job.resourceIds job.resourceTypes
    analyze draws.rounds
  DiagnosticJobModel.complete job.id result draws.completedAt

/-- `processNext`, its run not timing out.
SRCLINE: apps/worker/src/processor.ts:24-80 -/
def processNext (config : JobQueueConfig)
    (analyze : List CloudResource → Except AppError DiagnosticEngineResult)
    (draws : AttemptDraws) : DbProg Bool := do
  let job? ← DiagnosticJobModel.claim config draws.workerId draws.claimedAt draws.jobId
  match job? with
  | none => return false
  | some job =>
    (process analyze draws job).handle fun
      | .ok _ => return true
      | .error err => do
        let _ ← fail config job.id (failureOf err draws.failedAt) draws.random draws.failedAt
        return true

/-- `processNext` when its run loses the race against the timeout. The run is not stopped and
nobody reads how it ends; the failure of the attempt is a `fail` of its own.
SRCLINE: apps/worker/src/processor.ts:24-43, packages/shared/src/observability/retry.ts:19-33 -/
def processNextTimedOut (config : JobQueueConfig)
    (analyze : List CloudResource → Except AppError DiagnosticEngineResult)
    (draws : AttemptDraws) : DbProg Unit := do
  let job? ← DiagnosticJobModel.claim config draws.workerId draws.claimedAt draws.jobId
  match job? with
  | none => return ()
  | some job =>
    (run job.workspaceId job.id job.correlationId job.resourceIds job.resourceTypes analyze
      draws.rounds).handle fun _ => return ()

end JobProcessor

end CloudOps.Model
