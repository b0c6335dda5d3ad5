import CloudOps.Computation.Collection

/-!
# The data model

The enumerations of `constants.ts` and the documents of `types/index.ts` and `db/models`
that the modelled services read or write. Instants and durations are integers
(milliseconds); document identities, hashes and keys are strings, as in the source. A
field that the schema defaults to `null` is an `Option`.

Every collection has its `_id` and one further unique index; the `Document` instances
below state which.
-/

set_option autoImplicit false

namespace CloudOps.Model

open CloudOps.Computation

/-- An instant, in milliseconds. -/
abbrev Time := ℤ

/-! ## Enumerations (`constants.ts`) -/

inductive Role
  | admin | operator | viewer
  deriving DecidableEq, Repr

inductive ResourceType
  | ec2 | s3 | lambda | cloudwatch
  deriving DecidableEq, Repr

/-- The values of `CLOUD_PROVIDER`, and of a resource's `provider`. -/
inductive Provider
  | aws | mock
  deriving DecidableEq, Repr

inductive JobStatus
  | pending | running | retryWait | completed | failed | deadLettered | cancelled
  deriving DecidableEq, Repr

inductive PlanStatus
  | draft | awaitingApproval | approved | executing | completed | failed | rejected
  deriving DecidableEq, Repr

inductive ExecutionStatus
  | pending | running | succeeded | partialFailure | failed | skippedDuplicate
  deriving DecidableEq, Repr

/-- The action types a recommendation or a stored plan can carry: the five of
`ALLOWLISTED_ACTIONS`, `manual_review`, and any other string. -/
inductive ActionType
  | addMissingTag | createAlarm | enableBackupPolicy | restartUnhealthyService
  | restrictPublicStorage | manualReview | other (name : String)
  deriving DecidableEq, Repr

/-- `ALLOWLISTED_ACTIONS`.
SRCLINE: packages/shared/src/constants.ts:42-48 -/
def ALLOWLISTED_ACTIONS : List ActionType :=
  [.addMissingTag, .createAlarm, .enableBackupPolicy, .restartUnhealthyService,
    .restrictPublicStorage]

/-- `POLICY_RULE_IDS`.
SRCLINE: packages/shared/src/constants.ts:53-63 -/
def POLICY_RULE_IDS : List String :=
  ["ec2.low_utilization", "resource.missing_tags", "s3.public_access",
    "cloudwatch.missing_alarms", "service.unhealthy", "resource.missing_backup",
    "app.repeated_errors", "api.elevated_latency", "reliability.failure_rate_increase"]

/-- The string an action type stands for. -/
def ActionType.name : ActionType → String
  | .addMissingTag => "add_missing_tag"
  | .createAlarm => "create_alarm"
  | .enableBackupPolicy => "enable_backup_policy"
  | .restartUnhealthyService => "restart_unhealthy_service"
  | .restrictPublicStorage => "restrict_public_storage"
  | .manualReview => "manual_review"
  | .other name => name

def ResourceType.name : ResourceType → String
  | .ec2 => "ec2"
  | .s3 => "s3"
  | .lambda => "lambda"
  | .cloudwatch => "cloudwatch"

def JobStatus.name : JobStatus → String
  | .pending => "pending"
  | .running => "running"
  | .retryWait => "retry_wait"
  | .completed => "completed"
  | .failed => "failed"
  | .deadLettered => "dead_lettered"
  | .cancelled => "cancelled"

def PlanStatus.name : PlanStatus → String
  | .draft => "draft"
  | .awaitingApproval => "awaiting_approval"
  | .approved => "approved"
  | .executing => "executing"
  | .completed => "completed"
  | .failed => "failed"
  | .rejected => "rejected"

/-! ## Errors (`errors.ts`) -/

/-- An exception that is no `AppError`, by the name of its class and its message. -/
structure OtherError where
  name : String
  message : String
  deriving DecidableEq, Repr

/-- The subclasses of `AppError` the services throw, with their message, and any other
exception (a driver error, a failed write). Only a dependency error is told whether it may be
retried. -/
inductive AppError
  | validation (message : String)
  | unauthorized (message : String)
  | forbidden (message : String)
  | notFound (message : String)
  | conflict (message : String)
  | dependency (message : String) (retryable : Bool)
  | duplicateKey
  | internal (error : OtherError)
  deriving DecidableEq, Repr

/-! ## Diagnostic jobs -/

structure StructuredFailure where
  code : String
  message : String
  retryable : Bool
  cause : Option String
  «at» : Time
  deriving DecidableEq, Repr

structure JobResultSummary where
  resourcesScanned : ℕ
  findingsCreated : ℕ
  recommendationsCreated : ℕ
  deriving DecidableEq, Repr

/-- A `DiagnosticJob` document.
SRCLINE: packages/shared/src/db/models/diagnostic-job.ts:4-29 -/
structure DiagnosticJob where
  id : String
  workspaceId : String
  status : JobStatus
  resourceIds : Option (List String)
  resourceTypes : Option (List ResourceType)
  idempotencyKey : String
  correlationId : String
  leaseUntil : Option Time
  heartbeatAt : Option Time
  claimedBy : Option String
  attempts : ℕ
  maxAttempts : ℕ
  nextRunAt : Time
  lastError : Option StructuredFailure
  resultSummary : Option JobResultSummary
  createdBy : String
  completedAt : Option Time
  timeoutMs : Time
  version : ℕ
  createdAt : Time
  deriving DecidableEq, Repr

instance : Document DiagnosticJob String (String × String) where
  _id := (·.id)
  uniqueIndex job := (job.workspaceId, job.idempotencyKey)

end CloudOps.Model
