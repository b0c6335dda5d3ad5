import CloudOps.Model.Database

/-!
# The job service (`job-service.ts`)

`create`, `list`, `get` and `retry` as programs over the database. Serialized documents stand
for themselves.
-/

set_option autoImplicit false

namespace CloudOps.Model

open CloudOps.Computation

def DiagnosticJobModel.countDocuments (workspaceId : String) (query : JobQuery) : DbProg ℕ :=
  .call (.countJobs workspaceId query) .ret

def DiagnosticJobModel.find (workspaceId : String) (query : JobQuery) (page : Page) :
    DbProg (List DiagnosticJob) :=
  .call (.listJobs workspaceId query page) .ret

/-- A page of a list, as the services return it. -/
structure Listing (δ : Type) where
  items : List δ
  page : ℕ
  limit : ℕ
  total : ℕ

namespace JobService

/-- What `create` draws from elsewhere. -/
structure CreateDraws where
  newJobId : String
  now : Time
  auditedAt : Time

/-- A job, and whether it was there before. -/
structure JobReply where
  job : DiagnosticJob
  replayed : Bool
  deriving DecidableEq

def createAudit (actorId correlationId : String) (job : DiagnosticJob) (auditedAt : Time) :
    AuditEvent where
  workspaceId := job.workspaceId
  actorId := actorId
  action := "diagnostics.create"
  resourceType := "DiagnosticJob"
  resourceId := some job.id
  correlationId := correlationId
  metadata := .created job.idempotencyKey
  createdAt := auditedAt

/-- The `try` of `create`.
SRCLINE: apps/api/src/services/job-service.ts:28-53 -/
def insertJob (actorId correlationId : String) (draws : CreateDraws) (job : DiagnosticJob) :
    DbProg JobReply := do
  DiagnosticJobModel.create job
  recordAudit (createAudit actorId correlationId job draws.auditedAt)
  return ⟨job, false⟩

/-- SRCLINE: apps/api/src/services/job-service.ts:15-63 -/
def create (svc : JobService) (workspaceId actorId correlationId : String)
    (input : CreateJobInput) (draws : CreateDraws) : DbProg JobReply := do
  let existing ← DiagnosticJobModel.findByKey workspaceId input.idempotencyKey
  match existing with
  | some existing => return ⟨existing, true⟩
  | none =>
    let job := svc.newJob draws.newJobId workspaceId actorId correlationId input draws.now
    (insertJob actorId correlationId draws job).handle fun
      | .ok reply => return reply
      | .error err =>
        if err = .duplicateKey then do
          let replay ← DiagnosticJobModel.findByKey workspaceId input.idempotencyKey
          match replay with
          | some replay => return ⟨replay, true⟩
          | none => Prog.throw err
        else Prog.throw err

/-- SRCLINE: apps/api/src/services/job-service.ts:65-74 -/
def list (workspaceId : String) (query : JobQuery) (page : Page) :
    DbProg (Listing DiagnosticJob) := do
  let total ← DiagnosticJobModel.countDocuments workspaceId query
  let docs ← DiagnosticJobModel.find workspaceId query page
  return ⟨docs, page.page, page.limit, total⟩

/-- SRCLINE: apps/api/src/services/job-service.ts:76-79 -/
def get (workspaceId id : String) : DbProg (Option DiagnosticJob) :=
  DiagnosticJobModel.findOne id workspaceId

def retryAudit (workspaceId id actorId correlationId : String) (auditedAt : Time) :
    AuditEvent where
  workspaceId := workspaceId
  actorId := actorId
  action := "jobs.retry"
  resourceType := "DiagnosticJob"
  resourceId := some id
  correlationId := correlationId
  metadata := .empty
  createdAt := auditedAt

/-- SRCLINE: apps/api/src/services/job-service.ts:81-104 -/
def retry (workspaceId id actorId correlationId : String) (now auditedAt : Time) :
    DbProg DiagnosticJob := do
  let job? ← DiagnosticJobModel.findOne id workspaceId
  match job? with
  | none => Prog.throw (.notFound "Job not found")
  | some job =>
    if !retryable job.status then
      Prog.throw (.conflict ("Job cannot be retried from status " ++ job.status.name))
    else
      let call : RetryCall := ⟨job, now⟩
      DiagnosticJobModel.save call
      recordAudit (retryAudit workspaceId id actorId correlationId auditedAt)
      return retrySave call job

end JobService

end CloudOps.Model
