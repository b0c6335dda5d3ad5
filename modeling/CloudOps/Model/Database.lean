import CloudOps.Computation.Collection
import CloudOps.Computation.Interleaving
import CloudOps.Model.RemediationEngine
import CloudOps.Model.JobQueue
import CloudOps.Model.DiagnosticsClient

/-!
# The database

The documents the services and the worker work on, and the atomic operations they perform
on the database, one constructor for each awaited call. A `save` writes only the fields
changed since the document was loaded; there is no version check, and no operation deletes.

A number that an operation writes was computed by its caller: `saveResource` sets a
version, `upsertResource` increments the stored one.
-/

set_option autoImplicit false

namespace CloudOps.Model

open CloudOps.Computation

/-! ## Documents -/

/-- SRCLINE: packages/shared/src/db/models/cloud-resource.ts:4-23 -/
structure CloudResource where
  id : String
  workspaceId : String
  provider : Provider
  type : ResourceType
  region : String
  arn : String
  name : String
  tags : StringRecord
  config : ResourceConfig
  metrics : ResourceMetrics
  lastSyncedAt : Time
  version : ℤ
  deriving DecidableEq

/-- The part of a resource that actions read and write. -/
def CloudResource.state (resource : CloudResource) : ResourceState :=
  ⟨resource.tags, resource.config, resource.metrics⟩

/-- SRCLINE: packages/shared/src/db/models/finding.ts:4-17 -/
structure Finding where
  id : String
  workspaceId : String
  jobId : String
  resourceId : String
  ruleId : String
  severity : String
  title : String
  description : String
  evidence : JsonText
  correlationId : String
  createdAt : Time
  deriving DecidableEq

/-- SRCLINE: packages/shared/src/db/models/recommendation.ts:3-16 -/
structure Recommendation where
  id : String
  workspaceId : String
  jobId : String
  findingId : String
  resourceId : String
  actionType : ActionType
  explanation : String
  estimatedImpact : String
  confidence : ℚ
  correlationId : String
  createdAt : Time
  deriving DecidableEq

inductive HealthStatus
  | healthy | unhealthy | degraded
  deriving DecidableEq, Repr

/-- An entry of `checks`. -/
structure CheckResult where
  name : String
  passed : Bool
  detail : String
  deriving DecidableEq

/-- SRCLINE: packages/shared/src/db/models/health-check.ts:3-12 -/
structure HealthCheck where
  workspaceId : String
  resourceId : String
  status : HealthStatus
  checks : List CheckResult
  observedAt : Time
  deriving DecidableEq

/-- SRCLINE: packages/shared/src/db/models/remediation-plan.ts:4-17 -/
structure RemediationPlan where
  id : String
  workspaceId : String
  findingIds : List String
  actions : List RemediationAction
  dryRun : Bool
  status : PlanStatus
  createdBy : String
  correlationId : String
  idempotencyKey : String
  version : ℤ
  deriving DecidableEq

/-- SRCLINE: packages/shared/src/db/models/approval-token.ts:3-13 -/
structure ApprovalToken where
  id : String
  workspaceId : String
  planId : String
  tokenHash : String
  expiresAt : Time
  usedAt : Option Time
  createdBy : String
  deriving DecidableEq

/-- An entry of `beforeState`. -/
structure Snapshot where
  tags : StringRecord
  config : ResourceConfig
  deriving DecidableEq

/-- An entry of `afterState`: the preview of a dry run, or what is stored. -/
inductive AfterState
  | preview (resource : ResourceState)
  | stored (snapshot : Snapshot)
  deriving DecidableEq

/-- SRCLINE: packages/shared/src/db/models/remediation-execution.ts:4-23 -/
structure RemediationExecution where
  id : String
  workspaceId : String
  planId : String
  approvalTokenId : String
  idempotencyKey : String
  correlationId : String
  status : ExecutionStatus
  dryRun : Bool
  beforeState : Dict String Snapshot
  afterState : Dict String AfterState
  results : List ActionResult
  startedAt : Time
  completedAt : Time
  createdBy : String
  deriving DecidableEq

inductive AuditMetadata
  | planned (dryRun : Bool) (actions : ℕ)
  | approved (approvalTokenId : String)
  | executed (status : ExecutionStatus) (dryRun : Bool) (failed : ℕ)
  | synced (count : ℕ) (provider : Provider)
  | created (idempotencyKey : String)
  | empty
  deriving DecidableEq

/-- SRCLINE: packages/shared/src/audit/record.ts:3-22 -/
structure AuditEvent where
  workspaceId : String
  actorId : String
  action : String
  resourceType : String
  resourceId : Option String
  correlationId : String
  metadata : AuditMetadata
  createdAt : Time
  deriving DecidableEq

instance : Document CloudResource String (String × String) where
  _id := (·.id)
  uniqueIndex resource := (resource.workspaceId, resource.arn)

instance : Document Finding String (String × String × String × String) where
  _id := (·.id)
  uniqueIndex finding := (finding.workspaceId, finding.jobId, finding.resourceId, finding.ruleId)

instance : Document Recommendation String (String × String) where
  _id := (·.id)
  uniqueIndex recommendation := (recommendation.workspaceId, recommendation.findingId)

instance : Document RemediationPlan String (String × String) where
  _id := (·.id)
  uniqueIndex plan := (plan.workspaceId, plan.idempotencyKey)

instance : Document ApprovalToken String String where
  _id := (·.id)
  uniqueIndex := (·.tokenHash)

instance : Document RemediationExecution String (String × String) where
  _id := (·.id)
  uniqueIndex execution := (execution.workspaceId, execution.idempotencyKey)

structure Database where
  jobs : Collection DiagnosticJob
  resources : Collection CloudResource
  findings : Collection Finding
  recommendations : Collection Recommendation
  plans : Collection RemediationPlan
  tokens : Collection ApprovalToken
  executions : Collection RemediationExecution
  healthChecks : List HealthCheck
  audits : List AuditEvent

/-- The database before the first document. -/
def Database.empty : Database where
  jobs := .empty
  resources := .empty
  findings := .empty
  recommendations := .empty
  plans := .empty
  tokens := .empty
  executions := .empty
  healthChecks := []
  audits := []

/-! ## Queries of the lists

A page counts from one; the driver takes a limit of zero for none. -/

structure Page where
  page : ℕ
  limit : ℕ

/-- `.skip((page - 1) * limit).limit(limit)`. -/
def Page.take {δ : Type} (page : Page) (docs : List δ) : List δ :=
  let rest := docs.drop ((page.page - 1) * page.limit)
  if page.limit = 0 then rest else rest.take page.limit

/-- The condition of an optional field of a query; an empty string is no condition. -/
def matchesField (field : Option String) (value : String) : Bool :=
  match field with
  | none => true
  | some wanted => wanted = "" || value = wanted

/-- SRCLINE: apps/api/src/services/job-service.ts:65-67 -/
structure JobQuery where
  status : Option String

def JobQuery.filter (query : JobQuery) (job : DiagnosticJob) : Bool :=
  matchesField query.status job.status.name

/-- SRCLINE: apps/api/src/services/resource-service.ts:54-62 -/
structure ResourceQuery where
  type : Option String
  region : Option String
  q : Option String

/-- `regex` stands for the search of the driver: its pattern is the escaped text of `q`, and case
does not matter. -/
def ResourceQuery.filter (regex : String → String → Bool) (query : ResourceQuery)
    (resource : CloudResource) : Bool :=
  matchesField query.type resource.type.name && matchesField query.region resource.region &&
    match query.q with
    | none => true
    | some q => q = "" || regex q resource.name

/-- SRCLINE: apps/api/src/services/query-service.ts:9-16 -/
structure FindingQuery where
  severity : Option String
  resourceId : Option String
  jobId : Option String

def FindingQuery.filter (query : FindingQuery) (finding : Finding) : Bool :=
  matchesField query.severity finding.severity &&
    matchesField query.resourceId finding.resourceId &&
    matchesField query.jobId finding.jobId

/-- SRCLINE: apps/api/src/services/query-service.ts:25-31 -/
structure RecommendationQuery where
  actionType : Option String
  jobId : Option String

def RecommendationQuery.filter (query : RecommendationQuery) (recommendation : Recommendation) :
    Bool :=
  matchesField query.actionType recommendation.actionType.name &&
    matchesField query.jobId recommendation.jobId

/-- SRCLINE: apps/api/src/services/query-service.ts:40-46 -/
structure AuditQuery where
  action : Option String
  actorId : Option String

def AuditQuery.filter (query : AuditQuery) (event : AuditEvent) : Bool :=
  matchesField query.action event.action && matchesField query.actorId event.actorId

/-- `.sort({ createdAt: -1 })`; documents of one instant stay in the order of the collection. -/
def newestFirst {δ : Type} (createdAt : δ → Time) (docs : List δ) : List δ :=
  docs.mergeSort fun a b => createdAt b ≤ createdAt a

/-! ## Operations -/

/-- The fields a `resource.save()` writes: those that changed, and the version. -/
structure ResourcePatch where
  tags : Option StringRecord
  config : Option ResourceConfig
  metrics : Option ResourceMetrics
  version : ℤ
  deriving DecidableEq

/-- What `resource.save()` writes of `updated`, the document having been `loaded`. -/
def ResourcePatch.changes (loaded updated : CloudResource) : ResourcePatch where
  tags := if updated.tags = loaded.tags then none else some updated.tags
  config := if updated.config = loaded.config then none else some updated.config
  metrics := if updated.metrics = loaded.metrics then none else some updated.metrics
  version := updated.version

def ResourcePatch.apply (patch : ResourcePatch) (resource : CloudResource) : CloudResource :=
  { resource with
    tags := patch.tags.getD resource.tags
    config := patch.config.getD resource.config
    metrics := patch.metrics.getD resource.metrics
    version := patch.version }

/-- A resource as a cloud provider lists it.
SRCLINE: packages/shared/src/providers/types.ts:8-14 -/
structure ListedResource where
  provider : Provider
  type : ResourceType
  region : String
  arn : String
  name : String
  tags : StringRecord
  config : ResourceConfig
  metrics : ResourceMetrics
  deriving DecidableEq

/-- The database calls of the services; the name tells collection and method. -/
inductive DbOp
  | findExecutionByKey (workspaceId idempotencyKey : String)
  | findPlanByKey (workspaceId idempotencyKey : String)
  | findPlan (planId workspaceId : String)
  | findFindings (workspaceId : String) (ids : List String)
  | findRecommendations (workspaceId : String) (findingIds : List String)
  | findApprovals (workspaceId planId : String)
  | findResources (workspaceId : String) (ids : List String)
  | findJobByKey (workspaceId idempotencyKey : String)
  | findJob (id workspaceId : String)
  | findJobById (id : String)
  | findInventory (workspaceId : String) (ids : Option (List String))
      (types : Option (List ResourceType))
  | findResource (id workspaceId : String)
  | countJobs (workspaceId : String) (query : JobQuery)
  | listJobs (workspaceId : String) (query : JobQuery) (page : Page)
  | countResources (regex : String → String → Bool) (workspaceId : String) (query : ResourceQuery)
  | listResources (regex : String → String → Bool) (workspaceId : String) (query : ResourceQuery)
      (page : Page)
  | countFindings (workspaceId : String) (query : FindingQuery)
  | listFindings (workspaceId : String) (query : FindingQuery) (page : Page)
  | countRecommendations (workspaceId : String) (query : RecommendationQuery)
  | listRecommendations (workspaceId : String) (query : RecommendationQuery) (page : Page)
  | countAudits (workspaceId : String) (query : AuditQuery)
  | listAudits (workspaceId : String) (query : AuditQuery) (page : Page)
  | createJob (job : DiagnosticJob)
  | saveJob (call : RetryCall)
  | claimJob (config : JobQueueConfig) (workerId : String) (now : Time) (jobId : String)
  | heartbeatJob (config : JobQueueConfig) (jobId workerId : String) (now : Time)
  | completeJob (jobId : String) (summary : JobResultSummary) (now : Time)
  | failJob (config : JobQueueConfig) (call : FailCall) (random : ℚ) (now : Time)
  | recoverAbandoned (now : Time)
  | upsertFinding (workspaceId jobId correlationId : String) (finding : EngineFinding)
      (now : Time) (newId : String)
  | upsertRecommendation (workspaceId jobId correlationId findingId : String)
      (finding : EngineFinding) (now : Time) (newId : String)
  | createHealthCheck (check : HealthCheck)
  | createPlan (plan : RemediationPlan)
  | createApproval (token : ApprovalToken)
  | createExecution (execution : RemediationExecution)
  | savePlan (id : String) (status : Option PlanStatus)
  | saveApproval (id : String) (usedAt : Time)
  | saveResource (id : String) (patch : ResourcePatch)
  | upsertResource (workspaceId : String) (item : ListedResource) (lastSyncedAt : Time)
      (newId : String)
  | recordAudit (event : AuditEvent)

/-- What each call replies. A `create` and an upsert can hit a unique index. -/
@[reducible] def DbOp.Reply : DbOp → Type
  | .findExecutionByKey _ _ => Option RemediationExecution
  | .findPlanByKey _ _ => Option RemediationPlan
  | .findPlan _ _ => Option RemediationPlan
  | .findFindings _ _ => List Finding
  | .findRecommendations _ _ => List Recommendation
  | .findApprovals _ _ => List ApprovalToken
  | .findResources _ _ => List CloudResource
  | .findJobByKey _ _ => Option DiagnosticJob
  | .findJob _ _ => Option DiagnosticJob
  | .findJobById _ => Option DiagnosticJob
  | .findInventory _ _ _ => List CloudResource
  | .findResource _ _ => Option CloudResource
  | .countJobs _ _ => ℕ
  | .listJobs _ _ _ => List DiagnosticJob
  | .countResources _ _ _ => ℕ
  | .listResources _ _ _ _ => List CloudResource
  | .countFindings _ _ => ℕ
  | .listFindings _ _ _ => List Finding
  | .countRecommendations _ _ => ℕ
  | .listRecommendations _ _ _ => List Recommendation
  | .countAudits _ _ => ℕ
  | .listAudits _ _ _ => List AuditEvent
  | .createJob _ => Except AppError Unit
  | .saveJob _ => Unit
  | .claimJob _ _ _ _ => Option DiagnosticJob
  | .heartbeatJob _ _ _ _ => Unit
  | .completeJob _ _ _ => Unit
  | .failJob _ _ _ _ => Option DiagnosticJob
  | .recoverAbandoned _ => Unit
  | .upsertFinding _ _ _ _ _ _ => Except AppError Finding
  | .upsertRecommendation _ _ _ _ _ _ _ => Except AppError Recommendation
  | .createHealthCheck _ => Unit
  | .createPlan _ => Except AppError Unit
  | .createApproval _ => Except AppError Unit
  | .createExecution _ => Except AppError Unit
  | .savePlan _ _ => Unit
  | .saveApproval _ _ => Unit
  | .saveResource _ _ => Unit
  | .upsertResource _ _ _ _ => Except AppError CloudResource
  | .recordAudit _ => Unit

/-- Whether the call writes. -/
def DbOp.writes : DbOp → Bool
  | .findExecutionByKey _ _ | .findPlanByKey _ _ | .findPlan _ _ | .findFindings _ _
  | .findRecommendations _ _ | .findApprovals _ _ | .findResources _ _ | .findJobByKey _ _
  | .findJob _ _ | .findJobById _ | .findInventory _ _ _ | .findResource _ _ | .countJobs _ _
  | .listJobs _ _ _ | .countResources _ _ _ | .listResources _ _ _ _ | .countFindings _ _
  | .listFindings _ _ _ | .countRecommendations _ _ | .listRecommendations _ _ _
  | .countAudits _ _ | .listAudits _ _ _ => false
  | _ => true

/-- The fields an upsert sets. -/
def ListedResource.fields (item : ListedResource) (lastSyncedAt : Time)
    (resource : CloudResource) : CloudResource :=
  { resource with
    provider := item.provider
    type := item.type
    region := item.region
    name := item.name
    tags := item.tags
    config := item.config
    metrics := item.metrics
    lastSyncedAt := lastSyncedAt }

/-- The update of `sync` on a resource that is there.
SRCLINE: apps/api/src/services/resource-service.ts:34-38 -/
def syncUpdate (item : ListedResource) (lastSyncedAt : Time) (resource : CloudResource) :
    CloudResource :=
  { item.fields lastSyncedAt resource with version := resource.version + 1 }

/-- The document `sync` inserts for a resource that is not there: `$inc` starts from nothing.
SRCLINE: apps/api/src/services/resource-service.ts:34-38 -/
def syncInsert (workspaceId : String) (item : ListedResource) (lastSyncedAt : Time)
    (newId : String) : CloudResource where
  id := newId
  workspaceId := workspaceId
  provider := item.provider
  type := item.type
  region := item.region
  arn := item.arn
  name := item.name
  tags := item.tags
  config := item.config
  metrics := item.metrics
  lastSyncedAt := lastSyncedAt
  version := 1

/-- The reply to a `create`, and the collection after it. -/
def createIn {δ κ ι : Type} [Document δ κ ι] [DecidableEq κ] [DecidableEq ι]
    (collection : Collection δ) (document : δ) : Except AppError Unit × Collection δ :=
  match collection.insert? document with
  | some collection' => (.ok (), collection')
  | none => (.error .duplicateKey, collection)

/-- Finds the resource by workspace and arn, then updates or inserts, in one atomic step. -/
def upsertIn (resources : Collection CloudResource) (workspaceId : String)
    (item : ListedResource) (lastSyncedAt : Time) (newId : String) :
    Except AppError CloudResource × Collection CloudResource :=
  match resources.find? fun r => r.workspaceId == workspaceId && r.arn == item.arn with
  | some resource =>
    (.ok (syncUpdate item lastSyncedAt resource),
      resources.update resource.id (syncUpdate item lastSyncedAt))
  | none =>
    let document := syncInsert workspaceId item lastSyncedAt newId
    match resources.insert? document with
    | some resources' => (.ok document, resources')
    | none => (.error .duplicateKey, resources)

/-- The fields the upsert of a finding sets.
SRCLINE: apps/worker/src/processor.ts:114-121 -/
def EngineFinding.setFinding (finding : EngineFinding) (correlationId : String)
    (stored : Finding) : Finding :=
  { stored with
    severity := finding.severity
    title := finding.title
    description := finding.description
    evidence := finding.evidence
    correlationId := correlationId }

/-- The document the upsert of a finding inserts.
SRCLINE: apps/worker/src/processor.ts:111-123 -/
def EngineFinding.newFinding (finding : EngineFinding) (workspaceId jobId correlationId : String)
    (now : Time) (newId : String) : Finding where
  id := newId
  workspaceId := workspaceId
  jobId := jobId
  resourceId := finding.resourceId
  ruleId := finding.ruleId
  severity := finding.severity
  title := finding.title
  description := finding.description
  evidence := finding.evidence
  correlationId := correlationId
  createdAt := now

/-- The reply of the driver to an upsert. -/
def upsertReply {δ : Type} : Option δ → Except AppError δ
  | some document => .ok document
  | none => .error .duplicateKey

/-- SRCLINE: apps/worker/src/processor.ts:111-123 -/
def upsertFindingIn (findings : Collection Finding) (workspaceId jobId correlationId : String)
    (finding : EngineFinding) (now : Time) (newId : String) :
    Except AppError Finding × Collection Finding :=
  let (stored, findings) := findings.upsert
    (fun f => f.workspaceId == workspaceId && f.jobId == jobId &&
      f.resourceId == finding.resourceId && f.ruleId == finding.ruleId)
    (finding.setFinding correlationId)
    (finding.newFinding workspaceId jobId correlationId now newId)
  (upsertReply stored, findings)

/-- The fields the upsert of a recommendation sets.
SRCLINE: apps/worker/src/processor.ts:128-136 -/
def EngineFinding.setRecommendation (finding : EngineFinding) (jobId correlationId : String)
    (stored : Recommendation) : Recommendation :=
  { stored with
    jobId := jobId
    resourceId := finding.resourceId
    actionType := finding.recommendation.actionType
    explanation := finding.recommendation.explanation
    estimatedImpact := finding.recommendation.estimatedImpact
    confidence := finding.recommendation.confidence
    correlationId := correlationId }

/-- The document the upsert of a recommendation inserts.
SRCLINE: apps/worker/src/processor.ts:125-139 -/
def EngineFinding.newRecommendation (finding : EngineFinding)
    (workspaceId jobId correlationId findingId : String) (now : Time) (newId : String) :
    Recommendation where
  id := newId
  workspaceId := workspaceId
  jobId := jobId
  findingId := findingId
  resourceId := finding.resourceId
  actionType := finding.recommendation.actionType
  explanation := finding.recommendation.explanation
  estimatedImpact := finding.recommendation.estimatedImpact
  confidence := finding.recommendation.confidence
  correlationId := correlationId
  createdAt := now

/-- SRCLINE: apps/worker/src/processor.ts:125-139 -/
def upsertRecommendationIn (recommendations : Collection Recommendation)
    (workspaceId jobId correlationId findingId : String) (finding : EngineFinding) (now : Time)
    (newId : String) : Except AppError Recommendation × Collection Recommendation :=
  let (stored, recommendations) := recommendations.upsert
    (fun r => r.workspaceId == workspaceId && r.findingId == findingId)
    (finding.setRecommendation jobId correlationId)
    (finding.newRecommendation workspaceId jobId correlationId findingId now newId)
  (upsertReply stored, recommendations)

namespace Database

def findExecutionByKey (db : Database) (workspaceId idempotencyKey : String) :
    Option RemediationExecution :=
  db.executions.find? fun e => e.workspaceId == workspaceId && e.idempotencyKey == idempotencyKey

def findPlanByKey (db : Database) (workspaceId idempotencyKey : String) :
    Option RemediationPlan :=
  db.plans.find? fun p => p.workspaceId == workspaceId && p.idempotencyKey == idempotencyKey

def findPlan (db : Database) (planId workspaceId : String) : Option RemediationPlan :=
  db.plans.find? fun p => p.id == planId && p.workspaceId == workspaceId

def findFindings (db : Database) (workspaceId : String) (ids : List String) : List Finding :=
  db.findings.filter fun f => f.workspaceId == workspaceId && ids.contains f.id

def findRecommendations (db : Database) (workspaceId : String) (findingIds : List String) :
    List Recommendation :=
  db.recommendations.filter fun r =>
    r.workspaceId == workspaceId && findingIds.contains r.findingId

def findApprovals (db : Database) (workspaceId planId : String) : List ApprovalToken :=
  db.tokens.filter fun t => t.workspaceId == workspaceId && t.planId == planId

def findResources (db : Database) (workspaceId : String) (ids : List String) :
    List CloudResource :=
  db.resources.filter fun r => r.workspaceId == workspaceId && ids.contains r.id

def findJobByKey (db : Database) (workspaceId idempotencyKey : String) : Option DiagnosticJob :=
  db.jobs.find? fun j => j.workspaceId == workspaceId && j.idempotencyKey == idempotencyKey

def findJob (db : Database) (id workspaceId : String) : Option DiagnosticJob :=
  db.jobs.find? fun j => j.id == id && j.workspaceId == workspaceId

/-- The filter of `JobProcessor.run`: an absent or empty list is no condition.
SRCLINE: apps/worker/src/processor.ts:89-92 -/
def findInventory (db : Database) (workspaceId : String) (ids : Option (List String))
    (types : Option (List ResourceType)) : List CloudResource :=
  let listed {α : Type} [DecidableEq α] (wanted : Option (List α)) (value : α) : Bool :=
    (wanted.getD []).isEmpty || (wanted.getD []).contains value
  db.resources.filter fun r =>
    r.workspaceId == workspaceId && listed ids r.id && listed types r.type

def findResource (db : Database) (id workspaceId : String) : Option CloudResource :=
  db.resources.find? fun r => r.id == id && r.workspaceId == workspaceId

/-- The documents of a workspace that a query of a list matches. -/
def jobsOf (db : Database) (workspaceId : String) (query : JobQuery) : List DiagnosticJob :=
  db.jobs.filter fun j => j.workspaceId == workspaceId && query.filter j

def resourcesOf (regex : String → String → Bool) (db : Database) (workspaceId : String)
    (query : ResourceQuery) : List CloudResource :=
  db.resources.filter fun r => r.workspaceId == workspaceId && query.filter regex r

def findingsOf (db : Database) (workspaceId : String) (query : FindingQuery) : List Finding :=
  db.findings.filter fun f => f.workspaceId == workspaceId && query.filter f

def recommendationsOf (db : Database) (workspaceId : String) (query : RecommendationQuery) :
    List Recommendation :=
  db.recommendations.filter fun r => r.workspaceId == workspaceId && query.filter r

def auditsOf (db : Database) (workspaceId : String) (query : AuditQuery) : List AuditEvent :=
  db.audits.filter fun a => a.workspaceId == workspaceId && query.filter a

end Database

/-- Performs one call atomically. -/
def DbOp.exec : (op : DbOp) → Database → op.Reply × Database
  | .findExecutionByKey ws key, db => (db.findExecutionByKey ws key, db)
  | .findPlanByKey ws key, db => (db.findPlanByKey ws key, db)
  | .findPlan id ws, db => (db.findPlan id ws, db)
  | .findFindings ws ids, db => (db.findFindings ws ids, db)
  | .findRecommendations ws ids, db => (db.findRecommendations ws ids, db)
  | .findApprovals ws planId, db => (db.findApprovals ws planId, db)
  | .findResources ws ids, db => (db.findResources ws ids, db)
  | .findJobByKey ws key, db => (db.findJobByKey ws key, db)
  | .findJob id ws, db => (db.findJob id ws, db)
  | .findJobById id, db => (db.jobs.get? id, db)
  | .findInventory ws ids types, db => (db.findInventory ws ids types, db)
  | .findResource id ws, db => (db.findResource id ws, db)
  | .countJobs ws query, db => ((db.jobsOf ws query).length, db)
  | .listJobs ws query page, db =>
    (page.take (newestFirst (·.createdAt) (db.jobsOf ws query)), db)
  | .countResources regex ws query, db => ((db.resourcesOf regex ws query).length, db)
  | .listResources regex ws query page, db =>
    (page.take ((db.resourcesOf regex ws query).mergeSort fun a b => a.name ≤ b.name), db)
  | .countFindings ws query, db => ((db.findingsOf ws query).length, db)
  | .listFindings ws query page, db =>
    (page.take (newestFirst (·.createdAt) (db.findingsOf ws query)), db)
  | .countRecommendations ws query, db => ((db.recommendationsOf ws query).length, db)
  | .listRecommendations ws query page, db =>
    (page.take (newestFirst (·.createdAt) (db.recommendationsOf ws query)), db)
  | .countAudits ws query, db => ((db.auditsOf ws query).length, db)
  | .listAudits ws query page, db =>
    (page.take (newestFirst (·.createdAt) (db.auditsOf ws query)), db)
  | .createJob job, db =>
    let (reply, jobs) := createIn db.jobs job
    (reply, { db with jobs })
  | .saveJob call, db =>
    ((), { db with
      jobs := db.jobs.update call.loaded.id (retrySave call) (retrySave_id call)
        (retrySave_index call) })
  | .claimJob config workerId now jobId, db =>
    let claimed := JobQueue.claim config db.jobs workerId now jobId
    (claimed.bind (·.get? jobId), { db with jobs := claimed.getD db.jobs })
  | .heartbeatJob config jobId workerId now, db =>
    ((), { db with
      jobs := db.jobs.updateMany (fun job => job.id = jobId && heartbeatFilter workerId job)
        (heartbeatUpdate config now) })
  | .completeJob jobId summary now, db =>
    ((), { db with jobs := db.jobs.update jobId (completeUpdate summary now) })
  | .failJob config call random now, db =>
    let jobs := db.jobs.update call.jobId (failUpdate config call random now)
      (by intro job; unfold failUpdate; split <;> rfl)
      (by intro job; unfold failUpdate; split <;> rfl)
    (jobs.get? call.jobId, { db with jobs })
  | .recoverAbandoned now, db => ((), { db with jobs := JobQueue.recoverAbandoned db.jobs now })
  | .upsertFinding ws jobId correlationId finding now newId, db =>
    let (reply, findings) := upsertFindingIn db.findings ws jobId correlationId finding now newId
    (reply, { db with findings })
  | .upsertRecommendation ws jobId correlationId findingId finding now newId, db =>
    let (reply, recommendations) := upsertRecommendationIn db.recommendations ws jobId
      correlationId findingId finding now newId
    (reply, { db with recommendations })
  | .createHealthCheck check, db => ((), { db with healthChecks := db.healthChecks ++ [check] })
  | .createPlan plan, db =>
    let (reply, plans) := createIn db.plans plan
    (reply, { db with plans })
  | .createApproval token, db =>
    let (reply, tokens) := createIn db.tokens token
    (reply, { db with tokens })
  | .createExecution execution, db =>
    let (reply, executions) := createIn db.executions execution
    (reply, { db with executions })
  | .savePlan id status, db =>
    ((), { db with
      plans := db.plans.update id fun plan => { plan with status := status.getD plan.status } })
  | .saveApproval id usedAt, db =>
    ((), { db with
      tokens := db.tokens.update id fun token => { token with usedAt := some usedAt } })
  | .saveResource id patch, db =>
    ((), { db with resources := db.resources.update id patch.apply })
  | .upsertResource ws item lastSyncedAt newId, db =>
    let (reply, resources) := upsertIn db.resources ws item lastSyncedAt newId
    (reply, { db with resources })
  | .recordAudit event, db => ((), { db with audits := db.audits ++ [event] })

/-- The database as the handler of its calls. -/
def database : Handler DbOp DbOp.Reply Database := ⟨DbOp.exec⟩

/-- A write that fails raises an error of the driver. -/
def faults : Faults DbOp AppError :=
  ⟨DbOp.writes, .internal ⟨"MongoNetworkError", "database write failed"⟩⟩

/-- The programs over the database. -/
abbrev DbProg (α : Type) : Type := Prog DbOp DbOp.Reply AppError α

/-! ## The calls, as the services write them -/

def RemediationExecutionModel.findByKey (workspaceId idempotencyKey : String) :
    DbProg (Option RemediationExecution) :=
  .call (.findExecutionByKey workspaceId idempotencyKey) .ret

def RemediationExecutionModel.create (execution : RemediationExecution) : DbProg Unit :=
  .call (.createExecution execution) Prog.ofExcept

def RemediationPlanModel.findByKey (workspaceId idempotencyKey : String) :
    DbProg (Option RemediationPlan) :=
  .call (.findPlanByKey workspaceId idempotencyKey) .ret

def RemediationPlanModel.findById (planId workspaceId : String) :
    DbProg (Option RemediationPlan) :=
  .call (.findPlan planId workspaceId) .ret

def RemediationPlanModel.create (plan : RemediationPlan) : DbProg Unit :=
  .call (.createPlan plan) Prog.ofExcept

/-- `plan.save()`: `status` is the status it was set to, if that differs from the loaded one. -/
def RemediationPlanModel.save (plan : RemediationPlan) (status : PlanStatus) : DbProg Unit :=
  .call (.savePlan plan.id (if plan.status = status then none else some status)) .ret

def ApprovalTokenModel.find (workspaceId planId : String) : DbProg (List ApprovalToken) :=
  .call (.findApprovals workspaceId planId) .ret

def ApprovalTokenModel.create (token : ApprovalToken) : DbProg Unit :=
  .call (.createApproval token) Prog.ofExcept

def ApprovalTokenModel.save (token : ApprovalToken) (usedAt : Time) : DbProg Unit :=
  .call (.saveApproval token.id usedAt) .ret

def FindingModel.find (workspaceId : String) (ids : List String) : DbProg (List Finding) :=
  .call (.findFindings workspaceId ids) .ret

def RecommendationModel.find (workspaceId : String) (findingIds : List String) :
    DbProg (List Recommendation) :=
  .call (.findRecommendations workspaceId findingIds) .ret

def CloudResourceModel.find (workspaceId : String) (ids : List String) :
    DbProg (List CloudResource) :=
  .call (.findResources workspaceId ids) .ret

/-- `resource.save()` of the document `loaded`, now `updated`. -/
def CloudResourceModel.save (loaded updated : CloudResource) : DbProg Unit :=
  .call (.saveResource loaded.id (.changes loaded updated)) .ret

def CloudResourceModel.findOneAndUpdate (workspaceId : String) (item : ListedResource)
    (lastSyncedAt : Time) (newId : String) : DbProg CloudResource :=
  .call (.upsertResource workspaceId item lastSyncedAt newId) Prog.ofExcept

def recordAudit (event : AuditEvent) : DbProg Unit := .call (.recordAudit event) .ret

def DiagnosticJobModel.findByKey (workspaceId idempotencyKey : String) :
    DbProg (Option DiagnosticJob) :=
  .call (.findJobByKey workspaceId idempotencyKey) .ret

def DiagnosticJobModel.findOne (id workspaceId : String) : DbProg (Option DiagnosticJob) :=
  .call (.findJob id workspaceId) .ret

def DiagnosticJobModel.findById (id : String) : DbProg (Option DiagnosticJob) :=
  .call (.findJobById id) .ret

def DiagnosticJobModel.create (job : DiagnosticJob) : DbProg Unit :=
  .call (.createJob job) Prog.ofExcept

/-- `job.save()` in `retry`. -/
def DiagnosticJobModel.save (call : RetryCall) : DbProg Unit := .call (.saveJob call) .ret

def DiagnosticJobModel.claim (config : JobQueueConfig) (workerId : String) (now : Time)
    (jobId : String) : DbProg (Option DiagnosticJob) :=
  .call (.claimJob config workerId now jobId) .ret

def DiagnosticJobModel.complete (jobId : String) (summary : JobResultSummary) (now : Time) :
    DbProg Unit :=
  .call (.completeJob jobId summary now) .ret

def DiagnosticJobModel.fail (config : JobQueueConfig) (call : FailCall) (random : ℚ) (now : Time) :
    DbProg (Option DiagnosticJob) :=
  .call (.failJob config call random now) .ret

def CloudResourceModel.findInventory (workspaceId : String) (ids : Option (List String))
    (types : Option (List ResourceType)) : DbProg (List CloudResource) :=
  .call (.findInventory workspaceId ids types) .ret

def CloudResourceModel.findOne (id workspaceId : String) : DbProg (Option CloudResource) :=
  .call (.findResource id workspaceId) .ret

def FindingModel.findOneAndUpdate (workspaceId jobId correlationId : String)
    (finding : EngineFinding) (now : Time) (newId : String) : DbProg Finding :=
  .call (.upsertFinding workspaceId jobId correlationId finding now newId) Prog.ofExcept

def RecommendationModel.findOneAndUpdate (workspaceId jobId correlationId findingId : String)
    (finding : EngineFinding) (now : Time) (newId : String) : DbProg Recommendation :=
  .call (.upsertRecommendation workspaceId jobId correlationId findingId finding now newId)
    Prog.ofExcept

def HealthCheckModel.create (check : HealthCheck) : DbProg Unit :=
  .call (.createHealthCheck check) .ret

end CloudOps.Model
