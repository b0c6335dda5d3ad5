import CloudOps.Model.Database

/-!
# The remediation service

`createPlan`, `approve` and `execute` as programs over the database, call by call. What a
request takes from elsewhere than the database is an argument: the clock at each reading,
the identities generated for new documents, the random approval token. `hashToken` stands
for SHA-256.
-/

set_option autoImplicit false

namespace CloudOps.Model

open CloudOps.Computation

/-- The settings the services read.
SRCLINE: apps/api/src/config.ts:13-38 -/
structure ApiConfig where
  CLOUD_PROVIDER : Provider
  ENABLE_AWS_MUTATIONS : Bool
  APPROVAL_TTL_MS : Time

/-- What a request returns. -/
inductive Response
  | plan (plan : RemediationPlan) (replayed : Bool)
  | approval (plan : RemediationPlan) (approvalToken : String) (expiresAt : Time)
      (approvalTokenId : String)
  | execution (execution : RemediationExecution) (replayed : Bool)
  | synced (provider : Provider) (items : List CloudResource)

/-- Equality of the hashes, in constant time in the source.
SRCLINE: packages/shared/src/auth/index.ts:48-53 -/
def tokensMatch (hashToken : String → String) (plain hashed : String) : Bool :=
  hashToken plain == hashed

namespace RemediationService

/-! ## createPlan -/

/-- `ACTION_BY_RULE`.
SRCLINE: apps/api/src/services/remediation-service.ts:22-32 -/
def ACTION_BY_RULE (ruleId : String) : Option ActionType :=
  [("ec2.low_utilization", ActionType.manualReview),
    ("resource.missing_tags", .addMissingTag),
    ("s3.public_access", .restrictPublicStorage),
    ("cloudwatch.missing_alarms", .createAlarm),
    ("service.unhealthy", .restartUnhealthyService),
    ("resource.missing_backup", .enableBackupPolicy),
    ("app.repeated_errors", .restartUnhealthyService),
    ("api.elevated_latency", .createAlarm),
    ("reliability.failure_rate_increase", .createAlarm)].lookup ruleId

/-- The body of `createPlan`, and what it draws from elsewhere. -/
structure PlanInput where
  findingIds : List String
  dryRun : Bool
  idempotencyKey : String
  newPlanId : String
  auditedAt : Time

/-- The action planned for a finding, `none` for one to be reviewed by hand.
SRCLINE: apps/api/src/services/remediation-service.ts:62-76 -/
def planAction (recs : List Recommendation) (finding : Finding) :
    Except AppError (Option RemediationAction) := do
  let rec? := recs.find? fun r => r.findingId == finding.id
  let actionType := ((rec?.map (·.actionType)).orElse fun _ =>
    ACTION_BY_RULE finding.ruleId).getD .manualReview
  if actionType = .manualReview then return none
  assertAllowlisted actionType
  return some {
    actionType := actionType
    resourceId := finding.resourceId
    findingId := finding.id
    params := defaultParams actionType finding.resourceId }

/-- The plan `createPlan` inserts.
SRCLINE: apps/api/src/services/remediation-service.ts:79-89 -/
def newPlan (workspaceId actorId correlationId : String) (input : PlanInput)
    (actions : List RemediationAction) : RemediationPlan where
  id := input.newPlanId
  workspaceId := workspaceId
  findingIds := input.findingIds
  actions := actions
  dryRun := input.dryRun
  status := .awaitingApproval
  createdBy := actorId
  correlationId := correlationId
  idempotencyKey := input.idempotencyKey
  version := 1

def planAudit (actorId correlationId : String) (input : PlanInput) (plan : RemediationPlan) :
    AuditEvent where
  workspaceId := plan.workspaceId
  actorId := actorId
  action := "remediation.plan"
  resourceType := "RemediationPlan"
  resourceId := some plan.id
  correlationId := correlationId
  metadata := .planned input.dryRun plan.actions.length
  createdAt := input.auditedAt

/-- SRCLINE: apps/api/src/services/remediation-service.ts:37-100 -/
def createPlan (workspaceId actorId correlationId : String) (input : PlanInput) :
    DbProg Response := do
  let existing ← RemediationPlanModel.findByKey workspaceId input.idempotencyKey
  match existing with
  | some existing => return .plan existing true
  | none =>
    let findings ← FindingModel.find workspaceId input.findingIds
    if findings.length ≠ input.findingIds.length then
      Prog.throw (.notFound "One or more findings were not found in this workspace")
    else
      let recs ← RecommendationModel.find workspaceId (findings.map (·.id))
      let actions ← Prog.ofExcept (findings.mapM (planAction recs))
      let plan := newPlan workspaceId actorId correlationId input actions.reduceOption
      RemediationPlanModel.create plan
      recordAudit (planAudit actorId correlationId input plan)
      return .plan plan false

/-! ## approve -/

/-- What `approve` draws from elsewhere. -/
structure ApproveInput where
  approvalToken : String
  newTokenId : String
  now : Time
  auditedAt : Time

/-- The statuses a plan can be approved from. -/
def approvable (status : PlanStatus) : Bool :=
  status == .awaitingApproval || status == .approved

/-- The token `approve` inserts.
SRCLINE: apps/api/src/services/remediation-service.ts:109-115 -/
def newApproval (hashToken : String → String) (config : ApiConfig)
    (workspaceId planId actorId : String) (input : ApproveInput) : ApprovalToken where
  id := input.newTokenId
  workspaceId := workspaceId
  planId := planId
  tokenHash := hashToken input.approvalToken
  expiresAt := input.now + config.APPROVAL_TTL_MS
  usedAt := none
  createdBy := actorId

def approveAudit (actorId correlationId : String) (input : ApproveInput)
    (approval : ApprovalToken) : AuditEvent where
  workspaceId := approval.workspaceId
  actorId := actorId
  action := "remediation.approve"
  resourceType := "RemediationPlan"
  resourceId := some approval.planId
  correlationId := correlationId
  metadata := .approved approval.id
  createdAt := input.auditedAt

/-- SRCLINE: apps/api/src/services/remediation-service.ts:102-133 -/
def approve (hashToken : String → String) (config : ApiConfig)
    (workspaceId planId actorId correlationId : String) (input : ApproveInput) :
    DbProg Response := do
  let plan? ← RemediationPlanModel.findById planId workspaceId
  match plan? with
  | none => Prog.throw (.notFound "Remediation plan not found")
  | some plan =>
    if !approvable plan.status then
      Prog.throw (.conflict ("Plan cannot be approved from status " ++ plan.status.name))
    else
      let approval := newApproval hashToken config workspaceId planId actorId input
      ApprovalTokenModel.create approval
      -- a plan loaded as approved has nothing to write
      RemediationPlanModel.save plan .approved
      recordAudit (approveAudit actorId correlationId input approval)
      return .approval { plan with status := .approved } input.approvalToken
        approval.expiresAt approval.id

/-! ## execute -/

/-- The body of `execute`, and what it draws from elsewhere. -/
structure ExecuteInput where
  approvalToken : String
  idempotencyKey : String
  checkedAt : Time
  usedAt : Time
  startedAt : Time
  completedAt : Time
  newExecutionId : String
  auditedAt : Time

/-- The approval a token opens, or the reason why it does not.
SRCLINE: apps/api/src/services/remediation-service.ts:157-161 -/
def checkApproval (hashToken : String → String) (approvals : List ApprovalToken)
    (approvalToken : String) (now : Time) : Except AppError ApprovalToken :=
  match approvals.find? fun a => tokensMatch hashToken approvalToken a.tokenHash with
  | none => .error (.forbidden "Invalid approval token")
  | some matched =>
    if matched.usedAt.isSome then .error (.conflict "Approval token already used")
    else if matched.expiresAt < now then .error (.forbidden "Approval token expired")
    else .ok matched

/-- The resources of a plan, as loaded, by id. -/
def byId (resources : List CloudResource) : Dict String CloudResource :=
  resources.foldl (fun copies resource => copies.set resource.id resource) Dict.empty

/-- The variables of the action loop: the loaded copies and what is recorded so far. -/
structure LoopState where
  copies : Dict String CloudResource
  beforeState : Dict String Snapshot
  afterState : Dict String AfterState
  results : List ActionResult

/-- The variables before the first round. -/
def loopStart (resources : List CloudResource) : LoopState :=
  ⟨byId resources, Dict.empty, Dict.empty, []⟩

/-- The result of an action whose resource was not found. -/
def notFoundResult (action : RemediationAction) : ActionResult where
  actionType := action.actionType
  resourceId := action.resourceId
  ok := false
  simulated := true
  message := "Resource not found in workspace"

/-- Whether an execution writes what an action makes of a resource. -/
def mutates (config : ApiConfig) (dryRun : Bool) : Bool :=
  (dryRun || config.CLOUD_PROVIDER == .mock || !config.ENABLE_AWS_MUTATIONS) && !dryRun

/-- The copy of a resource after an action on it. -/
def updated (resource : CloudResource) (state : ResourceState) : CloudResource :=
  { resource with
    tags := state.tags
    config := state.config
    metrics := state.metrics
    version := resource.version + 1 }

/-- SRCLINE: apps/api/src/services/remediation-service.ts:176-220 -/
def actionLoop (config : ApiConfig) (dryRun : Bool) :
    List RemediationAction → LoopState → DbProg LoopState
  | [], loop => return loop
  | action :: actions, loop =>
    match loop.copies.get? action.resourceId with
    | none =>
      actionLoop config dryRun actions
        { loop with results := loop.results ++ [notFoundResult action] }
    | some resource => do
      let beforeState := loop.beforeState.set action.resourceId ⟨resource.tags, resource.config⟩
      let (state, result) ← Prog.ofExcept (applySimulatedAction resource.state action)
      let results := loop.results ++ [result]
      if mutates config dryRun then
        let resource' := updated resource state
        CloudResourceModel.save resource resource'
        actionLoop config dryRun actions {
          copies := loop.copies.set action.resourceId resource'
          beforeState := beforeState
          afterState := loop.afterState.set action.resourceId
            (.stored ⟨resource'.tags, resource'.config⟩)
          results := results }
      else
        actionLoop config dryRun actions {
          copies := loop.copies
          beforeState := beforeState
          afterState := loop.afterState.set action.resourceId
            (if dryRun then .preview state else .stored ⟨resource.tags, resource.config⟩)
          results := results }

/-- The number of failed results. -/
def failedCount (results : List ActionResult) : ℕ := (results.filter fun r => !r.ok).length

/-- SRCLINE: apps/api/src/services/remediation-service.ts:222-224 -/
def executionStatus (results : List ActionResult) : ExecutionStatus :=
  if failedCount results = 0 then .succeeded
  else if failedCount results = results.length then .failed
  else .partialFailure

/-- SRCLINE: apps/api/src/services/remediation-service.ts:240 -/
def finalStatus (status : ExecutionStatus) : PlanStatus :=
  if status = .succeeded then .completed else .failed

/-- The execution record written after the loop.
SRCLINE: apps/api/src/services/remediation-service.ts:225-239 -/
def executionOf (workspaceId planId actorId correlationId : String) (input : ExecuteInput)
    (plan : RemediationPlan) (matched : ApprovalToken) (loop : LoopState) :
    RemediationExecution where
  id := input.newExecutionId
  workspaceId := workspaceId
  planId := planId
  approvalTokenId := matched.id
  idempotencyKey := input.idempotencyKey
  correlationId := correlationId
  status := executionStatus loop.results
  dryRun := plan.dryRun
  beforeState := loop.beforeState
  afterState := loop.afterState
  results := loop.results
  startedAt := input.startedAt
  completedAt := input.completedAt
  createdBy := actorId

def executeAudit (actorId correlationId : String) (input : ExecuteInput)
    (execution : RemediationExecution) : AuditEvent where
  workspaceId := execution.workspaceId
  actorId := actorId
  action := "remediation.execute"
  resourceType := "RemediationExecution"
  resourceId := some execution.id
  correlationId := correlationId
  metadata := .executed execution.status execution.dryRun (failedCount execution.results)
  createdAt := input.auditedAt

/-- The part of `execute` after its checks.
SRCLINE: apps/api/src/services/remediation-service.ts:167-251 -/
def executeChecked (config : ApiConfig) (workspaceId planId actorId correlationId : String)
    (input : ExecuteInput) (plan : RemediationPlan) (matched : ApprovalToken) :
    DbProg Response := do
  let resourceIds := (plan.actions.map (·.resourceId)).eraseDups
  let resources ← CloudResourceModel.find workspaceId resourceIds
  RemediationPlanModel.save plan .executing
  ApprovalTokenModel.save matched input.usedAt
  let loop ← actionLoop config plan.dryRun plan.actions (loopStart resources)
  let execution := executionOf workspaceId planId actorId correlationId input plan matched loop
  RemediationExecutionModel.create execution
  RemediationPlanModel.save { plan with status := .executing } (finalStatus execution.status)
  recordAudit (executeAudit actorId correlationId input execution)
  return .execution execution false

/-- SRCLINE: apps/api/src/services/remediation-service.ts:135-252 -/
def execute (hashToken : String → String) (config : ApiConfig)
    (workspaceId planId actorId correlationId : String) (input : ExecuteInput) :
    DbProg Response := do
  let existing ← RemediationExecutionModel.findByKey workspaceId input.idempotencyKey
  match existing with
  | some existing => return .execution existing true
  | none =>
    let plan? ← RemediationPlanModel.findById planId workspaceId
    match plan? with
    | none => Prog.throw (.notFound "Remediation plan not found")
    | some plan =>
      if plan.status ≠ .approved then
        Prog.throw (.conflict "Plan must be approved before execution")
      else
        let approvals ← ApprovalTokenModel.find workspaceId planId
        let matched ← Prog.ofExcept
          (checkApproval hashToken approvals input.approvalToken input.checkedAt)
        if !plan.dryRun then
          Prog.ofExcept (rejectMutationsIfDisabled config.ENABLE_AWS_MUTATIONS
            config.CLOUD_PROVIDER)
        executeChecked config workspaceId planId actorId correlationId input plan matched

end RemediationService

end CloudOps.Model
