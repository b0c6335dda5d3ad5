import CloudOps.Computation.Policy
import CloudOps.Analysis.JobIntake
import CloudOps.Analysis.JobRuns
import CloudOps.Model.Http

/-!
# What the claims of a token allow

`Allowed` says which calls a request may make of the database, by the role, the subject and
the workspace of its token, and by what is stored: what is saved by identity must be of the
workspace. `Refers` says what a write refers to, and `BorneOut` what the stored documents owe
an audit event.

Every service keeps to this policy (`Permitted`), each in a lemma of its own; what a request
has found and written is kept by `Stays`, whatever the others do.
-/

set_option autoImplicit false

namespace CloudOps.Analysis

open CloudOps.Computation CloudOps.Model CloudOps.Model.RemediationService
open CloudOps.Model.ResourceService

/-! ## What stays -/

/-- Where a job comes from. -/
def jobOrigin (job : DiagnosticJob) : String × String × String × String × String :=
  (job.id, job.workspaceId, job.idempotencyKey, job.createdBy, job.correlationId)

/-- Where a resource belongs, and which it is. -/
def resourceOrigin (resource : CloudResource) : String × String × String :=
  (resource.id, resource.workspaceId, resource.arn)

/-- What a finding was found for. -/
def findingOrigin (finding : Finding) : String × String × String × String :=
  (finding.id, finding.workspaceId, finding.jobId, finding.resourceId)

/-- **Documents stay**, with what a request may rely on. -/
structure Stays (db db' : Database) : Prop where
  documents : Database.Le db db'
  jobs : ∀ job ∈ db.jobs, ∃ job' ∈ db'.jobs, jobOrigin job' = jobOrigin job
  resources : ∀ resource ∈ db.resources, ∃ resource' ∈ db'.resources,
    resourceOrigin resource' = resourceOrigin resource
  findings : ∀ finding ∈ db.findings, ∃ finding' ∈ db'.findings,
    findingOrigin finding' = findingOrigin finding
  audits : ∀ event ∈ db.audits, event ∈ db'.audits

/-- No call changes where a job comes from. -/
theorem jobOrigin_stays (op : DbOp) {db : Database} {job : DiagnosticJob} (h : job ∈ db.jobs) :
    ∃ job' ∈ (op.exec db).2.jobs, jobOrigin job' = jobOrigin job := by
  cases op with
  | createJob new => exact ⟨job, mem_createIn.mpr (Or.inl h), rfl⟩
  | saveJob call =>
      exact Collection.update_view (retrySave_id call) (retrySave_index call) (fun _ => rfl) h
  | completeJob jobId summary now =>
      refine Collection.update_view ?_ ?_ ?_ h <;> exact fun _ => rfl
  | claimJob config workerId now jobId =>
      show ∃ job' ∈ (JobQueue.claim config db.jobs workerId now jobId).getD db.jobs, _
      unfold JobQueue.claim
      split
      · exact ⟨job, h, rfl⟩
      · split
        · refine Collection.update_view ?_ ?_ ?_ h
          all_goals exact fun _ => rfl
        · exact ⟨job, h, rfl⟩
  | heartbeatJob _ _ _ _ | recoverAbandoned _ =>
      refine Collection.updateMany_view ?_ ?_ ?_ h <;> exact fun _ => rfl
  | failJob config call random now =>
      refine Collection.update_view (fun job => ?_) (fun job => ?_) (fun job => ?_) h
      · unfold failUpdate
        split <;> rfl
      · unfold failUpdate
        split <;> rfl
      · unfold failUpdate
        split <;> rfl
  | _ => exact ⟨job, h, rfl⟩

/-- No call moves a resource. -/
theorem resourceOrigin_stays (op : DbOp) {db : Database} {resource : CloudResource}
    (h : resource ∈ db.resources) :
    ∃ resource' ∈ (op.exec db).2.resources, resourceOrigin resource' = resourceOrigin resource := by
  obtain ⟨resource', hmem, hid, hindex⟩ := resources_stay op h
  exact ⟨resource', hmem, Prod.ext hid hindex⟩

/-- No call changes what a finding was found for. -/
theorem findingOrigin_stays (op : DbOp) {db : Database} {finding : Finding}
    (h : finding ∈ db.findings) :
    ∃ finding' ∈ (op.exec db).2.findings, findingOrigin finding' = findingOrigin finding := by
  obtain ⟨finding', hmem, hid, hkey⟩ := findings_stay op h
  simp only [keyOf, Prod.mk.injEq] at hkey
  obtain ⟨hws, hjob, hresource, -⟩ := hkey
  refine ⟨finding', hmem, ?_⟩
  unfold findingOrigin
  rw [hid, hws, hjob, hresource]

/-- No call removes an audit event. -/
theorem audits_stay (op : DbOp) {db : Database} {event : AuditEvent} (h : event ∈ db.audits) :
    event ∈ (op.exec db).2.audits := by
  cases op with
  | recordAudit new => exact List.mem_append_left _ h
  | _ => exact h

/-- **Every call respects what stays.** -/
theorem respects_stays : database.Respects Stays where
  refl := fun db => ⟨.refl db, fun job h => ⟨job, h, rfl⟩, fun resource h => ⟨resource, h, rfl⟩,
    fun finding h => ⟨finding, h, rfl⟩, fun _ h => h⟩
  trans := by
    intro s t u hst htu
    refine ⟨hst.documents.trans htu.documents, fun job h => ?_, fun resource h => ?_,
      fun finding h => ?_, fun event h => htu.audits event (hst.audits event h)⟩
    · obtain ⟨job', hmem', horigin'⟩ := hst.jobs job h
      obtain ⟨job'', hmem'', horigin''⟩ := htu.jobs job' hmem'
      exact ⟨job'', hmem'', horigin''.trans horigin'⟩
    · obtain ⟨resource', hmem', horigin'⟩ := hst.resources resource h
      obtain ⟨resource'', hmem'', horigin''⟩ := htu.resources resource' hmem'
      exact ⟨resource'', hmem'', horigin''.trans horigin'⟩
    · obtain ⟨finding', hmem', horigin'⟩ := hst.findings finding h
      obtain ⟨finding'', hmem'', horigin''⟩ := htu.findings finding' hmem'
      exact ⟨finding'', hmem'', horigin''.trans horigin'⟩
  exec := fun op db => ⟨Database.le_exec op db, fun _ => jobOrigin_stays op,
    fun _ => resourceOrigin_stays op, fun _ => findingOrigin_stays op, fun _ => audits_stay op⟩

/-! ## The policy -/

/-- The workspace a query names. -/
def queryWorkspace? : DbOp → Option String
  | .findExecutionByKey ws _ | .findPlanByKey ws _ | .findPlan _ ws | .findFindings ws _
  | .findRecommendations ws _ | .findApprovals ws _ | .findResources ws _ | .findJobByKey ws _
  | .findJob _ ws | .findInventory ws _ _ | .findResource _ ws | .countJobs ws _
  | .listJobs ws _ _ | .countResources _ ws _ | .listResources _ ws _ _ | .countFindings ws _
  | .listFindings ws _ _ | .countRecommendations ws _ | .listRecommendations ws _ _
  | .countAudits ws _ | .listAudits ws _ _ => some ws
  | _ => none

/-- **The policy**: what a request with these claims may do to the database as it is. A query is
for the workspace; a new document is of the workspace and signed by the subject; what is saved by
identity is of the workspace; approving takes an admin, any other write an operator. -/
def Allowed (claims : AuthClaims) (db : Database) : DbOp → Prop
  | .createJob job => canOperate claims.role = true ∧ job.workspaceId = claims.workspaceId ∧
      job.createdBy = claims.sub
  | .saveJob call => canOperate claims.role = true ∧
      ∃ job ∈ db.jobs, job.id = call.loaded.id ∧ job.workspaceId = claims.workspaceId
  | .createPlan plan => canOperate claims.role = true ∧ plan.workspaceId = claims.workspaceId ∧
      plan.createdBy = claims.sub ∧ ∀ action ∈ plan.actions, action.actionType ∈ ALLOWLISTED_ACTIONS
  | .createApproval token => canApprove claims.role = true ∧
      token.workspaceId = claims.workspaceId ∧ token.createdBy = claims.sub ∧
      ∃ plan ∈ db.plans, plan.id = token.planId ∧ plan.workspaceId = claims.workspaceId
  | .createExecution execution => canExecute claims.role = true ∧
      execution.workspaceId = claims.workspaceId ∧ execution.createdBy = claims.sub ∧
      ∃ plan ∈ db.plans, plan.id = execution.planId ∧ plan.workspaceId = claims.workspaceId
  | .savePlan id status =>
      (if status = none ∨ status = some .approved then canApprove claims.role = true
        else canExecute claims.role = true) ∧
      ∃ plan ∈ db.plans, plan.id = id ∧ plan.workspaceId = claims.workspaceId
  | .saveApproval id _ => canExecute claims.role = true ∧
      ∃ token ∈ db.tokens, token.id = id ∧ token.workspaceId = claims.workspaceId
  | .saveResource id _ => canExecute claims.role = true ∧
      ∃ resource ∈ db.resources, resource.id = id ∧ resource.workspaceId = claims.workspaceId
  | .upsertResource ws _ _ _ => canOperate claims.role = true ∧ ws = claims.workspaceId
  | .recordAudit event => canOperate claims.role = true ∧
      event.workspaceId = claims.workspaceId ∧ event.actorId = claims.sub
  | op => queryWorkspace? op = some claims.workspaceId

/-- **What a write refers to is stored**: the findings of a plan, the plan of a token, the plan and
the token of an execution, the job of a finding, the finding of a recommendation. -/
def Refers (db : Database) : DbOp → Prop
  | .createPlan plan =>
      (∀ id ∈ plan.findingIds, ∃ finding ∈ db.findings, finding.id = id ∧
        finding.workspaceId = plan.workspaceId) ∧
      ∀ action ∈ plan.actions, ∃ finding ∈ db.findings, finding.id = action.findingId ∧
        finding.workspaceId = plan.workspaceId ∧ finding.resourceId = action.resourceId
  | .createApproval token => ∃ plan ∈ db.plans, plan.id = token.planId ∧
      plan.workspaceId = token.workspaceId
  | .createExecution execution =>
      (∃ plan ∈ db.plans, plan.id = execution.planId ∧
        plan.workspaceId = execution.workspaceId) ∧
      ∃ token ∈ db.tokens, token.id = execution.approvalTokenId ∧
        token.planId = execution.planId ∧ token.workspaceId = execution.workspaceId
  | .upsertFinding workspaceId jobId _ _ _ _ => ∃ job ∈ db.jobs, job.id = jobId ∧
      job.workspaceId = workspaceId
  | .upsertRecommendation workspaceId jobId _ findingId finding _ _ => ∃ stored ∈ db.findings,
      findingOrigin stored = (findingId, workspaceId, jobId, finding.resourceId)
  | _ => True

/-- The resource an upsert is for, by its ARN. -/
def upsertedArn? : DbOp → Option String
  | .upsertResource _ item _ _ => some item.arn
  | _ => none

/-- The resources a request has upserted, one for each upsert. -/
def upsertedArns (past : Past) : List String := past.filterMap fun ev => upsertedArn? ev.op

/-- **What the stored documents owe an audit event**, recorded by a request after this past: the
document it names is there, with the actor, the workspace, the correlation id and the figures of
the event. The figure of a `sync` counts the upserts of the request itself, and the resource of
each is stored. -/
inductive BorneOut (past : Past) (db : Database) : AuditEvent → Prop
  | planned (plan : RemediationPlan) (auditedAt : Time) (hplan : plan ∈ db.plans) : BorneOut past db
      { workspaceId := plan.workspaceId, actorId := plan.createdBy, action := "remediation.plan",
        resourceType := "RemediationPlan", resourceId := some plan.id,
        correlationId := plan.correlationId,
        metadata := .planned plan.dryRun plan.actions.length, createdAt := auditedAt }
  | approved (token : ApprovalToken) (plan : RemediationPlan) (correlationId : String)
      (auditedAt : Time) (htoken : token ∈ db.tokens) (hplan : plan ∈ db.plans)
      (hid : plan.id = token.planId) (hws : plan.workspaceId = token.workspaceId) : BorneOut past db
      { workspaceId := token.workspaceId, actorId := token.createdBy,
        action := "remediation.approve", resourceType := "RemediationPlan",
        resourceId := some token.planId, correlationId := correlationId,
        metadata := .approved token.id, createdAt := auditedAt }
  | executed (execution : RemediationExecution) (auditedAt : Time)
      (hexecution : execution ∈ db.executions) : BorneOut past db
      { workspaceId := execution.workspaceId, actorId := execution.createdBy,
        action := "remediation.execute", resourceType := "RemediationExecution",
        resourceId := some execution.id, correlationId := execution.correlationId,
        metadata := .executed execution.status execution.dryRun (failedCount execution.results),
        createdAt := auditedAt }
  | created (job : DiagnosticJob) (auditedAt : Time) (hjob : job ∈ db.jobs) : BorneOut past db
      { workspaceId := job.workspaceId, actorId := job.createdBy, action := "diagnostics.create",
        resourceType := "DiagnosticJob", resourceId := some job.id,
        correlationId := job.correlationId, metadata := .created job.idempotencyKey,
        createdAt := auditedAt }
  | retried (job : DiagnosticJob) (actorId correlationId : String) (auditedAt : Time)
      (hjob : job ∈ db.jobs) : BorneOut past db
      { workspaceId := job.workspaceId, actorId := actorId, action := "jobs.retry",
        resourceType := "DiagnosticJob", resourceId := some job.id,
        correlationId := correlationId, metadata := .empty, createdAt := auditedAt }
  | synced (workspaceId actorId correlationId : String) (provider : Provider) (auditedAt : Time)
      (harns : ∀ arn ∈ upsertedArns past, ∃ resource ∈ db.resources,
        resource.workspaceId = workspaceId ∧ resource.arn = arn) : BorneOut past db
      { workspaceId := workspaceId, actorId := actorId, action := "resources.sync",
        resourceType := "CloudResource", resourceId := none, correlationId := correlationId,
        metadata := .synced (upsertedArns past).length provider, createdAt := auditedAt }

/-- What stays goes on bearing out an event. -/
theorem BorneOut.stays {past : Past} {db db' : Database} {event : AuditEvent}
    (h : BorneOut past db event) (hstays : Stays db db') : BorneOut past db' event := by
  cases h with
  | planned plan auditedAt hplan =>
      obtain ⟨plan', hmem, hsame⟩ := hstays.documents.plans plan hplan
      have h : BorneOut past db' _ := .planned plan' auditedAt hmem
      rw [hsame] at h
      exact h
  | approved token plan correlationId auditedAt htoken hplan hid hws =>
      obtain ⟨token', hmem, hsame, -⟩ := hstays.documents.tokens token htoken
      obtain ⟨plan', hmem', hsame'⟩ := hstays.documents.plans plan hplan
      have h : BorneOut past db' _ := .approved token' plan' correlationId auditedAt hmem hmem'
        (by rw [hsame, hsame']; exact hid) (by rw [hsame, hsame']; exact hws)
      rw [hsame] at h
      exact h
  | executed execution auditedAt hexecution =>
      exact .executed execution auditedAt (hstays.documents.executions execution hexecution)
  | created job auditedAt hjob =>
      obtain ⟨job', hmem, horigin⟩ := hstays.jobs job hjob
      simp only [jobOrigin, Prod.mk.injEq] at horigin
      obtain ⟨hid, hws, hkey, hby, hcorrelation⟩ := horigin
      have h : BorneOut past db' _ := .created job' auditedAt hmem
      rw [hid, hws, hkey, hby, hcorrelation] at h
      exact h
  | retried job actorId correlationId auditedAt hjob =>
      obtain ⟨job', hmem, horigin⟩ := hstays.jobs job hjob
      simp only [jobOrigin, Prod.mk.injEq] at horigin
      obtain ⟨hid, hws, -, -, -⟩ := horigin
      have h : BorneOut past db' _ := .retried job' actorId correlationId auditedAt hmem
      rw [hid, hws] at h
      exact h
  | synced workspaceId actorId correlationId provider auditedAt harns =>
      refine .synced workspaceId actorId correlationId provider auditedAt fun arn harn => ?_
      obtain ⟨resource, hmem, hws, hsame⟩ := harns arn harn
      obtain ⟨resource', hmem', horigin⟩ := hstays.resources resource hmem
      simp only [resourceOrigin, Prod.mk.injEq] at horigin
      obtain ⟨-, hws', hsame'⟩ := horigin
      exact ⟨resource', hmem', hws'.trans hws, hsame'.trans hsame⟩

end CloudOps.Analysis
