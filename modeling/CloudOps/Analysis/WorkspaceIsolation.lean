import CloudOps.Analysis.ResourceCopies
import CloudOps.Analysis.SingleExecution
import CloudOps.Analysis.WorkspaceViews
import CloudOps.Model.JobProcessor
import CloudOps.Model.QueryService

/-!
# Workspace isolation

Each operation of the services, and a run of the processor, makes only calls in scope of its
workspace: it names the workspace in every query, and what it saves by identity it has read
there. So the documents of the workspace decide what it returns (`workspace_isolation`), and
it changes no others.
-/

set_option autoImplicit false

namespace CloudOps.Analysis

open CloudOps.Computation CloudOps.Model CloudOps.Model.RemediationService
open CloudOps.Model.JobProcessor CloudOps.Model.ResourceService

/-! ## The operations -/

/-- The operations on behalf of a workspace, each with its arguments and what it draws from
elsewhere. -/
inductive Operation
  | createJob (svc : JobService) (actorId correlationId : String) (input : CreateJobInput)
      (draws : JobService.CreateDraws)
  | listJobs (query : JobQuery) (page : Page)
  | getJob (id : String)
  | retryJob (id actorId correlationId : String) (now auditedAt : Time)
  | syncResources (config : ApiConfig) (actorId correlationId : String) (input : SyncInput)
  | listResources (regex : String → String → Bool) (query : ResourceQuery) (page : Page)
  | getResource (id : String)
  | listFindings (query : FindingQuery) (page : Page)
  | listRecommendations (query : RecommendationQuery) (page : Page)
  | listAuditEvents (query : AuditQuery) (page : Page)
  | createPlan (actorId correlationId : String) (input : PlanInput)
  | approve (hashToken : String → String) (config : ApiConfig)
      (planId actorId correlationId : String) (input : ApproveInput)
  | execute (hashToken : String → String) (config : ApiConfig)
      (planId actorId correlationId : String) (input : ExecuteInput)
  | run (jobId correlationId : String) (resourceIds : Option (List String))
      (resourceTypes : Option (List ResourceType))
      (analyze : List CloudResource → Except AppError DiagnosticEngineResult)
      (draws : ℕ → RoundDraws)

namespace Operation

/-- What an operation returns. -/
def Result : Operation → Type
  | .createJob .. => JobService.JobReply
  | .listJobs .. => Listing DiagnosticJob
  | .getJob _ => Option DiagnosticJob
  | .retryJob .. => DiagnosticJob
  | .syncResources .. => Response
  | .listResources .. => Listing CloudResource
  | .getResource _ => Option CloudResource
  | .listFindings .. => Listing Finding
  | .listRecommendations .. => Listing Recommendation
  | .listAuditEvents .. => Listing AuditEvent
  | .createPlan .. => Response
  | .approve .. => Response
  | .execute .. => Response
  | .run .. => JobResultSummary

/-- The operation in a workspace. -/
def program (W : String) : (o : Operation) → DbProg o.Result
  | .createJob svc actorId correlationId input draws =>
    svc.create W actorId correlationId input draws
  | .listJobs query page => JobService.list W query page
  | .getJob id => JobService.get W id
  | .retryJob id actorId correlationId now auditedAt =>
    JobService.retry W id actorId correlationId now auditedAt
  | .syncResources config actorId correlationId input => sync config W actorId correlationId input
  | .listResources regex query page => ResourceService.list regex W query page
  | .getResource id => ResourceService.get W id
  | .listFindings query page => Model.listFindings W query page
  | .listRecommendations query page => Model.listRecommendations W query page
  | .listAuditEvents query page => Model.listAuditEvents W query page
  | .createPlan actorId correlationId input =>
    RemediationService.createPlan W actorId correlationId input
  | .approve hashToken config planId actorId correlationId input =>
    RemediationService.approve hashToken config W planId actorId correlationId input
  | .execute hashToken config planId actorId correlationId input =>
    RemediationService.execute hashToken config W planId actorId correlationId input
  | .run jobId correlationId resourceIds resourceTypes analyze draws =>
    JobProcessor.run W jobId correlationId resourceIds resourceTypes analyze draws

/-- The new identities and the new token of an operation are not those of documents of others. -/
def Fresh (o : Database) : Operation → Prop
  | .createJob _ _ _ _ draws => Unused o.jobs draws.newJobId
  | .syncResources _ _ _ input =>
    ∀ items, input.discovered = .ok items → ∀ i ∈ items, Unused o.resources i.newId
  | .createPlan _ _ input => Unused o.plans input.newPlanId
  | .approve hashToken _ _ _ _ input => Unused o.tokens input.newTokenId ∧
    ∀ token ∈ o.tokens, token.tokenHash ≠ hashToken input.approvalToken
  | .execute _ _ _ _ _ input => Unused o.executions input.newExecutionId
  | .run _ _ _ _ _ draws => ∀ n, Unused o.findings (draws n).newFindingId ∧
    Unused o.recommendations (draws n).newRecommendationId
  | .listJobs _ _ | .getJob _ | .retryJob _ _ _ _ _ | .listResources _ _ _ | .getResource _
  | .listFindings _ _ | .listRecommendations _ _ | .listAuditEvents _ _ => True

end Operation

/-! ## Programs in scope -/

section Scopes

variable {W : String} {o : Database} {α β : Type}

/-- Every call of the program is in scope, where the others have stored `o`. -/
abbrev Scoped (W : String) (o : Database) (p : DbProg α) : Prop :=
  p.Within database (Database.except W) (InScope W) o

/-- A call in scope, and what follows for each reply. -/
theorem scoped_call {op : DbOp} {f : op.Reply → DbProg α} (hop : InScope W o op)
    (hrest : ∀ db reply, db.except W = o → (database.exec op db).1 = reply → Scoped W o (f reply)) :
    Scoped W o ((Prog.call op .ret : DbProg op.Reply) >>= f) :=
  Prog.within_call hop hrest

/-- A call in scope that may be refused. -/
theorem scoped_attempt {op : DbOp} {k : op.Reply → Except AppError β} {f : β → DbProg α}
    (hop : InScope W o op) (hrest : ∀ b, Scoped W o (f b)) :
    Scoped W o ((Prog.call op fun reply => Prog.ofExcept (k reply) : DbProg β) >>= f) :=
  Prog.Within.bind (Prog.within_call hop fun _ _ _ _ => Prog.within_ofExcept) hrest

/-- Code between two calls that may throw. -/
theorem scoped_ofExcept {x : Except AppError β} {f : β → DbProg α}
    (hrest : ∀ b, x = .ok b → Scoped W o (f b)) : Scoped W o (Prog.ofExcept x >>= f) := by
  cases x with
  | ok b => exact hrest b rfl
  | error e => trivial

/-- The identity of a document of the workspace is no other workspace's. -/
theorem unused_of_own {δ κ ι : Type} [Document δ κ ι] {c : Collection δ} {ws : δ → String} {d : δ}
    (hd : d ∈ c) (hws : ws d = W) : Unused (c.restrict fun d => ws d != W) (Document._id d) := by
  intro d' hd' hid
  obtain ⟨hmem, hother⟩ := Collection.mem_restrict.mp hd'
  rw [Collection.eq_of_id hmem hd hid] at hother
  simp [bne, hws] at hother

/-! ### Jobs -/

/-- `create` stays within its workspace.
SRCLINE: apps/api/src/services/job-service.ts:15-63 -/
theorem create_scoped {svc : JobService} {actorId correlationId : String} {input : CreateJobInput}
    {draws : JobService.CreateDraws} (hfresh : Unused o.jobs draws.newJobId) :
    Scoped W o (svc.create W actorId correlationId input draws) := by
  refine scoped_call rfl fun db existing _ _ => ?_
  cases existing with
  | some existing => trivial
  | none =>
    refine Prog.Within.handle ?_ fun result => ?_
    · exact scoped_attempt ⟨rfl, hfresh⟩ fun _ => scoped_call rfl fun _ _ _ _ => trivial
    · cases result with
      | ok reply => trivial
      | error err =>
        by_cases herr : err = .duplicateKey
        · simp only [herr, if_true]
          refine scoped_call rfl fun db replay _ _ => ?_
          cases replay with
          | some replay => trivial
          | none => trivial
        · simp only [herr, if_false]
          trivial

/-- The job that is saved has been read in the workspace.
SRCLINE: apps/api/src/services/job-service.ts:82-104 -/
theorem retry_scoped {id actorId correlationId : String} {now auditedAt : Time} :
    Scoped W o (JobService.retry W id actorId correlationId now auditedAt) := by
  refine scoped_call rfl fun db job? hdb hjob => ?_
  cases job? with
  | none => trivial
  | some job =>
    by_cases hstatus : retryable job.status = true
    · simp only [hstatus, Bool.not_true, Bool.false_eq_true, if_false]
      have hsaved : Unused o.jobs job.id := by
        obtain ⟨hmem, hfilter⟩ := Collection.mem_of_find? hjob
        simp only [Bool.and_eq_true, beq_iff_eq] at hfilter
        rw [← hdb]
        exact unused_of_own hmem hfilter.2
      exact scoped_call hsaved fun _ _ _ _ => scoped_call rfl fun _ _ _ _ => trivial
    · simp only [hstatus, Bool.not_false, if_true]
      trivial

/-! ### Resources -/

/-- The loop of `sync` stays within its workspace.
SRCLINE: apps/api/src/services/resource-service.ts:31-40 -/
theorem syncLoop_scoped {items : List SyncItem} {upserted : List CloudResource}
    (hfresh : ∀ i ∈ items, Unused o.resources i.newId) :
    Scoped W o (syncLoop W items upserted) := by
  induction items generalizing upserted with
  | nil => trivial
  | cons i items ih =>
      exact scoped_attempt ⟨rfl, hfresh i List.mem_cons_self⟩ fun doc =>
        ih fun i' hi' => hfresh i' (List.mem_cons_of_mem _ hi')

/-- `sync` stays within its workspace.
SRCLINE: apps/api/src/services/resource-service.ts:25-52 -/
theorem sync_scoped {config : ApiConfig} {actorId correlationId : String} {input : SyncInput}
    (hfresh : ∀ items, input.discovered = .ok items → ∀ i ∈ items, Unused o.resources i.newId) :
    Scoped W o (sync config W actorId correlationId input) := by
  refine scoped_ofExcept fun items hlisted => ?_
  exact Prog.Within.bind (syncLoop_scoped (hfresh items hlisted)) fun upserted =>
    scoped_call rfl fun _ _ _ _ => trivial

/-! ### Remediation -/

/-- `createPlan` stays within its workspace.
SRCLINE: apps/api/src/services/remediation-service.ts:37-100 -/
theorem createPlan_scoped {actorId correlationId : String} {input : PlanInput}
    (hfresh : Unused o.plans input.newPlanId) :
    Scoped W o (RemediationService.createPlan W actorId correlationId input) := by
  refine scoped_call rfl fun db existing _ _ => ?_
  cases existing with
  | some existing => trivial
  | none =>
    refine scoped_call rfl fun db findings _ _ => ?_
    by_cases hlen : findings.length = input.findingIds.length
    · simp only [hlen, ne_eq, not_true_eq_false, if_false]
      refine scoped_call rfl fun db recs _ _ => scoped_ofExcept fun actions _ => ?_
      exact scoped_attempt ⟨rfl, hfresh⟩ fun _ => scoped_call rfl fun _ _ _ _ => trivial
    · simp only [hlen, ne_eq, not_false_eq_true, if_true]
      trivial

/-- A plan that has been read in the workspace is no other workspace's. -/
theorem unused_of_findPlan {db : Database} {planId : String} {plan : RemediationPlan}
    (hdb : db.except W = o) (hplan : db.findPlan planId W = some plan) :
    Unused o.plans plan.id := by
  obtain ⟨hmem, hfilter⟩ := Collection.mem_of_find? hplan
  simp only [Bool.and_eq_true, beq_iff_eq] at hfilter
  rw [← hdb]
  exact unused_of_own hmem hfilter.2

/-- `approve` stays within its workspace.
SRCLINE: apps/api/src/services/remediation-service.ts:102-133 -/
theorem approve_scoped {hashToken : String → String} {config : ApiConfig}
    {planId actorId correlationId : String} {input : ApproveInput}
    (hid : Unused o.tokens input.newTokenId)
    (htoken : ∀ token ∈ o.tokens, token.tokenHash ≠ hashToken input.approvalToken) :
    Scoped W o
      (RemediationService.approve hashToken config W planId actorId correlationId input) := by
  refine scoped_call rfl fun db plan? hdb hplan => ?_
  cases plan? with
  | none => trivial
  | some plan =>
    by_cases happ : approvable plan.status = true
    · simp only [happ, Bool.not_true, Bool.false_eq_true, if_false]
      refine scoped_attempt ⟨rfl, hid, htoken⟩ fun _ => ?_
      exact scoped_call (unused_of_findPlan hdb hplan) fun _ _ _ _ =>
        scoped_call rfl fun _ _ _ _ => trivial
    · simp only [happ, Bool.not_false, if_true]
      trivial

/-- The loop saves copies of the resources it has read in the workspace.
SRCLINE: apps/api/src/services/remediation-service.ts:176-220 -/
theorem actionLoop_scoped {config : ApiConfig} {dryRun : Bool} {actions : List RemediationAction}
    {loop : LoopState}
    (hcopies : ∀ id resource, loop.copies.get? id = some resource →
      Unused o.resources resource.id) : Scoped W o (actionLoop config dryRun actions loop) := by
  induction actions generalizing loop with
  | nil => trivial
  | cons action actions ih =>
      unfold actionLoop
      cases hcopy : loop.copies.get? action.resourceId with
      | none => exact ih hcopies
      | some resource =>
        have hown := hcopies _ resource hcopy
        refine scoped_ofExcept fun applied _ => ?_
        obtain ⟨state, result⟩ := applied
        by_cases hmutates : mutates config dryRun = true
        · simp only [hmutates, if_true]
          refine scoped_call hown fun _ _ _ _ => ih fun id copy hget => ?_
          dsimp only at hget
          rw [Dict.get?_set] at hget
          split at hget
          · obtain rfl := Option.some.inj hget
            exact hown
          · exact hcopies id copy hget
        · simp only [hmutates, Bool.false_eq_true, if_false]
          exact ih hcopies

/-- What has been read in the workspace is saved, and nothing else.
SRCLINE: apps/api/src/services/remediation-service.ts:135-252 -/
theorem execute_scoped {hashToken : String → String} {config : ApiConfig}
    {planId actorId correlationId : String} {input : ExecuteInput}
    (hfresh : Unused o.executions input.newExecutionId) :
    Scoped W o
      (RemediationService.execute hashToken config W planId actorId correlationId input) := by
  refine scoped_call rfl fun _ existing _ _ => ?_
  cases existing with
  | some existing => trivial
  | none =>
    refine scoped_call rfl fun db plan? hdb hplan => ?_
    cases plan? with
    | none => trivial
    | some plan =>
      have hplanId := unused_of_findPlan hdb hplan
      by_cases hstatus : plan.status = .approved
      · simp only [hstatus, ne_eq, not_true_eq_false, if_false]
        refine scoped_call rfl fun db' approvals hdb' happrovals => ?_
        refine scoped_ofExcept fun matched hcheck => ?_
        have htokenId : Unused o.tokens matched.id := by
          have hmem := (checkApproval_ok hcheck).1
          rw [← happrovals] at hmem
          obtain ⟨hmem, hfilter⟩ := Collection.mem_filter.mp hmem
          simp only [Bool.and_eq_true, beq_iff_eq] at hfilter
          rw [← hdb']
          exact unused_of_own hmem hfilter.1
        have hchecked : Scoped W o
            (executeChecked config W planId actorId correlationId input plan matched) := by
          refine scoped_call rfl fun db'' resources hdb'' hresources => ?_
          refine scoped_call hplanId fun _ _ _ _ => scoped_call htokenId fun _ _ _ _ => ?_
          refine Prog.Within.bind (actionLoop_scoped fun id resource hget => ?_) fun loop => ?_
          · obtain ⟨hmem, -⟩ := mem_of_get?_byId hget
            rw [← hresources] at hmem
            obtain ⟨hmem, hfilter⟩ := Collection.mem_filter.mp hmem
            simp only [Bool.and_eq_true, beq_iff_eq] at hfilter
            rw [← hdb'']
            exact unused_of_own hmem hfilter.1
          · refine scoped_attempt ⟨rfl, hfresh⟩ fun _ => ?_
            exact scoped_call hplanId fun _ _ _ _ => scoped_call rfl fun _ _ _ _ => trivial
        by_cases hdry : plan.dryRun = true
        · simp only [hdry, Bool.not_true, Bool.false_eq_true, if_false]
          exact hchecked
        · simp only [hdry, Bool.not_false, if_true]
          exact scoped_ofExcept fun _ _ => hchecked
      · simp only [hstatus, ne_eq, not_false_eq_true, if_true]
        trivial

/-! ### The processor -/

/-- The persistence loop stays within its workspace.
SRCLINE: apps/worker/src/processor.ts:109-150 -/
theorem persist_scoped {jobId correlationId : String} {draws : ℕ → RoundDraws}
    {findings : List EngineFinding} {n m : ℕ}
    (hfresh : ∀ n, Unused o.findings (draws n).newFindingId ∧
      Unused o.recommendations (draws n).newRecommendationId) :
    Scoped W o (persist W jobId correlationId draws findings n m) := by
  induction findings generalizing n m with
  | nil => trivial
  | cons finding findings ih =>
      refine scoped_attempt ⟨rfl, (hfresh n).1⟩ fun stored => ?_
      refine scoped_attempt ⟨rfl, (hfresh n).2⟩ fun recommendation => ?_
      exact scoped_call rfl fun _ _ _ _ => ih

/-- A run stays within its workspace.
SRCLINE: apps/worker/src/processor.ts:82-153 -/
theorem run_scoped {jobId correlationId : String} {resourceIds : Option (List String)}
    {resourceTypes : Option (List ResourceType)}
    {analyze : List CloudResource → Except AppError DiagnosticEngineResult}
    {draws : ℕ → RoundDraws}
    (hfresh : ∀ n, Unused o.findings (draws n).newFindingId ∧
      Unused o.recommendations (draws n).newRecommendationId) :
    Scoped W o (run W jobId correlationId resourceIds resourceTypes analyze draws) := by
  refine scoped_call rfl fun db resources _ _ => scoped_ofExcept fun analysis _ => ?_
  exact Prog.Within.bind (persist_scoped hfresh) fun counters => trivial

/-- **Every operation keeps to its workspace.** -/
theorem Operation.program_scoped {operation : Operation} (hfresh : operation.Fresh o) :
    Scoped W o (operation.program W) := by
  cases operation with
  | createJob svc actorId correlationId input draws => exact create_scoped hfresh
  | listJobs query page =>
      exact scoped_call rfl fun _ _ _ _ => scoped_call rfl fun _ _ _ _ => trivial
  | getJob id => exact Prog.within_call rfl fun _ _ _ _ => trivial
  | retryJob id actorId correlationId now auditedAt => exact retry_scoped
  | syncResources config actorId correlationId input => exact sync_scoped hfresh
  | listResources regex query page =>
      exact scoped_call rfl fun _ _ _ _ => scoped_call rfl fun _ _ _ _ => trivial
  | getResource id => exact Prog.within_call rfl fun _ _ _ _ => trivial
  | listFindings query page =>
      exact scoped_call rfl fun _ _ _ _ => scoped_call rfl fun _ _ _ _ => trivial
  | listRecommendations query page =>
      exact scoped_call rfl fun _ _ _ _ => scoped_call rfl fun _ _ _ _ => trivial
  | listAuditEvents query page =>
      exact scoped_call rfl fun _ _ _ _ => scoped_call rfl fun _ _ _ _ => trivial
  | createPlan actorId correlationId input => exact createPlan_scoped hfresh
  | approve hashToken config planId actorId correlationId input =>
      exact approve_scoped hfresh.1 hfresh.2
  | execute hashToken config planId actorId correlationId input => exact execute_scoped hfresh
  | run jobId correlationId resourceIds resourceTypes analyze draws => exact run_scoped hfresh

end Scopes

/-! ## Two runs -/

/-- Two runs of one operation in a workspace, from `db` and from `db'`, are the same for the
workspace, and neither changes a document of another one. -/
structure Isolated {α : Type} (W : String) (db db' : Database)
    (out out' : Except AppError α × Database) : Prop where
  result : out.1 = out'.1
  documents : out.2.only W = out'.2.only W
  others : out.2.except W = db.except W
  others' : out'.2.except W = db'.except W

/-- **Workspace isolation**: what an operation returns and what it leaves in its workspace is
decided by the documents of the workspace, and it changes no others. The ids in its arguments
may be those of documents of any workspace.
SRCLINE: apps/api/src/services/remediation-service.ts:38-252,
apps/api/src/services/job-service.ts:15-104, apps/worker/src/processor.ts:82-154,
apps/api/src/services/query-service.ts:9-60 -/
theorem workspace_isolation {W : String} {operation : Operation} {db db' : Database}
    (hagree : db.only W = db'.only W) (hfresh : operation.Fresh (db.except W))
    (hfresh' : operation.Fresh (db'.except W)) :
    Isolated W db db' ((operation.program W).run database db)
      ((operation.program W).run database db') := by
  obtain ⟨hresult, hdocuments, hothers, hothers'⟩ := Prog.Within.noninterference (isolates W)
    (Operation.program_scoped hfresh) (Operation.program_scoped hfresh') hagree
  exact ⟨hresult, hdocuments, hothers, hothers'⟩

/-- A plan of another workspace, for the same finding and under the same key. -/
def foreignPlan : RemediationPlan :=
  newPlan "other" "stranger" "c-9" ⟨["f-1"], false, "plan-key", "p-9", 0⟩ []

/-- The store of the bucket, shared with that workspace. -/
def sharedStore : Database := { bucketStore with plans := ⟨[foreignPlan], by simp, by simp⟩ }

/-- Whether the other workspace is there makes no difference for a plan. -/
theorem workspace_isolation_foreignPlan :
    Isolated "ws" bucketStore sharedStore
      (((Operation.createPlan "operator" "c-0" ⟨["f-1"], false, "plan-key", "p-1", 0⟩).program
        "ws").run database bucketStore)
      (((Operation.createPlan "operator" "c-0" ⟨["f-1"], false, "plan-key", "p-1", 0⟩).program
        "ws").run database sharedStore) := by
  have hfree : ∀ plan ∈ (bucketStore.except "ws").plans.docs, plan.id ≠ "p-1" := by decide
  have hfree' : ∀ plan ∈ (sharedStore.except "ws").plans.docs, plan.id ≠ "p-1" := by decide
  exact workspace_isolation rfl hfree hfree'

end CloudOps.Analysis
