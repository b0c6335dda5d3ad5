import CloudOps.Analysis.AppClients
import CloudOps.Analysis.WorkspaceIsolation
import CloudOps.Computation.Projection

/-!
# A workspace alone

Requests and workers of all workspaces run on one database, and the workers serve one queue.
What a workspace sees of it is its own documents, its own requests, and the attempts on its own
jobs. `workspace_alone`: this is a run that these programs have on their own, on a database that
holds nothing else. It takes what an isolation of single calls does not: a worker addresses jobs
by identity alone, so that the job it has claimed decides on whose behalf it goes on.
-/

set_option autoImplicit false

namespace CloudOps.Analysis

open CloudOps.Computation CloudOps.Model CloudOps.Model.JobProcessor

/-! ## Identities -/

/-- A new document has an identity, and a new token a hash, that no other workspace has.
SRCLINE: packages/shared/src/db/models/approval-token.ts:3-15 -/
def NewIdentity (db : Database) : DbOp → Prop
  | .createJob job => Unused (db.except job.workspaceId).jobs job.id
  | .createPlan plan => Unused (db.except plan.workspaceId).plans plan.id
  | .createApproval token => Unused (db.except token.workspaceId).tokens token.id ∧
      ∀ t ∈ (db.except token.workspaceId).tokens, t.tokenHash ≠ token.tokenHash
  | .createExecution execution =>
      Unused (db.except execution.workspaceId).executions execution.id
  | .upsertResource ws _ _ newId => Unused (db.except ws).resources newId
  | .upsertFinding ws _ _ _ _ newId => Unused (db.except ws).findings newId
  | .upsertRecommendation ws _ _ _ _ _ newId => Unused (db.except ws).recommendations newId
  | _ => True

/-- The program whose turn it is draws new identities. -/
def DrawsNew (s : AppPool) (e : PoolEvent) : Prop :=
  ∀ q op, s.Performs e q op → NewIdentity s.store op

section Calls

variable {W jobId : String} {db : Database} {op : DbOp}

/-- A document of the workspace has an identity that no other one has. -/
theorem unused_of_stored {δ κ ι : Type} [Document δ κ ι] {c : Collection δ} (ws : δ → String)
    {id : κ} (h : ∃ d ∈ c, Document._id d = id ∧ ws d = W) :
    Unused (c.restrict fun d => ws d != W) id := by
  obtain ⟨d, hd, rfl, hws⟩ := h
  exact unused_of_own hd hws

/-- **What a request may do is in scope of its workspace.** -/
theorem inScope_of_allowed {claims : AuthClaims} (h : Allowed claims db op)
    (hnew : NewIdentity db op) : InScope claims.workspaceId (db.except claims.workspaceId) op := by
  cases op with
  | createJob job => exact ⟨h.2.1, h.2.1 ▸ hnew⟩
  | createPlan plan => exact ⟨h.2.1, h.2.1 ▸ hnew⟩
  | createExecution execution => exact ⟨h.2.1, h.2.1 ▸ hnew⟩
  | createApproval token => exact ⟨h.2.1, h.2.1 ▸ hnew⟩
  | upsertResource ws item now newId => exact ⟨h.2, h.2 ▸ hnew⟩
  | saveJob call => exact unused_of_stored DiagnosticJob.workspaceId h.2
  | savePlan id status => exact unused_of_stored RemediationPlan.workspaceId h.2
  | saveApproval id usedAt => exact unused_of_stored ApprovalToken.workspaceId h.2
  | saveResource id patch => exact unused_of_stored CloudResource.workspaceId h.2
  | recordAudit event => exact h.2.1
  | findJobById _ | claimJob _ _ _ _ | heartbeatJob _ _ _ _ | completeJob _ _ _ | failJob _ _ _ _
  | recoverAbandoned _ | upsertFinding _ _ _ _ _ _ | upsertRecommendation _ _ _ _ _ _ _
  | createHealthCheck _ => cases h
  | _ => exact Option.some.inj h

/-! ## The calls of the workers -/

/-- The job of this identity is of the workspace. -/
def JobOf (db : Database) (W jobId : String) : Prop :=
  ∃ job ∈ db.jobs, job.id = jobId ∧ job.workspaceId = W

/-- The jobs of this identity are of the workspace. -/
def OnlyJobOf (db : Database) (W jobId : String) : Prop :=
  ∀ job ∈ db.jobs, job.id = jobId → (job.workspaceId == W) = true

/-- The jobs of this identity are of others. -/
def NoJobOf (db : Database) (W jobId : String) : Prop :=
  ∀ job ∈ db.jobs, job.id = jobId → (job.workspaceId == W) = false

/-- A job that is of the workspace is found among its jobs. -/
theorem get?_only {jobs : Collection DiagnosticJob}
    (h : ∀ job ∈ jobs, job.id = jobId → (job.workspaceId == W) = true) :
    (jobs.restrict fun job => job.workspaceId == W).get? jobId = jobs.get? jobId :=
  Collection.find?_restrict fun job hmem hid => h job hmem (of_decide_eq_true hid)

section Updates

variable {jobs : Collection DiagnosticJob} {f : DiagnosticJob → DiagnosticJob}
  {hid : ∀ job, Document._id (f job) = Document._id job}
  {hix : ∀ job, Document.uniqueIndex (f job) = Document.uniqueIndex job}

/-- No update that keeps the index of a job moves it. -/
theorem workspaceId_of_index
    (hix : ∀ job, Document.uniqueIndex (f job) = Document.uniqueIndex job) (job : DiagnosticJob) :
    ((f job).workspaceId == W) = (job.workspaceId == W) :=
  congrArg (fun index : String × String => index.1 == W) (hix job)

/-- An update of a job is seen in the workspace as the update of its part. -/
theorem update_only :
    (jobs.update jobId f hid hix).restrict (fun job => job.workspaceId == W) =
      (jobs.restrict fun job => job.workspaceId == W).update jobId f hid hix :=
  Collection.restrict_update (workspaceId_of_index hix)

/-- A job of the workspace is updated among its jobs. -/
theorem get?_update_only
    (h : ∀ job ∈ jobs, job.id = jobId → (job.workspaceId == W) = true) :
    ((jobs.update jobId f hid hix).restrict fun job => job.workspaceId == W).get? jobId =
      (jobs.update jobId f hid hix).get? jobId := by
  rw [update_only, Collection.get?_update_self, get?_only h, Collection.get?_update_self]

/-- A job of another workspace is updated without being seen. -/
theorem update_other
    (h : ∀ job ∈ jobs, job.id = jobId → (job.workspaceId == W) = false) :
    (jobs.update jobId f hid hix).restrict (fun job => job.workspaceId == W) =
      jobs.restrict fun job => job.workspaceId == W :=
  Collection.restrict_update_of_other (workspaceId_of_index hix) h

end Updates

/-- **A call about a job of the workspace acts on its documents.** -/
theorem aboutJob_only (hop : aboutJob jobId op = true) (hown : OnlyJobOf db W jobId) :
    op.exec (db.only W) = ((op.exec db).1, (op.exec db).2.only W) := by
  cases op with
  | findJobById id =>
      obtain rfl : id = jobId := eq_of_beq hop
      exact Prod.ext (get?_only hown) rfl
  | claimJob config workerId now id =>
      obtain rfl : id = jobId := eq_of_beq hop
      simp only [DbOp.exec, Database.only, Database.restrict, JobQueue.claim, get?_only hown]
      cases db.jobs.get? id with
      | none => rfl
      | some job =>
        by_cases hclaim : claimFilter now job = true
        · simp only [hclaim, if_true, Option.bind_some, Option.getD_some, ← update_only]
          rw [get?_update_only hown]
        · simp only [hclaim]
          rfl
  | completeJob id summary now =>
      simp only [DbOp.exec, Database.only, Database.restrict, update_only]
  | failJob config call random now =>
      obtain rfl : call.jobId = jobId := eq_of_beq hop
      simp only [DbOp.exec, Database.only, Database.restrict, ← update_only]
      rw [get?_update_only hown]
  | _ => cases hop

/-- A call about a job of another workspace leaves the documents of this one alone. -/
theorem aboutJob_hidden (hop : aboutJob jobId op = true) (hother : NoJobOf db W jobId) :
    (op.exec db).2.only W = db.only W := by
  cases op with
  | findJobById id => rfl
  | claimJob config workerId now id =>
      obtain rfl : id = jobId := eq_of_beq hop
      simp only [DbOp.exec, JobQueue.claim]
      cases db.jobs.get? id with
      | none => rfl
      | some job =>
        by_cases hclaim : claimFilter now job = true
        · simp only [hclaim, if_true, Option.getD_some, Database.only, Database.restrict]
          rw [update_other hother]
        · simp only [hclaim]
          rfl
  | completeJob id summary now =>
      obtain rfl : id = jobId := eq_of_beq hop
      simp only [DbOp.exec, Database.only, Database.restrict]
      rw [update_other hother]
  | failJob config call random now =>
      obtain rfl : call.jobId = jobId := eq_of_beq hop
      simp only [DbOp.exec, Database.only, Database.restrict]
      rw [update_other hother]
  | _ => cases hop

/-- A heartbeat, and the recovery of the queue, act on the documents of each workspace apart. -/
theorem queue_only (hop : (∃ config id workerId now, op = .heartbeatJob config id workerId now) ∨
    ∃ now, op = .recoverAbandoned now) :
    op.exec (db.only W) = ((op.exec db).1, (op.exec db).2.only W) := by
  rcases hop with ⟨config, id, workerId, now, rfl⟩ | ⟨now, rfl⟩
  · simp only [DbOp.exec, Database.only, Database.restrict]
    rw [Collection.restrict_updateMany (f := heartbeatUpdate config now) fun _ => rfl]
  · simp only [DbOp.exec, Database.only, Database.restrict, JobQueue.recoverAbandoned]
    rw [Collection.restrict_updateMany (f := recoverUpdate now) fun _ => rfl]

/-- The calls of a run, on behalf of the workspace of its job. -/
def onBehalf (W : String) : DbOp → Bool
  | .findInventory ws _ _ | .upsertFinding ws _ _ _ _ _ | .upsertRecommendation ws _ _ _ _ _ _ =>
    ws == W
  | .createHealthCheck check => check.workspaceId == W
  | _ => false

/-- What is done on behalf of a workspace is in its scope. -/
theorem inScope_of_onBehalf (h : onBehalf W op = true) (hnew : NewIdentity db op) :
    InScope W (db.except W) op := by
  cases op with
  | findInventory ws ids types => exact eq_of_beq h
  | upsertFinding ws job correlation finding now newId =>
      obtain rfl : ws = W := eq_of_beq h
      exact ⟨rfl, hnew⟩
  | upsertRecommendation ws job correlation findingId finding now newId =>
      obtain rfl : ws = W := eq_of_beq h
      exact ⟨rfl, hnew⟩
  | createHealthCheck check => exact eq_of_beq h
  | _ => cases h

/-- The documents of a workspace are among those that another one has not. -/
theorem only_except {W' : String} (hne : W' ≠ W) (db : Database) :
    (db.except W').only W = db.only W := by
  have hkind : ∀ ws : String, (ws == W && ws != W') = (ws == W) := by
    intro ws
    cases hws : ws == W with
    | false => rfl
    | true =>
      rw [eq_of_beq hws]
      simpa using Ne.symm hne
  simp only [Database.only, Database.except, Database.restrict, Collection.restrict,
    List.filter_filter, hkind]

/-- **What is done in the scope of another workspace is not seen.** -/
theorem only_of_inScope {W' : String} (hop : InScope W' (db.except W') op) (hne : W' ≠ W) :
    (op.exec db).2.only W = db.only W := by
  rw [← only_except hne (op.exec db).2, exec_except hop, only_except hne]

end Calls

/-! ## The clients -/

/-- What a worker does for a job: calls about it, and calls on behalf of its workspace. -/
def ForJob (jobId : String) (db : Database) (op : DbOp) : Prop :=
  aboutJob jobId op = true ∨ ∃ W, JobOf db W jobId ∧ onBehalf W op = true

/-- What a client does: what its claims allow, or its work on the queue. -/
def Does (app : AppConfig) (db : Database) (op : DbOp) : AppClient → Prop
  | .http call => ∃ claims, call.auth app.packages app.http = .ok claims ∧ Allowed claims db op
  | .attempt _ draws _ | .timedOut _ draws => ForJob draws.jobId db op
  | .failure jobId _ _ _ => ForJob jobId db op
  | .heartbeat jobId workerId now => op = .heartbeatJob app.queue jobId workerId now
  | .recoverAbandoned now => op = .recoverAbandoned now

/-- A client of another workspace, by its token or by its job. -/
def Foreign (app : AppConfig) (db : Database) (W : String) : AppClient → Prop
  | .http call => ∃ claims, call.auth app.packages app.http = .ok claims ∧ claims.workspaceId ≠ W
  | .attempt _ draws _ | .timedOut _ draws => ¬ JobOf db W draws.jobId
  | .failure jobId _ _ _ => ¬ JobOf db W jobId
  | .heartbeat _ _ _ | .recoverAbandoned _ => False

section Clients

variable {app : AppConfig} {W jobId : String} {db final : Database} {op : DbOp} {past : Past}
  {analyze : List CloudResource → Except AppError DiagnosticEngineResult}

/-- The persistence loop works on behalf of its workspace.
SRCLINE: apps/worker/src/processor.ts:109-150 -/
theorem persist_onBehalf {correlationId : String} {draws : ℕ → RoundDraws}
    {findings : List EngineFinding} {n m : ℕ} :
    (persist W jobId correlationId draws findings n m).Emits database
      (fun _ op => onBehalf W op = true) (fun _ _ => True) past := by
  induction findings generalizing n m past with
  | nil => trivial
  | cons finding findings ih =>
      refine emits_attempt (beq_self_eq_true W) (fun _ stored _ => ?_) fun _ _ _ => trivial
      refine emits_attempt (beq_self_eq_true W) (fun _ recommendation _ => ?_) fun _ _ _ => trivial
      exact emits_call (beq_self_eq_true W) fun _ _ _ => ih

/-- A run names the workspace of its job, which has been claimed.
SRCLINE: apps/worker/src/processor.ts:82-153 -/
theorem run_forJob {job : DiagnosticJob} {rounds : ℕ → RoundDraws} (hclaimed : ClaimedBy past job)
    (hid : job.id = jobId) :
    WorkerKeepsTo (ForJob jobId) (JobProcessor.run job.workspaceId job.id job.correlationId
      job.resourceIds job.resourceTypes analyze rounds) past := by
  have hbehalf : (JobProcessor.run job.workspaceId job.id job.correlationId job.resourceIds
      job.resourceTypes analyze rounds).Emits database
      (fun _ op => onBehalf job.workspaceId op = true) (fun _ _ => True) past := by
    refine emits_call (beq_self_eq_true _) fun _ resources _ => ?_
    refine emits_ofExcept (fun result _ => ?_) fun _ _ => trivial
    refine Prog.Emits.bind (persist_onBehalf.mono (fun _ _ h => h) fun past outcome _ => ?_)
    cases outcome <;> trivial
  refine Prog.Emits.mono (hbehalf.carry (I := (ClaimedBy · job)) hclaimed
    fun _ _ _ h _ => h.append) ?_ fun _ _ _ => trivial
  intro past op h db hkept
  obtain ⟨stored, hmem, hstored, hws⟩ := h.2.kept hkept
  exact Or.inr ⟨job.workspaceId, ⟨stored, hmem, hstored.trans hid, hws⟩, h.1⟩

/-- The calls of an attempt are for its job. -/
theorem allows_forJob {draws : AttemptDraws} : AllowsAttempt
    (fun past op => ∀ db, Kept database Stays past db → ForJob draws.jobId db op) analyze
    draws where
  call := fun _ _ h _ _ => Or.inl h
  run := fun _ _ hclaimed hid _ => run_forJob hclaimed hid

/-- **Every client does what is its own**, whatever the others do. -/
theorem does_of_performs {clients : ℕ → AppClient} {t : AppPool} {e : PoolEvent} {q : ℕ}
    {G : AppPool → PoolEvent → Prop}
    (ht : (Pool.machine database faults).Reaches G (appStart app db clients) t)
    (hp : t.Performs e q op) : Does app t.store op (clients q) := by
  cases hclient : clients q with
  | http call =>
      have hkeeps : ((clients q).program app).Permitted database Stays _ _ [] :=
        hclient ▸ http_permitted call
      obtain ⟨claims, hclaims, hpermits⟩ := Pool.allowed_of_performs respects_stays hkeeps ht hp
      exact ⟨claims, hclaims, hpermits.allowed⟩
  | attempt analyze draws interruption =>
      have hkeeps : WorkerKeepsTo (ForJob draws.jobId) ((clients q).program app) [] :=
        hclient ▸ meets_discard (attempt_meets allows_forJob)
      exact Pool.allowed_of_performs respects_stays hkeeps ht hp
  | timedOut analyze draws =>
      have hkeeps : WorkerKeepsTo (ForJob draws.jobId) ((clients q).program app) [] :=
        hclient ▸ meets_discard (processNextTimedOut_meets allows_forJob)
      exact Pool.allowed_of_performs respects_stays hkeeps ht hp
  | failure jobId error random now =>
      have hkeeps : WorkerKeepsTo (ForJob jobId) ((clients q).program app) [] :=
        hclient ▸ meets_discard (fail_meets fun _ _ h _ _ => Or.inl h)
      exact Pool.allowed_of_performs respects_stays hkeeps ht hp
  | heartbeat jobId workerId now =>
      have hkeeps : WorkerKeepsTo (fun _ op => op = .heartbeatJob app.queue jobId workerId now)
          ((clients q).program app) [] :=
        hclient ▸ meets_call (fun _ _ => rfl) fun _ _ _ => trivial
      exact Pool.allowed_of_performs respects_stays hkeeps ht hp
  | recoverAbandoned now =>
      have hkeeps : WorkerKeepsTo (fun _ op => op = .recoverAbandoned now)
          ((clients q).program app) [] :=
        hclient ▸ meets_call (fun _ _ => rfl) fun _ _ _ => trivial
      exact Pool.allowed_of_performs respects_stays hkeeps ht hp

/-- A job of the workspace has always been its. -/
theorem JobOf.only (h : JobOf final W jobId) (hstays : Stays db final) : OnlyJobOf db W jobId := by
  intro job hmem hid
  obtain ⟨stored, hstored, hsame, rfl⟩ := h
  obtain ⟨job', hmem', horigin⟩ := hstays.jobs job hmem
  simp only [jobOrigin, Prod.mk.injEq] at horigin
  obtain ⟨hid', hws, -⟩ := horigin
  obtain rfl : job' = stored :=
    Collection.eq_of_id hmem' hstored (hid'.trans (hid.trans hsame.symm))
  rw [hws]
  exact beq_self_eq_true _

/-- A job that is not of the workspace never has been. -/
theorem noJobOf_of_stays (h : ¬ JobOf final W jobId) (hstays : Stays db final) :
    NoJobOf db W jobId := by
  intro job hmem hid
  cases hws : job.workspaceId == W with
  | false => rfl
  | true =>
    obtain ⟨job', hmem', horigin⟩ := hstays.jobs job hmem
    simp only [jobOrigin, Prod.mk.injEq] at horigin
    obtain ⟨hid', hws', -⟩ := horigin
    exact absurd ⟨job', hmem', hid'.trans hid, hws'.trans (eq_of_beq hws)⟩ h

/-- The work for a job of the workspace is done on its documents. -/
theorem ForJob.seen (h : ForJob jobId db op) (hnew : NewIdentity db op)
    (hown : OnlyJobOf db W jobId) :
    op.exec (db.only W) = ((op.exec db).1, (op.exec db).2.only W) := by
  rcases h with hcall | ⟨W', ⟨job, hmem, hid, hws⟩, hbehalf⟩
  · exact aboutJob_only hcall hown
  · have hsame : W' = W := hws.symm.trans (eq_of_beq (hown job hmem hid))
    exact exec_only (inScope_of_onBehalf (hsame ▸ hbehalf) hnew)

/-- The work for a job of another workspace is not seen. -/
theorem ForJob.unseen (h : ForJob jobId db op) (hnew : NewIdentity db op)
    (hother : NoJobOf db W jobId) : (op.exec db).2.only W = db.only W := by
  rcases h with hcall | ⟨W', ⟨job, hmem, hid, hws⟩, hbehalf⟩
  · exact aboutJob_hidden hcall hother
  · refine only_of_inScope (inScope_of_onBehalf hbehalf hnew) fun hsame => ?_
    have hno := hother job hmem hid
    rw [hws, hsame, beq_self_eq_true] at hno
    cases hno

/-- **What the clients of a workspace do is done on its documents.** -/
theorem Does.seen {client : AppClient} (h : Does app db op client) (hnew : NewIdentity db op)
    (hstays : Stays db final) (hclient : ¬ Foreign app final W client) :
    op.exec (db.only W) = ((op.exec db).1, (op.exec db).2.only W) := by
  cases client with
  | http call =>
      obtain ⟨claims, hclaims, hallowed⟩ := h
      have hws : claims.workspaceId = W := by
        by_contra hne
        exact hclient ⟨claims, hclaims, hne⟩
      exact exec_only (hws ▸ inScope_of_allowed hallowed hnew)
  | attempt analyze draws interruption =>
      exact ForJob.seen h hnew ((not_not.mp hclient).only hstays)
  | timedOut analyze draws => exact ForJob.seen h hnew ((not_not.mp hclient).only hstays)
  | failure jobId error random now =>
      exact ForJob.seen h hnew ((not_not.mp hclient).only hstays)
  | heartbeat jobId workerId now => exact queue_only (Or.inl ⟨_, _, _, _, h⟩)
  | recoverAbandoned now => exact queue_only (Or.inr ⟨_, h⟩)

/-- **What the clients of other workspaces do is not seen.** -/
theorem Does.unseen {client : AppClient} (h : Does app db op client) (hnew : NewIdentity db op)
    (hstays : Stays db final) (hclient : Foreign app final W client) :
    (op.exec db).2.only W = db.only W := by
  cases client with
  | http call =>
      obtain ⟨claims, hclaims, hallowed⟩ := h
      obtain ⟨claims', hclaims', hne⟩ := hclient
      obtain rfl : claims = claims' := Except.ok.inj (hclaims.symm.trans hclaims')
      exact only_of_inScope (inScope_of_allowed hallowed hnew) hne
  | attempt analyze draws interruption =>
      exact ForJob.unseen h hnew (noJobOf_of_stays hclient hstays)
  | timedOut analyze draws => exact ForJob.unseen h hnew (noJobOf_of_stays hclient hstays)
  | failure jobId error random now =>
      exact ForJob.unseen h hnew (noJobOf_of_stays hclient hstays)
  | heartbeat jobId workerId now => exact hclient.elim
  | recoverAbandoned now => exact hclient.elim

end Clients

/-! ## Two workspaces -/

instance {δ κ ι : Type} [Document δ κ ι] [DecidableEq κ] (c : Collection δ) (id : κ) :
    Decidable (Unused c id) :=
  inferInstanceAs (Decidable (∀ d ∈ c.docs, Document._id d ≠ id))

instance (db : Database) (op : DbOp) : Decidable (NewIdentity db op) :=
  match op with
  | .createJob job => inferInstanceAs (Decidable (Unused (db.except job.workspaceId).jobs job.id))
  | .createPlan plan =>
    inferInstanceAs (Decidable (Unused (db.except plan.workspaceId).plans plan.id))
  | .createApproval token =>
    inferInstanceAs (Decidable (Unused (db.except token.workspaceId).tokens token.id ∧
      ∀ t ∈ (db.except token.workspaceId).tokens.docs, t.tokenHash ≠ token.tokenHash))
  | .createExecution execution =>
    inferInstanceAs (Decidable (Unused (db.except execution.workspaceId).executions execution.id))
  | .upsertResource ws _ _ newId =>
    inferInstanceAs (Decidable (Unused (db.except ws).resources newId))
  | .upsertFinding ws _ _ _ _ newId =>
    inferInstanceAs (Decidable (Unused (db.except ws).findings newId))
  | .upsertRecommendation ws _ _ _ _ _ newId =>
    inferInstanceAs (Decidable (Unused (db.except ws).recommendations newId))
  | .findExecutionByKey _ _ | .findPlanByKey _ _ | .findPlan _ _ | .findFindings _ _
  | .findRecommendations _ _ | .findApprovals _ _ | .findResources _ _ | .findJobByKey _ _
  | .findJob _ _ | .findJobById _ | .findInventory _ _ _ | .findResource _ _ | .countJobs _ _
  | .listJobs _ _ _ | .countResources _ _ _ | .listResources _ _ _ _ | .countFindings _ _
  | .listFindings _ _ _ | .countRecommendations _ _ | .listRecommendations _ _ _
  | .countAudits _ _ | .listAudits _ _ _ | .saveJob _ | .claimJob _ _ _ _
  | .heartbeatJob _ _ _ _ | .completeJob _ _ _ | .failJob _ _ _ _ | .recoverAbandoned _
  | .createHealthCheck _ | .savePlan _ _ | .saveApproval _ _ | .saveResource _ _
  | .recordAudit _ => .isTrue trivial

/-- Whether a call draws new identities. -/
def drawsNew (s : AppPool) (_ : ℕ) (op : DbOp) : Bool :=
  decide (NewIdentity s.store op)

/-- The check of the calls decides that the identities are new. -/
theorem drawsNew_of_check (s : AppPool) (e : PoolEvent) (h : Pool.passes drawsNew s e = true) :
    DrawsNew s e := fun _ _ hp => of_decide_eq_true (hp.passed h)

/-- The installation with an operator of another workspace. -/
def sharedApp : AppConfig where
  packages :=
    { smallApp.packages with
      decode := fun text =>
        if text = "stranger" then
          some ⟨⟨"u-9", "operator@other", .operator, "other"⟩, "secret", "8h"⟩
        else smallApp.packages.decode text }
  http := smallApp.http
  queue := smallApp.queue

/-- Two workspaces create a job under one key, and two workers process the jobs. -/
def sharedClients : ℕ → AppClient
  | 0 => .http <| requestOf "operator" "c-0"
    (.createDiagnostics ⟨none, none, "job-key-1"⟩ ⟨"job-1", 0, 1⟩)
  | 1 => .http <| requestOf "stranger" "c-1"
    (.createDiagnostics ⟨none, none, "job-key-1"⟩ ⟨"job-9", 0, 1⟩)
  | 2 => .attempt (fun _ => .ok ⟨[publicAccess]⟩)
    ⟨"worker-1", "job-1", 2, 3, 3, 0, fun _ => ⟨2, "f-1", 2, "rec-1", 2⟩⟩ none
  | 3 => .attempt (fun _ => .ok ⟨[publicAccess]⟩)
    ⟨"worker-2", "job-9", 2, 3, 3, 0, fun _ => ⟨2, "f-9", 2, "rec-9", 2⟩⟩ none
  | _ => .recoverAbandoned 4

/-- The requests take turns, and so do the workers. -/
def sharedCalls : List PoolEvent :=
  ([0, 1, 0, 1, 1, 0, 2, 3, 3, 2, 2, 3, 2, 2, 3, 2, 3, 3, 4] : List ℕ).map .run

/-- The clients when they have ended. -/
def sharedPool : AppPool :=
  ((Pool.machine database faults).runChecked (Pool.passes drawsNew)
    (appStart sharedApp bucketInventory sharedClients) sharedCalls).get (by decide +kernel)

end CloudOps.Analysis
