import CloudOps.Analysis.DatabaseSteps
import CloudOps.Computation.Isolation
import CloudOps.Computation.Restriction

/-!
# What a workspace sees of the database

`db.only W` holds the documents of workspace `W` and `db.except W` those of the others. A call
is in scope for `W` if it names `W` as its workspace, and addresses by identity alone no
document of another one. `isolates` says that such a call replies from the documents of `W`
and changes no others.
-/

set_option autoImplicit false

namespace CloudOps.Model.Database

open CloudOps.Computation

/-- The documents of the workspaces `q` keeps. -/
def restrict (q : String → Bool) (db : Database) : Database where
  jobs := db.jobs.restrict fun job => q job.workspaceId
  resources := db.resources.restrict fun resource => q resource.workspaceId
  findings := db.findings.restrict fun finding => q finding.workspaceId
  recommendations := db.recommendations.restrict fun r => q r.workspaceId
  plans := db.plans.restrict fun plan => q plan.workspaceId
  tokens := db.tokens.restrict fun token => q token.workspaceId
  executions := db.executions.restrict fun execution => q execution.workspaceId
  healthChecks := db.healthChecks.filter fun check => q check.workspaceId
  audits := db.audits.filter fun event => q event.workspaceId

/-- The documents of a workspace, each collection in insertion order. -/
def only (workspaceId : String) (db : Database) : Database := db.restrict (· == workspaceId)

/-- The documents of the other workspaces. -/
def except (workspaceId : String) (db : Database) : Database := db.restrict (· != workspaceId)

end CloudOps.Model.Database

namespace CloudOps.Analysis

open CloudOps.Computation CloudOps.Model

/-- No document of the collection has this identity. -/
def Unused {δ κ ι : Type} [Document δ κ ι] (c : Collection δ) (id : κ) : Prop :=
  ∀ d ∈ c, Document._id d ≠ id

/-- The calls made on behalf of a workspace, where the others have stored `o`. The calls of the
queue are not among them: they address jobs of every workspace. -/
def InScope (W : String) (o : Database) : DbOp → Prop
  | .findExecutionByKey ws _ | .findPlanByKey ws _ | .findPlan _ ws | .findFindings ws _
  | .findRecommendations ws _ | .findApprovals ws _ | .findResources ws _ | .findJobByKey ws _
  | .findJob _ ws | .findInventory ws _ _ | .findResource _ ws | .countJobs ws _
  | .listJobs ws _ _ | .countResources _ ws _ | .listResources _ ws _ _ | .countFindings ws _
  | .listFindings ws _ _ | .countRecommendations ws _ | .listRecommendations ws _ _
  | .countAudits ws _ | .listAudits ws _ _ => ws = W
  | .createJob job => job.workspaceId = W ∧ Unused o.jobs job.id
  | .saveJob call => Unused o.jobs call.loaded.id
  | .upsertFinding ws _ _ _ _ newId => ws = W ∧ Unused o.findings newId
  | .upsertRecommendation ws _ _ _ _ _ newId => ws = W ∧ Unused o.recommendations newId
  | .createHealthCheck check => check.workspaceId = W
  | .createPlan plan => plan.workspaceId = W ∧ Unused o.plans plan.id
  | .createApproval token => token.workspaceId = W ∧ Unused o.tokens token.id ∧
      ∀ t ∈ o.tokens, t.tokenHash ≠ token.tokenHash
  | .createExecution execution => execution.workspaceId = W ∧ Unused o.executions execution.id
  | .savePlan id _ => Unused o.plans id
  | .saveApproval id _ => Unused o.tokens id
  | .saveResource id _ => Unused o.resources id
  | .upsertResource ws _ _ newId => ws = W ∧ Unused o.resources newId
  | .recordAudit event => event.workspaceId = W
  | .findJobById _ | .claimJob _ _ _ _ | .heartbeatJob _ _ _ _ | .completeJob _ _ _
  | .failJob _ _ _ _ | .recoverAbandoned _ => False

/-! ## One collection -/

section Collections

variable {δ κ ι : Type} [Document δ κ ι] {c : Collection δ} {ws : δ → String} {W : String}

/-- A document that no other workspace can have is of this one. -/
theorem own_of_unused {id : κ} (h : Unused (c.restrict fun d => ws d != W) id) :
    ∀ d ∈ c, Document._id d = id → (ws d == W) = true := by
  intro d hd hid
  cases hws : ws d == W with
  | true => rfl
  | false => exact absurd hid (h d (Collection.mem_restrict.mpr ⟨hd, by simp [bne, hws]⟩))

/-- What refuses a new document of the workspace is of the workspace too, where the index holds
the workspace. -/
theorem own_of_taken {d : δ} (hws : ws d = W)
    (hfresh : Unused (c.restrict fun d => ws d != W) (Document._id d))
    (hindex : ∀ d', Document.uniqueIndex d' = Document.uniqueIndex d → ws d' = ws d) :
    ∀ d' ∈ c, Document._id d' = Document._id d ∨
      Document.uniqueIndex d' = Document.uniqueIndex d → (ws d' == W) = true := by
  intro d' hd' htaken
  rcases htaken with hid | hix
  · exact own_of_unused hfresh d' hd' hid
  · rw [hindex d' hix, hws]
    exact beq_self_eq_true W

/-- What is of the workspace is of no other. -/
theorem not_other_of_own {d : δ} (h : (ws d == W) = true) : (ws d != W) = false := by
  simp [bne, h]

variable [DecidableEq κ] [DecidableEq ι]

/-- A `create` in a workspace, its identity and its index free elsewhere. -/
theorem createIn_restrict {d : δ} (hws : ws d = W)
    (htaken : ∀ d' ∈ c, Document._id d' = Document._id d ∨
      Document.uniqueIndex d' = Document.uniqueIndex d → (ws d' == W) = true) :
    createIn (c.restrict fun d => ws d == W) d =
      ((createIn c d).1, (createIn c d).2.restrict fun d => ws d == W) := by
  unfold createIn
  rw [Collection.restrict_insert? (by simp [hws]) htaken]
  cases c.insert? d with
  | some c' => rfl
  | none => rfl

/-- A creation in the workspace is not seen by the others. -/
theorem createIn_other {d : δ} (hws : ws d = W) :
    (createIn c d).2.restrict (fun d => ws d != W) = c.restrict fun d => ws d != W := by
  unfold createIn
  cases hinsert : c.insert? d with
  | some c' => exact Collection.restrict_of_insert?_other hinsert (by simp [hws])
  | none => rfl

end Collections

/-- The upsert of `sync` is an upsert. -/
theorem upsertIn_eq (resources : Collection CloudResource) (workspaceId : String)
    (item : ListedResource) (lastSyncedAt : Time) (newId : String) :
    upsertIn resources workspaceId item lastSyncedAt newId =
      (let upserted := resources.upsert (fun r => r.workspaceId == workspaceId && r.arn == item.arn)
        (syncUpdate item lastSyncedAt) (syncInsert workspaceId item lastSyncedAt newId)
      (upsertReply upserted.1, upserted.2)) := by
  unfold upsertIn Collection.upsert
  cases resources.find? fun r => r.workspaceId == workspaceId && r.arn == item.arn with
  | some resource => rfl
  | none =>
    cases hinsert : resources.insert? (syncInsert workspaceId item lastSyncedAt newId) with
    | some resources' => simp only [hinsert, upsertReply]
    | none => simp only [hinsert, upsertReply]

/-! ## Upserts in a workspace -/

section Upserts

variable {W jobId correlationId findingId newId : String} {finding : EngineFinding} {now : Time}
  {item : ListedResource}

/-- The upsert of a finding is seen in its workspace as an upsert of its part. -/
theorem upsertFindingIn_restrict {c : Collection Finding}
    (hfresh : Unused (c.restrict fun f => f.workspaceId != W) newId) :
    upsertFindingIn (c.restrict fun f => f.workspaceId == W) W jobId correlationId finding now
        newId =
      ((upsertFindingIn c W jobId correlationId finding now newId).1,
        (upsertFindingIn c W jobId correlationId finding now newId).2.restrict
          fun f => f.workspaceId == W) := by
  unfold upsertFindingIn
  rw [Collection.restrict_upsert]
  · intro f _ hmatch
    simp only [Bool.and_eq_true] at hmatch
    exact hmatch.1.1.1
  · exact fun _ => rfl
  · exact beq_self_eq_true W
  · exact own_of_taken (d := finding.newFinding W jobId correlationId now newId) rfl hfresh
      fun _ hix => congrArg (·.1) hix

/-- The upsert of a finding is not seen by the other workspaces. -/
theorem upsertFindingIn_other {c : Collection Finding} :
    (upsertFindingIn c W jobId correlationId finding now newId).2.restrict
      (fun f => f.workspaceId != W) = c.restrict fun f => f.workspaceId != W := by
  unfold upsertFindingIn
  refine Collection.restrict_upsert_of_other (fun f _ hmatch => ?_) (fun _ => rfl) ?_
  · simp only [Bool.and_eq_true] at hmatch
    exact not_other_of_own hmatch.1.1.1
  · show (W != W) = false
    simp

/-- The upsert of a recommendation is seen in its workspace as an upsert of its part. -/
theorem upsertRecommendationIn_restrict {c : Collection Recommendation}
    (hfresh : Unused (c.restrict fun r => r.workspaceId != W) newId) :
    upsertRecommendationIn (c.restrict fun r => r.workspaceId == W) W jobId correlationId findingId
        finding now newId =
      ((upsertRecommendationIn c W jobId correlationId findingId finding now newId).1,
        (upsertRecommendationIn c W jobId correlationId findingId finding now newId).2.restrict
          fun r => r.workspaceId == W) := by
  unfold upsertRecommendationIn
  rw [Collection.restrict_upsert]
  · exact fun r _ hmatch => (Bool.and_eq_true_iff.mp hmatch).1
  · exact fun _ => rfl
  · exact beq_self_eq_true W
  · exact own_of_taken (d := finding.newRecommendation W jobId correlationId findingId now newId)
      rfl hfresh fun _ hix => congrArg (·.1) hix

/-- The upsert of a recommendation is not seen by the other workspaces. -/
theorem upsertRecommendationIn_other {c : Collection Recommendation} :
    (upsertRecommendationIn c W jobId correlationId findingId finding now newId).2.restrict
      (fun r => r.workspaceId != W) = c.restrict fun r => r.workspaceId != W := by
  unfold upsertRecommendationIn
  refine Collection.restrict_upsert_of_other (fun r _ hmatch => ?_) (fun _ => rfl) ?_
  · exact not_other_of_own (Bool.and_eq_true_iff.mp hmatch).1
  · show (W != W) = false
    simp

/-- The upsert of a resource is seen in its workspace as an upsert of its part. -/
theorem upsertIn_restrict {c : Collection CloudResource}
    (hfresh : Unused (c.restrict fun r => r.workspaceId != W) newId) :
    upsertIn (c.restrict fun r => r.workspaceId == W) W item now newId =
      ((upsertIn c W item now newId).1,
        (upsertIn c W item now newId).2.restrict fun r => r.workspaceId == W) := by
  simp only [upsertIn_eq]
  rw [Collection.restrict_upsert]
  · exact fun r _ hmatch => (Bool.and_eq_true_iff.mp hmatch).1
  · exact fun _ => rfl
  · exact beq_self_eq_true W
  · exact own_of_taken (d := syncInsert W item now newId) rfl hfresh fun _ hix => congrArg (·.1) hix

/-- The upsert of a resource is not seen by the other workspaces. -/
theorem upsertIn_other {c : Collection CloudResource} :
    (upsertIn c W item now newId).2.restrict (fun r => r.workspaceId != W) =
      c.restrict fun r => r.workspaceId != W := by
  simp only [upsertIn_eq]
  refine Collection.restrict_upsert_of_other (fun r _ hmatch => ?_) (fun _ => rfl) ?_
  · exact not_other_of_own (Bool.and_eq_true_iff.mp hmatch).1
  · show (W != W) = false
    simp

end Upserts

/-! ## One call -/

section Calls

variable {W : String} {db : Database} {op : DbOp}

/-- A lookup that names the workspace finds the same among its documents. -/
theorem find?_only {δ κ ι : Type} [Document δ κ ι] {c : Collection δ} {ws : δ → String}
    {p : δ → Bool} (hp : ∀ d, p d = true → (ws d == W) = true) :
    (c.restrict fun d => ws d == W).find? p = c.find? p :=
  Collection.find?_restrict fun d _ => hp d

/-- A query for a workspace finds the same in its part. -/
theorem filter_only {δ κ ι : Type} [Document δ κ ι] {c : Collection δ} {ws : δ → String}
    {p : δ → Bool} : ((c.restrict fun d => ws d == W).filter fun d => ws d == W && p d) =
      c.filter fun d => ws d == W && p d :=
  Collection.filter_restrict fun _ _ hd => (Bool.and_eq_true_iff.mp hd).1

/-- The audit events of a workspace are those of its part. -/
theorem auditsOf_only (query : AuditQuery) :
    (db.only W).auditsOf W query = db.auditsOf W query := by
  simp only [Database.auditsOf, Database.only, Database.restrict, List.filter_filter]
  refine List.filter_congr fun event _ => ?_
  cases event.workspaceId == W <;> simp

/-- **A call in scope acts on the documents of its workspace**: they alone decide the reply and
become what they become in the whole database. -/
theorem exec_only (hop : InScope W (db.except W) op) :
    op.exec (db.only W) = ((op.exec db).1, (op.exec db).2.only W) := by
  cases op with
  | findExecutionByKey ws key | findPlanByKey ws key | findJobByKey ws key =>
      cases hop
      exact Prod.ext (find?_only fun _ hd => (Bool.and_eq_true_iff.mp hd).1) rfl
  | findPlan id ws | findJob id ws | findResource id ws =>
      cases hop
      exact Prod.ext (find?_only fun _ hd => (Bool.and_eq_true_iff.mp hd).2) rfl
  | findFindings ws ids | findRecommendations ws ids | findApprovals ws ids
  | findResources ws ids =>
      cases hop
      exact Prod.ext filter_only rfl
  | findInventory ws ids types =>
      cases hop
      refine Prod.ext (Collection.filter_restrict fun _ _ hd => ?_) rfl
      exact (Bool.and_eq_true_iff.mp (Bool.and_eq_true_iff.mp hd).1).1
  | countJobs ws query | countFindings ws query | countRecommendations ws query
  | countResources regex ws query =>
      cases hop
      exact Prod.ext (congrArg List.length filter_only) rfl
  | listJobs ws query page | listFindings ws query page | listRecommendations ws query page =>
      cases hop
      exact Prod.ext (congrArg (fun docs => page.take (newestFirst _ docs)) filter_only) rfl
  | listResources regex ws query page =>
      cases hop
      exact Prod.ext (congrArg (fun docs => page.take (List.mergeSort docs _)) filter_only) rfl
  | countAudits ws query =>
      cases hop
      exact Prod.ext (congrArg List.length (auditsOf_only query)) rfl
  | listAudits ws query page =>
      cases hop
      exact Prod.ext (congrArg (fun docs => page.take (newestFirst _ docs))
        (auditsOf_only query)) rfl
  | createJob document | createPlan document | createExecution document =>
      obtain ⟨hws, hfresh⟩ := hop
      have hcreate := createIn_restrict hws
        (own_of_taken hws hfresh fun _ hix => congrArg (·.1) hix)
      simp only [DbOp.exec, Database.only, Database.restrict, hcreate]
  | createApproval token =>
      obtain ⟨hws, hfresh, hhash⟩ := hop
      have hcreate := createIn_restrict (c := db.tokens) (d := token) hws
        fun token' hmem htaken => by
        rcases htaken with hid | hix
        · exact own_of_unused hfresh token' hmem hid
        · cases hown : token'.workspaceId == W with
          | true => rfl
          | false => exact absurd hix (hhash token'
              (Collection.mem_restrict.mpr ⟨hmem, by simp [bne, hown]⟩))
      simp only [DbOp.exec, Database.only, Database.restrict, hcreate]
  | saveJob call =>
      refine Prod.ext rfl ?_
      simp only [DbOp.exec, Database.only, Database.restrict]
      rw [Collection.restrict_update (f := retrySave call) fun _ => rfl]
  | savePlan id status =>
      refine Prod.ext rfl ?_
      simp only [DbOp.exec, Database.only, Database.restrict]
      rw [Collection.restrict_update (f := fun plan : RemediationPlan =>
        { plan with status := status.getD plan.status }) fun _ => rfl]
  | saveApproval id usedAt =>
      refine Prod.ext rfl ?_
      simp only [DbOp.exec, Database.only, Database.restrict]
      rw [Collection.restrict_update (f := fun token : ApprovalToken =>
        { token with usedAt := some usedAt }) fun _ => rfl]
  | saveResource id patch =>
      refine Prod.ext rfl ?_
      simp only [DbOp.exec, Database.only, Database.restrict]
      rw [Collection.restrict_update (f := patch.apply) fun _ => rfl]
  | upsertFinding ws job correlation finding now newId =>
      obtain ⟨rfl, hfresh⟩ := hop
      simp only [DbOp.exec, Database.only, Database.restrict, upsertFindingIn_restrict hfresh]
  | upsertRecommendation ws job correlation findingId finding now newId =>
      obtain ⟨rfl, hfresh⟩ := hop
      simp only [DbOp.exec, Database.only, Database.restrict,
        upsertRecommendationIn_restrict hfresh]
  | upsertResource ws item lastSyncedAt newId =>
      obtain ⟨rfl, hfresh⟩ := hop
      simp only [DbOp.exec, Database.only, Database.restrict, upsertIn_restrict hfresh]
  | createHealthCheck check =>
      have hws : (check.workspaceId == W) = true := beq_iff_eq.mpr hop
      simp [DbOp.exec, Database.only, Database.restrict, hws]
  | recordAudit event =>
      have hws : (event.workspaceId == W) = true := beq_iff_eq.mpr hop
      simp [DbOp.exec, Database.only, Database.restrict, hws]
  | findJobById _ | claimJob _ _ _ _ | heartbeatJob _ _ _ _ | completeJob _ _ _ | failJob _ _ _ _
  | recoverAbandoned _ => exact hop.elim

/-- **A call in scope leaves the documents of other workspaces alone.** -/
theorem exec_except (hop : InScope W (db.except W) op) :
    (op.exec db).2.except W = db.except W := by
  cases op with
  | createJob document | createPlan document | createExecution document
  | createApproval document =>
      simp only [DbOp.exec, Database.except, Database.restrict, createIn_other hop.1]
  | saveJob call =>
      simp only [DbOp.exec, Database.except, Database.restrict]
      rw [Collection.restrict_update_of_other (f := retrySave call) (fun _ => rfl)
        fun job hmem hid => not_other_of_own (own_of_unused hop job hmem hid)]
  | savePlan id status =>
      simp only [DbOp.exec, Database.except, Database.restrict]
      rw [Collection.restrict_update_of_other (f := fun plan : RemediationPlan =>
        { plan with status := status.getD plan.status }) (fun _ => rfl)
        fun plan hmem hid => not_other_of_own (own_of_unused hop plan hmem hid)]
  | saveApproval id usedAt =>
      simp only [DbOp.exec, Database.except, Database.restrict]
      rw [Collection.restrict_update_of_other (f := fun token : ApprovalToken =>
        { token with usedAt := some usedAt }) (fun _ => rfl)
        fun token hmem hid => not_other_of_own (own_of_unused hop token hmem hid)]
  | saveResource id patch =>
      simp only [DbOp.exec, Database.except, Database.restrict]
      rw [Collection.restrict_update_of_other (f := patch.apply) (fun _ => rfl)
        fun resource hmem hid => not_other_of_own (own_of_unused hop resource hmem hid)]
  | upsertFinding ws job correlation finding now newId =>
      obtain ⟨rfl, -⟩ := hop
      simp only [DbOp.exec, Database.except, Database.restrict, upsertFindingIn_other]
  | upsertRecommendation ws job correlation findingId finding now newId =>
      obtain ⟨rfl, -⟩ := hop
      simp only [DbOp.exec, Database.except, Database.restrict, upsertRecommendationIn_other]
  | upsertResource ws item lastSyncedAt newId =>
      obtain ⟨rfl, -⟩ := hop
      simp only [DbOp.exec, Database.except, Database.restrict, upsertIn_other]
  | createHealthCheck check =>
      have hws : (check.workspaceId == W) = true := beq_iff_eq.mpr hop
      simp [DbOp.exec, Database.except, Database.restrict, bne, hws]
  | recordAudit event =>
      have hws : (event.workspaceId == W) = true := beq_iff_eq.mpr hop
      simp [DbOp.exec, Database.except, Database.restrict, bne, hws]
  | findJobById _ | claimJob _ _ _ _ | heartbeatJob _ _ _ _ | completeJob _ _ _ | failJob _ _ _ _
  | recoverAbandoned _ => exact hop.elim
  | _ => rfl

/-- The calls in scope of a workspace keep to its documents. -/
theorem isolates (W : String) :
    database.Isolates (Database.only W) (Database.except W) (InScope W) where
  exec_view _ _ hop := exec_only hop
  exec_others _ _ hop := exec_except hop

end Calls

end CloudOps.Analysis
