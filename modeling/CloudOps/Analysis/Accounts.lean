import CloudOps.Analysis.HttpRuns
import CloudOps.Analysis.LoginAccounts

/-!
# Who has done it

A login signs a token for the account it has found, and a request is made in the name of the token
it brings. Whatever is stored under the name of a subject has then been made by an active account
of its workspace whose role may make it (`authors_have_accounts`): jobs, plans, approvals,
executions and the audit trail, in every interleaving of requests and workers. Of the tokens it is
only assumed that nothing but a login has signed with the secret.
-/

set_option autoImplicit false

namespace CloudOps.Analysis

open CloudOps.Computation CloudOps.Model

/-! ## The account behind a token -/

/-- The name is that of an active account of the workspace, whose role may do it. -/
def HasAccount (users : Collection User) (may : Role → Bool) (workspaceId userId : String) : Prop :=
  ∃ user ∈ users, user.active = true ∧ user.id = userId ∧ user.workspaceId = workspaceId ∧
    may user.role = true

/-- Whatever has been signed with the secret has been signed by a login. -/
def IssuedByLogin (packages : LoginPackages) (app : AppConfig) (users : Collection User) : Prop :=
  ∀ text token, app.packages.decode text = some token → token.secret = app.http.auth.JWT_SECRET →
    ∃ findOne email password response, FindsOne users findOne ∧
      login packages app.http.auth findOne email password = .ok response ∧ response.token = token

section Tokens

variable {packages : LoginPackages} {app : AppConfig} {users : Collection User}
  {findOne : String → Option User} {email password workspaceId userId : String}

/-- **A login signs the claims of an account.**
SRCLINE: apps/api/src/routes/auth.ts:18-32 -/
theorem claims_of_login {config : AuthConfig} {response : LoginResponse}
    (hfinds : FindsOne users findOne)
    (h : login packages config findOne email password = .ok response) :
    ∃ user ∈ users, user.active = true ∧
      response.token.claims = ⟨user.id, user.email, user.role, user.workspaceId⟩ := by
  unfold login at h
  obtain ⟨_, -, h⟩ := bind_ok h
  cases hfound : findOne (packages.toLowerCase email) with
  | none =>
      rw [hfound] at h
      cases h
  | some user =>
      obtain ⟨hmem, -, hactive⟩ := hfinds.found _ user hfound
      rw [hfound] at h
      cases hpassword : verifyPassword packages password user.passwordHash with
      | false =>
          simp [hpassword, bind, Except.bind, throw, throwThe, MonadExceptOf.throw] at h
      | true =>
          simp only [hpassword] at h
          cases h
          exact ⟨user, hmem, hactive, rfl⟩

/-- **A request is made in the name of an account.**
SRCLINE: apps/api/src/middleware/auth.ts:5-20, packages/shared/src/auth/index.ts:23-38 -/
theorem account_of_auth {call : HttpCall} {claims : AuthClaims}
    (hissued : IssuedByLogin packages app users)
    (h : call.auth app.packages app.http = .ok claims) : ∃ user ∈ users, user.active = true ∧
      claims = ⟨user.id, user.email, user.role, user.workspaceId⟩ := by
  unfold HttpCall.auth authMiddleware at h
  split at h
  · cases h
  · split at h
    · cases h
    · next token hdecode =>
      unfold verifyAccessToken at h
      split at h
      · cases h
      · next hvalid =>
        split at h
        · cases h
        · cases h
          have hsecret : token.secret = app.http.auth.JWT_SECRET := by
            by_contra hne
            exact hvalid (by simp [hne])
          obtain ⟨findOne, email, password, response, hfinds, hlogin, rfl⟩ :=
            hissued _ token hdecode hsecret
          exact claims_of_login hfinds hlogin

/-- What the subject of a request may do, its account may do. -/
theorem hasAccount_of_auth {call : HttpCall} {claims : AuthClaims} {may : Role → Bool}
    (hissued : IssuedByLogin packages app users)
    (h : call.auth app.packages app.http = .ok claims) (hmay : may claims.role = true) :
    HasAccount users may claims.workspaceId claims.sub := by
  obtain ⟨user, hmem, hactive, rfl⟩ := account_of_auth hissued h
  exact ⟨user, hmem, hactive, rfl, rfl, hmay⟩

end Tokens

/-! ## The author of a document -/

/-- **Every document is signed by an account** that may make it. -/
structure Authored (users : Collection User) (db : Database) : Prop where
  jobs : ∀ job ∈ db.jobs, HasAccount users canOperate job.workspaceId job.createdBy
  plans : ∀ plan ∈ db.plans, HasAccount users canOperate plan.workspaceId plan.createdBy
  tokens : ∀ token ∈ db.tokens, HasAccount users canApprove token.workspaceId token.createdBy
  executions : ∀ execution ∈ db.executions,
    HasAccount users canExecute execution.workspaceId execution.createdBy
  audits : ∀ event ∈ db.audits, HasAccount users canOperate event.workspaceId event.actorId

section Calls

variable {db : Database} {op : DbOp}

/-- An update that does not look at where a job comes from. -/
theorem jobOrigin_of_ite {jobs : Collection DiagnosticJob} {p : DiagnosticJob → Prop}
    [DecidablePred p] {f : DiagnosticJob → DiagnosticJob} {job : DiagnosticJob}
    (h : ∃ old ∈ jobs, (if p old then f old else old) = job)
    (hf : ∀ old, jobOrigin (f old) = jobOrigin old) :
    ∃ old ∈ jobs, jobOrigin old = jobOrigin job := by
  obtain ⟨old, hmem, rfl⟩ := h
  refine ⟨old, hmem, ?_⟩
  split
  · exact (hf old).symm
  · rfl

/-- A job after a call comes from a job that was there before, or has just been created. -/
theorem mem_jobs_exec {job : DiagnosticJob} (h : job ∈ (op.exec db).2.jobs) :
    (∃ old ∈ db.jobs, jobOrigin old = jobOrigin job) ∨ op = .createJob job := by
  cases op with
  | createJob new =>
      rcases mem_createIn.mp h with hold | ⟨-, rfl⟩
      · exact Or.inl ⟨job, hold, rfl⟩
      · exact Or.inr rfl
  | saveJob call =>
      change job ∈ db.jobs.update call.loaded.id (retrySave call) (retrySave_id call)
        (retrySave_index call) at h
      exact Or.inl (jobOrigin_of_ite (Collection.mem_update.mp h) fun _ => rfl)
  | claimJob config workerId now jobId =>
      change job ∈ (JobQueue.claim config db.jobs workerId now jobId).getD db.jobs at h
      unfold JobQueue.claim at h
      split at h
      · exact Or.inl ⟨job, h, rfl⟩
      · split at h
        · exact Or.inl (jobOrigin_of_ite (Collection.mem_update.mp h) fun _ => rfl)
        · exact Or.inl ⟨job, h, rfl⟩
  | heartbeatJob config jobId workerId now =>
      change job ∈ db.jobs.updateMany _ (heartbeatUpdate config now) (fun _ => rfl)
        fun _ => rfl at h
      exact Or.inl (jobOrigin_of_ite (Collection.mem_updateMany.mp h) fun _ => rfl)
  | completeJob jobId summary now =>
      change job ∈ db.jobs.update jobId (completeUpdate summary now) (fun _ => rfl)
        fun _ => rfl at h
      exact Or.inl (jobOrigin_of_ite (Collection.mem_update.mp h) fun _ => rfl)
  | failJob config call random now =>
      have horigin : ∀ old, jobOrigin (failUpdate config call random now old) = jobOrigin old := by
        intro old
        unfold failUpdate
        split <;> rfl
      change job ∈ db.jobs.update call.jobId (failUpdate config call random now)
        (fun old => congrArg (·.1) (horigin old))
        (fun old => congrArg (fun origin => (origin.2.1, origin.2.2.1)) (horigin old)) at h
      exact Or.inl (jobOrigin_of_ite (Collection.mem_update.mp h) horigin)
  | recoverAbandoned now =>
      change job ∈ db.jobs.updateMany (recoverFilter now) (recoverUpdate now) (fun _ => rfl)
        fun _ => rfl at h
      exact Or.inl (jobOrigin_of_ite (Collection.mem_updateMany.mp h) fun _ => rfl)
  | _ => exact Or.inl ⟨job, h, rfl⟩

end Calls

section Runs

variable {packages : LoginPackages} {app : AppConfig} {users : Collection User} {db : Database}
  {clients : ℕ → AppClient} {G : AppPool → PoolEvent → Prop} {s : AppPool}

/-- The call is a worker's, or is allowed to the subject of a request, which has an account. -/
def MadeBy (users : Collection User) (db : Database) (op : DbOp) : Prop :=
  (∃ claims, Allowed claims db op ∧ ∀ may : Role → Bool, may claims.role = true →
    HasAccount users may claims.workspaceId claims.sub) ∨ workerCall op = true

/-- A document that only requests make, under the name of their subject, is signed by an
account. -/
theorem hasAccount_of_made {op : DbOp} {may : Role → Bool} {workspaceId author : String}
    (h : MadeBy users db op) (hcall : workerCall op = false)
    (hsigned : ∀ claims, Allowed claims db op → may claims.role = true ∧
      workspaceId = claims.workspaceId ∧ author = claims.sub) :
    HasAccount users may workspaceId author := by
  rcases h with ⟨claims, hallowed, haccount⟩ | hworker
  · obtain ⟨hrole, rfl, rfl⟩ := hsigned claims hallowed
    exact haccount may hrole
  · rw [hcall] at hworker
    cases hworker

/-- **One call keeps every document signed**: a request signs with its account, and a worker makes
no document that is signed. -/
theorem Authored.exec {op : DbOp} (h : Authored users db) (hmade : MadeBy users db op) :
    Authored users (op.exec db).2 where
  jobs := by
    intro job hmem
    rcases mem_jobs_exec hmem with ⟨old, hold, horigin⟩ | rfl
    · simp only [jobOrigin, Prod.mk.injEq] at horigin
      obtain ⟨-, hws, -, hauthor, -⟩ := horigin
      exact hws ▸ hauthor ▸ h.jobs old hold
    · exact hasAccount_of_made hmade rfl fun _ hallowed => hallowed
  plans := by
    intro plan hmem
    rcases mem_plans_exec hmem with hold | ⟨rfl, -⟩ | ⟨old, hold, status, -, rfl⟩
    · exact h.plans plan hold
    · exact hasAccount_of_made hmade rfl fun _ h => ⟨h.1, h.2.1, h.2.2.1⟩
    · exact h.plans old hold
  tokens := by
    intro token hmem
    rcases mem_tokens_exec hmem with hold | ⟨rfl, -⟩ | ⟨old, hold, usedAt, -, rfl⟩
    · exact h.tokens token hold
    · exact hasAccount_of_made hmade rfl fun _ h => ⟨h.1, h.2.1, h.2.2.1⟩
    · exact h.tokens old hold
  executions := by
    intro execution hmem
    rcases mem_executions_exec hmem with hold | ⟨rfl, -⟩
    · exact h.executions execution hold
    · exact hasAccount_of_made hmade rfl fun _ h => ⟨h.1, h.2.1, h.2.2.1⟩
  audits := by
    intro event hmem
    rcases mem_audits_exec hmem with hold | rfl
    · exact h.audits event hold
    · exact hasAccount_of_made hmade rfl fun _ hallowed => hallowed

/-- **Whatever is stored under a name has been made by its account**: an active account of the
workspace of the document, with a role that may make it, in every interleaving of requests and
workers, writes failing or not.
SRCLINE: apps/api/src/routes/auth.ts:16-40, apps/api/src/routes/api.ts:30-241,
apps/worker/src/processor.ts:24-154 -/
theorem authors_have_accounts (hissued : IssuedByLogin packages app users)
    (hdb : Authored users db)
    (hs : (Pool.machine database faults).Reaches G (appStart app db clients) s) :
    Authored users s.store := by
  refine Pool.invariant_of_performs (I := fun store _ => Authored users store) hs hdb ?_
  intro t e q op ht _ hp ih
  refine ih.exec ?_
  rcases permitted_of_performs ht hp with ⟨call, claims, -, hclaims, hpermits⟩ | hworker
  · exact Or.inl ⟨claims, hpermits.allowed, fun may => hasAccount_of_auth hissued hclaims⟩
  · exact Or.inr hworker.1

end Runs

/-! ## The accounts of the small installation -/

/-- A user of the workspace of the bucket. -/
def smallUser (id email : String) (role : Role) (h : id ≠ "" ∧ email ≠ "") : User :=
  ⟨id, "ws", email, role, "a-password", true, h.1, by decide, h.2⟩

/-- An admin and an operator. -/
def smallUsers : Collection User :=
  ⟨[smallUser "u-1" "admin@ws" .admin (by decide),
    smallUser "u-2" "operator@ws" .operator (by decide)], by decide, by decide⟩

/-- The tokens of the small installation are those its users get. -/
theorem issued_small : IssuedByLogin plainPackages smallApp smallUsers := by
  intro text token hdecode _
  refine ⟨findActive smallUsers, ?_⟩
  change (if text = "admin" then _ else if text = "operator" then _ else none) = some token
    at hdecode
  split at hdecode
  · cases hdecode
    have hfound : findActive smallUsers (plainPackages.toLowerCase "admin@ws") =
        some (smallUser "u-1" "admin@ws" .admin (by decide)) := by decide +kernel
    exact ⟨"admin@ws", "a-password", _, findsOne_findActive smallUsers,
      login_of_match (by decide +kernel) hfound (by decide), rfl⟩
  · split at hdecode
    · cases hdecode
      have hfound : findActive smallUsers (plainPackages.toLowerCase "operator@ws") =
          some (smallUser "u-2" "operator@ws" .operator (by decide)) := by decide +kernel
      exact ⟨"operator@ws", "a-password", _, findsOne_findActive smallUsers,
        login_of_match (by decide +kernel) hfound (by decide), rfl⟩
    · cases hdecode

/-- The plan for the bucket has been made by the operator, and approved by the admin. -/
theorem authors_have_accounts_remediation :
    remediationPool.store.plans.docs.map (·.createdBy) = ["u-2"] ∧
    remediationPool.store.tokens.docs.map (·.createdBy) = ["u-1"] ∧
    Authored smallUsers remediationPool.store := by
  have hdb : Authored smallUsers bucketInventory := by
    constructor <;> exact fun _ h => absurd h List.not_mem_nil
  exact ⟨by decide +kernel, by decide +kernel,
    authors_have_accounts issued_small hdb remediationPool_reached⟩

end CloudOps.Analysis
