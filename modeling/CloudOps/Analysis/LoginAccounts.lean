import CloudOps.Model.Login

/-!
# Whose account a login opens

Emails are unique within a workspace, but the login looks for them over all workspaces and takes
the first active user it is given. Credentials open their own account whatever the database
answers exactly when no active user of another workspace has the email; otherwise the hash of that
user may be the one that is compared, and the login is refused.
-/

set_option autoImplicit false

namespace CloudOps.Analysis

open CloudOps.Computation CloudOps.Model

/-- The credentials open the account: whatever user the database answers with, the login succeeds,
and its token is accepted with the user's id, workspace and role. -/
def OpensAccount (packages : LoginPackages) (config : AuthConfig) (users : Collection User)
    (user : User) (email password : String) : Prop :=
  ∀ findOne, FindsOne users findOne → ∃ response claims,
    login packages config findOne email password = .ok response ∧
    verifyAccessToken response.token config.JWT_SECRET false = .ok claims ∧
    claims.sub = user.id ∧ claims.workspaceId = user.workspaceId ∧ claims.role = user.role

/-- The answer in the order of the collection. -/
def findActive (users : Collection User) (email : String) : Option User :=
  users.find? fun user => user.email == email && user.active

section Login

variable {packages : LoginPackages} {config : AuthConfig} {users : Collection User}
  {findOne : String → Option User} {user other : User} {email password : String}

/-- What the database may answer includes its own order. -/
theorem findsOne_findActive (users : Collection User) : FindsOne users (findActive users) where
  found := by
    intro email user hfound
    obtain ⟨hmem, hmatch⟩ := Collection.mem_of_find? hfound
    rw [Bool.and_eq_true, beq_iff_eq] at hmatch
    exact ⟨hmem, hmatch.1, hmatch.2⟩
  exists_found := by
    intro user hmem hactive
    cases hfound : findActive users user.email with
    | some found => rfl
    | none =>
        have hnone := Collection.find?_eq_none.mp hfound user hmem
        simp [hactive] at hnone

/-- The database may answer with any active user for its own email. -/
theorem findsOne_update (h : FindsOne users findOne) (hmem : other ∈ users)
    (hactive : other.active = true) :
    FindsOne users (Function.update findOne other.email (some other)) where
  found := by
    intro email user hfound
    by_cases hemail : email = other.email
    · subst hemail
      rw [Function.update_self] at hfound
      cases hfound
      exact ⟨hmem, rfl, hactive⟩
    · rw [Function.update_of_ne hemail] at hfound
      exact h.found email user hfound
  exists_found := by
    intro user huser hisActive
    by_cases hemail : user.email = other.email
    · rw [hemail, Function.update_self]
      rfl
    · rw [Function.update_of_ne hemail]
      exact h.exists_found user huser hisActive

/-- A login that succeeds has passed the schema. -/
theorem schema_of_login {response : LoginResponse}
    (h : login packages config findOne email password = .ok response) :
    loginSchema packages email password = true := by
  unfold login at h
  obtain ⟨_, hvalid, -⟩ := bind_ok h
  unfold validate at hvalid
  split at hvalid
  · assumption
  · cases hvalid

/-- A login whose user is found and whose password is right succeeds with that user.
SRCLINE: apps/api/src/routes/auth.ts:16-34 -/
theorem login_of_match (hschema : loginSchema packages email password = true)
    (hfound : findOne (packages.toLowerCase email) = some user)
    (hpassword : verifyPassword packages password user.passwordHash = true) :
    login packages config findOne email password =
      .ok ⟨signAccessToken ⟨user.id, user.email, user.role, user.workspaceId⟩ config.JWT_SECRET
        config.JWT_EXPIRES_IN,
        ⟨user.id, user.workspaceId, user.email, user.role, user.active⟩⟩ := by
  simp [login, hschema, validate, hfound, hpassword]

/-- A login for whose user the password is wrong is refused. -/
theorem login_of_mismatch (hschema : loginSchema packages email password = true)
    (hfound : findOne (packages.toLowerCase email) = some user)
    (hpassword : verifyPassword packages password user.passwordHash = false) :
    login packages config findOne email password =
      .error (.unauthorized "Invalid credentials") := by
  simp [login, hschema, validate, hfound, hpassword]
  rfl

/-- The token of a user is accepted with its claims. -/
theorem verify_signed (user : User) (secret expiresIn : String) :
    verifyAccessToken (signAccessToken ⟨user.id, user.email, user.role, user.workspaceId⟩ secret
      expiresIn) secret false = .ok ⟨user.id, user.email, user.role, user.workspaceId⟩ := by
  simp [verifyAccessToken, signAccessToken, user.id_ne, user.email_ne, user.workspaceId_ne]

/-- **Whose account a login opens.** Right credentials open their account exactly when they have the
form of credentials and no active user of another workspace has the email.
SRCLINE: apps/api/src/routes/auth.ts:16-40, packages/shared/src/db/models/user.ts:4-15 -/
theorem login_opens_account_iff (hmem : user ∈ users) (hactive : user.active = true)
    (hpassword : verifyPassword packages password user.passwordHash = true)
    (hothers : ∀ other ∈ users, other ≠ user →
      verifyPassword packages password other.passwordHash = false)
    (hemail : packages.toLowerCase email = user.email) :
    OpensAccount packages config users user email password ↔
      loginSchema packages email password = true ∧ ∀ other ∈ users, other.active = true →
        other.email = user.email → other.workspaceId = user.workspaceId := by
  constructor
  · intro hopens
    obtain ⟨_, _, hlogin, -⟩ := hopens _ (findsOne_findActive users)
    have hschema := schema_of_login hlogin
    refine ⟨hschema, fun other hother hisActive hsame => ?_⟩
    by_contra hws
    have hne : other ≠ user := fun heq => hws (heq ▸ rfl)
    -- the database answers with the other user
    obtain ⟨response, _, hresponse, -⟩ :=
      hopens _ (findsOne_update (findsOne_findActive users) hother hisActive)
    have hfound : Function.update (findActive users) other.email (some other)
        (packages.toLowerCase email) = some other := by
      rw [hemail, ← hsame, Function.update_self]
    rw [login_of_mismatch hschema hfound (hothers other hother hne)] at hresponse
    cases hresponse
  · rintro ⟨hschema, hunique⟩ findOne hfinds
    obtain ⟨found, hfound⟩ := Option.isSome_iff_exists.mp (hfinds.exists_found user hmem hactive)
    obtain ⟨hstored, hsame, hisActive⟩ := hfinds.found _ _ hfound
    have hws := hunique found hstored hisActive hsame
    obtain rfl : found = user := Collection.eq_of_index hstored hmem (Prod.ext hws hsame)
    rw [← hemail] at hfound
    exact ⟨_, _, login_of_match hschema hfound hpassword, verify_signed found _ _, rfl, rfl, rfl⟩

end Login

/-! ## One email in two workspaces -/

/-- A user of a workspace with the email `ops@cloudops.local`. -/
def opsUser (id workspaceId passwordHash : String) (hid : id ≠ "") (hws : workspaceId ≠ "") :
    User :=
  ⟨id, workspaceId, "ops@cloudops.local", .operator, passwordHash, true, hid, hws, by decide⟩

/-- A comparison of passwords that keeps them as they are, and a loose email format. -/
def plainPackages : LoginPackages where
  isEmail email := email.toList.contains '@'
  toLowerCase := String.toLower
  compare plain hash := plain == hash

def firstUser : User := opsUser "u-1" "ws-1" "first-password" (by decide) (by decide)

def secondUser : User := opsUser "u-2" "ws-2" "second-password" (by decide) (by decide)

/-- The first workspace alone. -/
def firstUsers : Collection User := ⟨[firstUser], by decide, by decide⟩

/-- Both workspaces. -/
def opsUsers : Collection User := ⟨[firstUser, secondUser], by decide, by decide⟩

/-- The only account opens with its password. -/
theorem login_opens_account_alone :
    OpensAccount plainPackages ⟨"secret-of-16-chars", "8h"⟩ firstUsers firstUser
      "Ops@CloudOps.local" "first-password" := by
  have hone : ∀ other ∈ firstUsers, other = firstUser := fun _ => List.mem_singleton.mp
  refine (login_opens_account_iff (List.mem_singleton.mpr rfl) rfl (by decide) ?_
    (by decide +kernel)).mpr ⟨by decide +kernel, ?_⟩
  · intro other hother hne
    exact absurd (hone other hother) hne
  · intro other hother _ _
    rw [hone other hother]

/-- **One email in two workspaces**: the password of the second user verifies against its own hash
and not against the other, and the login answers 401. -/
theorem login_refused_other_workspace :
    verifyPassword plainPackages "second-password" secondUser.passwordHash = true ∧
      verifyPassword plainPackages "second-password" firstUser.passwordHash = false ∧
      login plainPackages ⟨"secret-of-16-chars", "8h"⟩ (findActive opsUsers) "ops@cloudops.local"
        "second-password" = .error (.unauthorized "Invalid credentials") ∧
      ¬ OpensAccount plainPackages ⟨"secret-of-16-chars", "8h"⟩ opsUsers secondUser
        "ops@cloudops.local" "second-password" := by
  have hfound : findActive opsUsers (plainPackages.toLowerCase "ops@cloudops.local") =
      some firstUser := by decide +kernel
  have hrefused : login plainPackages ⟨"secret-of-16-chars", "8h"⟩ (findActive opsUsers)
      "ops@cloudops.local" "second-password" = .error (.unauthorized "Invalid credentials") :=
    login_of_mismatch (by decide +kernel) hfound (by decide)
  refine ⟨by decide, by decide, hrefused, fun hopens => ?_⟩
  obtain ⟨_, _, hlogin, -⟩ := hopens _ (findsOne_findActive opsUsers)
  rw [hrefused] at hlogin
  cases hlogin

end CloudOps.Analysis
