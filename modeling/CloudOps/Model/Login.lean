import CloudOps.Model.Routes

/-!
# Accounts and `POST /login`

The lookup is by email over all workspaces, and takes one of the active users it finds. What the
packages do is a parameter: the email format of zod, the comparison of bcrypt, and
`toLowerCase`, of which nothing is assumed. A token is what it was signed from; that only the
secret it was signed with opens it is the contract of the JSON web token.
-/

set_option autoImplicit false

namespace CloudOps.Model

open CloudOps.Computation

/-- A user as the schema stores it: its required texts are not empty.
SRCLINE: packages/shared/src/db/models/user.ts:4-13 -/
structure User where
  id : String
  workspaceId : String
  email : String
  role : Role
  passwordHash : String
  active : Bool
  id_ne : id ≠ ""
  workspaceId_ne : workspaceId ≠ ""
  email_ne : email ≠ ""
  deriving DecidableEq

/-- SRCLINE: packages/shared/src/db/models/user.ts:15 -/
instance : Document User String (String × String) where
  _id := (·.id)
  uniqueIndex user := (user.workspaceId, user.email)

/-- The settings of the tokens.
SRCLINE: apps/api/src/config.ts:7-38 -/
structure AuthConfig where
  JWT_SECRET : String
  JWT_EXPIRES_IN : String

/-- What the login takes from its packages. -/
structure LoginPackages where
  isEmail : String → Bool
  toLowerCase : String → String
  compare : String → String → Bool

/-- SRCLINE: packages/shared/src/auth/index.ts:11-13 -/
def verifyPassword (packages : LoginPackages) (plain hash : String) : Bool :=
  packages.compare plain hash

/-- A token, by what it was signed from. -/
structure AccessToken where
  claims : AuthClaims
  secret : String
  expiresIn : String

/-- SRCLINE: packages/shared/src/auth/index.ts:15-21 -/
def signAccessToken (claims : AuthClaims) (secret expiresIn : String) : AccessToken :=
  ⟨claims, secret, expiresIn⟩

/-- `expired` says whether the lifetime of the token is over.
SRCLINE: packages/shared/src/auth/index.ts:23-38 -/
def verifyAccessToken (token : AccessToken) (secret : String) (expired : Bool) :
    Except AppError AuthClaims :=
  if token.secret ≠ secret || expired then .error (.unauthorized "Invalid or expired token")
  else if token.claims.sub = "" || token.claims.email = "" || token.claims.workspaceId = "" then
    .error (.unauthorized "Invalid token claims")
  else .ok token.claims

/-- SRCLINE: packages/shared/src/schemas.ts:35-38 -/
def loginSchema (packages : LoginPackages) (email password : String) : Bool :=
  packages.isEmail email && 8 ≤ utf16Length password && utf16Length password ≤ 128

/-- A user without its hash.
SRCLINE: packages/shared/src/serialize.ts:5-19 -/
structure SerializedUser where
  id : String
  workspaceId : String
  email : String
  role : Role
  active : Bool

structure LoginResponse where
  token : AccessToken
  user : SerializedUser

/-- What `findOne({ email, active: true })` may answer: some active user with the email, if there
is one. -/
structure FindsOne (users : Collection User) (findOne : String → Option User) : Prop where
  found : ∀ email user, findOne email = some user →
    user ∈ users ∧ user.email = email ∧ user.active = true
  exists_found : ∀ user ∈ users, user.active = true → (findOne user.email).isSome

/-- SRCLINE: apps/api/src/routes/auth.ts:16-40 -/
def login (packages : LoginPackages) (config : AuthConfig) (findOne : String → Option User)
    (email password : String) : Except AppError LoginResponse := do
  validate (loginSchema packages email password)
  match findOne (packages.toLowerCase email) with
  | none => throw (.unauthorized "Invalid credentials")
  | some user =>
    if !verifyPassword packages password user.passwordHash then
      throw (.unauthorized "Invalid credentials")
    let token := signAccessToken ⟨user.id, user.email, user.role, user.workspaceId⟩
      config.JWT_SECRET config.JWT_EXPIRES_IN
    return ⟨token, ⟨user.id, user.workspaceId, user.email, user.role, user.active⟩⟩

end CloudOps.Model
