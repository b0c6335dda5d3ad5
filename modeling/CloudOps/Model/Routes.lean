import CloudOps.Model.ApiRequests

/-!
# The routes that write

What an HTTP request passes before it reaches the services: the role check, the schema of
its body, the id of its path. `auth` holds the claims of a verified access token,
`none` where no token was presented or its signature did not verify.
-/

set_option autoImplicit false

namespace CloudOps.Model

open CloudOps.Model.RemediationService CloudOps.Model.ResourceService

/-- SRCLINE: packages/shared/src/auth/index.ts:23-38 -/
structure AuthClaims where
  sub : String
  email : String
  role : Role
  workspaceId : String
  deriving DecidableEq

/-- SRCLINE: apps/api/src/middleware/auth.ts:21-33 -/
def requireRole (roles : List Role) (auth : Option AuthClaims) : Except AppError AuthClaims :=
  match auth with
  | none => .error (.unauthorized "Authentication required")
  | some claims =>
    if claims.role ∈ roles then .ok claims else .error (.forbidden "Insufficient permissions")

/-- The length of a string in UTF-16 code units, which zod's `min` and `max` bound. -/
def utf16Length (s : String) : ℕ :=
  (s.toList.map fun c => if c.toNat < 0x10000 then 1 else 2).sum

/-- The outcome of `validate`. -/
def validate (accepted : Bool) : Except AppError Unit :=
  if accepted then .ok () else .error (.validation "Request validation failed")

/-- `z.string().min(8).max(128)`. -/
def validKey (idempotencyKey : String) : Bool :=
  8 ≤ utf16Length idempotencyKey && utf16Length idempotencyKey ≤ 128

/-- SRCLINE: packages/shared/src/schemas.ts:20-24 -/
def createRemediationPlanSchema (body : PlanInput) : Bool :=
  1 ≤ body.findingIds.length && body.findingIds.all (1 ≤ utf16Length ·) &&
    validKey body.idempotencyKey

/-- SRCLINE: packages/shared/src/schemas.ts:30-33 -/
def executeRemediationSchema (body : ExecuteInput) : Bool :=
  16 ≤ utf16Length body.approvalToken && validKey body.idempotencyKey

/-- SRCLINE: packages/shared/src/schemas.ts:9-12 -/
def syncResourcesSchema (body : SyncInput) : Bool :=
  body.region.all (1 ≤ utf16Length ·)

/-- SRCLINE: apps/api/src/routes/api.ts:24-28 -/
def routeId (id : String) : Except AppError String :=
  if id = "" then .error (.validation "Missing resource id") else .ok id

/-- An HTTP request to one of the routes. -/
inductive HttpRequest
  | plan (auth : Option AuthClaims) (correlationId : String) (body : PlanInput)
  | approve (auth : Option AuthClaims) (id correlationId : String) (input : ApproveInput)
  | execute (auth : Option AuthClaims) (id correlationId : String) (body : ExecuteInput)
  | sync (auth : Option AuthClaims) (correlationId : String) (body : SyncInput)

/-- The call of the service a request leads to, or the error it is refused with.
SRCLINE: apps/api/src/routes/api.ts:35-52, 169-219 -/
def HttpRequest.route : HttpRequest → Incoming
  | .plan auth correlationId body => do
    let claims ← requireRole [.admin, .operator] auth
    validate (createRemediationPlanSchema body)
    return .createPlan claims.workspaceId claims.sub correlationId body
  | .approve auth id correlationId input => do
    let claims ← requireRole [.admin] auth
    let id ← routeId id
    return .approve claims.workspaceId id claims.sub correlationId input
  | .execute auth id correlationId body => do
    let claims ← requireRole [.admin, .operator] auth
    validate (executeRemediationSchema body)
    let id ← routeId id
    return .execute claims.workspaceId id claims.sub correlationId body
  | .sync auth correlationId body => do
    let claims ← requireRole [.admin, .operator] auth
    validate (syncResourcesSchema body)
    return .sync claims.workspaceId claims.sub correlationId body

end CloudOps.Model
