import CloudOps.Model.JobProcessor
import CloudOps.Model.Login
import CloudOps.Model.QueryService

/-!
# The routes behind the access token (`app.ts`, `routes/api.ts`)

What a request passes from its headers to its response: the correlation id, the access token,
the role check and the schema of its route, its service, and the error handler. Bodies are
typed, as in `Routes.lean`; the parameters of a query are as the URL has them.
-/

set_option autoImplicit false

namespace CloudOps.Model

open CloudOps.Computation CloudOps.Model.RemediationService CloudOps.Model.ResourceService

/-- The value of a query parameter: a text, a list of texts, or an object. -/
inductive QueryValue
  | text (text : String)
  | several (texts : List String)
  | object
  deriving DecidableEq

/-- The parameters of a query, by name. -/
abbrev RawQuery : Type := String → Option QueryValue

/-- What the routes take from packages and the runtime: what the text of a token was signed from,
if it is one; `Number(value)`, where it is finite; SHA-256; and the case folding of a search. -/
structure HttpPackages where
  decode : String → Option AccessToken
  number : QueryValue → Option ℚ
  hashToken : String → String
  fold : Char → Char

/-- The settings of the routes.
SRCLINE: apps/api/src/config.ts:5-38 -/
structure HttpConfig where
  api : ApiConfig
  auth : AuthConfig
  WORKER_MAX_ATTEMPTS : ℕ
  WORKER_JOB_TIMEOUT_MS : Time

/-! ## Roles (`auth/index.ts`) -/

/-- SRCLINE: packages/shared/src/auth/index.ts:59-61 -/
def canOperate (role : Role) : Bool := role == .admin || role == .operator

/-- SRCLINE: packages/shared/src/auth/index.ts:63-65 -/
def canApprove (role : Role) : Bool := role == .admin

/-- SRCLINE: packages/shared/src/auth/index.ts:67-69 -/
def canExecute (role : Role) : Bool := role == .admin || role == .operator

/-! ## Headers -/

/-- The white space that `trim` removes. -/
def isSpace (c : Char) : Bool :=
  c.toNat ∈ [9, 10, 11, 12, 13, 32, 160, 5760, 8232, 8233, 8239, 8287, 12288, 65279] ||
    8192 ≤ c.toNat && c.toNat ≤ 8202

/-- `text.trim()`. -/
def trim (text : String) : String :=
  String.ofList ((text.toList.dropWhile isSpace).reverse.dropWhile isSpace).reverse

/-- SRCLINE: apps/api/src/middleware/correlation.ts:4-10 -/
def correlationMiddleware (xCorrelationId xRequestId : Option String) (randomUUID : String) :
    String :=
  let incoming := (if xCorrelationId.getD "" = "" then xRequestId else xCorrelationId).getD ""
  if trim incoming = "" then randomUUID else trim incoming

/-- The token of an `Authorization` header. -/
def bearer (header : String) : Option String :=
  if "Bearer ".toList.isPrefixOf header.toList then some (String.ofList (header.toList.drop 7))
  else none

/-- SRCLINE: apps/api/src/middleware/auth.ts:5-20, packages/shared/src/auth/index.ts:23-38 -/
def authMiddleware (packages : HttpPackages) (config : AuthConfig) (authorization : Option String)
    (expired : Bool) : Except AppError AuthClaims :=
  match authorization.bind bearer with
  | none => .error (.unauthorized "Authentication required")
  | some text =>
    match packages.decode text with
    | none => .error (.unauthorized "Invalid or expired token")
    | some token => verifyAccessToken token config.JWT_SECRET expired

/-! ## Schemas of queries and bodies (`schemas.ts`) -/

def DEFAULT_PAGE_SIZE : ℕ := 20

def MAX_PAGE_SIZE : ℕ := 100

/-- `RESOURCE_TYPES`. -/
def RESOURCE_TYPES : List ResourceType := [.ec2, .s3, .lambda, .cloudwatch]

/-- `z.coerce.number().int().min(1).default(default)`. -/
def positiveInt (packages : HttpPackages) (default : ℕ) : Option QueryValue → Option ℕ
  | none => some default
  | some value =>
    (packages.number value).bind fun x =>
      if x.den = 1 ∧ 1 ≤ x.num then some x.num.toNat else none

/-- `z.string().optional()`, with a further condition. -/
def optionalText (accepts : String → Bool) : Option QueryValue → Option (Option String)
  | none => some none
  | some (.text text) => if accepts text then some (some text) else none
  | some _ => none

/-- SRCLINE: packages/shared/src/schemas.ts:4-7 -/
def paginationSchema (packages : HttpPackages) (query : RawQuery) : Option Page := do
  let page ← positiveInt packages 1 (query "page")
  let limit ← positiveInt packages DEFAULT_PAGE_SIZE (query "limit")
  if limit ≤ MAX_PAGE_SIZE then some ⟨page, limit⟩ else none

/-- `paginationSchema.extend(fields)`. -/
def extendPagination {κ : Type} (packages : HttpPackages) (query : RawQuery) (fields : Option κ) :
    Option (κ × Page) := do
  let page ← paginationSchema packages query
  let fields ← fields
  return (fields, page)

/-- SRCLINE: packages/shared/src/schemas.ts:40-44 -/
def listResourcesQuerySchema (packages : HttpPackages) (query : RawQuery) :
    Option (ResourceQuery × Page) :=
  extendPagination packages query do
    let type ← optionalText (· ∈ RESOURCE_TYPES.map (·.name)) (query "type")
    let region ← optionalText (fun _ => true) (query "region")
    let q ← optionalText (utf16Length · ≤ 120) (query "q")
    return ⟨type, region, q⟩

/-- SRCLINE: packages/shared/src/schemas.ts:46-48 -/
def listJobsQuerySchema (packages : HttpPackages) (query : RawQuery) :
    Option (JobQuery × Page) :=
  extendPagination packages query do
    let status ← optionalText (fun _ => true) (query "status")
    return ⟨status⟩

/-- SRCLINE: packages/shared/src/schemas.ts:50-54 -/
def listFindingsQuerySchema (packages : HttpPackages) (query : RawQuery) :
    Option (FindingQuery × Page) :=
  extendPagination packages query do
    let severity ← optionalText (fun _ => true) (query "severity")
    let resourceId ← optionalText (fun _ => true) (query "resourceId")
    let jobId ← optionalText (fun _ => true) (query "jobId")
    return ⟨severity, resourceId, jobId⟩

/-- SRCLINE: packages/shared/src/schemas.ts:56-59 -/
def listRecommendationsQuerySchema (packages : HttpPackages) (query : RawQuery) :
    Option (RecommendationQuery × Page) :=
  extendPagination packages query do
    let actionType ← optionalText
      (· ∈ (ALLOWLISTED_ACTIONS ++ [ActionType.manualReview]).map ActionType.name)
      (query "actionType")
    let jobId ← optionalText (fun _ => true) (query "jobId")
    return ⟨actionType, jobId⟩

/-- SRCLINE: packages/shared/src/schemas.ts:61-64 -/
def listAuditQuerySchema (packages : HttpPackages) (query : RawQuery) :
    Option (AuditQuery × Page) :=
  extendPagination packages query do
    let action ← optionalText (fun _ => true) (query "action")
    let actorId ← optionalText (fun _ => true) (query "actorId")
    return ⟨action, actorId⟩

/-- SRCLINE: packages/shared/src/schemas.ts:14-18 -/
def createDiagnosticJobSchema (body : CreateJobInput) : Bool :=
  body.resourceIds.all (·.all (1 ≤ utf16Length ·)) && validKey body.idempotencyKey

/-- `validate` of a query: what it parses to. -/
def validateQuery {α : Type} (parsed : Option α) : Except AppError α :=
  match parsed with
  | some data => .ok data
  | none => .error (.validation "Request validation failed")

/-! ## Responses -/

/-- SRCLINE: apps/api/src/middleware/error-handler.ts:22-29 -/
structure ErrorBody where
  code : String
  message : String
  correlationId : String
  deriving DecidableEq

/-- What a response carries. -/
inductive Body
  | response (response : Response)
  | jobReply (reply : JobService.JobReply)
  | job (job : DiagnosticJob)
  | resource (resource : CloudResource)
  | jobs (listing : Listing DiagnosticJob)
  | resources (listing : Listing CloudResource)
  | findings (listing : Listing Finding)
  | recommendations (listing : Listing Recommendation)
  | audits (listing : Listing AuditEvent)
  | error (error : ErrorBody)

structure HttpResponse where
  status : ℕ
  correlationId : String
  body : Body

/-- The status of an error; what is no `AppError` is an internal one.
SRCLINE: packages/shared/src/errors.ts:14-63 -/
def AppError.statusCode : AppError → ℕ
  | .validation _ => 400
  | .unauthorized _ => 401
  | .forbidden _ => 403
  | .notFound _ => 404
  | .conflict _ => 409
  | .dependency _ _ => 503
  | .duplicateKey | .internal _ => 500

/-- The code of an error.
SRCLINE: packages/shared/src/errors.ts:14-63 -/
def AppError.code : AppError → String
  | .validation _ => "VALIDATION_ERROR"
  | .unauthorized _ => "UNAUTHORIZED"
  | .forbidden _ => "FORBIDDEN"
  | .notFound _ => "NOT_FOUND"
  | .conflict _ => "CONFLICT"
  | .dependency _ _ => "DEPENDENCY_UNAVAILABLE"
  | .duplicateKey | .internal _ => "INTERNAL_ERROR"

/-- SRCLINE: apps/api/src/middleware/error-handler.ts:5-34 -/
def errorHandler (correlationId : String) (e : AppError) : HttpResponse where
  status := e.statusCode
  correlationId := correlationId
  body := .error {
    code := e.code
    message := if 500 ≤ e.statusCode then "Internal server error" else e.message
    correlationId := correlationId }

/-! ## Routes -/

/-- A request to one of the routes, with what its service draws from elsewhere. -/
inductive ApiRoute
  | syncResources (body : SyncInput)
  | listResources (query : RawQuery)
  | getResource (id : String)
  | createDiagnostics (body : CreateJobInput) (draws : JobService.CreateDraws)
  | listJobs (query : RawQuery)
  | getJob (id : String)
  | retryJob (id : String) (now auditedAt : Time)
  | listFindings (query : RawQuery)
  | listRecommendations (query : RawQuery)
  | createPlan (body : PlanInput)
  | approvePlan (id : String) (input : ApproveInput)
  | executePlan (id : String) (body : ExecuteInput)
  | listAuditEvents (query : RawQuery)

/-- Whether a plan was there before. -/
def Response.replayed : Response → Bool
  | .plan _ replayed | .execution _ replayed => replayed
  | .approval .. | .synced .. => false

/-- The `jobs` of the router.
SRCLINE: apps/api/src/routes/api.ts:33 -/
def HttpConfig.jobs (config : HttpConfig) : JobService where
  maxAttempts := config.WORKER_MAX_ATTEMPTS
  timeoutMs := config.WORKER_JOB_TIMEOUT_MS

/-- A document that was asked for by its id. -/
def found {α : Type} (message : String) : Option α → DbProg α
  | some document => return document
  | none => Prog.throw (.notFound message)

/-- The handler of a route, with the claims of the token: the status and what it sends.
SRCLINE: apps/api/src/routes/api.ts:30-241 -/
def ApiRoute.program (packages : HttpPackages) (config : HttpConfig) (claims : AuthClaims)
    (correlationId : String) : ApiRoute → DbProg (ℕ × Body)
  | .syncResources body => do
    let result ← (HttpRequest.sync (some claims) correlationId body).route.program
      packages.hashToken config.api
    return (202, .response result)
  | .listResources query => do
    let parsed ← Prog.ofExcept (validateQuery (listResourcesQuerySchema packages query))
    let result ← ResourceService.list (nameSearch packages.fold) claims.workspaceId parsed.1
      parsed.2
    return (200, .resources result)
  | .getResource id => do
    let id ← Prog.ofExcept (routeId id)
    let item ← ResourceService.get claims.workspaceId id
    let item ← found "Resource not found" item
    return (200, .resource item)
  | .createDiagnostics body draws => do
    let claims ← Prog.ofExcept (requireRole [.admin, .operator] (some claims))
    Prog.ofExcept (validate (createDiagnosticJobSchema body))
    let result ← JobService.create config.jobs claims.workspaceId claims.sub correlationId body
      draws
    return (if result.replayed then 200 else 202, .jobReply result)
  | .listJobs query => do
    let parsed ← Prog.ofExcept (validateQuery (listJobsQuerySchema packages query))
    let result ← JobService.list claims.workspaceId parsed.1 parsed.2
    return (200, .jobs result)
  | .getJob id => do
    let id ← Prog.ofExcept (routeId id)
    let job ← JobService.get claims.workspaceId id
    let job ← found "Job not found" job
    return (200, .job job)
  | .retryJob id now auditedAt => do
    let claims ← Prog.ofExcept (requireRole [.admin, .operator] (some claims))
    let id ← Prog.ofExcept (routeId id)
    let job ← JobService.retry claims.workspaceId id claims.sub correlationId now auditedAt
    return (200, .job job)
  | .listFindings query => do
    let parsed ← Prog.ofExcept (validateQuery (listFindingsQuerySchema packages query))
    let result ← Model.listFindings claims.workspaceId parsed.1 parsed.2
    return (200, .findings result)
  | .listRecommendations query => do
    let parsed ← Prog.ofExcept (validateQuery (listRecommendationsQuerySchema packages query))
    let result ← Model.listRecommendations claims.workspaceId parsed.1 parsed.2
    return (200, .recommendations result)
  | .createPlan body => do
    let result ← (HttpRequest.plan (some claims) correlationId body).route.program
      packages.hashToken config.api
    return (if result.replayed then 200 else 201, .response result)
  | .approvePlan id input => do
    let result ← (HttpRequest.approve (some claims) id correlationId input).route.program
      packages.hashToken config.api
    return (200, .response result)
  | .executePlan id body => do
    let result ← (HttpRequest.execute (some claims) id correlationId body).route.program
      packages.hashToken config.api
    return (200, .response result)
  | .listAuditEvents query => do
    let claims ← Prog.ofExcept (requireRole [.admin, .operator] (some claims))
    let parsed ← Prog.ofExcept (validateQuery (listAuditQuerySchema packages query))
    let result ← Model.listAuditEvents claims.workspaceId parsed.1 parsed.2
    return (200, .audits result)

/-- A request that reaches the routes of `/api/v1`: its body has been parsed and the rate limit has
let it through. `expired` says whether the lifetime of its token is over, and
`randomUUID` is the id it gets if it brings none. -/
structure HttpCall where
  authorization : Option String
  expired : Bool
  xCorrelationId : Option String
  xRequestId : Option String
  randomUUID : String
  route : ApiRoute

namespace HttpCall

def correlationId (call : HttpCall) : String :=
  correlationMiddleware call.xCorrelationId call.xRequestId call.randomUUID

/-- The claims a request is made with. -/
def auth (packages : HttpPackages) (config : HttpConfig) (call : HttpCall) :
    Except AppError AuthClaims :=
  authMiddleware packages config.auth call.authorization call.expired

/-- SRCLINE: apps/api/src/app.ts:85-86 -/
def program (packages : HttpPackages) (config : HttpConfig) (call : HttpCall) :
    DbProg (ℕ × Body) := do
  let claims ← Prog.ofExcept (call.auth packages config)
  call.route.program packages config claims call.correlationId

/-- The response to what the handler sends or throws. -/
def respond (call : HttpCall) : Except AppError (ℕ × Body) → HttpResponse
  | .ok (status, body) => ⟨status, call.correlationId, body⟩
  | .error e => errorHandler call.correlationId e

end HttpCall

end CloudOps.Model
