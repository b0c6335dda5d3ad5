import CloudOps.Computation.Regex
import CloudOps.Model.JobService
import CloudOps.Model.ResourceService

/-!
# The lists (`query-service.ts`, `resource-service.ts`)

The read-only services: a count and a page of the documents of one workspace.
-/

set_option autoImplicit false

namespace CloudOps.Model

open CloudOps.Computation

def CloudResourceModel.countDocuments (regex : String → String → Bool) (workspaceId : String)
    (query : ResourceQuery) : DbProg ℕ :=
  .call (.countResources regex workspaceId query) .ret

def CloudResourceModel.findPage (regex : String → String → Bool) (workspaceId : String)
    (query : ResourceQuery) (page : Page) : DbProg (List CloudResource) :=
  .call (.listResources regex workspaceId query page) .ret

def FindingModel.countDocuments (workspaceId : String) (query : FindingQuery) : DbProg ℕ :=
  .call (.countFindings workspaceId query) .ret

def FindingModel.findPage (workspaceId : String) (query : FindingQuery) (page : Page) :
    DbProg (List Finding) :=
  .call (.listFindings workspaceId query page) .ret

def RecommendationModel.countDocuments (workspaceId : String) (query : RecommendationQuery) :
    DbProg ℕ :=
  .call (.countRecommendations workspaceId query) .ret

def RecommendationModel.findPage (workspaceId : String) (query : RecommendationQuery)
    (page : Page) : DbProg (List Recommendation) :=
  .call (.listRecommendations workspaceId query page) .ret

def AuditEventModel.countDocuments (workspaceId : String) (query : AuditQuery) : DbProg ℕ :=
  .call (.countAudits workspaceId query) .ret

def AuditEventModel.findPage (workspaceId : String) (query : AuditQuery) (page : Page) :
    DbProg (List AuditEvent) :=
  .call (.listAudits workspaceId query page) .ret

/-- SRCLINE: apps/api/src/services/query-service.ts:9-23 -/
def listFindings (workspaceId : String) (query : FindingQuery) (page : Page) :
    DbProg (Listing Finding) := do
  let total ← FindingModel.countDocuments workspaceId query
  let docs ← FindingModel.findPage workspaceId query page
  return ⟨docs, page.page, page.limit, total⟩

/-- SRCLINE: apps/api/src/services/query-service.ts:25-38 -/
def listRecommendations (workspaceId : String) (query : RecommendationQuery) (page : Page) :
    DbProg (Listing Recommendation) := do
  let total ← RecommendationModel.countDocuments workspaceId query
  let docs ← RecommendationModel.findPage workspaceId query page
  return ⟨docs, page.page, page.limit, total⟩

/-- SRCLINE: apps/api/src/services/query-service.ts:40-53 -/
def listAuditEvents (workspaceId : String) (query : AuditQuery) (page : Page) :
    DbProg (Listing AuditEvent) := do
  let total ← AuditEventModel.countDocuments workspaceId query
  let docs ← AuditEventModel.findPage workspaceId query page
  return ⟨docs, page.page, page.limit, total⟩

namespace ResourceService

/-- The characters that are escaped.
SRCLINE: apps/api/src/services/resource-service.ts:62 -/
def escapedCharacters : List Char :=
  ['.', '*', '+', '?', '^', '$', '{', '}', '(', ')', '|', '[', ']', '\\']

/-- The pattern of a name search: `replace` with a backslash before each of the characters.
SRCLINE: apps/api/src/services/resource-service.ts:61-62 -/
def namePattern (q : String) : String :=
  String.ofList (q.toList.flatMap fun c => if c ∈ escapedCharacters then ['\\', c] else [c])

/-- The search of the driver for the pattern of `q`; `fold` stands for its option `i`. A pattern
that cannot be compiled finds nothing. -/
def nameSearch (fold : Char → Char) (q name : String) : Bool :=
  match Regex.compile (namePattern q).toList with
  | some r => r.found fold name.toList
  | none => false

/-- SRCLINE: apps/api/src/services/resource-service.ts:54-69 -/
def list (regex : String → String → Bool) (workspaceId : String) (query : ResourceQuery)
    (page : Page) : DbProg (Listing CloudResource) := do
  let total ← CloudResourceModel.countDocuments regex workspaceId query
  let docs ← CloudResourceModel.findPage regex workspaceId query page
  return ⟨docs, page.page, page.limit, total⟩

/-- SRCLINE: apps/api/src/services/resource-service.ts:71-74 -/
def get (workspaceId id : String) : DbProg (Option CloudResource) :=
  CloudResourceModel.findOne id workspaceId

end ResourceService

end CloudOps.Model
