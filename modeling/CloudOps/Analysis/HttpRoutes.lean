import CloudOps.Analysis.ApprovedExecution
import CloudOps.Analysis.HttpRequests

/-!
# The routes keep to the policy

A request gets through to its service with the claims of its token and a role that its route
asks for. What it sends is of the workspace of the claims, and a list is no longer than its
page.
-/

set_option autoImplicit false

namespace CloudOps.Analysis

open CloudOps.Computation CloudOps.Model CloudOps.Model.RemediationService
open CloudOps.Model.ResourceService

/-! ## What is sent -/

/-- A page of documents of the workspace, not longer than it may be. -/
structure PageOf {δ : Type} (workspaceId : δ → String) (W : String) (listing : Listing δ) :
    Prop where
  workspace : ∀ document ∈ listing.items, workspaceId document = W
  page : 1 ≤ listing.page
  length : listing.items.length ≤ listing.limit
  limit : listing.limit ≤ MAX_PAGE_SIZE

/-- **What a handler may send to the workspace.** -/
def SentTo (W : String) : Body → Prop
  | .response response => ofWorkspace W response
  | .jobReply reply => reply.job.workspaceId = W
  | .job job => job.workspaceId = W
  | .resource resource => resource.workspaceId = W
  | .jobs listing => PageOf (·.workspaceId) W listing
  | .resources listing => PageOf (·.workspaceId) W listing
  | .findings listing => PageOf (·.workspaceId) W listing
  | .recommendations listing => PageOf (·.workspaceId) W listing
  | .audits listing => PageOf (·.workspaceId) W listing
  | .error _ => False

/-- What a handler sends to the workspace when it succeeds. -/
structure Sent (W : String) (sent : ℕ × Body) : Prop where
  status : sent.1 = 200 ∨ sent.1 = 201 ∨ sent.1 = 202
  body : SentTo W sent.2

/-- The action a route is audited under; the routes that read are not. -/
def auditAction : ApiRoute → Option String
  | .syncResources _ => some "resources.sync"
  | .createDiagnostics _ _ => some "diagnostics.create"
  | .retryJob _ _ _ => some "jobs.retry"
  | .createPlan _ => some "remediation.plan"
  | .approvePlan _ _ => some "remediation.approve"
  | .executePlan _ _ => some "remediation.execute"
  | .listResources _ | .getResource _ | .listJobs _ | .getJob _ | .listFindings _
  | .listRecommendations _ | .listAuditEvents _ => none

/-! ## Queries -/

section Queries

variable {packages : HttpPackages} {query : RawQuery}

/-- A number of the query is positive, as its default is. -/
theorem positiveInt_pos {default n : ℕ} {value : Option QueryValue} (hdefault : 1 ≤ default)
    (h : positiveInt packages default value = some n) : 1 ≤ n := by
  cases value with
  | none =>
      obtain rfl := Option.some.inj h
      exact hdefault
  | some value =>
      obtain ⟨x, -, hx⟩ := Option.bind_eq_some_iff.mp h
      split at hx
      · next hint =>
        obtain rfl := Option.some.inj hx
        omega
      · cases hx

/-- A page that parses is within its bounds.
SRCLINE: packages/shared/src/schemas.ts:4-7 -/
structure PageBounds (page : Page) : Prop where
  first : 1 ≤ page.page
  positive : 1 ≤ page.limit
  limit : page.limit ≤ MAX_PAGE_SIZE

/-- A page that passes the schema is within its bounds. -/
theorem paginationSchema_bounds {page : Page} (h : paginationSchema packages query = some page) :
    PageBounds page := by
  obtain ⟨n, hn, h⟩ := Option.bind_eq_some_iff.mp h
  obtain ⟨limit, hlimit, h⟩ := Option.bind_eq_some_iff.mp h
  split at h
  · next hmax =>
    obtain rfl := Option.some.inj h
    have hdefault : 1 ≤ DEFAULT_PAGE_SIZE := by unfold DEFAULT_PAGE_SIZE; omega
    exact ⟨positiveInt_pos le_rfl hn, positiveInt_pos hdefault hlimit, hmax⟩
  · cases h

/-- The page of every query that parses is within its bounds. -/
theorem extendPagination_bounds {κ : Type} {fields : Option κ} {parsed : κ × Page}
    (h : validateQuery (extendPagination packages query fields) = .ok parsed) :
    PageBounds parsed.2 := by
  unfold validateQuery at h
  split at h
  · next data hdata =>
    obtain rfl := Except.ok.inj h
    obtain ⟨page, hpage, hrest⟩ := Option.bind_eq_some_iff.mp hdata
    obtain ⟨_, -, hpair⟩ := Option.bind_eq_some_iff.mp hrest
    cases hpair
    exact paginationSchema_bounds hpage
  · cases h

/-- A page of sorted documents is a page of the documents. -/
theorem pageOf_take {δ : Type} {workspaceId : δ → String} {W : String} {docs : List δ}
    {page : Page} {total : ℕ} (hbounds : PageBounds page) (hdocs : ∀ d ∈ docs, workspaceId d = W) :
    PageOf workspaceId W ⟨page.take docs, page.page, page.limit, total⟩ := by
  have htake : page.take docs = (docs.drop ((page.page - 1) * page.limit)).take page.limit := by
    have hpositive := hbounds.positive
    unfold Page.take
    dsimp only
    rw [if_neg (by omega)]
  refine ⟨fun d hd => ?_, hbounds.first, ?_, hbounds.limit⟩
  · rw [htake] at hd
    exact hdocs d (List.mem_of_mem_drop (List.mem_of_mem_take hd))
  · show (page.take docs).length ≤ page.limit
    rw [htake]
    exact List.length_take_le _ _

end Queries

/-! ## Routes -/

section Routes

variable {packages : HttpPackages} {config : HttpConfig} {claims : AuthClaims}
  {correlationId : String} {hashToken : String → String} {api : ApiConfig} {past : Past}

/-- Who passes a role check, passes as who they are.
SRCLINE: apps/api/src/middleware/auth.ts:21-33 -/
theorem role_ok {roles : List Role} {claims' : AuthClaims}
    (h : requireRole roles (some claims) = .ok claims') :
    claims' = claims ∧ claims.role ∈ roles := by
  obtain ⟨hsame, hrole⟩ := requireRole_ok h
  obtain rfl := Option.some.inj hsame
  exact ⟨rfl, hrole⟩

/-- Admins and operators may operate. -/
theorem canOperate_of_mem {role : Role} (h : role ∈ [Role.admin, .operator]) :
    canOperate role = true := by
  cases role with
  | viewer => exact absurd h (by simp)
  | _ => rfl

/-- Admins may approve. -/
theorem canApprove_of_mem {role : Role} (h : role ∈ [Role.admin]) : canApprove role = true := by
  rw [List.mem_singleton.mp h]
  rfl

/-- What a route asks for before it goes on to its service.
SRCLINE: apps/api/src/routes/api.ts:35-52, 169-219 -/
theorem route_ok {roles : List Role} {call : ApiRequest} {rest : AuthClaims → Incoming}
    (h : (requireRole roles (some claims) >>= rest : Incoming) = .ok call) :
    claims.role ∈ roles ∧ rest claims = .ok call := by
  obtain ⟨claims', hclaims, hrest⟩ := bind_ok h
  obtain ⟨rfl, hrole⟩ := role_ok hclaims
  exact ⟨hrole, hrest⟩

/-- The route that makes plans keeps to the permissions of its request.
SRCLINE: apps/api/src/routes/api.ts:169-186 -/
theorem plan_keepsTo {body : PlanInput} :
    KeepsTo claims correlationId (some "remediation.plan") (ofWorkspace claims.workspaceId)
      ((HttpRequest.plan (some claims) correlationId body).route.program hashToken api) [] := by
  refine keepsTo_ofExcept fun call hcall => ?_
  obtain ⟨hrole, hbody⟩ := route_ok hcall
  obtain ⟨_, -, hdone⟩ := bind_ok hbody
  cases hdone
  exact createPlan_keepsTo (canOperate_of_mem hrole)

/-- The route that approves plans keeps to the permissions of its request.
SRCLINE: apps/api/src/routes/api.ts:188-200 -/
theorem approval_keepsTo {id : String} {input : ApproveInput} :
    KeepsTo claims correlationId (some "remediation.approve") (ofWorkspace claims.workspaceId)
      ((HttpRequest.approve (some claims) id correlationId input).route.program hashToken api)
      [] := by
  refine keepsTo_ofExcept fun call hcall => ?_
  obtain ⟨hrole, hbody⟩ := route_ok hcall
  obtain ⟨_, -, hdone⟩ := bind_ok hbody
  cases hdone
  exact approve_keepsTo (canApprove_of_mem hrole)

/-- The route that executes plans keeps to the permissions of its request.
SRCLINE: apps/api/src/routes/api.ts:202-219 -/
theorem execution_keepsTo {id : String} {body : ExecuteInput} :
    KeepsTo claims correlationId (some "remediation.execute") (ofWorkspace claims.workspaceId)
      ((HttpRequest.execute (some claims) id correlationId body).route.program hashToken api)
      [] := by
  refine keepsTo_ofExcept fun call hcall => ?_
  obtain ⟨hrole, hbody⟩ := route_ok hcall
  obtain ⟨_, -, hid⟩ := bind_ok hbody
  obtain ⟨_, -, hdone⟩ := bind_ok hid
  cases hdone
  exact execute_keepsTo (canOperate_of_mem hrole)

/-- The route that syncs resources keeps to the permissions of its request.
SRCLINE: apps/api/src/routes/api.ts:35-52 -/
theorem syncing_keepsTo {body : SyncInput} :
    KeepsTo claims correlationId (some "resources.sync") (ofWorkspace claims.workspaceId)
      ((HttpRequest.sync (some claims) correlationId body).route.program hashToken api) [] := by
  refine keepsTo_ofExcept fun call hcall => ?_
  obtain ⟨hrole, hbody⟩ := route_ok hcall
  obtain ⟨_, -, hdone⟩ := bind_ok hbody
  cases hdone
  exact sync_keepsTo (canOperate_of_mem hrole)

/-- A list that counts and takes a page of one collection.
SRCLINE: apps/api/src/services/query-service.ts:9-53 -/
theorem listing_keepsTo {δ : Type} {workspaceId : δ → String} {count list : DbOp} {page : Page}
    {total : count.Reply → ℕ} {docs : list.Reply → List δ} (hbounds : PageBounds page)
    (hcount : queryWorkspace? count = some claims.workspaceId)
    (hlist : queryWorkspace? list = some claims.workspaceId)
    (hdocs : ∀ db, ∃ found : List δ, docs (list.exec db).1 = page.take found ∧
      ∀ d ∈ found, workspaceId d = claims.workspaceId) :
    KeepsTo claims correlationId none (PageOf workspaceId claims.workspaceId) (do
      let n ← (Prog.call count .ret : DbProg count.Reply)
      let found ← (Prog.call list .ret : DbProg list.Reply)
      return ⟨docs found, page.page, page.limit, total n⟩) past := by
  refine keepsTo_query hcount fun before₁ n _ => keepsTo_query hlist fun before₂ reply hreply => ?_
  obtain ⟨found, htake, hfound⟩ := hdocs before₂
  refine keepsTo_ret ?_
  rw [← hreply, show docs (database.exec list before₂).1 = page.take found from htake]
  exact pageOf_take hbounds hfound

/-- **Every route keeps to the policy.**
SRCLINE: apps/api/src/routes/api.ts:30-241 -/
theorem ApiRoute.program_keepsTo (route : ApiRoute) :
    KeepsTo claims correlationId (auditAction route) (Sent claims.workspaceId)
      (route.program packages config claims correlationId) [] := by
  cases route with
  | syncResources body =>
      exact keepsTo_bind syncing_keepsTo fun _ _ h => keepsTo_ret ⟨Or.inr (Or.inr rfl), h⟩
  | createPlan body =>
      refine keepsTo_bind plan_keepsTo fun _ result h => keepsTo_ret ⟨?_, h⟩
      cases result.replayed <;> simp
  | approvePlan id input =>
      exact keepsTo_bind approval_keepsTo fun _ _ h => keepsTo_ret ⟨Or.inl rfl, h⟩
  | executePlan id body =>
      exact keepsTo_bind execution_keepsTo fun _ _ h => keepsTo_ret ⟨Or.inl rfl, h⟩
  | createDiagnostics body draws =>
      refine keepsTo_ofExcept fun claims' hclaims => keepsTo_ofExcept fun _ _ => ?_
      obtain ⟨rfl, hrole⟩ := role_ok hclaims
      refine keepsTo_bind (create_keepsTo ⟨config.jobs, claims'.workspaceId, claims'.sub,
        correlationId, body, draws⟩ (canOperate_of_mem hrole) rfl rfl rfl) fun _ result h => ?_
      refine keepsTo_ret ⟨?_, h⟩
      cases result.replayed <;> simp
  | retryJob id now auditedAt =>
      refine keepsTo_ofExcept fun claims' hclaims => keepsTo_ofExcept fun id' _ => ?_
      obtain ⟨rfl, hrole⟩ := role_ok hclaims
      exact keepsTo_bind (retry_keepsTo (canOperate_of_mem hrole)) fun _ _ h =>
        keepsTo_ret ⟨Or.inl rfl, h⟩
  | getResource id =>
      refine keepsTo_ofExcept fun id' _ => keepsTo_query rfl fun before item hitem => ?_
      cases item with
      | none => exact keepsTo_throw
      | some resource =>
          have hmatch := (Collection.mem_of_find? hitem).2
          exact keepsTo_ret ⟨Or.inl rfl, beq_iff_eq.mp (Bool.and_eq_true_iff.mp hmatch).2⟩
  | getJob id =>
      refine keepsTo_ofExcept fun id' _ => keepsTo_query rfl fun before item hitem => ?_
      cases item with
      | none => exact keepsTo_throw
      | some job =>
          have hmatch := (Collection.mem_of_find? hitem).2
          exact keepsTo_ret ⟨Or.inl rfl, beq_iff_eq.mp (Bool.and_eq_true_iff.mp hmatch).2⟩
  | listResources query =>
      refine keepsTo_ofExcept fun parsed hparsed => ?_
      refine keepsTo_bind (listing_keepsTo (extendPagination_bounds hparsed) rfl rfl fun db =>
        ⟨_, rfl, fun d hd => ?_⟩) fun _ _ h => keepsTo_ret ⟨Or.inl rfl, h⟩
      have hmem := (Collection.mem_filter.mp (List.mem_mergeSort.mp hd)).2
      exact beq_iff_eq.mp (Bool.and_eq_true_iff.mp hmem).1
  | listJobs query | listFindings query | listRecommendations query =>
      refine keepsTo_ofExcept fun parsed hparsed => ?_
      refine keepsTo_bind (listing_keepsTo (extendPagination_bounds hparsed) rfl rfl fun db =>
        ⟨_, rfl, fun d hd => ?_⟩) fun _ _ h => keepsTo_ret ⟨Or.inl rfl, h⟩
      have hmem := (Collection.mem_filter.mp (List.mem_mergeSort.mp hd)).2
      exact beq_iff_eq.mp (Bool.and_eq_true_iff.mp hmem).1
  | listAuditEvents query =>
      refine keepsTo_ofExcept fun claims' hclaims => keepsTo_ofExcept fun parsed hparsed => ?_
      obtain ⟨rfl, -⟩ := role_ok hclaims
      refine keepsTo_bind (listing_keepsTo (extendPagination_bounds hparsed) rfl rfl fun db =>
        ⟨_, rfl, fun d hd => ?_⟩) fun _ _ h => keepsTo_ret ⟨Or.inl rfl, h⟩
      have hmem := (List.mem_filter.mp (List.mem_mergeSort.mp hd)).2
      exact beq_iff_eq.mp (Bool.and_eq_true_iff.mp hmem).1

/-- **A request keeps to the policy of its own claims**; one without does nothing.
SRCLINE: apps/api/src/app.ts:84-86, apps/api/src/middleware/auth.ts:5-20 -/
theorem HttpCall.program_permitted (call : HttpCall) :
    (call.program packages config).Permitted database Stays
      (fun past db op => ∃ claims, call.auth packages config = .ok claims ∧
        Permits claims call.correlationId (auditAction call.route) past db op)
      (fun result => ∀ sent, result = .ok sent → ∃ claims, call.auth packages config = .ok claims ∧
        Sent claims.workspaceId sent) [] := by
  refine emits_ofExcept (fun claims hclaims => ?_) fun _ _ _ h => nomatch h
  refine Prog.Emits.mono (ApiRoute.program_keepsTo call.route) ?_ ?_
  · exact fun past op hop db hkept => ⟨claims, hclaims, hop db hkept⟩
  · exact fun past result hsent sent heq => ⟨claims, hclaims, hsent sent heq⟩

end Routes

end CloudOps.Analysis
