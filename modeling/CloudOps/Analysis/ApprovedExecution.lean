import CloudOps.Analysis.SingleExecution
import CloudOps.Model.Routes

/-!
# No execution without a valid approval

The checks of `execute` race with one another (`SingleExecution.lean`), but none of them can
be skipped. Whatever interleaves: an execution record names a plan and a token of that plan,
the token was created by an administrator of the workspace, the request that wrote the record
presented it before it expired, and it is marked used. The proof follows the history: a
record and a saved resource come after the check of the same request, and tokens are only
ever created by `approve`.
-/

set_option autoImplicit false

namespace CloudOps.Analysis

open CloudOps.Computation CloudOps.Model CloudOps.Model.RemediationService

/-- Requests as they arrive over HTTP, none of which has begun. -/
def serveHttp (hashToken : String → String) (config : ApiConfig) (db : Database)
    (requests : ℕ → HttpRequest) : ServicePool :=
  serve hashToken config db fun q => (requests q).route

/-- The token was created by the approve request of an administrator of its workspace. -/
def ApprovedBy (requests : ℕ → HttpRequest) (history : History) (token : ApprovalToken) : Prop :=
  ∃ q claims correlationId input before,
    requests q = .approve (some claims) token.planId correlationId input ∧
    claims.role = .admin ∧ claims.workspaceId = token.workspaceId ∧
    (q, ⟨.createApproval { token with usedAt := none }, before⟩) ∈ history ∧
    ¬ before.tokens.Conflicts { token with usedAt := none }

/-- Request `q`, an execute request for the plan in the workspace, has looked up the approvals
and has found the one its token opens, unused and not expired. -/
def Checks (hashToken : String → String) (requests : ℕ → HttpRequest) (history : History) (q : ℕ)
    (workspaceId planId : String) (token : ApprovalToken) : Prop :=
  ∃ claims correlationId body before,
    requests q = .execute (some claims) planId correlationId body ∧
    claims.workspaceId = workspaceId ∧
    (q, ⟨.findApprovals workspaceId planId, before⟩) ∈ history ∧
    checkApproval hashToken (before.findApprovals workspaceId planId) body.approvalToken
      body.checkedAt = .ok token ∧
    hashToken body.approvalToken = token.tokenHash ∧ body.checkedAt ≤ token.expiresAt

/-- An execution record has a valid approval behind it. -/
structure HasApproval (hashToken : String → String) (requests : ℕ → HttpRequest)
    (s : ServicePool) (e : RemediationExecution) : Prop where
  plan : ∃ plan ∈ s.store.plans, plan.id = e.planId ∧ plan.workspaceId = e.workspaceId ∧
    plan.dryRun = e.dryRun
  token : ∃ token ∈ s.store.tokens, token.id = e.approvalTokenId ∧ token.planId = e.planId ∧
    token.workspaceId = e.workspaceId ∧ token.usedAt.isSome ∧
    ApprovedBy requests s.history token ∧
    ∃ q, Creates s.history q e ∧
      Checks hashToken requests s.history q e.workspaceId e.planId { token with usedAt := none }

/-! ## What a call of the service says about its HTTP request -/

section Routes

variable {hashToken : String → String} {config : ApiConfig} {request : HttpRequest}

/-- Who passes the check of the roles is authenticated and has one of them. -/
theorem requireRole_ok {roles : List Role} {auth : Option AuthClaims} {claims : AuthClaims}
    (h : requireRole roles auth = .ok claims) : auth = some claims ∧ claims.role ∈ roles := by
  unfold requireRole at h
  split at h
  · cases h
  · split at h
    · next hrole => cases h; exact ⟨rfl, hrole⟩
    · cases h

/-- An identity that passes the check of the route is the one asked for. -/
theorem routeId_ok {id id' : String} (h : routeId id = .ok id') : id = id' := by
  unfold routeId at h
  split at h
  · cases h
  · cases h; rfl

/-- A call of `approve` comes from an administrator, in the administrator's workspace.
SRCLINE: apps/api/src/routes/api.ts:187-200 -/
theorem route_approve {ws planId actor correlationId : String} {input : ApproveInput}
    (h : request.route = .ok (.approve ws planId actor correlationId input)) :
    ∃ claims, request = .approve (some claims) planId correlationId input ∧
      claims.role = .admin ∧ claims.workspaceId = ws := by
  cases request with
  | approve auth id correlationId input =>
      obtain ⟨claims, hclaims, h⟩ := bind_ok h
      obtain ⟨id', hid, h⟩ := bind_ok h
      obtain ⟨rfl, hrole⟩ := requireRole_ok hclaims
      obtain rfl := routeId_ok hid
      cases h
      exact ⟨claims, rfl, List.mem_singleton.mp hrole, rfl⟩
  | plan auth correlationId body | sync auth correlationId body =>
      obtain ⟨_, -, h⟩ := bind_ok h
      obtain ⟨_, -, h⟩ := bind_ok h
      cases h
  | execute auth id correlationId body =>
      obtain ⟨_, -, h⟩ := bind_ok h
      obtain ⟨_, -, h⟩ := bind_ok h
      obtain ⟨_, -, h⟩ := bind_ok h
      cases h

/-- A call of `execute` is for the workspace of the principal.
SRCLINE: apps/api/src/routes/api.ts:202-219 -/
theorem route_execute {ws planId actor correlationId : String} {body : ExecuteInput}
    (h : request.route = .ok (.execute ws planId actor correlationId body)) :
    ∃ claims, request = .execute (some claims) planId correlationId body ∧
      claims.workspaceId = ws := by
  cases request with
  | execute auth id correlationId body =>
      obtain ⟨claims, hclaims, h⟩ := bind_ok h
      obtain ⟨_, -, h⟩ := bind_ok h
      obtain ⟨id', hid, h⟩ := bind_ok h
      obtain ⟨rfl, -⟩ := requireRole_ok hclaims
      obtain rfl := routeId_ok hid
      cases h
      exact ⟨claims, rfl, rfl⟩
  | plan auth correlationId body | sync auth correlationId body =>
      obtain ⟨_, -, h⟩ := bind_ok h
      obtain ⟨_, -, h⟩ := bind_ok h
      cases h
  | approve auth id correlationId input =>
      obtain ⟨_, -, h⟩ := bind_ok h
      obtain ⟨_, -, h⟩ := bind_ok h
      cases h

/-- An approve request that reaches the service. -/
theorem approveCall_route {c : ApproveCall}
    (h : approveCall hashToken config request.route = some c) : c.hashToken = hashToken ∧
      ∃ claims, request = .approve (some claims) c.planId c.correlationId c.input ∧
        claims.role = .admin ∧ claims.workspaceId = c.workspaceId := by
  unfold approveCall at h
  split at h
  · next heq => cases h; exact ⟨rfl, route_approve heq⟩
  · cases h

/-- An execute request that reaches the service. -/
theorem executeCall_route {c : ExecuteCall}
    (h : executeCall hashToken config request.route = some c) : c.hashToken = hashToken ∧
      ∃ claims, request = .execute (some claims) c.planId c.correlationId c.input ∧
        claims.workspaceId = c.workspaceId := by
  unfold executeCall at h
  split at h
  · next heq => cases h; exact ⟨rfl, route_execute heq⟩
  · cases h

end Routes

section Runs

variable {hashToken : String → String} {config : ApiConfig} {db : Database}
  {requests : ℕ → Incoming} {G : ServicePool → PoolEvent → Prop} {s : ServicePool}
  {q : ℕ}

/-! ## Where tokens come from, and when they are used -/

/-- A token in the store was created by an approve request, if there was none at the start.
SRCLINE: apps/api/src/services/remediation-service.ts:108-115 -/
theorem stored_approved (hs : service.Reaches G (serve hashToken config db requests) s)
    (hdb : ∀ token, token ∉ db.tokens) : ∀ token ∈ s.store.tokens, ∃ q c,
      approveCall hashToken config (requests q) = some c ∧
        (∃ before, (q, ⟨.createApproval c.approval, before⟩) ∈ s.history ∧
          ¬ before.tokens.Conflicts c.approval) ∧
        token = { c.approval with usedAt := token.usedAt } := by
  refine Pool.invariant_of_performs (I := fun t history => ∀ token ∈ t.tokens, ∃ q c,
    approveCall hashToken config (requests q) = some c ∧
      (∃ before, (q, ⟨.createApproval c.approval, before⟩) ∈ history ∧
        ¬ before.tokens.Conflicts c.approval) ∧
      token = { c.approval with usedAt := token.usedAt }) hs (fun e he => absurd he (hdb e)) ?_
  intro t e q op ht _ hp ih token' hmem
  rcases mem_tokens_exec hmem with hold | ⟨rfl, hfree⟩ | ⟨token, hold, usedAt, rfl, rfl⟩
  · obtain ⟨q', c, hc, ⟨before, hev, hfree⟩, heq⟩ := ih token' hold
    exact ⟨q', c, hc, ⟨before, List.mem_append_left _ hev, hfree⟩, heq⟩
  · obtain ⟨c, hc, rfl⟩ := justified_createApproval (justified_next ht hp)
    exact ⟨q, c, hc, ⟨t.store, by simp, hfree⟩, rfl⟩
  · obtain ⟨q', c, hc, ⟨before, hev, hfree⟩, heq⟩ := ih token hold
    refine ⟨q', c, hc, ⟨before, List.mem_append_left _ hev, hfree⟩, ?_⟩
    rw [heq]

/-- A token that a request has saved is in the store, marked used.
SRCLINE: apps/api/src/services/remediation-service.ts:173-174 -/
theorem saved_used (hs : service.Reaches G (serve hashToken config db requests) s) :
    ∀ q id usedAt before, (q, ⟨.saveApproval id usedAt, before⟩) ∈ s.history →
      ∃ token ∈ s.store.tokens, token.id = id ∧ token.usedAt.isSome := by
  refine Pool.invariant_of_performs (I := fun t history => ∀ q id usedAt before,
    (q, ⟨.saveApproval id usedAt, before⟩) ∈ history →
      ∃ token ∈ t.tokens, token.id = id ∧ token.usedAt.isSome) hs
    (fun _ _ _ _ hmem => absurd hmem List.not_mem_nil) ?_
  intro t e q op ht _ hp ih q' id usedAt before hmem
  rcases List.mem_append.mp hmem with hold | hnew
  · obtain ⟨token, htoken, rfl, hused⟩ := ih q' id usedAt before hold
    obtain ⟨token', htoken', heq, hmono⟩ := (Database.le_exec op t.store).tokens token htoken
    exact ⟨token', htoken', by rw [heq], hmono hused⟩
  · obtain ⟨rfl, heq⟩ := Prod.mk.inj (List.mem_singleton.mp hnew)
    obtain ⟨rfl, rfl⟩ := Event.mk.inj heq
    obtain ⟨c, plan, matched, resources, -, hloaded, hstage, -⟩ :=
      justified_execute (justified_next ht hp) (Or.inr (Or.inr ⟨_, _, rfl⟩))
    obtain ⟨-, -, -, -, -, token, htoken, htokenEq⟩ := hloaded.stored ht fun ev => mem_own.mp
    have hid : token.id = matched.id := by rw [htokenEq]
    generalize writesOf (own q' t.history) = W at hstage
    generalize hop : DbOp.saveApproval id usedAt = op at hstage
    cases hstage <;> cases hop
    refine ⟨{ token with usedAt := some c.input.usedAt }, ?_, hid, rfl⟩
    change _ ∈ t.store.tokens.update matched.id _
    rw [Collection.mem_update]
    exact ⟨token, htoken, if_pos hid⟩

/-! ## The approval behind an execution -/

variable {http : ℕ → HttpRequest}

/-- A token in the store of HTTP requests has been created by an administrator. -/
theorem stored_approvedBy (hs : service.Reaches G (serveHttp hashToken config db http) s)
    (hdb : NoPlans db) : ∀ token ∈ s.store.tokens, ApprovedBy http s.history token := by
  intro token htoken
  obtain ⟨q, c, hc, ⟨before, hev, hfree⟩, heq⟩ :=
    stored_approved hs (fun token => by simp [hdb.tokens]) token htoken
  obtain ⟨-, claims, hrequest, hrole, hws⟩ := approveCall_route hc
  have hnew : c.approval = { token with usedAt := none } := by rw [heq]; rfl
  have hplan : c.planId = token.planId := by rw [heq]; rfl
  have hworkspace : c.workspaceId = token.workspaceId := by rw [heq]; rfl
  exact ⟨q, claims, _, _, before, hplan ▸ hrequest, hrole, hws.trans hworkspace, hnew ▸ hev,
    hnew ▸ hfree⟩

/-- **The check comes first**: at a record or a save of a resource in the history, the same
request has checked its token before, and has loaded the plan it executes.
SRCLINE: apps/api/src/services/remediation-service.ts:150-167 -/
theorem checked_before (hs : service.Reaches G (serveHttp hashToken config db http) s)
    {older newer : History} {ev : Event DbOp Database}
    (hsplit : s.history = older ++ (q, ev) :: newer)
    (hop : (∃ execution, ev.op = .createExecution execution) ∨
      (∃ id patch, ev.op = .saveResource id patch) ∨ ∃ id usedAt, ev.op = .saveApproval id usedAt) :
    ∃ (c : ExecuteCall) (plan : RemediationPlan) (matched : ApprovalToken)
        (resources : List CloudResource), c.Loaded (own q older) plan matched resources ∧
      c.Stage plan matched resources (writesOf (own q older)) ev.op ∧
      Checks hashToken http older q c.workspaceId c.planId matched := by
  obtain ⟨c, plan, matched, resources, hc, hloaded, hstage, -⟩ :=
    justified_execute ((conforms hs q).emitted_at hsplit) hop
  obtain ⟨hhash, claims, hrequest, hws⟩ := executeCall_route hc
  obtain ⟨before, hread, hcheck⟩ := hloaded.approvalsRead
  obtain ⟨-, hopens, -, hnotExpired⟩ := checkApproval_ok hcheck
  rw [hhash] at hcheck hopens
  exact ⟨c, plan, matched, resources, hloaded, hstage, claims, _, _, before, hrequest, hws,
    mem_own.mp hread, hcheck, hopens.symm, hnotExpired⟩

/-- The approval behind a record, and the plan it is for. -/
theorem hasApproval_of_creates (hs : service.Reaches G (serveHttp hashToken config db http) s)
    (hdb : NoPlans db) {e : RemediationExecution} (h : Creates s.history q e) :
    HasApproval hashToken http s e := by
  obtain ⟨before, hmem, hfree⟩ := h
  obtain ⟨older, newer, hsplit⟩ := List.append_of_mem hmem
  obtain ⟨c, plan, matched, resources, hloaded, hstage, hchecks⟩ :=
    checked_before hs hsplit (Or.inl ⟨e, rfl⟩)
  have hsub : ∀ ev ∈ own q older, (q, ev) ∈ s.history := fun ev hev =>
    hsplit ▸ List.mem_append_left _ (mem_own.mp hev)
  obtain ⟨hid, hws, ⟨plan', hplan', hplanEq⟩, hplanId, hworkspace, token, htoken, htokenEq⟩ :=
    hloaded.stored hs hsub
  obtain ⟨_, _, _, before', hrequest, hclaims, hread, hcheck, hopens⟩ := hchecks
  obtain ⟨-, -, hunused, -⟩ := checkApproval_ok hcheck
  have hmatched : { token with usedAt := none } = matched := by
    rw [htokenEq, ← hunused]
  have hused : token.usedAt.isSome := by
    have hW : .saveApproval matched.id c.input.usedAt ∈ writesOf (own q older) := by
      generalize writesOf (own q older) = W at hstage
      cases hstage with
      | record loop _ => simp [ExecuteCall.writesUpTo, ExecuteCall.opening]
    obtain ⟨-, before'', hev⟩ := mem_writesOf.mp hW
    obtain ⟨token', htoken', hid', hused⟩ := saved_used hs _ _ _ _ (hsub _ hev)
    have hsame := Collection.eq_of_id htoken htoken'
      (show token.id = token'.id by rw [hid', htokenEq])
    rwa [hsame]
  generalize writesOf (own q older) = W at hstage
  cases hstage with
  | record loop _ =>
      refine ⟨⟨plan', hplan', ?_, ?_, ?_⟩, token, htoken, ?_, ?_, ?_, hused,
        stored_approvedBy hs hdb token htoken, q, ⟨before, hmem, hfree⟩, ?_⟩
      · rw [hplanEq]; exact hid
      · rw [hplanEq]; exact hws
      · rw [hplanEq]; rfl
      · rw [htokenEq]; rfl
      · rw [htokenEq]; exact hplanId
      · rw [htokenEq]; exact hworkspace
      · rw [hmatched]
        exact ⟨_, _, _, before', hrequest, hclaims, hsplit ▸ List.mem_append_left _ hread, hcheck,
          hopens⟩

/-- **No execution without a valid approval**, in every run of any requests from a store
without plans: each record has its approval, and each save of a resource comes after a check
of such an approval by the same request.
SRCLINE: apps/api/src/services/remediation-service.ts:102-252, apps/api/src/routes/api.ts:187-219 -/
theorem executions_approved (hdb : NoPlans db)
    (hs : service.Reaches Machine.unguarded (serveHttp hashToken config db http) s) :
    (∀ e ∈ s.store.executions, HasApproval hashToken http s e) ∧
      ∀ older q id patch before newer,
        s.history = older ++ (q, ⟨.saveResource id patch, before⟩) :: newer →
        ∃ token, Checks hashToken http older q token.workspaceId token.planId token ∧
          ApprovedBy http s.history token := by
  refine ⟨fun e he => ?_, fun older q id patch before newer hsplit => ?_⟩
  · obtain ⟨q, hcreates⟩ := stored_created hs (fun e => by simp [hdb.executions]) e he
    exact hasApproval_of_creates hs hdb hcreates
  · obtain ⟨c, plan, matched, resources, hloaded, -, hchecks⟩ :=
      checked_before hs hsplit (Or.inr (Or.inl ⟨id, patch, rfl⟩))
    obtain ⟨-, -, -, hplanId, hworkspace, token, htoken, htokenEq⟩ :=
      hloaded.stored (q := q) hs fun ev hev => hsplit ▸ List.mem_append_left _ (mem_own.mp hev)
    refine ⟨matched, by rw [hplanId, hworkspace]; exact hchecks, ?_⟩
    have happroved := stored_approvedBy hs hdb token htoken
    rw [htokenEq] at happroved
    exact happroved

end Runs

/-! ## A run over HTTP -/

/-- A plan for the bucket, its approval and its execution. -/
def bucketHttp : ℕ → HttpRequest
  | 0 => .plan (some ⟨"operator", "operator@demo", .operator, "ws"⟩) "c-0"
      ⟨["f-1"], false, "plan-key", "p-1", 0⟩
  | 1 => .approve (some ⟨"admin", "admin@demo", .admin, "ws"⟩) "p-1" "c-1"
      ⟨"approval-token-01", "t-1", 0, 0⟩
  | _ => .execute (some ⟨"operator", "operator@demo", .operator, "ws"⟩) "p-1" "c-2"
      ⟨"approval-token-01", "key-0001", 1, 1, 2, 2, "e-1", 3⟩

/-- The three requests one after another. -/
def bucketRun : List PoolEvent :=
  List.replicate 5 (.run 0) ++ List.replicate 4 (.run 1) ++ List.replicate 10 (.run 2)

/-- In a run that does execute the plan. -/
theorem executions_approved_bucket : ∃ s, service.Reaches Machine.unguarded
    (serveHttp (fun token => token) ⟨.mock, false, 900000⟩ bucketStore bucketHttp) s ∧
      s.store.executions.docs.length = 1 ∧
      ∀ e ∈ s.store.executions, HasApproval (fun token => token) bucketHttp s e := by
  let s := (service.run (serveHttp (fun token => token) ⟨.mock, false, 900000⟩ bucketStore
    bucketHttp) bucketRun).get (by decide +kernel)
  have hs : service.Reaches Machine.unguarded (serveHttp (fun token => token)
      ⟨.mock, false, 900000⟩ bucketStore bucketHttp) s :=
    Machine.reaches_of_run bucketRun (Option.some_get _).symm
  exact ⟨s, hs, by decide +kernel, (executions_approved ⟨rfl, rfl, rfl⟩ hs).1⟩

end CloudOps.Analysis
