import CloudOps.Analysis.HttpRuns
import CloudOps.Analysis.RejectedRequests

/-!
# What a response says of the database

A request that is refused has changed nothing. One that succeeds has either changed nothing,
because its route only reads or its document was there before, or it has written what it was
asked for and, last of all, its one audit event (`responses_account`).

`Accounts` says so of one program; its only other case, an action loop that throws, does not
occur, as in `RejectedRequests.lean`.
-/

set_option autoImplicit false

namespace CloudOps.Analysis

open CloudOps.Computation CloudOps.Model CloudOps.Model.RemediationService
open CloudOps.Model.ResourceService

/-- No call has changed the store. -/
def Untouched (past : Past) : Prop := ∀ ev ∈ past, (ev.op.exec ev.before).2 = ev.before

/-- The last write is the event, the only one. -/
def AuditedOnce (past : Past) (event : AuditEvent) : Prop :=
  ∃ W : List DbOp, writesOf past = W ++ [.recordAudit event] ∧
    ∀ event', DbOp.recordAudit event' ∉ W

/-- **How a program ends**; `idle` says what it returns when it has changed nothing. -/
inductive Accounts {α : Type} (idle : α → Prop) (past : Past) : Except AppError α → Prop
  | failed (e : AppError) (hstatus : 500 ≤ e.statusCode) : Accounts idle past (.error e)
  | refused (e : AppError) (huntouched : Untouched past) : Accounts idle past (.error e)
  | stuck (e : AppError) (c : ExecuteCall) (plan : RemediationPlan) (matched : ApprovalToken)
      (resources : List CloudResource) (hloaded : c.Loaded past plan matched resources)
      (hrun : loopRun c.config plan.dryRun (loopStart resources) plan.actions = .error e) :
      Accounts idle past (.error e)
  | unchanged (a : α) (hidle : idle a) (huntouched : Untouched past) : Accounts idle past (.ok a)
  | written (a : α) (event : AuditEvent) (haudited : AuditedOnce past event) (hidle : ¬ idle a) :
      Accounts idle past (.ok a)

section Programs

variable {α β : Type} {idle : α → Prop} {past : Past} {op : DbOp}

/-- A past without writes has touched nothing. -/
theorem untouched_of_writes (h : writesOf past = []) : Untouched past := by
  intro ev hev
  have hread := List.filter_eq_nil_iff.mp h ev.op (List.mem_map_of_mem hev)
  exact exec_read (Bool.eq_false_of_not_eq_true hread)

/-- An audit event, where none has been recorded before. -/
theorem auditedOnce_append {event : AuditEvent} {before : Database}
    (h : ∀ event', DbOp.recordAudit event' ∉ writesOf past) :
    AuditedOnce (past ++ [⟨.recordAudit event, before⟩]) event :=
  ⟨writesOf past, writesOf_append_write rfl, h⟩

/-- Code that may refuse before anything is written. -/
theorem accounts_ofExcept {x : Except AppError β} {f : β → DbProg α} {J : Past → DbOp → Prop}
    (hwrites : writesOf past = [])
    (hrest : ∀ b, x = .ok b → (f b).Emits database J (Accounts idle) past) :
    (Prog.ofExcept x >>= f).Emits database J (Accounts idle) past :=
  emits_ofExcept hrest fun e _ => .refused e (untouched_of_writes hwrites)

/-- What a service returns is sent. -/
theorem accounts_send {J : Past → DbOp → Prop} {idle' : β → Prop} {p : DbProg α} {f : α → β}
    (hp : p.Emits database J (Accounts idle) past) (hidle : ∀ a, idle' (f a) ↔ idle a) :
    (p >>= fun a => return f a).Emits database J (Accounts idle') past := by
  refine Prog.Emits.bind (hp.mono (fun _ _ h => h) fun past result hresult => ?_)
  cases hresult with
  | failed e hstatus => exact .failed e hstatus
  | refused e huntouched => exact .refused e huntouched
  | stuck e c plan matched resources hloaded hrun =>
      exact .stuck e c plan matched resources hloaded hrun
  | unchanged a h huntouched => exact .unchanged _ ((hidle a).mpr h) huntouched
  | written a event haudited h => exact .written _ event haudited fun h' => h ((hidle a).mp h')

/-- A creation that finds its indexes taken leaves the collection as it was. -/
theorem createIn_taken {δ κ ι : Type} [Document δ κ ι] [DecidableEq κ] [DecidableEq ι]
    {collection : Collection δ} {document : δ} (h : collection.Conflicts document) :
    (createIn collection document).2 = collection := by
  unfold createIn
  rw [Collection.insert?_eq_none_iff.mpr h]

/-- An upsert fails on nothing but a duplicate key. -/
theorem upsertReply_error {δ : Type} {stored : Option δ} {e : AppError}
    (h : upsertReply stored = .error e) : stored = none ∧ e = .duplicateKey := by
  cases stored with
  | none => exact ⟨rfl, (Except.error.inj h).symm⟩
  | some document => cases h

end Programs

/-! ## The services -/

section Services

variable {workspaceId actorId correlationId : String}

/-- `createPlan` accounts for what it has done.
SRCLINE: apps/api/src/services/remediation-service.ts:37-100 -/
theorem createPlan_accounts {input : PlanInput} :
    (createPlan workspaceId actorId correlationId input).Emits database (fun _ _ => True)
      (Accounts (·.replayed = true)) [] := by
  refine emits_call trivial fun before₁ existing _ => ?_
  cases existing with
  | some plan => exact .unchanged _ rfl (untouched_of_writes rfl)
  | none =>
    refine emits_call trivial fun before₂ findings _ => ?_
    by_cases hlen : findings.length = input.findingIds.length
    · simp only [hlen, ne_eq, not_true_eq_false, if_false]
      refine emits_call trivial fun before₃ recs _ => accounts_ofExcept rfl fun actions _ => ?_
      refine emits_attempt trivial (fun before₄ _ _ => ?_) fun before₄ e he => ?_
      · refine emits_call trivial fun before₅ _ _ =>
          .written _ _ (auditedOnce_append ?_) Bool.false_ne_true
        simp [writesOf, DbOp.writes]
      · have htaken : _ ∧ e = .duplicateKey := taken_of_createIn he
        rw [htaken.2]
        exact .failed _ le_rfl
    · simp only [hlen, ne_eq, not_false_eq_true, if_true]
      exact .refused _ (untouched_of_writes rfl)

/-- `approve` accounts for what it has done.
SRCLINE: apps/api/src/services/remediation-service.ts:102-133 -/
theorem approve_accounts {hashToken : String → String} {config : ApiConfig} {planId : String}
    {input : ApproveInput} :
    (approve hashToken config workspaceId planId actorId correlationId input).Emits database
      (fun _ _ => True) (Accounts (·.replayed = true)) [] := by
  refine emits_call trivial fun before₁ plan? _ => ?_
  cases plan? with
  | none => exact .refused _ (untouched_of_writes rfl)
  | some plan =>
    by_cases happ : approvable plan.status = true
    · simp only [happ, Bool.not_true, Bool.false_eq_true, if_false]
      refine emits_attempt trivial (fun before₂ _ _ => ?_) fun before₂ e he => ?_
      · refine emits_call trivial fun before₃ _ _ => emits_call trivial fun before₄ _ _ =>
          .written _ _ (auditedOnce_append ?_) Bool.false_ne_true
        simp [writesOf, DbOp.writes]
      · have htaken : _ ∧ e = .duplicateKey := taken_of_createIn he
        rw [htaken.2]
        exact .failed _ le_rfl
    · simp only [happ, Bool.not_false, if_true]
      exact .refused _ (untouched_of_writes rfl)

/-- An execution records nothing before it is recorded itself. -/
theorem not_audit_upTo {c : ExecuteCall} {plan : RemediationPlan} {matched : ApprovalToken}
    {resources : List CloudResource} {event : AuditEvent} :
    DbOp.recordAudit event ∉ c.writesUpTo plan matched resources plan.actions := by
  intro hmem
  rcases List.mem_append.mp hmem with hmem | hmem
  · simp [ExecuteCall.opening] at hmem
  · obtain ⟨_, _, heq⟩ := loopWrites_save hmem
    cases heq

/-- Every ending of `execute` accounts for what the call has done.
SRCLINE: apps/api/src/services/remediation-service.ts:135-252 -/
theorem ExecuteCall.Ending.accounts {c : ExecuteCall} {past : Past}
    {result : Except AppError Response} (h : c.Ending past result) :
    Accounts (·.replayed = true) past result := by
  cases h with
  | replayed execution hwrites _ => exact .unchanged _ rfl (untouched_of_writes hwrites)
  | noPlan e hwrites _ => exact .refused e (untouched_of_writes hwrites)
  | noApproval e hwrites _ => exact .refused e (untouched_of_writes hwrites)
  | notPermitted e hwrites _ _ _ _ => exact .refused e (untouched_of_writes hwrites)
  | loopFailed e plan matched resources hloaded hrun _ =>
      exact .stuck e c plan matched resources hloaded hrun
  | duplicate => exact .failed _ le_rfl
  | done plan matched resources loop event _ _ hwrites _ =>
      refine .written _ event ⟨c.writesUpTo plan matched resources plan.actions ++
        [.createExecution (c.execution plan matched loop),
          .savePlan plan.id (some (finalStatus (c.execution plan matched loop).status))],
        ?_, fun event' hmem => ?_⟩ Bool.false_ne_true
      · rw [hwrites, List.append_assoc]
        rfl
      · rcases List.mem_append.mp hmem with hold | hnew
        · exact not_audit_upTo hold
        · simp at hnew

/-- Every ending of `sync` accounts for what the call has done.
SRCLINE: apps/api/src/services/resource-service.ts:25-52 -/
theorem SyncCall.Ending.accounts {c : SyncCall} {past : Past} {result : Except AppError Response}
    (h : c.Ending past result) : Accounts (·.replayed = true) past result := by
  cases h with
  | notListed e hwrites => exact .refused e (untouched_of_writes hwrites)
  | rejected e items pre post i _ _ _ hrejected =>
      obtain ⟨before, -, he⟩ := hrejected
      rw [upsertIn_eq] at he
      rw [(upsertReply_error he).2]
      exact .failed _ le_rfl
  | done items upserted event _ hwrites =>
      refine .written _ event ⟨items.map c.upsert, hwrites, fun event' hmem => ?_⟩
        Bool.false_ne_true
      obtain ⟨i, -, hi⟩ := List.mem_map.mp hmem
      cases hi

/-- Every ending of `create` accounts for what the call has done.
SRCLINE: apps/api/src/services/job-service.ts:15-63 -/
theorem CreateCall.Ending.accounts {c : CreateCall} {past : Past}
    {result : Except AppError JobService.JobReply} (h : c.Ending past result) :
    Accounts (·.replayed = true) past result := by
  cases h with
  | found => exact .unchanged _ rfl (untouched_of_writes rfl)
  | created found inserted audited _ =>
      have haudited : AuditedOnce ([⟨c.keyRead, found⟩, ⟨.createJob c.job, inserted⟩] ++
          [⟨.recordAudit c.audit, audited⟩]) c.audit :=
        auditedOnce_append (by simp [writesOf, DbOp.writes])
      exact .written _ _ haudited Bool.false_ne_true
  | replayed found inserted replay job htaken _ =>
      refine .unchanged _ rfl fun ev hev => ?_
      -- the insertion that found its key taken has changed nothing
      have hkept : (createIn inserted.jobs c.job).2 = inserted.jobs := createIn_taken htaken
      simp only [List.mem_cons, List.not_mem_nil, or_false] at hev
      rcases hev with rfl | rfl | rfl
      · rfl
      · show { inserted with jobs := (createIn inserted.jobs c.job).2 } = inserted
        rw [hkept]
      · rfl
  | lost => exact .failed _ le_rfl

/-- `retry` accounts for what it has done; it is never replayed.
SRCLINE: apps/api/src/services/job-service.ts:81-104 -/
theorem retry_accounts {id : String} {now auditedAt : Time} :
    (JobService.retry workspaceId id actorId correlationId now auditedAt).Emits database
      (fun _ _ => True) (Accounts fun _ => False) [] := by
  refine emits_call trivial fun before₁ job? _ => ?_
  cases job? with
  | none => exact .refused _ (untouched_of_writes rfl)
  | some job =>
    by_cases hstatus : retryable job.status = true
    · simp only [hstatus, Bool.not_true, Bool.false_eq_true, if_false]
      refine emits_call trivial fun before₂ _ _ => emits_call trivial fun before₃ _ _ =>
        .written _ _ (auditedOnce_append ?_) not_false
      simp [writesOf, DbOp.writes]
    · simp only [hstatus, Bool.not_false, if_true]
      exact .refused _ (untouched_of_writes rfl)

end Services

/-! ## The routes -/

/-- Whether a document that is sent was there before. -/
def replayedBody : Body → Bool
  | .response response => response.replayed
  | .jobReply reply => reply.replayed
  | _ => false

/-- What a route sends when it has changed nothing. -/
def Idle (route : ApiRoute) (sent : ℕ × Body) : Prop :=
  auditAction route = none ∨ replayedBody sent.2 = true

section Routes

variable {packages : HttpPackages} {config : HttpConfig} {claims : AuthClaims}
  {correlationId : String} {hashToken : String → String} {api : ApiConfig} {past : Past}
  {J : Past → DbOp → Prop}

/-- A service whose replies say whether they are new. -/
theorem accounts_route {α : Type} {route : ApiRoute} {p : DbProg α} {f : α → ℕ × Body}
    {action : String} (replayed : α → Bool) (haction : auditAction route = some action)
    (hp : p.Emits database J (Accounts (replayed · = true)) past)
    (hreplayed : ∀ a, replayedBody (f a).2 = replayed a) :
    (p >>= fun a => return f a).Emits database J (Accounts (Idle route)) past := by
  refine accounts_send hp fun a => ?_
  unfold Idle
  rw [haction, hreplayed a]
  simp

/-- A list reads. -/
theorem listing_accounts {δ : Type} {route : ApiRoute} {count list : DbOp} {page : Page}
    {total : count.Reply → ℕ} {docs : list.Reply → List δ} {body : Listing δ → ℕ × Body}
    (haction : auditAction route = none) (hcount : count.writes = false)
    (hlist : list.writes = false) :
    ((do
      let n ← (Prog.call count .ret : DbProg count.Reply)
      let found ← (Prog.call list .ret : DbProg list.Reply)
      return ⟨docs found, page.page, page.limit, total n⟩ : DbProg (Listing δ)) >>= fun listing =>
        return body listing).Emits database (fun _ _ => True) (Accounts (Idle route)) [] := by
  refine emits_call trivial fun before₁ n _ => emits_call trivial fun before₂ reply _ => ?_
  refine .unchanged _ (Or.inl haction) (untouched_of_writes ?_)
  simp [writesOf, hcount, hlist]

/-- **Every route accounts for what it has done.**
SRCLINE: apps/api/src/routes/api.ts:30-241 -/
theorem ApiRoute.program_accounts (route : ApiRoute) :
    (route.program packages config claims correlationId).Emits database (fun _ _ => True)
      (Accounts (Idle route)) [] := by
  cases route with
  | syncResources body =>
      refine accounts_route Response.replayed rfl ?_ fun _ => rfl
      refine accounts_ofExcept rfl fun call hcall => ?_
      obtain ⟨-, hbody⟩ := route_ok hcall
      obtain ⟨_, -, hdone⟩ := bind_ok hbody
      cases hdone
      exact (SyncCall.program_emits (c := ⟨config.api, claims.workspaceId, claims.sub,
        correlationId, body⟩)).mono (fun _ _ _ => trivial) fun _ _ h => h.accounts
  | createPlan body =>
      refine accounts_route Response.replayed rfl ?_ fun _ => rfl
      refine accounts_ofExcept rfl fun call hcall => ?_
      obtain ⟨-, hbody⟩ := route_ok hcall
      obtain ⟨_, -, hdone⟩ := bind_ok hbody
      cases hdone
      exact createPlan_accounts
  | approvePlan id input =>
      refine accounts_route Response.replayed rfl ?_ fun _ => rfl
      refine accounts_ofExcept rfl fun call hcall => ?_
      obtain ⟨-, hbody⟩ := route_ok hcall
      obtain ⟨_, -, hdone⟩ := bind_ok hbody
      cases hdone
      exact approve_accounts
  | executePlan id body =>
      refine accounts_route Response.replayed rfl ?_ fun _ => rfl
      refine accounts_ofExcept rfl fun call hcall => ?_
      obtain ⟨-, hbody⟩ := route_ok hcall
      obtain ⟨_, -, hid⟩ := bind_ok hbody
      obtain ⟨_, -, hdone⟩ := bind_ok hid
      cases hdone
      exact (ExecuteCall.program_emits (c := ⟨packages.hashToken, config.api, claims.workspaceId, _,
        claims.sub, correlationId, body⟩)).mono (fun _ _ _ => trivial) fun _ _ h => h.accounts
  | createDiagnostics body draws =>
      refine accounts_ofExcept rfl fun claims' _ => accounts_ofExcept rfl fun _ _ => ?_
      refine accounts_route JobService.JobReply.replayed rfl ?_ fun _ => rfl
      exact (CreateCall.program_emits ⟨config.jobs, claims'.workspaceId, claims'.sub,
        correlationId, body, draws⟩).mono (fun _ _ _ => trivial) fun _ _ h => h.accounts
  | retryJob id now auditedAt =>
      refine accounts_ofExcept rfl fun claims' _ => accounts_ofExcept rfl fun id' _ => ?_
      exact accounts_send retry_accounts fun _ => by simp [Idle, auditAction, replayedBody]
  | getResource id | getJob id =>
      refine accounts_ofExcept rfl fun id' _ => emits_call trivial fun before item _ => ?_
      cases item with
      | none => exact .refused _ (untouched_of_writes rfl)
      | some document => exact .unchanged _ (Or.inl rfl) (untouched_of_writes rfl)
  | listResources query | listJobs query | listFindings query | listRecommendations query =>
      exact accounts_ofExcept rfl fun parsed _ => listing_accounts rfl rfl rfl
  | listAuditEvents query =>
      exact accounts_ofExcept rfl fun claims' _ => accounts_ofExcept rfl fun parsed _ =>
        listing_accounts rfl rfl rfl

end Routes

/-! ## Runs -/

section Runs

variable {app : AppConfig} {db : Database} {clients : ℕ → AppClient}
  {G : AppPool → PoolEvent → Prop} {s : AppPool} {q : ℕ} {call : HttpCall}

/-- **Every action of a stored plan is allowlisted**, if there were no plans at the start.
SRCLINE: apps/api/src/services/remediation-service.ts:62-89 -/
theorem stored_plans_allowlisted (hdb : ∀ plan, plan ∉ db.plans)
    (hs : (Pool.machine database faults).Reaches G (appStart app db clients) s) :
    ∀ plan ∈ s.store.plans, ∀ action ∈ plan.actions, action.actionType ∈ ALLOWLISTED_ACTIONS := by
  refine Pool.invariant_of_performs (I := fun store _ => ∀ plan ∈ store.plans,
    ∀ action ∈ plan.actions, action.actionType ∈ ALLOWLISTED_ACTIONS) hs
    (fun plan h => absurd h (hdb plan)) ?_
  intro t e q op ht _ hp ih plan' hmem
  rcases mem_plans_exec hmem with hold | ⟨rfl, -⟩ | ⟨plan, hold, status, rfl, rfl⟩
  · exact ih plan' hold
  · rcases permitted_of_performs ht hp with ⟨_, _, _, _, hpermits⟩ | hworker
    · exact hpermits.allowed.2.2.2
    · exact absurd hworker.1 (by simp [workerCall])
  · exact ih plan hold

/-- A request accounts for what it has done. -/
theorem http_accounts (call : HttpCall) : ((AppClient.http call).program app).Emits database
    (fun _ _ => True) (Accounts fun sent? => ∀ sent ∈ sent?, Idle call.route sent) [] :=
  accounts_send (accounts_ofExcept rfl fun _ _ => ApiRoute.program_accounts call.route)
    fun sent => by simp

/-- What a response says of the calls of its request, and of the store. -/
inductive AccountsFor (call : HttpCall) (response : HttpResponse) (past : Past) (store : Database) :
    Prop
  | unchanged (hstatus : response.status < 400) (huntouched : Untouched past)
      (hidle : Idle call.route (response.status, response.body))
  | written (event : AuditEvent) (hstatus : response.status < 400)
      (haudited : AuditedOnce past event) (hstored : event ∈ store.audits)
      (haction : some event.action = auditAction call.route)
      (hcorrelation : event.correlationId = call.correlationId)
      (hidle : ¬ Idle call.route (response.status, response.body))
  | refused (hstatus : 400 ≤ response.status ∧ response.status < 500)
      (huntouched : Untouched past)
  | failed (hstatus : 500 ≤ response.status)

/-- The event of a request is in the trail, under its action and its id. -/
theorem event_of_audited {event : AuditEvent}
    (hs : (Pool.machine database faults).Reaches G (appStart app db clients) s)
    (hq : clients q = .http call) (haudited : AuditedOnce (own q s.history) event) :
    event ∈ s.store.audits ∧ some event.action = auditAction call.route ∧
      event.correlationId = call.correlationId := by
  obtain ⟨W, hwrites, -⟩ := haudited
  have hwrite : DbOp.recordAudit event ∈ writesOf (own q s.history) := by
    rw [hwrites]
    exact List.mem_append_right _ List.mem_cons_self
  obtain ⟨-, before, hev⟩ := mem_writesOf.mp hwrite
  have hprogram : ((clients q).program app).Permitted database Stays _ _ [] :=
    hq ▸ http_permitted call
  obtain ⟨_, _, -, claims, -, hpermits⟩ :=
    Pool.allowed_of_reaches respects_stays hprogram hs (mem_own.mp hev)
  obtain ⟨haction, hcorrelation, -⟩ := hpermits.audited event rfl
  have hstays : Stays ((DbOp.recordAudit event).exec before).2 s.store :=
    (Pool.chained_of_reaches hs).kept respects_stays _ hev
  exact ⟨hstays.audits event (List.mem_append_right _ List.mem_cons_self), haction, hcorrelation⟩

/-- **A response accounts for its request**, whatever the others do.
SRCLINE: apps/api/src/routes/api.ts:30-241, apps/api/src/middleware/error-handler.ts:5-34,
apps/api/src/services/remediation-service.ts:37-252, apps/api/src/services/job-service.ts:15-104 -/
theorem responses_account {response : HttpResponse} (hdb : ∀ plan, plan ∉ db.plans)
    (hs : (Pool.machine database faults).Reaches G (appStart app db clients) s)
    (hq : clients q = .http call) (hresponse : Responded call (s.procs q) response) :
    AccountsFor call response (own q s.history) s.store := by
  have haccounts : ((clients q).program app).Emits database _ _ [] := hq ▸ http_accounts call
  have hpermitted : ((clients q).program app).Permitted database Stays _ _ [] :=
    hq ▸ http_permitted call
  have hconforms := Pool.conforms_of_emits haccounts hs
  generalize hp : s.procs q = p at hresponse hconforms
  cases hresponse with
  | sent sent =>
      obtain ⟨claims, -, hsent⟩ := Pool.ended_of_reaches hpermitted hs hp sent rfl
      have hstatus : sent.1 < 400 := by
        have h := hsent.status
        omega
      rcases hconforms.emits with hends | hstopped
      · cases hends with
        | unchanged _ hidle huntouched => exact .unchanged hstatus huntouched (hidle sent rfl)
        | written _ event haudited hidle =>
            obtain ⟨hstored, haction, hcorrelation⟩ := event_of_audited hs hq haudited
            refine .written event hstatus haudited hstored haction hcorrelation fun h =>
              hidle fun sent' hsent' => ?_
            obtain rfl := Option.mem_some_iff.mp hsent'
            exact h
      · cases hstopped
  | threw e =>
      by_cases hstatus : 500 ≤ e.statusCode
      · exact .failed hstatus
      · have hrange : 400 ≤ e.statusCode ∧ e.statusCode < 500 :=
          ⟨statusCode_ge e, Nat.lt_of_not_le hstatus⟩
        rcases hconforms.emits with hends | hstopped
        · cases hends with
          | failed _ h => exact absurd h hstatus
          | refused _ huntouched => exact .refused hrange huntouched
          -- the loop of a plan that is stored returns
          | stuck _ c plan matched resources hloaded hrun =>
              have hactions : ∀ action ∈ plan.actions,
                  action.actionType ∈ ALLOWLISTED_ACTIONS :=
                hloaded.allowlisted hs (fun ev => mem_own.mp) (stored_plans_allowlisted hdb hs)
              exact absurd hrun (loopRun_ne_error hactions)
        -- a failed write is a failure of the server
        · cases hstopped
          exact absurd le_rfl hstatus

/-- The execution has been written and audited. -/
theorem responses_account_remediation : ∃ (s : AppPool) (response : HttpResponse),
    Responded executeRequest (s.procs 4) response ∧ response.status = 200 ∧
      AccountsFor executeRequest response (own 4 s.history) s.store := by
  have hended : endStatus (remediationPool.procs 4) = some 200 := by decide +kernel
  obtain ⟨response, hresponse, hstatus⟩ := responded_of_endStatus executeRequest hended
  have hdb : ∀ plan, plan ∉ bucketInventory.plans := fun plan h => absurd h List.not_mem_nil
  exact ⟨remediationPool, response, hresponse, hstatus,
    responses_account hdb remediationPool_reached rfl hresponse⟩

end Runs

end CloudOps.Analysis
