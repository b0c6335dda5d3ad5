import CloudOps.Analysis.ExecuteStages
import CloudOps.Model.ApiRequests
import Mathlib.Data.List.ReduceOption

/-!
# The stages of every request

`createPlan` writes a plan and its audit event; `approve` a token, the status of the plan
and its audit event; `execute` the sequence of `ExecuteStages.lean`; `sync` one resource for
each one listed. `Justified` puts them together: what any operation of a request relies on,
in terms of what the same request performed before it.
-/

set_option autoImplicit false

namespace CloudOps.Analysis

open CloudOps.Computation CloudOps.Model CloudOps.Model.RemediationService
open CloudOps.Model.ResourceService

/-- The errors a request is rejected with: a missing document, a conflict, a missing permission
or an invalid request.
SRCLINE: packages/shared/src/errors.ts:23-56 -/
def Rejection : AppError → Prop
  | .notFound _ | .conflict _ | .forbidden _ | .validation _ => True
  | _ => False

/-- A program that ends in a rejection has written nothing. -/
def RejectsUnwritten {α : Type} (past : Past) (result : Except AppError α) : Prop :=
  ∀ e, result = .error e → Rejection e → writesOf past = []

section Rejections

variable {α : Type} {past : Past}

/-- A success is no rejection. -/
theorem rejectsUnwritten_ok (a : α) : RejectsUnwritten past (.ok a) := fun _ he => nomatch he

/-- Whatever ends without a write has not written before a rejection. -/
theorem rejectsUnwritten_of_writes {result : Except AppError α} (h : writesOf past = []) :
    RejectsUnwritten past result := fun _ _ _ => h

/-- A document that is taken is not a rejection. -/
theorem rejectsUnwritten_duplicateKey :
    RejectsUnwritten past (.error .duplicateKey : Except AppError α) := by
  rintro e he hrejection
  cases he
  exact hrejection.elim

end Rejections

/-! ## approve -/

/-- The arguments of a call of `approve`. -/
structure ApproveCall where
  hashToken : String → String
  config : ApiConfig
  workspaceId : String
  planId : String
  actorId : String
  correlationId : String
  input : ApproveInput

namespace ApproveCall

variable (c : ApproveCall)

def program : DbProg Response :=
  approve c.hashToken c.config c.workspaceId c.planId c.actorId c.correlationId c.input

/-- The token the call creates. -/
def approval : ApprovalToken :=
  newApproval c.hashToken c.config c.workspaceId c.planId c.actorId c.input

/-- The read of `approve` that lets it go on. -/
structure Loaded (past : Past) (plan : RemediationPlan) : Prop where
  planRead : ∃ before, ⟨.findPlan c.planId c.workspaceId, before⟩ ∈ past ∧
    before.findPlan c.planId c.workspaceId = some plan
  approvable : approvable plan.status = true

/-- Which write may follow which, for the plan that has been loaded. -/
inductive Stage (plan : RemediationPlan) : List DbOp → DbOp → Prop
  | token : Stage plan [] (.createApproval c.approval)
  | approve : Stage plan [.createApproval c.approval]
      (.savePlan plan.id (if plan.status = .approved then none else some .approved))
  | audit (event : AuditEvent) : Stage plan [.createApproval c.approval,
      .savePlan plan.id (if plan.status = .approved then none else some .approved)]
      (.recordAudit event)

/-- What every operation of `approve` relies on. -/
def Justified (past : Past) (op : DbOp) : Prop :=
  if op.writes then ∃ plan, c.Loaded past plan ∧ c.Stage plan (writesOf past) op
  else writesOf past = []

variable {c} {past : Past} {plan : RemediationPlan}

/-- What has been loaded stays loaded. -/
theorem Loaded.append (h : c.Loaded past plan) (ev : Event DbOp Database) :
    c.Loaded (past ++ [ev]) plan where
  planRead := h.planRead.imp fun _ h => ⟨List.mem_append_left _ h.1, h.2⟩
  approvable := h.approvable

/-- A write is justified by the plan that has been loaded and the writes before it. -/
theorem justified_write {op : DbOp} {W : List DbOp} (hop : op.writes = true)
    (hloaded : c.Loaded past plan) (hwrites : writesOf past = W) (hstage : c.Stage plan W op) :
    c.Justified past op := by
  rw [Justified, if_pos hop]
  exact ⟨plan, hloaded, hwrites ▸ hstage⟩

/-- **`approve` keeps to its stages**, whatever the store is at each of its calls.
SRCLINE: apps/api/src/services/remediation-service.ts:102-133 -/
theorem program_emits : c.program.Emits database c.Justified RejectsUnwritten [] := by
  unfold program approve
  refine emits_call (by simp [Justified, DbOp.writes]) fun before₁ plan? hplan => ?_
  cases plan? with
  | none => exact rejectsUnwritten_of_writes rfl
  | some plan =>
    by_cases happ : RemediationService.approvable plan.status = true
    · simp only [happ, Bool.not_true, Bool.false_eq_true, if_false]
      have hloaded : c.Loaded [⟨.findPlan c.planId c.workspaceId, before₁⟩] plan :=
        ⟨⟨before₁, by simp, hplan⟩, happ⟩
      refine emits_attempt (k := fun reply : DbOp.Reply (.createApproval c.approval) => reply)
        (justified_write rfl hloaded rfl .token) (fun before₂ _ _ => ?_) fun before₂ e he => ?_
      · refine emits_call (justified_write rfl (hloaded.append _) rfl .approve)
          fun before₃ _ _ => ?_
        refine emits_call (justified_write rfl ((hloaded.append _).append _) rfl (.audit _))
          fun before₄ _ _ => rejectsUnwritten_ok _
      · have htaken : _ ∧ e = .duplicateKey := taken_of_createIn he
        rw [htaken.2]
        exact rejectsUnwritten_duplicateKey
    · simp only [happ, Bool.not_false, if_true]
      exact rejectsUnwritten_of_writes rfl

end ApproveCall

/-! ## createPlan -/

/-- The arguments of a call of `createPlan`. -/
structure PlanCall where
  workspaceId : String
  actorId : String
  correlationId : String
  input : PlanInput

namespace PlanCall

variable (c : PlanCall)

def program : DbProg Response := createPlan c.workspaceId c.actorId c.correlationId c.input

/-- The plan the call creates from the actions it has worked out. -/
def plan (actions : List (Option RemediationAction)) : RemediationPlan :=
  newPlan c.workspaceId c.actorId c.correlationId c.input actions.reduceOption

/-- The reads of `createPlan`, and the actions worked out from them. -/
structure Loaded (past : Past) (actions : List (Option RemediationAction)) : Prop where
  fresh : ∃ before, ⟨.findPlanByKey c.workspaceId c.input.idempotencyKey, before⟩ ∈ past ∧
    before.findPlanByKey c.workspaceId c.input.idempotencyKey = none
  findings : ∃ findings recs before before',
    ⟨.findFindings c.workspaceId c.input.findingIds, before⟩ ∈ past ∧
    before.findFindings c.workspaceId c.input.findingIds = findings ∧
    findings.length = c.input.findingIds.length ∧
    ⟨.findRecommendations c.workspaceId (findings.map (·.id)), before'⟩ ∈ past ∧
    before'.findRecommendations c.workspaceId (findings.map (·.id)) = recs ∧
    findings.mapM (planAction recs) = .ok actions

/-- Whatever is planned is allowlisted.
SRCLINE: apps/api/src/services/remediation-service.ts:62-76 -/
theorem planAction_allowlisted {recs : List Recommendation} {finding : Finding}
    {action : RemediationAction} (h : planAction recs finding = .ok (some action)) :
    action.actionType ∈ ALLOWLISTED_ACTIONS := by
  unfold planAction at h
  dsimp only at h
  split at h
  · cases h
  · obtain ⟨_, hallowed, h⟩ := bind_ok h
    cases h
    unfold assertAllowlisted at hallowed
    split at hallowed
    · assumption
    · cases hallowed

/-- The actions of a new plan are allowlisted. -/
theorem Loaded.allowlisted {c : PlanCall} {past : Past} {actions : List (Option RemediationAction)}
    (h : c.Loaded past actions) :
    ∀ action ∈ (c.plan actions).actions, action.actionType ∈ ALLOWLISTED_ACTIONS := by
  intro action hmem
  obtain ⟨findings, recs, before, before', -, -, -, -, -, hactions⟩ := h.findings
  have hmem : some action ∈ actions := List.reduceOption_mem_iff.mp hmem
  obtain ⟨_, -, hplan⟩ := mem_of_mapM_ok hactions hmem
  exact planAction_allowlisted hplan

/-- Which write may follow which. -/
inductive Stage (actions : List (Option RemediationAction)) : List DbOp → DbOp → Prop
  | create : Stage actions [] (.createPlan (c.plan actions))
  | audit (event : AuditEvent) : Stage actions [.createPlan (c.plan actions)] (.recordAudit event)

/-- What every operation of `createPlan` relies on. -/
def Justified (past : Past) (op : DbOp) : Prop :=
  if op.writes then ∃ actions, c.Loaded past actions ∧ c.Stage actions (writesOf past) op
  else writesOf past = []

variable {c} {past : Past} {actions : List (Option RemediationAction)}

/-- What has been loaded stays loaded. -/
theorem Loaded.append (h : c.Loaded past actions) (ev : Event DbOp Database) :
    c.Loaded (past ++ [ev]) actions where
  fresh := h.fresh.imp fun _ h => ⟨List.mem_append_left _ h.1, h.2⟩
  findings := by
    obtain ⟨findings, recs, before, before', h₁, h₂, h₃, h₄, h₅⟩ := h.findings
    exact ⟨findings, recs, before, before', List.mem_append_left _ h₁, h₂, h₃,
      List.mem_append_left _ h₄, h₅⟩

/-- A write is justified by the actions that have been loaded and the writes before it. -/
theorem justified_write {op : DbOp} {W : List DbOp} (hop : op.writes = true)
    (hloaded : c.Loaded past actions) (hwrites : writesOf past = W)
    (hstage : c.Stage actions W op) : c.Justified past op := by
  rw [Justified, if_pos hop]
  exact ⟨actions, hloaded, hwrites ▸ hstage⟩

/-- **`createPlan` keeps to its stages**, whatever the store is at each of its calls.
SRCLINE: apps/api/src/services/remediation-service.ts:37-100 -/
theorem program_emits : c.program.Emits database c.Justified RejectsUnwritten [] := by
  unfold program createPlan
  refine emits_call (by simp [Justified, DbOp.writes]) fun before₁ existing hexisting => ?_
  cases existing with
  | some existing => exact rejectsUnwritten_ok _
  | none =>
    refine emits_call (by simp [Justified, DbOp.writes, writesOf])
      fun before₂ findings hfindings => ?_
    by_cases hlen : findings.length = c.input.findingIds.length
    · simp only [hlen, ne_eq, not_true_eq_false, if_false]
      refine emits_call (by simp [Justified, DbOp.writes, writesOf]) fun before₃ recs hrecs => ?_
      refine emits_ofExcept (fun actions hactions => ?_) fun _ _ => rejectsUnwritten_of_writes rfl
      have hloaded : c.Loaded [⟨.findPlanByKey c.workspaceId c.input.idempotencyKey, before₁⟩,
          ⟨.findFindings c.workspaceId c.input.findingIds, before₂⟩,
          ⟨.findRecommendations c.workspaceId (List.map (·.id) findings), before₃⟩] actions :=
        ⟨⟨before₁, by simp, hexisting⟩, ⟨findings, recs, before₂, before₃, by simp, hfindings, hlen,
          by simp, hrecs, hactions⟩⟩
      refine emits_attempt (k := fun reply : DbOp.Reply (.createPlan (c.plan actions)) => reply)
        (justified_write rfl hloaded rfl .create) (fun before₄ _ _ => ?_) fun before₄ e he => ?_
      · refine emits_call (justified_write rfl (hloaded.append _) rfl (.audit _))
          fun before₅ _ _ => rejectsUnwritten_ok _
      · have htaken : _ ∧ e = .duplicateKey := taken_of_createIn he
        rw [htaken.2]
        exact rejectsUnwritten_duplicateKey
    · simp only [hlen, ne_eq, not_false_eq_true, if_true]
      exact rejectsUnwritten_of_writes rfl

end PlanCall

/-! ## sync -/

/-- The arguments of a call of `sync`. -/
structure SyncCall where
  config : ApiConfig
  workspaceId : String
  actorId : String
  correlationId : String
  input : SyncInput

namespace SyncCall

variable (c : SyncCall)

def program : DbProg Response :=
  sync c.config c.workspaceId c.actorId c.correlationId c.input

/-- The write for a listed resource. -/
def upsert (i : SyncItem) : DbOp := .upsertResource c.workspaceId i.item i.lastSyncedAt i.newId

/-- Which write may follow which, for what has been listed. -/
inductive Stage (items : List SyncItem) : List DbOp → DbOp → Prop
  | upsert (pre post : List SyncItem) (i : SyncItem) (hitems : items = pre ++ i :: post) :
      Stage items (pre.map c.upsert) (c.upsert i)
  | audit (event : AuditEvent) : Stage items (items.map c.upsert) (.recordAudit event)

/-- What every operation of `sync` relies on; it reads nothing. -/
def Justified (past : Past) (op : DbOp) : Prop :=
  op.writes = true ∧ ∃ items, c.input.discovered = .ok items ∧ c.Stage items (writesOf past) op

/-- How `sync` ends. -/
inductive Ending (past : Past) : Except AppError Response → Prop
  | notListed (e : AppError) (hwrites : writesOf past = []) : Ending past (.error e)
  | rejected (e : AppError) (items pre post : List SyncItem) (i : SyncItem)
      (hlisted : c.input.discovered = .ok items) (hitems : items = pre ++ i :: post)
      (hwrites : writesOf past = (pre ++ [i]).map c.upsert)
      (hrejected : ∃ before, ⟨c.upsert i, before⟩ ∈ past ∧
        (upsertIn before.resources c.workspaceId i.item i.lastSyncedAt i.newId).1 = .error e) :
      Ending past (.error e)
  | done (items : List SyncItem) (upserted : List CloudResource) (event : AuditEvent)
      (hlisted : c.input.discovered = .ok items)
      (hwrites : writesOf past = items.map c.upsert ++ [.recordAudit event]) :
      Ending past (.ok (.synced c.config.CLOUD_PROVIDER upserted))

variable {c} {past : Past} {items : List SyncItem}

/-- The writes of the loop, and how it ends.
SRCLINE: apps/api/src/services/resource-service.ts:31-40 -/
theorem syncLoop_emits {pre rest : List SyncItem} {upserted : List CloudResource}
    (hlisted : c.input.discovered = .ok items) (hitems : items = pre ++ rest)
    (hwrites : writesOf past = pre.map c.upsert) :
    (syncLoop c.workspaceId rest upserted).Emits database c.Justified (fun past result =>
      match result with
      | .ok _ => writesOf past = items.map c.upsert
      | .error e => c.Ending past (.error e)) past := by
  induction rest generalizing pre upserted past with
  | nil =>
      obtain rfl : items = pre := by simpa using hitems
      exact hwrites
  | cons i rest ih =>
      have hnext : ∀ before, writesOf (past ++ [⟨c.upsert i, before⟩]) =
          (pre ++ [i]).map c.upsert := fun before => by
        rw [writesOf_append_write rfl, hwrites, List.map_append, List.map_singleton]
      refine emits_attempt (k := fun reply : DbOp.Reply (c.upsert i) => reply)
        ⟨rfl, items, hlisted, hwrites ▸ .upsert pre rest i hitems⟩ (fun before doc _ => ?_)
        fun before e he => ?_
      · exact ih (by simpa using hitems) (hnext before)
      · exact .rejected e items pre rest i hlisted hitems (hnext before) ⟨before, by simp, he⟩

/-- **`sync` keeps to its stages**, whatever the store is at each of its calls.
SRCLINE: apps/api/src/services/resource-service.ts:25-52 -/
theorem program_emits : c.program.Emits database c.Justified c.Ending [] := by
  unfold program sync
  refine emits_ofExcept (fun items hlisted => ?_) fun e he => .notListed e rfl
  refine Prog.Emits.bind (Prog.Emits.mono (syncLoop_emits hlisted (List.nil_append items).symm rfl)
    (fun _ _ h => h) ?_)
  rintro past result hresult
  cases result with
  | error e => exact hresult
  | ok upserted =>
      refine emits_call ⟨rfl, items, hlisted, hresult ▸ .audit _⟩ fun before _ _ => ?_
      refine .done items upserted (syncAudit c.config c.workspaceId c.actorId c.correlationId
        c.input upserted) hlisted ?_
      rw [writesOf_append_write rfl, hresult]

end SyncCall

/-! ## Requests -/

section Requests

variable (hashToken : String → String) (config : ApiConfig)

/-- What every operation of a request relies on, given what the request performed before. A
refused request performs none. -/
def Justified : Incoming → Past → DbOp → Prop
  | .error _ => fun _ _ => False
  | .ok (.createPlan ws actor correlation input) =>
    PlanCall.Justified ⟨ws, actor, correlation, input⟩
  | .ok (.approve ws planId actor correlation input) =>
    ApproveCall.Justified ⟨hashToken, config, ws, planId, actor, correlation, input⟩
  | .ok (.execute ws planId actor correlation input) =>
    ExecuteCall.Justified ⟨hashToken, config, ws, planId, actor, correlation, input⟩
  | .ok (.sync ws actor correlation input) =>
    SyncCall.Justified ⟨config, ws, actor, correlation, input⟩

/-- How a request ends. -/
def Ending : Incoming → Past → Except AppError Response → Prop
  | .ok (.execute ws planId actor correlation input) =>
    ExecuteCall.Ending ⟨hashToken, config, ws, planId, actor, correlation, input⟩
  | .ok (.sync ws actor correlation input) =>
    SyncCall.Ending ⟨config, ws, actor, correlation, input⟩
  | _ => fun _ _ => True

/-- **Every request keeps to its stages.**
SRCLINE: apps/api/src/services/remediation-service.ts:37-252 -/
theorem program_emits (incoming : Incoming) :
    (incoming.program hashToken config).Emits database (Justified hashToken config incoming)
      (Ending hashToken config incoming) [] := by
  rcases incoming with e | request
  · trivial
  · cases request with
    | createPlan ws actor correlation input =>
        exact PlanCall.program_emits.mono (fun _ _ h => h) fun _ _ _ => trivial
    | approve ws planId actor correlation input =>
        exact ApproveCall.program_emits.mono (fun _ _ h => h) fun _ _ _ => trivial
    | execute ws planId actor correlation input => exact ExecuteCall.program_emits
    | sync ws actor correlation input => exact SyncCall.program_emits

/-- The call behind a plan request. -/
def planCall : Incoming → Option PlanCall
  | .ok (.createPlan ws actor correlation input) => some ⟨ws, actor, correlation, input⟩
  | _ => none

/-- The call behind an approve request. -/
def approveCall : Incoming → Option ApproveCall
  | .ok (.approve ws planId actor correlation input) =>
    some ⟨hashToken, config, ws, planId, actor, correlation, input⟩
  | _ => none

/-- The call behind an execute request. -/
def executeCall : Incoming → Option ExecuteCall
  | .ok (.execute ws planId actor correlation input) =>
    some ⟨hashToken, config, ws, planId, actor, correlation, input⟩
  | _ => none

/-- The call behind a sync request. -/
def syncCall : Incoming → Option SyncCall
  | .ok (.sync ws actor correlation input) => some ⟨config, ws, actor, correlation, input⟩
  | _ => none

end Requests

/-! ## What each kind of write relies on

Which request performs a write, and at which stage: first for any write, then for each kind. -/

section Writes

variable {hashToken : String → String} {config : ApiConfig} {incoming : Incoming}
  {past : Past}

/-- **The call behind a write**, with what the write relies on. -/
theorem justified_cases {op : DbOp} (h : Justified hashToken config incoming past op)
    (hop : op.writes = true) :
    (∃ c actions, planCall incoming = some c ∧ c.Loaded past actions ∧
      c.Stage actions (writesOf past) op) ∨
    (∃ c plan, approveCall hashToken config incoming = some c ∧ c.Loaded past plan ∧
      c.Stage plan (writesOf past) op) ∨
    (∃ c plan matched resources, executeCall hashToken config incoming = some c ∧
      c.Loaded past plan matched resources ∧ c.Stage plan matched resources (writesOf past) op ∧
      ExecuteCall.Recorded past) ∨
    ∃ c items, syncCall config incoming = some c ∧ c.input.discovered = .ok items ∧
      c.Stage items (writesOf past) op := by
  rcases incoming with e | request
  · exact h.elim
  cases request with
  | createPlan ws actor correlation input =>
      change PlanCall.Justified _ past op at h
      rw [PlanCall.Justified, if_pos hop] at h
      obtain ⟨actions, h⟩ := h
      exact Or.inl ⟨_, actions, rfl, h⟩
  | approve ws planId actor correlation input =>
      change ApproveCall.Justified _ past op at h
      rw [ApproveCall.Justified, if_pos hop] at h
      obtain ⟨plan, h⟩ := h
      exact Or.inr (Or.inl ⟨_, plan, rfl, h⟩)
  | execute ws planId actor correlation input =>
      change ExecuteCall.Justified _ past op at h
      rw [ExecuteCall.Justified, if_pos hop] at h
      obtain ⟨plan, matched, resources, h⟩ := h
      exact Or.inr (Or.inr (Or.inl ⟨_, plan, matched, resources, rfl, h⟩))
  | sync ws actor correlation input =>
      obtain ⟨-, items, h⟩ := h
      exact Or.inr (Or.inr (Or.inr ⟨_, items, rfl, h⟩))

/-- What an execute request relies on and how it ends is what its call says. -/
theorem executeCall_eq {c : ExecuteCall} (h : executeCall hashToken config incoming = some c) :
    c.hashToken = hashToken ∧ c.config = config ∧
      Justified hashToken config incoming = c.Justified ∧
      Ending hashToken config incoming = c.Ending := by
  unfold executeCall at h
  split at h
  · cases h; exact ⟨rfl, rfl, rfl, rfl⟩
  · cases h

/-- The program of an execute request is that of its call. -/
theorem executeCall_program {c : ExecuteCall}
    (h : executeCall hashToken config incoming = some c) :
    incoming.program hashToken config = c.program := by
  unfold executeCall at h
  split at h
  · cases h; rfl
  · cases h

/-- Only `createPlan` creates a plan, the one of its call. -/
theorem justified_createPlan {plan : RemediationPlan}
    (h : Justified hashToken config incoming past (.createPlan plan)) :
    ∃ c actions, planCall incoming = some c ∧ c.Loaded past actions ∧ plan = c.plan actions := by
  rcases justified_cases h rfl with ⟨c, actions, hc, hloaded, hstage⟩ | ⟨_, _, _, _, hstage⟩ |
      ⟨_, _, _, _, _, _, hstage, _⟩ | ⟨_, _, _, _, hstage⟩ <;>
    generalize writesOf past = W at hstage <;> cases hstage
  exact ⟨c, actions, hc, hloaded, rfl⟩

/-- Only `approve` creates a token, the one of its call. -/
theorem justified_createApproval {token : ApprovalToken}
    (h : Justified hashToken config incoming past (.createApproval token)) :
    ∃ c, approveCall hashToken config incoming = some c ∧ token = c.approval := by
  rcases justified_cases h rfl with ⟨_, _, _, _, hstage⟩ | ⟨c, _, hc, _, hstage⟩ |
      ⟨_, _, _, _, _, _, hstage, _⟩ | ⟨_, _, _, _, hstage⟩ <;>
    generalize writesOf past = W at hstage <;> cases hstage
  exact ⟨c, hc, rfl⟩

/-- Only `execute` creates executions, saves resources and uses tokens. -/
theorem justified_execute {op : DbOp} (h : Justified hashToken config incoming past op)
    (hop : (∃ execution, op = .createExecution execution) ∨
      (∃ id patch, op = .saveResource id patch) ∨
      ∃ id usedAt, op = .saveApproval id usedAt) :
    ∃ c plan matched resources, executeCall hashToken config incoming = some c ∧
      c.Loaded past plan matched resources ∧ c.Stage plan matched resources (writesOf past) op ∧
      ExecuteCall.Recorded past := by
  have hwrites : op.writes = true := by
    rcases hop with ⟨_, rfl⟩ | ⟨_, _, rfl⟩ | ⟨_, _, rfl⟩ <;> rfl
  rcases justified_cases h hwrites with ⟨_, _, _, _, hstage⟩ | ⟨_, _, _, _, hstage⟩ | hexecute |
    ⟨_, _, _, _, hstage⟩
  · generalize writesOf past = W at hstage
    rcases hop with ⟨_, rfl⟩ | ⟨_, _, rfl⟩ | ⟨_, _, rfl⟩ <;> cases hstage
  · generalize writesOf past = W at hstage
    rcases hop with ⟨_, rfl⟩ | ⟨_, _, rfl⟩ | ⟨_, _, rfl⟩ <;> cases hstage
  · exact hexecute
  · generalize writesOf past = W at hstage
    rcases hop with ⟨_, rfl⟩ | ⟨_, _, rfl⟩ | ⟨_, _, rfl⟩ <;> cases hstage

/-- A plan is saved by `approve`, with no other status than `approved`, or by `execute`, which
claims or settles it. -/
theorem justified_savePlan {id : String} {status : Option PlanStatus}
    (h : Justified hashToken config incoming past (.savePlan id status)) :
    (approveCall hashToken config incoming ≠ none ∧ (status = none ∨ status = some .approved)) ∨
      ∃ c plan matched resources, executeCall hashToken config incoming = some c ∧
        c.Loaded past plan matched resources ∧
        c.Stage plan matched resources (writesOf past) (.savePlan id status) ∧
        ExecuteCall.Recorded past := by
  rcases justified_cases h rfl with ⟨_, _, _, _, hstage⟩ | ⟨c, _, hc, _, hstage⟩ | hexecute |
    ⟨_, _, _, _, hstage⟩
  · generalize writesOf past = W at hstage
    cases hstage
  · generalize writesOf past = W at hstage
    cases hstage
    refine Or.inl ⟨by rw [hc]; simp, ?_⟩
    split
    · exact Or.inl rfl
    · exact Or.inr rfl
  · exact Or.inr hexecute
  · generalize writesOf past = W at hstage
    cases hstage

/-- Only `sync` upserts a resource, one that was listed for it. -/
theorem justified_upsert {ws : String} {item : ListedResource} {lastSyncedAt : Time}
    {newId : String}
    (h : Justified hashToken config incoming past (.upsertResource ws item lastSyncedAt newId)) :
    ∃ c pre i post, syncCall config incoming = some c ∧ ws = c.workspaceId ∧
      c.input.discovered = .ok (pre ++ i :: post) ∧ writesOf past = pre.map c.upsert ∧
      i = ⟨item, lastSyncedAt, newId⟩ := by
  rcases justified_cases h rfl with ⟨_, _, _, _, hstage⟩ | ⟨_, _, _, _, hstage⟩ |
      ⟨_, _, _, _, _, _, hstage, _⟩ | ⟨c, items, hc, hitems, hstage⟩ <;>
    generalize writesOf past = W at hstage ⊢ <;> cases hstage
  next pre post i hsplit => exact ⟨c, pre, i, post, hc, rfl, hsplit ▸ hitems, rfl, rfl⟩

end Writes

end CloudOps.Analysis
