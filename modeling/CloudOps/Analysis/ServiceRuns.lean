import CloudOps.Analysis.RequestStages
import CloudOps.Analysis.DatabaseSteps

/-!
# Runs of the remediation service

Any number of requests interleave at their database calls (`serve`). What the stages say of
one request is read here off the history of a run: who has claimed a plan, who has created
an execution, who has saved a resource, and what each of them had read before.
-/

set_option autoImplicit false

namespace CloudOps.Analysis

open CloudOps.Computation CloudOps.Model CloudOps.Model.RemediationService

/-- Requests in flight on the database. -/
abbrev ServicePool : Type := Pool DbOp DbOp.Reply Database AppError Response

/-- The calls that have been performed, each with its request. -/
abbrev History : Type := List (ℕ × Event DbOp Database)

/-- The machine that interleaves requests at their database calls; a write may fail. -/
abbrev service : Machine ServicePool PoolEvent := Pool.machine database faults

/-- Requests none of which has begun. -/
def serve (hashToken : String → String) (config : ApiConfig) (db : Database)
    (requests : ℕ → Incoming) : ServicePool :=
  Pool.initial db fun q => (requests q).program hashToken config

/-- The remediation collections before any request. -/
structure NoPlans (db : Database) : Prop where
  plans : db.plans = Collection.empty
  tokens : db.tokens = Collection.empty
  executions : db.executions = Collection.empty

/-- Request `q` has claimed the plan: it has saved it as executing. -/
def Claimed (history : History) (q : ℕ) (planId : String) : Prop :=
  ∃ before, (q, ⟨.savePlan planId (some .executing), before⟩) ∈ history

/-- Request `q` has created the execution record, or has found its indexes taken. -/
def Records (history : History) (q : ℕ) (execution : RemediationExecution) : Prop :=
  ∃ before, (q, ⟨.createExecution execution, before⟩) ∈ history

/-- Request `q` has created the execution record. -/
def Creates (history : History) (q : ℕ) (execution : RemediationExecution) : Prop :=
  ∃ before, (q, ⟨.createExecution execution, before⟩) ∈ history ∧
    ¬ before.executions.Conflicts execution

/-- A creation that succeeds is a record. -/
theorem Creates.records {history : History} {q : ℕ} {execution : RemediationExecution}
    (h : Creates history q execution) : Records history q execution :=
  h.imp fun _ hevent => hevent.1

/-- Request `q` has saved resource `id`. -/
def Saves (history : History) (q : ℕ) (id : String) : Prop :=
  ∃ patch before, (q, ⟨.saveResource id patch, before⟩) ∈ history

/-- A claim stays in the history. -/
theorem Claimed.append {history : History} {q : ℕ} {planId : String}
    (h : Claimed history q planId) (new : History) : Claimed (history ++ new) q planId :=
  h.imp fun _ hmem => List.mem_append_left _ hmem

/-- Who has claimed a plan after one more call. -/
theorem claimed_append {history : History} {q q' : ℕ} {op : DbOp} {before : Database}
    {planId : String} (h : Claimed (history ++ [(q', ⟨op, before⟩)]) q planId) :
    Claimed history q planId ∨ (q = q' ∧ op = .savePlan planId (some .executing)) := by
  obtain ⟨before', hmem⟩ := h
  rcases List.mem_append.mp hmem with hold | hnew
  · exact Or.inl ⟨before', hold⟩
  · obtain ⟨rfl, heq⟩ := Prod.mk.inj (List.mem_singleton.mp hnew)
    obtain ⟨rfl, -⟩ := Event.mk.inj heq
    exact Or.inr ⟨rfl, rfl⟩

/-- Every write of `execute` but the claim comes after the claim. -/
theorem ExecuteCall.Stage.claim_mem {c : ExecuteCall} {plan : RemediationPlan}
    {matched : ApprovalToken} {resources : List CloudResource} {W : List DbOp} {op : DbOp}
    (h : c.Stage plan matched resources W op) (hop : op ≠ .savePlan plan.id (some .executing)) :
    .savePlan plan.id (some .executing) ∈ W := by
  cases h with
  | claim => exact absurd rfl hop
  | use => exact List.mem_singleton.mpr rfl
  | act pre post action loop resource state result _ _ _ _ _ =>
      simp [ExecuteCall.writesUpTo, ExecuteCall.opening]
  | record loop _ => simp [ExecuteCall.writesUpTo, ExecuteCall.opening]
  | settle loop _ => simp [ExecuteCall.writesUpTo, ExecuteCall.opening]
  | audit loop event _ => simp [ExecuteCall.writesUpTo, ExecuteCall.opening]

/-! ## An execute request among any others -/

section Pools

variable {α : Type} {faults : Faults DbOp AppError} {db : Database} {procs : ℕ → DbProg α}
  {G : Pool DbOp DbOp.Reply Database AppError α → PoolEvent → Prop}
  {s : Pool DbOp DbOp.Reply Database AppError α} {q : ℕ}

/-- Documents stay along a run. -/
theorem le_of_reaches (hs : (Pool.machine database faults).Reaches G (Pool.initial db procs) s)
    {ev : Event DbOp Database} (hmem : (q, ev) ∈ s.history) : Database.Le ev.before s.store :=
  (Pool.before_le_of_reaches Database.Le.refl (fun _ _ _ => Database.Le.trans)
    Database.le_exec hs).2 q ev hmem

/-- What an execution call had loaded: its plan and its token are in the store. -/
theorem ExecuteCall.Loaded.stored {c : ExecuteCall} {older : Past} {plan : RemediationPlan}
    {matched : ApprovalToken} {resources : List CloudResource}
    (hs : (Pool.machine database faults).Reaches G (Pool.initial db procs) s)
    (h : c.Loaded older plan matched resources) (hsub : ∀ ev ∈ older, (q, ev) ∈ s.history) :
    plan.id = c.planId ∧ plan.workspaceId = c.workspaceId ∧
      (∃ plan' ∈ s.store.plans, plan' = { plan with status := plan'.status }) ∧
      matched.planId = c.planId ∧ matched.workspaceId = c.workspaceId ∧
      ∃ token ∈ s.store.tokens, token = { matched with usedAt := token.usedAt } := by
  obtain ⟨before, hread, hplan⟩ := h.planRead
  obtain ⟨hmem, hid, hws⟩ := findPlan_mem hplan
  obtain ⟨before', hread', happrovals⟩ := h.approvalsRead
  obtain ⟨hmatched, -, -, -⟩ := checkApproval_ok happrovals
  obtain ⟨hmem', hws', hid'⟩ := mem_findApprovals.mp hmatched
  obtain ⟨token, htoken, heq, -⟩ := (le_of_reaches hs (hsub _ hread')).tokens matched hmem'
  exact ⟨hid, hws, (le_of_reaches hs (hsub _ hread)).plans plan hmem, hid', hws',
    token, htoken, heq⟩

/-- A plan that has been loaded has the actions of a stored one. -/
theorem ExecuteCall.Loaded.allowlisted {c : ExecuteCall} {older : Past}
    {plan : RemediationPlan} {matched : ApprovalToken} {resources : List CloudResource}
    (hs : (Pool.machine database faults).Reaches G (Pool.initial db procs) s)
    (h : c.Loaded older plan matched resources) (hsub : ∀ ev ∈ older, (q, ev) ∈ s.history)
    (hallowed : ∀ plan ∈ s.store.plans, ∀ action ∈ plan.actions,
      action.actionType ∈ ALLOWLISTED_ACTIONS) :
    ∀ action ∈ plan.actions, action.actionType ∈ ALLOWLISTED_ACTIONS := by
  obtain ⟨-, -, ⟨stored, hmem, hsame⟩, -⟩ := h.stored hs hsub
  have hactions : stored.actions = plan.actions := by rw [hsame]
  exact hactions ▸ hallowed stored hmem

/-- A call that creates no plan but of allowlisted actions. -/
def PlansAllowlisted (op : DbOp) : Prop :=
  ∀ plan, op = .createPlan plan → ∀ action ∈ plan.actions, action.actionType ∈ ALLOWLISTED_ACTIONS

/-- **Every action of a stored plan is allowlisted**, if every program creates only such plans and
there were no plans at the start. -/
theorem allowlisted_of_reaches {Q : ℕ → Past → Except AppError α → Prop}
    (hprocs : ∀ q, (procs q).Emits database (fun _ op => PlansAllowlisted op) (Q q) [])
    (hs : (Pool.machine database faults).Reaches G (Pool.initial db procs) s)
    (hdb : ∀ plan, plan ∉ db.plans) : ∀ plan ∈ s.store.plans, ∀ action ∈ plan.actions,
      action.actionType ∈ ALLOWLISTED_ACTIONS := by
  refine Pool.invariant_of_performs (I := fun t _ => ∀ plan ∈ t.plans, ∀ action ∈ plan.actions,
    action.actionType ∈ ALLOWLISTED_ACTIONS) hs (fun plan h => absurd h (hdb plan)) ?_
  intro t e q op ht _ hp ih plan' hmem
  rcases mem_plans_exec hmem with hold | ⟨rfl, -⟩ | ⟨plan, hold, status, rfl, rfl⟩
  · exact ih plan' hold
  · obtain ⟨k, hq⟩ := hp.next
    have hconforms := Pool.conforms_of_emits (hprocs q) ht
    rw [hq] at hconforms
    exact hconforms.next plan' rfl
  · exact ih plan hold

end Pools

/-! ## Requests of the service -/

/-- A request plans nothing but allowlisted actions.
SRCLINE: apps/api/src/services/remediation-service.ts:62-89 -/
theorem justified_allowlisted {hashToken : String → String} {config : ApiConfig}
    {incoming : Incoming} {past : Past} {op : DbOp}
    (h : Justified hashToken config incoming past op) : PlansAllowlisted op := by
  rintro plan rfl
  obtain ⟨c, actions, -, hloaded, rfl⟩ := justified_createPlan h
  exact hloaded.allowlisted

section Runs

variable {hashToken : String → String} {config : ApiConfig} {db : Database}
  {requests : ℕ → Incoming} {G : ServicePool → PoolEvent → Prop} {s : ServicePool}
  {q : ℕ}

/-- Every request of a run keeps to its stages. -/
theorem conforms (hs : service.Reaches G (serve hashToken config db requests) s) (q : ℕ) :
    Pool.Conforms database faults (Justified hashToken config (requests q))
      (Ending hashToken config (requests q)) (s.procs q) (own q s.history) :=
  Pool.conforms_of_reaches (fun q => program_emits hashToken config (requests q)) hs q

/-- What the next call of a request relies on. -/
theorem justified_next (hs : service.Reaches G (serve hashToken config db requests) s)
    {e : PoolEvent} {op : DbOp} (hp : s.Performs e q op) :
    Justified hashToken config (requests q) (own q s.history) op := by
  obtain ⟨k, hq⟩ := hp.next
  have hc := conforms hs q
  rw [hq] at hc
  exact hc.next

/-- What a request has performed so far is part of the history. -/
theorem history_of_older {older newer : Past} {ev ev' : Event DbOp Database} {history : History}
    (hown : own q history = older ++ ev :: newer) (hmem : ev' ∈ older) : (q, ev') ∈ history := by
  rw [← mem_own, hown]
  exact List.mem_append_left _ hmem

/-- A claim among the writes of a request is in the history. -/
theorem claimed_of_older {older : Past} {history : History} {planId : String}
    (hsub : ∀ ev ∈ older, (q, ev) ∈ history)
    (hmem : .savePlan planId (some .executing) ∈ writesOf older) : Claimed history q planId := by
  obtain ⟨_, before, hev⟩ := mem_writesOf.mp hmem
  exact ⟨before, hsub _ hev⟩

/-- **A write of `execute` in a run**: the call behind it, what it had loaded, its stage. -/
theorem execute_event (hs : service.Reaches G (serve hashToken config db requests) s)
    {ev : Event DbOp Database} (hmem : (q, ev) ∈ s.history)
    (hop : (∃ execution, ev.op = .createExecution execution) ∨
      (∃ id patch, ev.op = .saveResource id patch) ∨ ∃ id usedAt, ev.op = .saveApproval id usedAt) :
    ∃ older newer c plan matched resources, own q s.history = older ++ ev :: newer ∧
      executeCall hashToken config (requests q) = some c ∧
      c.Loaded older plan matched resources ∧
      c.Stage plan matched resources (writesOf older) ev.op ∧ ExecuteCall.Recorded older := by
  obtain ⟨older, newer, hown⟩ := List.append_of_mem (mem_own.mpr hmem)
  obtain ⟨c, plan, matched, resources, hrest⟩ :=
    justified_execute ((conforms hs q).emitted older ev newer hown) hop
  exact ⟨older, newer, c, plan, matched, resources, hown, hrest⟩

/-- An execute request reads before it writes. -/
theorem reads_first (hs : service.Reaches G (serve hashToken config db requests) s)
    {c : ExecuteCall} (hc : executeCall hashToken config (requests q) = some c)
    {older newer : History} {ev : Event DbOp Database}
    (hsplit : s.history = older ++ (q, ev) :: newer) (hread : ev.op.writes = false) :
    writesOf (own q older) = [] ∧ c.Reads (own q older) ev.op := by
  have hjustified := (conforms hs q).emitted_at hsplit
  rw [(executeCall_eq hc).2.2.1, ExecuteCall.Justified, if_neg (by simp [hread])] at hjustified
  exact hjustified

/-- **Who creates an execution** has claimed its plan, and holds a token of that plan. -/
theorem records_claimed (hs : service.Reaches G (serve hashToken config db requests) s)
    {execution : RemediationExecution} (h : Records s.history q execution) :
    Claimed s.history q execution.planId ∧
      ∃ token ∈ s.store.tokens, token.id = execution.approvalTokenId ∧
        token.planId = execution.planId := by
  obtain ⟨before, hmem⟩ := h
  obtain ⟨older, newer, c, plan, matched, resources, hown, hcall, hloaded, hstage, -⟩ :=
    execute_event hs hmem (Or.inl ⟨_, rfl⟩)
  have hsub : ∀ ev ∈ older, (q, ev) ∈ s.history := fun ev => history_of_older hown
  obtain ⟨hid, -, -, hplanId, -, token, htoken, heq⟩ := hloaded.stored hs hsub
  have hclaim : Claimed s.history q c.planId :=
    hid ▸ claimed_of_older hsub (hstage.claim_mem (by simp))
  generalize writesOf older = W at hstage
  cases hstage with
  | record loop _ =>
      refine ⟨hclaim, token, htoken, ?_, ?_⟩
      · rw [heq]; rfl
      · rw [heq]; exact hplanId

/-- A request creates at most one execution. -/
theorem records_once (hs : service.Reaches G (serve hashToken config db requests) s)
    {execution execution' : RemediationExecution} (h : Records s.history q execution)
    (h' : Records s.history q execution') : execution = execution' := by
  -- the later of two creations would follow writes among which there is a creation
  have key : ∀ e e' older newer before, own q s.history = older ++ ⟨.createExecution e', before⟩ ::
      newer → ∀ before', ⟨.createExecution e, before'⟩ ∉ older := by
    intro e e' older newer before hown before' hmem
    obtain ⟨c, plan, matched, resources, -, -, hstage, -⟩ :=
      justified_execute ((conforms hs q).emitted older _ newer hown) (Or.inl ⟨e', rfl⟩)
    have hW : DbOp.createExecution e ∈ writesOf older := mem_writesOf.mpr ⟨rfl, before', hmem⟩
    generalize writesOf older = W at hstage hW
    cases hstage with
    | record loop _ => exact ExecuteCall.not_recorded_upTo e hW
  obtain ⟨before, hmem⟩ := h
  obtain ⟨before', hmem'⟩ := h'
  obtain ⟨older, newer, hown⟩ := List.append_of_mem (mem_own.mpr hmem)
  have hother := mem_own.mpr hmem'
  rw [hown] at hother
  rcases List.mem_append.mp hother with hold | hnew
  · exact absurd hold (key _ _ _ _ _ hown _)
  · rcases List.mem_cons.mp hnew with heq | hnew
    · obtain ⟨heq, -⟩ := Event.mk.inj heq
      exact (DbOp.createExecution.inj heq).symm
    · obtain ⟨older', newer', rfl⟩ := List.append_of_mem hnew
      refine absurd ?_ (key execution execution' (older ++ ⟨.createExecution execution, before⟩ ::
        older') newer' before' (by rw [hown]; simp) before)
      simp

/-- Who saves a resource executes a plan it has claimed. -/
theorem saves_claimed (hs : service.Reaches G (serve hashToken config db requests) s)
    {id : String} (h : Saves s.history q id) :
    ∃ c, executeCall hashToken config (requests q) = some c ∧ Claimed s.history q c.planId := by
  obtain ⟨patch, before, hmem⟩ := h
  obtain ⟨older, newer, c, plan, matched, resources, hown, hcall, hloaded, hstage, -⟩ :=
    execute_event hs hmem (Or.inr (Or.inl ⟨_, _, rfl⟩))
  have hsub : ∀ ev ∈ older, (q, ev) ∈ s.history := fun ev => history_of_older hown
  obtain ⟨hid, -⟩ := hloaded.stored hs hsub
  exact ⟨c, hcall, hid ▸ claimed_of_older hsub (hstage.claim_mem (by simp))⟩

/-- An execution in the store was created by some request, if there was none at the start. -/
theorem stored_created (hs : service.Reaches G (serve hashToken config db requests) s)
    (hdb : ∀ execution, execution ∉ db.executions) :
    ∀ execution ∈ s.store.executions, ∃ q, Creates s.history q execution := by
  refine Pool.invariant_of_performs (I := fun t history => ∀ execution ∈ t.executions,
    ∃ q, Creates history q execution) hs (fun e he => absurd he (hdb e)) ?_
  intro t e q op _ _ _ ih execution hmem
  rcases mem_executions_exec hmem with hold | ⟨rfl, hfree⟩
  · obtain ⟨q', before, hev, hfree⟩ := ih execution hold
    exact ⟨q', before, List.mem_append_left _ hev, hfree⟩
  · exact ⟨q, t.store, by simp, hfree⟩

/-- An execution that some request has created is in the store. -/
theorem Creates.stored (hs : service.Reaches G (serve hashToken config db requests) s)
    {execution : RemediationExecution} (h : Creates s.history q execution) :
    execution ∈ s.store.executions := by
  refine Pool.invariant_of_performs (I := fun t history => ∀ q, Creates history q execution →
    execution ∈ t.executions) hs ?_ ?_ q h
  · rintro q ⟨before, hmem, -⟩
    exact absurd hmem List.not_mem_nil
  · intro t e q op _ _ _ ih q' ⟨before, hmem, hfree⟩
    rcases List.mem_append.mp hmem with hold | hnew
    · exact (Database.le_exec op t.store).executions _ (ih q' ⟨before, hold, hfree⟩)
    · obtain ⟨rfl, heq⟩ := Prod.mk.inj (List.mem_singleton.mp hnew)
      obtain ⟨rfl, rfl⟩ := Event.mk.inj heq
      exact mem_createIn.mpr (Or.inr ⟨hfree, rfl⟩)

/-- Every action of a stored plan is allowlisted, if there were no plans at the start. -/
theorem stored_allowlisted (hs : service.Reaches G (serve hashToken config db requests) s)
    (hdb : ∀ plan, plan ∉ db.plans) : ∀ plan ∈ s.store.plans, ∀ action ∈ plan.actions,
      action.actionType ∈ ALLOWLISTED_ACTIONS :=
  allowlisted_of_reaches (fun q => (program_emits hashToken config (requests q)).mono
    (fun _ _ => justified_allowlisted) fun _ _ h => h) hs hdb

end Runs

end CloudOps.Analysis
