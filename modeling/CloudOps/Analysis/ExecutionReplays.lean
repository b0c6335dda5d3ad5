import CloudOps.Analysis.SingleExecution

/-!
# Whose execution an execute request returns

`execute` first looks for an execution under its idempotency key and returns what it finds. The
plan is not part of that query, so the request is told about the plan that was executed under the
key, whichever plan it names. Past that first call every query names the plan, and an execution
that is returned as new is one of the plan asked about.
-/

set_option autoImplicit false

namespace CloudOps.Analysis

open CloudOps.Computation CloudOps.Model CloudOps.Model.RemediationService

/-! ## The one lookup -/

/-- An execution is looked up by its key before anything else. -/
def LooksUpFirst (past : Past) (op : DbOp) : Prop :=
  ∀ workspaceId key, op = .findExecutionByKey workspaceId key → past = []

/-- The part of `execute` after its checks looks up no execution. -/
theorem executeChecked_looksUpFirst {config : ApiConfig}
    {workspaceId planId actorId correlationId : String} {input : ExecuteInput}
    {plan : RemediationPlan} {matched : ApprovalToken} {past : Past} :
    (executeChecked config workspaceId planId actorId correlationId input plan matched).Emits
      database LooksUpFirst (fun _ _ => True) past := by
  unfold executeChecked RemediationPlanModel.save
  refine emits_call (by simp [LooksUpFirst]) fun _ resources _ => ?_
  refine emits_call (by simp [LooksUpFirst]) fun _ _ _ => ?_
  refine emits_call (by simp [LooksUpFirst]) fun _ _ _ => ?_
  refine Prog.Emits.bind (Prog.Emits.mono (actionLoop_emits (List.nil_append plan.actions).symm rfl
    (List.append_nil _).symm ?_) (fun _ _ h => h) ?_)
  · intro pre action post loop loop' op past' _ _ hstep _ _
    rcases loopStep_writes hstep with h | ⟨_, _, _, _, _, _, h⟩
    · cases h
    · cases h
      simp [LooksUpFirst]
  · rintro past' result -
    cases result with
    | error e => trivial
    | ok loop =>
        refine emits_attempt (by simp [LooksUpFirst]) (fun _ _ _ => ?_) fun _ _ _ => trivial
        refine emits_call (by simp [LooksUpFirst]) fun _ _ _ => ?_
        exact emits_call (by simp [LooksUpFirst]) fun _ _ _ => trivial

/-- `execute` looks up one execution, with its first call.
SRCLINE: apps/api/src/services/remediation-service.ts:135-252 -/
theorem ExecuteCall.program_looksUpFirst (c : ExecuteCall) :
    c.program.Emits database LooksUpFirst (fun _ _ => True) [] := by
  unfold ExecuteCall.program execute
  refine emits_call (fun _ _ _ => rfl) fun _ existing _ => ?_
  cases existing with
  | some execution => trivial
  | none =>
    refine emits_call (by simp [LooksUpFirst]) fun _ plan? _ => ?_
    cases plan? with
    | none => trivial
    | some plan =>
      by_cases happroved : plan.status = .approved
      · simp only [happroved, ne_eq, not_true_eq_false, if_false]
        refine emits_call (by simp [LooksUpFirst]) fun _ approvals _ => ?_
        refine emits_ofExcept (fun matched _ => ?_) fun _ _ => trivial
        cases plan.dryRun with
        | true => exact executeChecked_looksUpFirst
        | false =>
            exact emits_ofExcept (fun _ _ => executeChecked_looksUpFirst) fun _ _ => trivial
      · simp only [happroved, ne_eq, not_false_eq_true, if_true]
        trivial

section Runs

variable {hashToken : String → String} {config : ApiConfig} {db : Database}
  {requests : ℕ → Incoming} {G : ServicePool → PoolEvent → Prop} {s : ServicePool}
  {q : ℕ} {c : ExecuteCall}

/-- **A request that finds an execution under its key returns it**, and does nothing else.
SRCLINE: apps/api/src/services/remediation-service.ts:142-148 -/
theorem found_returned (hs : service.Reaches G (serve hashToken config db requests) s)
    (hc : executeCall hashToken config (requests q) = some c) {before : Database}
    {found : RemediationExecution}
    (hlookup : (q, ⟨.findExecutionByKey c.workspaceId c.input.idempotencyKey, before⟩) ∈ s.history)
    (hfound : before.findExecutionByKey c.workspaceId c.input.idempotencyKey = some found) :
    s.procs q = .ret (.execution found true) := by
  have hprogram : (requests q).program hashToken config = c.program := executeCall_program hc
  have hemits : ((requests q).program hashToken config).Emits database LooksUpFirst
      (fun _ _ => True) [] := hprogram ▸ c.program_looksUpFirst
  have hconforms := Pool.conforms_of_emits hemits hs
  obtain ⟨older, newer, hown⟩ := List.append_of_mem (mem_own.mpr hlookup)
  obtain rfl : older = [] := hconforms.emitted older _ newer hown _ _ rfl
  rcases Pool.first_of_reaches hprogram rfl hs with ⟨hnone, -⟩ | ⟨before', rest, hfirst, hends⟩
  · rw [hnone] at hown
    cases hown
  · rw [hown] at hfirst
    obtain ⟨hev, -⟩ := List.cons.inj hfirst
    obtain ⟨-, rfl⟩ := Event.mk.inj hev
    have hreply : (database.exec (.findExecutionByKey c.workspaceId c.input.idempotencyKey)
        before).1 = some found := hfound
    rw [hreply] at hends
    exact (hends _ rfl).2

/-- What a request returns is an execution stored under its key: the one it has found, or a new
one of its own plan. -/
theorem returned_cases (hs : service.Reaches G (serve hashToken config db requests) s)
    (hc : executeCall hashToken config (requests q) = some c) {response : Response}
    (hreturned : s.procs q = .ret response) :
    ∃ execution replayed, response = .execution execution replayed ∧
      s.store.findExecutionByKey c.workspaceId c.input.idempotencyKey = some execution ∧
      ((∃ before,
          (q, ⟨.findExecutionByKey c.workspaceId c.input.idempotencyKey, before⟩) ∈ s.history ∧
          before.findExecutionByKey c.workspaceId c.input.idempotencyKey = some execution) ∨
        execution.planId = c.planId) := by
  have hending : c.Ending (own q s.history) (.ok response) := by
    rcases (conforms hs q).emits with hemits | hstopped
    · rw [hreturned, (executeCall_eq hc).2.2.2] at hemits
      exact hemits
    · rw [hreturned] at hstopped
      cases hstopped
  cases hending with
  | replayed execution hwrites hfound =>
      obtain ⟨before, hlookup, hfound⟩ := hfound
      obtain ⟨hmem, hws, hkey⟩ := findExecutionByKey_iff.mp hfound
      have hstored := (le_of_reaches hs (mem_own.mp hlookup)).executions execution hmem
      exact ⟨execution, true, rfl, findExecutionByKey_iff.mpr ⟨hstored, hws, hkey⟩,
        Or.inl ⟨before, mem_own.mp hlookup, hfound⟩⟩
  | done plan matched resources loop event hloaded hrun hwrites hrecorded =>
      have hcreate :
          .createExecution (c.execution plan matched loop) ∈ writesOf (own q s.history) :=
        hwrites ▸ List.mem_append_right _ List.mem_cons_self
      obtain ⟨-, before, hev⟩ := mem_writesOf.mp hcreate
      have hcreates : Creates s.history q (c.execution plan matched loop) :=
        ⟨before, mem_own.mp hev, hrecorded _ before hev⟩
      exact ⟨_, false, rfl, findExecutionByKey_iff.mpr ⟨hcreates.stored hs, rfl, rfl⟩,
        Or.inr rfl⟩

/-! ## Answers about another plan -/

/-- Request `q`, a call of `execute`, answers about its plan: it returns no execution of another
plan, and nothing at all if its key has been used for another plan. -/
structure AnswersAboutPlan (c : ExecuteCall) (q : ℕ) (s : ServicePool) : Prop where
  planId : ∀ execution replayed, s.procs q = .ret (.execution execution replayed) →
    execution.planId = c.planId
  otherPlan : ∀ used ∈ s.store.executions, used.workspaceId = c.workspaceId →
    used.idempotencyKey = c.input.idempotencyKey → used.planId ≠ c.planId →
    ∀ response, s.procs q ≠ .ret response

/-- **An execute request answers about its plan** exactly when the execution that it finds under
its key, if there is one, is of that plan.
SRCLINE: apps/api/src/services/remediation-service.ts:135-252,
packages/shared/src/db/models/remediation-execution.ts:4-23 -/
theorem answers_about_plan_iff (hs : service.Reaches G (serve hashToken config db requests) s)
    (hc : executeCall hashToken config (requests q) = some c) :
    AnswersAboutPlan c q s ↔ ∀ before found,
      (q, ⟨.findExecutionByKey c.workspaceId c.input.idempotencyKey, before⟩) ∈ s.history →
      before.findExecutionByKey c.workspaceId c.input.idempotencyKey = some found →
      found.planId = c.planId := by
  constructor
  · intro hanswers before found hlookup hfound
    exact hanswers.planId found true (found_returned hs hc hlookup hfound)
  · intro hown
    have hplan : ∀ response, s.procs q = .ret response → ∃ execution replayed,
        response = .execution execution replayed ∧ execution.planId = c.planId ∧
          s.store.findExecutionByKey c.workspaceId c.input.idempotencyKey = some execution := by
      intro response hreturned
      obtain ⟨execution, replayed, rfl, hstored, hfrom⟩ := returned_cases hs hc hreturned
      rcases hfrom with ⟨before, hlookup, hfound⟩ | hid
      · exact ⟨execution, replayed, rfl, hown before execution hlookup hfound, hstored⟩
      · exact ⟨execution, replayed, rfl, hid, hstored⟩
    constructor
    · intro execution replayed hreturned
      obtain ⟨_, _, heq, hid, -⟩ := hplan _ hreturned
      cases heq
      exact hid
    · intro used hmem hws hkey hother response hreturned
      obtain ⟨execution, _, -, hid, hstored⟩ := hplan _ hreturned
      have hused := findExecutionByKey_iff.mpr ⟨hmem, hws, hkey⟩
      obtain rfl := Option.some.inj (hused.symm.trans hstored)
      exact hother hid

end Runs

/-! ## One key for two plans -/

/-- Two plans are made; the first is approved and executed, then the second is to be executed
under the same key. -/
def oneKeyRequests : ℕ → Incoming
  | 0 => .ok <| .createPlan "ws" "operator" "c-0" ⟨["f-1"], false, "plan-key", "p-1", 0⟩
  | 1 => .ok <| .createPlan "ws" "operator" "c-1" ⟨["f-1"], true, "plan-key-2", "p-2", 0⟩
  | 2 => .ok <| .approve "ws" "p-1" "admin" "c-2" ⟨"approval-token-01", "t-1", 0, 0⟩
  | 3 => .ok <| .execute "ws" "p-1" "operator" "c-3"
    ⟨"approval-token-01", "key-0001", 1, 1, 2, 2, "e-1", 3⟩
  | _ => .ok <| .execute "ws" "p-2" "operator" "c-4"
    ⟨"approval-token-01", "key-0001", 4, 4, 5, 5, "e-2", 6⟩

/-- The requests one after the other. -/
def oneAfterOther : List PoolEvent :=
  List.replicate 5 (.run 0) ++ List.replicate 5 (.run 1) ++ List.replicate 4 (.run 2) ++
    List.replicate 10 (.run 3) ++ [.run 4]

/-- The state after them. -/
def oneKeyPool : ServicePool :=
  (service.run (serve (fun token => token) ⟨.mock, false, 900000⟩ bucketStore oneKeyRequests)
    oneAfterOther).get (by decide +kernel)

/-- The plan of the execution that a program has returned. -/
def returnedPlan : DbProg Response → Option String
  | .ret (.execution execution _) => some execution.planId
  | _ => none

/-- A request that has returned a plan's execution has returned an execution of that plan. -/
theorem returnedPlan_eq {p : DbProg Response} {planId : String}
    (h : returnedPlan p = some planId) :
    ∃ execution replayed, p = .ret (.execution execution replayed) ∧
      execution.planId = planId := by
  unfold returnedPlan at h
  split at h
  · exact ⟨_, _, rfl, Option.some.inj h⟩
  · cases h

/-- The request that has executed its plan answers about it. -/
theorem answers_about_plan_first : ∃ c, executeCall (fun token => token) ⟨.mock, false, 900000⟩
    (oneKeyRequests 3) = some c ∧ AnswersAboutPlan c 3 oneKeyPool := by
  have hs : service.Reaches Machine.unguarded (serve (fun token => token) ⟨.mock, false, 900000⟩
      bucketStore oneKeyRequests) oneKeyPool :=
    Machine.reaches_of_run oneAfterOther (Option.some_get _).symm
  have hnone : oneKeyPool.history.all (fun entry => entry.1 != 3 ||
      (entry.2.before.findExecutionByKey "ws" "key-0001").all (·.planId == "p-1")) = true := by
    decide +kernel
  refine ⟨_, rfl, (answers_about_plan_iff hs rfl).mpr fun before found hlookup hfound => ?_⟩
  have hentry := List.all_eq_true.mp hnone _ hlookup
  have hfound' : before.findExecutionByKey "ws" "key-0001" = some found := hfound
  simpa [hfound'] using hentry

/-- **One key for two plans**: the request for the second plan returns the execution of the
first, as a replay. -/
theorem answers_about_other_plan :
    ∃ c, executeCall (fun token => token) ⟨.mock, false, 900000⟩ (oneKeyRequests 4) = some c ∧
      service.Reaches Machine.unguarded (serve (fun token => token) ⟨.mock, false, 900000⟩
        bucketStore oneKeyRequests) oneKeyPool ∧
      ¬ AnswersAboutPlan c 4 oneKeyPool := by
  refine ⟨_, rfl, Machine.reaches_of_run oneAfterOther (Option.some_get _).symm, ?_⟩
  intro hanswers
  have hplan : returnedPlan (oneKeyPool.procs 4) = some "p-1" := by decide +kernel
  obtain ⟨execution, replayed, hreturned, hid⟩ := returnedPlan_eq hplan
  have hsame : execution.planId = "p-2" := hanswers.planId execution replayed hreturned
  exact absurd (hid.symm.trans hsame) (by decide)

end CloudOps.Analysis
