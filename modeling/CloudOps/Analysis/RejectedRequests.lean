import CloudOps.Analysis.JobSummaries
import CloudOps.Analysis.ResourceCopies
import CloudOps.Analysis.SingleExecution

/-!
# Rejected requests write nothing

`createPlan`, `approve`, `execute` and `retry` test before they write, but for two tests of
`applySimulatedAction` inside the action loop of `execute`. These never fail: whatever the
API and the worker do, a stored plan contains only allowlisted actions, and on such a plan
the loop returns (`actionLoop_returns`).
-/

set_option autoImplicit false

namespace CloudOps.Analysis

open CloudOps.Computation CloudOps.Model CloudOps.Model.RemediationService
open CloudOps.Model.ResourceService

/-! ## The API and the worker together -/

/-- Everything the API and the worker do that writes to the database. -/
inductive Activity
  | request (incoming : Incoming)
  | worker (c : WorkerCall)

/-- The program of an activity; only its errors matter here. -/
def Activity.program (hashToken : String → String) (config : ApiConfig) : Activity → DbProg Unit
  | .request incoming => do
    let _ ← incoming.program hashToken config
    return ()
  | .worker c => c.program

/-- The calls that are rejected with an error. -/
def Activity.rejectable : Activity → Bool
  | .request (.ok (.createPlan ..)) | .request (.ok (.approve ..)) | .request (.ok (.execute ..)) =>
    true
  | .worker (.retry ..) => true
  | _ => false

/-- Activities in flight on the database. -/
abbrev ActivityPool : Type := Pool DbOp DbOp.Reply Database AppError Unit

section Activities

variable {hashToken : String → String} {config : ApiConfig}

/-- No activity creates a plan but of allowlisted actions. -/
theorem Activity.program_allowlisted (a : Activity) : (a.program hashToken config).Emits database
    (fun _ op => PlansAllowlisted op) (fun _ _ => True) [] := by
  cases a with
  | request incoming =>
      exact (emits_discard (program_emits hashToken config incoming)).mono
        (fun _ _ => justified_allowlisted) fun _ _ _ => trivial
  | worker c =>
      exact c.program_emits.mono (fun _ op h plan hop => absurd hop (h.plans plan)) fun _ _ h => h

/-- **The action loop returns** on allowlisted actions, whatever its calls reply.
SRCLINE: apps/api/src/services/remediation-service.ts:176-220,
packages/shared/src/remediation/engine.ts:5-99 -/
theorem actionLoop_returns {dryRun : Bool} {actions : List RemediationAction} {init : LoopState}
    (h : ∀ action ∈ actions, action.actionType ∈ ALLOWLISTED_ACTIONS) :
    (actionLoop config dryRun actions init).Emits database (fun _ _ => True)
      (fun _ result => ∃ loop, result = .ok loop) [] := by
  have hok : ∃ loop, loopRun config dryRun init actions = .ok loop := loopRun_ok h
  have hpast : writesOf [] = [] ++ loopWrites config dryRun init [] := rfl
  refine (actionLoop_emits (List.nil_append actions).symm rfl hpast ?_).mono (fun _ _ h => h) ?_
  · exact fun _ _ _ _ _ _ _ _ _ _ _ _ => trivial
  · rintro past result ⟨-, -, rfl⟩
    exact hok

/-! ## How a call is rejected -/

/-- A call rejected after a write has failed in the action loop of a plan it had loaded. -/
def RejectsInLoop (past : Past) (result : Except AppError Unit) : Prop :=
  ∀ e, result = .error e → Rejection e → writesOf past = [] ∨
    ∃ (c : ExecuteCall) (plan : RemediationPlan) (matched : ApprovalToken)
      (resources : List CloudResource), c.Loaded past plan matched resources ∧
        loopRun c.config plan.dryRun (loopStart resources) plan.actions = .error e

/-- A rejection before any write is none after a write. -/
theorem RejectsInLoop.of_unwritten {α : Type} {past : Past} {result : Except AppError Unit}
    (h : ∀ e, result = .error e → RejectsUnwritten past (.error e : Except AppError α)) :
    RejectsInLoop past result := fun e he hrejection => Or.inl (h e he e rfl hrejection)

/-- An execution is rejected by its reads or in its action loop.
SRCLINE: apps/api/src/services/remediation-service.ts:135-240 -/
theorem ExecuteCall.Ending.rejects {c : ExecuteCall} {past : Past} {e : AppError}
    (h : c.Ending past (.error e)) (hrejection : Rejection e) : writesOf past = [] ∨
      ∃ plan matched resources, c.Loaded past plan matched resources ∧
        loopRun c.config plan.dryRun (loopStart resources) plan.actions = .error e := by
  cases h with
  | noPlan _ hwrites _ => exact Or.inl hwrites
  | noApproval _ hwrites _ => exact Or.inl hwrites
  | notPermitted _ hwrites _ _ _ _ => exact Or.inl hwrites
  | loopFailed _ plan matched resources hloaded hrun _ =>
      exact Or.inr ⟨plan, matched, resources, hloaded, hrun⟩
  | duplicate _ _ _ _ _ _ _ _ => exact hrejection.elim

/-- **A call is rejected before it writes or in its action loop.**
SRCLINE: apps/api/src/services/remediation-service.ts:37-252,
apps/api/src/services/job-service.ts:81-104 -/
theorem Activity.program_rejects {a : Activity} (ha : a.rejectable = true) :
    (a.program hashToken config).Emits database (fun _ _ => True) RejectsInLoop [] := by
  cases a with
  | worker c =>
      cases c with
      | retry workspaceId id actorId correlationId now auditedAt =>
          exact (emits_discard retry_emits).mono (fun _ _ _ => trivial) fun _ _ => .of_unwritten
      | _ => exact absurd ha (by simp [Activity.rejectable])
  | request incoming =>
      cases incoming with
      | error e => exact absurd ha (by simp [Activity.rejectable])
      | ok request =>
          cases request with
          | createPlan workspaceId actorId correlationId input =>
              have hcall := emits_discard (PlanCall.program_emits
                (c := ⟨workspaceId, actorId, correlationId, input⟩))
              exact hcall.mono (fun _ _ _ => trivial) fun _ _ => .of_unwritten
          | approve workspaceId planId actorId correlationId input =>
              have hcall := emits_discard (ApproveCall.program_emits
                (c := ⟨hashToken, config, workspaceId, planId, actorId, correlationId, input⟩))
              exact hcall.mono (fun _ _ _ => trivial) fun _ _ => .of_unwritten
          | execute workspaceId planId actorId correlationId input =>
              have hcall := emits_discard (ExecuteCall.program_emits
                (c := ⟨hashToken, config, workspaceId, planId, actorId, correlationId, input⟩))
              refine hcall.mono (fun _ _ _ => trivial) fun past result hends e he hrejection => ?_
              exact ((hends e he).rejects hrejection).imp_right fun h => ⟨_, h⟩
          | sync => exact absurd ha (by simp [Activity.rejectable])

/-! ## Runs -/

/-- **Rejected requests write nothing**, whatever else the API and the worker do: every plan they
store contains only allowlisted actions, so that the action loop never fails on one.
SRCLINE: apps/api/src/services/remediation-service.ts:37-252,
apps/api/src/services/job-service.ts:81-104 -/
theorem rejected_writes_nothing {db : Database} {activities : ℕ → Activity}
    {G : ActivityPool → PoolEvent → Prop} {s : ActivityPool} (hdb : ∀ plan, plan ∉ db.plans)
    (hs : (Pool.machine database faults).Reaches G
      (Pool.initial db fun q => (activities q).program hashToken config) s) :
    (∀ q e, (activities q).rejectable = true → s.procs q = .throw e → Rejection e →
      writesOf (own q s.history) = []) ∧
    ∀ plan ∈ s.store.plans,
      (∀ action ∈ plan.actions, action.actionType ∈ ALLOWLISTED_ACTIONS) ∧
      ∀ dryRun init, (actionLoop config dryRun plan.actions init).Emits database
        (fun _ _ => True) (fun _ result => ∃ loop, result = .ok loop) [] := by
  have hallowed : ∀ plan ∈ s.store.plans, ∀ action ∈ plan.actions,
      action.actionType ∈ ALLOWLISTED_ACTIONS :=
    allowlisted_of_reaches (fun q => (activities q).program_allowlisted) hs hdb
  refine ⟨fun q e ha hthrow hrejection => ?_, fun plan hplan =>
    ⟨hallowed plan hplan, fun dryRun init => actionLoop_returns (hallowed plan hplan)⟩⟩
  have hconforms := Pool.conforms_of_emits (Activity.program_rejects ha) hs
  rw [hthrow] at hconforms
  rcases hconforms.emits with hends | hstopped
  · rcases hends e rfl hrejection with hwrites | ⟨c, plan, matched, resources, hloaded, hrun⟩
    · exact hwrites
    -- the loop of a plan that is stored returns
    · have hactions : ∀ action ∈ plan.actions, action.actionType ∈ ALLOWLISTED_ACTIONS :=
        hloaded.allowlisted hs (fun ev => mem_own.mp) hallowed
      exact absurd hrun (loopRun_ne_error hactions)
  -- a failed write is not a rejection
  · cases hstopped
    exact hrejection.elim

end Activities

/-! ## An execution of an executed plan -/

/-- The error a call has ended with. -/
def endedWith : DbProg Unit → Option AppError
  | .throw e => some e
  | _ => none

/-- A program that has ended with an error has thrown it. -/
theorem eq_throw_of_endedWith {p : DbProg Unit} {e : AppError} (h : endedWith p = some e) :
    p = .throw e := by
  cases p with
  | throw e' => exact congrArg _ (Option.some.inj h)
  | call op k => cases h
  | ret _ => cases h

/-- The plan for the bucket is made, approved and executed; then it is to be executed again. -/
def executedAgain : Option ActivityPool :=
  (Pool.machine database faults).run (Pool.initial bucketStore fun q =>
      (Activity.request (bucketRequests q)).program (fun token => token) ⟨.mock, false, 900000⟩)
    (List.replicate 5 (.run 0) ++ List.replicate 4 (.run 1) ++ List.replicate 10 (.run 2) ++
      List.replicate 2 (.run 3))

/-- The second execution is refused and writes nothing. -/
theorem rejected_writes_nothing_again : ∃ s : ActivityPool, (∃ plan, plan ∈ s.store.plans) ∧
    s.procs 3 = .throw (.conflict "Plan must be approved before execution") ∧
      writesOf (own 3 s.history) = [] := by
  let s := executedAgain.get (by decide +kernel)
  have hs : (Pool.machine database faults).Reaches Machine.unguarded
      (Pool.initial bucketStore fun q => (Activity.request (bucketRequests q)).program
        (fun token => token) ⟨.mock, false, 900000⟩) s :=
    Machine.reaches_of_run _ (Option.some_get _).symm
  have hplan : s.store.plans.docs ≠ [] := by decide +kernel
  have hthrow : s.procs 3 = .throw (.conflict "Plan must be approved before execution") :=
    eq_throw_of_endedWith (by decide +kernel)
  have hdb : ∀ plan, plan ∉ bucketStore.plans := fun plan h => absurd h List.not_mem_nil
  have hwrites := (rejected_writes_nothing hdb hs).1 3 _ rfl hthrow trivial
  exact ⟨s, List.exists_mem_of_ne_nil _ hplan, hthrow, hwrites⟩

end CloudOps.Analysis
