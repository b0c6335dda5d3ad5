import CloudOps.Analysis.SingleExecution

/-!
# The lifecycle of a plan

A plan is approved, then executed, then completed or failed. `approve` tests the status of
the copy it has loaded and saves later, so its save can land on a plan that has been
executed in the meantime. `plans_monotone` says that nothing else turns a plan back.
-/

set_option autoImplicit false

namespace CloudOps.Analysis

open CloudOps.Computation CloudOps.Model CloudOps.Model.RemediationService

/-- The statuses from an execution on. -/
def begun (status : PlanStatus) : Bool :=
  status == .executing || status == .completed || status == .failed

/-- A begun plan is neither waiting for approval nor approved. -/
theorem begun_ne {status : PlanStatus} (h : begun status = true) :
    status ≠ .awaitingApproval ∧ status ≠ .approved := by
  cases status <;> simp [begun] at h ⊢

/-- A settled plan has begun. -/
theorem begun_finalStatus (status : ExecutionStatus) : begun (finalStatus status) = true := by
  unfold finalStatus
  split <;> rfl

/-- Every save of an approval finds a plan whose execution has not begun. -/
def ApprovesOpenPlan (s : ServicePool) (e : PoolEvent) : Prop :=
  ∀ q id, s.Performs e q (.savePlan id (some .approved)) →
    ∀ plan ∈ s.store.plans, plan.id = id → begun plan.status = false

/-- In runs under a guard, a plan once executing, completed or failed is never again
waiting for approval or approved. -/
def PlansMonotone (hashToken : String → String) (config : ApiConfig)
    (G : ServicePool → PoolEvent → Prop) : Prop :=
  ∀ db requests s t, service.Reaches G (serve hashToken config db requests) s →
    service.Reaches G s t → ∀ plan ∈ s.store.plans, begun plan.status = true →
      ∀ plan' ∈ t.store.plans, plan'.id = plan.id →
        plan'.status ≠ .awaitingApproval ∧ plan'.status ≠ .approved

section Runs

variable {hashToken : String → String} {config : ApiConfig} {db : Database}
  {requests : ℕ → Incoming} {s : ServicePool}

/-- A plan with this id is stored, and its execution has begun. -/
structure Begun (id : String) (db : Database) : Prop where
  stored : ∃ plan ∈ db.plans, plan.id = id
  begun : ∀ plan ∈ db.plans, plan.id = id → begun plan.status = true

/-- **One call keeps a plan begun**, unless it is the save of an approval.
SRCLINE: apps/api/src/services/remediation-service.ts:102-133, 165-241 -/
theorem Begun.step (hs : service.Reaches ApprovesOpenPlan (serve hashToken config db requests) s)
    {e : PoolEvent} {q : ℕ} {op : DbOp} (hG : ApprovesOpenPlan s e) (hp : s.Performs e q op)
    {id : String} (h : Begun id s.store) : Begun id (op.exec s.store).2 where
  stored := by
    obtain ⟨plan, hmem, hid⟩ := h.stored
    obtain ⟨plan', hmem', heq⟩ := (Database.le_exec op s.store).plans plan hmem
    exact ⟨plan', hmem', by rw [heq]; exact hid⟩
  begun := by
    intro plan' hmem hid
    rcases mem_plans_exec hmem with hold | ⟨rfl, hfree⟩ | ⟨plan, hold, status, rfl, rfl⟩
    · exact h.begun plan' hold hid
    · -- an inserted plan has an id of its own
      obtain ⟨plan, hold, hid'⟩ := h.stored
      exact absurd ⟨plan, hold, Or.inl (hid'.trans hid.symm)⟩ hfree
    · have hbegun := h.begun plan hold hid
      rcases justified_savePlan (justified_next hs hp) with ⟨-, hstatus | hstatus⟩ |
        ⟨c, p, matched, resources, -, -, hstage, -⟩
      · cases hstatus
      · obtain rfl := Option.some.inj hstatus
        rw [hG q plan.id hp plan hold rfl] at hbegun
        cases hbegun
      · obtain ⟨-, ⟨-, hstatus⟩ | ⟨loop, -, -, hstatus⟩⟩ := hstage.savePlan
        · obtain rfl := Option.some.inj hstatus
          rfl
        · obtain rfl := Option.some.inj hstatus
          exact begun_finalStatus _

end Runs

/-- **Plans do not turn back** in every run in which each approval is saved on a plan whose
execution has not begun.
SRCLINE: apps/api/src/services/remediation-service.ts:102-133,
packages/shared/src/constants.ts:21-29 -/
theorem plans_monotone (hashToken : String → String) (config : ApiConfig) :
    PlansMonotone hashToken config ApprovesOpenPlan := by
  intro db requests s t hs ht plan hplan hstatus plan' hplan' hid
  have hstart : Begun plan.id s.store := by
    refine ⟨⟨plan, hplan, rfl⟩, fun p hp hpid => ?_⟩
    rw [Collection.eq_of_id hp hplan hpid]
    exact hstatus
  have hend : Begun plan.id t.store :=
    Pool.invariant_of_performs (I := fun store _ => Begun plan.id store) ht hstart
      fun u e q op hu hG hp h => h.step (hs.trans hu) hG hp
  exact begun_ne (hend.begun plan' hplan' hid)

/-! ## An approval that read before the execution and saves after it -/

/-- A plan, two approvals of it, and its execution with the token of the second. -/
def approvedTwice : ℕ → Incoming
  | 0 => .ok <| .createPlan "ws" "operator" "c-0" ⟨["f-1"], false, "plan-key", "p-1", 0⟩
  | 1 => .ok <| .approve "ws" "p-1" "admin" "c-1" ⟨"approval-token-01", "t-1", 0, 0⟩
  | 2 => .ok <| .approve "ws" "p-1" "admin" "c-2" ⟨"approval-token-02", "t-2", 0, 0⟩
  | _ => .ok <| .execute "ws" "p-1" "operator" "c-3"
      ⟨"approval-token-02", "key-0001", 1, 1, 2, 2, "e-1", 3⟩

/-- The first approval reads the plan; the second approves it and the execution completes it. -/
def readBeforeExecution : List PoolEvent :=
  List.replicate 5 (.run 0) ++ [.run 1] ++ List.replicate 4 (.run 2) ++ List.replicate 10 (.run 3)

/-- The first approval lands on the completed plan and approves it again.
SRCLINE: apps/api/src/services/remediation-service.ts:102-118 -/
theorem plans_not_monotone : ¬ PlansMonotone (fun token => token) ⟨.mock, false, 900000⟩
    Machine.unguarded := by
  intro h
  let start := serve (fun token => token) ⟨.mock, false, 900000⟩ bucketStore approvedTwice
  let s := (service.run start readBeforeExecution).get (by decide +kernel)
  have hs : service.Reaches Machine.unguarded start s :=
    Machine.reaches_of_run readBeforeExecution (Option.some_get _).symm
  let t := (service.run s (List.replicate 2 (.run 1))).get (by decide +kernel)
  have ht : service.Reaches Machine.unguarded s t :=
    Machine.reaches_of_run (List.replicate 2 (.run 1)) (Option.some_get _).symm
  have hcompleted : s.store.plans.docs.map (fun p => (p.id, p.status)) =
      [("p-1", .completed)] := by decide +kernel
  have happroved : t.store.plans.docs.map (fun p => (p.id, p.status)) =
      [("p-1", .approved)] := by decide +kernel
  obtain ⟨plan, hplan, heq⟩ := List.mem_map.mp (hcompleted ▸ List.mem_cons_self)
  obtain ⟨plan', hplan', heq'⟩ := List.mem_map.mp (happroved ▸ List.mem_cons_self)
  have hstatus : plan.status = .completed := congrArg Prod.snd heq
  have hbegun : begun plan.status = true := by rw [hstatus]; rfl
  have hid : plan'.id = plan.id := (congrArg Prod.fst heq').trans (congrArg Prod.fst heq).symm
  exact (h _ _ s t hs ht plan hplan hbegun plan' hplan' hid).2 (congrArg Prod.snd heq')

/-! ## An approval that reads after the execution has begun -/

/-- Whether the save of an approval finds a plan whose execution has not begun. -/
def approvesOpenPlan (s : ServicePool) (_ : ℕ) : DbOp → Bool
  | .savePlan id (some .approved) => s.store.plans.docs.all fun plan =>
    decide (plan.id = id → begun plan.status = false)
  | _ => true

/-- The check of the calls decides the condition. -/
theorem approvesOpenPlan_of_check (s : ServicePool) (e : PoolEvent)
    (h : Pool.passes approvesOpenPlan s e = true) : ApprovesOpenPlan s e :=
  fun _ _ hp plan hplan => of_decide_eq_true (List.all_eq_true.mp (hp.passed h) plan hplan)

/-- The second approval approves the plan and the execution claims it. -/
def untilClaimed : List PoolEvent :=
  List.replicate 5 (.run 0) ++ List.replicate 4 (.run 2) ++ List.replicate 5 (.run 3)

/-- The first approval reads the plan between the calls of the execution. -/
def readAfterBegin : List PoolEvent :=
  List.replicate 2 (.run 3) ++ [.run 1] ++ List.replicate 3 (.run 3)

/-- The requests when the plan is executing. -/
def claimedPool : ServicePool :=
  (service.runChecked (Pool.passes approvesOpenPlan) (serve (fun token => token)
    ⟨.mock, false, 900000⟩ bucketStore approvedTwice) untilClaimed).get (by decide +kernel)

/-- The requests when they have ended. -/
def completedPool : ServicePool :=
  (service.runChecked (Pool.passes approvesOpenPlan) claimedPool readAfterBegin).get
    (by decide +kernel)

/-- The plan is completed, and not approved again. -/
theorem plans_monotone_readAfterBegin : ∃ plan ∈ claimedPool.store.plans,
    plan.status = .executing ∧ ∃ plan' ∈ completedPool.store.plans, plan'.id = plan.id ∧
      plan'.status = .completed ∧ (completedPool.procs 1).Ended ∧
      plan'.status ≠ .awaitingApproval ∧ plan'.status ≠ .approved := by
  have hs : service.Reaches ApprovesOpenPlan (serve (fun token => token) ⟨.mock, false, 900000⟩
      bucketStore approvedTwice) claimedPool :=
    Machine.reaches_of_runChecked approvesOpenPlan_of_check untilClaimed (Option.some_get _).symm
  have ht : service.Reaches ApprovesOpenPlan claimedPool completedPool :=
    Machine.reaches_of_runChecked approvesOpenPlan_of_check readAfterBegin
      (Option.some_get _).symm
  have hclaimed : claimedPool.store.plans.docs.map (fun p => (p.id, p.status)) =
      [("p-1", .executing)] := by decide +kernel
  have hcompleted : completedPool.store.plans.docs.map (fun p => (p.id, p.status)) =
      [("p-1", .completed)] := by decide +kernel
  obtain ⟨plan, hplan, heq⟩ := List.mem_map.mp (hclaimed ▸ List.mem_singleton_self _)
  obtain ⟨plan', hplan', heq'⟩ := List.mem_map.mp (hcompleted ▸ List.mem_singleton_self _)
  have hstatus : plan.status = .executing := congrArg Prod.snd heq
  have hid : plan'.id = plan.id := (congrArg Prod.fst heq').trans (congrArg Prod.fst heq).symm
  exact ⟨plan, hplan, hstatus, plan', hplan', hid, congrArg Prod.snd heq', by decide +kernel,
    plans_monotone _ _ _ _ claimedPool completedPool hs ht plan hplan (by rw [hstatus]; rfl) plan'
      hplan' hid⟩

end CloudOps.Analysis
