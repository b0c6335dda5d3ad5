import CloudOps.Analysis.ServiceRuns

/-!
# At most one execution per plan

`execute` reads the plan as approved, and claims it with a save several calls later; the
save looks at nothing. Two requests that both read before either claims run the plan's
actions twice and leave two execution records under one token (`not_executed_once`).

`executed_once` is what the design needs: as long as a claim finds the plan approved, and
an approval is not saved over a claim, every plan is claimed by at most one request. All
else follows, since a request writes resources and its record only after its claim.
-/

set_option autoImplicit false

namespace CloudOps.Analysis

open CloudOps.Computation CloudOps.Model CloudOps.Model.RemediationService

/-- Plans are executed once: one record, one request that runs the actions on the stored
resources, and one record for a token. -/
structure ExecutedOnce (hashToken : String → String) (config : ApiConfig)
    (requests : ℕ → Incoming) (s : ServicePool) : Prop where
  records : ∀ e ∈ s.store.executions, ∀ e' ∈ s.store.executions, e.planId = e'.planId → e = e'
  actions : ∀ q q' c c' id id', executeCall hashToken config (requests q) = some c →
    executeCall hashToken config (requests q') = some c' → c.planId = c'.planId →
    Saves s.history q id → Saves s.history q' id' → q = q'
  tokens : ∀ e ∈ s.store.executions, ∀ e' ∈ s.store.executions,
    e.approvalTokenId = e'.approvalTokenId → e = e'

/-- In runs under the guard `G` plans are executed once, whatever requests interleave. -/
def ExecutesOnce (hashToken : String → String) (config : ApiConfig)
    (G : ServicePool → PoolEvent → Prop) : Prop :=
  ∀ db requests s, NoPlans db → service.Reaches G (serve hashToken config db requests) s →
    ExecutedOnce hashToken config requests s

/-- The condition on a step that saves the status of a plan: a claim finds the plan approved,
an approval finds it awaiting approval or approved. -/
def LandsOnOpenPlan (s : ServicePool) (e : PoolEvent) : Prop :=
  ∀ q id status, s.Performs e q (.savePlan id (some status)) →
    ∀ plan ∈ s.store.plans, plan.id = id →
      (status = .executing → plan.status = .approved) ∧
        (status = .approved → approvable plan.status = true)

/-- The invariant of the claims: an open plan has none, and no plan has two. -/
structure ClaimInv (db : Database) (history : History) : Prop where
  openPlan : ∀ plan ∈ db.plans, approvable plan.status = true →
    ∀ q, ¬ Claimed history q plan.id
  unique : ∀ q q' id, Claimed history q id → Claimed history q' id → q = q'
  known : ∀ q id, Claimed history q id → ∃ plan ∈ db.plans, plan.id = id

variable {hashToken : String → String} {config : ApiConfig} {db : Database}
  {requests : ℕ → Incoming} {G : ServicePool → PoolEvent → Prop} {s : ServicePool}
  {e : PoolEvent} {q : ℕ} {op : DbOp}

/-- Settling a plan leaves it closed. -/
theorem finalStatus_closed (status : ExecutionStatus) :
    approvable (finalStatus status) = false := by
  unfold finalStatus
  split <;> rfl

/-- **The step lemma of the claims.**
SRCLINE: apps/api/src/services/remediation-service.ts:102-252 -/
theorem claimInv_step (hs : service.Reaches G (serve hashToken config db requests) s)
    (hG : LandsOnOpenPlan s e) (hp : s.Performs e q op) (hinv : ClaimInv s.store s.history) :
    ClaimInv (op.exec s.store).2 (s.history ++ [(q, ⟨op, s.store⟩)]) where
  openPlan := by
    intro plan' hmem hopen q' hclaimed
    rcases mem_plans_exec hmem with hold | ⟨rfl, hfree⟩ | ⟨plan, hold, status, rfl, rfl⟩
    · rcases claimed_append hclaimed with hbefore | ⟨-, rfl⟩
      · exact hinv.openPlan plan' hold hopen q' hbefore
      · -- a claim leaves no open plan with its id
        rw [status_savePlan hmem] at hopen
        simp [approvable] at hopen
    · rcases claimed_append hclaimed with hbefore | ⟨-, hop⟩
      · obtain ⟨plan, hplan, hid⟩ := hinv.known q' plan'.id hbefore
        exact hfree ⟨plan, hplan, Or.inl hid⟩
      · cases hop
    · rcases claimed_append hclaimed with hbefore | ⟨-, hop⟩
      · rcases justified_savePlan (justified_next hs hp) with ⟨-, hstatus⟩ |
          ⟨c, p, m, r, -, -, hstage, -⟩
        · obtain rfl : status = .approved := by simpa using hstatus
          have hwasOpen := (hG q plan.id _ hp plan hold rfl).2 rfl
          exact hinv.openPlan plan hold hwasOpen q' hbefore
        · obtain ⟨-, ⟨-, hstatus⟩ | ⟨loop, -, -, hstatus⟩⟩ := hstage.savePlan
          · obtain rfl : status = .executing := Option.some.inj hstatus
            simp [approvable] at hopen
          · obtain rfl := Option.some.inj hstatus
            rw [finalStatus_closed] at hopen
            cases hopen
      · obtain ⟨-, hstatus⟩ := DbOp.savePlan.inj hop
        obtain rfl : status = .executing := Option.some.inj hstatus
        simp [approvable] at hopen
  unique := by
    intro q₁ q₂ id h₁ h₂
    rcases claimed_append h₁ with hold₁ | ⟨rfl, hop₁⟩
    · rcases claimed_append h₂ with hold₂ | ⟨rfl, hop₂⟩
      · exact hinv.unique q₁ q₂ id hold₁ hold₂
      · obtain ⟨plan, hplan, rfl⟩ := hinv.known q₁ id hold₁
        have happ := (hG q₂ plan.id _ (hop₂ ▸ hp) plan hplan rfl).1 rfl
        exact absurd hold₁ (hinv.openPlan plan hplan (by simp [approvable, happ]) q₁)
    · rcases claimed_append h₂ with hold₂ | ⟨rfl, -⟩
      · obtain ⟨plan, hplan, rfl⟩ := hinv.known q₂ id hold₂
        have happ := (hG q₁ plan.id _ (hop₁ ▸ hp) plan hplan rfl).1 rfl
        exact absurd hold₂ (hinv.openPlan plan hplan (by simp [approvable, happ]) q₂)
      · rfl
  known := by
    intro q' id hclaimed
    have hle := Database.le_exec op s.store
    rcases claimed_append hclaimed with hbefore | ⟨rfl, rfl⟩
    · obtain ⟨plan, hplan, rfl⟩ := hinv.known q' id hbefore
      obtain ⟨plan', hplan', heq⟩ := hle.plans plan hplan
      exact ⟨plan', hplan', by rw [heq]⟩
    · rcases justified_savePlan (justified_next hs hp) with ⟨-, hstatus⟩ |
        ⟨c, p, m, r, -, hloaded, hstage, -⟩
      · simp at hstatus
      · obtain ⟨-, -, ⟨plan, hplan, heq⟩, -⟩ := hloaded.stored hs fun ev => mem_own.mp
        obtain ⟨plan', hplan', heq'⟩ := hle.plans plan hplan
        refine ⟨plan', hplan', ?_⟩
        rw [heq', heq, hstage.savePlan.1]

/-- The claims of a run. -/
theorem claimInv (hdb : NoPlans db)
    (hs : service.Reaches LandsOnOpenPlan (serve hashToken config db requests) s) :
    ClaimInv s.store s.history := by
  refine Pool.invariant_of_performs (I := ClaimInv) hs ⟨?_, ?_, ?_⟩ ?_
  · intro plan hplan
    simp [serve, Pool.initial, hdb.plans] at hplan
  · intro q q' id h
    obtain ⟨before, hmem⟩ := h
    exact absurd hmem List.not_mem_nil
  · intro q id h
    obtain ⟨before, hmem⟩ := h
    exact absurd hmem List.not_mem_nil
  · intro t e q op ht hG hp hinv
    exact claimInv_step ht hG hp hinv

/-- **Plans are executed once** in every run in which each claim finds its plan approved and
no approval is saved over a claim.
SRCLINE: apps/api/src/services/remediation-service.ts:102-252, docs/threat-model.md:27-31 -/
theorem executed_once (hashToken : String → String) (config : ApiConfig) :
    ExecutesOnce hashToken config LandsOnOpenPlan := by
  intro db requests s hdb hs
  have hinv := claimInv hdb hs
  have hrecords : ∀ e ∈ s.store.executions, ∃ q, Records s.history q e := fun e he =>
    (stored_created hs (fun execution => by simp [hdb.executions]) e he).imp fun _ h => h.records
  have hone : ∀ e ∈ s.store.executions, ∀ e' ∈ s.store.executions, e.planId = e'.planId →
      e = e' := by
    intro e he e' he' hplan
    obtain ⟨q, hq⟩ := hrecords e he
    obtain ⟨q', hq'⟩ := hrecords e' he'
    obtain ⟨hclaim, -⟩ := records_claimed hs hq
    obtain ⟨hclaim', -⟩ := records_claimed hs hq'
    obtain rfl := hinv.unique q q' e.planId hclaim (hplan ▸ hclaim')
    exact records_once hs hq hq'
  refine ⟨hone, ?_, ?_⟩
  · intro q q' c c' id id' hc hc' hplan hsave hsave'
    obtain ⟨c₁, hc₁, hclaim⟩ := saves_claimed hs hsave
    obtain ⟨c₂, hc₂, hclaim'⟩ := saves_claimed hs hsave'
    obtain rfl := Option.some.inj (hc.symm.trans hc₁)
    obtain rfl := Option.some.inj (hc'.symm.trans hc₂)
    exact hinv.unique q q' c.planId hclaim (hplan ▸ hclaim')
  · intro e he e' he' htoken
    obtain ⟨q, hq⟩ := hrecords e he
    obtain ⟨q', hq'⟩ := hrecords e' he'
    obtain ⟨-, token, hmem, hid, hplan⟩ := records_claimed hs hq
    obtain ⟨-, token', hmem', hid', hplan'⟩ := records_claimed hs hq'
    obtain rfl := Collection.eq_of_id hmem hmem' (hid.trans (htoken.trans hid'.symm))
    exact hone e he e' he' (hplan.symm.trans hplan')

/-! ## Two requests that both read before either claims -/

/-- A public bucket. -/
def bucket : CloudResource :=
  ⟨"r-1", "ws", .mock, .s3, "eu-west-1", "arn:aws:s3:::assets", "assets", Dict.empty,
    ⟨some true, none, none, none, none, none, none⟩,
    ⟨none, none, none, none, none, none, none⟩, 0, 1⟩

/-- A store with the bucket and the finding about it. -/
def bucketStore : Database where
  jobs := Collection.empty
  resources := ⟨[bucket], by simp, by simp⟩
  findings := ⟨[⟨"f-1", "ws", "job-1", "r-1", "s3.public_access", "high", "", "", "", "c-job", 0⟩],
    by simp, by simp⟩
  recommendations := Collection.empty
  plans := Collection.empty
  tokens := Collection.empty
  executions := Collection.empty
  healthChecks := []
  audits := []

/-- A plan, its approval, and execute requests for it under two idempotency keys. -/
def bucketRequests : ℕ → Incoming
  | 0 => .ok <| .createPlan "ws" "operator" "c-0" ⟨["f-1"], false, "plan-key", "p-1", 0⟩
  | 1 => .ok <| .approve "ws" "p-1" "admin" "c-1" ⟨"approval-token-01", "t-1", 0, 0⟩
  | 2 => .ok <| .execute "ws" "p-1" "operator" "c-2"
    ⟨"approval-token-01", "key-0001", 1, 1, 2, 2, "e-1", 3⟩
  | _ => .ok <| .execute "ws" "p-1" "operator" "c-3"
    ⟨"approval-token-01", "key-0002", 1, 1, 2, 2, "e-2", 3⟩

/-- The plan is made and approved; requests 2 and 3 both make their four reads, then both go
on to their end. -/
def bothRead : List PoolEvent :=
  List.replicate 5 (.run 0) ++ List.replicate 4 (.run 1) ++ List.replicate 4 (.run 2) ++
    List.replicate 4 (.run 3) ++ List.replicate 6 (.run 2) ++ List.replicate 6 (.run 3)

/-- Two execute requests with one token leave two execution records of one plan.
SRCLINE: apps/api/src/services/remediation-service.ts:150-170 -/
theorem not_executed_once : ¬ ExecutesOnce (fun token => token) ⟨.mock, false, 900000⟩
    Machine.unguarded := by
  intro h
  let s := (service.run (serve (fun token => token) ⟨.mock, false, 900000⟩ bucketStore
    bucketRequests) bothRead).get (by decide +kernel)
  have hs : service.Reaches Machine.unguarded (serve (fun token => token) ⟨.mock, false, 900000⟩
      bucketStore bucketRequests) s :=
    Machine.reaches_of_run bothRead (Option.some_get _).symm
  have hids : s.store.executions.docs.map (fun e => (e.id, e.planId)) =
      [("e-1", "p-1"), ("e-2", "p-1")] := by decide +kernel
  clear_value s
  have hone := (h bucketStore bucketRequests s ⟨rfl, rfl, rfl⟩ hs).records
  obtain ⟨e, he, heq⟩ := List.mem_map.mp (hids ▸ List.mem_cons_self)
  obtain ⟨e', he', heq'⟩ :=
    List.mem_map.mp (hids ▸ List.mem_cons_of_mem _ (List.mem_singleton.mpr rfl))
  obtain rfl := hone e he e' he' ((congrArg Prod.snd heq).trans (congrArg Prod.snd heq').symm)
  exact absurd ((congrArg Prod.fst heq).symm.trans (congrArg Prod.fst heq')) (by decide)

/-! ## A second request that reads after the claim -/

/-- Whether the save of a status finds the plan as the condition wants it. -/
def landsOnOpenPlan (s : ServicePool) (_ : ℕ) : DbOp → Bool
  | .savePlan id (some status) => s.store.plans.docs.all fun plan => decide (plan.id = id →
    (status = .executing → plan.status = .approved) ∧
      (status = .approved → approvable plan.status = true))
  | _ => true

/-- The check of the calls decides the condition. -/
theorem landsOnOpenPlan_of_check (s : ServicePool) (e : PoolEvent)
    (h : Pool.passes landsOnOpenPlan s e = true) : LandsOnOpenPlan s e :=
  fun _ _ _ hp plan hplan => of_decide_eq_true (List.all_eq_true.mp (hp.passed h) plan hplan)

/-- Request 2 claims the plan; request 3 looks its key and the plan up while the actions run. -/
def readAfterClaim : List PoolEvent :=
  List.replicate 5 (.run 0) ++ List.replicate 4 (.run 1) ++ List.replicate 3 (.run 2) ++
    [.run 3, .run 2, .run 2, .run 3] ++ List.replicate 5 (.run 2)

/-- The requests after that. -/
def readAfterClaimPool : ServicePool :=
  (service.runChecked (Pool.passes landsOnOpenPlan) (serve (fun token => token)
    ⟨.mock, false, 900000⟩ bucketStore bucketRequests) readAfterClaim).get (by decide +kernel)

/-- Both execute requests have ended, the second without a claim, and the plan has one
execution. -/
theorem executed_once_readAfterClaim :
    readAfterClaimPool.store.executions.docs.map (fun e => (e.id, e.planId)) = [("e-1", "p-1")] ∧
      (readAfterClaimPool.procs 2).Ended ∧ (readAfterClaimPool.procs 3).Ended ∧
      ExecutedOnce (fun token => token) ⟨.mock, false, 900000⟩ bucketRequests
        readAfterClaimPool := by
  have hs : service.Reaches LandsOnOpenPlan (serve (fun token => token) ⟨.mock, false, 900000⟩
      bucketStore bucketRequests) readAfterClaimPool :=
    Machine.reaches_of_runChecked landsOnOpenPlan_of_check readAfterClaim (Option.some_get _).symm
  exact ⟨by decide +kernel, by decide +kernel, by decide +kernel,
    executed_once _ _ bucketStore bucketRequests _ ⟨rfl, rfl, rfl⟩ hs⟩

end CloudOps.Analysis
