import CloudOps.Analysis.ResourceCopies
import CloudOps.Analysis.SingleExecution

/-!
# Every mutation is accounted for

`execute` saves the claim, the token, the resources and the record one after another, and
nothing puts things right when it is stopped in between. A request that fails after its
claim leaves the plan executing for good, and mutations without a record
(`mutations_not_accounted`).

What remains true is `mutations_accounted`: as long as no write of an execution fails once its
plan is claimed, records find their indexes free, and plans are claimed once, a request that
has ended has settled its plan; and a request settles its plan only after it has recorded all
its saves.
-/

set_option autoImplicit false

namespace CloudOps.Analysis

open CloudOps.Computation CloudOps.Model CloudOps.Model.RemediationService CloudOps.Interface

/-- A request is in flight: it has performed a call and has not ended. -/
def InFlight (s : ServicePool) (q : ℕ) : Prop := own q s.history ≠ [] ∧ ¬ (s.procs q).Ended

/-- Every saved resource is recorded and every claimed plan settled, unless the request is still
in flight. -/
structure Accounted (hashToken : String → String) (config : ApiConfig)
    (requests : ℕ → Incoming) (s : ServicePool) : Prop where
  mutations : ∀ q c id, executeCall hashToken config (requests q) = some c →
    Saves s.history q id → ∀ plan ∈ s.store.plans, plan.id = c.planId → plan.dryRun = false →
      InFlight s q ∨
        ((∃ e ∈ s.store.executions, e.planId = plan.id ∧ (e.afterState.get? id).isSome) ∧
        (plan.status = .completed ∨ plan.status = .failed))
  executing : ∀ plan ∈ s.store.plans, plan.status = .executing → ∃ q c,
    executeCall hashToken config (requests q) = some c ∧ c.planId = plan.id ∧ InFlight s q

/-- In runs under the guard `G` every mutation is accounted for. -/
def AccountsForMutations (hashToken : String → String) (config : ApiConfig)
    (G : ServicePool → PoolEvent → Prop) : Prop :=
  ∀ db requests s, NoPlans db → service.Reaches G (serve hashToken config db requests) s →
    Accounted hashToken config requests s

/-- The writes that an execution can lose, or can be stopped after: `applied` says whether the
failed write has reached the store. -/
def harmlessFailure : DbOp → Bool → Bool
  | .savePlan _ (some .executing), applied => !applied
  | .savePlan _ (some .completed), applied | .savePlan _ (some .failed), applied => applied
  | .saveApproval _ _, _ | .saveResource _ _, _ | .createExecution _, _ => false
  | _, _ => true

/-- The condition on a step that fails. -/
def FailsHarmlessly (s : ServicePool) (e : PoolEvent) : Prop :=
  ∀ q applied op k, e = .fail q applied → s.procs q = .call op k → harmlessFailure op applied = true

/-- The condition on a step that records an execution. -/
def RecordsFreely (s : ServicePool) (e : PoolEvent) : Prop :=
  ∀ q execution, s.Performs e q (.createExecution execution) →
    ¬ s.store.executions.Conflicts execution

/-- The condition on the steps of a run in which mutations are accounted for. -/
def Undisturbed (s : ServicePool) (e : PoolEvent) : Prop :=
  LandsOnOpenPlan s e ∧ FailsHarmlessly s e ∧ RecordsFreely s e

/-- Request `q` has settled the plan: it has saved it as completed or failed. -/
def Settled (history : History) (q : ℕ) (planId : String) : Prop :=
  ∃ status before, (q, ⟨.savePlan planId (some status), before⟩) ∈ history ∧
    (status = .completed ∨ status = .failed)

/-- A settlement stays in the history. -/
theorem Settled.append {history : History} {q : ℕ} {planId : String}
    (h : Settled history q planId) (new : History) : Settled (history ++ new) q planId := by
  obtain ⟨status, before, hmem, hstatus⟩ := h
  exact ⟨status, before, List.mem_append_left _ hmem, hstatus⟩

/-- A settlement completes its plan or fails it. -/
theorem finalStatus_cases (status : ExecutionStatus) :
    finalStatus status = .completed ∨ finalStatus status = .failed := by
  unfold finalStatus
  split
  · exact Or.inl rfl
  · exact Or.inr rfl

section Runs

variable {hashToken : String → String} {config : ApiConfig} {db : Database}
  {requests : ℕ → Incoming} {G : ServicePool → PoolEvent → Prop} {s : ServicePool}
  {q : ℕ} {id : String}

/-! ## Claims and settlements in the history -/

/-- **A claim or a settlement in a run**: the execute request behind it, and its stage. -/
theorem savePlan_event (hs : service.Reaches G (serve hashToken config db requests) s)
    {status : PlanStatus} {before : Database}
    (hmem : (q, ⟨.savePlan id (some status), before⟩) ∈ s.history) (hstatus : status ≠ .approved) :
    ∃ older newer c plan matched resources,
      own q s.history = older ++ ⟨.savePlan id (some status), before⟩ :: newer ∧
      executeCall hashToken config (requests q) = some c ∧
      c.Loaded older plan matched resources ∧ c.planId = id ∧ plan.id = id ∧
      ((writesOf older = [] ∧ status = .executing) ∨
        ∃ loop, loopRun c.config plan.dryRun (loopStart resources) plan.actions = .ok loop ∧
          writesOf older = c.writesUpTo plan matched resources plan.actions ++
            [.createExecution (c.execution plan matched loop)] ∧
          status = finalStatus (c.execution plan matched loop).status) := by
  obtain ⟨older, newer, hown⟩ := List.append_of_mem (mem_own.mpr hmem)
  rcases justified_savePlan ((conforms hs q).emitted _ _ _ hown) with ⟨-, happroved⟩ |
    ⟨c, plan, matched, resources, hc, hloaded, hstage, -⟩
  · have : status = .approved := by simpa using happroved
    exact absurd this hstatus
  · obtain ⟨rfl, hsaved⟩ := hstage.savePlan
    obtain ⟨hid, -⟩ := hloaded.stored hs fun ev => history_of_older hown
    refine ⟨older, newer, c, plan, matched, resources, hown, hc, hloaded, hid.symm, rfl, ?_⟩
    simpa using hsaved

/-- Who has claimed a plan executes it. -/
theorem claimed_execute (hs : service.Reaches G (serve hashToken config db requests) s)
    (h : Claimed s.history q id) :
    ∃ c, executeCall hashToken config (requests q) = some c ∧ c.planId = id := by
  obtain ⟨before, hmem⟩ := h
  obtain ⟨_, _, c, _, _, _, -, hc, -, hid, -⟩ := savePlan_event hs hmem (by simp)
  exact ⟨c, hc, hid⟩

/-- A settled plan is in the store. -/
theorem settled_known (hs : service.Reaches G (serve hashToken config db requests) s)
    (h : Settled s.history q id) : ∃ plan ∈ s.store.plans, plan.id = id := by
  obtain ⟨status, before, hmem, hstatus⟩ := h
  obtain ⟨older, newer, c, plan, matched, resources, hown, hc, hloaded, hid, rfl, hstage⟩ :=
    savePlan_event hs hmem (by rcases hstatus with rfl | rfl <;> simp)
  obtain ⟨-, -, ⟨plan', hplan', heq⟩, -⟩ := hloaded.stored hs fun ev => history_of_older hown
  exact ⟨plan', hplan', by rw [heq]⟩

/-- **A settlement comes last**: the loop has gone through, and all its saves and the record
come before. -/
theorem settled_recorded (hs : service.Reaches G (serve hashToken config db requests) s)
    {c : ExecuteCall} (hc : executeCall hashToken config (requests q) = some c)
    (h : Settled s.history q id) : Claimed s.history q id ∧ c.planId = id ∧
      ∃ plan matched resources loop, plan.id = id ∧
        loopRun c.config plan.dryRun (loopStart resources) plan.actions = .ok loop ∧
        Records s.history q (c.execution plan matched loop) ∧
        ∀ id', Saves s.history q id' → ∃ patch, .saveResource id' patch ∈
          loopWrites c.config plan.dryRun (loopStart resources) plan.actions := by
  obtain ⟨status, before, hmem, hstatus⟩ := h
  obtain ⟨older, newer, c', plan, matched, resources, hown, hc', hloaded, hid, rfl, hstage⟩ :=
    savePlan_event hs hmem (by rcases hstatus with rfl | rfl <;> simp)
  obtain rfl : c = c' := Option.some.inj (hc.symm.trans hc')
  obtain ⟨loop, hrun, hwrites, rfl⟩ := hstage.resolve_left (by
    rintro ⟨-, rfl⟩; rcases hstatus with h | h <;> cases h)
  have hsub : ∀ ev ∈ older, (q, ev) ∈ s.history := fun ev => history_of_older hown
  have hclaim : .savePlan plan.id (some .executing) ∈ writesOf older := by
    simp [hwrites, ExecuteCall.writesUpTo, ExecuteCall.opening]
  have hrecord : .createExecution (c.execution plan matched loop) ∈ writesOf older := by
    simp [hwrites]
  obtain ⟨-, before', hev⟩ := mem_writesOf.mp hrecord
  refine ⟨claimed_of_older hsub hclaim, hid, plan, matched, resources, loop, rfl, hrun,
    ⟨before', hsub _ hev⟩, fun id' hsaves => ?_⟩
  obtain ⟨patch, before'', hsave⟩ := hsaves
  have hsave := mem_own.mpr hsave
  rw [hown] at hsave
  rcases List.mem_append.mp hsave with hold | hnew
  · have hW : .saveResource id' patch ∈ writesOf older := mem_writesOf.mpr ⟨rfl, before'', hold⟩
    rw [hwrites] at hW
    refine ⟨patch, ?_⟩
    simpa [ExecuteCall.writesUpTo, ExecuteCall.opening] using hW
  · -- a save after the settlement would follow writes among which there is a settlement
    rcases List.mem_cons.mp hnew with heq | hnew
    · cases heq
    · obtain ⟨older', newer', rfl⟩ := List.append_of_mem hnew
      have hown' : own q s.history = (older ++ ⟨.savePlan plan.id (some (finalStatus (c.execution
          plan matched loop).status)), before⟩ :: older') ++
          ⟨.saveResource id' patch, before''⟩ :: newer' := by rw [hown]; simp
      obtain ⟨c', plan', matched', resources', -, -, hstage, -⟩ :=
        justified_execute ((conforms hs q).emitted _ _ _ hown') (Or.inr (Or.inl ⟨_, _, rfl⟩))
      have hW : .savePlan plan.id (some (finalStatus (c.execution plan matched loop).status)) ∈
          writesOf (older ++ ⟨.savePlan plan.id (some (finalStatus (c.execution
            plan matched loop).status)), before⟩ :: older') :=
        mem_writesOf.mpr ⟨rfl, before, by simp⟩
      generalize writesOf (older ++ ⟨.savePlan plan.id (some (finalStatus (c.execution
        plan matched loop).status)), before⟩ :: older') = W at hstage hW
      generalize hop : DbOp.saveResource id' patch = op at hstage
      cases hstage <;> cases hop
      rcases List.mem_append.mp hW with hW | hW
      · rcases finalStatus_cases (c.execution plan matched loop).status with h | h <;>
          simp [ExecuteCall.opening, h] at hW
      · obtain ⟨_, _, h⟩ := loopWrites_save hW
        cases h

/-! ## The status of a claimed plan -/

/-- The statuses of plans: an executing plan has been claimed, a settled one stays settled. -/
structure StatusInv (db : Database) (history : History) : Prop where
  executing : ∀ plan ∈ db.plans, plan.status = .executing → ∃ q, Claimed history q plan.id
  settled : ∀ plan ∈ db.plans, ∀ q, Settled history q plan.id →
    plan.status = .completed ∨ plan.status = .failed

/-- Who has settled a plan after one more call. -/
theorem settled_append {history : History} {q q' : ℕ} {op : DbOp} {before : Database}
    (h : Settled (history ++ [(q', ⟨op, before⟩)]) q id) : Settled history q id ∨
      ∃ status, op = .savePlan id (some status) ∧ (status = .completed ∨ status = .failed) := by
  obtain ⟨status, before', hmem, hstatus⟩ := h
  rcases List.mem_append.mp hmem with hold | hnew
  · exact Or.inl ⟨status, before', hold, hstatus⟩
  · obtain ⟨-, heq⟩ := Prod.mk.inj (List.mem_singleton.mp hnew)
    obtain ⟨rfl, -⟩ := Event.mk.inj heq
    exact Or.inr ⟨status, rfl, hstatus⟩

/-- **The step lemma of the statuses.**
SRCLINE: apps/api/src/services/remediation-service.ts:102-252 -/
theorem statusInv_step {e : PoolEvent} {op : DbOp}
    (hs : service.Reaches LandsOnOpenPlan (serve hashToken config db requests) s)
    (hG : LandsOnOpenPlan s e) (hp : s.Performs e q op) (hinv : StatusInv s.store s.history) :
    StatusInv (op.exec s.store).2 (s.history ++ [(q, ⟨op, s.store⟩)]) where
  executing := by
    intro plan' hmem hexecuting
    rcases mem_plans_exec hmem with hold | ⟨rfl, -⟩ | ⟨plan, hold, status, rfl, rfl⟩
    · obtain ⟨q', hclaimed⟩ := hinv.executing plan' hold hexecuting
      exact ⟨q', hclaimed.append _⟩
    · obtain ⟨c, actions, -, -, rfl⟩ := justified_createPlan (justified_next hs hp)
      cases hexecuting
    · obtain rfl : status = .executing := hexecuting
      exact ⟨q, s.store, by simp⟩
  settled := by
    intro plan' hmem q' hsettled
    rcases settled_append hsettled with hbefore | ⟨status, rfl, hstatus⟩
    · rcases mem_plans_exec hmem with hold | ⟨rfl, hfree⟩ | ⟨plan, hold, status, rfl, rfl⟩
      · exact hinv.settled plan' hold q' hbefore
      · obtain ⟨plan, hplan, hid⟩ := settled_known hs hbefore
        exact absurd ⟨plan, hplan, Or.inl hid⟩ hfree
      · have hdone := hinv.settled plan hold q' hbefore
        have hopen := hG q plan.id status hp plan hold rfl
        rcases justified_savePlan (justified_next hs hp) with ⟨-, hstatus⟩ |
          ⟨c, p, m, r, -, -, hstage, -⟩
        · obtain rfl : status = .approved := by simpa using hstatus
          have happrovable := hopen.2 rfl
          rcases hdone with h | h <;> simp [h, approvable] at happrovable
        · obtain ⟨-, ⟨-, hstatus⟩ | ⟨loop, -, -, hstatus⟩⟩ := hstage.savePlan
          · have happroved := hopen.1 (Option.some.inj hstatus)
            rcases hdone with h | h <;> simp [h] at happroved
          · obtain rfl := Option.some.inj hstatus
            exact finalStatus_cases _
    · rw [status_savePlan hmem]
      exact hstatus

/-- The statuses of a run. -/
theorem statusInv (hdb : NoPlans db)
    (hs : service.Reaches LandsOnOpenPlan (serve hashToken config db requests) s) :
    StatusInv s.store s.history := by
  refine Pool.invariant_of_performs (I := StatusInv) hs ⟨?_, ?_⟩ ?_
  · intro plan hplan
    simp [serve, Pool.initial, hdb.plans] at hplan
  · intro plan hplan
    simp [serve, Pool.initial, hdb.plans] at hplan
  · intro t e q op ht hG hp hinv
    exact statusInv_step ht hG hp hinv

/-! ## Requests that stay on course -/

/-- Where an execute request can be when a write of it fails harmlessly: at its claim, which is
lost, at its settlement, which is applied, or after its settlement. -/
theorem harmless_cases (hs : service.Reaches G (serve hashToken config db requests) s)
    {c : ExecuteCall} (hc : executeCall hashToken config (requests q) = some c) {op : DbOp}
    {k : op.Reply → DbProg Response} (hq : s.procs q = .call op k) (hop : op.writes = true)
    {applied : Bool} (hharmless : harmlessFailure op applied = true) :
    (applied = false ∧ writesOf (own q s.history) = []) ∨
      (applied = true ∧ ∃ status, op = .savePlan c.planId (some status) ∧
        (status = .completed ∨ status = .failed)) ∨ Settled s.history q c.planId := by
  have hnext := conforms hs q
  rw [hq, (executeCall_eq hc).2.2.1] at hnext
  have hjustified := hnext.next
  rw [ExecuteCall.Justified, if_pos hop] at hjustified
  obtain ⟨plan, matched, resources, hloaded, hstage, -⟩ := hjustified
  obtain ⟨hid, -⟩ := hloaded.stored hs fun ev => mem_own.mp
  generalize hW : writesOf (own q s.history) = W at hstage ⊢
  cases hstage with
  | claim => exact Or.inl ⟨by simpa [harmlessFailure] using hharmless, rfl⟩
  | use => cases hharmless
  | act => cases hharmless
  | record => cases hharmless
  | settle loop hrun =>
      refine Or.inr (Or.inl ?_)
      rcases finalStatus_cases (c.execution plan matched loop).status with h | h
      · rw [h] at hharmless ⊢
        exact ⟨hharmless, _, by rw [hid], Or.inl rfl⟩
      · rw [h] at hharmless ⊢
        exact ⟨hharmless, _, by rw [hid], Or.inr rfl⟩
  | audit loop event hrun =>
      have hsettled :
          .savePlan plan.id (some (finalStatus (c.execution plan matched loop).status)) ∈
          writesOf (own q s.history) := by simp [hW]
      obtain ⟨-, before, hev⟩ := mem_writesOf.mp hsettled
      exact Or.inr (Or.inr ⟨_, before, hid ▸ mem_own.mp hev, finalStatus_cases _⟩)

/-- **Requests stay on course**: after its claim an execute request follows its program, or it
has settled its plan, as long as failures are harmless. -/
theorem onCourse (hs : service.Reaches FailsHarmlessly (serve hashToken config db requests) s) :
    ∀ q c, executeCall hashToken config (requests q) = some c → Claimed s.history q c.planId →
      (s.procs q).Emits database c.Justified c.Ending (own q s.history) ∨
        Settled s.history q c.planId := by
  induction hs with
  | refl =>
      rintro q c - ⟨before, hmem⟩
      exact absurd hmem List.not_mem_nil
  | @step t u e ht hG he ih =>
      intro q c hc hclaimed
      -- another request changes neither the program nor the past of this one
      have hother : ∀ q' op rest, q' ≠ q → u = t.perform database q' op rest →
          (u.procs q).Emits database c.Justified c.Ending (own q u.history) ∨
            Settled u.history q c.planId := by
        rintro q' op rest hne rfl
        rcases claimed_append hclaimed with hbefore | ⟨rfl, -⟩
        · rcases ih q c hc hbefore with hemits | hsettled
          · left
            simpa [Pool.perform, Function.update_of_ne (Ne.symm hne), own_append_ne hne]
              using hemits
          · exact Or.inr (hsettled.append _)
        · exact absurd rfl hne
      cases Pool.step_cases he with
      | run q' op k hq' =>
          by_cases hqq : q' = q
          · subst hqq
            have hconforms := conforms ht q'
            rw [hq', (executeCall_eq hc).2.2.1, (executeCall_eq hc).2.2.2] at hconforms
            have hemits := hconforms.emits.resolve_right (by simp)
            left
            simpa [Pool.perform] using hemits.2 t.store
          · exact hother q' op _ hqq rfl
      | applied q' op k hq' hop =>
          by_cases hqq : q' = q
          · subst hqq
            rcases harmless_cases ht hc hq' hop (hG q' true op k rfl hq') with ⟨h, -⟩ |
              ⟨-, status, rfl, hstatus⟩ | hsettled
            · cases h
            · exact Or.inr ⟨status, t.store, by simp [Pool.perform], hstatus⟩
            · exact Or.inr (hsettled.append _)
          · exact hother q' op _ hqq rfl
      | lost q' op k hq' hop =>
          by_cases hqq : q' = q
          · subst hqq
            rcases harmless_cases ht hc hq' hop (hG q' false op k rfl hq') with ⟨-, hnone⟩ |
              ⟨h, -⟩ | hsettled
            · obtain ⟨before, hmem⟩ := hclaimed
              have hW : .savePlan c.planId (some .executing) ∈ writesOf (own q' t.history) :=
                mem_writesOf.mpr ⟨rfl, before, mem_own.mpr hmem⟩
              rw [hnone] at hW
              exact absurd hW List.not_mem_nil
            · cases h
            · exact Or.inr hsettled
          · rcases ih q c hc hclaimed with hemits | hsettled
            · left
              simpa [Pool.stop, Function.update_of_ne (Ne.symm hqq)] using hemits
            · exact Or.inr hsettled

/-- Records that find their indexes free are stored. -/
theorem recorded_stored
    (hs : service.Reaches RecordsFreely (serve hashToken config db requests) s) :
    ∀ q execution before, (q, ⟨.createExecution execution, before⟩) ∈ s.history →
      ¬ before.executions.Conflicts execution ∧ execution ∈ s.store.executions := by
  intro q execution before hmem
  obtain ⟨older, newer, hsplit⟩ := List.append_of_mem hmem
  have hfree := Pool.guarded_of_reaches (C := fun _ _ ev => ∀ execution,
    ev.op = .createExecution execution → ¬ ev.before.executions.Conflicts execution) hs
    (fun t e q op hG hp execution hop => hG q execution (hop ▸ hp)) older q _ newer hsplit _ rfl
  exact ⟨hfree, Creates.stored hs ⟨before, hmem, hfree⟩⟩

/-- **A request that ends after its claim has settled its plan.** -/
theorem ended_settled (hdb : NoPlans db)
    (hs : service.Reaches Undisturbed (serve hashToken config db requests) s)
    {c : ExecuteCall} (hc : executeCall hashToken config (requests q) = some c)
    (hclaimed : Claimed s.history q c.planId) (hended : (s.procs q).Ended) :
    Settled s.history q c.planId := by
  have hclaim : .savePlan c.planId (some .executing) ∈ writesOf (own q s.history) := by
    obtain ⟨before, hmem⟩ := hclaimed
    exact mem_writesOf.mpr ⟨rfl, before, mem_own.mpr hmem⟩
  rcases onCourse (hs.mono fun _ _ hG => hG.2.1) q c hc hclaimed with hemits | hsettled
  · have hending : ∃ result, c.Ending (own q s.history) result := by
      cases hq : s.procs q with
      | ret a => rw [hq] at hemits; exact ⟨_, hemits⟩
      | throw e => rw [hq] at hemits; exact ⟨_, hemits⟩
      | call op k => rw [hq] at hended; exact hended.elim
    obtain ⟨result, hending⟩ := hending
    cases hending with
    | replayed execution hwrites hfound => simp [hwrites] at hclaim
    | noPlan e hwrites hplan => simp [hwrites] at hclaim
    | noApproval e hwrites happrovals => simp [hwrites] at hclaim
    | notPermitted e hwrites plan hplan hdryRun hrejected => simp [hwrites] at hclaim
    | loopFailed e plan matched resources hloaded hrun hwrites =>
        -- every planned action is allowlisted
        have hallowed : ∀ action ∈ plan.actions, action.actionType ∈ ALLOWLISTED_ACTIONS :=
          hloaded.allowlisted hs (fun ev => mem_own.mp)
            (stored_allowlisted hs fun p => by simp [hdb.plans])
        exact absurd hrun (loopRun_ne_error hallowed)
    | duplicate plan matched resources loop hloaded hrun hwrites hconflict =>
        obtain ⟨before, hev, hconflict⟩ := hconflict
        exact absurd hconflict
          (recorded_stored (hs.mono fun _ _ hG => hG.2.2) q _ before (mem_own.mp hev)).1
    | done plan matched resources loop event hloaded hrun hwrites hrecorded =>
        obtain ⟨hid, -⟩ := hloaded.stored hs fun ev => mem_own.mp
        have hsettle : .savePlan plan.id (some (finalStatus (c.execution plan matched
            loop).status)) ∈ writesOf (own q s.history) := by simp [hwrites]
        obtain ⟨-, before, hev⟩ := mem_writesOf.mp hsettle
        exact ⟨_, before, hid ▸ mem_own.mp hev, finalStatus_cases _⟩
  · exact hsettled

/-- **Every mutation is accounted for** in every run in which failures are harmless, records
find their indexes free and plans are claimed once.
SRCLINE: apps/api/src/services/remediation-service.ts:167-252, README.md:81-89 -/
theorem mutations_accounted (hashToken : String → String) (config : ApiConfig) :
    AccountsForMutations hashToken config Undisturbed := by
  intro db requests s hdb hs
  have hstatus := statusInv hdb (hs.mono fun _ _ hG => hG.1)
  refine ⟨fun q c id hc hsaves plan hplan hid _ => ?_, fun plan hplan hexecuting => ?_⟩
  · obtain ⟨c', hc', hclaimed⟩ := saves_claimed hs hsaves
    obtain rfl : c = c' := Option.some.inj (hc.symm.trans hc')
    by_cases hended : (s.procs q).Ended
    · right
      have hsettled := ended_settled hdb hs hc hclaimed hended
      obtain ⟨-, -, p, matched, resources, loop, hpid, hrun, ⟨before, hrecord⟩, hall⟩ :=
        settled_recorded hs hc hsettled
      obtain ⟨patch, hsave⟩ := hall id hsaves
      obtain ⟨-, hstored⟩ := recorded_stored (hs.mono fun _ _ hG => hG.2.2) q _ before hrecord
      exact ⟨⟨_, hstored, hid.symm, loopWrites_recorded hrun (keyed_byId resources) hsave⟩,
        hstatus.settled plan hplan q (hid ▸ hsettled)⟩
    · left
      obtain ⟨patch, before, hmem⟩ := hsaves
      exact ⟨List.ne_nil_of_mem (mem_own.mpr hmem), hended⟩
  · obtain ⟨q, hclaimed⟩ := hstatus.executing plan hplan hexecuting
    obtain ⟨c, hc, hid⟩ := claimed_execute hs hclaimed
    refine ⟨q, c, hc, hid, ?_, fun hended => ?_⟩
    · obtain ⟨before, hmem⟩ := hclaimed
      exact List.ne_nil_of_mem (mem_own.mpr hmem)
    · have hsettled := ended_settled hdb hs hc (hid ▸ hclaimed) hended
      rcases hstatus.settled plan hplan q (hid ▸ hsettled) with h | h <;> rw [hexecuting] at h <;>
        cases h

end Runs

/-! ## A write that fails after the resource is saved -/

/-- The plan is made and approved; the execution saves the bucket and then fails to record. -/
def recordFails : List PoolEvent :=
  List.replicate 5 (.run 0) ++ List.replicate 4 (.run 1) ++ List.replicate 7 (.run 2) ++
    [.fail 2 false]

/-- A failed insert of the record leaves a closed bucket without a record, and its plan executing
with no request in flight.
SRCLINE: apps/api/src/services/remediation-service.ts:167-252 -/
theorem mutations_not_accounted : ¬ AccountsForMutations (fun token => token)
    ⟨.mock, false, 900000⟩ Machine.unguarded := by
  intro h
  let s := (service.run (serve (fun token => token) ⟨.mock, false, 900000⟩ bucketStore
    bucketRequests) recordFails).get (by decide +kernel)
  have hs : service.Reaches Machine.unguarded (serve (fun token => token) ⟨.mock, false, 900000⟩
      bucketStore bucketRequests) s :=
    Machine.reaches_of_run recordFails (Option.some_get _).symm
  have hplans : s.store.plans.docs.map (·.status) = [.executing] := by decide +kernel
  have hall : ∀ e ∈ s.history, (s.procs e.1).Ended := by decide +kernel
  -- from here on the run itself is not looked at
  clear_value s
  obtain ⟨plan, hplan, hexecuting⟩ := List.mem_map.mp (hplans ▸ List.mem_singleton.mpr rfl)
  obtain ⟨q, c, -, -, hbegun, hended⟩ :=
    (h bucketStore bucketRequests s ⟨rfl, rfl, rfl⟩ hs).executing plan hplan hexecuting
  obtain ⟨ev, hev⟩ := List.exists_mem_of_ne_nil _ hbegun
  exact hended (hall (q, ev) (mem_own.mp hev))

/-! ## A claim that is lost, and an audit event that fails -/

/-- Whether a call finds the plan and the indexes as the condition wants them. -/
def claimsAndRecordsFreely (s : ServicePool) (q : ℕ) : DbOp → Bool
  | .createExecution execution => decide (¬ s.store.executions.Conflicts execution)
  | op => landsOnOpenPlan s q op

/-- Whether a failure does no harm. -/
def failsHarmlessly (s : ServicePool) : PoolEvent → Bool
  | .fail q applied => match s.procs q with
    | .call op _ => harmlessFailure op applied
    | _ => true
  | .run _ => true

/-- The checks decide the condition. -/
theorem undisturbed_of_check (s : ServicePool) (e : PoolEvent)
    (h : (Pool.passes claimsAndRecordsFreely s e && failsHarmlessly s e) = true) :
    Undisturbed s e := by
  obtain ⟨hpasses, hfails⟩ := Bool.and_eq_true_iff.mp h
  refine ⟨fun q id status hp plan hplan => ?_, fun q applied op k he hq => ?_,
    fun q execution hp => of_decide_eq_true (hp.passed hpasses)⟩
  · have hlands := hp.passed hpasses
    exact of_decide_eq_true (List.all_eq_true.mp hlands plan hplan)
  · subst he
    simpa [failsHarmlessly, hq] using hfails

/-- The claim of request 2 is lost; request 3 executes the plan, and its audit event fails. -/
def claimLost : List PoolEvent :=
  List.replicate 5 (.run 0) ++ List.replicate 4 (.run 1) ++ List.replicate 4 (.run 2) ++
    [.run 3, .fail 2 false] ++ List.replicate 8 (.run 3) ++ [.fail 3 false]

/-- The requests after that. -/
def claimLostPool : ServicePool :=
  (service.runChecked (fun s e => Pool.passes claimsAndRecordsFreely s e && failsHarmlessly s e)
    (serve (fun token => token) ⟨.mock, false, 900000⟩ bucketStore bucketRequests)
    claimLost).get (by decide +kernel)

/-- Both requests have failed, the second after it has closed the bucket, recorded the execution
and settled the plan. -/
theorem mutations_accounted_claimLost :
    claimLostPool.store.resources.docs.map (·.config.publicAccess) = [some false] ∧
      claimLostPool.store.plans.docs.map (·.status) = [.completed] ∧
      (∀ e ∈ claimLostPool.history, (claimLostPool.procs e.1).Ended) ∧
      Accounted (fun token => token) ⟨.mock, false, 900000⟩ bucketRequests claimLostPool := by
  have hs : service.Reaches Undisturbed (serve (fun token => token) ⟨.mock, false, 900000⟩
      bucketStore bucketRequests) claimLostPool :=
    Machine.reaches_of_runChecked undisturbed_of_check claimLost (Option.some_get _).symm
  exact ⟨by decide +kernel, by decide +kernel, by decide +kernel,
    mutations_accounted _ _ bucketStore bucketRequests _ ⟨rfl, rfl, rfl⟩ hs⟩

end CloudOps.Analysis
