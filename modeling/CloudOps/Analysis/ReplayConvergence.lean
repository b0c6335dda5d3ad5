import CloudOps.Analysis.PlanLifecycle
import CloudOps.Computation.FirstCome

/-!
# Requests under one key

`createPlan` and `execute` look their key up first and insert much later, and neither handles
the refusal of the insertion. When no request looks while another is between its lookup and
its insertion, all of them converge to one document (`requests_converge`); two requests that
both look before either inserts do not.
-/

set_option autoImplicit false

namespace CloudOps.Analysis

open CloudOps.Computation CloudOps.Model CloudOps.Model.RemediationService

/-- A kind of document that requests create under a key and return. -/
structure DocumentKind (δ : Type) where
  look : Database → Option δ
  insert : δ → DbOp
  reply : δ → Bool → Response

/-- The call creates a plan or an execution. -/
def isCreate : DbOp → Bool
  | .createPlan _ | .createExecution _ => true
  | _ => false

/-- No request begins while another is between its lookup and its insertion: each of those that
have begun has ended or has inserted its document. -/
def BeginsAfterInsert (s : ServicePool) (e : PoolEvent) : Prop :=
  ∀ q, e = .run q → own q s.history = [] → ∀ q', own q' s.history ≠ [] →
    (s.procs q').Ended ∨ ∃ ev ∈ own q' s.history, isCreate ev.op = true

namespace DocumentKind

variable {δ : Type} (kind : DocumentKind δ)

/-- The requests have converged: none has failed, all that have returned have returned the
document under the key, and one of them has created it. -/
structure Converged (s : ServicePool) : Prop where
  noError : ∀ q err, s.procs q ≠ .throw err
  returned : ∀ q response, s.procs q = .ret response →
    ∃ d replayed, kind.look s.store = some d ∧ response = kind.reply d replayed
  once : (∃ q, own q s.history ≠ []) → (∀ q, own q s.history ≠ [] → (s.procs q).Ended) →
    ∃! q, ∃ d, s.procs q = .ret (kind.reply d false)

/-- Every insertion has put its document under the key. -/
def Made (past : Past) : Prop :=
  ∀ d before, ⟨kind.insert d, before⟩ ∈ past → kind.look ((kind.insert d).exec before).2 = some d

/-- What every call of a request relies on, and does to the document under the key. -/
structure Calls (past : Past) (op : DbOp) : Prop where
  made : kind.Made past
  inserts : isCreate op = true → ∃ d, op = kind.insert d
  keeps : ∀ db d, kind.look db = some d → kind.look (op.exec db).2 = some d

/-- A request that returns a new document has inserted it. -/
def Returns (past : Past) (result : Except AppError Response) : Prop :=
  ∀ response, result = .ok response → (∃ d, response = kind.reply d true) ∨
    ∃ d before, response = kind.reply d false ∧ kind.Made past ∧ ⟨kind.insert d, before⟩ ∈ past

/-- Requests that look a key up first and create their document under it. -/
structure Requests (start : ServicePool) : Prop where
  fresh : start.history = []
  apart : ∀ d d', kind.reply d true ≠ kind.reply d' false
  same : ∀ d d', kind.reply d false = kind.reply d' false → d = d'
  looks : ∀ q, Pool.LooksFirst database kind.look (kind.reply · true) (start.procs q)
  emits : ∀ q, (start.procs q).Emits database kind.Calls kind.Returns []
  valid : ∀ q, ∃ d, ((start.procs q).run database start.store).1 = .ok (kind.reply d false)

variable {kind} {start s : ServicePool} {G : ServicePool → PoolEvent → Prop} {q q₀ : ℕ}

/-- In a run every request keeps to its calls. -/
theorem Requests.conforms (h : kind.Requests start) (hs : service.Reaches G start s) (q : ℕ) :
    Pool.Conforms database faults kind.Calls kind.Returns (s.procs q) (own q s.history) := by
  have hstart : start = Pool.initial start.store start.procs := by
    rw [Pool.initial, ← h.fresh]
  rw [hstart] at hs
  exact Pool.conforms_of_reaches h.emits hs q

/-- The history of a run is a path. -/
theorem Requests.chained (h : kind.Requests start) (hs : service.Reaches G start s) :
    Pool.Chained database start.store s.history s.store := by
  have hstart : start = Pool.initial start.store start.procs := by
    rw [Pool.initial, ← h.fresh]
  rw [hstart] at hs
  exact Pool.chained_of_reaches hs

/-- **A document that has been put under the key stays there.** -/
theorem Requests.inserted (h : kind.Requests start) (hs : service.Reaches G start s) {d : δ}
    {before : Database} (hev : ⟨kind.insert d, before⟩ ∈ own q s.history)
    (hmade : kind.Made (own q s.history)) : kind.look s.store = some d := by
  obtain ⟨past, rest, hown⟩ := List.append_of_mem hev
  obtain ⟨older, newer, hhist, -, -⟩ := own_split hown
  have hchained := h.chained hs
  rw [hhist] at hchained
  have hafter : kind.look ((kind.insert d).exec before).2 = some d := hmade d before hev
  have hkept := hchained.split.2.le (R := fun db db' => kind.look db = some d →
    kind.look db' = some d) (fun _ h => h) (fun _ _ _ h h' hd => h' (h hd)) ?_
  · exact hkept.1 hafter
  · intro q' ev hmem hlook
    have hmem' : (q', ev) ∈ s.history := by
      rw [hhist]
      exact List.mem_append_right _ (List.mem_cons_of_mem _ hmem)
    obtain ⟨past', rest', hown'⟩ := List.append_of_mem (mem_own.mpr hmem')
    exact ((h.conforms hs q').emitted past' ev rest' hown').keeps _ _ hlook

/-- The first request, once it has ended, has left its document under the key. -/
theorem Requests.left_of_ended (h : kind.Requests start) (hs : service.Reaches G start s)
    (hfirst : Pool.FirstCome database kind.look (kind.reply · true) start s q₀)
    (hended : (s.procs q₀).Ended) :
    ∃ d, s.procs q₀ = .ret (kind.reply d false) ∧ kind.look s.store = some d := by
  obtain ⟨d, hvalid⟩ := h.valid q₀
  have halone := congrArg Prod.fst hfirst.alone
  rw [hvalid] at halone
  cases hq : s.procs q₀ with
  | call op k => rw [hq] at hended; exact hended.elim
  | throw err => rw [hq] at halone; cases halone
  | ret response =>
      rw [hq] at halone
      have hresponse : response = kind.reply d false := Except.ok.inj halone
      subst hresponse
      have hreturns : kind.Returns (own q₀ s.history) (.ok (kind.reply d false)) := by
        have hconforms := (h.conforms hs q₀).emits
        rw [hq] at hconforms
        rcases hconforms with hend | hstopped
        · exact hend
        · cases hstopped
      rcases hreturns _ rfl with ⟨d', heq⟩ | ⟨d', before, heq, hmade, hev⟩
      · exact absurd heq.symm (h.apart d' d)
      · obtain rfl := h.same d d' heq
        exact ⟨d, rfl, h.inserted hs hev hmade⟩

/-- The first request, once it has inserted its document, has left it under the key. -/
theorem Requests.left_of_inserted (h : kind.Requests start) (hs : service.Reaches G start s)
    (hfirst : Pool.FirstCome database kind.look (kind.reply · true) start s q₀)
    {ev : Event DbOp Database} (hev : ev ∈ own q₀ s.history) (hcreate : isCreate ev.op = true) :
    ∃ d, kind.look s.store = some d := by
  have hconforms := h.conforms hs q₀
  cases hq : s.procs q₀ with
  | call op k =>
      obtain ⟨past, rest, hown⟩ := List.append_of_mem hev
      obtain ⟨d, hd⟩ := (hconforms.emitted past ev rest hown).inserts hcreate
      obtain ⟨op', before⟩ := ev
      subst hd
      rw [hq] at hconforms
      exact ⟨d, h.inserted hs hev hconforms.next.made⟩
  | throw err =>
      obtain ⟨d, -, hlook⟩ := h.left_of_ended hs hfirst (by rw [hq]; trivial)
      exact ⟨d, hlook⟩
  | ret response =>
      obtain ⟨d, -, hlook⟩ := h.left_of_ended hs hfirst (by rw [hq]; trivial)
      exact ⟨d, hlook⟩

/-- **Requests converge** when each begins after the insertions of those before it. -/
theorem Requests.converged (h : kind.Requests start)
    (hs : service.Reaches (fun s e => Pool.OnlyRuns s e ∧ BeginsAfterInsert s e) start s) :
    kind.Converged s := by
  have hcases := Pool.firstCome_of_reaches h.fresh h.looks hs ?_ ?_
  · have hcall : ∀ q, ∃ op k, start.procs q = .call op k := by
      intro q
      obtain ⟨op, k, hq, -⟩ := h.looks q
      exact ⟨op, k, hq⟩
    rcases hcases with rfl | ⟨q₀, hfirst⟩
    · refine ⟨fun q err hq => ?_, fun q response hq => ?_, fun hsome => ?_⟩
      · obtain ⟨op, k, hcall⟩ := hcall q
        rw [hcall] at hq
        cases hq
      · obtain ⟨op, k, hcall⟩ := hcall q
        rw [hcall] at hq
        cases hq
      · obtain ⟨q, hbegun⟩ := hsome
        rw [h.fresh] at hbegun
        exact absurd rfl hbegun
    · have hothers : ∀ q, q ≠ q₀ → (s.procs q).Ended →
          ∃ d, kind.look s.store = some d ∧ s.procs q = .ret (kind.reply d true) := by
        intro q hne hended
        rcases hfirst.others q hne with ⟨hunbegun, -⟩ | hfound
        · obtain ⟨op, k, hcall⟩ := hcall q
          rw [hunbegun, hcall] at hended
          exact hended.elim
        · exact hfound
      refine ⟨fun q err hq => ?_, fun q response hq => ?_, fun _ hended => ?_⟩
      · have hend : (s.procs q).Ended := by rw [hq]; trivial
        by_cases hne : q = q₀
        · subst hne
          obtain ⟨d, hret, -⟩ := h.left_of_ended hs hfirst hend
          rw [hq] at hret
          cases hret
        · obtain ⟨d, -, hret⟩ := hothers q hne hend
          rw [hq] at hret
          cases hret
      · have hend : (s.procs q).Ended := by rw [hq]; trivial
        by_cases hne : q = q₀
        · subst hne
          obtain ⟨d, hret, hlook⟩ := h.left_of_ended hs hfirst hend
          rw [hq] at hret
          exact ⟨d, false, hlook, Prog.ret.inj hret⟩
        · obtain ⟨d, hlook, hret⟩ := hothers q hne hend
          rw [hq] at hret
          exact ⟨d, true, hlook, Prog.ret.inj hret⟩
      · obtain ⟨d, hret, -⟩ := h.left_of_ended hs hfirst (hended q₀ hfirst.begun)
        refine ⟨q₀, ⟨d, hret⟩, ?_⟩
        rintro q ⟨d', hq⟩
        by_contra hne
        obtain ⟨d'', -, hret'⟩ := hothers q hne (by rw [hq]; trivial)
        rw [hq] at hret'
        exact h.apart d'' d' (Prog.ret.inj hret').symm
  · rintro t e ht ⟨⟨q, rfl⟩, hG⟩ hinv
    refine ⟨q, rfl, fun hunbegun => ?_⟩
    rcases hinv with rfl | ⟨q₀, hfirst⟩
    · exact Or.inl h.fresh
    · refine Or.inr (Option.isSome_iff_exists.mpr ?_)
      rcases hG q rfl hunbegun q₀ hfirst.begun with hended | ⟨ev, hev, hcreate⟩
      · obtain ⟨d, -, hlook⟩ := h.left_of_ended ht hfirst hended
        exact ⟨d, hlook⟩
      · exact h.left_of_inserted ht hfirst hev hcreate
  · intro t q op k d ht hq hlook
    have hconforms := h.conforms ht q
    rw [hq] at hconforms
    exact hconforms.next.keeps _ _ hlook

end DocumentKind

/-! ## Plans -/

/-- The plans under a key. -/
def plansUnder (workspaceId idempotencyKey : String) : DocumentKind RemediationPlan where
  look := fun db => db.findPlanByKey workspaceId idempotencyKey
  insert := .createPlan
  reply := .plan

/-- Only a save changes the plan under a key. -/
theorem findPlanByKey_kept {op : DbOp} (hop : ∀ id status, op ≠ .savePlan id status)
    {workspaceId idempotencyKey : String} (db : Database) (plan : RemediationPlan)
    (h : db.findPlanByKey workspaceId idempotencyKey = some plan) :
    (op.exec db).2.findPlanByKey workspaceId idempotencyKey = some plan := by
  obtain ⟨hmem, hunder⟩ := findPlanByKey_iff.mp h
  refine findPlanByKey_iff.mpr ⟨?_, hunder⟩
  cases op with
  | createPlan p => exact mem_createIn.mpr (Or.inl hmem)
  | savePlan id status => exact absurd rfl (hop id status)
  | _ => exact hmem

namespace PlanCall

variable (c : PlanCall)

/-- The plans under the key of the call. -/
abbrev kind : DocumentKind RemediationPlan := plansUnder c.workspaceId c.input.idempotencyKey

variable {c} {past : Past}

/-- A call that creates no plan, performed before any was created. -/
theorem calls_read {op : DbOp} (hop : op.writes = false)
    (hpast : ∀ plan before, ⟨.createPlan plan, before⟩ ∉ past) : c.kind.Calls past op where
  made := fun plan before hmem => absurd hmem (hpast plan before)
  inserts := fun hcreate => by cases op <;> simp [isCreate, DbOp.writes] at hcreate hop
  keeps := findPlanByKey_kept fun id status h => by rw [h] at hop; cases hop

/-- The insertion of a plan, its audit event and the response. -/
theorem insertion_emits (hpast : ∀ plan before, ⟨.createPlan plan, before⟩ ∉ past)
    (actions : List (Option RemediationAction)) (event : AuditEvent) :
    (do
      RemediationPlanModel.create (c.plan actions)
      recordAudit event
      return Response.plan (c.plan actions) false : DbProg Response).Emits database c.kind.Calls
        c.kind.Returns past := by
  refine emits_attempt (k := fun reply : DbOp.Reply (.createPlan (c.plan actions)) => reply)
    ⟨fun plan before h => absurd h (hpast plan before), fun _ => ⟨_, rfl⟩,
      findPlanByKey_kept (by simp)⟩ (fun before₁ _ hok => ?_) fun _ _ _ response h => by cases h
  have hfree : ¬ before₁.plans.Conflicts (c.plan actions) := free_of_createIn hok
  have hmade : c.kind.Made (past ++ [⟨.createPlan (c.plan actions), before₁⟩]) := by
    intro plan before hmem
    rcases List.mem_append.mp hmem with hold | hnew
    · exact absurd hold (hpast plan before)
    · obtain ⟨hop, rfl⟩ := Event.mk.inj (List.mem_singleton.mp hnew)
      obtain rfl := DbOp.createPlan.inj hop
      exact findPlanByKey_iff.mpr ⟨mem_createIn.mpr (Or.inr ⟨hfree, rfl⟩), rfl, rfl⟩
  refine emits_call ⟨hmade, fun h => (by cases h), findPlanByKey_kept (by simp)⟩
    fun before₂ _ _ => ?_
  intro response hresponse
  refine Or.inr ⟨c.plan actions, before₁, (Except.ok.inj hresponse).symm, ?_,
    List.mem_append_left _ (List.mem_append_right _ List.mem_cons_self)⟩
  intro plan before hmem
  rcases List.mem_append.mp hmem with hold | hnew
  · exact hmade plan before hold
  · cases (Event.mk.inj (List.mem_singleton.mp hnew)).1

/-- **`createPlan` inserts its plan under its key** or nothing.
SRCLINE: apps/api/src/services/remediation-service.ts:37-100 -/
theorem kind_emits : c.program.Emits database c.kind.Calls c.kind.Returns [] := by
  unfold program createPlan
  refine emits_call (calls_read rfl (by simp)) fun before₁ existing hexisting => ?_
  cases existing with
  | some existing =>
      intro response hresponse
      exact Or.inl ⟨existing, (Except.ok.inj hresponse).symm⟩
  | none =>
    refine emits_call (calls_read rfl (by simp)) fun before₂ findings hfindings => ?_
    by_cases hlen : findings.length = c.input.findingIds.length
    · simp only [hlen, ne_eq, not_true_eq_false, if_false]
      refine emits_call (calls_read rfl (by simp)) fun before₃ recs hrecs => ?_
      refine emits_ofExcept (fun actions hactions => ?_) fun e _ response h => by cases h
      exact insertion_emits (by simp) actions _
    · simp only [hlen, ne_eq, not_false_eq_true, if_true]
      intro response h
      cases h

/-- A call of `createPlan` looks its key up first. -/
theorem looksFirst : Pool.LooksFirst database c.kind.look (c.kind.reply · true) c.program := by
  refine ⟨_, _, rfl, fun s => rfl, fun s plan hplan => ?_⟩
  have hfound : (DbOp.exec (.findPlanByKey c.workspaceId c.input.idempotencyKey) s).1 = some plan :=
    hplan
  dsimp only [database]
  rw [hfound]
  rfl

end PlanCall

/-! ## Executions -/

/-- The executions under a key. -/
def executionsUnder (workspaceId idempotencyKey : String) : DocumentKind RemediationExecution where
  look := fun db => db.findExecutionByKey workspaceId idempotencyKey
  insert := .createExecution
  reply := .execution

/-- No call changes the execution under a key. -/
theorem findExecutionByKey_kept (op : DbOp) {workspaceId idempotencyKey : String} (db : Database)
    (execution : RemediationExecution)
    (h : db.findExecutionByKey workspaceId idempotencyKey = some execution) :
    (op.exec db).2.findExecutionByKey workspaceId idempotencyKey = some execution := by
  obtain ⟨hmem, hunder⟩ := findExecutionByKey_iff.mp h
  exact findExecutionByKey_iff.mpr ⟨(Database.le_exec op db).executions execution hmem, hunder⟩

namespace ExecuteCall

variable (c : ExecuteCall)

/-- The executions under the key of the call. -/
abbrev kind : DocumentKind RemediationExecution :=
  executionsUnder c.workspaceId c.input.idempotencyKey

variable {c} {past : Past} {plan : RemediationPlan} {matched : ApprovalToken}
  {resources : List CloudResource}

/-- Insertions that were not refused have put the record under the key. -/
theorem made_of_recorded (hrec : Recorded past)
    (hown : ∀ execution, .createExecution execution ∈ writesOf past →
      ∃ loop, execution = c.execution plan matched loop) : c.kind.Made past := by
  intro execution before hmem
  obtain ⟨loop, rfl⟩ := hown execution (mem_writesOf.mpr ⟨rfl, before, hmem⟩)
  exact findExecutionByKey_iff.mpr ⟨mem_createIn.mpr (Or.inr ⟨hrec _ before hmem, rfl⟩), rfl, rfl⟩

/-- A record among the writes before a stage is the one of the call. -/
theorem Stage.recorded_eq {W : List DbOp} {op : DbOp} {execution : RemediationExecution}
    (h : c.Stage plan matched resources W op) (hmem : .createExecution execution ∈ W) :
    ∃ loop, execution = c.execution plan matched loop := by
  cases h with
  | claim => simp at hmem
  | use => simp at hmem
  | act pre post action loop resource state result _ _ _ _ _ =>
      exact absurd hmem (not_recorded_upTo execution)
  | record loop _ => exact absurd hmem (not_recorded_upTo execution)
  | settle loop _ =>
      rcases List.mem_append.mp hmem with hupTo | hnew
      · exact absurd hupTo (not_recorded_upTo execution)
      · exact ⟨loop, DbOp.createExecution.inj (List.mem_singleton.mp hnew)⟩
  | audit loop event _ =>
      rcases List.mem_append.mp hmem with hupTo | hnew
      · exact absurd hupTo (not_recorded_upTo execution)
      · exact ⟨loop, by simpa using hnew⟩

/-- What a call of `execute` relies on, in terms of its key. -/
theorem calls_of_justified {op : DbOp} (h : c.Justified past op) : c.kind.Calls past op where
  made := by
    rw [Justified] at h
    split at h
    · obtain ⟨plan, matched, resources, -, hstage, hrec⟩ := h
      exact made_of_recorded hrec fun execution hmem => hstage.recorded_eq hmem
    · intro execution before hmem
      have hwrite : .createExecution execution ∈ writesOf past :=
        mem_writesOf.mpr ⟨rfl, before, hmem⟩
      rw [h.1] at hwrite
      cases hwrite
  inserts := by
    intro hcreate
    cases op with
    | createExecution execution => exact ⟨execution, rfl⟩
    | createPlan p =>
        rw [Justified, if_pos (show (DbOp.createPlan p).writes = true from rfl)] at h
        obtain ⟨plan, matched, resources, -, hstage, -⟩ := h
        generalize writesOf past = W at hstage
        cases hstage
    | _ => cases hcreate
  keeps := findExecutionByKey_kept op

/-- **`execute` inserts its record under its key** or nothing.
SRCLINE: apps/api/src/services/remediation-service.ts:135-252 -/
theorem kind_emits : c.program.Emits database c.kind.Calls c.kind.Returns [] := by
  refine program_emits.mono (fun _ _ => calls_of_justified) fun past result hending => ?_
  intro response hresponse
  subst hresponse
  cases hending with
  | replayed execution _ _ => exact Or.inl ⟨execution, rfl⟩
  | done plan matched resources loop event _ _ hwrites hrec =>
      have hmem : .createExecution (c.execution plan matched loop) ∈ writesOf past := by
        rw [hwrites]
        simp
      obtain ⟨-, before, hev⟩ := mem_writesOf.mp hmem
      have hmade : c.kind.Made past := by
        refine made_of_recorded hrec (fun execution hcreated => ?_ :
          ∀ execution, .createExecution execution ∈ writesOf past →
            ∃ loop, execution = c.execution plan matched loop)
        rw [hwrites] at hcreated
        rcases List.mem_append.mp hcreated with hupTo | hnew
        · exact absurd hupTo (not_recorded_upTo execution)
        · exact ⟨loop, by simpa using hnew⟩
      exact Or.inr ⟨_, before, rfl, hmade, hev⟩

/-- A call of `execute` looks its key up first. -/
theorem looksFirst : Pool.LooksFirst database c.kind.look (c.kind.reply · true) c.program := by
  refine ⟨_, _, rfl, fun s => rfl, fun s execution hexecution => ?_⟩
  have hfound : (DbOp.exec (.findExecutionByKey c.workspaceId c.input.idempotencyKey) s).1 =
      some execution := hexecution
  dsimp only [database]
  rw [hfound]
  rfl

end ExecuteCall

/-! ## Runs of identical requests -/

/-- The calls have one body, one key and one workspace. -/
structure PlanCall.SameBody (c c' : PlanCall) : Prop where
  workspaceId : c.workspaceId = c'.workspaceId
  findingIds : c.input.findingIds = c'.input.findingIds
  dryRun : c.input.dryRun = c'.input.dryRun
  idempotencyKey : c.input.idempotencyKey = c'.input.idempotencyKey

/-- The calls have one plan, one token, one key and one workspace. -/
structure ExecuteCall.SameBody (c c' : ExecuteCall) : Prop where
  hashToken : c.hashToken = c'.hashToken
  config : c.config = c'.config
  workspaceId : c.workspaceId = c'.workspaceId
  planId : c.planId = c'.planId
  approvalToken : c.input.approvalToken = c'.input.approvalToken
  idempotencyKey : c.input.idempotencyKey = c'.input.idempotencyKey

/-- Identical plan requests, each valid by itself, converge in runs under a guard in which no
operation fails. -/
def PlansConverge (db : Database) (G : ServicePool → PoolEvent → Prop) : Prop :=
  ∀ (calls : ℕ → PlanCall) (s : ServicePool),
    (∀ q, (calls q).SameBody (calls 0)) →
    (∀ q, ∃ plan, ((calls q).program.run database db).1 = .ok (.plan plan false)) →
    service.Reaches (fun s e => Pool.OnlyRuns s e ∧ G s e)
      (Pool.initial db fun q => (calls q).program) s →
    (calls 0).kind.Converged s

/-- Identical execute requests, each valid by itself, converge in runs under a guard in which no
operation fails. -/
def ExecutionsConverge (db : Database) (G : ServicePool → PoolEvent → Prop) : Prop :=
  ∀ (calls : ℕ → ExecuteCall) (s : ServicePool),
    (∀ q, (calls q).SameBody (calls 0)) →
    (∀ q, ∃ execution, ((calls q).program.run database db).1 = .ok (.execution execution false)) →
    service.Reaches (fun s e => Pool.OnlyRuns s e ∧ G s e)
      (Pool.initial db fun q => (calls q).program) s →
    (calls 0).kind.Converged s

/-- **Requests under one key converge** in every run in which none of them looks while another
is between its lookup and its insertion.
SRCLINE: apps/api/src/services/remediation-service.ts:37-100, 135-252, docs/api-design.md:32-34 -/
theorem requests_converge (db : Database) :
    PlansConverge db BeginsAfterInsert ∧ ExecutionsConverge db BeginsAfterInsert := by
  constructor
  · intro calls s hsame hvalid hs
    have hkind : ∀ q, (calls q).kind = (calls 0).kind := fun q => by
      rw [PlanCall.kind, (hsame q).workspaceId, (hsame q).idempotencyKey]
    refine DocumentKind.Requests.converged ⟨rfl, ?_, ?_, fun q => hkind q ▸ PlanCall.looksFirst,
      fun q => hkind q ▸ PlanCall.kind_emits, hvalid⟩ hs
    · intro d d' h
      cases h
    · intro d d' h
      cases h
      rfl
  · intro calls s hsame hvalid hs
    have hkind : ∀ q, (calls q).kind = (calls 0).kind := fun q => by
      rw [ExecuteCall.kind, (hsame q).workspaceId, (hsame q).idempotencyKey]
    refine DocumentKind.Requests.converged ⟨rfl, ?_, ?_, fun q => hkind q ▸ ExecuteCall.looksFirst,
      fun q => hkind q ▸ ExecuteCall.kind_emits, hvalid⟩ hs
    · intro d d' h
      cases h
    · intro d d' h
      cases h
      rfl

/-! ## Two requests that both look before either inserts -/

/-- Two requests for one plan; the later ones are as the second. -/
def planTwice (q : ℕ) : PlanCall :=
  ⟨"ws", "operator", "c-0", ⟨["f-1"], false, "plan-key", if q = 0 then "p-1" else "p-2", 0⟩⟩

/-- Both look their key up, then both go on to their insertions. -/
def bothLook : List PoolEvent :=
  [.run 0, .run 1] ++ List.replicate 4 (.run 0) ++ List.replicate 3 (.run 1)

/-- The pool of the two plan requests after that. -/
def planTwicePool : ServicePool :=
  (service.run (Pool.initial bucketStore fun q => (planTwice q).program) bothLook).get
    (by decide +kernel)

/-- A store with the plan of the bucket, approved. -/
def approvedStore : Database :=
  ((service.run (serve (fun token => token) ⟨.mock, false, 900000⟩ bucketStore bucketRequests)
    (List.replicate 5 (.run 0) ++ List.replicate 4 (.run 1))).get (by decide +kernel)).store

/-- Two requests for one execution; the later ones are as the second. -/
def executeTwice (q : ℕ) : ExecuteCall :=
  ⟨fun token => token, ⟨.mock, false, 900000⟩, "ws", "p-1", "operator", "c-2",
    ⟨"approval-token-01", "key-0001", 1, 1, 2, 2, if q = 0 then "e-1" else "e-2", 3⟩⟩

/-- Both make all their reads, then both go on to their insertions. -/
def bothLoad : List PoolEvent :=
  List.replicate 4 (.run 0) ++ List.replicate 4 (.run 1) ++ List.replicate 6 (.run 0) ++
    List.replicate 4 (.run 1)

/-- The pool of the two execute requests after that. -/
def executeTwicePool : ServicePool :=
  (service.run (Pool.initial approvedStore fun q => (executeTwice q).program) bothLoad).get
    (by decide +kernel)

/-- A request that has ended in an error. -/
def hasThrown : DbProg Response → Bool
  | .throw _ => true
  | _ => false

/-- Requests that have converged have not thrown. -/
theorem DocumentKind.Converged.not_hasThrown {δ : Type} {kind : DocumentKind δ} {s : ServicePool}
    (h : kind.Converged s) (q : ℕ) : hasThrown (s.procs q) = false := by
  cases hq : s.procs q with
  | throw err => exact absurd hq (h.noError q err)
  | call op k => rfl
  | ret response => rfl

/-- Each of the plan requests is valid by itself. -/
theorem planTwice_valid (q : ℕ) :
    ∃ plan, ((planTwice q).program.run database bucketStore).1 = .ok (.plan plan false) := by
  by_cases hq : q = 0
  · subst hq
    exact ⟨_, rfl⟩
  · rw [show planTwice q = planTwice 1 by simp [planTwice, hq]]
    exact ⟨_, rfl⟩

/-- Each of the execute requests is valid by itself. -/
theorem executeTwice_valid (q : ℕ) : ∃ execution,
    ((executeTwice q).program.run database approvedStore).1 = .ok (.execution execution false) := by
  by_cases hq : q = 0
  · subst hq
    exact ⟨_, rfl⟩
  · rw [show executeTwice q = executeTwice 1 by simp [executeTwice, hq]]
    exact ⟨_, rfl⟩

/-- A run of these steps, in which nothing fails. -/
theorem onlyRuns_of_run {start s : ServicePool} {steps : List PoolEvent}
    (hrun : service.run start steps = some s) (hsteps : ∀ e ∈ steps, ∃ q, e = .run q) :
    service.Reaches (fun s e => Pool.OnlyRuns s e ∧ Machine.unguarded s e) start s :=
  Machine.reaches_of_run_guarded steps hrun fun e he _ => ⟨hsteps e he, trivial⟩

/-- Of two requests that both look before either inserts, one ends in an error.
SRCLINE: apps/api/src/services/remediation-service.ts:43-49, 79, 145-148, 225 -/
theorem requests_do_not_converge : ¬ PlansConverge bucketStore Machine.unguarded ∧
    ¬ ExecutionsConverge approvedStore Machine.unguarded := by
  constructor
  · intro h
    have hrun : service.run (Pool.initial bucketStore fun q => (planTwice q).program) bothLook =
        some planTwicePool := (Option.some_get _).symm
    have hs := onlyRuns_of_run hrun (by simp [bothLook])
    have hconverged := h planTwice planTwicePool (fun _ => ⟨rfl, rfl, rfl, rfl⟩)
      planTwice_valid hs
    have hthrown : hasThrown (planTwicePool.procs 1) = true := by decide +kernel
    rw [hconverged.not_hasThrown 1] at hthrown
    cases hthrown
  · intro h
    have hrun : service.run (Pool.initial approvedStore fun q => (executeTwice q).program)
        bothLoad = some executeTwicePool := (Option.some_get _).symm
    have hs := onlyRuns_of_run hrun (by simp [bothLoad])
    have hconverged := h executeTwice executeTwicePool
      (fun _ => ⟨rfl, rfl, rfl, rfl, rfl, rfl⟩) executeTwice_valid hs
    have hthrown : hasThrown (executeTwicePool.procs 1) = true := by decide +kernel
    rw [hconverged.not_hasThrown 1] at hthrown
    cases hthrown

/-! ## Requests that look when the document is there -/

/-- Whether a request that begins finds each of the others ended or with its document inserted. -/
def beginsAfterInsert (s : ServicePool) : PoolEvent → Bool
  | .run q => !(own q s.history).isEmpty || s.history.all fun e =>
    decide (s.procs e.1).Ended || (own e.1 s.history).any fun ev => isCreate ev.op
  | .fail _ _ => false

/-- The check decides the condition, and lets nothing fail. -/
theorem beginsAfterInsert_of_check (s : ServicePool) (e : PoolEvent)
    (h : beginsAfterInsert s e = true) : Pool.OnlyRuns s e ∧ BeginsAfterInsert s e := by
  cases e with
  | fail q applied => cases h
  | run q =>
      refine ⟨⟨q, rfl⟩, ?_⟩
      rintro q₁ heq hfirst q' hbegun
      obtain rfl := PoolEvent.run.inj heq
      rw [beginsAfterInsert, hfirst, List.isEmpty_nil, Bool.not_true, Bool.false_or] at h
      obtain ⟨ev, hev⟩ := List.exists_mem_of_ne_nil _ hbegun
      have hother := List.all_eq_true.mp h (q', ev) (mem_own.mp hev)
      rcases Bool.or_eq_true_iff.mp hother with hended | hinserted
      · exact Or.inl (of_decide_eq_true hended)
      · exact Or.inr (List.any_eq_true.mp hinserted)

/-- The second request looks between the insertion of the first and its audit event. -/
def lookAfterPlan : List PoolEvent :=
  List.replicate 4 (.run 0) ++ [.run 1, .run 0]

/-- The plan requests after that. -/
def replayedPlanPool : ServicePool :=
  (service.runChecked beginsAfterInsert (Pool.initial bucketStore fun q => (planTwice q).program)
    lookAfterPlan).get (by decide +kernel)

/-- The second request looks between the insertion of the first and the settlement. -/
def lookAfterExecution : List PoolEvent :=
  List.replicate 8 (.run 0) ++ [.run 1] ++ List.replicate 2 (.run 0)

/-- The execute requests after that. -/
def replayedExecutionPool : ServicePool :=
  (service.runChecked beginsAfterInsert
    (Pool.initial approvedStore fun q => (executeTwice q).program) lookAfterExecution).get
    (by decide +kernel)

/-- Both requests of each pair have returned, and left one document. -/
theorem requests_converge_replayed :
    (∀ e ∈ replayedPlanPool.history, (replayedPlanPool.procs e.1).Ended) ∧
      replayedPlanPool.history.map (·.1) = [0, 0, 0, 0, 1, 0] ∧
      replayedPlanPool.store.plans.docs.map (·.id) = ["p-1"] ∧
      (planTwice 0).kind.Converged replayedPlanPool ∧
    (∀ e ∈ replayedExecutionPool.history, (replayedExecutionPool.procs e.1).Ended) ∧
      replayedExecutionPool.history.map (·.1) = [0, 0, 0, 0, 0, 0, 0, 0, 1, 0, 0] ∧
      replayedExecutionPool.store.executions.docs.map (·.id) = ["e-1"] ∧
      (executeTwice 0).kind.Converged replayedExecutionPool := by
  refine ⟨by decide +kernel, by decide +kernel, by decide +kernel, ?_, by decide +kernel,
    by decide +kernel, by decide +kernel, ?_⟩
  · exact (requests_converge bucketStore).1 planTwice replayedPlanPool
      (fun _ => ⟨rfl, rfl, rfl, rfl⟩) planTwice_valid
      (Machine.reaches_of_runChecked beginsAfterInsert_of_check lookAfterPlan
        (Option.some_get _).symm)
  · exact (requests_converge approvedStore).2 executeTwice replayedExecutionPool
      (fun _ => ⟨rfl, rfl, rfl, rfl, rfl, rfl⟩) executeTwice_valid
      (Machine.reaches_of_runChecked beginsAfterInsert_of_check lookAfterExecution
        (Option.some_get _).symm)

end CloudOps.Analysis
