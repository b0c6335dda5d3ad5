import CloudOps.Analysis.UpdateCells
import CloudOps.Analysis.DryRunFidelity

/-!
# Updates of resources are kept

An execution loads its resources once and saves copies of them, `sync` updates them in place.
If the conflicting calls of different requests come in the order of some list of the requests,
no copy is stale when it is saved, and the resources end as if the requests had run one after
another: `updates_kept`. Two executions that both load a bucket before either saves it leave
one version and lose the first change: `updates_lost`.
-/

set_option autoImplicit false

namespace CloudOps.Analysis

open CloudOps.Computation CloudOps.Model CloudOps.Model.RemediationService

/-! ## Requests that update resources -/

section Requests

variable (hashToken : String → String) (config : ApiConfig)

/-- The identities that execute and sync requests draw. -/
def drawsOf (requests : ℕ → Incoming) : Draws where
  resource := fun id key => ∃ q c items i, syncCall config (requests q) = some c ∧
    c.input.discovered = .ok items ∧ i ∈ items ∧ id = i.newId ∧ key = (c.workspaceId, i.item.arn)
  execution := fun id key => ∃ q c, executeCall hashToken config (requests q) = some c ∧
    id = c.input.newExecutionId ∧ key = (c.workspaceId, c.input.idempotencyKey)

/-- Execute requests for different plans, none of them a dry run, and sync requests. What they
create has new identities, and no stored plan names one of these. -/
structure Updates (db : Database) (requests : ℕ → Incoming) : Prop where
  kinds : ∀ q, planCall (requests q) = none ∧ approveCall hashToken config (requests q) = none
  distinct : ∀ q q' c c', executeCall hashToken config (requests q) = some c →
    executeCall hashToken config (requests q') = some c' → c.planId = c'.planId → q = q'
  mutating : ∀ q c, executeCall hashToken config (requests q) = some c →
    ∀ plan ∈ db.plans, plan.id = c.planId → plan.dryRun = false
  fresh : (drawsOf hashToken config requests).Fresh db
  planned : ∀ plan ∈ db.plans, ∀ action ∈ plan.actions, ∀ key,
    ¬ (drawsOf hashToken config requests).resource action.resourceId key

/-- The version stored of a resource; there is none before its first insertion. -/
def storedVersion (db : Database) (workspaceId arn : String) : ℤ :=
  ((db.resources.byIndex? (workspaceId, arn)).map (·.version)).getD 0

/-- What requests write of a resource: tags, config, metrics and version. -/
def written (db : Database) (workspaceId arn : String) : Option (ResourceState × ℤ) :=
  (db.resources.byIndex? (workspaceId, arn)).map fun r => (r.state, r.version)

/-- **No update is lost**: once all requests that have begun have ended, the resources are what
the requests make of them one after another; each write raises the stored version by one, and
each save writes over the very document its copy was made from. -/
structure UpdatesKept (db : Database) (requests : ℕ → Incoming) (s : ServicePool) : Prop where
  serial : (∀ q, own q s.history ≠ [] → (s.procs q).Ended) → ∃ order : List ℕ, order.Nodup ∧
    (∀ q, q ∈ order ↔ own q s.history ≠ []) ∧ ∀ workspaceId arn,
      written s.store workspaceId arn = written (runInTurn database
        (fun q => (requests q).program hashToken config) order db) workspaceId arn
  raised : ∀ q op before workspaceId arn, (q, ⟨op, before⟩) ∈ s.history →
    writesCell db op (.resource workspaceId arn) →
      storedVersion (op.exec before).2 workspaceId arn =
        storedVersion before workspaceId arn + 1
  current : ∀ q id patch before, (q, ⟨.saveResource id patch, before⟩) ∈ s.history →
    ∃ stored action state result, before.resources.get? id = some stored ∧
      applySimulatedAction stored.state action = .ok (state, result) ∧
      patch = .changes stored (updated stored state)

/-- No update is lost in runs that meet a condition. -/
def KeepsUpdates (G : Database → ServicePool → PoolEvent → Prop) : Prop :=
  ∀ db requests s, Updates hashToken config db requests →
    service.Reaches (G db) (serve hashToken config db requests) s →
      UpdatesKept hashToken config db requests s

/-- The next call does not conflict with an earlier one of a request that is later in the list. -/
def InTurn (order : List ℕ) (db : Database) (s : ServicePool) (e : PoolEvent) : Prop :=
  Pool.OnlyRuns s e ∧ (footprint db).ConflictsInTurn order s e

end Requests

section Runs

variable {hashToken : String → String} {config : ApiConfig} {db : Database}
  {requests : ℕ → Incoming} {G : ServicePool → PoolEvent → Prop} {s : ServicePool} {q : ℕ}
  {order : List ℕ}

/-- A request of such a run is a call of `execute` or of `sync`. -/
theorem Updates.call (h : Updates hashToken config db requests) {past : Past} {op : DbOp}
    (hj : Justified hashToken config (requests q) past op) :
    (∃ c, executeCall hashToken config (requests q) = some c ∧ c.Justified past op) ∨
      ∃ c, syncCall config (requests q) = some c ∧ c.Justified past op := by
  obtain ⟨hplan, happrove⟩ := h.kinds q
  cases hrequest : requests q with
  | error e => rw [hrequest] at hj; exact hj.elim
  | ok request =>
      rw [hrequest] at hj hplan happrove
      cases request with
      | createPlan ws actor correlation input => cases hplan
      | approve ws planId actor correlation input => cases happrove
      | execute ws planId actor correlation input => exact Or.inl ⟨_, rfl, hj⟩
      | sync ws actor correlation input => exact Or.inr ⟨_, rfl, hj⟩

/-- No resource that a loaded plan names has a drawn identity. -/
theorem Updates.not_drawn (h : Updates hashToken config db requests) {before : Database}
    (hgrown : Grown db (drawsOf hashToken config requests) before) {planId workspaceId : String}
    {plan : RemediationPlan} (hplan : before.findPlan planId workspaceId = some plan)
    {id : String} (hid : id ∈ plan.actions.map (·.resourceId)) (key : String × String) :
    ¬ (drawsOf hashToken config requests).resource id key := by
  obtain ⟨action, haction, rfl⟩ := List.mem_map.mp hid
  obtain ⟨plan', hplan', -, hactions⟩ := hgrown.plans plan (findPlan_mem hplan).1
  exact h.planned plan' hplan' action (hactions ▸ haction) key

/-- **The calls of these requests are update calls.** -/
theorem Updates.updateCall (h : Updates hashToken config db requests) {past : Past} {op : DbOp}
    (hj : Justified hashToken config (requests q) past op)
    (hpast : ∀ ev ∈ past, Grown db (drawsOf hashToken config requests) ev.before) :
    UpdateCall (drawsOf hashToken config requests) op := by
  rcases h.call hj with ⟨c, hc, hjustified⟩ | ⟨c, hc, -, items, hitems, hstage⟩
  · unfold ExecuteCall.Justified at hjustified
    split at hjustified
    · obtain ⟨plan, matched, resources, hloaded, hstage, -⟩ := hjustified
      obtain ⟨before, hread, hplan⟩ := hloaded.planRead
      generalize writesOf past = W at hstage
      cases hstage with
      | claim => trivial
      | use => trivial
      | act pre post action loop resource state result hactions hrun hresource happly hmutates =>
          have hid := keyed_loopRun hrun (keyed_byId resources) _ _ hresource
          show ∀ key, ¬ _
          rw [hid]
          exact h.not_drawn (hpast _ hread) hplan (by simp [hactions])
      | record loop hrun => exact ⟨q, c, hc, rfl, rfl⟩
      | settle loop hrun => trivial
      | audit loop event hrun => trivial
    · obtain ⟨-, hreads⟩ := hjustified
      cases hreads with
      | key => trivial
      | plan => trivial
      | approvals => trivial
      | resources plan hplan =>
          obtain ⟨before, hread, hfound⟩ := hplan
          exact fun id hid => h.not_drawn (hpast _ hread) hfound (by simpa using hid)
  · generalize writesOf past = W at hstage
    cases hstage with
    | upsert pre post i hsplit => exact ⟨q, c, items, i, hc, hitems, by simp [hsplit], rfl, rfl⟩
    | audit event => trivial

/-- Along a run the database grows, and only update calls are made. -/
theorem Updates.calls (h : Updates hashToken config db requests)
    (hs : service.Reaches G (serve hashToken config db requests) s) :
    Grown db (drawsOf hashToken config requests) s.store ∧ ∀ e ∈ s.history,
      Grown db (drawsOf hashToken config requests) e.2.before ∧
        UpdateCall (drawsOf hashToken config requests) e.2.op := by
  refine Pool.invariant_of_performs (I := fun t history =>
    Grown db (drawsOf hashToken config requests) t ∧ ∀ e ∈ history,
      Grown db (drawsOf hashToken config requests) e.2.before ∧
        UpdateCall (drawsOf hashToken config requests) e.2.op) hs
    ⟨.refl, by simp [serve, Pool.initial]⟩ ?_
  rintro t e q op ht - hp ⟨hgrown, hcalls⟩
  have hcall := h.updateCall (justified_next ht hp) fun ev hev => (hcalls _ (mem_own.mp hev)).1
  refine ⟨hgrown.exec h.fresh hcall, fun e' he' => ?_⟩
  rcases List.mem_append.mp he' with hold | hnew
  · exact hcalls e' hold
  · rw [List.mem_singleton.mp hnew]
    exact ⟨hgrown, hcall⟩

/-! ## No copy is stale -/

/-- Only the program itself can come between two conflicting calls of a program. -/
theorem own_between {history between last : History} (hturn : (footprint db).InTurn order history)
    {first : History} {q : ℕ} {ev ev' : Event DbOp Database}
    (hsplit : history = first ++ (q, ev) :: (between ++ (q, ev') :: last)) {cell : Cell}
    (hread : readsCell db ev.op cell) (hwrite : writesCell db ev'.op cell)
    {q' : ℕ} {mid : Event DbOp Database} (hmid : (q', mid) ∈ between)
    (hcell : writesCell db mid.op cell) : q' = q := by
  have hconflicts := hturn.conflicts
  rw [hsplit] at hconflicts
  obtain ⟨-, hafter, -⟩ := List.pairwise_append.mp hconflicts
  obtain ⟨hfirst, hrest⟩ := List.pairwise_cons.mp hafter
  obtain ⟨-, -, hlast⟩ := List.pairwise_append.mp hrest
  have hle := hfirst (q', mid) (List.mem_append_left _ hmid) ⟨cell, Or.inr ⟨Or.inl hread, hcell⟩⟩
  have hge := hlast (q', mid) hmid (q, ev') List.mem_cons_self
    ⟨cell, Or.inl ⟨hcell, Or.inr hwrite⟩⟩
  have hmem : q' ∈ order := hturn.mem (q', mid) (by rw [hsplit]; simp [hmid])
  exact (List.idxOf_inj hmem).mp (le_antisymm hge hle)

/-- **A save writes over the document its copy was made from.**
SRCLINE: apps/api/src/services/remediation-service.ts:167-220 -/
theorem save_current (h : Updates hashToken config db requests)
    (hs : service.Reaches G (serve hashToken config db requests) s)
    (hturn : (footprint db).InTurn order s.history) {id : String} {patch : ResourcePatch}
    {before : Database} (hev : (q, ⟨.saveResource id patch, before⟩) ∈ s.history) :
    ∃ stored action state result, before.resources.get? id = some stored ∧
      applySimulatedAction stored.state action = .ok (state, result) ∧
      patch = .changes stored (updated stored state) := by
  obtain ⟨older, newer, c, plan, matched, resources, hown, hc, hloaded, hstage, -⟩ :=
    execute_event hs hev (Or.inr (Or.inl ⟨_, _, rfl⟩))
  have hcalls := (h.calls hs).2
  obtain ⟨loadedAt, hload, rfl⟩ := hloaded.resourcesRead
  obtain ⟨past, rest, rfl⟩ := List.append_of_mem hload
  obtain ⟨upTo, last, hhist, hupTo, -⟩ := own_split hown
  obtain ⟨first, between, rfl, hfirst, hbetween⟩ := own_split hupTo
  rw [List.append_assoc, List.cons_append] at hhist
  have hreads : writesOf past = [] := hfirst ▸ (reads_first hs hc hhist rfl).1
  have hpast : writesOf (past ++ ⟨.findResources c.workspaceId
      (plan.actions.map (·.resourceId)).eraseDups, loadedAt⟩ :: rest) = writesOf rest := by
    simp only [writesOf, List.map_append, List.filter_append] at hreads ⊢
    rw [hreads]
    rfl
  rw [hpast] at hstage
  obtain ⟨-, hmem, copy, stored, action, state, result, hcopy, hwrites, happly, hpatch⟩ :=
    hstage.saved
  have hnamed : id ∈ (plan.actions.map (·.resourceId)).eraseDups := by simpa using hmem
  rw [get?_byId_findResources hnamed] at hcopy
  obtain ⟨hstored, hws⟩ := Option.filter_eq_some_iff.mp hcopy
  -- it was there from the start
  have hloadedAt := hcalls (q, ⟨.findResources c.workspaceId
    (plan.actions.map (·.resourceId)).eraseDups, loadedAt⟩) (by rw [hhist]; simp)
  obtain ⟨hmem, hcopyId⟩ := Collection.get?_eq_some_iff.mp hstored
  have hcopyId : copy.id = id := hcopyId
  obtain ⟨r, hr, hidentity⟩ := (hloadedAt.1.resource hmem).resolve_right
    (hcopyId ▸ hloadedAt.2 _ hnamed _)
  obtain ⟨hrid, hkey⟩ := Prod.mk.inj hidentity
  have hrid : r.id = id := hrid.trans hcopyId
  have hread : readsCell db (.findResources c.workspaceId
      (plan.actions.map (·.resourceId)).eraseDups) (resourceCell r) :=
    ⟨r, hr, (Prod.mk.inj hkey).1.trans (by simpa using hws), hrid ▸ hnamed, rfl⟩
  -- between load and save only the execution itself has written it
  have hchained := Pool.chained_of_reaches hs
  rw [hhist] at hchained
  obtain ⟨-, hafter⟩ := Pool.Chained.split hchained
  obtain ⟨hpath, -⟩ := Pool.Chained.split hafter
  have hother : ∀ q' mid, (q', mid) ∈ between → q' ≠ q →
      (mid.op.exec mid.before).2.resources.get? id = mid.before.resources.get? id := by
    intro q' mid hmid hne
    obtain ⟨hgrown, hcall⟩ := hcalls (q', mid) (by rw [hhist]; simp [hmid])
    have hcell : ¬ writesCell db mid.op (resourceCell r) := fun hwrite =>
      hne (own_between hturn hhist hread ⟨r, hr, hrid, rfl⟩ hmid hwrite)
    have hbefore := hgrown.get?_resource h.fresh hr
    have hafter := (hgrown.exec h.fresh hcall).get?_resource h.fresh hr
    rw [hrid] at hbefore hafter
    exact hafter.trans ((frame_exec h.fresh hgrown hcall hcell).trans hbefore.symm)
  have hview := hpath.view (fun t => t.resources.get? id) (saveOn id) q (fun mid hmid =>
    get?_resources_exec (execute_not_upsert hs hc (by rw [hhist]; simp [hmid]))) hother
  rw [hbetween, foldl_saveOn_writesOf] at hview
  refine ⟨stored, action, state, result, hview.trans ?_, happly, hpatch⟩
  rw [show (database.exec (.findResources c.workspaceId (plan.actions.map
    (·.resourceId)).eraseDups) loadedAt).2.resources.get? id = some copy from hstored]
  exact hwrites

/-- **A write raises the stored version by one.**
SRCLINE: apps/api/src/services/remediation-service.ts:205-213,
apps/api/src/services/resource-service.ts:31-40 -/
theorem version_raised (h : Updates hashToken config db requests)
    (hs : service.Reaches G (serve hashToken config db requests) s)
    (hturn : (footprint db).InTurn order s.history) {op : DbOp} {before : Database}
    {workspaceId arn : String} (hev : (q, ⟨op, before⟩) ∈ s.history)
    (hwrite : writesCell db op (.resource workspaceId arn)) :
    storedVersion (op.exec before).2 workspaceId arn =
      storedVersion before workspaceId arn + 1 := by
  obtain ⟨hgrown, hcall⟩ := (h.calls hs).2 _ hev
  cases op with
  | saveResource id patch =>
      obtain ⟨r, hr, rfl, hcell⟩ := hwrite
      obtain ⟨rfl, rfl⟩ := Cell.resource.inj hcell
      obtain ⟨stored, action, state, result, hstored, -, rfl⟩ := save_current h hs hturn hev
      have hbefore : before.resources.byIndex? (r.workspaceId, r.arn) = some stored :=
        (hgrown.get?_resource h.fresh hr).symm.trans hstored
      have hid : stored.id = r.id := (Collection.get?_eq_some_iff.mp hstored).2
      have hafter : ((DbOp.saveResource r.id (.changes stored (updated stored state))).exec
          before).2.resources.byIndex? (r.workspaceId, r.arn) = some (updated stored state) := by
        refine content_saveResource.trans ((congrArg _ hbefore).trans ?_)
        rw [Option.map_some, if_pos hid, apply_changes]
      rw [storedVersion, storedVersion, hbefore, hafter]
      rfl
  | upsertResource workspaceId' item lastSyncedAt newId =>
      obtain ⟨rfl, rfl⟩ := Cell.resource.inj hwrite
      have hafter : ((DbOp.upsertResource workspaceId item lastSyncedAt newId).exec
          before).2.resources.byIndex? (workspaceId, item.arn) = _ :=
        (upsertIn_spec h.fresh hgrown lastSyncedAt hcall).2.1
      rw [storedVersion, storedVersion, hafter]
      cases before.resources.byIndex? (workspaceId, item.arn) <;> rfl
  | savePlan id status =>
      obtain ⟨_, hcell⟩ := hwrite
      cases hcell
  | saveApproval id usedAt =>
      obtain ⟨_, _, _, hcell⟩ := hwrite
      cases hcell
  | createExecution execution => cases hwrite
  | _ => exact hwrite.elim

end Runs

/-- **Updates are kept in runs whose conflicts come in turn**, for every order of the requests.
SRCLINE: apps/api/src/services/remediation-service.ts:167-220,
apps/api/src/services/resource-service.ts:25-52 -/
theorem updates_kept (hashToken : String → String) (config : ApiConfig)
    (order : {order : List ℕ // order.Nodup}) :
    KeepsUpdates hashToken config (InTurn order.1) := by
  intro db requests s h hs
  have hturn := Footprint.inTurn_of_reaches hs fun _ _ hG => hG.2
  obtain ⟨-, hcalls⟩ := h.calls hs
  refine ⟨fun hended => ?_, fun q op before workspaceId arn hev => version_raised h hs hturn hev,
    fun q id patch before hev => save_current h hs hturn hev⟩
  refine ⟨Footprint.begun order.1 s.history, order.2.filter _, fun q => ?_,
    fun workspaceId arn => ?_⟩
  · rw [Footprint.begun, List.mem_filter, decide_eq_true_iff, and_iff_right_iff_imp]
    intro hbegun
    obtain ⟨ev, hev⟩ := List.exists_mem_of_ne_nil _ hbegun
    exact hturn.mem (q, ev) (mem_own.mp hev)
  · exact congrArg (Option.map fun r => (r.state, r.version))
      (Footprint.serializable (lawful h.fresh) hs (fun _ _ hG => hG.1) (fun e he => (hcalls e he).2)
        .refl order.2 hturn hended (Cell.resource workspaceId arn))

/-! ## Two executions that load a bucket before either saves it -/

/-- An approved plan for one action on the bucket. -/
def bucketPlan (id : String) (actionType : ActionType) : RemediationPlan :=
  ⟨id, "ws", ["f-1"], [⟨actionType, "r-1", "f-1", Dict.empty⟩], false, .approved, "operator",
    "c-0", id, 1⟩

/-- A store with the bucket and two approved plans for it. -/
def twoPlans : Database :=
  { bucketStore with
    plans := ⟨[bucketPlan "p-1" .restrictPublicStorage, bucketPlan "p-2" .enableBackupPolicy],
      by decide, by decide⟩
    tokens := ⟨[⟨"t-1", "ws", "p-1", "token-1", 9, none, "admin"⟩,
      ⟨"t-2", "ws", "p-2", "token-2", 9, none, "admin"⟩], by decide, by decide⟩ }

/-- The two plans are executed; nothing else is asked for. -/
def executeBoth : ℕ → Incoming
  | 0 => .ok <| .execute "ws" "p-1" "operator" "c-1" ⟨"token-1", "key-1", 1, 1, 2, 2, "e-1", 3⟩
  | 1 => .ok <| .execute "ws" "p-2" "operator" "c-2" ⟨"token-2", "key-2", 1, 1, 2, 2, "e-2", 3⟩
  | _ => .error (.notFound "no such route")

/-- Both make their four reads, then each goes on to its end. -/
def loadThenSave : List PoolEvent :=
  List.replicate 4 (.run 0) ++ List.replicate 4 (.run 1) ++ List.replicate 6 (.run 0) ++
    List.replicate 6 (.run 1)

/-- The requests that execute a plan, their plans and the identities they draw. -/
theorem executeCall_executeBoth {config : ApiConfig} {q : ℕ} {c : ExecuteCall}
    (hc : executeCall (fun token => token) config (executeBoth q) = some c) :
    (q = 0 ∧ c.planId = "p-1" ∧ c.input.newExecutionId = "e-1") ∨
      (q = 1 ∧ c.planId = "p-2" ∧ c.input.newExecutionId = "e-2") := by
  rcases q with _ | _ | q
  · cases hc
    exact Or.inl ⟨rfl, rfl, rfl⟩
  · cases hc
    exact Or.inr ⟨rfl, rfl, rfl⟩
  · cases hc

/-- Neither of the requests syncs. -/
theorem syncCall_executeBoth {config : ApiConfig} (q : ℕ) :
    syncCall config (executeBoth q) = none := by
  rcases q with _ | _ | q <;> rfl

/-- The requests execute different plans, and draw identities of their own. -/
theorem updates_executeBoth (config : ApiConfig) :
    Updates (fun token => token) config twoPlans executeBoth where
  kinds := by
    intro q
    rcases q with _ | _ | q <;> exact ⟨rfl, rfl⟩
  distinct := by
    intro q q' c c' hc hc' hplan
    rcases executeCall_executeBoth hc with ⟨rfl, hid, -⟩ | ⟨rfl, hid, -⟩ <;>
      rcases executeCall_executeBoth hc' with ⟨rfl, hid', -⟩ | ⟨rfl, hid', -⟩ <;>
      simp_all
  mutating := by
    intro q c _ plan hplan _
    have hall : ∀ plan ∈ twoPlans.plans.docs, plan.dryRun = false := by decide
    exact hall plan hplan
  fresh := by
    refine ⟨?_, ?_⟩
    · rintro id key ⟨q, c, items, i, hc, -⟩
      rw [syncCall_executeBoth] at hc
      cases hc
    · rintro id key ⟨q, c, hc, rfl, rfl⟩
      refine ⟨fun e he => absurd he (Collection.not_mem_empty e), ?_⟩
      rintro key' ⟨q', c', hc', hid, rfl⟩
      obtain rfl : q = q' := by
        rcases executeCall_executeBoth hc with ⟨rfl, -, hnew⟩ | ⟨rfl, -, hnew⟩ <;>
          rcases executeCall_executeBoth hc' with ⟨rfl, -, hnew'⟩ | ⟨rfl, -, hnew'⟩ <;>
          simp_all
      obtain rfl := Option.some.inj (hc.symm.trans hc')
      rfl
  planned := by
    rintro plan _ action _ key ⟨q, c, items, i, hc, -⟩
    rw [syncCall_executeBoth] at hc
    cases hc

/-- Two executions that load the bucket before either saves it leave it with one version more,
where one after another they would leave it with two.
SRCLINE: apps/api/src/services/remediation-service.ts:167-220 -/
theorem updates_lost : ¬ KeepsUpdates (fun token => token) ⟨.mock, false, 900000⟩
    (fun _ => Machine.unguarded) := by
  intro h
  let s := (service.run (serve (fun token => token) ⟨.mock, false, 900000⟩ twoPlans executeBoth)
    loadThenSave).get (by decide +kernel)
  have hs : service.Reaches Machine.unguarded (serve (fun token => token) ⟨.mock, false, 900000⟩
      twoPlans executeBoth) s :=
    Machine.reaches_of_run loadThenSave (Option.some_get _).symm
  have hown : ∀ e ∈ s.history, e.1 = 0 ∨ e.1 = 1 := by decide +kernel
  have hended : ∀ e ∈ s.history, (s.procs e.1).Ended := by decide +kernel
  have hbegun : ∀ q, own q s.history ≠ [] ↔ q ∈ [0, 1] := by
    intro q
    constructor
    · intro hq
      obtain ⟨ev, hev⟩ := List.exists_mem_of_ne_nil _ hq
      simpa using hown _ (mem_own.mp hev)
    · intro hq
      have hboth : ∀ q ∈ [0, 1], ∃ e ∈ s.history, e.1 = q := by decide +kernel
      obtain ⟨⟨_, ev⟩, hev, rfl⟩ := hboth q hq
      exact List.ne_nil_of_mem (mem_own.mpr hev)
  obtain ⟨order, hnodup, horder, hserial⟩ :=
    (h twoPlans executeBoth s (updates_executeBoth _) hs).serial fun q hq => by
      obtain ⟨ev, hev⟩ := List.exists_mem_of_ne_nil _ hq
      exact hended _ (mem_own.mp hev)
  have hperm : order ∈ [[0, 1], [1, 0]] := by
    have hsame : order.Perm [0, 1] := (List.perm_ext_iff_of_nodup hnodup (by decide)).mpr
      fun q => (horder q).trans (hbegun q)
    obtain ⟨a, b, rfl⟩ := List.length_eq_two.mp hsame.length_eq
    have ha : a = 0 ∨ a = 1 := by simpa using hsame.mem_iff.mp (List.mem_cons_self (l := [b]))
    have hb : b = 0 ∨ b = 1 := by simpa using hsame.mem_iff.mp (by simp : b ∈ [a, b])
    have hne : a ≠ b := by simpa using hnodup
    simp only [List.mem_cons, List.cons.injEq, and_true, List.not_mem_nil, or_false]
    omega
  have hdiffer : ∀ order ∈ [[0, 1], [1, 0]], written s.store "ws" bucket.arn ≠
      written (runInTurn database (fun q => (executeBoth q).program (fun token => token)
        ⟨.mock, false, 900000⟩) order twoPlans) "ws" bucket.arn := by decide +kernel
  exact hdiffer order hperm (hserial "ws" bucket.arn)

/-! ## Two executions one of which loads after the other has saved -/

/-- What a cell is about, whatever its workspace. -/
inductive Subject
  | resources
  | execution (idempotencyKey : String)
  | plan (id : String)
  | approvals (planId : String)
  deriving DecidableEq

/-- The subject of a cell. -/
def Cell.subject : Cell → Subject
  | .resource _ _ => .resources
  | .execution _ key => .execution key
  | .plan id _ => .plan id
  | .approvals _ planId => .approvals planId

/-- The subject of the cells a call touches. -/
def subjectOf (base : Database) : DbOp → Option Subject
  | .findResources _ _ | .saveResource _ _ | .upsertResource _ _ _ _ => some .resources
  | .findExecutionByKey _ key => some (.execution key)
  | .createExecution execution => some (.execution execution.idempotencyKey)
  | .findPlan id _ | .savePlan id _ => some (.plan id)
  | .findApprovals _ planId => some (.approvals planId)
  | .saveApproval id _ => (base.tokens.get? id).map fun token => .approvals token.planId
  | _ => none

/-- **A call touches cells of one subject.** -/
theorem subjectOf_touched {base : Database} {op : DbOp} {cell : Cell}
    (h : (footprint base).Touches op cell) : subjectOf base op = some cell.subject := by
  rcases h with hread | hwrite
  · cases op with
    | findExecutionByKey workspaceId key =>
        obtain rfl : cell = .execution workspaceId key := hread
        rfl
    | findPlan id workspaceId =>
        obtain rfl : cell = .plan id workspaceId := hread
        rfl
    | findApprovals workspaceId planId =>
        obtain rfl : cell = .approvals workspaceId planId := hread
        rfl
    | findResources workspaceId ids =>
        obtain ⟨r, -, -, -, rfl⟩ := hread
        rfl
    | _ => exact hread.elim
  · cases op with
    | savePlan id status =>
        obtain ⟨workspaceId, rfl⟩ := hwrite
        rfl
    | saveApproval id usedAt =>
        obtain ⟨token, htoken, rfl, rfl⟩ := hwrite
        exact congrArg (Option.map _) (Collection.get?_id htoken)
    | saveResource id patch =>
        obtain ⟨r, -, -, rfl⟩ := hwrite
        rfl
    | createExecution execution =>
        obtain rfl : cell = .execution execution.workspaceId execution.idempotencyKey := hwrite
        rfl
    | upsertResource workspaceId item lastSyncedAt newId =>
        obtain rfl : cell = .resource workspaceId item.arn := hwrite
        rfl
    | _ => exact hwrite.elim

/-- Conflicting calls have one subject. -/
theorem subjectOf_conflict {base : Database} {op op' : DbOp}
    (h : (footprint base).Conflict op op') : subjectOf base op = subjectOf base op' := by
  obtain ⟨cell, ⟨hwrite, htouch⟩ | ⟨htouch, hwrite⟩⟩ := h
  · rw [subjectOf_touched (Or.inr hwrite), subjectOf_touched htouch]
  · rw [subjectOf_touched htouch, subjectOf_touched (Or.inr hwrite)]

/-- Whether no later request of the list has made a call with the subject of this one. -/
def subjectsInTurn (order : List ℕ) (base : Database) (s : ServicePool) (q : ℕ)
    (op : DbOp) : Bool :=
  order.contains q && s.history.all fun e => decide (subjectOf base e.2.op = subjectOf base op →
    order.idxOf e.1 ≤ order.idxOf q)

/-- Whether an event lets nothing fail. -/
def isRun : PoolEvent → Bool
  | .run _ => true
  | .fail _ _ => false

/-- The checks decide that conflicts come in turn. -/
theorem inTurn_of_check {order : List ℕ} {base : Database} (s : ServicePool) (e : PoolEvent)
    (h : (isRun e && Pool.passes (subjectsInTurn order base) s e) = true) :
    InTurn order base s e := by
  obtain ⟨hrun, hpasses⟩ := Bool.and_eq_true_iff.mp h
  refine ⟨?_, fun q op hp => ?_⟩
  · cases e with
    | run q => exact ⟨q, rfl⟩
    | fail q applied => cases hrun
  · obtain ⟨hmem, hsubjects⟩ := Bool.and_eq_true_iff.mp (hp.passed hpasses)
    refine ⟨by simpa using hmem, fun e' he' hconflict => ?_⟩
    exact of_decide_eq_true (List.all_eq_true.mp hsubjects e' he') (subjectOf_conflict hconflict)

/-- The requests take turns, but the second loads the bucket after the first has saved it. -/
def loadAfterSave : List PoolEvent :=
  ([0, 1, 0, 1, 0, 1, 0, 0, 0, 0, 1, 0, 1, 0, 1, 0, 1, 1, 1, 1] : List ℕ).map .run

/-- The requests when they have ended. -/
def loadAfterSavePool : ServicePool :=
  (service.runChecked (fun s e => isRun e && Pool.passes (subjectsInTurn [0, 1] twoPlans) s e)
    (serve (fun token => token) ⟨.mock, false, 900000⟩ twoPlans executeBoth)
    loadAfterSave).get (by decide +kernel)

/-- Both changes of the bucket are kept, under two new versions. -/
theorem updates_kept_loadAfterSave :
    (∀ e ∈ loadAfterSavePool.history, (loadAfterSavePool.procs e.1).Ended) ∧
      storedVersion twoPlans "ws" bucket.arn = 1 ∧
      storedVersion loadAfterSavePool.store "ws" bucket.arn = 3 ∧
      UpdatesKept (fun token => token) ⟨.mock, false, 900000⟩ twoPlans executeBoth
        loadAfterSavePool := by
  have hs : service.Reaches (InTurn [0, 1] twoPlans) (serve (fun token => token)
      ⟨.mock, false, 900000⟩ twoPlans executeBoth) loadAfterSavePool :=
    Machine.reaches_of_runChecked inTurn_of_check loadAfterSave (Option.some_get _).symm
  exact ⟨by decide +kernel, by decide +kernel, by decide +kernel,
    updates_kept _ _ ⟨[0, 1], by decide⟩ twoPlans executeBoth _ (updates_executeBoth _) hs⟩

end CloudOps.Analysis
