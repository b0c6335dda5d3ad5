import CloudOps.Analysis.ResourceCopies
import CloudOps.Analysis.SingleExecution
import CloudOps.Interface.Changes

/-!
# Previews of dry runs

A dry run and a real run share one loop, but the dry run applies every action to the
resource as loaded, while the real run applies each to the result of the one before. The
preview is what the last action alone would do; `dryRun_faithful_iff` says when that is what
the whole plan does.
-/

set_option autoImplicit false

namespace CloudOps.Analysis

open CloudOps.Computation CloudOps.Model CloudOps.Model.RemediationService CloudOps.Interface

/-- No request but `q` has changed resource `id`. -/
def Alone (history : History) (q : ℕ) (id : String) : Prop :=
  ∀ e ∈ history, e.1 ≠ q →
    (e.2.op.exec e.2.before).2.resources.get? id = e.2.before.resources.get? id

instance (history : History) (q : ℕ) (id : String) : Decidable (Alone history q id) :=
  inferInstanceAs (Decidable (∀ e ∈ history, e.1 ≠ q → _ = _))

/-! ## One resource along a run -/

/-- Only the writes matter for what is saved of a resource. -/
theorem foldl_saveOn_writesOf (id : String) (past : Past) (stored : Option CloudResource) :
    past.foldl (fun stored ev => saveOn id ev.op stored) stored =
      (writesOf past).foldl (fun stored op => saveOn id op stored) stored := by
  induction past generalizing stored with
  | nil => rfl
  | cons ev past ih =>
      obtain ⟨op, before⟩ := ev
      cases op <;> exact ih _

section Runs

variable {hashToken : String → String} {config : ApiConfig} {db : Database}
  {requests : ℕ → Incoming} {G : ServicePool → PoolEvent → Prop} {s : ServicePool}
  {q : ℕ} {c : ExecuteCall} {id : String}

/-- An execute request upserts nothing. -/
theorem execute_not_upsert (hs : service.Reaches G (serve hashToken config db requests) s)
    (hc : executeCall hashToken config (requests q) = some c) {ev : Event DbOp Database}
    (hev : (q, ev) ∈ s.history) (ws : String) (item : ListedResource) (lastSyncedAt : Time)
    (newId : String) : ev.op ≠ .upsertResource ws item lastSyncedAt newId := by
  intro hop
  obtain ⟨older, newer, hown⟩ := List.append_of_mem (mem_own.mpr hev)
  obtain ⟨c', _, _, _, hc', -⟩ := justified_upsert (hop ▸ (conforms hs q).emitted _ _ _ hown)
  unfold executeCall at hc
  unfold syncCall at hc'
  split at hc
  · next heq => simp [heq] at hc'
  · cases hc

/-- **A resource that only one execute request changes** holds what the request has written. -/
theorem get?_resources_own (hs : service.Reaches G (serve hashToken config db requests) s)
    (hc : executeCall hashToken config (requests q) = some c) {older newer : History}
    (hsplit : s.history = older ++ newer) {t : Database}
    (hchained : Pool.Chained database db older t) (halone : Alone older q id) :
    t.resources.get? id =
      (writesOf (own q older)).foldl (fun stored op => saveOn id op stored)
        (db.resources.get? id) := by
  have hview := hchained.view (fun db => db.resources.get? id) (saveOn id) q
    (fun ev hev => get?_resources_exec (execute_not_upsert hs hc
      (hsplit ▸ List.mem_append_left _ hev))) (fun q' ev hev hne => halone (q', ev) hev hne)
  rw [← foldl_saveOn_writesOf]
  exact hview

/-- A request of the run has executed a plan, and is the only one to have changed the resources
of the plan. -/
structure ExecutedAlone (hashToken : String → String) (config : ApiConfig) (db : Database)
    (requests : ℕ → Incoming) (q : ℕ) (plan : RemediationPlan) (e : RemediationExecution)
    (s : ServicePool) : Prop where
  reaches : service.Reaches Machine.unguarded (serve hashToken config db requests) s
  call : (executeCall hashToken config (requests q)).isSome
  returned : s.procs q = .ret (.execution e false)
  stored : plan ∈ s.store.plans
  planId : plan.id = e.planId
  alone : ∀ id ∈ plan.actions.map (·.resourceId), Alone s.history q id

/-- The loop of an undisturbed execution: it was permitted, it ran on the resources as they were
at the start, the record holds what it has recorded, and the store what it has written. -/
structure LoopRan (config : ApiConfig) (db : Database) (plan : RemediationPlan)
    (e : RemediationExecution) (after : Database) (resources : List CloudResource)
    (loop : LoopState) : Prop where
  permitted : plan.dryRun = false → rejectMutationsIfDisabled config.ENABLE_AWS_MUTATIONS
    config.CLOUD_PROVIDER = .ok ()
  run : loopRun config plan.dryRun (loopStart resources) plan.actions = .ok loop
  results : e.results = loop.results
  beforeState : e.beforeState = loop.beforeState
  afterState : e.afterState = loop.afterState
  loaded : ∀ id ∈ plan.actions.map (·.resourceId), (byId resources).get? id =
    (db.resources.get? id).filter (·.workspaceId = plan.workspaceId)
  stored : ∀ id ∈ plan.actions.map (·.resourceId), after.resources.get? id =
    (loopWrites config plan.dryRun (loopStart resources) plan.actions).foldl
      (fun stored op => saveOn id op stored) (db.resources.get? id)

/-- **What an undisturbed execution does.**
SRCLINE: apps/api/src/services/remediation-service.ts:135-252 -/
theorem ExecutedAlone.loop {plan : RemediationPlan} {e : RemediationExecution}
    (h : ExecutedAlone hashToken config db requests q plan e s) :
    ∃ resources loop, LoopRan config db plan e s.store resources loop := by
  have hs := h.reaches
  obtain ⟨c, hc⟩ := Option.isSome_iff_exists.mp h.call
  obtain ⟨-, hconfig, -, hendingEq⟩ := executeCall_eq hc
  have hending := (conforms hs q).emits.resolve_right (by rw [h.returned]; simp)
  rw [h.returned, hendingEq] at hending
  obtain ⟨p, matched, resources, loop, event, hloaded, hrun, hwrites, -, rfl⟩ :=
    ExecuteCall.Ending.executed hending
  -- the plan that was loaded is the plan that is stored, but for its status
  obtain ⟨hid, hws, ⟨p', hp', hpEq⟩, -⟩ := hloaded.stored hs fun ev => mem_own.mp
  obtain rfl : p' = plan := Collection.eq_of_id hp' h.stored (by
    rw [hpEq]; exact hid.trans h.planId.symm)
  have hactions : p'.actions = p.actions := by rw [hpEq]
  have hdryRun : p'.dryRun = p.dryRun := by rw [hpEq]
  have hworkspace : p'.workspaceId = c.workspaceId := by rw [hpEq]; exact hws
  have halone : ∀ id ∈ p.actions.map (·.resourceId), Alone s.history q id := hactions ▸ h.alone
  have hpath := Pool.chained_of_reaches hs
  refine ⟨resources, loop, ?_, ?_, rfl, rfl, rfl, fun id hmem => ?_, fun id hmem => ?_⟩
  · rw [hdryRun]
    exact hconfig ▸ hloaded.permitted
  · rw [hactions, hdryRun]
    exact hconfig ▸ hrun
  · rw [hactions] at hmem
    obtain ⟨before, hread, rfl⟩ := hloaded.resourcesRead
    obtain ⟨older, newer, hsplit⟩ := List.append_of_mem (mem_own.mp hread)
    have hbefore := get?_resources_own hs hc hsplit (hsplit ▸ hpath).split.1 fun ev hev =>
      halone id hmem ev (hsplit ▸ List.mem_append_left _ hev)
    rw [(reads_first hs hc hsplit rfl).1, List.foldl_nil] at hbefore
    rw [get?_byId_findResources (by simpa using hmem), hbefore, hworkspace]
  · rw [hactions] at hmem
    have hafter := get?_resources_own hs hc (List.append_nil _).symm hpath (halone id hmem)
    rw [hafter, hwrites, ExecuteCall.writesUpTo, hconfig, hactions, hdryRun]
    simp [ExecuteCall.opening, saveOn]

/-- The copy the loop starts with of a resource of the plan. -/
theorem LoopRan.copy {plan : RemediationPlan} {e : RemediationExecution} {after : Database}
    {resources : List CloudResource} {loop : LoopState} {r : CloudResource}
    (h : LoopRan config db plan e after resources loop) (hr : r ∈ db.resources)
    (hws : r.workspaceId = plan.workspaceId) (hid : r.id ∈ plan.actions.map (·.resourceId)) :
    (byId resources).get? r.id = some r := by
  have hget : db.resources.get? r.id = some r := Collection.get?_id hr
  rw [h.loaded r.id hid, hget, Option.filter_some, if_pos (by simpa using hws)]

/-- Every resource of a plan that is in the workspace has a last action. -/
theorem actionsOn_eq_concat {actions : List RemediationAction}
    (h : id ∈ actions.map (·.resourceId)) :
    ∃ others last, actionsOn id actions = others ++ [last] := by
  obtain ⟨action, hmem, rfl⟩ := List.mem_map.mp h
  have hne : actionsOn action.resourceId actions ≠ [] :=
    List.ne_nil_of_mem (List.mem_filter.mpr ⟨hmem, by simp⟩)
  exact (List.eq_nil_or_concat' _).resolve_left hne

section Resource

variable {plan : RemediationPlan} {e : RemediationExecution} {r : CloudResource}

/-- **The preview of a dry run**: what the last action alone makes of the resource.
SRCLINE: apps/api/src/services/remediation-service.ts:190-219 -/
theorem ExecutedAlone.preview (h : ExecutedAlone hashToken config db requests q plan e s)
    (hdryRun : plan.dryRun = true) (hr : r ∈ db.resources)
    (hws : r.workspaceId = plan.workspaceId) (hid : r.id ∈ plan.actions.map (·.resourceId)) :
    (∀ a ∈ actionsOn r.id plan.actions, a.actionType ∈ ALLOWLISTED_ACTIONS) ∧
      e.afterState.get? r.id = (actionsOn r.id plan.actions).getLast?.map fun a =>
        .preview (effect r.state a) := by
  obtain ⟨resources, loop, hloop⟩ := h.loop
  have hrun := hloop.run
  rw [hdryRun] at hrun
  have hcopy : (byId resources).get? r.id = some r := hloop.copy hr hws hid
  refine ⟨loopRun_allowed hrun (Option.isSome_of_eq_some hcopy), ?_⟩
  rw [hloop.afterState, loopRun_dryRun hrun hcopy]
  exact Option.or_none

/-- **The resource after a real run**: what all actions in turn make of it.
SRCLINE: apps/api/src/services/remediation-service.ts:205-219 -/
theorem ExecutedAlone.storedAfter (h : ExecutedAlone hashToken config db requests q plan e s)
    (hmock : config.CLOUD_PROVIDER = .mock) (hdryRun : plan.dryRun = false)
    (hr : r ∈ db.resources) (hws : r.workspaceId = plan.workspaceId)
    (hid : r.id ∈ plan.actions.map (·.resourceId)) :
    s.store.resources.get? r.id = some (actOn r (actionsOn r.id plan.actions)) := by
  obtain ⟨resources, loop, hloop⟩ := h.loop
  have hmut : mutates config plan.dryRun = true := by simp [mutates, hmock, hdryRun]
  have hget : db.resources.get? r.id = some r := Collection.get?_id hr
  rw [hloop.stored r.id hid, hget]
  exact (loopRun_mutates hmut hloop.run (keyed_byId resources) (hloop.copy hr hws hid)).2

end Resource

end Runs

/-! ## Fidelity -/

/-- The dry run was faithful: its preview of every resource of the plan is what the real run
has left of it. -/
def Faithful (db : Database) (plan : RemediationPlan) (e : RemediationExecution)
    (after : Database) : Prop :=
  ∀ r ∈ db.resources, r.workspaceId = plan.workspaceId →
    r.id ∈ plan.actions.map (·.resourceId) → ∃ r' ∈ after.resources, r'.id = r.id ∧
      e.afterState.get? r.id = some (.preview r'.state)

/-- A dry run of a plan and a real run of a plan with the same actions, from the same resources. -/
structure SamePlanTwice (hashToken : String → String) (config : ApiConfig)
    (db db' : Database) (requests requests' : ℕ → Incoming) (q q' : ℕ)
    (plan plan' : RemediationPlan) (e e' : RemediationExecution) (s s' : ServicePool) : Prop where
  dry : ExecutedAlone hashToken config db requests q plan e s
  real : ExecutedAlone hashToken config db' requests' q' plan' e' s'
  dryRun : plan.dryRun = true ∧ plan'.dryRun = false
  actions : plan'.actions = plan.actions
  workspaceId : plan'.workspaceId = plan.workspaceId
  resources : db'.resources = db.resources

/-- **When dry runs are faithful**: exactly when, for every resource of the plan, each change
but the last is overwritten by a later one or is in effect in the stored resource already.
SRCLINE: apps/api/src/services/remediation-service.ts:167-220 -/
theorem dryRun_faithful_iff {hashToken : String → String} {config : ApiConfig}
    {db db' : Database} {requests requests' : ℕ → Incoming} {q q' : ℕ}
    {plan plan' : RemediationPlan} {e e' : RemediationExecution} {s s' : ServicePool}
    (hmock : config.CLOUD_PROVIDER = .mock)
    (h : SamePlanTwice hashToken config db db' requests requests' q q' plan plan' e e' s s') :
    Faithful db plan e s'.store ↔ ∀ r ∈ db.resources, r.workspaceId = plan.workspaceId →
      r.id ∈ plan.actions.map (·.resourceId) →
        changes.OthersInEffect r.state ((actionsOn r.id plan.actions).filterMap changeOf) := by
  refine forall₄_congr fun r hr hws hid => ?_
  obtain ⟨hall, hpreview⟩ := h.dry.preview h.dryRun.1 hr hws hid
  have hstored := h.real.storedAfter hmock h.dryRun.2 (h.resources ▸ hr)
    (hws.trans h.workspaceId.symm) (h.actions ▸ hid)
  rw [h.actions] at hstored
  obtain ⟨others, last, hactions⟩ := actionsOn_eq_concat hid
  rw [hactions] at hall hpreview hstored ⊢
  obtain ⟨change, hchange, heffect⟩ := effect_eq_change (r := r.state) (hall last (by simp))
  have hlast : others.filterMap changeOf ++ [change] = (others ++ [last]).filterMap changeOf := by
    simp [hchange]
  have hfold : (actOn r (others ++ [last])).state =
      changes.applyAll r.state (others.filterMap changeOf ++ [change]) := by
    rw [actOn_state, foldl_effect_eq_applyAll hall, hlast]
  rw [List.getLast?_concat, Option.map_some, heffect] at hpreview
  rw [← hlast, ← Overwriting.last_alone_iff, ← hfold, hpreview]
  obtain ⟨hmem, hid'⟩ := Collection.get?_eq_some_iff.mp hstored
  constructor
  · rintro ⟨r', hr', hid'', heq⟩
    obtain rfl := Collection.eq_of_id hr' hmem (hid''.trans hid'.symm)
    exact (AfterState.preview.inj (Option.some.inj heq)).symm
  · intro heq
    exact ⟨_, hmem, hid', by rw [heq]; rfl⟩

/-! ## Two changes of one resource -/

/-- Dry runs are faithful, whatever the plan and the resources are. -/
def DryRunsFaithful (hashToken : String → String) (config : ApiConfig) : Prop :=
  ∀ db db' requests requests' q q' plan plan' e e' s s',
    SamePlanTwice hashToken config db db' requests requests' q q' plan plan' e e' s s' →
      Faithful db plan e s'.store

/-- The bucket, with a finding about its public access and one about its backups. -/
def twoFindings : Database :=
  { bucketStore with
    findings := ⟨[⟨"f-1", "ws", "job-1", "r-1", "s3.public_access", "high", "", "", "", "c-job", 0⟩,
      ⟨"f-2", "ws", "job-1", "r-1", "resource.missing_backup", "high", "", "", "", "c-job", 0⟩],
      by decide, by decide⟩ }

/-- A plan for some findings, its approval and its execution. -/
def planFor (findingIds : List String) (dryRun : Bool) : ℕ → Incoming
  | 0 => .ok <| .createPlan "ws" "operator" "c-0" ⟨findingIds, dryRun, "plan-key", "p-1", 0⟩
  | 1 => .ok <| .approve "ws" "p-1" "admin" "c-1" ⟨"approval-token-01", "t-1", 0, 0⟩
  | _ => .ok <| .execute "ws" "p-1" "operator" "c-2"
      ⟨"approval-token-01", "key-0001", 1, 1, 2, 2, "e-1", 3⟩

/-- The three requests one after another; the execution takes nine calls and its saves. -/
def afterRun (findingIds : List String) (dryRun : Bool) (saves : ℕ) : Option ServicePool :=
  service.run (serve (fun token => token) ⟨.mock, false, 900000⟩ twoFindings
    (planFor findingIds dryRun)) (List.replicate 5 (.run 0) ++ List.replicate 4 (.run 1) ++
      List.replicate (9 + saves) (.run 2))

/-- The execution a request has returned. -/
def returnedExecution (s : ServicePool) (q : ℕ) : Option RemediationExecution :=
  match s.procs q with
  | .ret (.execution e false) => some e
  | _ => none

/-- What the run has executed, and the state it has left. -/
def executedRun (findingIds : List String) (dryRun : Bool) (saves : ℕ) :
    Option (RemediationPlan × RemediationExecution × ServicePool) := do
  let s ← afterRun findingIds dryRun saves
  let e ← returnedExecution s 2
  let plan ← s.store.plans.get? e.planId
  return (plan, e, s)

/-- An execution that has been returned has been executed alone if nobody else writes its resources.
-/
theorem executedAlone_of_returned {hashToken : String → String} {config : ApiConfig}
    {db : Database} {requests : ℕ → Incoming} {q : ℕ} {s : ServicePool} {e : RemediationExecution}
    {plan : RemediationPlan}
    (hs : service.Reaches Machine.unguarded (serve hashToken config db requests) s)
    (hcall : (executeCall hashToken config (requests q)).isSome)
    (he : returnedExecution s q = some e) (hplan : s.store.plans.get? e.planId = some plan)
    (halone : ∀ id ∈ plan.actions.map (·.resourceId), Alone s.history q id) :
    ExecutedAlone hashToken config db requests q plan e s := by
  obtain ⟨hstored, hid⟩ := Collection.get?_eq_some_iff.mp hplan
  refine ⟨hs, hcall, ?_, hstored, hid, halone⟩
  unfold returnedExecution at he
  split at he
  · next heq => cases he; exact heq
  · cases he

/-- The executions of these runs have been executed alone. -/
theorem executedAlone_of_run {findingIds : List String} {dryRun : Bool} {saves : ℕ}
    {x : RemediationPlan × RemediationExecution × ServicePool}
    (h : executedRun findingIds dryRun saves = some x)
    (halone : ∀ id ∈ x.1.actions.map (·.resourceId), Alone x.2.2.history 2 id) :
    ExecutedAlone (fun token => token) ⟨.mock, false, 900000⟩ twoFindings
      (planFor findingIds dryRun) 2 x.1 x.2.1 x.2.2 := by
  simp only [executedRun, Option.bind_eq_bind, Option.bind_eq_some_iff] at h
  obtain ⟨s', hs, e', he, plan', hplan, heq⟩ := h
  cases heq
  exact executedAlone_of_returned (Machine.reaches_of_run _ hs) rfl he hplan halone

/-- The dry run of a plan that closes the bucket and backs it up previews the backup alone.
SRCLINE: apps/api/src/services/remediation-service.ts:190-219 -/
theorem dryRuns_not_faithful : ¬ DryRunsFaithful (fun token => token) ⟨.mock, false, 900000⟩ := by
  intro h
  let dry := (executedRun ["f-1", "f-2"] true 0).get (by decide +kernel)
  let real := (executedRun ["f-1", "f-2"] false 2).get (by decide +kernel)
  have hdry : ExecutedAlone _ _ _ (planFor ["f-1", "f-2"] true) 2 dry.1 dry.2.1 dry.2.2 :=
    executedAlone_of_run (Option.some_get _).symm (by decide +kernel)
  have hreal : ExecutedAlone _ _ _ (planFor ["f-1", "f-2"] false) 2 real.1 real.2.1 real.2.2 :=
    executedAlone_of_run (Option.some_get _).symm (by decide +kernel)
  obtain ⟨r', hr', -, heq⟩ := h _ _ _ _ _ _ _ _ _ _ _ _ ⟨hdry, hreal, by decide +kernel,
    by decide +kernel, by decide +kernel, rfl⟩ bucket (by decide +kernel) (by decide +kernel)
    (by decide +kernel)
  have hnone : ∀ r' ∈ real.2.2.store.resources.docs,
      dry.2.1.afterState.get? bucket.id ≠ some (.preview r'.state) := by decide +kernel
  exact hnone r' hr' heq

/-- A plan with one action has a faithful dry run. -/
theorem dryRun_faithful_single : ∃ plan e s, ExecutedAlone (fun token => token)
    ⟨.mock, false, 900000⟩ twoFindings (planFor ["f-1"] true) 2 plan e s ∧
      ∃ plan' e' s', ExecutedAlone (fun token => token) ⟨.mock, false, 900000⟩ twoFindings
        (planFor ["f-1"] false) 2 plan' e' s' ∧ Faithful twoFindings plan e s'.store := by
  let dry := (executedRun ["f-1"] true 0).get (by decide +kernel)
  let real := (executedRun ["f-1"] false 1).get (by decide +kernel)
  have hdry : ExecutedAlone _ _ _ (planFor ["f-1"] true) 2 dry.1 dry.2.1 dry.2.2 :=
    executedAlone_of_run (Option.some_get _).symm (by decide +kernel)
  have hreal : ExecutedAlone _ _ _ (planFor ["f-1"] false) 2 real.1 real.2.1 real.2.2 :=
    executedAlone_of_run (Option.some_get _).symm (by decide +kernel)
  refine ⟨_, _, _, hdry, _, _, _, hreal, (dryRun_faithful_iff rfl ⟨hdry, hreal, by decide +kernel,
    by decide +kernel, by decide +kernel, rfl⟩).mpr fun r hr _ _ => ?_⟩
  obtain rfl : r = bucket := List.mem_singleton.mp hr
  have hchanges : (actionsOn bucket.id dry.1.actions).filterMap changeOf = [.restrict] := by
    decide +kernel
  rw [hchanges]
  exact Overwriting.othersInEffect_singleton

end CloudOps.Analysis
