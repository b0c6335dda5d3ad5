import CloudOps.Analysis.ExecuteFootprint
import CloudOps.Analysis.RemediationImproves

/-!
# Executions that overlap improve the inventory

An execution saves the tags, the config and the metrics of a resource apart, each only if it has
changed its copy. So where executions overlap, a stored resource may be pieced together from
several copies, some of them stale. What carries over is improvement field by field: each copy
improves what was loaded, what was loaded improves the resource at the start, and it does not
matter which of them a field is from (`changes_improve`). `mended_of_reaches` is the invariant of
all runs without a `sync`.
-/

set_option autoImplicit false

namespace CloudOps.Analysis

open CloudOps.Computation CloudOps.Model CloudOps.Model.RemediationService CloudOps.Interface

/-! ## Field by field -/

/-- Tags with the same environment, and no required tag less. -/
structure TagsImprove (tags tags' : StringRecord) : Prop where
  environment : tags'.get? "Environment" = tags.get? "Environment"
  required : ∀ tag ∈ REQUIRED_TAGS, (tags'.get? tag).getD "" = "" → (tags.get? tag).getD "" = ""

/-- A config that the policies fault for nothing new. -/
structure ConfigImproves (config config' : ResourceConfig) : Prop where
  publicAccess : config'.publicAccess = some true → config.publicAccess = some true
  alarms : config'.alarms.getD [] = [] → config.alarms.getD [] = []
  healthCheckStatus : config'.healthCheckStatus = some .unhealthy →
    config.healthCheckStatus = some .unhealthy
  backupEnabled : config'.backupEnabled = some false → config.backupEnabled = some false

/-- Metrics with no higher error rate, as far as the policies look. -/
structure MetricsImprove (metrics metrics' : ResourceMetrics) : Prop where
  errorRate : 5 / 100 < metrics'.errorRate.getD 0 → 5 / 100 < metrics.errorRate.getD 0
  others : metrics' = { metrics with errorRate := metrics'.errorRate }

/-- Each field is no worse. -/
structure StateImproves (r r' : ResourceState) : Prop where
  tags : TagsImprove r.tags r'.tags
  config : ConfigImproves r.config r'.config
  metrics : MetricsImprove r.metrics r'.metrics

variable {r r' r'' base : ResourceState} {action : RemediationAction}
  {resourceId : String}

/-- A resource that stays as it is improves. -/
theorem StateImproves.refl : StateImproves r r :=
  ⟨⟨rfl, fun _ _ h => h⟩, ⟨id, id, id, id⟩, ⟨id, rfl⟩⟩

/-- Improving twice is improving. -/
theorem StateImproves.trans (h : StateImproves r r') (h' : StateImproves r' r'') :
    StateImproves r r'' where
  tags := ⟨h'.tags.environment.trans h.tags.environment, fun tag htag hempty =>
    h.tags.required tag htag (h'.tags.required tag htag hempty)⟩
  config := ⟨h.config.publicAccess ∘ h'.config.publicAccess, h.config.alarms ∘ h'.config.alarms,
    h.config.healthCheckStatus ∘ h'.config.healthCheckStatus,
    h.config.backupEnabled ∘ h'.config.backupEnabled⟩
  metrics := by
    refine ⟨h.metrics.errorRate ∘ h'.metrics.errorRate, ?_⟩
    rw [h'.metrics.others, h.metrics.others]

/-- **Improvement field by field is improvement**: no policy is violated anew. -/
theorem StateImproves.improves {type : ResourceType} {name : String} (h : StateImproves r r') :
    Improves type name r r' := by
  have hmetrics := h.metrics.others
  have hprod : Production name r'.tags → Production name r.tags := by
    unfold Production
    rw [h.tags.environment]
    exact fun hprod => hprod
  intro p hp
  cases p with
  | lowUtilization =>
      obtain ⟨htype, hcpu, hperiods⟩ := hp
      rw [hmetrics] at hcpu hperiods
      exact ⟨htype, hcpu, hperiods⟩
  | missingTags =>
      obtain ⟨tag, hmem, hempty⟩ := hp
      exact ⟨tag, hmem, h.tags.required tag hmem hempty⟩
  | publicStorage => exact ⟨hp.1, h.config.publicAccess hp.2⟩
  | missingAlarms => exact ⟨hp.1, h.config.alarms hp.2.1, hprod hp.2.2⟩
  | unhealthyService => exact h.config.healthCheckStatus hp
  | missingBackup => exact ⟨hp.1, h.config.backupEnabled hp.2.1, hprod hp.2.2⟩
  | repeatedErrors =>
      obtain ⟨hrate, hcount⟩ := hp
      rw [hmetrics] at hcount
      exact ⟨h.metrics.errorRate hrate, hcount⟩
  | elevatedLatency =>
      change 1000 < r'.metrics.p99LatencyMs.getD 0 at hp
      rw [hmetrics] at hp
      exact hp
  | failureRateIncrease =>
      change 1 / 10 < r'.metrics.failureRateDelta.getD 0 at hp
      rw [hmetrics] at hp
      exact hp

/-- The copy that an action works on has the fields of the resource. -/
theorem next_stateImproves : StateImproves r r.next where
  tags := StateImproves.refl.tags
  config := ⟨id, id, id, id⟩
  metrics := StateImproves.refl.metrics

/-- **A planned action improves each field.**
SRCLINE: packages/shared/src/remediation/engine.ts:11-99 -/
theorem effect_stateImproves (h : PlannedFor resourceId action) :
    StateImproves r (effect r action) := by
  have hnext : StateImproves r r.next := next_stateImproves
  rcases mem_allowlisted.mp h.allowlisted with htype | htype | htype | htype | htype
  · obtain ⟨hkey, hvalue⟩ := tags_planned h htype
    rw [effect_addMissingTag htype, hkey, hvalue]
    refine ⟨⟨Dict.get?_set_ne (by decide), fun tag _ hempty => ?_⟩, hnext.config, hnext.metrics⟩
    have hne : tag ≠ "Owner" := by
      rintro rfl
      simp at hempty
    dsimp only at hempty
    rw [Dict.get?_set_ne hne] at hempty
    exact hempty
  · rw [effect_createAlarm htype]
    refine ⟨hnext.tags, ⟨hnext.config.publicAccess, fun halarms => ?_,
      hnext.config.healthCheckStatus, hnext.config.backupEnabled⟩, hnext.metrics⟩
    exact absurd halarms (withAlarm_ne_nil _ _)
  · rw [effect_enableBackupPolicy htype]
    refine ⟨hnext.tags, ⟨hnext.config.publicAccess, hnext.config.alarms,
      hnext.config.healthCheckStatus, fun hbackup => ?_⟩, hnext.metrics⟩
    cases hbackup
  · rw [effect_restartUnhealthyService htype]
    refine ⟨hnext.tags, ⟨hnext.config.publicAccess, hnext.config.alarms, fun hhealth => ?_,
      hnext.config.backupEnabled⟩, ⟨fun hrate => hrate.trans_le (min_le_left _ _), rfl⟩⟩
    cases hhealth
  · rw [effect_restrictPublicStorage htype]
    refine ⟨hnext.tags, ⟨fun hpublic => ?_, hnext.config.alarms, hnext.config.healthCheckStatus,
      hnext.config.backupEnabled⟩, hnext.metrics⟩
    cases hpublic

/-- A list of planned actions improves each field. -/
theorem foldl_effect_stateImproves {actions : List RemediationAction}
    (h : ∀ action ∈ actions, PlannedFor action.resourceId action) :
    StateImproves r (actions.foldl effect r) := by
  induction actions generalizing r with
  | nil => exact .refl
  | cons action actions ih =>
      have hhead : StateImproves r (effect r action) :=
        effect_stateImproves (h action List.mem_cons_self)
      exact hhead.trans (ih fun a ha => h a (List.mem_cons_of_mem _ ha))

/-- **It does not matter which copy a field is from**: what is stored and what is saved both improve
the base, so what is stored then does.
SRCLINE: apps/api/src/services/remediation-service.ts:205-219 -/
theorem changes_improve {loaded stored : CloudResource} {state : ResourceState}
    (hstate : StateImproves base state) (hstored : StateImproves base stored.state) :
    StateImproves base
      ((ResourcePatch.changes loaded (updated loaded state)).apply stored).state where
  tags := by
    show TagsImprove base.tags
      ((if state.tags = loaded.tags then none else some state.tags).getD stored.tags)
    split
    · exact hstored.tags
    · exact hstate.tags
  config := by
    show ConfigImproves base.config
      ((if state.config = loaded.config then none else some state.config).getD stored.config)
    split
    · exact hstored.config
    · exact hstate.config
  metrics := by
    show MetricsImprove base.metrics
      ((if state.metrics = loaded.metrics then none else some state.metrics).getD stored.metrics)
    split
    · exact hstored.metrics
    · exact hstate.metrics

/-! ## What is planned and what is saved -/

/-- Every action of the plans is as `createPlan` makes it. -/
def Planned (plans : Collection RemediationPlan) : Prop :=
  ∀ plan ∈ plans, ∀ action ∈ plan.actions, PlannedFor action.resourceId action

/-- **Whatever is planned is planned for its resource.**
SRCLINE: apps/api/src/services/remediation-service.ts:62-76, 254-263 -/
theorem planAction_planned {recs : List Recommendation} {finding : Finding}
    (h : planAction recs finding = .ok (some action)) : PlannedFor action.resourceId action := by
  have hallowed := PlanCall.planAction_allowlisted h
  unfold planAction at h
  dsimp only at h
  split at h
  · cases h
  · obtain ⟨_, -, h⟩ := bind_ok h
    cases h
    exact ⟨hallowed, rfl, rfl⟩

/-- The actions of a new plan are as `createPlan` writes them. -/
theorem PlanCall.Loaded.planned {c : PlanCall} {past : Past}
    {actions : List (Option RemediationAction)} (h : c.Loaded past actions) :
    ∀ action ∈ (c.plan actions).actions, PlannedFor action.resourceId action := by
  intro action hmem
  obtain ⟨findings, recs, before, before', -, -, -, -, -, hactions⟩ := h.findings
  have hmem : some action ∈ actions := List.reduceOption_mem_iff.mp hmem
  obtain ⟨_, -, hplan⟩ := mem_of_mapM_ok hactions hmem
  exact planAction_planned hplan

/-- **What an execution saves** is worked out from a loaded copy by planned actions.
SRCLINE: apps/api/src/services/remediation-service.ts:176-219 -/
theorem ExecuteCall.Stage.saved_improves {c : ExecuteCall} {plan : RemediationPlan}
    {matched : ApprovalToken} {resources : List CloudResource} {W : List DbOp} {id : String}
    {patch : ResourcePatch} (h : c.Stage plan matched resources W (.saveResource id patch))
    (hplanned : ∀ action ∈ plan.actions, PlannedFor action.resourceId action) :
    ∃ copy ∈ resources, copy.id = id ∧ ∃ loaded state,
      patch = .changes loaded (updated loaded state) ∧ StateImproves copy.state state := by
  generalize hop : DbOp.saveResource id patch = op at h
  cases h with
  | act pre post action loop resource state result hactions hrun hresource happly hmutates =>
      obtain ⟨rfl, rfl⟩ := DbOp.saveResource.inj hop
      have hkeyed := keyed_byId resources
      have hid : resource.id = action.resourceId := keyed_loopRun hrun hkeyed _ _ hresource
      obtain ⟨copy, hcopy⟩ : ∃ copy, (byId resources).get? action.resourceId = some copy := by
        refine Option.ne_none_iff_exists'.mp fun hnone => ?_
        rw [loopRun_copies hrun hnone] at hresource
        cases hresource
      obtain ⟨hlast, -⟩ := loopRun_mutates hmutates hrun hkeyed hcopy
      obtain rfl := Option.some.inj (hresource.symm.trans hlast)
      obtain ⟨hmem, hcopyId⟩ := mem_of_get?_byId hcopy
      refine ⟨copy, hmem, hcopyId.trans hid.symm, _, state, rfl, ?_⟩
      have hbefore :
          StateImproves copy.state (actOn copy (actionsOn action.resourceId pre)).state := by
        rw [actOn_state]
        refine foldl_effect_stateImproves fun a ha => hplanned a ?_
        rw [hactions]
        exact List.mem_append_left _ (List.mem_of_mem_filter ha)
      have haction : PlannedFor action.resourceId action := hplanned action (by simp [hactions])
      obtain ⟨message, hok⟩ := applySimulatedAction_ok
        (r := (actOn copy (actionsOn action.resourceId pre)).state) haction.allowlisted
      obtain ⟨rfl, -⟩ := Prod.mk.inj (Except.ok.inj (happly.symm.trans hok))
      exact hbefore.trans (effect_stateImproves haction)
  | _ => cases hop

/-! ## Runs -/

/-- A call that neither makes a plan nor writes the inventory. -/
def leavesInventory : DbOp → Bool
  | .createPlan _ | .saveResource _ _ | .upsertResource _ _ _ _ => false
  | _ => true

/-- A call of one of the services that make plans and write the inventory, or of another one that
does neither. -/
def InventoryCall (hashToken : String → String) (config : ApiConfig) (past : Past) (op : DbOp) :
    Prop :=
  leavesInventory op = true ∨ ∃ incoming, Justified hashToken config incoming past op

/-- The resource is another one, improved. -/
structure ImprovedFrom (r₀ r : CloudResource) : Prop where
  id : r₀.id = r.id
  workspaceId : r₀.workspaceId = r.workspaceId
  type : r₀.type = r.type
  region : r₀.region = r.region
  name : r₀.name = r.name
  state : StateImproves r₀.state r.state

/-- **Every stored resource improves the one at the start.** -/
def Mended (db db' : Database) : Prop := ∀ r ∈ db'.resources, ∃ r₀ ∈ db.resources, ImprovedFrom r₀ r

section Runs

variable {α : Type} {hashToken : String → String} {config : ApiConfig} {db : Database}
  {procs : ℕ → DbProg α} {G : Pool DbOp DbOp.Reply Database AppError α → PoolEvent → Prop}
  {s : Pool DbOp DbOp.Reply Database AppError α}

/-- Every call of a run is one of the services that make plans and write the inventory, or leaves
these alone. -/
def InventoryCalls (hashToken : String → String) (config : ApiConfig) (db : Database)
    (procs : ℕ → DbProg α) (G : Pool DbOp DbOp.Reply Database AppError α → PoolEvent → Prop) :
    Prop :=
  ∀ t e q op, (Pool.machine database faults).Reaches G (Pool.initial db procs) t → G t e →
    t.Performs e q op → InventoryCall hashToken config (own q t.history) op

/-- **Every action of a stored plan is as `createPlan` makes it.** -/
theorem planned_of_reaches (hcalls : InventoryCalls hashToken config db procs G)
    (hplans : Planned db.plans)
    (hs : (Pool.machine database faults).Reaches G (Pool.initial db procs) s) :
    Planned s.store.plans := by
  refine Pool.invariant_of_performs (I := fun store _ => Planned store.plans) hs hplans ?_
  intro t e q op ht hGe hp ih plan hmem
  rcases mem_plans_exec hmem with hold | ⟨rfl, -⟩ | ⟨old, hold, status, rfl, rfl⟩
  · exact ih plan hold
  · rcases hcalls t e q _ ht hGe hp with hleaves | ⟨incoming, hjustified⟩
    · cases hleaves
    · obtain ⟨c, actions, -, hloaded, rfl⟩ := justified_createPlan hjustified
      exact hloaded.planned
  · exact ih old hold

/-- **One save of an execution**, whatever has been saved since it has loaded its copy. -/
theorem mended_save {before : Database} {id : String} {loaded copy : CloudResource}
    {state : ResourceState} (hstored : Mended db before) (hcopy : ∃ r₀ ∈ db.resources,
      ImprovedFrom r₀ copy) (hid : copy.id = id) (hstate : StateImproves copy.state state) :
    Mended db ((DbOp.saveResource id (.changes loaded (updated loaded state))).exec before).2 := by
  intro r hr
  change r ∈ before.resources.update id _ at hr
  rw [Collection.mem_update] at hr
  obtain ⟨old, hold, hupdated⟩ := hr
  obtain ⟨r₀, hr₀, himproved⟩ := hstored old hold
  by_cases hsame : Document._id old = id
  · rw [if_pos hsame] at hupdated
    subst hupdated
    obtain ⟨r₁, hr₁, hfrom⟩ := hcopy
    obtain rfl : r₁ = r₀ :=
      Collection.eq_of_id hr₁ hr₀ (hfrom.id.trans (hid.trans (hsame.symm.trans himproved.id.symm)))
    exact ⟨r₁, hr₁, himproved.id, himproved.workspaceId, himproved.type, himproved.region,
      himproved.name, changes_improve (hfrom.state.trans hstate) himproved.state⟩
  · rw [if_neg hsame] at hupdated
    subst hupdated
    exact ⟨r₀, hr₀, himproved⟩

/-- **However executions overlap, the inventory only improves**, as long as nothing is synced.
SRCLINE: apps/api/src/services/remediation-service.ts:135-252 -/
theorem mended_of_reaches (hcalls : InventoryCalls hashToken config db procs G)
    (hplans : Planned db.plans)
    (hG : ∀ t e q op, G t e → t.Performs e q op →
      ∀ ws item lastSyncedAt newId, op ≠ .upsertResource ws item lastSyncedAt newId)
    (hs : (Pool.machine database faults).Reaches G (Pool.initial db procs) s) :
    Mended db s.store := by
  have hstart : Mended db db := fun r hr => ⟨r, hr, rfl, rfl, rfl, rfl, rfl, .refl⟩
  refine (Pool.invariant_of_performs (I := fun store history => Mended db store ∧
    ∀ q ev, (q, ev) ∈ history → Mended db ev.before) hs ⟨hstart, by simp [Pool.initial]⟩ ?_).1
  intro t e q op ht hGe hp ih
  obtain ⟨hstore, hbefore⟩ := ih
  constructor
  · by_cases hsave : ∃ id patch, op = .saveResource id patch
    · obtain ⟨id, patch, rfl⟩ := hsave
      rcases hcalls t e q _ ht hGe hp with hleaves | ⟨incoming, hjustified⟩
      · cases hleaves
      obtain ⟨c, plan, matched, resources, -, hloaded, hstage, -⟩ :=
        justified_execute hjustified (Or.inr (Or.inl ⟨id, patch, rfl⟩))
      -- the plan has been read when it was stored
      have hplanned : ∀ action ∈ plan.actions, PlannedFor action.resourceId action := by
        obtain ⟨-, -, ⟨stored, hstored, hsame⟩, -⟩ := hloaded.stored ht fun ev => mem_own.mp
        have hactions : stored.actions = plan.actions := by rw [hsame]
        exact hactions ▸ planned_of_reaches hcalls hplans ht stored hstored
      obtain ⟨copy, hcopy, hid, loaded, state, rfl, himproves⟩ := hstage.saved_improves hplanned
      obtain ⟨loadedAt, hread, rfl⟩ := hloaded.resourcesRead
      have hcopied : copy ∈ loadedAt.resources := (mem_findResources.mp hcopy).1
      exact mended_save hstore (hbefore q _ (mem_own.mp hread) copy hcopied) hid himproves
    · have hsame : (database.exec op t.store).2.resources = t.store.resources :=
        resources_exec (fun id patch heq => hsave ⟨id, patch, heq⟩) (hG t e q op hGe hp)
      intro r hr
      rw [hsame] at hr
      exact hstore r hr
  · intro q' ev hev
    rcases List.mem_append.mp hev with hold | hnew
    · exact hbefore q' ev hold
    · obtain ⟨-, rfl⟩ := Prod.mk.inj (List.mem_singleton.mp hnew)
      exact hstore

end Runs

end CloudOps.Analysis
