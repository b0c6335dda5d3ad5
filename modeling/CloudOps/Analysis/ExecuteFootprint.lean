import CloudOps.Analysis.ResourceCopies
import CloudOps.Analysis.ExecuteStages
import CloudOps.Analysis.SingleExecution

/-!
# What an execute request makes of the inventory

An execute request changes no resource but those its plan names in the workspace of the
plan, of these no field but tags, config, metrics and version, and none at all in a dry run
or against AWS: `Footprint`. Nothing is assumed of the other programs of the pool, and the
request may stop at any of its calls.

The save is the only call of `execute` that reaches the inventory (`Justified.inventory`).
What it saves is a copy that the request has loaded, and loaded copies keep their identity
through the action loop (`Stage.saved`); resources never move to another workspace.
-/

set_option autoImplicit false

namespace CloudOps.Analysis

open CloudOps.Computation CloudOps.Model CloudOps.Model.RemediationService

/-! ## Resources stay where they are -/

/-- Every resource is still there, under its identity and in its workspace. -/
def ResourcesStay (db db' : Database) : Prop :=
  ∀ r ∈ db.resources, ∃ r' ∈ db'.resources, r'.id = r.id ∧ r'.workspaceId = r.workspaceId

/-- The resources of a database stay in it. -/
theorem ResourcesStay.refl (db : Database) : ResourcesStay db db :=
  fun r hr => ⟨r, hr, rfl, rfl⟩

/-- Resources that stay twice stay. -/
theorem ResourcesStay.trans {db₁ db₂ db₃ : Database} (h : ResourcesStay db₁ db₂)
    (h' : ResourcesStay db₂ db₃) : ResourcesStay db₁ db₃ := by
  intro r hr
  obtain ⟨r₂, hr₂, hid₂, hws₂⟩ := h r hr
  obtain ⟨r₃, hr₃, hid₃, hws₃⟩ := h' r₂ hr₂
  exact ⟨r₃, hr₃, hid₃.trans hid₂, hws₃.trans hws₂⟩

/-- Only a save and an upsert reach the resources. -/
theorem resources_exec {op : DbOp} {db : Database}
    (hsave : ∀ id patch, op ≠ .saveResource id patch)
    (hupsert : ∀ ws item lastSyncedAt newId, op ≠ .upsertResource ws item lastSyncedAt newId) :
    (op.exec db).2.resources = db.resources := by
  cases op with
  | saveResource id patch => exact absurd rfl (hsave id patch)
  | upsertResource ws item lastSyncedAt newId =>
      exact absurd rfl (hupsert ws item lastSyncedAt newId)
  | _ => rfl

/-- **No call moves a resource.** -/
theorem resourcesStay_exec (op : DbOp) (db : Database) : ResourcesStay db (op.exec db).2 := by
  intro r hr
  cases op with
  | saveResource id patch =>
      refine ⟨if r.id = id then patch.apply r else r, ?_, ?_, ?_⟩
      · change _ ∈ db.resources.update id _
        rw [Collection.mem_update]
        exact ⟨r, hr, rfl⟩
      · split <;> rfl
      · split <;> rfl
  | upsertResource ws item lastSyncedAt newId =>
      show ∃ r' ∈ (upsertIn db.resources ws item lastSyncedAt newId).2, _
      unfold upsertIn
      split
      · next found _ =>
        refine ⟨if r.id = found.id then syncUpdate item lastSyncedAt r else r, ?_, ?_, ?_⟩
        · change _ ∈ db.resources.update found.id _
          rw [Collection.mem_update]
          exact ⟨r, hr, rfl⟩
        · split <;> rfl
        · split <;> rfl
      · dsimp only
        split
        · next resources' hinsert =>
          exact ⟨r, (Collection.mem_insert? hinsert).mpr (Or.inl hr), rfl, rfl⟩
        · exact ⟨r, hr, rfl, rfl⟩
  | _ => exact ⟨r, hr, rfl, rfl⟩

/-- A run may execute what it writes only if the provider is not AWS.
SRCLINE: apps/api/src/services/remediation-service.ts:163-165, 205-218 -/
theorem not_aws_of_mutates {config : ApiConfig} {dryRun : Bool}
    (hmut : mutates config dryRun = true)
    (hpermitted : dryRun = false → rejectMutationsIfDisabled config.ENABLE_AWS_MUTATIONS
      config.CLOUD_PROVIDER = .ok ()) : dryRun = false ∧ config.CLOUD_PROVIDER ≠ .aws := by
  have hdryRun : dryRun = false := by
    cases dryRun with
    | false => rfl
    | true => simp [mutates] at hmut
  refine ⟨hdryRun, fun haws => ?_⟩
  have hreject := hpermitted hdryRun
  have hdisabled : config.ENABLE_AWS_MUTATIONS = false := by
    simpa [mutates, hdryRun, haws] using hmut
  rw [haws, hdisabled] at hreject
  cases hreject

namespace ExecuteCall

variable (c : ExecuteCall)

/-- The request may change the resource: a real run of its plan, not against AWS, and the plan
names the resource in its workspace. -/
structure MayChange (plan : RemediationPlan) (r : CloudResource) : Prop where
  planId : plan.id = c.planId
  planWorkspace : plan.workspaceId = c.workspaceId
  dryRun : plan.dryRun = false
  provider : c.config.CLOUD_PROVIDER ≠ .aws
  workspaceId : r.workspaceId = plan.workspaceId
  named : r.id ∈ plan.actions.map (·.resourceId)

/-- From one inventory to another only resources that the request may change have changed, and
only in tags, config, metrics and version. -/
structure Footprint (plans : Collection RemediationPlan) (before after : Collection CloudResource) :
    Prop where
  ids : after.docs.map (·.id) = before.docs.map (·.id)
  fields : ∀ r ∈ before, ∃ r' ∈ after, r' = { r with
    tags := r'.tags
    config := r'.config
    metrics := r'.metrics
    version := r'.version }
  changed : ∀ r ∈ before, r ∉ after → ∃ plan ∈ plans, c.MayChange plan r

variable {c} {past : Past} {plan : RemediationPlan} {matched : ApprovalToken}
  {resources : List CloudResource} {plans : Collection RemediationPlan}
  {before after last : Collection CloudResource}

/-- Doing nothing keeps within the footprint. -/
theorem Footprint.refl : c.Footprint plans before before where
  ids := rfl
  fields := fun r hr => ⟨r, hr, rfl⟩
  changed := fun _ hr hnot => absurd hr hnot

/-- Two paths within the footprint make one. -/
theorem Footprint.trans (h : c.Footprint plans before after) (h' : c.Footprint plans after last) :
    c.Footprint plans before last where
  ids := h'.ids.trans h.ids
  fields := by
    intro r hr
    obtain ⟨r₁, hr₁, heq₁⟩ := h.fields r hr
    obtain ⟨r₂, hr₂, heq₂⟩ := h'.fields r₁ hr₁
    refine ⟨r₂, hr₂, ?_⟩
    rw [heq₂, heq₁]
  changed := by
    intro r hr hnot
    by_cases hmid : r ∈ after
    · exact h'.changed r hmid hnot
    · exact h.changed r hr hmid

/-- What `execute` relies on when it writes. -/
theorem Justified.written {op : DbOp} (h : c.Justified past op) (hop : op.writes = true) :
    ∃ plan matched resources, c.Loaded past plan matched resources ∧
      c.Stage plan matched resources (writesOf past) op := by
  rw [Justified, if_pos hop] at h
  obtain ⟨plan, matched, resources, hloaded, hstage, -⟩ := h
  exact ⟨plan, matched, resources, hloaded, hstage⟩

/-- The only call of `execute` that reaches the inventory is the save of a resource. -/
theorem Justified.inventory {op : DbOp} (h : c.Justified past op)
    (hop : ∀ id patch, op ≠ .saveResource id patch) (db : Database) :
    (op.exec db).2.resources = db.resources := by
  refine resources_exec hop ?_
  rintro ws item lastSyncedAt newId rfl
  obtain ⟨_, _, _, -, hstage⟩ := h.written rfl
  generalize writesOf past = W at hstage
  cases hstage

/-- A save of a resource that the request may change stays within the footprint. -/
theorem footprint_save {db : Database} {id : String} {patch : ResourcePatch}
    (h : ∀ r ∈ db.resources, r.id = id → ∃ plan ∈ plans, c.MayChange plan r) :
    c.Footprint plans db.resources ((DbOp.saveResource id patch).exec db).2.resources := by
  change c.Footprint plans db.resources (db.resources.update id _)
  constructor
  · exact Collection.map_docs_update fun r => rfl
  · intro r hr
    refine ⟨if r.id = id then patch.apply r else r, ?_, ?_⟩
    · rw [Collection.mem_update]
      exact ⟨r, hr, rfl⟩
    · split <;> rfl
  · intro r hr hnot
    by_cases hid : r.id = id
    · exact h r hr hid
    · refine absurd ?_ hnot
      rw [Collection.mem_update]
      exact ⟨r, hr, if_neg hid⟩

section Runs

variable {faults : Faults DbOp AppError} {db : Database} {procs : ℕ → DbProg Response}
  {G : ServicePool → PoolEvent → Prop} {s : ServicePool} {q : ℕ}

/-- **What an execute request may save**, wherever it stands: the loaded plan is stored, and the
stored resource is one of its workspace. -/
theorem mayChange_of_save (hc : procs q = c.program)
    (hs : (Pool.machine database faults).Reaches G (Pool.initial db procs) s)
    {id : String} {patch : ResourcePatch} {before : Database}
    (hev : (q, ⟨.saveResource id patch, before⟩) ∈ s.history) {r : CloudResource}
    (hr : r ∈ before.resources) (hid : r.id = id) :
    ∃ plan ∈ s.store.plans, c.MayChange plan r := by
  have hconforms : Pool.Conforms database faults c.Justified c.Ending (s.procs q)
      (own q s.history) := Pool.conforms_of_emits (hc ▸ c.program_emits) hs
  obtain ⟨older, newer, hsplit⟩ := List.append_of_mem hev
  obtain ⟨plan, matched, resources, hloaded, hstage⟩ :=
    (hconforms.emitted_at hsplit).written rfl
  obtain ⟨hmut, hnamed, loaded, -, -, -, -, hcopy, -⟩ := hstage.saved
  obtain ⟨hmem, hloadedId⟩ := mem_of_get?_byId hcopy
  obtain ⟨hdryRun, haws⟩ := not_aws_of_mutates hmut hloaded.permitted
  -- the plan it has loaded is stored, whatever has become of its status
  have hsub : ∀ ev ∈ own q older, (q, ev) ∈ s.history :=
    fun ev hmem => hsplit ▸ List.mem_append_left _ (mem_own.mp hmem)
  obtain ⟨hplanId, hplanWs, ⟨stored, hstored, hsame⟩, -⟩ := hloaded.stored hs hsub
  have hactions : stored.actions = plan.actions := by rw [hsame]
  have hstoredWs : stored.workspaceId = plan.workspaceId := by rw [hsame]
  refine ⟨stored, hstored, ?_, ?_, ?_, haws, ?_, ?_⟩
  · rw [hsame]; exact hplanId
  · rw [hstoredWs]; exact hplanWs
  · rw [hsame]; exact hdryRun
  · -- the resource it has loaded has not moved since
    obtain ⟨loadedAt, hload, rfl⟩ := hloaded.resourcesRead
    obtain ⟨hold, hws, -⟩ := mem_findResources.mp hmem
    have hpath := Pool.chained_of_reaches hs
    rw [hsplit] at hpath
    have hstay : ResourcesStay loadedAt before :=
      (hpath.split.1.le ResourcesStay.refl (fun _ _ _ => ResourcesStay.trans)
        fun _ ev _ => resourcesStay_exec ev.op ev.before).2 q _ (mem_own.mp hload)
    obtain ⟨r', hr', hid', hws'⟩ := hstay loaded hold
    obtain rfl : r' = r := Collection.eq_of_id hr' hr (hid'.trans (hloadedId.trans hid.symm))
    rw [hws', hws, hstoredWs, hplanWs]
  · rw [hactions, hid]; exact hnamed

/-- One call of an execute request keeps to the footprint. -/
theorem footprint_event (hc : procs q = c.program)
    (hs : (Pool.machine database faults).Reaches G (Pool.initial db procs) s)
    {ev : Event DbOp Database} (hev : (q, ev) ∈ s.history) :
    c.Footprint s.store.plans ev.before.resources (ev.op.exec ev.before).2.resources := by
  by_cases hsave : ∃ id patch, ev.op = .saveResource id patch
  · obtain ⟨op, before⟩ := ev
    obtain ⟨id, patch, rfl⟩ := hsave
    exact footprint_save fun r hr hid => mayChange_of_save hc hs hev hr hid
  · have hconforms : Pool.Conforms database faults c.Justified c.Ending (s.procs q)
        (own q s.history) := Pool.conforms_of_emits (hc ▸ c.program_emits) hs
    obtain ⟨older, newer, hown⟩ := List.append_of_mem (mem_own.mpr hev)
    have hsame := (hconforms.emitted older ev newer hown).inventory
      (fun id patch heq => hsave ⟨id, patch, heq⟩) ev.before
    rw [hsame]
    exact .refl

end Runs

end ExecuteCall

section Runs

variable {faults : Faults DbOp AppError} {db : Database} {procs : ℕ → DbProg Response}
  {G : ServicePool → PoolEvent → Prop} {s : ServicePool} {q : ℕ} {c : ExecuteCall}

/-- **The footprint of `execute`**, at each of its calls and over the whole request: resources
that the request may not change stay as they are, and of the others nothing changes but tags,
config, metrics and version.
SRCLINE: apps/api/src/services/remediation-service.ts:135-252 -/
theorem execute_footprint (hc : procs q = c.program)
    (hs : (Pool.machine database faults).Reaches G (Pool.initial db procs) s) :
    (∀ ev, (q, ev) ∈ s.history →
      c.Footprint s.store.plans ev.before.resources (ev.op.exec ev.before).2.resources) ∧
    ((∀ q' ev, (q', ev) ∈ s.history → q' ≠ q →
      (ev.op.exec ev.before).2.resources = ev.before.resources) →
        c.Footprint s.store.plans db.resources s.store.resources) := by
  have hevents : ∀ ev, (q, ev) ∈ s.history → c.Footprint s.store.plans ev.before.resources
      (ev.op.exec ev.before).2.resources := fun ev hev => ExecuteCall.footprint_event hc hs hev
  refine ⟨hevents, fun halone => ?_⟩
  have hpath := Pool.chained_of_reaches hs
  refine (hpath.le (R := fun t u => c.Footprint s.store.plans t.resources u.resources)
    (fun _ => .refl) (fun _ _ _ => .trans) ?_).1
  intro q' ev hev
  by_cases hq : q' = q
  · exact hevents ev (hq ▸ hev)
  · show c.Footprint s.store.plans ev.before.resources (ev.op.exec ev.before).2.resources
    rw [halone q' ev hev hq]
    exact .refl

end Runs

/-- The plan for the bucket is made, approved and executed. -/
def bucketExecuted : Option ServicePool :=
  service.run (serve (fun token => token) ⟨.mock, false, 900000⟩ bucketStore bucketRequests)
    (List.replicate 5 (.run 0) ++ List.replicate 4 (.run 1) ++ List.replicate 10 (.run 2))

/-- The execution of the plan for the bucket changes the bucket, within its footprint. -/
theorem execute_footprint_bucket : ∃ c : ExecuteCall, ∃ s : ServicePool,
    c.planId = "p-1" ∧ c.Footprint s.store.plans bucketStore.resources s.store.resources ∧
      bucket ∉ s.store.resources.docs := by
  let s := bucketExecuted.get (by decide +kernel)
  have hs : service.Reaches Machine.unguarded (Pool.initial bucketStore fun q =>
      (bucketRequests q).program (fun token => token) ⟨.mock, false, 900000⟩) s :=
    Machine.reaches_of_run _ (Option.some_get _).symm
  have halone : ∀ e ∈ s.history, e.1 ≠ 2 →
      (e.2.op.exec e.2.before).2.resources.docs = e.2.before.resources.docs := by
    decide +kernel
  refine ⟨⟨fun token => token, ⟨.mock, false, 900000⟩, "ws", "p-1", "operator", "c-2",
    ⟨"approval-token-01", "key-0001", 1, 1, 2, 2, "e-1", 3⟩⟩, s, rfl,
    (execute_footprint (q := 2) rfl hs).2 fun q' ev hev hne => ?_, by decide +kernel⟩
  exact Collection.ext (halone (q', ev) hev hne)

end CloudOps.Analysis
