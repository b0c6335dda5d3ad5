import CloudOps.Computation.Serializability
import CloudOps.Analysis.DatabaseSteps

/-!
# What updates of resources share

The calls of `execute` and `sync` meet in few places: a resource under its workspace and arn,
an execution under its key, a plan, the approvals of a plan. `footprint` says which of these
cells a call reads and which it writes, and `lawful` that a call depends on nothing else and
changes nothing else.

This holds in the databases that have `Grown` from a first one: the only new documents are
resources and executions, under identities drawn for them.
-/

set_option autoImplicit false

namespace CloudOps.Analysis

open CloudOps.Computation CloudOps.Model

/-! ## Cells -/

/-- A place of the database at which requests meet. -/
inductive Cell
  | resource (workspaceId arn : String)
  | execution (workspaceId idempotencyKey : String)
  | plan (id workspaceId : String)
  | approvals (workspaceId planId : String)
  deriving DecidableEq

/-- What a cell holds. -/
@[reducible] def Cell.Content : Cell → Type
  | .resource _ _ => Option CloudResource
  | .execution _ _ => Option RemediationExecution
  | .plan _ _ => Option RemediationPlan
  | .approvals _ _ => List ApprovalToken

def Cell.content : (cell : Cell) → Database → cell.Content
  | .resource workspaceId arn, db => db.resources.byIndex? (workspaceId, arn)
  | .execution workspaceId key, db => db.findExecutionByKey workspaceId key
  | .plan id workspaceId, db => db.findPlan id workspaceId
  | .approvals workspaceId planId, db => db.findApprovals workspaceId planId

/-- The cell of a resource. -/
def resourceCell (r : CloudResource) : Cell := .resource r.workspaceId r.arn

/-- The cells a call reads. Resources are asked for by identity; `base` says which they are. -/
def readsCell (base : Database) : DbOp → Cell → Prop
  | .findExecutionByKey workspaceId key, cell => cell = .execution workspaceId key
  | .findPlan id workspaceId, cell => cell = .plan id workspaceId
  | .findApprovals workspaceId planId, cell => cell = .approvals workspaceId planId
  | .findResources workspaceId ids, cell => ∃ r ∈ base.resources,
    r.workspaceId = workspaceId ∧ r.id ∈ ids ∧ cell = resourceCell r
  | _, _ => False

/-- The cells a call writes. -/
def writesCell (base : Database) : DbOp → Cell → Prop
  | .savePlan id _, cell => ∃ workspaceId, cell = .plan id workspaceId
  | .saveApproval id _, cell => ∃ token ∈ base.tokens,
    token.id = id ∧ cell = .approvals token.workspaceId token.planId
  | .saveResource id _, cell => ∃ r ∈ base.resources, r.id = id ∧ cell = resourceCell r
  | .createExecution execution, cell =>
    cell = .execution execution.workspaceId execution.idempotencyKey
  | .upsertResource workspaceId item _ _, cell => cell = .resource workspaceId item.arn
  | _, _ => False

/-- What the calls read and write, `base` being the database before the first of them. -/
def footprint (base : Database) : Footprint DbOp Database Cell Cell.Content where
  cell := Cell.content
  reads := readsCell base
  writes := writesCell base

/-! ## Databases grown from a first one -/

/-- The identities drawn for new documents, with the index value the document has. -/
structure Draws where
  resource : String → String × String → Prop
  execution : String → String × String → Prop

/-- No document of the first database has a drawn identity, and each is drawn for one document. -/
structure Draws.Fresh (D : Draws) (base : Database) : Prop where
  resource : ∀ id key, D.resource id key →
    (∀ r ∈ base.resources, r.id ≠ id) ∧ ∀ key', D.resource id key' → key' = key
  execution : ∀ id key, D.execution id key →
    (∀ e ∈ base.executions, e.id ≠ id) ∧ ∀ key', D.execution id key' → key' = key

/-- Identity and index of a resource. -/
def identity (r : CloudResource) : String × String × String := (r.id, r.workspaceId, r.arn)

/-- The calls of `execute` and `sync`: what is created has a drawn identity, and what is found
or saved by identity has not. -/
def UpdateCall (D : Draws) : DbOp → Prop
  | .findExecutionByKey _ _ | .findPlan _ _ | .findApprovals _ _ | .savePlan _ _
  | .saveApproval _ _ | .recordAudit _ => True
  | .findResources _ ids => ∀ id ∈ ids, ∀ key, ¬ D.resource id key
  | .saveResource id _ => ∀ key, ¬ D.resource id key
  | .createExecution execution =>
    D.execution execution.id (execution.workspaceId, execution.idempotencyKey)
  | .upsertResource workspaceId item _ newId => D.resource newId (workspaceId, item.arn)
  | _ => False

/-- What has come to the documents of `base`: resources and executions with drawn identities. -/
structure Grown (base : Database) (D : Draws) (db : Database) : Prop where
  resources : ∃ added, db.resources.docs.map identity = base.resources.docs.map identity ++ added ∧
    ∀ pair ∈ added, D.resource pair.1 pair.2
  executions : ∀ e ∈ db.executions, (∃ e' ∈ base.executions, e'.id = e.id) ∨
    D.execution e.id (e.workspaceId, e.idempotencyKey)
  plans : ∀ plan ∈ db.plans, ∃ plan' ∈ base.plans,
    plan'.id = plan.id ∧ plan'.actions = plan.actions
  tokens : ∀ token ∈ db.tokens, ∃ token' ∈ base.tokens, token'.id = token.id ∧
    token'.workspaceId = token.workspaceId ∧ token'.planId = token.planId

section Grown

variable {base db : Database} {D : Draws}

/-- A database has grown from itself. -/
theorem Grown.refl : Grown base D base where
  resources := ⟨[], by simp, by simp⟩
  executions := fun e he => Or.inl ⟨e, he, rfl⟩
  plans := fun plan hplan => ⟨plan, hplan, rfl, rfl⟩
  tokens := fun token htoken => ⟨token, htoken, rfl, rfl, rfl⟩

/-- A resource has the identity and the index of one of the first, or they were drawn for it. -/
theorem Grown.resource (h : Grown base D db) {r : CloudResource} (hr : r ∈ db.resources) :
    (∃ r' ∈ base.resources, identity r' = identity r) ∨ D.resource r.id (r.workspaceId, r.arn) := by
  obtain ⟨added, hdocs, hdrawn⟩ := h.resources
  have hmem : identity r ∈ base.resources.docs.map identity ++ added :=
    hdocs ▸ List.mem_map_of_mem hr
  rcases List.mem_append.mp hmem with hold | hnew
  · exact Or.inl (List.mem_map.mp hold)
  · exact Or.inr (hdrawn _ hnew)

/-- The resource with an identity of the first database has the index it had there. -/
theorem Grown.resource_iff (h : Grown base D db) (hD : D.Fresh base) {r₀ r : CloudResource}
    (hr₀ : r₀ ∈ base.resources) (hr : r ∈ db.resources) :
    r.id = r₀.id ↔ (r.workspaceId, r.arn) = (r₀.workspaceId, r₀.arn) := by
  constructor
  · intro hid
    rcases h.resource hr with ⟨r', hr', heq⟩ | hdrawn
    · obtain ⟨hid', hkey⟩ := Prod.mk.inj heq
      obtain rfl : r' = r₀ := Collection.eq_of_id hr' hr₀ (hid'.trans hid)
      exact hkey.symm
    · exact absurd hid.symm ((hD.resource _ _ hdrawn).1 r₀ hr₀)
  · intro hkey
    -- the first resource is still there, and it alone has this index
    obtain ⟨added, hdocs, -⟩ := h.resources
    have hmem : identity r₀ ∈ db.resources.docs.map identity :=
      hdocs ▸ List.mem_append_left _ (List.mem_map_of_mem hr₀)
    obtain ⟨r', hr', heq⟩ := List.mem_map.mp hmem
    obtain ⟨hid', hkey'⟩ := Prod.mk.inj heq
    obtain rfl : r' = r := Collection.eq_of_index hr' hr (hkey'.trans hkey.symm)
    exact hid'

/-- A resource of the first database, by identity and by its cell. -/
theorem Grown.get?_resource (h : Grown base D db) (hD : D.Fresh base) {r : CloudResource}
    (hr : r ∈ base.resources) :
    db.resources.get? r.id = (resourceCell r).content db :=
  Collection.get?_eq_byIndex? fun _ hd => h.resource_iff hD hr hd

end Grown

/-! ## What each call makes of its cells -/

section Calls

variable {base db db' : Database} {D : Draws} {id workspaceId planId arn key : String}

/-- What the save of a resource does to the cell of one. -/
theorem content_saveResource {patch : ResourcePatch} :
    (Cell.resource workspaceId arn).content ((DbOp.saveResource id patch).exec db).2 =
      ((Cell.resource workspaceId arn).content db).map fun r =>
        if r.id = id then patch.apply r else r := by
  change (db.resources.update id _).byIndex? _ = _
  rw [Collection.byIndex?_update]
  rfl

/-- What the save of a plan does to the cell of one. -/
theorem content_savePlan {status : Option PlanStatus} :
    (Cell.plan planId workspaceId).content ((DbOp.savePlan id status).exec db).2 =
      ((Cell.plan planId workspaceId).content db).map fun plan =>
        if plan.id = id then { plan with status := status.getD plan.status } else plan := by
  change (db.plans.update id _).find? _ = _
  rw [Collection.find?_update]
  · rfl
  · exact fun _ => rfl

/-- What the save of a token does to the approvals of a plan. -/
theorem content_saveApproval {usedAt : Time} :
    (Cell.approvals workspaceId planId).content ((DbOp.saveApproval id usedAt).exec db).2 =
      ((Cell.approvals workspaceId planId).content db).map fun token =>
        if token.id = id then { token with usedAt := some usedAt } else token := by
  change (db.tokens.update id _).filter _ = _
  rw [Collection.filter_update]
  · rfl
  · exact fun _ => rfl

/-- An execution can be created unless there is one under its key. -/
theorem conflicts_iff (hD : D.Fresh base) (h : Grown base D db) {e : RemediationExecution}
    (hdraw : D.execution e.id (e.workspaceId, e.idempotencyKey)) : db.executions.Conflicts e ↔
      ((Cell.execution e.workspaceId e.idempotencyKey).content db).isSome := by
  rw [Option.isSome_iff_exists]
  constructor
  · rintro ⟨e', he', hid | hkey⟩
    · have hsame : e'.id = e.id := hid
      rcases h.executions e' he' with ⟨e₀, he₀, hid₀⟩ | hdraw'
      · exact absurd (hid₀.trans hsame) ((hD.execution _ _ hdraw).1 e₀ he₀)
      · obtain ⟨hws, hkey⟩ := Prod.mk.inj ((hD.execution _ _ hdraw).2 _ (hsame ▸ hdraw'))
        exact ⟨e', findExecutionByKey_iff.mpr ⟨he', hws, hkey⟩⟩
    · obtain ⟨hws, hkey⟩ := Prod.mk.inj hkey
      exact ⟨e', findExecutionByKey_iff.mpr ⟨he', hws, hkey⟩⟩
  · rintro ⟨e', he'⟩
    obtain ⟨hmem, hws, hkey⟩ := findExecutionByKey_iff.mp he'
    exact ⟨e', hmem, Or.inr (Prod.ext hws hkey)⟩

/-- An execution is inserted into its cell, unless the cell is taken. -/
theorem content_createExecution (hD : D.Fresh base) (h : Grown base D db)
    {e : RemediationExecution} (hdraw : D.execution e.id (e.workspaceId, e.idempotencyKey)) :
    (Cell.execution e.workspaceId e.idempotencyKey).content
        ((DbOp.createExecution e).exec db).2 =
      some (((Cell.execution e.workspaceId e.idempotencyKey).content db).getD e) := by
  refine findExecutionByKey_iff.mpr ?_
  have hfree := conflicts_iff hD h hdraw
  cases hfound : (Cell.execution e.workspaceId e.idempotencyKey).content db with
  | none =>
      rw [hfound] at hfree
      have hnew : ¬ db.executions.Conflicts e := fun htaken => by simpa using hfree.mp htaken
      exact ⟨mem_createIn.mpr (Or.inr ⟨hnew, rfl⟩), rfl, rfl⟩
  | some e' =>
      obtain ⟨hmem, hws, hkey⟩ := findExecutionByKey_iff.mp hfound
      exact ⟨mem_createIn.mpr (Or.inl hmem), hws, hkey⟩

/-- The insertion of an execution leaves the other cells alone. -/
theorem content_createExecution_ne {e : RemediationExecution}
    (hne : Cell.execution workspaceId key ≠ .execution e.workspaceId e.idempotencyKey) :
    (Cell.execution workspaceId key).content ((DbOp.createExecution e).exec db).2 =
      (Cell.execution workspaceId key).content db := by
  refine Option.ext fun e' => ?_
  refine findExecutionByKey_iff.trans (Iff.trans ?_ findExecutionByKey_iff.symm)
  refine and_congr_left fun hkey => mem_createIn.trans (or_iff_left ?_)
  rintro ⟨-, rfl⟩
  exact hne (by rw [hkey.1, hkey.2])

/-- The resource an upsert leaves, by what it finds. -/
def upserted (workspaceId : String) (item : ListedResource) (lastSyncedAt : Time)
    (newId : String) : Option CloudResource → CloudResource
  | some r => syncUpdate item lastSyncedAt r
  | none => syncInsert workspaceId item lastSyncedAt newId

/-- **An upsert** of a listed resource: what it replies and stores, the cells it leaves alone, and
the identities after it. -/
theorem upsertIn_spec (hD : D.Fresh base) (h : Grown base D db) {item : ListedResource}
    {newId : String} (lastSyncedAt : Time) (hdraw : D.resource newId (workspaceId, item.arn)) :
    (upsertIn db.resources workspaceId item lastSyncedAt newId).1 =
        .ok (upserted workspaceId item lastSyncedAt newId
          (db.resources.byIndex? (workspaceId, item.arn))) ∧
      (upsertIn db.resources workspaceId item lastSyncedAt newId).2.byIndex?
          (workspaceId, item.arn) =
        some (upserted workspaceId item lastSyncedAt newId
          (db.resources.byIndex? (workspaceId, item.arn))) ∧
      (∀ key ≠ (workspaceId, item.arn),
        (upsertIn db.resources workspaceId item lastSyncedAt newId).2.byIndex? key =
          db.resources.byIndex? key) ∧
      ∃ added, (upsertIn db.resources workspaceId item lastSyncedAt newId).2.docs.map identity =
        db.resources.docs.map identity ++ added ∧
          ∀ pair ∈ added, pair = (newId, workspaceId, item.arn) := by
  have hfind : db.resources.find? (fun r => r.workspaceId == workspaceId && r.arn == item.arn) =
      db.resources.byIndex? (workspaceId, item.arn) := by
    refine congrArg db.resources.docs.find? (funext fun r => ?_)
    simp [Document.uniqueIndex, Bool.decide_and, beq_eq_decide]
  unfold upsertIn
  rw [hfind]
  cases hstored : db.resources.byIndex? (workspaceId, item.arn) with
  | some r =>
      obtain ⟨hr, hkey⟩ := Collection.byIndex?_eq_some_iff.mp hstored
      refine ⟨rfl, ?_, fun key hne => ?_, [], ?_, by simp⟩
      · rw [Collection.byIndex?_update, hstored, Option.map_some]
        exact congrArg some (if_pos rfl)
      · rw [Collection.byIndex?_update]
        cases hother : db.resources.byIndex? key with
        | none => rfl
        | some r' =>
            obtain ⟨hr', hkey'⟩ := Collection.byIndex?_eq_some_iff.mp hother
            refine congrArg some (if_neg fun hid => hne ?_)
            rw [← hkey', Collection.eq_of_id hr' hr hid, hkey]
      · rw [List.append_nil]
        change (db.resources.update r.id _).docs.map identity = _
        rw [Collection.map_docs_update]
        exact fun _ => rfl
  | none =>
      have hfree : ¬ db.resources.Conflicts (syncInsert workspaceId item lastSyncedAt newId) := by
        rintro ⟨r, hr, hid | hkey⟩
        · have hsame : r.id = newId := hid
          rcases h.resource hr with ⟨r₀, hr₀, heq⟩ | hdraw'
          · exact (hD.resource _ _ hdraw).1 r₀ hr₀ ((Prod.mk.inj heq).1.trans hsame)
          · exact Collection.byIndex?_eq_none_iff.mp hstored r hr
              ((hD.resource _ _ hdraw).2 _ (hsame ▸ hdraw'))
        · exact Collection.byIndex?_eq_none_iff.mp hstored r hr hkey
      obtain ⟨resources, hinsert⟩ := Option.ne_none_iff_exists'.mp
        fun hnone => hfree (Collection.insert?_eq_none_iff.mp hnone)
      simp only [hinsert]
      refine ⟨rfl, Collection.byIndex?_insert?_self hinsert, fun key hne =>
        Collection.byIndex?_insert?_ne hinsert hne, [(newId, workspaceId, item.arn)], ?_, by simp⟩
      rw [(Collection.insert?_eq_some hinsert).2, List.map_append]
      rfl

end Calls

/-! ## The footprint is lawful -/

section Lawful

variable {base db db' : Database} {D : Draws} {op : DbOp} {cell : Cell}

/-- Every call lets the database grow. -/
theorem Grown.exec (hD : D.Fresh base) (h : Grown base D db) (hop : UpdateCall D op) :
    Grown base D (op.exec db).2 where
  resources := by
    obtain ⟨added, hdocs, hdrawn⟩ := h.resources
    cases op with
    | saveResource id patch =>
        refine ⟨added, ?_, hdrawn⟩
        change (db.resources.update id _).docs.map identity = _
        rw [Collection.map_docs_update]
        · exact hdocs
        · exact fun _ => rfl
    | upsertResource workspaceId item lastSyncedAt newId =>
        obtain ⟨-, -, -, new, hnew, hpair⟩ := upsertIn_spec hD h lastSyncedAt hop
        refine ⟨added ++ new, ?_, fun pair hmem => ?_⟩
        · rw [← List.append_assoc, ← hdocs]
          exact hnew
        · rcases List.mem_append.mp hmem with hold | hadded
          · exact hdrawn pair hold
          · rw [hpair pair hadded]
            exact hop
    | _ => exact ⟨added, hdocs, hdrawn⟩
  executions := by
    intro e he
    rcases mem_executions_exec he with hold | ⟨rfl, -⟩
    · exact h.executions e hold
    · exact Or.inr hop
  plans := by
    intro plan hplan
    rcases mem_plans_exec hplan with hold | ⟨rfl, -⟩ | ⟨plan', hold, status, rfl, rfl⟩
    · exact h.plans plan hold
    · exact hop.elim
    · exact h.plans plan' hold
  tokens := by
    intro token htoken
    rcases mem_tokens_exec htoken with hold | ⟨rfl, -⟩ | ⟨token', hold, usedAt, rfl, rfl⟩
    · exact h.tokens token hold
    · exact hop.elim
    · exact h.tokens token' hold

/-- A call leaves alone what it does not write. -/
theorem frame_exec (hD : D.Fresh base) (h : Grown base D db) (hop : UpdateCall D op)
    (hcell : ¬ writesCell base op cell) : cell.content (op.exec db).2 = cell.content db := by
  cases op with
  | findExecutionByKey workspaceId key => rfl
  | findPlan id workspaceId => rfl
  | findApprovals workspaceId planId => rfl
  | findResources workspaceId ids => rfl
  | recordAudit event => cases cell <;> rfl
  | savePlan id status =>
      cases cell with
      | plan planId workspaceId =>
          rw [content_savePlan]
          cases hfound : (Cell.plan planId workspaceId).content db with
          | none => rfl
          | some plan =>
              refine congrArg some (if_neg fun hid => hcell ⟨workspaceId, ?_⟩)
              rw [← hid, (findPlan_mem hfound).2.1]
      | _ => rfl
  | saveApproval id usedAt =>
      cases cell with
      | approvals workspaceId planId =>
          rw [content_saveApproval]
          refine (List.map_congr_left fun token htoken => ?_).trans (List.map_id _)
          refine if_neg fun hid => hcell ?_
          obtain ⟨hmem, hws, hplan⟩ := mem_findApprovals.mp htoken
          obtain ⟨token', hmem', hid', hws', hplan'⟩ := h.tokens token hmem
          exact ⟨token', hmem', hid'.trans hid, by rw [hws', hplan', hws, hplan]⟩
      | _ => rfl
  | saveResource id patch =>
      cases cell with
      | resource workspaceId arn =>
          rw [content_saveResource]
          cases hfound : (Cell.resource workspaceId arn).content db with
          | none => rfl
          | some r =>
              obtain ⟨hr, hkey⟩ := Collection.byIndex?_eq_some_iff.mp hfound
              refine congrArg some (if_neg fun hid => hcell ?_)
              rcases h.resource hr with ⟨r', hr', heq⟩ | hdrawn
              · obtain ⟨hid', hkey'⟩ := Prod.mk.inj heq
                obtain ⟨hws, harn⟩ := Prod.mk.inj (hkey'.trans hkey)
                exact ⟨r', hr', hid'.trans hid, by rw [resourceCell, hws, harn]⟩
              · exact absurd (hid ▸ hdrawn) (hop _)
      | _ => rfl
  | createExecution e =>
      cases cell with
      | execution workspaceId key => exact content_createExecution_ne hcell
      | _ => rfl
  | upsertResource workspaceId item lastSyncedAt newId =>
      cases cell with
      | resource workspaceId' arn =>
          refine (upsertIn_spec hD h lastSyncedAt hop).2.2.1 _ fun heq => hcell ?_
          obtain ⟨rfl, rfl⟩ := Prod.mk.inj heq
          rfl
      | _ => rfl
  | _ => exact hop.elim

/-- What a call writes is determined by the cells it touches. -/
theorem effect_exec (hD : D.Fresh base) (h : Grown base D db) (h' : Grown base D db')
    (hop : UpdateCall D op) (hcell : writesCell base op cell)
    (hsame : cell.content db = cell.content db') :
    cell.content (op.exec db).2 = cell.content (op.exec db').2 := by
  cases op with
  | savePlan id status =>
      obtain ⟨workspaceId, rfl⟩ := hcell
      rw [content_savePlan, content_savePlan, hsame]
  | saveApproval id usedAt =>
      obtain ⟨token, -, -, rfl⟩ := hcell
      rw [content_saveApproval, content_saveApproval, hsame]
  | saveResource id patch =>
      obtain ⟨r, -, -, rfl⟩ := hcell
      rw [resourceCell, content_saveResource, content_saveResource]
      exact congrArg _ hsame
  | createExecution e =>
      subst hcell
      rw [content_createExecution hD h hop, content_createExecution hD h' hop, hsame]
  | upsertResource workspaceId item lastSyncedAt newId =>
      subst hcell
      have hcontent : db.resources.byIndex? (workspaceId, item.arn) =
          db'.resources.byIndex? (workspaceId, item.arn) := hsame
      have hstored := (upsertIn_spec hD h lastSyncedAt hop).2.1
      rw [hcontent] at hstored
      exact hstored.trans (upsertIn_spec hD h' lastSyncedAt hop).2.1.symm
  | _ => exact hcell.elim

/-- What a call replies is determined by the cells it touches. -/
theorem reply_exec (hD : D.Fresh base) (h : Grown base D db) (h' : Grown base D db')
    (hop : UpdateCall D op) (hsame : ∀ cell, readsCell base op cell ∨ writesCell base op cell →
      cell.content db = cell.content db') : (op.exec db).1 = (op.exec db').1 := by
  cases op with
  | findExecutionByKey workspaceId key => exact hsame _ (Or.inl rfl)
  | findPlan id workspaceId => exact hsame _ (Or.inl rfl)
  | findApprovals workspaceId planId => exact hsame _ (Or.inl rfl)
  | recordAudit event => rfl
  | savePlan id status => rfl
  | saveApproval id usedAt => rfl
  | saveResource id patch => rfl
  | findResources workspaceId ids =>
      -- the resources found are those of the first database, in the order they had there
      have hfound : ∀ {db : Database}, Grown base D db → db.findResources workspaceId ids =
          ((base.resources.docs.map identity).filter fun pair =>
            pair.2.1 == workspaceId && ids.contains pair.1).filterMap
              fun pair => db.resources.byIndex? pair.2 := by
        intro db h
        obtain ⟨added, hdocs, hdrawn⟩ := h.resources
        have hnone : added.filter (fun pair =>
            pair.2.1 == workspaceId && ids.contains pair.1) = [] := by
          refine List.filter_eq_nil_iff.mpr fun pair hpair hmem => ?_
          have hid : pair.1 ∈ ids := by
            simpa using (Bool.and_eq_true_iff.mp hmem).2
          exact hop _ hid _ (hdrawn pair hpair)
        refine Eq.trans (Collection.filter_eq_filterMap (r := fun pair =>
          pair.2.1 == workspaceId && ids.contains pair.1) fun _ => rfl) ?_
        change List.filterMap _ ((db.resources.docs.map identity).filter _) = _
        rw [hdocs, List.filter_append, hnone, List.append_nil]
      refine (hfound h).trans (Eq.trans ?_ (hfound h').symm)
      refine List.filterMap_congr fun pair hpair => ?_
      obtain ⟨hmem, hmatch⟩ := List.mem_filter.mp hpair
      obtain ⟨r, hr, rfl⟩ := List.mem_map.mp hmem
      have hfilter : r.workspaceId = workspaceId ∧ r.id ∈ ids := by simpa [identity] using hmatch
      exact hsame (resourceCell r) (Or.inl ⟨r, hr, hfilter.1, hfilter.2, rfl⟩)
  | createExecution e =>
      have hcontent := hsame _ (Or.inr rfl)
      have hconflicts : db.executions.Conflicts e ↔ db'.executions.Conflicts e := by
        rw [conflicts_iff hD h hop, conflicts_iff hD h' hop, hcontent]
      refine (createIn_fst _ _).trans (Eq.trans ?_ (createIn_fst _ _).symm)
      simp only [hconflicts]
  | upsertResource workspaceId item lastSyncedAt newId =>
      have hcontent : db.resources.byIndex? (workspaceId, item.arn) =
          db'.resources.byIndex? (workspaceId, item.arn) := hsame _ (Or.inr rfl)
      have hreply := (upsertIn_spec hD h lastSyncedAt hop).1
      rw [hcontent] at hreply
      exact hreply.trans (upsertIn_spec hD h' lastSyncedAt hop).1.symm
  | _ => exact hop.elim

/-- **The calls of `execute` and `sync` depend on the cells they touch and change those they
write.** -/
theorem lawful (hD : D.Fresh base) :
    (footprint base).Lawful database (Grown base D) (UpdateCall D) where
  keeps := fun _ _ hop h => h.exec hD hop
  reply := fun _ _ _ hop h h' hsame => reply_exec hD h h' hop hsame
  frame := fun _ _ _ hop h hcell => frame_exec hD h hop hcell
  effect := fun _ _ _ cell hop h h' hcell hsame =>
    effect_exec hD h h' hop hcell (hsame cell (Or.inr hcell))

end Lawful

end CloudOps.Analysis
