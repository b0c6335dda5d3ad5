import CloudOps.Analysis.ActionLoop
import CloudOps.Analysis.ExecuteStages
import CloudOps.Analysis.DatabaseSteps
import CloudOps.Interface.ResourceActions

/-!
# The copies of the action loop

The action loop works on copies of the resources it loaded, kept by id. This file follows
one resource through the loop: `loopStep_cases` says once what a round does, and from it come
the copy after the loop, the state that the loop's writes leave of the stored resource, and
what the loop records of it.
-/

set_option autoImplicit false

namespace CloudOps.Analysis

open CloudOps.Computation CloudOps.Model CloudOps.Model.RemediationService CloudOps.Interface

/-! ## Loaded copies -/

/-- A copy is one of the loaded resources, under its identity. -/
theorem mem_of_get?_byId {resources : List CloudResource} {id : String} {r : CloudResource}
    (h : (byId resources).get? id = some r) : r ∈ resources ∧ r.id = id := by
  suffices key : ∀ copies : Dict String CloudResource,
      (resources.foldl (fun copies r => copies.set r.id r) copies).get? id = some r →
        (r ∈ resources ∧ r.id = id) ∨ copies.get? id = some r by
    exact (key _ h).resolve_right (by simp)
  clear h
  induction resources with
  | nil => exact fun copies h => Or.inr h
  | cons r' resources ih =>
      intro copies h
      rcases ih _ h with ⟨hmem, hid⟩ | hset
      · exact Or.inl ⟨List.mem_cons_of_mem _ hmem, hid⟩
      · rw [Dict.get?_set] at hset
        split at hset
        · next hid =>
          obtain rfl := Option.some.inj hset
          exact Or.inl ⟨List.mem_cons_self, hid.symm⟩
        · exact Or.inr hset

/-- Every loaded resource has its copy. -/
theorem get?_byId_isSome {resources : List CloudResource} {r : CloudResource}
    (h : r ∈ resources) : ((byId resources).get? r.id).isSome := by
  suffices key : ∀ copies : Dict String CloudResource, (r ∈ resources ∨ (copies.get? r.id).isSome) →
      ((resources.foldl (fun copies r => copies.set r.id r) copies).get? r.id).isSome from
    key _ (Or.inl h)
  clear h
  induction resources with
  | nil => rintro copies (h | h); exacts [absurd h List.not_mem_nil, h]
  | cons r' resources ih =>
      rintro copies (h | h)
      · rcases List.mem_cons.mp h with rfl | h
        · exact ih _ (Or.inr (by simp))
        · exact ih _ (Or.inl h)
      · refine ih _ (Or.inr ?_)
        rw [Dict.get?_set]
        split
        · rfl
        · exact h

/-- **The loaded copy of a resource** is what is stored of it, if it is in the workspace and
named by the plan. -/
theorem get?_byId_findResources {db : Database} {workspaceId id : String} {ids : List String}
    (h : id ∈ ids) : (byId (db.findResources workspaceId ids)).get? id =
      (db.resources.get? id).filter (·.workspaceId = workspaceId) := by
  cases hstored : db.resources.get? id with
  | none =>
      refine Option.eq_none_iff_forall_ne_some.mpr fun r hr => ?_
      obtain ⟨hmem, hid⟩ := mem_of_get?_byId hr
      exact Collection.get?_eq_none_iff.mp hstored r (mem_findResources.mp hmem).1 hid
  | some r =>
      obtain ⟨hr, hid⟩ := Collection.get?_eq_some_iff.mp hstored
      have hid : r.id = id := hid
      have hany : ∀ r', (byId (db.findResources workspaceId ids)).get? id = some r' →
          r' = r ∧ r'.workspaceId = workspaceId := by
        intro r' hr'
        obtain ⟨hmem, hid'⟩ := mem_of_get?_byId hr'
        obtain ⟨hmem, hws, -⟩ := mem_findResources.mp hmem
        exact ⟨Collection.eq_of_id hmem hr (hid'.trans hid.symm), hws⟩
      by_cases hws : r.workspaceId = workspaceId
      · have hmem : r ∈ db.findResources workspaceId ids := by
          exact mem_findResources.mpr ⟨hr, hws, hid ▸ h⟩
        obtain ⟨r', hr'⟩ := Option.isSome_iff_exists.mp (get?_byId_isSome hmem)
        rw [hid] at hr'
        rw [hr', (hany r' hr').1, Option.filter_some, if_pos (by simpa using hws)]
      · rw [Option.filter_some, if_neg (by simpa using hws)]
        exact Option.eq_none_iff_forall_ne_some.mpr fun r' hr' =>
          hws ((hany r' hr').1 ▸ (hany r' hr').2)

/-- Each copy is kept under its own id. -/
def Keyed (copies : Dict String CloudResource) : Prop :=
  ∀ id r, copies.get? id = some r → r.id = id

/-- The copies are kept under their identities. -/
theorem keyed_byId (resources : List CloudResource) : Keyed (byId resources) :=
  fun _ _ h => (mem_of_get?_byId h).2

/-! ## One resource through the loop -/

/-- The actions on one resource. -/
def actionsOn (id : String) (actions : List RemediationAction) : List RemediationAction :=
  actions.filter (·.resourceId = id)

/-- An action on a resource is the first of the actions on it. -/
theorem actionsOn_cons_self {action : RemediationAction} {actions : List RemediationAction} :
    actionsOn action.resourceId (action :: actions) =
      action :: actionsOn action.resourceId actions := by
  simp [actionsOn]

/-- An action on another resource does not matter. -/
theorem actionsOn_cons_ne {id : String} {action : RemediationAction}
    {actions : List RemediationAction} (h : action.resourceId ≠ id) :
    actionsOn id (action :: actions) = actionsOn id actions := by
  simp [actionsOn, h]

/-- The copy of a resource after actions on it. -/
def actOn (r : CloudResource) (actions : List RemediationAction) : CloudResource :=
  actions.foldl (fun r action => updated r (effect r.state action)) r

/-- The state of a copy is what the effects of the actions make of it. -/
theorem actOn_state (r : CloudResource) (actions : List RemediationAction) :
    (actOn r actions).state = actions.foldl effect r.state := by
  induction actions generalizing r with
  | nil => rfl
  | cons action actions ih => exact ih _

/-- What a call makes of the stored resource, if it is not an upsert. -/
def saveOn (id : String) (op : DbOp) (stored : Option CloudResource) : Option CloudResource :=
  match op with
  | .saveResource id' patch => if id' = id then stored.map patch.apply else stored
  | _ => stored

/-- A save changes the resource it is for. -/
theorem saveOn_self {id : String} {patch : ResourcePatch} {stored : Option CloudResource} :
    saveOn id (.saveResource id patch) stored = stored.map patch.apply := if_pos rfl

/-- A save leaves the other resources alone. -/
theorem saveOn_ne {id id' : String} {patch : ResourcePatch} {stored : Option CloudResource}
    (h : id' ≠ id) : saveOn id (.saveResource id' patch) stored = stored := if_neg h

/-- Of the calls but the upserts only the saves change a stored resource. -/
theorem get?_resources_exec {op : DbOp} {db : Database} {id : String}
    (h : ∀ ws item lastSyncedAt newId, op ≠ .upsertResource ws item lastSyncedAt newId) :
    (op.exec db).2.resources.get? id = saveOn id op (db.resources.get? id) := by
  cases op with
  | saveResource id' patch =>
      change (db.resources.update id' _).get? id = if id' = id then _ else _
      split
      · next heq => rw [heq]; exact Collection.get?_update_self
      · next hne => exact Collection.get?_update_ne (Ne.symm hne)
  | upsertResource ws item lastSyncedAt newId => exact absurd rfl (h ws item lastSyncedAt newId)
  | _ => rfl

/-- What a save writes is what makes the loaded copy the updated one. -/
theorem apply_changes (r : CloudResource) (state : ResourceState) :
    (ResourcePatch.changes r (updated r state)).apply r = updated r state := by
  have hfield : ∀ {α : Type} (new old : α) [Decidable (new = old)],
      (if new = old then none else some new).getD old = new := by
    intro α new old _
    split
    · next heq => exact heq.symm
    · rfl
  simp only [ResourcePatch.apply, ResourcePatch.changes, updated]
  congr 1 <;> exact hfield _ _

section Loop

variable {config : ApiConfig} {dryRun : Bool} {loop loop' : LoopState}
  {action : RemediationAction} {actions : List RemediationAction} {writes : List DbOp}
  {id : String} {r : CloudResource}

/-- **What a round does**: nothing if the resource is not there; otherwise it records the
action, and works on the copy and writes it back if the execution mutates.
SRCLINE: apps/api/src/services/remediation-service.ts:176-220 -/
theorem loopStep_cases (h : loopStep config dryRun loop action = .ok (loop', writes)) :
    (loop.copies.get? action.resourceId = none ∧ loop'.copies = loop.copies ∧
      loop'.afterState = loop.afterState ∧ writes = []) ∨
    ∃ r, loop.copies.get? action.resourceId = some r ∧ action.actionType ∈ ALLOWLISTED_ACTIONS ∧
      ((mutates config dryRun = true ∧
        loop'.copies = loop.copies.set action.resourceId (updated r (effect r.state action)) ∧
        loop'.afterState = loop.afterState.set action.resourceId
          (.stored ⟨(effect r.state action).tags, (effect r.state action).config⟩) ∧
        writes = [.saveResource r.id (.changes r (updated r (effect r.state action)))]) ∨
      (mutates config dryRun = false ∧ loop'.copies = loop.copies ∧
        loop'.afterState = loop.afterState.set action.resourceId
          (if dryRun then .preview (effect r.state action) else .stored ⟨r.tags, r.config⟩) ∧
        writes = [])) := by
  unfold loopStep at h
  cases hr : loop.copies.get? action.resourceId with
  | none =>
      simp only [hr, Except.ok.injEq, Prod.mk.injEq] at h
      obtain ⟨rfl, rfl⟩ := h
      exact Or.inl ⟨rfl, rfl, rfl, rfl⟩
  | some r =>
      by_cases hallowed : action.actionType ∈ ALLOWLISTED_ACTIONS
      · obtain ⟨message, happly⟩ := applySimulatedAction_ok (r := r.state) hallowed
        refine Or.inr ⟨r, rfl, hallowed, ?_⟩
        cases hmut : mutates config dryRun with
        | true =>
            simp only [hr, happly, hmut, if_true, Except.ok.injEq, Prod.mk.injEq] at h
            obtain ⟨rfl, rfl⟩ := h
            exact Or.inl ⟨rfl, rfl, rfl, rfl⟩
        | false =>
            simp only [hr, happly, hmut, Bool.false_eq_true, if_false, Except.ok.injEq,
              Prod.mk.injEq] at h
            obtain ⟨rfl, rfl⟩ := h
            exact Or.inr ⟨rfl, rfl, rfl, rfl⟩
      · simp [hr, applySimulatedAction_error hallowed] at h

/-- The loop takes one step and goes on. -/
theorem loopRun_cons (h : loopRun config dryRun loop (action :: actions) = .ok loop') :
    ∃ loop₁ writes, loopStep config dryRun loop action = .ok (loop₁, writes) ∧
      loopRun config dryRun loop₁ actions = .ok loop' ∧
      loopWrites config dryRun loop (action :: actions) =
        writes ++ loopWrites config dryRun loop₁ actions := by
  simp only [loopRun, loopWrites] at h ⊢
  split at h
  · cases h
  · next loop₁ writes hstep => exact ⟨loop₁, writes, hstep, h, rfl⟩

/-- With allowlisted actions the loop goes through.
SRCLINE: packages/shared/src/remediation/engine.ts:5-9 -/
theorem loopRun_ok (h : ∀ action ∈ actions, action.actionType ∈ ALLOWLISTED_ACTIONS) :
    ∃ loop', loopRun config dryRun loop actions = .ok loop' := by
  induction actions generalizing loop with
  | nil => exact ⟨loop, rfl⟩
  | cons action actions ih =>
      have hstep : ∃ next, loopStep config dryRun loop action = .ok next := by
        unfold loopStep
        cases hr : loop.copies.get? action.resourceId with
        | none => exact ⟨_, rfl⟩
        | some r =>
            obtain ⟨message, happly⟩ := applySimulatedAction_ok (r := r.state)
              (h action List.mem_cons_self)
            simp only [happly]
            split <;> exact ⟨_, rfl⟩
      obtain ⟨⟨loop₁, writes⟩, hstep⟩ := hstep
      simp only [loopRun, hstep]
      exact ih fun action' h' => h action' (List.mem_cons_of_mem _ h')

/-- The loop fails on no allowlisted action. -/
theorem loopRun_ne_error {e : AppError}
    (h : ∀ action ∈ actions, action.actionType ∈ ALLOWLISTED_ACTIONS) :
    loopRun config dryRun loop actions ≠ .error e := by
  have hok : ∃ loop', loopRun config dryRun loop actions = .ok loop' := loopRun_ok h
  obtain ⟨loop', hok⟩ := hok
  simp [hok]

/-- A step of the loop keeps the copies under their identities. -/
theorem keyed_loopStep (h : loopStep config dryRun loop action = .ok (loop', writes))
    (hkeyed : Keyed loop.copies) : Keyed loop'.copies := by
  rcases loopStep_cases h with ⟨-, hcopies, -⟩ | ⟨r, hr, -, ⟨-, hcopies, -⟩ | ⟨-, hcopies, -⟩⟩
  · exact hcopies ▸ hkeyed
  · intro id' r' h'
    rw [hcopies, Dict.get?_set] at h'
    split at h'
    · next heq => obtain rfl := Option.some.inj h'; rw [heq]; exact hkeyed _ r hr
    · exact hkeyed _ _ h'
  · exact hcopies ▸ hkeyed

/-- The loop keeps the copies under their identities. -/
theorem keyed_loopRun (h : loopRun config dryRun loop actions = .ok loop')
    (hkeyed : Keyed loop.copies) : Keyed loop'.copies := by
  induction actions generalizing loop with
  | nil => cases h; exact hkeyed
  | cons action actions ih =>
      obtain ⟨loop₁, writes, hstep, hrest, -⟩ := loopRun_cons h
      exact ih hrest (keyed_loopStep hstep hkeyed)

/-- The loop has copies of no other resources than it started with. -/
theorem loopRun_copies (h : loopRun config dryRun loop actions = .ok loop')
    (hnone : loop.copies.get? id = none) : loop'.copies.get? id = none := by
  induction actions generalizing loop with
  | nil => cases h; exact hnone
  | cons action actions ih =>
      obtain ⟨loop₁, writes, hstep, hrest, -⟩ := loopRun_cons h
      refine ih hrest ?_
      rcases loopStep_cases hstep with ⟨-, hcopies, -⟩ |
        ⟨r, hr, -, ⟨-, hcopies, -⟩ | ⟨-, hcopies, -⟩⟩
      · exact hcopies ▸ hnone
      · have hne : id ≠ action.resourceId := by
          rintro rfl
          rw [hnone] at hr
          cases hr
        rw [hcopies, Dict.get?_set_ne hne]
        exact hnone
      · exact hcopies ▸ hnone

/-- What has been recorded of a resource is never dropped. -/
theorem loopRun_afterState (h : loopRun config dryRun loop actions = .ok loop')
    (hsome : (loop.afterState.get? id).isSome) : (loop'.afterState.get? id).isSome := by
  induction actions generalizing loop with
  | nil => cases h; exact hsome
  | cons action actions ih =>
      obtain ⟨loop₁, writes, hstep, hrest, -⟩ := loopRun_cons h
      refine ih hrest ?_
      have hset : ∀ v, ((loop.afterState.set action.resourceId v).get? id).isSome :=
        fun v => Dict.isSome_get?_set.mpr (Or.inl hsome)
      rcases loopStep_cases hstep with ⟨-, -, hafter, -⟩ |
        ⟨r, -, -, ⟨-, -, hafter, -⟩ | ⟨-, -, hafter, -⟩⟩
      · exact hafter ▸ hsome
      · exact hafter ▸ hset _
      · exact hafter ▸ hset _

/-- **Every save is recorded**: a resource the loop has saved has its state after it.
SRCLINE: apps/api/src/services/remediation-service.ts:205-219 -/
theorem loopWrites_recorded (h : loopRun config dryRun loop actions = .ok loop')
    (hkeyed : Keyed loop.copies) {patch : ResourcePatch}
    (hsave : .saveResource id patch ∈ loopWrites config dryRun loop actions) :
    (loop'.afterState.get? id).isSome := by
  induction actions generalizing loop with
  | nil => exact absurd hsave List.not_mem_nil
  | cons action actions ih =>
      obtain ⟨loop₁, writes, hstep, hrest, hwrites⟩ := loopRun_cons h
      rw [hwrites] at hsave
      rcases List.mem_append.mp hsave with hnow | hlater
      · rcases loopStep_cases hstep with ⟨-, -, -, rfl⟩ |
          ⟨r, hr, -, ⟨-, -, hafter, rfl⟩ | ⟨-, -, -, rfl⟩⟩
        · exact absurd hnow List.not_mem_nil
        · obtain ⟨rfl, -⟩ := DbOp.saveResource.inj (List.mem_singleton.mp hnow)
          refine loopRun_afterState hrest ?_
          rw [hafter, hkeyed _ _ hr, Dict.get?_set_self]
          rfl
        · exact absurd hnow List.not_mem_nil
      · exact ih hrest (keyed_loopStep hstep hkeyed) hlater

/-- A loop that has gone through met only allowlisted actions on the resources it has copies
of. -/
theorem loopRun_allowed (h : loopRun config dryRun loop actions = .ok loop')
    (hr : (loop.copies.get? id).isSome) :
    ∀ a ∈ actionsOn id actions, a.actionType ∈ ALLOWLISTED_ACTIONS := by
  induction actions generalizing loop with
  | nil => exact fun a ha => absurd ha List.not_mem_nil
  | cons action actions ih =>
      obtain ⟨loop₁, writes, hstep, hrest, -⟩ := loopRun_cons h
      rcases loopStep_cases hstep with ⟨hnone, hcopies, -⟩ |
        ⟨r, -, hallowed, hcopies⟩
      · have hne : action.resourceId ≠ id := by rintro rfl; rw [hnone] at hr; cases hr
        rw [actionsOn_cons_ne hne]
        exact ih hrest (hcopies ▸ hr)
      · have hkept : (loop₁.copies.get? id).isSome := by
          rcases hcopies with ⟨-, hset, -⟩ | ⟨-, hsame, -⟩
          · rw [hset]
            exact Dict.isSome_get?_set.mpr (Or.inl hr)
          · exact hsame ▸ hr
        by_cases hid : action.resourceId = id
        · subst hid
          rw [actionsOn_cons_self]
          exact List.forall_mem_cons.mpr ⟨hallowed, ih hrest hkept⟩
        · rw [actionsOn_cons_ne hid]
          exact ih hrest hkept

/-- **A dry run** leaves the copies as they were loaded, and previews the last action on each.
SRCLINE: apps/api/src/services/remediation-service.ts:190-219 -/
theorem loopRun_dryRun (h : loopRun config true loop actions = .ok loop')
    (hr : loop.copies.get? id = some r) :
    loop'.afterState.get? id = ((actionsOn id actions).getLast?.map fun a =>
      AfterState.preview (effect r.state a)).or (loop.afterState.get? id) := by
  induction actions generalizing loop with
  | nil => cases h; simp [actionsOn]
  | cons action actions ih =>
      obtain ⟨loop₁, writes, hstep, hrest, -⟩ := loopRun_cons h
      have hdry : mutates config true = false := by simp [mutates]
      rcases loopStep_cases hstep with ⟨hnone, hcopies, hafter, -⟩ |
        ⟨r', hr', -, ⟨hmut, -⟩ | ⟨-, hcopies, hafter, -⟩⟩
      · have hne : action.resourceId ≠ id := by rintro rfl; rw [hr] at hnone; cases hnone
        rw [actionsOn_cons_ne hne, ← hafter]
        exact ih hrest (hcopies ▸ hr)
      · rw [hdry] at hmut; cases hmut
      · have hstate := ih hrest (hcopies ▸ hr)
        by_cases hid : action.resourceId = id
        · subst hid
          obtain rfl : r' = r := Option.some.inj (hr'.symm.trans hr)
          rw [actionsOn_cons_self]
          rw [hstate, hafter, if_pos rfl, Dict.get?_set_self, List.getLast?_cons]
          cases (actionsOn action.resourceId actions).getLast? <;> rfl
        · rw [hafter, Dict.get?_set_ne (Ne.symm hid)] at hstate
          rw [actionsOn_cons_ne hid]
          exact hstate

/-- **A real run** works action by action on the copy, and what it writes makes the same of the
stored resource.
SRCLINE: apps/api/src/services/remediation-service.ts:205-219 -/
theorem loopRun_mutates (hmut : mutates config dryRun = true)
    (h : loopRun config dryRun loop actions = .ok loop') (hkeyed : Keyed loop.copies)
    (hr : loop.copies.get? id = some r) :
    loop'.copies.get? id = some (actOn r (actionsOn id actions)) ∧
      (loopWrites config dryRun loop actions).foldl
          (fun stored op => saveOn id op stored) (some r) =
        some (actOn r (actionsOn id actions)) := by
  induction actions generalizing loop r with
  | nil => cases h; simp [actionsOn, loopWrites, actOn, hr]
  | cons action actions ih =>
      obtain ⟨loop₁, writes, hstep, hrest, hwrites⟩ := loopRun_cons h
      rcases loopStep_cases hstep with ⟨hnone, hcopies, -, rfl⟩ |
        ⟨r', hr', -, ⟨-, hcopies, -, rfl⟩ | ⟨hmut', -⟩⟩
      · have hne : action.resourceId ≠ id := by rintro rfl; rw [hr] at hnone; cases hnone
        have hrec := ih hrest (hcopies ▸ hkeyed) (hcopies ▸ hr)
        rw [hwrites, actionsOn_cons_ne hne]
        exact hrec
      · have hid' : r'.id = action.resourceId := hkeyed _ _ hr'
        have hkeyed₁ := keyed_loopStep hstep hkeyed
        rw [hwrites, List.singleton_append, List.foldl_cons]
        by_cases hid : action.resourceId = id
        · subst hid
          obtain rfl : r' = r := Option.some.inj (hr'.symm.trans hr)
          have hrec := ih hrest hkeyed₁ (r := updated r' (effect r'.state action)) (by
            rw [hcopies]; exact Dict.get?_set_self)
          rw [hid', saveOn_self, Option.map_some, apply_changes, actionsOn_cons_self]
          exact hrec
        · have hrec := ih hrest hkeyed₁ (r := r) (by
            rw [hcopies, Dict.get?_set_ne (Ne.symm hid)]; exact hr)
          rw [hid', saveOn_ne hid, actionsOn_cons_ne hid]
          exact hrec
      · rw [hmut] at hmut'; cases hmut'

end Loop

/-- **What `execute` saves** is a resource that the plan names, in a run that writes; it is worked
out from the loaded copy, taken through the writes before it.
SRCLINE: apps/api/src/services/remediation-service.ts:176-220 -/
theorem ExecuteCall.Stage.saved {c : ExecuteCall} {plan : RemediationPlan}
    {matched : ApprovalToken} {resources : List CloudResource} {W : List DbOp} {id : String}
    {patch : ResourcePatch} (h : c.Stage plan matched resources W (.saveResource id patch)) :
    mutates c.config plan.dryRun = true ∧ id ∈ plan.actions.map (·.resourceId) ∧
    ∃ copy saved action state result, (byId resources).get? id = some copy ∧
      W.foldl (fun stored op => saveOn id op stored) (some copy) = some saved ∧
      applySimulatedAction saved.state action = .ok (state, result) ∧
      patch = .changes saved (updated saved state) := by
  generalize hop : DbOp.saveResource id patch = op at h
  cases h with
  | act pre post action loop resource state result hactions hrun hresource happly hmutates =>
      obtain ⟨rfl, rfl⟩ := DbOp.saveResource.inj hop
      have hkeyed := keyed_byId resources
      have hid : resource.id = action.resourceId := keyed_loopRun hrun hkeyed _ _ hresource
      have hcopy : ∃ copy, (byId resources).get? action.resourceId = some copy := by
        refine Option.ne_none_iff_exists'.mp fun hnone => ?_
        rw [loopRun_copies hrun hnone] at hresource
        cases hresource
      obtain ⟨copy, hcopy⟩ := hcopy
      obtain ⟨hlast, hwrites⟩ := loopRun_mutates hmutates hrun hkeyed hcopy
      obtain rfl := Option.some.inj (hresource.symm.trans hlast)
      rw [hid]
      refine ⟨hmutates, by simp [hactions], copy, _, action, state, result, hcopy, ?_, happly, rfl⟩
      -- what comes before the loop saves no resource
      refine Eq.trans ?_ hwrites
      simp [ExecuteCall.writesUpTo, ExecuteCall.opening, saveOn]
  | _ => cases hop

end CloudOps.Analysis
