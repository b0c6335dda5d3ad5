import CloudOps.Analysis.DatabaseSteps

/-!
# The action loop and its writes

`writesOf` reads the writes off what a request has performed. The action loop of `execute`
alternates pure rounds and single writes: `loopStep` is one round without the store,
`loopRun` and `loopWrites` iterate it, and `actionLoop_emits` says that the loop performs
exactly these writes in this order, whatever happens to the store in between.
-/

set_option autoImplicit false

namespace CloudOps.Analysis

open CloudOps.Computation CloudOps.Model CloudOps.Model.RemediationService

/-- The writes among what a request has performed. -/
def writesOf (past : Past) : List DbOp := (past.map (·.op)).filter DbOp.writes

/-- Who has performed nothing has written nothing. -/
@[simp] theorem writesOf_nil : writesOf [] = [] := rfl

/-- A read adds no write. -/
theorem writesOf_append_read {past : Past} {op : DbOp} {before : Database}
    (h : op.writes = false) : writesOf (past ++ [⟨op, before⟩]) = writesOf past := by
  simp [writesOf, h]

/-- A write is the last of the writes. -/
theorem writesOf_append_write {past : Past} {op : DbOp} {before : Database}
    (h : op.writes = true) : writesOf (past ++ [⟨op, before⟩]) = writesOf past ++ [op] := by
  simp [writesOf, h]

/-- The writes are the writing calls of the past. -/
theorem mem_writesOf {past : Past} {op : DbOp} :
    op ∈ writesOf past ↔ op.writes = true ∧ ∃ before, ⟨op, before⟩ ∈ past := by
  simp only [writesOf, List.mem_filter, List.mem_map]
  constructor
  · rintro ⟨⟨⟨_, before⟩, hmem, rfl⟩, hw⟩; exact ⟨hw, before, hmem⟩
  · rintro ⟨hw, before, hmem⟩; exact ⟨⟨_, hmem, rfl⟩, hw⟩

/-- Where a write stands in what a request has performed. -/
theorem writesOf_split {past : Past} {op : DbOp} {first last : List DbOp}
    (h : writesOf past = first ++ op :: last) : ∃ older before newer,
      past = older ++ ⟨op, before⟩ :: newer ∧ writesOf older = first ∧ writesOf newer = last := by
  obtain ⟨ops, ops', hops, hfirst, hrest⟩ := List.filter_eq_append_iff.mp h
  obtain ⟨reads, ops'', rfl, hreads, -, hlast⟩ := List.filter_eq_cons_iff.mp hrest
  obtain ⟨older, past', rfl, rfl, hpast'⟩ := List.map_eq_append_iff.mp hops
  obtain ⟨between, past'', rfl, rfl, hpast''⟩ := List.map_eq_append_iff.mp hpast'
  obtain ⟨ev, newer, rfl, rfl, rfl⟩ := List.map_eq_cons_iff.mp hpast''
  refine ⟨older ++ between, ev.before, newer, (List.append_assoc _ _ _).symm, ?_, hlast⟩
  rw [writesOf, List.map_append, List.filter_append, hfirst, List.filter_eq_nil_iff.mpr hreads,
    List.append_nil]

/-! ## The action loop without the store -/

section Loop

variable (config : ApiConfig) (dryRun : Bool)

/-- One round of the action loop: the variables after it and the write it performs, if any.
SRCLINE: apps/api/src/services/remediation-service.ts:176-220 -/
def loopStep (loop : LoopState) (action : RemediationAction) :
    Except AppError (LoopState × List DbOp) :=
  match loop.copies.get? action.resourceId with
  | none => .ok ({ loop with results := loop.results ++ [notFoundResult action] }, [])
  | some resource =>
    match applySimulatedAction resource.state action with
    | .error e => .error e
    | .ok (state, result) =>
      let beforeState := loop.beforeState.set action.resourceId ⟨resource.tags, resource.config⟩
      let results := loop.results ++ [result]
      let resource' := updated resource state
      if mutates config dryRun then
        .ok ({
          copies := loop.copies.set action.resourceId resource'
          beforeState := beforeState
          afterState := loop.afterState.set action.resourceId
            (.stored ⟨resource'.tags, resource'.config⟩)
          results := results }, [.saveResource resource.id (.changes resource resource')])
      else
        .ok ({
          copies := loop.copies
          beforeState := beforeState
          afterState := loop.afterState.set action.resourceId
            (if dryRun then .preview state else .stored ⟨resource.tags, resource.config⟩)
          results := results }, [])

/-- The variables after the rounds for a list of actions. -/
def loopRun (loop : LoopState) : List RemediationAction → Except AppError LoopState
  | [] => .ok loop
  | action :: actions =>
    match loopStep config dryRun loop action with
    | .error e => .error e
    | .ok (loop', _) => loopRun loop' actions

/-- The writes of the rounds for a list of actions, up to the first error. -/
def loopWrites (loop : LoopState) : List RemediationAction → List DbOp
  | [] => []
  | action :: actions =>
    match loopStep config dryRun loop action with
    | .error _ => []
    | .ok (loop', writes) => writes ++ loopWrites loop' actions

variable {config dryRun} {loop loop' : LoopState} {action : RemediationAction}
  {writes : List DbOp} {pre actions : List RemediationAction}

/-- A round performs at most one write, the save of a resource the action names. -/
theorem loopStep_writes (h : loopStep config dryRun loop action = .ok (loop', writes)) :
    writes = [] ∨ ∃ resource state result, loop.copies.get? action.resourceId = some resource ∧
      applySimulatedAction resource.state action = .ok (state, result) ∧
      mutates config dryRun = true ∧
      writes = [.saveResource resource.id (.changes resource (updated resource state))] := by
  unfold loopStep at h
  split at h
  · cases h; exact Or.inl rfl
  · next resource hres =>
    split at h
    · cases h
    · next state result happly =>
      split at h
      · next hmut => cases h; exact Or.inr ⟨resource, state, result, hres, happly, hmut, rfl⟩
      · cases h; exact Or.inl rfl

/-- The loop goes on from where its first actions have led it. -/
theorem loopRun_append (h : loopRun config dryRun loop pre = .ok loop') :
    loopRun config dryRun loop (pre ++ actions) = loopRun config dryRun loop' actions := by
  induction pre generalizing loop with
  | nil => cases h; rfl
  | cons action pre ih =>
      simp only [loopRun, List.cons_append] at h ⊢
      split at h
      · cases h
      · next hstep => exact ih h

/-- The writes of the loop come action by action. -/
theorem loopWrites_append (h : loopRun config dryRun loop pre = .ok loop') :
    loopWrites config dryRun loop (pre ++ actions) =
      loopWrites config dryRun loop pre ++ loopWrites config dryRun loop' actions := by
  induction pre generalizing loop with
  | nil => cases h; rfl
  | cons action pre ih =>
      simp only [loopRun, loopWrites, List.cons_append] at h ⊢
      split at h
      · cases h
      · next hstep => rw [ih h, List.append_assoc]

/-- The loop writes nothing but resources. -/
theorem loopWrites_save {op : DbOp} (h : op ∈ loopWrites config dryRun loop actions) :
    ∃ id patch, op = .saveResource id patch := by
  induction actions generalizing loop with
  | nil => exact absurd h List.not_mem_nil
  | cons action actions ih =>
      simp only [loopWrites] at h
      split at h
      · exact absurd h List.not_mem_nil
      · next loop' writes hstep =>
        rcases List.mem_append.mp h with hmem | hmem
        · rcases loopStep_writes hstep with rfl | ⟨resource, state, _, _, _, _, rfl⟩
          · exact absurd hmem List.not_mem_nil
          · exact ⟨_, _, List.mem_singleton.mp hmem⟩
        · exact ih hmem

/-- **The action loop is its rounds**, each followed by its write.
SRCLINE: apps/api/src/services/remediation-service.ts:176-220 -/
theorem actionLoop_cons :
    actionLoop config dryRun (action :: actions) loop =
      match loopStep config dryRun loop action with
      | .error e => .throw e
      | .ok (loop', []) => actionLoop config dryRun actions loop'
      | .ok (loop', op :: _) => .call op fun _ => actionLoop config dryRun actions loop' := by
  rw [actionLoop]
  unfold loopStep
  cases hres : loop.copies.get? action.resourceId with
  | none => rfl
  | some resource =>
      dsimp only
      cases happly : applySimulatedAction resource.state action with
      | error e => rfl
      | ok applied =>
          obtain ⟨state, result⟩ := applied
          by_cases hmut : mutates config dryRun = true
          · simp only [Prog.ofExcept, Prog.ret_bind, if_pos hmut]; rfl
          · simp only [Prog.ofExcept, Prog.ret_bind, if_neg hmut]

/-- **The writes of the action loop**: each follows the writes of the rounds before it, and
at the end either all rounds have been gone through or one of them has failed. -/
theorem actionLoop_emits {J : Past → DbOp → Prop} {all : List RemediationAction}
    {init : LoopState} {base : List DbOp} {past : Past} (hall : all = pre ++ actions)
    (hrun : loopRun config dryRun init pre = .ok loop)
    (hpast : writesOf past = base ++ loopWrites config dryRun init pre)
    (hJ : ∀ pre action post loop loop' op past', all = pre ++ action :: post →
      loopRun config dryRun init pre = .ok loop →
      loopStep config dryRun loop action = .ok (loop', [op]) → past <+: past' →
      writesOf past' = base ++ loopWrites config dryRun init pre → J past' op) :
    (actionLoop config dryRun actions loop).Emits database J (fun past' result =>
      past <+: past' ∧ writesOf past' = base ++ loopWrites config dryRun init all ∧
        result = loopRun config dryRun init all) past := by
  induction actions generalizing pre loop past with
  | nil =>
      obtain rfl : all = pre := by simpa using hall
      exact ⟨List.prefix_refl _, hpast, hrun.symm⟩
  | cons action actions ih =>
      rw [actionLoop_cons]
      cases hstep : loopStep config dryRun loop action with
      | error e =>
          refine ⟨List.prefix_refl _, ?_, ?_⟩
          · rw [hpast, hall, loopWrites_append hrun]
            simp [loopWrites, hstep]
          · rw [hall, loopRun_append hrun]
            simp [loopRun, hstep]
      | ok next =>
          obtain ⟨loop', writes⟩ := next
          have hall' : all = (pre ++ [action]) ++ actions := by simpa using hall
          have hrun' : loopRun config dryRun init (pre ++ [action]) = .ok loop' := by
            rw [loopRun_append hrun]; simp [loopRun, hstep]
          have hwrites' : loopWrites config dryRun init (pre ++ [action]) =
              loopWrites config dryRun init pre ++ writes := by
            rw [loopWrites_append hrun]; simp [loopWrites, hstep]
          rcases loopStep_writes hstep with rfl | ⟨resource, state, result, _, _, _, rfl⟩
          · exact ih hall' hrun' (by rw [hpast, hwrites', List.append_nil]) hJ
          · refine ⟨hJ pre action actions loop loop' _ past hall hrun hstep
              (List.prefix_refl _) hpast, fun before => ?_⟩
            refine Prog.Emits.mono (ih hall' hrun' ?_ ?_) (fun _ _ h => h) ?_
            · rw [writesOf_append_write rfl, hpast, hwrites', List.append_assoc]
            · intro pre' action' post loop₁ loop₂ op past' h₁ h₂ h₃ hpre
              exact hJ pre' action' post loop₁ loop₂ op past' h₁ h₂ h₃
                ((List.prefix_append _ _).trans hpre)
            · rintro past' result' ⟨hpre, hrest⟩
              exact ⟨(List.prefix_append _ _).trans hpre, hrest⟩

end Loop

end CloudOps.Analysis
