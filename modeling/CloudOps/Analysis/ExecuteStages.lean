import CloudOps.Analysis.ActionLoop

/-!
# The stages of an execution

What `execute` writes is a fixed sequence, determined by what it has read: it claims the
plan, marks the token used, saves its resources action by action, records the execution,
settles the plan and writes its audit event. `Stage W op` says that `op` may follow the
writes `W`, `Ending` lists the ways in which the request ends.

`ExecuteCall.program_emits` proves that every request keeps to its stages, whatever other
requests do to the store between its calls. The results on interleaved requests start from
it and never look into the program again.
-/

set_option autoImplicit false

namespace CloudOps.Analysis

open CloudOps.Computation CloudOps.Model CloudOps.Model.RemediationService

/-- The arguments of a call of `execute`. -/
structure ExecuteCall where
  hashToken : String → String
  config : ApiConfig
  workspaceId : String
  planId : String
  actorId : String
  correlationId : String
  input : ExecuteInput

namespace ExecuteCall

variable (c : ExecuteCall)

def program : DbProg Response :=
  execute c.hashToken c.config c.workspaceId c.planId c.actorId c.correlationId c.input

/-- The execution record for what was loaded and what the loop recorded. -/
def execution (plan : RemediationPlan) (matched : ApprovalToken) (loop : LoopState) :
    RemediationExecution :=
  executionOf c.workspaceId c.planId c.actorId c.correlationId c.input plan matched loop

/-- The reads of `execute` that let it go on, and what they returned. -/
structure Loaded (past : Past) (plan : RemediationPlan) (matched : ApprovalToken)
    (resources : List CloudResource) : Prop where
  fresh : ∃ before, ⟨.findExecutionByKey c.workspaceId c.input.idempotencyKey, before⟩ ∈ past ∧
    before.findExecutionByKey c.workspaceId c.input.idempotencyKey = none
  planRead : ∃ before, ⟨.findPlan c.planId c.workspaceId, before⟩ ∈ past ∧
    before.findPlan c.planId c.workspaceId = some plan
  approved : plan.status = .approved
  approvalsRead : ∃ before, ⟨.findApprovals c.workspaceId c.planId, before⟩ ∈ past ∧
    checkApproval c.hashToken (before.findApprovals c.workspaceId c.planId)
      c.input.approvalToken c.input.checkedAt = .ok matched
  permitted : plan.dryRun = false → rejectMutationsIfDisabled c.config.ENABLE_AWS_MUTATIONS
    c.config.CLOUD_PROVIDER = .ok ()
  resourcesRead : ∃ before,
    ⟨.findResources c.workspaceId (plan.actions.map (·.resourceId)).eraseDups,
      before⟩ ∈ past ∧
    before.findResources c.workspaceId (plan.actions.map (·.resourceId)).eraseDups = resources

/-- What has been loaded stays loaded. -/
theorem Loaded.mono {c : ExecuteCall} {past past' : Past} {plan : RemediationPlan}
    {matched : ApprovalToken} {resources : List CloudResource}
    (h : c.Loaded past plan matched resources) (hsub : past ⊆ past') :
    c.Loaded past' plan matched resources where
  fresh := h.fresh.imp fun _ h => ⟨hsub h.1, h.2⟩
  planRead := h.planRead.imp fun _ h => ⟨hsub h.1, h.2⟩
  approved := h.approved
  approvalsRead := h.approvalsRead.imp fun _ h => ⟨hsub h.1, h.2⟩
  permitted := h.permitted
  resourcesRead := h.resourcesRead.imp fun _ h => ⟨hsub h.1, h.2⟩

/-- The two writes before the action loop: the claim of the plan and the use of the token. -/
def opening (plan : RemediationPlan) (matched : ApprovalToken) : List DbOp :=
  [.savePlan plan.id (some .executing), .saveApproval matched.id c.input.usedAt]

/-- The writes up to the end of the rounds for a list of actions. -/
def writesUpTo (plan : RemediationPlan) (matched : ApprovalToken) (resources : List CloudResource)
    (actions : List RemediationAction) : List DbOp :=
  c.opening plan matched ++ loopWrites c.config plan.dryRun (loopStart resources) actions

/-- Which write may follow which, for what has been loaded. -/
inductive Stage (plan : RemediationPlan) (matched : ApprovalToken)
    (resources : List CloudResource) : List DbOp → DbOp → Prop
  | claim : Stage plan matched resources [] (.savePlan plan.id (some .executing))
  | use : Stage plan matched resources [.savePlan plan.id (some .executing)]
      (.saveApproval matched.id c.input.usedAt)
  | act (pre post : List RemediationAction) (action : RemediationAction) (loop : LoopState)
      (resource : CloudResource) (state : ResourceState) (result : ActionResult)
      (hactions : plan.actions = pre ++ action :: post)
      (hrun : loopRun c.config plan.dryRun (loopStart resources) pre = .ok loop)
      (hresource : loop.copies.get? action.resourceId = some resource)
      (happly : applySimulatedAction resource.state action = .ok (state, result))
      (hmutates : mutates c.config plan.dryRun = true) :
      Stage plan matched resources (c.writesUpTo plan matched resources pre)
        (.saveResource resource.id (.changes resource (updated resource state)))
  | record (loop : LoopState)
      (hrun : loopRun c.config plan.dryRun (loopStart resources) plan.actions = .ok loop) :
      Stage plan matched resources (c.writesUpTo plan matched resources plan.actions)
        (.createExecution (c.execution plan matched loop))
  | settle (loop : LoopState)
      (hrun : loopRun c.config plan.dryRun (loopStart resources) plan.actions = .ok loop) :
      Stage plan matched resources (c.writesUpTo plan matched resources plan.actions ++
        [.createExecution (c.execution plan matched loop)])
        (.savePlan plan.id (some (finalStatus (c.execution plan matched loop).status)))
  | audit (loop : LoopState) (event : AuditEvent)
      (hrun : loopRun c.config plan.dryRun (loopStart resources) plan.actions = .ok loop) :
      Stage plan matched resources (c.writesUpTo plan matched resources plan.actions ++
        [.createExecution (c.execution plan matched loop),
          .savePlan plan.id (some (finalStatus (c.execution plan matched loop).status))])
        (.recordAudit event)

/-- Every record that has been created found its identity and its key free. -/
def Recorded (past : Past) : Prop :=
  ∀ execution before, ⟨.createExecution execution, before⟩ ∈ past →
    ¬ before.executions.Conflicts execution

/-- The reads of `execute`; the resources it looks for are those of the plan it has found. -/
inductive Reads (past : Past) : DbOp → Prop
  | key : Reads past (.findExecutionByKey c.workspaceId c.input.idempotencyKey)
  | plan : Reads past (.findPlan c.planId c.workspaceId)
  | approvals : Reads past (.findApprovals c.workspaceId c.planId)
  | resources (plan : RemediationPlan) (hplan : ∃ before,
      ⟨.findPlan c.planId c.workspaceId, before⟩ ∈ past ∧
        before.findPlan c.planId c.workspaceId = some plan) :
      Reads past (.findResources c.workspaceId (plan.actions.map (·.resourceId)).eraseDups)

/-- What every operation of `execute` relies on. -/
def Justified (past : Past) (op : DbOp) : Prop :=
  if op.writes then ∃ plan matched resources, c.Loaded past plan matched resources ∧
    c.Stage plan matched resources (writesOf past) op ∧ Recorded past
  else writesOf past = [] ∧ c.Reads past op

/-- How `execute` ends. -/
inductive Ending (past : Past) : Except AppError Response → Prop
  | replayed (execution : RemediationExecution) (hwrites : writesOf past = [])
      (hfound : ∃ before,
        ⟨.findExecutionByKey c.workspaceId c.input.idempotencyKey, before⟩ ∈ past ∧
        before.findExecutionByKey c.workspaceId c.input.idempotencyKey = some execution) :
      Ending past (.ok (.execution execution true))
  | noPlan (e : AppError) (hwrites : writesOf past = [])
      (hplan : ∃ before, ⟨.findPlan c.planId c.workspaceId, before⟩ ∈ past ∧
        ∀ plan, before.findPlan c.planId c.workspaceId = some plan → plan.status ≠ .approved) :
      Ending past (.error e)
  | noApproval (e : AppError) (hwrites : writesOf past = [])
      (happrovals : ∃ before, ⟨.findApprovals c.workspaceId c.planId, before⟩ ∈ past ∧
        checkApproval c.hashToken (before.findApprovals c.workspaceId c.planId)
          c.input.approvalToken c.input.checkedAt = .error e) :
      Ending past (.error e)
  | notPermitted (e : AppError) (hwrites : writesOf past = []) (plan : RemediationPlan)
      (hplan : ∃ before, ⟨.findPlan c.planId c.workspaceId, before⟩ ∈ past ∧
        before.findPlan c.planId c.workspaceId = some plan)
      (hdryRun : plan.dryRun = false)
      (hrejected : rejectMutationsIfDisabled c.config.ENABLE_AWS_MUTATIONS
        c.config.CLOUD_PROVIDER = .error e) :
      Ending past (.error e)
  | loopFailed (e : AppError) (plan : RemediationPlan) (matched : ApprovalToken)
      (resources : List CloudResource) (hloaded : c.Loaded past plan matched resources)
      (hrun : loopRun c.config plan.dryRun (loopStart resources) plan.actions = .error e)
      (hwrites : writesOf past = c.writesUpTo plan matched resources plan.actions) :
      Ending past (.error e)
  | duplicate (plan : RemediationPlan) (matched : ApprovalToken) (resources : List CloudResource)
      (loop : LoopState) (hloaded : c.Loaded past plan matched resources)
      (hrun : loopRun c.config plan.dryRun (loopStart resources) plan.actions = .ok loop)
      (hwrites : writesOf past = c.writesUpTo plan matched resources plan.actions ++
        [.createExecution (c.execution plan matched loop)])
      (hconflict : ∃ before, ⟨.createExecution (c.execution plan matched loop), before⟩ ∈ past ∧
        before.executions.Conflicts (c.execution plan matched loop)) :
      Ending past (.error .duplicateKey)
  | done (plan : RemediationPlan) (matched : ApprovalToken) (resources : List CloudResource)
      (loop : LoopState) (event : AuditEvent) (hloaded : c.Loaded past plan matched resources)
      (hrun : loopRun c.config plan.dryRun (loopStart resources) plan.actions = .ok loop)
      (hwrites : writesOf past = c.writesUpTo plan matched resources plan.actions ++
        [.createExecution (c.execution plan matched loop),
          .savePlan plan.id (some (finalStatus (c.execution plan matched loop).status)),
          .recordAudit event])
      (hrecorded : Recorded past) :
      Ending past (.ok (.execution (c.execution plan matched loop) false))

variable {c} {past : Past} {plan : RemediationPlan} {matched : ApprovalToken}
  {resources : List CloudResource}

/-- A read before any write is justified by the reads it follows. -/
theorem justified_read {op : DbOp} (hop : op.writes = false) (h : writesOf past = [])
    (hreads : c.Reads past op) : c.Justified past op := by
  rw [Justified, if_neg (by simp [hop])]
  exact ⟨h, hreads⟩

/-- A write is justified by what has been loaded and the writes before it. -/
theorem justified_write {op : DbOp} (hop : op.writes = true)
    (hloaded : c.Loaded past plan matched resources)
    (hstage : c.Stage plan matched resources (writesOf past) op) (hrec : Recorded past) :
    c.Justified past op := by
  rw [Justified, if_pos hop]
  exact ⟨plan, matched, resources, hloaded, hstage, hrec⟩

/-- Where nothing is inserted every insertion is recorded. -/
theorem Recorded.of_writes {W : List DbOp} (hwrites : writesOf past = W)
    (h : ∀ execution, .createExecution execution ∉ W) : Recorded past := by
  subst hwrites
  exact fun execution before hmem => absurd (mem_writesOf.mpr ⟨rfl, before, hmem⟩) (h execution)

/-- An insertion that finds its indexes free keeps the past recorded. -/
theorem Recorded.append (h : Recorded past) {op : DbOp} {before : Database}
    (hop : ∀ execution, op = .createExecution execution →
      ¬ before.executions.Conflicts execution) : Recorded (past ++ [⟨op, before⟩]) := by
  intro execution before' hmem
  rcases List.mem_append.mp hmem with hold | hnew
  · exact h execution before' hold
  · obtain ⟨rfl, rfl⟩ := Event.mk.inj (List.mem_singleton.mp hnew)
    exact hop execution rfl

/-- Nothing is recorded before the loop is through. -/
theorem not_recorded_upTo {actions : List RemediationAction} (execution : RemediationExecution) :
    DbOp.createExecution execution ∉ c.writesUpTo plan matched resources actions := by
  intro hmem
  rcases List.mem_append.mp hmem with hmem | hmem
  · simp [opening] at hmem
  · obtain ⟨_, _, heq⟩ := loopWrites_save hmem
    cases heq

/-- A write of `execute` at its stage. -/
theorem emits_stage {op : DbOp} {W : List DbOp} {f : op.Reply → DbProg Response}
    (hop : op.writes = true) (hloaded : c.Loaded past plan matched resources)
    (hwrites : writesOf past = W) (hrec : Recorded past)
    (hstage : c.Stage plan matched resources W op)
    (hrest : ∀ before, c.Loaded (past ++ [⟨op, before⟩]) plan matched resources →
      writesOf (past ++ [⟨op, before⟩]) = W ++ [op] →
      (f (database.exec op before).1).Emits database c.Justified c.Ending
        (past ++ [⟨op, before⟩])) :
    ((Prog.call op .ret : DbProg op.Reply) >>= f).Emits database c.Justified c.Ending past := by
  refine emits_call (justified_write hop hloaded (hwrites ▸ hstage) hrec)
    fun before reply hreply => ?_
  subst hreply
  exact hrest before (hloaded.mono (List.subset_append_left _ _))
    (by rw [writesOf_append_write hop, hwrites])

/-- The part of `execute` after its loop keeps to its stages.
SRCLINE: apps/api/src/services/remediation-service.ts:225-251 -/
theorem recordExecution_emits {loop : LoopState}
    (hloaded : c.Loaded past plan matched resources)
    (hwrites : writesOf past = c.writesUpTo plan matched resources plan.actions)
    (hrec : Recorded past)
    (hrun : loopRun c.config plan.dryRun (loopStart resources) plan.actions = .ok loop) :
    (do
      RemediationExecutionModel.create (c.execution plan matched loop)
      RemediationPlanModel.save { plan with status := .executing }
        (finalStatus (c.execution plan matched loop).status)
      recordAudit (executeAudit c.actorId c.correlationId c.input (c.execution plan matched loop))
      return Response.execution (c.execution plan matched loop) false : DbProg Response).Emits
        database c.Justified c.Ending past := by
  refine emits_attempt (k := fun reply : DbOp.Reply (.createExecution (c.execution plan matched
    loop)) => reply) (justified_write rfl hloaded (hwrites ▸ .record loop hrun) hrec) ?_ ?_
  · intro before₁ _ hok
    have hfree : ¬ before₁.executions.Conflicts (c.execution plan matched loop) :=
      free_of_createIn hok
    have hloaded₁ := hloaded.mono (List.subset_append_left past
      [⟨.createExecution (c.execution plan matched loop), before₁⟩])
    have hwrites₁ : writesOf (past ++ [⟨.createExecution (c.execution plan matched loop),
        before₁⟩]) = c.writesUpTo plan matched resources plan.actions ++
          [.createExecution (c.execution plan matched loop)] := by
      rw [writesOf_append_write rfl, hwrites]
    have hrec₁ : Recorded (past ++ [⟨.createExecution (c.execution plan matched loop),
        before₁⟩]) := hrec.append (by rintro _ ⟨⟩; exact hfree)
    have hsettle : (if ({ plan with status := .executing } : RemediationPlan).status =
        finalStatus (c.execution plan matched loop).status then none
        else some (finalStatus (c.execution plan matched loop).status)) =
          some (finalStatus (c.execution plan matched loop).status) :=
      if_neg (by unfold finalStatus; split <;> simp)
    unfold RemediationPlanModel.save
    rw [hsettle]
    refine emits_stage rfl hloaded₁ hwrites₁ hrec₁ (.settle loop hrun)
      fun before₂ hloaded₂ hwrites₂ => ?_
    have hrec₂ : Recorded (_ ++ [⟨.savePlan plan.id (some (finalStatus (c.execution plan matched
        loop).status)), before₂⟩]) := hrec₁.append (by simp)
    refine emits_stage rfl hloaded₂ (hwrites₂.trans (List.append_assoc _ _ _)) hrec₂
      (.audit loop _ hrun)
      fun before₃ hloaded₃ hwrites₃ => ?_
    refine .done plan matched resources loop (executeAudit c.actorId c.correlationId c.input
      (c.execution plan matched loop)) hloaded₃ hrun ?_ (hrec₂.append (by simp))
    exact hwrites₃.trans (List.append_assoc _ _ _)
  · intro before e he
    have htaken : before.executions.Conflicts (c.execution plan matched loop) ∧
        e = .duplicateKey := taken_of_createIn he
    obtain ⟨hconflict, rfl⟩ := htaken
    refine .duplicate plan matched resources loop (hloaded.mono (List.subset_append_left _ _))
      hrun ?_ ⟨before, by simp, hconflict⟩
    rw [writesOf_append_write rfl, hwrites]

/-- The part of `execute` after its checks keeps to its stages.
SRCLINE: apps/api/src/services/remediation-service.ts:167-251 -/
theorem executeChecked_emits (hwrites : writesOf past = [])
    (hplan : ∃ before, ⟨.findPlan c.planId c.workspaceId, before⟩ ∈ past ∧
      before.findPlan c.planId c.workspaceId = some plan)
    (hloaded : ∀ resources past', past ⊆ past' →
      (∃ before, ⟨.findResources c.workspaceId (plan.actions.map (·.resourceId)).eraseDups,
        before⟩ ∈ past' ∧
        before.findResources c.workspaceId (plan.actions.map (·.resourceId)).eraseDups =
          resources) → c.Loaded past' plan matched resources) :
    (executeChecked c.config c.workspaceId c.planId c.actorId c.correlationId c.input plan
      matched).Emits database c.Justified c.Ending past := by
  unfold executeChecked RemediationPlanModel.save
  refine emits_call (justified_read rfl hwrites (.resources plan hplan))
    fun before₁ resources hresources => ?_
  have hloaded₁ := hloaded resources _ (List.subset_append_left past [⟨.findResources
    c.workspaceId (plan.actions.map (·.resourceId)).eraseDups, before₁⟩])
    ⟨before₁, by simp, hresources⟩
  have hwrites₁ : writesOf (past ++ [⟨.findResources c.workspaceId
      (plan.actions.map (·.resourceId)).eraseDups, before₁⟩]) = [] := by
    rw [writesOf_append_read rfl, hwrites]
  have hclaim : (if plan.status = .executing then none else some PlanStatus.executing) =
      some .executing := by simp [hloaded₁.approved]
  rw [hclaim]
  refine emits_stage rfl hloaded₁ hwrites₁ (.of_writes hwrites₁ (by simp)) .claim
    fun before₂ hloaded₂ hwrites₂ => ?_
  refine emits_stage rfl hloaded₂ hwrites₂ (.of_writes hwrites₂ (by simp)) .use
    fun before₃ hloaded₃ hwrites₃ => ?_
  have hstart : writesOf (past ++ [⟨.findResources c.workspaceId
      (plan.actions.map (·.resourceId)).eraseDups, before₁⟩] ++
      [⟨.savePlan plan.id (some .executing), before₂⟩] ++
      [⟨.saveApproval matched.id c.input.usedAt, before₃⟩]) =
      c.opening plan matched ++ loopWrites c.config plan.dryRun (loopStart resources) [] := by
    rw [hwrites₃]; rfl
  refine Prog.Emits.bind (Prog.Emits.mono (actionLoop_emits (List.nil_append plan.actions).symm rfl
    hstart ?_) (fun _ _ h => h) ?_)
  · intro pre action post loop loop' op past' hactions hrun hstep hpre hpast'
    rcases loopStep_writes hstep with h | ⟨resource, state, result, hresource, happly, hmut, h⟩ <;>
      cases h
    refine justified_write rfl (hloaded₃.mono hpre.subset) ?_
      (.of_writes hpast' not_recorded_upTo)
    rw [hpast']
    exact .act pre post action loop resource state result hactions hrun hresource happly hmut
  · rintro past₄ result ⟨hpre, hwrites₄, hrun⟩
    have hloaded₄ := hloaded₃.mono hpre.subset
    cases result with
    | error e => exact .loopFailed e plan matched resources hloaded₄ hrun.symm hwrites₄
    | ok loop =>
        have hrec₄ : Recorded past₄ := .of_writes hwrites₄ not_recorded_upTo
        exact recordExecution_emits hloaded₄ hwrites₄ hrec₄ hrun.symm

/-- The two saves of the plan: its claim, before any other write, and its settlement. -/
theorem Stage.savePlan {id : String} {status : Option PlanStatus} {W : List DbOp}
    (h : c.Stage plan matched resources W (.savePlan id status)) :
    id = plan.id ∧ ((W = [] ∧ status = some .executing) ∨
      ∃ loop, loopRun c.config plan.dryRun (loopStart resources) plan.actions = .ok loop ∧
        W = c.writesUpTo plan matched resources plan.actions ++
          [.createExecution (c.execution plan matched loop)] ∧
        status = some (finalStatus (c.execution plan matched loop).status)) := by
  generalize hop : DbOp.savePlan id status = op at h
  cases h with
  | claim => cases hop; exact ⟨rfl, Or.inl ⟨rfl, rfl⟩⟩
  | settle loop hrun => cases hop; exact ⟨rfl, Or.inr ⟨loop, hrun, rfl, rfl⟩⟩
  | _ => cases hop

/-- An execution that has not been replayed has gone through all its stages. -/
theorem Ending.executed {e : RemediationExecution}
    (h : c.Ending past (.ok (.execution e false))) : ∃ plan matched resources loop event,
      c.Loaded past plan matched resources ∧
      loopRun c.config plan.dryRun (loopStart resources) plan.actions = .ok loop ∧
      writesOf past = c.writesUpTo plan matched resources plan.actions ++
        [.createExecution (c.execution plan matched loop),
          .savePlan plan.id (some (finalStatus (c.execution plan matched loop).status)),
          .recordAudit event] ∧
      Recorded past ∧ e = c.execution plan matched loop := by
  generalize hresult : (Except.ok (Response.execution e false) : Except AppError Response) = result
    at h
  cases h with
  | done plan matched resources loop event hloaded hrun hwrites hrecorded =>
      cases hresult
      exact ⟨plan, matched, resources, loop, event, hloaded, hrun, hwrites, hrecorded, rfl⟩
  | _ => cases hresult

/-- **`execute` keeps to its stages**, whatever the store is at each of its calls.
SRCLINE: apps/api/src/services/remediation-service.ts:135-252 -/
theorem program_emits : c.program.Emits database c.Justified c.Ending [] := by
  unfold program execute
  refine emits_call (justified_read rfl rfl .key) fun before₁ existing hexisting => ?_
  cases existing with
  | some execution => exact .replayed execution rfl ⟨before₁, by simp, hexisting⟩
  | none =>
    refine emits_call (justified_read rfl rfl .plan) fun before₂ plan? hplan => ?_
    cases plan? with
    | none =>
        refine .noPlan _ rfl ⟨before₂, by simp, fun plan hsome => ?_⟩
        exact absurd (hplan.symm.trans hsome) (by simp)
    | some plan =>
      by_cases happroved : plan.status = .approved
      · simp only [happroved, ne_eq, not_true_eq_false, if_false]
        refine emits_call (justified_read rfl rfl .approvals) fun before₃ approvals happrovals => ?_
        refine emits_ofExcept (fun matched hmatched => ?_) fun e he => ?_
        · subst happrovals
          have hloaded : ∀ resources past', [⟨.findExecutionByKey c.workspaceId
              c.input.idempotencyKey, before₁⟩, ⟨.findPlan c.planId c.workspaceId, before₂⟩,
              ⟨.findApprovals c.workspaceId c.planId, before₃⟩] ⊆ past' →
              (plan.dryRun = false → rejectMutationsIfDisabled c.config.ENABLE_AWS_MUTATIONS
                c.config.CLOUD_PROVIDER = .ok ()) →
              (∃ before, ⟨.findResources c.workspaceId
                (plan.actions.map (·.resourceId)).eraseDups, before⟩ ∈ past' ∧
                before.findResources c.workspaceId (plan.actions.map (·.resourceId)).eraseDups =
                  resources) → c.Loaded past' plan matched resources :=
            fun resources past' hsub hpermitted hread =>
              ⟨⟨before₁, hsub (by simp), hexisting⟩, ⟨before₂, hsub (by simp), hplan⟩, happroved,
                ⟨before₃, hsub (by simp), hmatched⟩, hpermitted, hread⟩
          cases hdryRun : plan.dryRun with
          | true =>
              exact executeChecked_emits rfl ⟨before₂, by simp, hplan⟩ (fun resources past' hsub =>
                hloaded resources past' hsub (by simp [hdryRun]))
          | false =>
              refine emits_ofExcept (fun _ hpermitted => ?_) fun e he => ?_
              · exact executeChecked_emits rfl ⟨before₂, by simp, hplan⟩
                  (fun resources past' hsub =>
                  hloaded resources past' hsub fun _ => hpermitted)
              · exact .notPermitted e rfl plan ⟨before₂, by simp, hplan⟩ hdryRun he
        · subst happrovals
          exact .noApproval e rfl ⟨before₃, by simp, he⟩
      · simp only [happroved, ne_eq, not_false_eq_true, if_true]
        refine .noPlan _ rfl ⟨before₂, by simp, fun plan' hsome => ?_⟩
        obtain rfl : plan = plan' := Option.some.inj (hplan.symm.trans hsome)
        exact happroved

end ExecuteCall

end CloudOps.Analysis
