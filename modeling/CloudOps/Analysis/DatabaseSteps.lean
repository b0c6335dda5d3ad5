import CloudOps.Model.RemediationService

/-!
# What one database call changes

Every collection changes in few ways: a plan, a token or an execution is created, a plan
gets another status, a token is marked used. Nothing is ever removed, and apart from those
two fields nothing of a plan, a token or an execution is ever changed: `Database.Le`.
-/

set_option autoImplicit false

namespace CloudOps.Analysis

open CloudOps.Computation CloudOps.Model

variable {op : DbOp} {db : Database}

/-- The documents after a `create`. -/
theorem mem_createIn {δ κ ι : Type} [Document δ κ ι] [DecidableEq κ] [DecidableEq ι]
    {collection : Collection δ} {document d : δ} : d ∈ (createIn collection document).2 ↔
      d ∈ collection ∨ (¬ collection.Conflicts document ∧ d = document) := by
  unfold createIn
  cases h : collection.insert? document with
  | none =>
      have hconflict := Collection.insert?_eq_none_iff.mp h
      simp [hconflict]
  | some collection' =>
      simp [Collection.mem_insert? h, (Collection.insert?_eq_some h).1]

/-- What a `create` replies. -/
theorem createIn_fst {δ κ ι : Type} [Document δ κ ι] [DecidableEq κ] [DecidableEq ι]
    (collection : Collection δ) (document : δ) : (createIn collection document).1 =
      if collection.Conflicts document then .error .duplicateKey else .ok () := by
  unfold createIn
  split
  · next h => rw [if_neg (Collection.insert?_eq_some h).1]
  · next h => rw [if_pos (Collection.insert?_eq_none_iff.mp h)]

/-- A creation that succeeds has found its identity and its index free. -/
theorem free_of_createIn {δ κ ι : Type} [Document δ κ ι] [DecidableEq κ] [DecidableEq ι]
    {collection : Collection δ} {document : δ} {u : Unit}
    (h : (createIn collection document).1 = .ok u) : ¬ collection.Conflicts document := by
  intro htaken
  rw [createIn_fst, if_pos htaken] at h
  cases h

/-- A creation that fails has found its identity or its index taken. -/
theorem taken_of_createIn {δ κ ι : Type} [Document δ κ ι] [DecidableEq κ] [DecidableEq ι]
    {collection : Collection δ} {document : δ} {err : AppError}
    (h : (createIn collection document).1 = .error err) :
    collection.Conflicts document ∧ err = .duplicateKey := by
  rw [createIn_fst] at h
  split at h
  · next htaken => exact ⟨htaken, (Except.error.inj h).symm⟩
  · cases h

/-- A plan after a call was there before, or has just been created, or has just been saved
with another status. -/
theorem mem_plans_exec {plan' : RemediationPlan} (h : plan' ∈ (op.exec db).2.plans) :
    plan' ∈ db.plans ∨ (op = .createPlan plan' ∧ ¬ db.plans.Conflicts plan') ∨
      ∃ plan ∈ db.plans, ∃ status, op = .savePlan plan.id (some status) ∧
        plan' = { plan with status := status } := by
  cases op with
  | createPlan plan =>
      rcases mem_createIn.mp h with hold | ⟨hfree, rfl⟩
      · exact Or.inl hold
      · exact Or.inr (Or.inl ⟨rfl, hfree⟩)
  | savePlan id status =>
      change plan' ∈ db.plans.update id _ at h
      rw [Collection.mem_update] at h
      obtain ⟨plan, hmem, heq⟩ := h
      split at heq
      · next hid =>
        cases status with
        | none => subst heq; exact Or.inl hmem
        | some status =>
            exact Or.inr (Or.inr ⟨plan, hmem, status, by rw [← hid]; rfl, heq.symm⟩)
      · subst heq; exact Or.inl hmem
  | _ => exact Or.inl h

/-- A plan that has just been saved has the status it was saved with. -/
theorem status_savePlan {plan : RemediationPlan} {status : PlanStatus}
    (h : plan ∈ ((DbOp.savePlan plan.id (some status)).exec db).2.plans) :
    plan.status = status := by
  change plan ∈ db.plans.update plan.id _ at h
  rw [Collection.mem_update] at h
  obtain ⟨p, hp, heq⟩ := h
  split at heq
  · rw [← heq]; rfl
  · next hne => exact absurd (congrArg RemediationPlan.id heq) hne

/-- A token after a call was there before, or has just been created, or has just been marked
used. -/
theorem mem_tokens_exec {token' : ApprovalToken} (h : token' ∈ (op.exec db).2.tokens) :
    token' ∈ db.tokens ∨ (op = .createApproval token' ∧ ¬ db.tokens.Conflicts token') ∨
      ∃ token ∈ db.tokens, ∃ usedAt, op = .saveApproval token.id usedAt ∧
        token' = { token with usedAt := some usedAt } := by
  cases op with
  | createApproval token =>
      rcases mem_createIn.mp h with hold | ⟨hfree, rfl⟩
      · exact Or.inl hold
      · exact Or.inr (Or.inl ⟨rfl, hfree⟩)
  | saveApproval id usedAt =>
      change token' ∈ db.tokens.update id _ at h
      rw [Collection.mem_update] at h
      obtain ⟨token, hmem, heq⟩ := h
      split at heq
      · next hid => exact Or.inr (Or.inr ⟨token, hmem, usedAt, by rw [← hid]; rfl, heq.symm⟩)
      · subst heq; exact Or.inl hmem
  | _ => exact Or.inl h

/-- An execution after a call was there before or has just been created. -/
theorem mem_executions_exec {execution : RemediationExecution}
    (h : execution ∈ (op.exec db).2.executions) :
    execution ∈ db.executions ∨
      (op = .createExecution execution ∧ ¬ db.executions.Conflicts execution) := by
  cases op with
  | createExecution e =>
      rcases mem_createIn.mp h with hold | ⟨hfree, rfl⟩
      · exact Or.inl hold
      · exact Or.inr ⟨rfl, hfree⟩
  | _ => exact Or.inl h

/-- **Documents stay**, and but for the status of a plan and the use of a token they stay as
they are. -/
structure Database.Le (db db' : Database) : Prop where
  plans : ∀ plan ∈ db.plans, ∃ plan' ∈ db'.plans, plan' = { plan with status := plan'.status }
  tokens : ∀ token ∈ db.tokens, ∃ token' ∈ db'.tokens,
    token' = { token with usedAt := token'.usedAt } ∧
      (token.usedAt.isSome → token'.usedAt.isSome)
  executions : ∀ execution ∈ db.executions, execution ∈ db'.executions

/-- A database has grown to itself. -/
theorem Database.Le.refl (db : Database) : Database.Le db db where
  plans := fun plan h => ⟨plan, h, rfl⟩
  tokens := fun token h => ⟨token, h, rfl, fun h => h⟩
  executions := fun _ h => h

/-- Growing twice is growing. -/
theorem Database.Le.trans {db₁ db₂ db₃ : Database} (h : Database.Le db₁ db₂)
    (h' : Database.Le db₂ db₃) : Database.Le db₁ db₃ where
  plans := by
    intro plan hmem
    obtain ⟨plan₂, hmem₂, heq₂⟩ := h.plans plan hmem
    obtain ⟨plan₃, hmem₃, heq₃⟩ := h'.plans plan₂ hmem₂
    refine ⟨plan₃, hmem₃, ?_⟩
    rw [heq₃, heq₂]
  tokens := by
    intro token hmem
    obtain ⟨token₂, hmem₂, heq₂, hused₂⟩ := h.tokens token hmem
    obtain ⟨token₃, hmem₃, heq₃, hused₃⟩ := h'.tokens token₂ hmem₂
    refine ⟨token₃, hmem₃, ?_, fun hused => hused₃ (hused₂ hused)⟩
    rw [heq₃, heq₂]
  executions := fun e he => h'.executions e (h.executions e he)

/-- Every call keeps the documents. -/
theorem Database.le_exec (op : DbOp) (db : Database) : Database.Le db (op.exec db).2 := by
  cases op with
  | createPlan plan =>
      exact { Database.Le.refl db with
        plans := fun p h => ⟨p, mem_createIn.mpr (Or.inl h), rfl⟩ }
  | createApproval token =>
      exact { Database.Le.refl db with
        tokens := fun t h => ⟨t, mem_createIn.mpr (Or.inl h), rfl, fun h => h⟩ }
  | createExecution e =>
      exact { Database.Le.refl db with
        executions := fun e h => mem_createIn.mpr (Or.inl h) }
  | savePlan id status =>
      refine { Database.Le.refl db with plans := fun plan h => ?_ }
      refine ⟨if plan.id = id then { plan with status := status.getD plan.status } else plan,
        ?_, ?_⟩
      · change _ ∈ db.plans.update id _
        rw [Collection.mem_update]
        exact ⟨plan, h, rfl⟩
      · split <;> rfl
  | saveApproval id usedAt =>
      refine { Database.Le.refl db with tokens := fun token h => ?_ }
      refine ⟨if token.id = id then { token with usedAt := some usedAt } else token, ?_, ?_, ?_⟩
      · change _ ∈ db.tokens.update id _
        rw [Collection.mem_update]
        exact ⟨token, h, rfl⟩
      · split <;> rfl
      · intro hused
        split
        · rfl
        · exact hused
  | _ => exact { Database.Le.refl db with }

/-- **Jobs stay** under their identity, their workspace and their key. -/
theorem jobs_stay (op : DbOp) {job : DiagnosticJob} (h : job ∈ db.jobs) :
    ∃ job' ∈ (op.exec db).2.jobs, Document._id job' = Document._id job ∧
      Document.uniqueIndex job' = Document.uniqueIndex job := by
  cases op with
  | createJob new => exact ⟨job, mem_createIn.mpr (Or.inl h), rfl, rfl⟩
  | saveJob call => exact Collection.update_keeps (retrySave_id call) (retrySave_index call) h
  | claimJob config workerId now jobId =>
      show ∃ job' ∈ (JobQueue.claim config db.jobs workerId now jobId).getD db.jobs, _
      unfold JobQueue.claim
      split
      · exact ⟨job, h, rfl, rfl⟩
      · split
        · exact Collection.update_keeps _ _ h
        · exact ⟨job, h, rfl, rfl⟩
  | heartbeatJob config jobId workerId now =>
      refine Collection.updateMany_keeps ?_ ?_ h <;> exact fun _ => rfl
  | completeJob jobId summary now => refine Collection.update_keeps ?_ ?_ h <;> exact fun _ => rfl
  | failJob config call random now =>
      refine Collection.update_keeps (fun job => ?_) (fun job => ?_) h
      · unfold failUpdate
        split <;> rfl
      · unfold failUpdate
        split <;> rfl
  | recoverAbandoned now =>
      refine Collection.updateMany_keeps ?_ ?_ h <;> exact fun _ => rfl
  | _ => exact ⟨job, h, rfl, rfl⟩

/-- **Resources stay** under their identity, their workspace and their arn. -/
theorem resources_stay (op : DbOp) {resource : CloudResource} (h : resource ∈ db.resources) :
    ∃ resource' ∈ (op.exec db).2.resources, Document._id resource' = Document._id resource ∧
      Document.uniqueIndex resource' = Document.uniqueIndex resource := by
  cases op with
  | saveResource id patch => refine Collection.update_keeps ?_ ?_ h <;> exact fun _ => rfl
  | upsertResource ws item lastSyncedAt newId =>
      show ∃ resource' ∈ (upsertIn db.resources ws item lastSyncedAt newId).2, _
      unfold upsertIn
      split
      · refine Collection.update_keeps ?_ ?_ h <;> exact fun _ => rfl
      · dsimp only
        split
        · next resources' hinsert =>
          exact ⟨resource, (Collection.mem_insert? hinsert).mpr (Or.inl h), rfl, rfl⟩
        · exact ⟨resource, h, rfl, rfl⟩
  | _ => exact ⟨resource, h, rfl, rfl⟩

/-! ## What the queries return -/

/-- The plan that is found is stored, under its identity and its workspace. -/
theorem findPlan_mem {planId workspaceId : String} {plan : RemediationPlan}
    (h : db.findPlan planId workspaceId = some plan) :
    plan ∈ db.plans ∧ plan.id = planId ∧ plan.workspaceId = workspaceId := by
  obtain ⟨hmem, hp⟩ := Collection.mem_of_find? h
  simpa [and_assoc] using And.intro hmem hp

/-- The plan under a key. -/
theorem findPlanByKey_iff {workspaceId idempotencyKey : String} {plan : RemediationPlan} :
    db.findPlanByKey workspaceId idempotencyKey = some plan ↔
      plan ∈ db.plans ∧ plan.workspaceId = workspaceId ∧ plan.idempotencyKey = idempotencyKey := by
  refine (Collection.find?_index_iff (i := (workspaceId, idempotencyKey)) ?_).trans ?_
  · intro d
    simp [Document.uniqueIndex]
  · simp [Document.uniqueIndex]

/-- The execution under a key. -/
theorem findExecutionByKey_iff {workspaceId idempotencyKey : String}
    {execution : RemediationExecution} :
    db.findExecutionByKey workspaceId idempotencyKey = some execution ↔
      execution ∈ db.executions ∧ execution.workspaceId = workspaceId ∧
        execution.idempotencyKey = idempotencyKey := by
  refine (Collection.find?_index_iff (i := (workspaceId, idempotencyKey)) ?_).trans ?_
  · intro d
    simp [Document.uniqueIndex]
  · simp [Document.uniqueIndex]

/-- The approvals of a plan are the tokens stored for it. -/
theorem mem_findApprovals {workspaceId planId : String} {token : ApprovalToken} :
    token ∈ db.findApprovals workspaceId planId ↔
      token ∈ db.tokens ∧ token.workspaceId = workspaceId ∧ token.planId = planId := by
  simp [Database.findApprovals]

/-- The resources that are found are those with one of the identities in the workspace. -/
theorem mem_findResources {workspaceId : String} {ids : List String} {resource : CloudResource} :
    resource ∈ db.findResources workspaceId ids ↔
      resource ∈ db.resources ∧ resource.workspaceId = workspaceId ∧ resource.id ∈ ids := by
  simp [Database.findResources]

/-- The token a check lets through is one of those found, opened by the token presented, not
used and not expired.
SRCLINE: apps/api/src/services/remediation-service.ts:157-161 -/
theorem checkApproval_ok {hashToken : String → String} {approvals : List ApprovalToken}
    {approvalToken : String} {now : Time} {matched : ApprovalToken}
    (h : RemediationService.checkApproval hashToken approvals approvalToken now = .ok matched) :
    matched ∈ approvals ∧ matched.tokenHash = hashToken approvalToken ∧ matched.usedAt = none ∧
      now ≤ matched.expiresAt := by
  unfold RemediationService.checkApproval at h
  split at h
  · cases h
  · next token hfind =>
    split at h
    · cases h
    · next hused =>
      split at h
      · cases h
      · next hexp =>
        obtain rfl : token = matched := by simpa using h
        refine ⟨List.mem_of_find?_eq_some hfind, ?_, by simpa using hused, not_lt.mp hexp⟩
        have hmatch := List.find?_some hfind
        simp only [tokensMatch, beq_iff_eq] at hmatch
        exact hmatch.symm

/-! ## The logic of requests -/

/-- What a request has performed. -/
abbrev Past : Type := List (Event DbOp Database)

section Emits

variable {α : Type} {J : Past → DbOp → Prop} {Q : Past → Except AppError α → Prop} {past : Past}
  {op : DbOp}

/-- A call, and what follows for each reply. -/
theorem emits_call {f : op.Reply → DbProg α} (hJ : J past op)
    (hrest : ∀ before reply, (database.exec op before).1 = reply →
      (f reply).Emits database J Q (past ++ [⟨op, before⟩])) :
    ((Prog.call op .ret : DbProg op.Reply) >>= f).Emits database J Q past :=
  ⟨hJ, fun before => hrest before _ rfl⟩

/-- Code between two calls that may throw. -/
theorem emits_ofExcept {β : Type} {x : Except AppError β} {f : β → DbProg α}
    (hrest : ∀ b, x = .ok b → (f b).Emits database J Q past)
    (herror : ∀ e, x = .error e → Q past (.error e)) :
    (Prog.ofExcept x >>= f).Emits database J Q past := by
  cases x with
  | ok b => exact hrest b rfl
  | error e => exact herror e rfl

/-- A call that may be refused, and what follows when it is not. -/
theorem emits_attempt {β : Type} {k : op.Reply → Except AppError β} {rest : β → DbProg α}
    (hJ : J past op)
    (hrest : ∀ before b, k (database.exec op before).1 = .ok b →
      (rest b).Emits database J Q (past ++ [⟨op, before⟩]))
    (herror : ∀ before e, k (database.exec op before).1 = .error e →
      Q (past ++ [⟨op, before⟩]) (.error e)) :
    ((Prog.call op fun reply => Prog.ofExcept (k reply) : DbProg β) >>= rest).Emits
      database J Q past :=
  emits_call hJ fun before _ hreply => emits_ofExcept
    (fun b hok => hrest before b (hreply ▸ hok)) fun e he => herror before e (hreply ▸ he)

/-- A program nobody reads the result of; its errors are still its errors. -/
theorem emits_discard {p : DbProg α} (hp : p.Emits database J Q past) :
    (p >>= fun _ => return ()).Emits database J
      (fun past result => ∀ e, result = .error e → Q past (.error e)) past := by
  refine Prog.Emits.bind (hp.mono (fun _ _ h => h) fun past result hresult => ?_)
  cases result with
  | ok a => exact fun e he => nomatch he
  | error err =>
      rintro e he
      cases he
      exact hresult

end Emits

/-! ## Requests without interruption -/

section Run

variable {α : Type} {op : DbOp} {db : Database}

/-- A program that begins with a call runs on from its reply. -/
theorem run_call {f : op.Reply → DbProg α} :
    ((Prog.call op .ret : DbProg op.Reply) >>= f).run database db =
      (f (op.exec db).1).run database (op.exec db).2 := rfl

/-- A call that is not refused. -/
theorem run_attempt {β : Type} {k : op.Reply → Except AppError β} {rest : β → DbProg α} {b : β}
    (h : k (op.exec db).1 = .ok b) :
    ((Prog.call op fun reply => Prog.ofExcept (k reply) : DbProg β) >>= rest).run database db =
      (rest b).run database (op.exec db).2 := by
  show (Prog.ofExcept (k (op.exec db).1) >>= rest).run database (op.exec db).2 = _
  rw [h]
  rfl

end Run

end CloudOps.Analysis
