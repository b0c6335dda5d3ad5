import CloudOps.Analysis.HttpPolicy
import CloudOps.Analysis.JobStages
import CloudOps.Analysis.ResourceCopies
import CloudOps.Analysis.WorkspaceViews

/-!
# The services keep to the policy

Each service on behalf of the claims of a token: its queries name the workspace, what it
saves it has found there, what it creates is signed, and its audit event is borne out by what
it has written. What it returns is of the workspace.
-/

set_option autoImplicit false

namespace CloudOps.Analysis

open CloudOps.Computation CloudOps.Model CloudOps.Model.RemediationService
open CloudOps.Model.ResourceService

/-- The claims let the call through, what it refers to is stored, and an event it records is of
the action, carries the id of the request and is borne out by the past of the request and the
store. -/
structure Permits (claims : AuthClaims) (correlationId : String) (action : Option String)
    (past : Past) (db : Database) (op : DbOp) : Prop where
  allowed : Allowed claims db op
  refers : Refers db op
  audited : ∀ event, op = .recordAudit event → some event.action = action ∧
    event.correlationId = correlationId ∧ BorneOut past db event

/-- **The program keeps to the policy**, and what it returns meets `C`. -/
abbrev KeepsTo {α : Type} (claims : AuthClaims) (correlationId : String) (action : Option String)
    (C : α → Prop) (p : DbProg α) (past : Past) : Prop :=
  p.Permitted database Stays (Permits claims correlationId action)
    (fun result => ∀ a, result = .ok a → C a) past

/-- The documents of a reply of a service are of the workspace. -/
def ofWorkspace (W : String) : Response → Prop
  | .plan plan _ => plan.workspaceId = W
  | .approval plan _ _ _ => plan.workspaceId = W
  | .execution execution _ => execution.workspaceId = W
  | .synced _ items => ∀ resource ∈ items, resource.workspaceId = W

section Services

variable {claims : AuthClaims} {correlationId : String} {action : Option String} {past : Past}
  {α β : Type}
  {C : α → Prop} {op : DbOp} {db : Database}

/-- Whether a call records an event. -/
def isAudit : DbOp → Bool
  | .recordAudit _ => true
  | _ => false

/-- A query for the workspace is allowed in every store. -/
theorem permits_query (h : queryWorkspace? op = some claims.workspaceId) :
    Permits claims correlationId action past db op := by
  cases op <;> first | exact ⟨h, trivial, fun _ heq => nomatch heq⟩ | cases h

/-- A write that is no audit event, in a store that allows it. -/
theorem permits_write (hallowed : Allowed claims db op) (hrefers : Refers db op)
    (hop : isAudit op = false) : Permits claims correlationId action past db op := by
  refine ⟨hallowed, hrefers, fun event heq => ?_⟩
  rw [heq] at hop
  cases hop

/-- An audit event of the request. -/
theorem permits_audit {event : AuditEvent} (hrole : canOperate claims.role = true)
    (haction : some event.action = action) (hws : event.workspaceId = claims.workspaceId)
    (hactor : event.actorId = claims.sub) (hcorrelation : event.correlationId = correlationId)
    (hborne : BorneOut past db event) :
    Permits claims correlationId action past db (.recordAudit event) := by
  refine ⟨⟨hrole, hws, hactor⟩, trivial, fun event' heq => ?_⟩
  obtain rfl := DbOp.recordAudit.inj heq
  exact ⟨haction, hcorrelation, hborne⟩

/-- A request that throws has kept to its permissions. -/
theorem keepsTo_throw {e : AppError} :
    KeepsTo claims correlationId action C (Prog.throw e : DbProg α) past :=
  fun _ h => nomatch h

/-- A request that returns has kept to its permissions. -/
theorem keepsTo_ret {a : α} (h : C a) : KeepsTo claims correlationId action C (.ret a) past := by
  intro a' ha
  obtain rfl := Except.ok.inj ha
  exact h

/-- A request keeps to its permissions if its first call does, and what follows on any reply. -/
theorem keepsTo_call {f : op.Reply → DbProg α}
    (hop : ∀ db, Kept database Stays past db → Permits claims correlationId action past db op)
    (hrest : ∀ before reply, (database.exec op before).1 = reply →
      KeepsTo claims correlationId action C (f reply) (past ++ [⟨op, before⟩])) :
    KeepsTo claims correlationId action C ((Prog.call op .ret : DbProg op.Reply) >>= f) past :=
  emits_call hop hrest

/-- A query, and what follows for each reply. -/
theorem keepsTo_query {f : op.Reply → DbProg α}
    (hop : queryWorkspace? op = some claims.workspaceId)
    (hrest : ∀ before reply, (database.exec op before).1 = reply →
      KeepsTo claims correlationId action C (f reply) (past ++ [⟨op, before⟩])) :
    KeepsTo claims correlationId action C ((Prog.call op .ret : DbProg op.Reply) >>= f) past :=
  keepsTo_call (fun _ _ => permits_query hop) hrest

/-- A check of the input makes no call. -/
theorem keepsTo_ofExcept {x : Except AppError β} {f : β → DbProg α}
    (hrest : ∀ b, x = .ok b → KeepsTo claims correlationId action C (f b) past) :
    KeepsTo claims correlationId action C (Prog.ofExcept x >>= f) past :=
  emits_ofExcept hrest fun _ _ _ h => nomatch h

/-- A call that may be refused, and what follows when it is not. -/
theorem keepsTo_attempt {k : op.Reply → Except AppError β} {rest : β → DbProg α}
    (hop : ∀ db, Kept database Stays past db → Permits claims correlationId action past db op)
    (hrest : ∀ before b, k (database.exec op before).1 = .ok b →
      KeepsTo claims correlationId action C (rest b) (past ++ [⟨op, before⟩])) :
    KeepsTo claims correlationId action C
      ((Prog.call op fun reply => Prog.ofExcept (k reply) : DbProg β) >>= rest) past :=
  emits_attempt hop hrest fun _ _ _ _ h => nomatch h

/-- What follows a program that keeps to the policy. -/
theorem keepsTo_bind {D : β → Prop} {p : DbProg β} {f : β → DbProg α}
    (hp : KeepsTo claims correlationId action D p past)
    (hf : ∀ past b, D b → KeepsTo claims correlationId action C (f b) past) :
    KeepsTo claims correlationId action C (p >>= f) past := by
  refine Prog.Emits.bind (Prog.Emits.mono hp (fun _ _ h => h) fun past result hresult => ?_)
  cases result with
  | ok b => exact hf past b (hresult b rfl)
  | error e => exact fun _ h => nomatch h

end Services

/-! ## What has been found stays -/

/-- What is kept for a longer past is kept for a shorter one. -/
theorem kept_of_append {past newer : Past} {db : Database}
    (h : Kept database Stays (past ++ newer) db) : Kept database Stays past db :=
  fun ev hev => h ev (List.mem_append_left _ hev)

/-- What the last call has left behind stays. -/
theorem stays_of_kept {past : Past} {op : DbOp} {before db : Database}
    (h : Kept database Stays (past ++ [⟨op, before⟩]) db) : Stays (op.exec before).2 db :=
  h ⟨op, before⟩ (List.mem_append_right _ List.mem_cons_self)

/-- A plan of the workspace is stored, whatever happens. -/
def PlanKept (past : Past) (W planId : String) : Prop :=
  ∀ db, Kept database Stays past db → ∃ plan ∈ db.plans, plan.id = planId ∧ plan.workspaceId = W

/-- A token of the workspace for the plan is stored, whatever happens. -/
def TokenKept (past : Past) (W planId tokenId : String) : Prop :=
  ∀ db, Kept database Stays past db → ∃ token ∈ db.tokens, token.id = tokenId ∧
    token.planId = planId ∧ token.workspaceId = W

/-- A finding of the workspace for the resource is stored, whatever happens. -/
def FindingKept (past : Past) (W id resourceId : String) : Prop :=
  ∀ db, Kept database Stays past db → ∃ finding ∈ db.findings, finding.id = id ∧
    finding.workspaceId = W ∧ finding.resourceId = resourceId

/-- A resource of the workspace is stored, whatever happens. -/
def ResourceKept (past : Past) (W id arn : String) : Prop :=
  ∀ db, Kept database Stays past db →
    ∃ resource ∈ db.resources, resourceOrigin resource = (id, W, arn)

section Kept

variable {past newer : Past} {W id arn planId : String} {before : Database}

/-- A plan that has been found stays found. -/
theorem PlanKept.append (h : PlanKept past W id) : PlanKept (past ++ newer) W id :=
  fun db hkept => h db (kept_of_append hkept)

/-- A plan that has been found stays found in a longer past. -/
theorem PlanKept.extend {past' : Past} (hpre : past <+: past') (h : PlanKept past W id) :
    PlanKept past' W id :=
  fun db hkept => h db fun ev hev => hkept ev (hpre.subset hev)

/-- A token that has been found stays found in a longer past. -/
theorem TokenKept.extend {past' : Past} (hpre : past <+: past')
    (h : TokenKept past W planId id) : TokenKept past' W planId id :=
  fun db hkept => h db fun ev hev => hkept ev (hpre.subset hev)

/-- A token that has been found stays found. -/
theorem TokenKept.append (h : TokenKept past W planId id) :
    TokenKept (past ++ newer) W planId id :=
  fun db hkept => h db (kept_of_append hkept)

/-- A resource that has been found stays found. -/
theorem ResourceKept.append (h : ResourceKept past W id arn) :
    ResourceKept (past ++ newer) W id arn :=
  fun db hkept => h db (kept_of_append hkept)

/-- A plan that a lookup has returned is found. -/
theorem planKept_of_find {plan : RemediationPlan}
    (hev : ⟨.findPlan planId W, before⟩ ∈ past) (hplan : before.findPlan planId W = some plan) :
    PlanKept past W plan.id := by
  intro db hkept
  have hstays : Stays before db := hkept _ hev
  obtain ⟨hmem, -, hws⟩ := findPlan_mem hplan
  obtain ⟨plan', hmem', hsame⟩ := hstays.documents.plans plan hmem
  exact ⟨plan', hmem', by rw [hsame], by rw [hsame]; exact hws⟩

/-- A token that a lookup has returned is found. -/
theorem tokenKept_of_find {token : ApprovalToken}
    (hev : ⟨.findApprovals W planId, before⟩ ∈ past)
    (htoken : token ∈ before.findApprovals W planId) : TokenKept past W planId token.id := by
  intro db hkept
  have hstays : Stays before db := hkept _ hev
  obtain ⟨hmem, hws, hplan⟩ := mem_findApprovals.mp htoken
  obtain ⟨token', hmem', hsame, -⟩ := hstays.documents.tokens token hmem
  exact ⟨token', hmem', by rw [hsame], by rw [hsame]; exact hplan, by rw [hsame]; exact hws⟩

/-- A finding that a lookup has returned is found, with its resource. -/
theorem findingKept_of_find {ids : List String} {finding : Finding}
    (hev : ⟨.findFindings W ids, before⟩ ∈ past)
    (hfinding : finding ∈ before.findFindings W ids) :
    FindingKept past W finding.id finding.resourceId := by
  intro db hkept
  have hstays : Stays before db := hkept _ hev
  obtain ⟨hmem, hmatch⟩ := Collection.mem_filter.mp hfinding
  obtain ⟨finding', hmem', horigin⟩ := hstays.findings finding hmem
  simp only [findingOrigin, Prod.mk.injEq] at horigin
  obtain ⟨hid, hws, -, hresource⟩ := horigin
  have hown : finding.workspaceId = W := beq_iff_eq.mp (Bool.and_eq_true_iff.mp hmatch).1
  exact ⟨finding', hmem', hid, hws.trans hown, hresource⟩

/-- A resource that a lookup has returned is found, with its arn. -/
theorem resourceKept_of_find {ids : List String} {resource : CloudResource}
    (hev : ⟨.findResources W ids, before⟩ ∈ past)
    (hresource : resource ∈ before.findResources W ids) :
    ResourceKept past W resource.id resource.arn := by
  intro db hkept
  have hstays : Stays before db := hkept _ hev
  obtain ⟨hmem, hws, -⟩ := mem_findResources.mp hresource
  obtain ⟨resource', hmem', horigin⟩ := hstays.resources resource hmem
  exact ⟨resource', hmem', horigin.trans (Prod.ext rfl (Prod.ext hws rfl))⟩

end Kept

/-! ## The services -/

section Requests

variable {claims : AuthClaims} {correlationId : String} {action : Option String} {past : Past}

/-- Who may approve may operate. -/
theorem canOperate_of_canApprove {role : Role} (h : canApprove role = true) :
    canOperate role = true := by
  cases role <;> first | rfl | cases h

/-- A query by identities that has found as many documents as it names has found them all. -/
theorem findFindings_all {db : Database} {W id : String} {ids : List String}
    (hlen : (db.findFindings W ids).length = ids.length) (hid : id ∈ ids) :
    ∃ finding ∈ db.findFindings W ids, finding.id = id := by
  have hnodup : ((db.findFindings W ids).map (·.id)).Nodup :=
    db.findings.nodup_id.sublist (List.filter_sublist.map _)
  have hsub : (db.findFindings W ids).map (·.id) ⊆ ids := by
    intro found hfound
    obtain ⟨finding, hfinding, rfl⟩ := List.mem_map.mp hfound
    have hmatch := (Collection.mem_filter.mp hfinding).2
    exact List.contains_iff_mem.mp (Bool.and_eq_true_iff.mp hmatch).2
  have hperm : ((db.findFindings W ids).map (·.id)).Perm ids :=
    (List.subperm_of_subset hnodup hsub).perm_of_length_le (by rw [List.length_map, hlen])
  exact List.mem_map.mp (hperm.mem_iff.mpr hid)

/-- An action is planned for its finding, on the resource of the finding.
SRCLINE: apps/api/src/services/remediation-service.ts:62-76 -/
theorem planAction_refers {recs : List Recommendation} {finding : Finding}
    {action : RemediationAction} (h : planAction recs finding = .ok (some action)) :
    action.findingId = finding.id ∧ action.resourceId = finding.resourceId := by
  unfold planAction at h
  dsimp only at h
  split at h
  · cases h
  · obtain ⟨_, -, h⟩ := bind_ok h
    cases h
    exact ⟨rfl, rfl⟩

/-- `createPlan` keeps to the permissions of its request.
SRCLINE: apps/api/src/services/remediation-service.ts:37-100 -/
theorem createPlan_keepsTo (hrole : canOperate claims.role = true) {input : PlanInput} :
    KeepsTo claims correlationId (some "remediation.plan") (ofWorkspace claims.workspaceId)
      (createPlan claims.workspaceId claims.sub correlationId input) [] := by
  refine keepsTo_query rfl fun before₁ existing hexisting => ?_
  cases existing with
  | some plan => exact keepsTo_ret (findPlanByKey_iff.mp hexisting).2.1
  | none =>
    refine keepsTo_query rfl fun before₂ findings hfindings => ?_
    by_cases hlen : findings.length = input.findingIds.length
    · simp only [hlen, ne_eq, not_true_eq_false, if_false]
      refine keepsTo_query rfl fun before₃ recs _ => keepsTo_ofExcept fun actions hactions => ?_
      refine keepsTo_attempt (fun db hkept => ?_) fun before₄ _ hok => ?_
      · have hfound : before₂.findFindings claims.workspaceId input.findingIds = findings :=
          hfindings
        have hstored : ∀ finding ∈ findings, ∃ stored ∈ db.findings, stored.id = finding.id ∧
            stored.workspaceId = claims.workspaceId ∧
            stored.resourceId = finding.resourceId := fun finding hfinding =>
          findingKept_of_find (by simp) (hfound ▸ hfinding) db hkept
        have hplanned : ∀ action ∈ actions.reduceOption, ∃ finding ∈ findings,
            planAction recs finding = .ok (some action) := fun action haction =>
          mem_of_mapM_ok hactions (List.reduceOption_mem_iff.mp haction)
        refine permits_write ⟨hrole, rfl, rfl, fun action haction => ?_⟩
          ⟨fun id hid => ?_, fun action haction => ?_⟩ rfl
        · obtain ⟨_, -, hok⟩ := hplanned action haction
          exact PlanCall.planAction_allowlisted hok
        · obtain ⟨finding, hfinding, rfl⟩ := findFindings_all (hfound.symm ▸ hlen) hid
          obtain ⟨stored, hmem, hsame, hws, -⟩ := hstored finding (hfound ▸ hfinding)
          exact ⟨stored, hmem, hsame, hws⟩
        · obtain ⟨finding, hfinding, hok⟩ := hplanned action haction
          obtain ⟨hid, hresource⟩ := planAction_refers hok
          rw [hid, hresource]
          exact hstored finding hfinding
      · refine keepsTo_call (fun db hkept => ?_) fun _ _ _ => keepsTo_ret rfl
        refine permits_audit hrole rfl rfl rfl rfl (BorneOut.stays ?_ (stays_of_kept hkept))
        exact .planned _ _ (mem_createIn.mpr (Or.inr ⟨free_of_createIn hok, rfl⟩))
    · simp only [hlen, ne_eq, not_false_eq_true, if_true]
      exact keepsTo_throw

/-- `approve` keeps to the permissions of its request.
SRCLINE: apps/api/src/services/remediation-service.ts:102-133 -/
theorem approve_keepsTo {hashToken : String → String} {config : ApiConfig} {planId : String}
    {input : ApproveInput} (hrole : canApprove claims.role = true) :
    KeepsTo claims correlationId (some "remediation.approve") (ofWorkspace claims.workspaceId)
      (approve hashToken config claims.workspaceId planId claims.sub correlationId input) [] := by
  refine keepsTo_query rfl fun before₁ plan? hplan => ?_
  cases plan? with
  | none => exact keepsTo_throw
  | some plan =>
    obtain ⟨hmem, hid, hws⟩ := findPlan_mem hplan
    by_cases happ : approvable plan.status = true
    · simp only [happ, Bool.not_true, Bool.false_eq_true, if_false]
      have hkeptPlan : PlanKept [⟨.findPlan planId claims.workspaceId, before₁⟩]
          claims.workspaceId plan.id := planKept_of_find (by simp) hplan
      refine keepsTo_attempt (fun db hkept => ?_) fun before₂ _ hok => ?_
      · have hstored := hid ▸ hkeptPlan db hkept
        exact permits_write ⟨hrole, rfl, rfl, hstored⟩ hstored rfl
      · refine keepsTo_call (fun db hkept => ?_) fun before₃ _ _ => ?_
        · refine permits_write ⟨?_, hkeptPlan.append db hkept⟩ trivial rfl
          have hstatus : (if plan.status = .approved then none else some PlanStatus.approved) =
              none ∨ (if plan.status = .approved then none else some PlanStatus.approved) =
              some .approved := by
            split
            · exact Or.inl rfl
            · exact Or.inr rfl
          rw [if_pos hstatus]
          exact hrole
        · refine keepsTo_call (fun db hkept => ?_) fun _ _ _ => keepsTo_ret hws
          have hstays := stays_of_kept (kept_of_append hkept)
          refine permits_audit (canOperate_of_canApprove hrole) rfl rfl rfl rfl ?_
          obtain ⟨token, htoken, hsame, -⟩ := hstays.documents.tokens _
            (mem_createIn.mpr (Or.inr ⟨free_of_createIn hok, rfl⟩))
          obtain ⟨stored, hstored, hstoredId, hstoredWs⟩ := hkeptPlan.append.append db hkept
          have hborne : ∀ past, BorneOut past db _ := fun _ => .approved token stored correlationId
            input.auditedAt htoken hstored (by rw [hsame]; exact hstoredId.trans hid)
            (by rw [hsame]; exact hstoredWs)
          rw [hsame] at hborne
          exact hborne _
    · simp only [happ, Bool.not_false, if_true]
      exact keepsTo_throw

/-- The loop saves copies of resources that are stored in the workspace.
SRCLINE: apps/api/src/services/remediation-service.ts:176-220 -/
theorem actionLoop_keepsTo {config : ApiConfig} {dryRun : Bool} {actions : List RemediationAction}
    {loop : LoopState} (hrole : canExecute claims.role = true)
    (hcopies : ∀ id resource, loop.copies.get? id = some resource →
      ResourceKept past claims.workspaceId resource.id resource.arn) :
    (actionLoop config dryRun actions loop).Emits database
      (fun past op => ∀ db, Kept database Stays past db →
        Permits claims correlationId action past db op)
      (fun past' _ => past <+: past') past := by
  induction actions generalizing loop past with
  | nil => exact List.prefix_refl _
  | cons action actions ih =>
      unfold actionLoop
      cases hcopy : loop.copies.get? action.resourceId with
      | none => exact ih hcopies
      | some resource =>
        have hown := hcopies _ resource hcopy
        refine emits_ofExcept (fun applied _ => ?_) fun _ _ => List.prefix_refl _
        obtain ⟨state, result⟩ := applied
        by_cases hmutates : mutates config dryRun = true
        · simp only [hmutates, if_true]
          refine emits_call (fun db hkept => ?_) fun before _ _ => ?_
          · obtain ⟨stored, hstored, horigin⟩ := hown db hkept
            refine permits_write ⟨hrole, stored, hstored, ?_, ?_⟩ trivial rfl
            · exact congrArg (·.1) horigin
            · exact congrArg (·.2.1) horigin
          · refine (ih fun id copy hget => ?_).mono (fun _ _ h => h)
              fun _ _ h => (List.prefix_append _ _).trans h
            dsimp only at hget
            rw [Dict.get?_set] at hget
            split at hget
            · obtain rfl := Option.some.inj hget
              exact hown.append
            · exact (hcopies id copy hget).append
        · simp only [hmutates, Bool.false_eq_true, if_false]
          exact ih hcopies

/-- `execute`, once its checks are passed, keeps to the permissions of its request.
SRCLINE: apps/api/src/services/remediation-service.ts:167-251 -/
theorem executeChecked_keepsTo {config : ApiConfig} {planId : String} {input : ExecuteInput}
    {plan : RemediationPlan} {matched : ApprovalToken} (hrole : canExecute claims.role = true)
    (hplan : PlanKept past claims.workspaceId plan.id) (hplanId : plan.id = planId)
    (hstatus : plan.status = .approved)
    (htoken : TokenKept past claims.workspaceId planId matched.id) :
    KeepsTo claims correlationId (some "remediation.execute") (ofWorkspace claims.workspaceId)
      (executeChecked config claims.workspaceId planId claims.sub correlationId input plan matched)
      past := by
  have hsave : ∀ {past' : Past} {status : PlanStatus} {p : RemediationPlan} {db : Database},
      p.id = plan.id → p.status ≠ status → status ≠ .approved →
      PlanKept past' claims.workspaceId plan.id → Kept database Stays past' db →
      Permits claims correlationId (some "remediation.execute") past' db
        (.savePlan p.id (if p.status = status then none else some status)) := by
    intro past' status p db hid hnew hother hkeptPlan hkept
    rw [if_neg hnew]
    refine permits_write ⟨?_, hid ▸ hkeptPlan db hkept⟩ trivial rfl
    rw [if_neg (by simp [hother])]
    exact hrole
  refine keepsTo_query rfl fun before₁ resources hresources => ?_
  refine keepsTo_call (fun db hkept => ?_) fun before₂ _ _ => ?_
  · exact hsave rfl (by simp [hstatus]) (by simp) hplan.append hkept
  refine keepsTo_call (fun db hkept => ?_) fun before₃ _ _ => ?_
  · obtain ⟨token, hmem, hid, -, hws⟩ := htoken.append.append db hkept
    exact permits_write ⟨hrole, token, hmem, hid, hws⟩ trivial rfl
  refine Prog.Emits.bind (Prog.Emits.mono (actionLoop_keepsTo hrole fun id resource hget => ?_)
    (fun _ _ h => h) ?_)
  · obtain ⟨hmem, -⟩ := mem_of_get?_byId hget
    rw [← hresources] at hmem
    have hread : ResourceKept (past ++ [⟨.findResources claims.workspaceId
        (plan.actions.map (·.resourceId)).eraseDups, before₁⟩]) claims.workspaceId resource.id
        resource.arn :=
      resourceKept_of_find (List.mem_append_right _ List.mem_cons_self) hmem
    exact hread.append.append
  · intro past' result hpre
    cases result with
    | error e => exact fun _ h => nomatch h
    | ok loop =>
      have hplan' : PlanKept past' claims.workspaceId plan.id :=
        PlanKept.extend hpre hplan.append.append.append
      have htoken' : TokenKept past' claims.workspaceId planId matched.id :=
        TokenKept.extend hpre htoken.append.append.append
      refine keepsTo_attempt (fun db hkept => ?_) fun before₄ _ hok => ?_
      · have hstored := hplanId ▸ hplan' db hkept
        exact permits_write ⟨hrole, rfl, rfl, hstored⟩ ⟨hstored, htoken' db hkept⟩
          rfl
      · have hfinal : finalStatus (executionOf claims.workspaceId planId claims.sub correlationId
            input plan matched loop).status ≠ .approved ∧
            PlanStatus.executing ≠ finalStatus (executionOf claims.workspaceId planId claims.sub
              correlationId input plan matched loop).status := by
          unfold finalStatus
          split <;> simp
        refine keepsTo_call (fun db hkept => ?_) fun before₅ _ _ => ?_
        · exact hsave rfl hfinal.2 hfinal.1 hplan'.append hkept
        · refine keepsTo_call (fun db hkept => ?_) fun _ _ _ => keepsTo_ret rfl
          refine permits_audit hrole rfl rfl rfl rfl
            (BorneOut.stays ?_ (stays_of_kept (kept_of_append hkept)))
          exact .executed _ _ (mem_createIn.mpr (Or.inr ⟨free_of_createIn hok, rfl⟩))

/-- `execute` keeps to the permissions of its request.
SRCLINE: apps/api/src/services/remediation-service.ts:135-252 -/
theorem execute_keepsTo {hashToken : String → String} {config : ApiConfig} {planId : String}
    {input : ExecuteInput} (hrole : canExecute claims.role = true) :
    KeepsTo claims correlationId (some "remediation.execute") (ofWorkspace claims.workspaceId)
      (execute hashToken config claims.workspaceId planId claims.sub correlationId input) [] := by
  refine keepsTo_query rfl fun before₁ existing hexisting => ?_
  cases existing with
  | some execution => exact keepsTo_ret (findExecutionByKey_iff.mp hexisting).2.1
  | none =>
    refine keepsTo_query rfl fun before₂ plan? hplan => ?_
    cases plan? with
    | none => exact keepsTo_throw
    | some plan =>
      by_cases hstatus : plan.status = .approved
      · simp only [hstatus, ne_eq, not_true_eq_false, if_false]
        refine keepsTo_query rfl fun before₃ approvals happrovals => ?_
        refine keepsTo_ofExcept fun matched hmatched => ?_
        have hmem := (checkApproval_ok hmatched).1
        rw [← happrovals] at hmem
        have hchecked : KeepsTo claims correlationId (some "remediation.execute")
            (ofWorkspace claims.workspaceId)
            (executeChecked config claims.workspaceId planId claims.sub correlationId input plan
              matched) [⟨.findExecutionByKey claims.workspaceId input.idempotencyKey, before₁⟩,
              ⟨.findPlan planId claims.workspaceId, before₂⟩,
              ⟨.findApprovals claims.workspaceId planId, before₃⟩] := by
          refine executeChecked_keepsTo hrole (planKept_of_find (by simp) hplan)
            (findPlan_mem hplan).2.1 hstatus ?_
          exact tokenKept_of_find (by simp) hmem
        cases hdryRun : plan.dryRun with
        | true => exact hchecked
        | false => exact keepsTo_ofExcept fun _ _ => hchecked
      · simp only [hstatus, ne_eq, not_false_eq_true, if_true]
        exact keepsTo_throw

/-- What an upsert of `sync` returns is stored in the workspace, under the ARN of its item. -/
theorem upsertIn_ok {resources : Collection CloudResource} {W : String} {item : ListedResource}
    {lastSyncedAt : Time} {newId : String} {doc : CloudResource}
    (h : (upsertIn resources W item lastSyncedAt newId).1 = .ok doc) :
    doc ∈ (upsertIn resources W item lastSyncedAt newId).2 ∧ doc.workspaceId = W ∧
      doc.arn = item.arn := by
  rw [upsertIn_eq] at h ⊢
  obtain ⟨hmem, ⟨resource, -, hmatch, rfl⟩ | rfl⟩ := Collection.upsert_some (upsertReply_ok h)
  · obtain ⟨hws, harn⟩ := Bool.and_eq_true_iff.mp hmatch
    exact ⟨hmem, beq_iff_eq.mp hws, beq_iff_eq.mp harn⟩
  · exact ⟨hmem, rfl, rfl⟩

/-- An upsert adds its resource to those of the past. -/
theorem upsertedArns_append (past : Past) (op : DbOp) (before : Database) :
    upsertedArns (past ++ [⟨op, before⟩]) = upsertedArns past ++ (upsertedArn? op).toList := by
  rw [upsertedArns, List.filterMap_append, upsertedArns]
  cases h : upsertedArn? op <;> simp [h]

/-- The loop of `sync` returns one resource for each of its upserts, and leaves it in the workspace.
SRCLINE: apps/api/src/services/resource-service.ts:31-40 -/
theorem syncLoop_keepsTo {items : List SyncItem} {upserted : List CloudResource}
    (hrole : canOperate claims.role = true) (harns : upsertedArns past = upserted.map (·.arn))
    (hupserted : ∀ doc ∈ upserted, doc.workspaceId = claims.workspaceId ∧
      ResourceKept past claims.workspaceId doc.id doc.arn) :
    (syncLoop claims.workspaceId items upserted).Emits database
      (fun past op => ∀ db, Kept database Stays past db →
        Permits claims correlationId action past db op)
      (fun past' result => ∀ docs, result = .ok docs → upsertedArns past' = docs.map (·.arn) ∧
        ∀ doc ∈ docs, doc.workspaceId = claims.workspaceId ∧
          ResourceKept past' claims.workspaceId doc.id doc.arn)
      past := by
  induction items generalizing upserted past with
  | nil =>
      intro docs hdocs
      obtain rfl := Except.ok.inj hdocs
      exact ⟨harns, hupserted⟩
  | cons i items ih =>
      refine emits_attempt (fun db _ => permits_write ⟨hrole, rfl⟩ trivial rfl)
        (fun before doc hok => ih ?_ fun doc' hdoc' => ?_) fun _ _ _ _ h => nomatch h
      · obtain ⟨-, -, harn⟩ := upsertIn_ok hok
        rw [upsertedArns_append, harns, List.map_append, List.map_singleton, harn]
        rfl
      · rcases List.mem_append.mp hdoc' with hold | hnew
        · exact ⟨(hupserted doc' hold).1, (hupserted doc' hold).2.append⟩
        · obtain rfl := List.mem_singleton.mp hnew
          obtain ⟨hmem, hws, -⟩ := upsertIn_ok hok
          refine ⟨hws, fun db hkept => ?_⟩
          obtain ⟨stored, hstored, horigin⟩ := (stays_of_kept hkept).resources doc' hmem
          exact ⟨stored, hstored, horigin.trans (Prod.ext rfl (Prod.ext hws rfl))⟩

/-- `sync` keeps to the permissions of its request.
SRCLINE: apps/api/src/services/resource-service.ts:25-52 -/
theorem sync_keepsTo {config : ApiConfig} {input : SyncInput}
    (hrole : canOperate claims.role = true) :
    KeepsTo claims correlationId (some "resources.sync") (ofWorkspace claims.workspaceId)
      (sync config claims.workspaceId claims.sub correlationId input) [] := by
  refine keepsTo_ofExcept fun items _ => ?_
  refine Prog.Emits.bind (Prog.Emits.mono (syncLoop_keepsTo hrole rfl (by simp))
    (fun _ _ h => h) ?_)
  intro past result hdocs
  cases result with
  | error e => exact fun _ h => nomatch h
  | ok docs =>
    obtain ⟨harns, hstored⟩ := hdocs docs rfl
    refine keepsTo_call (fun db hkept => permits_audit hrole rfl rfl rfl rfl ?_) fun _ _ _ =>
      keepsTo_ret fun doc hdoc => (hstored doc hdoc).1
    have hkeptArns : ∀ arn ∈ upsertedArns past, ∃ resource ∈ db.resources,
        resource.workspaceId = claims.workspaceId ∧ resource.arn = arn := by
      intro arn harn
      rw [harns] at harn
      obtain ⟨doc, hdoc, rfl⟩ := List.mem_map.mp harn
      obtain ⟨stored, hmem, horigin⟩ := (hstored doc hdoc).2 db hkept
      exact ⟨stored, hmem, congrArg (·.2.1) horigin, congrArg (·.2.2) horigin⟩
    have hborne : BorneOut past db _ := .synced claims.workspaceId claims.sub correlationId
      config.CLOUD_PROVIDER input.auditedAt hkeptArns
    rw [harns, List.length_map] at hborne
    exact hborne

/-- A job found by its key is of the workspace. -/
theorem findJobByKey_workspace {db : Database} {W idempotencyKey : String} {job : DiagnosticJob}
    (h : db.findJobByKey W idempotencyKey = some job) : job.workspaceId = W :=
  beq_iff_eq.mp (Bool.and_eq_true_iff.mp (Collection.mem_of_find? h).2).1

/-- `create` keeps to the permissions of its request.
SRCLINE: apps/api/src/services/job-service.ts:15-63 -/
theorem create_keepsTo (c : CreateCall) (hrole : canOperate claims.role = true)
    (hws : c.workspaceId = claims.workspaceId) (hactor : c.actorId = claims.sub)
    (hcorrelation : c.correlationId = correlationId) :
    KeepsTo claims correlationId (some "diagnostics.create")
      (fun reply => reply.job.workspaceId = claims.workspaceId) c.program [] := by
  refine Prog.Emits.mono c.program_emits (fun past op hstage db hkept => ?_)
    fun past result hending a ha => ?_
  · cases hstage with
    | lookUp | replay => exact permits_query (congrArg some hws)
    | insert => exact permits_write ⟨hrole, hws, hactor⟩ trivial rfl
    | audit found inserted hfree =>
        have hafter : Stays ((DbOp.createJob c.job).exec inserted).2 db :=
          hkept ⟨.createJob c.job, inserted⟩ (by simp)
        refine permits_audit hrole rfl hws hactor hcorrelation (BorneOut.stays ?_ hafter)
        exact .created _ _ (mem_createIn.mpr (Or.inr ⟨hfree, rfl⟩))
  · cases hending with
    | found _ job hjob | replayed _ _ _ job _ hjob =>
        obtain rfl := Except.ok.inj ha
        exact (findJobByKey_workspace hjob).trans hws
    | created =>
        obtain rfl := Except.ok.inj ha
        exact hws
    | lost => cases ha

/-- `retry` keeps to the permissions of its request.
SRCLINE: apps/api/src/services/job-service.ts:81-104 -/
theorem retry_keepsTo {id : String} {now auditedAt : Time} (hrole : canOperate claims.role = true) :
    KeepsTo claims correlationId (some "jobs.retry")
      (fun job => job.workspaceId = claims.workspaceId)
      (JobService.retry claims.workspaceId id claims.sub correlationId now auditedAt) [] := by
  refine keepsTo_query rfl fun before₁ job? hfind => ?_
  cases job? with
  | none => exact keepsTo_throw
  | some job =>
    obtain ⟨hmem, hmatch⟩ := Collection.mem_of_find? hfind
    simp only [Bool.and_eq_true, beq_iff_eq] at hmatch
    obtain ⟨hid, hws⟩ := hmatch
    by_cases hstatus : retryable job.status = true
    · simp only [hstatus, Bool.not_true, Bool.false_eq_true, if_false]
      have hstored : ∀ db, Kept database Stays [⟨.findJob id claims.workspaceId, before₁⟩] db →
          ∃ stored ∈ db.jobs, jobOrigin stored = jobOrigin job := fun db hkept => by
        have hstays : Stays before₁ db := hkept _ List.mem_cons_self
        exact hstays.jobs job hmem
      refine keepsTo_call (fun db hkept => ?_) fun before₂ _ _ => ?_
      · obtain ⟨stored, hstored, horigin⟩ := hstored db hkept
        refine permits_write ⟨hrole, stored, hstored, ?_, ?_⟩ trivial rfl
        · exact congrArg (·.1) horigin
        · exact (congrArg (·.2.1) horigin).trans hws
      · refine keepsTo_call (fun db hkept => permits_audit hrole rfl rfl rfl rfl ?_) fun _ _ _ =>
          keepsTo_ret hws
        obtain ⟨stored, hstored, horigin⟩ := hstored db (kept_of_append hkept)
        have hborne : ∀ past, BorneOut past db _ := fun _ =>
          .retried stored claims.sub correlationId auditedAt hstored
        have hstoredId : stored.id = id := (congrArg (·.1) horigin).trans hid
        have hstoredWs : stored.workspaceId = claims.workspaceId :=
          (congrArg (·.2.1) horigin).trans hws
        rw [hstoredId, hstoredWs] at hborne
        exact hborne _
    · simp only [hstatus, Bool.not_false, if_true]
      exact keepsTo_throw

end Requests

end CloudOps.Analysis
