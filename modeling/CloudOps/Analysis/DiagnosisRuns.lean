import CloudOps.Analysis.AnalysisStored
import CloudOps.Analysis.HttpRuns
import CloudOps.Analysis.InventoryImproves
import CloudOps.Computation.Projection

/-!
# One diagnosis after another

After an inventory has been diagnosed, plans are made, approved and executed, by requests that
overlap and may fail anywhere, beside everything else that goes on. As long as nothing is synced,
a later diagnosis reports nothing that the first has not (`diagnosis_never_worsens`): a copy that
was loaded earlier may put back what another execution has remedied, but nothing that is new.
-/

set_option autoImplicit false

namespace CloudOps.Analysis

open CloudOps.Computation CloudOps.Model CloudOps.Model.RemediationService CloudOps.Interface

/-! ## What is reported of an inventory -/

/-- The engine reports the rule for the resource. -/
def Diagnoses (response : AnalyzeResponse) (resourceId ruleId : String) : Prop :=
  ∃ finding ∈ response.findings, finding.resourceId = resourceId ∧ finding.ruleId = ruleId

section Engine

variable {numerals : PyNumerals} {resources : List CloudResource} {findings : List FindingOut}
  {workspaceId correlationId resourceId ruleId : String} {response : AnalyzeResponse}

/-- What the engine reports of a list of resources. -/
theorem evaluateAll_iff (h : evaluateAll numerals
      (resources.map fun r => payload r.id r.type r.region r.name r.state) = .ok findings) :
    (∃ finding ∈ findings, finding.resourceId = resourceId ∧ finding.ruleId = ruleId) ↔
      ∃ r ∈ resources, r.id = resourceId ∧
        ∃ p : Policy, p.ruleId = ruleId ∧ p.Violated r.type r.name r.state := by
  induction resources generalizing findings with
  | nil =>
      cases h
      simp
  | cons r resources ih =>
      obtain ⟨found, hfound, h⟩ := bind_ok h
      obtain ⟨rest, hrest, h⟩ := bind_ok h
      cases h
      obtain ⟨found', hfound', hids⟩ :=
        evaluate_payload numerals r.id r.type r.region r.name r.state
      obtain rfl := Except.ok.inj (hfound.symm.trans hfound')
      have hresource : ∀ finding ∈ found, finding.resourceId = r.id := by
        intro finding hmem
        obtain ⟨p, hreports⟩ := (evaluate_reports hfound).2 finding hmem
        exact hreports.resourceId
      have hhead : (∃ finding ∈ found, finding.resourceId = resourceId ∧
          finding.ruleId = ruleId) ↔ r.id = resourceId ∧
            ∃ p : Policy, p.ruleId = ruleId ∧ p.Violated r.type r.name r.state := by
        rw [← hids ruleId, List.mem_map]
        constructor
        · rintro ⟨finding, hmem, hid, hrule⟩
          exact ⟨(hresource finding hmem).symm.trans hid, finding, hmem, hrule⟩
        · rintro ⟨hid, finding, hmem, hrule⟩
          exact ⟨finding, hmem, (hresource finding hmem).trans hid, hrule⟩
      simp only [List.mem_append, or_and_right, exists_or, List.mem_cons, exists_eq_left]
      rw [hhead, ih hrest]

/-- **What the engine reports of an inventory** are the policies its resources violate.
SRCLINE: services/diagnostics/app/main.py:42-53, services/diagnostics/app/engine.py:218-237 -/
theorem diagnoses_iff (h : analyze numerals (analyzeRequest workspaceId correlationId resources) =
      .ok response) : Diagnoses response resourceId ruleId ↔ ∃ r ∈ resources, r.id = resourceId ∧
        ∃ p : Policy, p.ruleId = ruleId ∧ p.Violated r.type r.name r.state := by
  obtain ⟨findings, hfindings, h⟩ := bind_ok h
  cases h
  exact evaluateAll_iff hfindings

/-- A resource that another one improves is diagnosed with nothing else. -/
theorem Mended.findInventory {db db' : Database} (h : Mended db db')
    {ids : Option (List String)} {types : Option (List ResourceType)} {r : CloudResource}
    (hr : r ∈ db'.findInventory workspaceId ids types) :
    ∃ r₀ ∈ db.findInventory workspaceId ids types, ImprovedFrom r₀ r := by
  obtain ⟨hmem, hfilter⟩ := Collection.mem_filter.mp hr
  obtain ⟨r₀, hr₀, himproved⟩ := h r hmem
  refine ⟨r₀, Collection.mem_filter.mpr ⟨hr₀, ?_⟩, himproved⟩
  rw [himproved.workspaceId, himproved.id, himproved.type]
  exact hfilter

end Engine

/-! ## The calls of the clients -/

section Routes

variable {packages : HttpPackages} {config : HttpConfig} {claims : AuthClaims}
  {correlationId : String} {α β : Type} {past : Past}

/-- What a service or a handler does to the inventory. -/
abbrev CallsOn (packages : HttpPackages) (config : HttpConfig) (p : DbProg α) (past : Past) :
    Prop :=
  p.Emits database (InventoryCall packages.hashToken config.api) (fun _ _ => True) past

/-- A check of the request makes no call. -/
theorem callsOn_ofExcept {x : Except AppError β} {f : β → DbProg α}
    (hrest : ∀ b, x = .ok b → CallsOn packages config (f b) past) :
    CallsOn packages config (Prog.ofExcept x >>= f) past :=
  emits_ofExcept hrest fun _ _ => trivial

/-- A service that leaves the inventory alone. -/
theorem callsOn_leaves {p : DbProg α} {Q : Past → Except AppError α → Prop}
    {J : Past → DbOp → Prop} (hp : p.Emits database J Q past)
    (hleaves : ∀ past op, J past op → leavesInventory op = true) : CallsOn packages config p past :=
  hp.mono (fun past op h => Or.inl (hleaves past op h)) fun _ _ _ => trivial

/-- The services that make plans and write the inventory. -/
theorem callsOn_incoming (incoming : Incoming) :
    CallsOn packages config (incoming.program packages.hashToken config.api) [] :=
  (program_emits packages.hashToken config.api incoming).mono
    (fun _ _ h => Or.inr ⟨incoming, h⟩) fun _ _ _ => trivial

/-- A list reads. -/
theorem callsOn_listing {δ : Type} {count list : DbOp} {page : Page} {total : count.Reply → ℕ}
    {docs : list.Reply → List δ} (hcount : leavesInventory count = true)
    (hlist : leavesInventory list = true) :
    CallsOn packages config (do
      let n ← (Prog.call count .ret : DbProg count.Reply)
      let found ← (Prog.call list .ret : DbProg list.Reply)
      return (⟨docs found, page.page, page.limit, total n⟩ : Listing δ)) past :=
  callsOn_leaves (emits_listing hcount hlist) fun _ _ h => h

/-- **Every route makes plans and writes the inventory through its service, or leaves them alone.**
SRCLINE: apps/api/src/routes/api.ts:30-241 -/
theorem ApiRoute.program_callsOn (route : ApiRoute) :
    CallsOn packages config (route.program packages config claims correlationId) [] := by
  cases route with
  | syncResources body | createPlan body => exact emits_send (callsOn_incoming _)
  | approvePlan id body | executePlan id body => exact emits_send (callsOn_incoming _)
  | createDiagnostics body draws =>
      refine callsOn_ofExcept fun claims' _ => callsOn_ofExcept fun _ _ => emits_send ?_
      refine callsOn_leaves (CreateCall.program_emits ⟨config.jobs, claims'.workspaceId,
        claims'.sub, correlationId, body, draws⟩) fun past op h => ?_
      cases h <;> rfl
  | retryJob id now auditedAt =>
      refine callsOn_ofExcept fun claims' _ => callsOn_ofExcept fun id' _ => emits_send ?_
      refine callsOn_leaves retry_emits fun past op h => ?_
      cases h <;> rfl
  | getResource id | getJob id =>
      refine callsOn_ofExcept fun id' _ => emits_call (Or.inl rfl) fun before item _ => ?_
      cases item <;> trivial
  | listResources query | listJobs query | listFindings query | listRecommendations query =>
      exact callsOn_ofExcept fun parsed _ => emits_send (callsOn_listing rfl rfl)
  | listAuditEvents query =>
      exact callsOn_ofExcept fun claims' _ => callsOn_ofExcept fun parsed _ =>
        emits_send (callsOn_listing rfl rfl)

end Routes

section Runs

variable {app : AppConfig} {db : Database} {clients : ℕ → AppClient}
  {G : AppPool → PoolEvent → Prop} {s : AppPool}

/-- **Everything that runs makes plans and writes the inventory through the services.**
SRCLINE: apps/api/src/routes/api.ts:30-241, apps/worker/src/processor.ts:24-154 -/
theorem inventoryCalls : InventoryCalls app.packages.hashToken app.http.api db
    (fun q => (clients q).program app) G := by
  intro t e q op ht _ hp
  rcases permitted_of_performs ht hp with ⟨call, claims, hq, -, -⟩ | hworker
  · obtain ⟨k, hnext⟩ := hp.next
    have hcalls : CallsOn app.packages app.http ((clients q).program app) [] := by
      rw [hq]
      exact emits_send (callsOn_ofExcept fun _ _ => ApiRoute.program_callsOn call.route)
    have hconforms := Pool.conforms_of_emits hcalls ht
    rw [hnext] at hconforms
    exact hconforms.next
  · have hcall := hworker.1
    refine Or.inl ?_
    cases op <;> first | rfl | cases hcall

/-- Nothing is synced. -/
def NoSync (s : AppPool) (e : PoolEvent) : Prop :=
  ∀ q op, s.Performs e q op → ∀ ws item lastSyncedAt newId,
    op ≠ .upsertResource ws item lastSyncedAt newId

/-- **The second diagnosis reports nothing that the first has not**, for any part of the inventory:
whatever plans are made and executed in between, however the executions overlap, and wherever
they fail, as long as nothing is synced.
SRCLINE: apps/api/src/services/remediation-service.ts:37-252,
packages/shared/src/remediation/engine.ts:11-99, services/diagnostics/app/engine.py:18-237 -/
theorem diagnosis_never_worsens (hplans : Planned db.plans)
    (hs : (Pool.machine database faults).Reaches NoSync (appStart app db clients) s)
    (numerals : PyNumerals) (workspaceId correlationId : String) (ids : Option (List String))
    (types : Option (List ResourceType)) :
    ∃ first second,
      analyze numerals (analyzeRequest workspaceId correlationId
        (db.findInventory workspaceId ids types)) = .ok first ∧
      analyze numerals (analyzeRequest workspaceId correlationId
        (s.store.findInventory workspaceId ids types)) = .ok second ∧
      ∀ resourceId ruleId, Diagnoses second resourceId ruleId →
        Diagnoses first resourceId ruleId := by
  obtain ⟨first, hfirst⟩ := analyze_inventory numerals workspaceId correlationId
    (db.findInventory workspaceId ids types)
  obtain ⟨second, hsecond⟩ := analyze_inventory numerals workspaceId correlationId
    (s.store.findInventory workspaceId ids types)
  have hmended : Mended db s.store :=
    mended_of_reaches inventoryCalls hplans (fun t e q op hG hp => hG q op hp) hs
  refine ⟨first, second, hfirst, hsecond, fun resourceId ruleId hreports => ?_⟩
  obtain ⟨r, hr, hid, p, hrule, hviolated⟩ := (diagnoses_iff hsecond).mp hreports
  obtain ⟨r₀, hr₀, himproved⟩ := hmended.findInventory hr
  refine (diagnoses_iff hfirst).mpr ⟨r₀, hr₀, himproved.id.trans hid, p, hrule, ?_⟩
  rw [himproved.type, himproved.name]
  exact himproved.state.improves p hviolated

end Runs

/-! ## A bucket that is diagnosed twice -/

/-- Whether a call syncs nothing. -/
def noSync (_ : AppPool) (_ : ℕ) : DbOp → Bool
  | .upsertResource _ _ _ _ => false
  | _ => true

/-- The check of the calls decides that nothing is synced. -/
theorem noSync_of_check (s : AppPool) (e : PoolEvent) (h : Pool.passes noSync s e = true) :
    NoSync s e := by
  rintro q op hp ws item lastSyncedAt newId rfl
  cases hp.passed h

/-- The clients of the bucket when they have ended, none of which syncs. -/
def remediedPool : AppPool :=
  ((Pool.machine database faults).runChecked (Pool.passes noSync)
    (appStart smallApp bucketInventory remediationClients) remediationCalls).get
    (by decide +kernel)

/-- The rules of a response, read off what the engine answers. -/
theorem ruleIds_of_eval {numerals : PyNumerals} {request : AnalyzeRequest}
    {response : AnalyzeResponse} {ruleIds : List String}
    (h : analyze numerals request = .ok response)
    (heval : (analyze numerals request).toOption.map (fun r => r.findings.map (·.ruleId)) =
      some ruleIds) : response.findings.map (·.ruleId) = ruleIds := by
  rw [h] at heval
  exact Option.some.inj heval

/-- The bucket is not reported public again. -/
theorem diagnosis_never_worsens_remediation : ∃ first second,
    analyze ⟨fun _ => none, fun _ => none⟩ (analyzeRequest "ws" "c-6"
      (bucketInventory.findInventory "ws" none none)) = .ok first ∧
    analyze ⟨fun _ => none, fun _ => none⟩ (analyzeRequest "ws" "c-6"
      (remediedPool.store.findInventory "ws" none none)) = .ok second ∧
    (∀ resourceId ruleId, Diagnoses second resourceId ruleId →
      Diagnoses first resourceId ruleId) ∧
    first.findings.map (·.ruleId) = ["resource.missing_tags", "s3.public_access"] ∧
    second.findings.map (·.ruleId) = ["resource.missing_tags"] := by
  have hs : (Pool.machine database faults).Reaches NoSync
      (appStart smallApp bucketInventory remediationClients) remediedPool :=
    Machine.reaches_of_runChecked noSync_of_check remediationCalls (Option.some_get _).symm
  have hplans : Planned bucketInventory.plans := fun plan h => absurd h List.not_mem_nil
  obtain ⟨first, second, hfirst, hsecond, hnone⟩ := diagnosis_never_worsens hplans hs
    ⟨fun _ => none, fun _ => none⟩ "ws" "c-6" none none
  exact ⟨first, second, hfirst, hsecond, hnone, ruleIds_of_eval hfirst (by decide +kernel),
    ruleIds_of_eval hsecond (by decide +kernel)⟩

end CloudOps.Analysis
