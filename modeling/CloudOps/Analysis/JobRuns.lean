import CloudOps.Model.JobProcessor
import CloudOps.Analysis.ServiceRuns

/-!
# What a run of the processor writes

`run` upserts a finding, then a recommendation keyed by the identity that upsert returned,
for each finding of its analysis. `run_emits` says so in terms of its own past, whatever
other runs do to the store; the lemmas before it say what the two upserts do to a store.
-/

set_option autoImplicit false

namespace CloudOps.Analysis

open CloudOps.Computation CloudOps.Model CloudOps.Model.JobProcessor

/-! ## The two upserts -/

/-- The stored finding says what the analysis says. -/
structure Carries (finding : EngineFinding) (stored : Finding) : Prop where
  resourceId : stored.resourceId = finding.resourceId
  ruleId : stored.ruleId = finding.ruleId
  severity : stored.severity = finding.severity
  title : stored.title = finding.title
  description : stored.description = finding.description
  evidence : stored.evidence = finding.evidence

/-- The stored recommendation says what the analysis recommends. -/
structure Advises (finding : EngineFinding) (stored : Recommendation) : Prop where
  actionType : stored.actionType = finding.recommendation.actionType
  explanation : stored.explanation = finding.recommendation.explanation
  estimatedImpact : stored.estimatedImpact = finding.recommendation.estimatedImpact
  confidence : stored.confidence = finding.recommendation.confidence

/-- The key of a finding: workspace, job, resource and rule. -/
abbrev FindingKey : Type := String × String × String × String

/-- The key a finding of a job is stored under. -/
def keyFor (workspaceId jobId : String) (finding : EngineFinding) : FindingKey :=
  (workspaceId, jobId, finding.resourceId, finding.ruleId)

/-- The key of a stored finding. -/
def keyOf (stored : Finding) : FindingKey :=
  (stored.workspaceId, stored.jobId, stored.resourceId, stored.ruleId)

section Upserts

variable {db : Database} {op : DbOp} {workspaceId jobId correlationId findingId newId : String}
  {finding : EngineFinding} {now : Time}

/-- Two stored findings with one key are one. -/
theorem eq_of_key {findings : Collection Finding} {stored stored' : Finding}
    (h : stored ∈ findings) (h' : stored' ∈ findings) (hkey : keyOf stored = keyOf stored') :
    stored = stored' :=
  Collection.eq_of_index h h' hkey

/-- **Findings stay** under their identity and their key. -/
theorem findings_stay (op : DbOp) {stored : Finding} (h : stored ∈ db.findings) :
    ∃ stored' ∈ (op.exec db).2.findings, stored'.id = stored.id ∧ keyOf stored' = keyOf stored := by
  cases op with
  | upsertFinding ws job correlation finding now newId =>
      have hkept : ∃ stored' ∈ ((DbOp.upsertFinding ws job correlation finding now newId).exec
          db).2.findings, stored' = stored ∨ stored' = finding.setFinding correlation stored :=
        Collection.upsert_keeps h
      obtain ⟨stored', hmem, rfl | rfl⟩ := hkept
      · exact ⟨_, hmem, rfl, rfl⟩
      · exact ⟨_, hmem, rfl, rfl⟩
  | _ => exact ⟨stored, h, rfl, rfl⟩

/-- **Recommendations stay** under their identity and the finding they belong to. -/
theorem recommendations_stay (op : DbOp) {stored : Recommendation}
    (h : stored ∈ db.recommendations) :
    ∃ stored' ∈ (op.exec db).2.recommendations, stored'.id = stored.id ∧
      stored'.workspaceId = stored.workspaceId ∧ stored'.findingId = stored.findingId := by
  cases op with
  | upsertRecommendation ws job correlation findingId finding now newId =>
      have hkept : ∃ stored' ∈ ((DbOp.upsertRecommendation ws job correlation findingId finding now
          newId).exec db).2.recommendations, stored' = stored ∨
            stored' = finding.setRecommendation job correlation stored :=
        Collection.upsert_keeps h
      obtain ⟨stored', hmem, rfl | rfl⟩ := hkept
      · exact ⟨_, hmem, rfl, rfl, rfl⟩
      · exact ⟨_, hmem, rfl, rfl, rfl⟩
  | _ => exact ⟨stored, h, rfl, rfl, rfl⟩

/-- A finding after a call was there before, or has just been upserted. -/
theorem mem_findings_exec {stored : Finding} (h : stored ∈ (op.exec db).2.findings) :
    stored ∈ db.findings ∨ ∃ ws job correlation finding now newId,
      op = .upsertFinding ws job correlation finding now newId ∧
        keyOf stored = keyFor ws job finding ∧ Carries finding stored ∧
        ((∃ old ∈ db.findings, old.id = stored.id ∧ keyOf old = keyOf stored) ∨
          (stored.id = newId ∧ ∀ old ∈ db.findings, old.id ≠ newId ∧
            keyOf old ≠ keyFor ws job finding)) := by
  cases op with
  | upsertFinding ws job correlation finding now newId =>
      have hcases := Collection.of_mem_upsert h
      rcases hcases with hold | ⟨old, hmem, hfilter, rfl⟩ | ⟨rfl, hmiss, hfree⟩
      · exact Or.inl hold
      · simp only [Bool.and_eq_true, beq_iff_eq] at hfilter
        obtain ⟨⟨⟨hws, hjob⟩, hresource⟩, hrule⟩ := hfilter
        refine Or.inr ⟨ws, job, correlation, finding, now, newId, rfl, ?_,
          ⟨hresource, hrule, rfl, rfl, rfl, rfl⟩, Or.inl ⟨old, hmem, rfl, rfl⟩⟩
        simp [keyOf, keyFor, EngineFinding.setFinding, hws, hjob, hresource, hrule]
      · refine Or.inr ⟨ws, job, correlation, finding, now, newId, rfl, rfl,
          ⟨rfl, rfl, rfl, rfl, rfl, rfl⟩,
          Or.inr ⟨rfl, fun old hmem => ⟨fun hid => ?_, fun hkey => ?_⟩⟩⟩
        · exact hfree ⟨old, hmem, Or.inl hid⟩
        · exact hfree ⟨old, hmem, Or.inr hkey⟩
  | _ => exact Or.inl h

/-- A recommendation after a call was there before, or has just been upserted. -/
theorem mem_recommendations_exec {stored : Recommendation}
    (h : stored ∈ (op.exec db).2.recommendations) :
    stored ∈ db.recommendations ∨ ∃ ws job correlation findingId finding now newId,
      op = .upsertRecommendation ws job correlation findingId finding now newId ∧
        stored.workspaceId = ws ∧ stored.findingId = findingId ∧ stored.jobId = job ∧
        Advises finding stored := by
  cases op with
  | upsertRecommendation ws job correlation findingId finding now newId =>
      have hcases := Collection.of_mem_upsert h
      rcases hcases with hold | ⟨old, hmem, hfilter, rfl⟩ | ⟨rfl, -, -⟩
      · exact Or.inl hold
      · simp only [Bool.and_eq_true, beq_iff_eq] at hfilter
        exact Or.inr ⟨ws, job, correlation, findingId, finding, now, newId, rfl, hfilter.1,
          hfilter.2, rfl, ⟨rfl, rfl, rfl, rfl⟩⟩
      · exact Or.inr ⟨ws, job, correlation, findingId, finding, now, newId, rfl, rfl, rfl, rfl,
          ⟨rfl, rfl, rfl, rfl⟩⟩
  | _ => exact Or.inl h

/-- An upsert that succeeds has returned the stored document. -/
theorem upsertReply_ok {δ : Type} {x : Option δ} {d : δ} (h : upsertReply x = .ok d) :
    x = some d := by
  cases x with
  | none => cases h
  | some d' => cases h; rfl

/-- What the upsert of a finding returns is stored under its key. -/
theorem upsertFinding_ok {stored : Finding}
    (h : ((DbOp.upsertFinding workspaceId jobId correlationId finding now newId).exec db).1 =
      .ok stored) :
    stored ∈ ((DbOp.upsertFinding workspaceId jobId correlationId finding now newId).exec
      db).2.findings ∧ keyOf stored = keyFor workspaceId jobId finding := by
  have hreply := upsertReply_ok h
  have hsome := Collection.upsert_some hreply
  refine ⟨hsome.1, ?_⟩
  rcases hsome.2 with ⟨old, -, hfilter, rfl⟩ | rfl
  · simp only [Bool.and_eq_true, beq_iff_eq] at hfilter
    obtain ⟨⟨⟨hws, hjob⟩, hresource⟩, hrule⟩ := hfilter
    simp [keyOf, keyFor, EngineFinding.setFinding, hws, hjob, hresource, hrule]
  · rfl

/-- What the upsert of a recommendation returns is stored for its finding. -/
theorem upsertRecommendation_ok {stored : Recommendation}
    (h : ((DbOp.upsertRecommendation workspaceId jobId correlationId findingId finding now
      newId).exec db).1 = .ok stored) :
    stored ∈ ((DbOp.upsertRecommendation workspaceId jobId correlationId findingId finding now
      newId).exec db).2.recommendations ∧ stored.workspaceId = workspaceId ∧
        stored.findingId = findingId := by
  have hreply := upsertReply_ok h
  have hsome := Collection.upsert_some hreply
  refine ⟨hsome.1, ?_⟩
  rcases hsome.2 with ⟨old, -, hfilter, rfl⟩ | rfl
  · simp only [Bool.and_eq_true, beq_iff_eq] at hfilter
    exact hfilter
  · exact ⟨rfl, rfl⟩

end Upserts

/-! ## The stages of a run -/

/-- An upsert of the finding has returned a document with this id. -/
def WroteFinding (workspaceId jobId : String) (past : Past) (finding : EngineFinding)
    (id : String) : Prop :=
  ∃ correlationId now newId before stored,
    ⟨.upsertFinding workspaceId jobId correlationId finding now newId, before⟩ ∈ past ∧
      ((DbOp.upsertFinding workspaceId jobId correlationId finding now newId).exec before).1 =
        .ok stored ∧ stored.id = id

/-- An upsert of the recommendation for the finding with this id has returned. -/
def WroteRecommendation (workspaceId jobId : String) (past : Past) (finding : EngineFinding)
    (id : String) : Prop :=
  ∃ correlationId now newId before stored,
    ⟨.upsertRecommendation workspaceId jobId correlationId id finding now newId, before⟩ ∈ past ∧
      ((DbOp.upsertRecommendation workspaceId jobId correlationId id finding now newId).exec
        before).1 = .ok stored

/-- A finding that has been written stays written. -/
theorem WroteFinding.mono {workspaceId jobId id : String} {past past' : Past}
    {finding : EngineFinding} (h : WroteFinding workspaceId jobId past finding id)
    (hsub : past ⊆ past') : WroteFinding workspaceId jobId past' finding id := by
  obtain ⟨correlationId, now, newId, before, stored, hmem, hok⟩ := h
  exact ⟨correlationId, now, newId, before, stored, hsub hmem, hok⟩

/-- A recommendation that has been written stays written. -/
theorem WroteRecommendation.mono {workspaceId jobId id : String} {past past' : Past}
    {finding : EngineFinding} (h : WroteRecommendation workspaceId jobId past finding id)
    (hsub : past ⊆ past') : WroteRecommendation workspaceId jobId past' finding id := by
  obtain ⟨correlationId, now, newId, before, stored, hmem, hok⟩ := h
  exact ⟨correlationId, now, newId, before, stored, hsub hmem, hok⟩

/-- The finding and its recommendation have been written. -/
def Wrote (workspaceId jobId : String) (past : Past) (finding : EngineFinding) : Prop :=
  ∃ id, WroteFinding workspaceId jobId past finding id ∧
    WroteRecommendation workspaceId jobId past finding id

/-- A finding that has been written with its recommendation stays so. -/
theorem Wrote.mono {workspaceId jobId : String} {past past' : Past} {finding : EngineFinding}
    (h : Wrote workspaceId jobId past finding) (hsub : past ⊆ past') :
    Wrote workspaceId jobId past' finding := by
  obtain ⟨id, hfinding, hrecommendation⟩ := h
  exact ⟨id, hfinding.mono hsub, hrecommendation.mono hsub⟩

/-- The key a call upserts a finding under. -/
def upsertKey? : DbOp → Option FindingKey
  | .upsertFinding workspaceId jobId _ finding _ _ => some (keyFor workspaceId jobId finding)
  | _ => none

/-- The keys a program has upserted findings under, in turn. -/
def upsertKeys (past : Past) : List FindingKey := past.filterMap fun ev => upsertKey? ev.op

/-- Who has performed nothing has upserted nothing. -/
@[simp] theorem upsertKeys_nil : upsertKeys [] = [] := rfl

/-- The keys come call by call. -/
@[simp] theorem upsertKeys_append (past past' : Past) :
    upsertKeys (past ++ past') = upsertKeys past ++ upsertKeys past' :=
  List.filterMap_append

/-- What each call of a run relies on: the findings are those of its analysis, and a
recommendation belongs to a finding that has been written. -/
inductive RunStage (workspaceId jobId : String)
    (analyze : List CloudResource → Except AppError DiagnosticEngineResult)
    (draws : ℕ → RoundDraws) (past : Past) : DbOp → Prop
  | inventory (ids : Option (List String)) (types : Option (List ResourceType)) :
      RunStage workspaceId jobId analyze draws past (.findInventory workspaceId ids types)
  | finding (correlationId : String) (finding : EngineFinding) (now : Time) (n : ℕ)
      (hanalysis : ∃ resources result, analyze resources = .ok result ∧ finding ∈ result.findings) :
      RunStage workspaceId jobId analyze draws past
        (.upsertFinding workspaceId jobId correlationId finding now (draws n).newFindingId)
  | recommendation (correlationId id : String) (finding : EngineFinding) (now : Time)
      (newId : String)
      (hanalysis : ∃ resources result, analyze resources = .ok result ∧ finding ∈ result.findings)
      (hwrote : WroteFinding workspaceId jobId past finding id) :
      RunStage workspaceId jobId analyze draws past
        (.upsertRecommendation workspaceId jobId correlationId id finding now newId)
  | health (check : HealthCheck) :
      RunStage workspaceId jobId analyze draws past (.createHealthCheck check)

/-- A run that has returned has written what it counts, and nothing else. -/
structure Processed (workspaceId jobId : String)
    (analyze : List CloudResource → Except AppError DiagnosticEngineResult) (past : Past)
    (result : DiagnosticEngineResult) : Prop where
  analysis : ∃ resources, analyze resources = .ok result
  keys : upsertKeys past = result.findings.map (keyFor workspaceId jobId)
  wrote : ∀ finding ∈ result.findings, Wrote workspaceId jobId past finding

section Run

variable {workspaceId jobId correlationId : String} {draws : ℕ → RoundDraws}
  {analyze : List CloudResource → Except AppError DiagnosticEngineResult} {past : Past}

/-- How the loop ends: it has counted and written all its findings, or it has failed. -/
def LoopEnds (workspaceId jobId : String) (all : List EngineFinding) (counters : ℕ × ℕ)
    (past : Past) : Except AppError (ℕ × ℕ) → Prop
  | .ok result => result = counters ∧ upsertKeys past = all.map (keyFor workspaceId jobId) ∧
      ∀ finding ∈ all, Wrote workspaceId jobId past finding
  | .error _ => True

/-- **The persistence loop keeps to its stages**, whatever the store is at each of its calls.
SRCLINE: apps/worker/src/processor.ts:109-153 -/
theorem persist_emits {done rest : List EngineFinding} {n m : ℕ}
    (hanalysis : ∀ finding ∈ rest, ∃ resources result, analyze resources = .ok result ∧
      finding ∈ result.findings)
    (hkeys : upsertKeys past = done.map (keyFor workspaceId jobId))
    (hdone : ∀ finding ∈ done, Wrote workspaceId jobId past finding) :
    (persist workspaceId jobId correlationId draws rest n m).Emits database
      (RunStage workspaceId jobId analyze draws)
      (LoopEnds workspaceId jobId (done ++ rest) (n + rest.length, m + rest.length)) past := by
  induction rest generalizing done n m past with
  | nil => exact ⟨rfl, by simpa using hkeys, by simpa using hdone⟩
  | cons finding rest ih =>
      have hfinding := hanalysis finding List.mem_cons_self
      let upsert : DbOp := .upsertFinding workspaceId jobId correlationId finding
        (draws n).findingAt (draws n).newFindingId
      refine emits_attempt (k := fun reply : DbOp.Reply upsert => reply)
        (RunStage.finding correlationId finding _ n hfinding) ?_ fun _ _ _ => trivial
      intro before₁ stored hstored
      have hwrote :
          WroteFinding workspaceId jobId (past ++ [⟨upsert, before₁⟩]) finding stored.id :=
        ⟨correlationId, _, _, before₁, stored, List.mem_append_right _ List.mem_cons_self, hstored,
          rfl⟩
      let upsert' : DbOp := .upsertRecommendation workspaceId jobId correlationId stored.id finding
        (draws n).recommendationAt (draws n).newRecommendationId
      refine emits_attempt (k := fun reply : DbOp.Reply upsert' => reply)
        (RunStage.recommendation correlationId stored.id finding _ _ hfinding hwrote) ?_
        fun _ _ _ => trivial
      intro before₂ recommendation hrecommendation
      refine emits_call (RunStage.health _) fun before₃ _ _ => ?_
      let past' : Past := past ++ [⟨upsert, before₁⟩] ++ [⟨upsert', before₂⟩] ++
        [⟨.createHealthCheck (healthCheckOf workspaceId finding (draws n).observedAt), before₃⟩]
      have hsub : past ++ [⟨upsert, before₁⟩] ⊆ past' := by
        intro ev hev
        exact List.mem_append_left _ (List.mem_append_left _ hev)
      have hkeys' : upsertKeys past' = (done ++ [finding]).map (keyFor workspaceId jobId) := by
        have hfirst : upsertKeys [⟨upsert, before₁⟩] = [keyFor workspaceId jobId finding] := rfl
        have hsecond : upsertKeys [⟨upsert', before₂⟩] = [] := rfl
        have hthird : upsertKeys [⟨.createHealthCheck (healthCheckOf workspaceId finding
          (draws n).observedAt), before₃⟩] = [] := rfl
        simp only [past', upsertKeys_append, hkeys, hfirst, hsecond, hthird, List.map_append,
          List.append_nil, List.map_cons, List.map_nil]
      have hdone' : ∀ f ∈ done ++ [finding], Wrote workspaceId jobId past' f := by
        intro f hf
        rcases List.mem_append.mp hf with hold | hnew
        · exact (hdone f hold).mono fun ev hev => hsub (List.mem_append_left _ hev)
        · obtain rfl := List.mem_singleton.mp hnew
          refine ⟨stored.id, hwrote.mono hsub, ?_⟩
          exact ⟨correlationId, _, _, before₂, recommendation,
            List.mem_append_left _ (List.mem_append_right _ List.mem_cons_self), hrecommendation⟩
      have hrest := ih (n := n + 1) (m := m + 1)
        (fun f hf => hanalysis f (List.mem_cons_of_mem _ hf)) hkeys' hdone'
      have hcount : ∀ k, k + 1 + rest.length = k + (finding :: rest).length := by
        intro k
        rw [List.length_cons]
        omega
      rw [List.append_assoc, hcount n, hcount m] at hrest
      exact hrest

/-- How a run ends. -/
def RunEnds (workspaceId jobId : String)
    (analyze : List CloudResource → Except AppError DiagnosticEngineResult) (past : Past) :
    Except AppError JobResultSummary → Prop
  | .ok summary => ∃ result, Processed workspaceId jobId analyze past result ∧
      summary.findingsCreated = result.findings.length ∧
      summary.recommendationsCreated = result.findings.length
  | .error _ => True

/-- **A run keeps to its stages** and counts what it has written.
SRCLINE: apps/worker/src/processor.ts:82-154 -/
theorem run_emits {resourceIds : Option (List String)} {resourceTypes : Option (List ResourceType)}
    (hpast : upsertKeys past = []) :
    (run workspaceId jobId correlationId resourceIds resourceTypes analyze draws).Emits database
      (RunStage workspaceId jobId analyze draws) (RunEnds workspaceId jobId analyze) past := by
  unfold run
  refine emits_call (RunStage.inventory resourceIds resourceTypes) fun before resources _ => ?_
  refine emits_ofExcept (fun result hresult => ?_) fun _ _ => trivial
  have hkeys : upsertKeys (past ++ [⟨.findInventory workspaceId resourceIds resourceTypes,
      before⟩]) = ([] : List EngineFinding).map (keyFor workspaceId jobId) := by
    rw [upsertKeys_append, hpast]
    rfl
  refine Prog.Emits.bind ((persist_emits (fun finding hfinding => ⟨resources, result, hresult,
    hfinding⟩) hkeys fun _ h => nomatch h).mono (fun _ _ h => h) ?_)
  intro past' outcome houtcome
  cases outcome with
  | error e => trivial
  | ok counters =>
      obtain ⟨rfl, hkeys', hwrote⟩ := houtcome
      refine ⟨result, ⟨⟨resources, hresult⟩, hkeys', hwrote⟩, ?_, ?_⟩
      · show 0 + result.findings.length = _
        omega
      · show 0 + result.findings.length = _
        omega

end Run

/-! ## What has been written stays

Along a path of calls of any programs. -/

section Paths

variable {workspaceId jobId id : String} {past : Past} {finding : EngineFinding} {q : ℕ}
  {db db' : Database} {history : History}

/-- Findings stay along a path. -/
theorem findings_stay_path (hc : Pool.Chained database db history db') {stored : Finding}
    (h : stored ∈ db.findings) :
    ∃ stored' ∈ db'.findings, stored'.id = stored.id ∧ keyOf stored' = keyOf stored := by
  have hle := hc.le (R := fun db db' => ∀ stored ∈ db.findings, ∃ stored' ∈ db'.findings,
    stored'.id = stored.id ∧ keyOf stored' = keyOf stored) (fun _ stored h => ⟨stored, h, rfl, rfl⟩)
    ?_ fun q ev _ stored h => findings_stay ev.op h
  · exact hle.1 stored h
  · intro s t u hst htu stored h
    obtain ⟨stored₁, hmem₁, hid₁, hkey₁⟩ := hst stored h
    obtain ⟨stored₂, hmem₂, hid₂, hkey₂⟩ := htu stored₁ hmem₁
    exact ⟨stored₂, hmem₂, hid₂.trans hid₁, hkey₂.trans hkey₁⟩

/-- Recommendations stay along a path. -/
theorem recommendations_stay_path (hc : Pool.Chained database db history db')
    {stored : Recommendation} (h : stored ∈ db.recommendations) :
    ∃ stored' ∈ db'.recommendations, stored'.workspaceId = stored.workspaceId ∧
      stored'.findingId = stored.findingId := by
  have hle := hc.le (R := fun db db' => ∀ stored ∈ db.recommendations,
    ∃ stored' ∈ db'.recommendations, stored'.workspaceId = stored.workspaceId ∧
      stored'.findingId = stored.findingId) (fun _ stored h => ⟨stored, h, rfl, rfl⟩) ?_ ?_
  · exact hle.1 stored h
  · intro s t u hst htu stored h
    obtain ⟨stored₁, hmem₁, hws₁, hid₁⟩ := hst stored h
    obtain ⟨stored₂, hmem₂, hws₂, hid₂⟩ := htu stored₁ hmem₁
    exact ⟨stored₂, hmem₂, hws₂.trans hws₁, hid₂.trans hid₁⟩
  · intro q ev _ stored h
    obtain ⟨stored', hmem, -, hws, hid⟩ := recommendations_stay ev.op h
    exact ⟨stored', hmem, hws, hid⟩

/-- **A finding that has been written is stored** under its key, from then on. -/
theorem WroteFinding.stored (h : WroteFinding workspaceId jobId (own q history) finding id)
    (hc : Pool.Chained database db history db') :
    ∃ stored ∈ db'.findings, stored.id = id ∧ keyOf stored = keyFor workspaceId jobId finding := by
  obtain ⟨correlationId, now, newId, before, stored, hev, hok, rfl⟩ := h
  obtain ⟨older, newer, hhist⟩ := List.append_of_mem (mem_own.mp hev)
  rw [hhist] at hc
  obtain ⟨hmem, hkey⟩ := upsertFinding_ok hok
  obtain ⟨stored', hmem', hid', hkey'⟩ := findings_stay_path hc.split.2 hmem
  exact ⟨stored', hmem', hid', hkey'.trans hkey⟩

/-- **A recommendation that has been written is stored** for its finding, from then on. -/
theorem WroteRecommendation.stored
    (h : WroteRecommendation workspaceId jobId (own q history) finding id)
    (hc : Pool.Chained database db history db') :
    ∃ stored ∈ db'.recommendations, stored.workspaceId = workspaceId ∧ stored.findingId = id := by
  obtain ⟨correlationId, now, newId, before, stored, hev, hok⟩ := h
  obtain ⟨older, newer, hhist⟩ := List.append_of_mem (mem_own.mp hev)
  rw [hhist] at hc
  obtain ⟨hmem, hws, hid⟩ := upsertRecommendation_ok hok
  obtain ⟨stored', hmem', hws', hid'⟩ := recommendations_stay_path hc.split.2 hmem
  exact ⟨stored', hmem', hws'.trans hws, hid'.trans hid⟩

end Paths

end CloudOps.Analysis
