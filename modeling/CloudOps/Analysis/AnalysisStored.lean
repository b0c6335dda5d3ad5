import CloudOps.Analysis.EngineTotality
import CloudOps.Analysis.JobRuns
import CloudOps.Analysis.SingleExecution
import CloudOps.Model.EngineAnalysis

/-!
# No finding is lost between the engine and the store

The store merges findings of a job that agree in resource and rule, the processor counts its
rounds. On an inventory the engine raises nothing and its findings all differ, so the first run
of a job inserts one finding and one recommendation in each round (`persist_inserts`).
-/

set_option autoImplicit false

namespace CloudOps.Analysis

open CloudOps.Computation CloudOps.Model CloudOps.Model.JobProcessor CloudOps.Interface

/-! ## The analysis of an inventory -/

section Engine

variable {numerals : PyNumerals} {json : List (String × PyVal) → JsonText}
  {workspaceId correlationId : String} {resources : List CloudResource}

/-- **The engine answers for every inventory.** -/
theorem analyze_inventory (numerals : PyNumerals) (workspaceId correlationId : String)
    (resources : List CloudResource) :
    ∃ response, analyze numerals (analyzeRequest workspaceId correlationId resources) =
      .ok response := by
  have hquiet : Quiet (evaluateAll numerals
      (analyzeRequest workspaceId correlationId resources).resources) := by
    refine (quiet_evaluateAll_iff _).mpr (List.forall_mem_map.mpr fun r _ => ?_)
    obtain ⟨findings, hfindings, -⟩ := evaluate_payload numerals r.id r.type r.region r.name r.state
    exact ⟨findings, hfindings⟩
  obtain ⟨findings, hfindings⟩ := hquiet
  refine ⟨{ findings := findings }, ?_⟩
  unfold analyze
  rw [hfindings]
  rfl

/-- What the client reads of the answer. -/
theorem engineAnalysis_eq {response : AnalyzeResponse}
    (h : analyze numerals (analyzeRequest workspaceId correlationId resources) = .ok response) :
    engineAnalysis numerals json workspaceId correlationId resources =
      .ok ⟨response.findings.map (·.received json)⟩ := by
  unfold engineAnalysis engineExchange
  rw [h]
  rfl

/-- The findings of a response are reports about the resources of the request. -/
theorem analyze_reports {request : AnalyzeRequest} {response : AnalyzeResponse}
    (h : analyze numerals request = .ok response) :
    ∀ finding ∈ response.findings, ∃ resource ∈ request.resources, ∃ p : Policy,
      p.Reports resource.id finding := by
  obtain ⟨findings, hfindings, h⟩ := bind_ok h
  cases h
  exact evaluateAll_reports hfindings

/-- **Findings of a response differ in resource or rule.**
SRCLINE: services/diagnostics/app/main.py:42-53 -/
theorem nodup_analyze {request : AnalyzeRequest} {response : AnalyzeResponse}
    (hdistinct : (request.resources.map (·.id)).Nodup)
    (h : analyze numerals request = .ok response) :
    (response.findings.map fun f => (f.resourceId, f.ruleId)).Nodup := by
  obtain ⟨findings, hfindings, h⟩ := bind_ok h
  cases h
  exact nodup_evaluateAll hdistinct hfindings

end Engine

/-! ## A run that meets no other finding of its job -/

section Persist

variable {db : Database} {workspaceId jobId correlationId findingId newId : String} {now : Time}
  {finding : EngineFinding} {draws : ℕ → RoundDraws}

/-- The upsert of a finding that is not there inserts it.
SRCLINE: apps/worker/src/processor.ts:111-123 -/
theorem upsertFinding_inserts
    (hmiss : ∀ stored ∈ db.findings, keyOf stored ≠ keyFor workspaceId jobId finding)
    (hid : ∀ stored ∈ db.findings, stored.id ≠ newId) :
    ((DbOp.upsertFinding workspaceId jobId correlationId finding now newId).exec db).1 =
        .ok (finding.newFinding workspaceId jobId correlationId now newId) ∧
      ((DbOp.upsertFinding workspaceId jobId correlationId finding now newId).exec
        db).2.findings.docs =
          db.findings.docs ++ [finding.newFinding workspaceId jobId correlationId now newId] := by
  have hmiss' : ∀ stored ∈ db.findings, (stored.workspaceId == workspaceId &&
      stored.jobId == jobId && stored.resourceId == finding.resourceId &&
      stored.ruleId == finding.ruleId) = false := by
    intro stored hmem
    refine Bool.eq_false_iff.mpr fun hfilter => hmiss stored hmem ?_
    simp only [Bool.and_eq_true, beq_iff_eq] at hfilter
    obtain ⟨⟨⟨hws, hjob⟩, hresource⟩, hrule⟩ := hfilter
    simp only [keyOf, keyFor, hws, hjob, hresource, hrule]
  have hfree : ¬ db.findings.Conflicts
      (finding.newFinding workspaceId jobId correlationId now newId) := by
    rintro ⟨stored, hmem, hsame | hsame⟩
    · exact hid stored hmem hsame
    · exact hmiss stored hmem hsame
  exact ⟨congrArg upsertReply (Collection.upsert_inserts hmiss' hfree).1,
    (Collection.upsert_inserts hmiss' hfree).2⟩

/-- The upsert of a recommendation that is not there inserts it.
SRCLINE: apps/worker/src/processor.ts:125-139 -/
theorem upsertRecommendation_inserts
    (hmiss : ∀ r ∈ db.recommendations, r.findingId ≠ findingId)
    (hid : ∀ r ∈ db.recommendations, r.id ≠ newId) :
    ((DbOp.upsertRecommendation workspaceId jobId correlationId findingId finding now newId).exec
        db).1 =
        .ok (finding.newRecommendation workspaceId jobId correlationId findingId now newId) ∧
      ((DbOp.upsertRecommendation workspaceId jobId correlationId findingId finding now newId).exec
        db).2.recommendations.docs = db.recommendations.docs ++
          [finding.newRecommendation workspaceId jobId correlationId findingId now newId] := by
  have hmiss' : ∀ r ∈ db.recommendations,
      (r.workspaceId == workspaceId && r.findingId == findingId) = false := by
    intro r hmem
    rw [beq_false_of_ne (hmiss r hmem), Bool.and_false]
  have hfree : ¬ db.recommendations.Conflicts
      (finding.newRecommendation workspaceId jobId correlationId findingId now newId) := by
    rintro ⟨r, hmem, hsame | hsame⟩
    · exact hid r hmem hsame
    · exact hmiss r hmem (congrArg Prod.snd hsame)
  exact ⟨congrArg upsertReply (Collection.upsert_inserts hmiss' hfree).1,
    (Collection.upsert_inserts hmiss' hfree).2⟩

/-- The ids drawn from round `n` on are not in use. -/
structure NotDrawnYet (draws : ℕ → RoundDraws) (n : ℕ) (db : Database) : Prop where
  findings : ∀ stored ∈ db.findings, ∀ k ≥ n, stored.id ≠ (draws k).newFindingId
  recommendations : ∀ r ∈ db.recommendations, ∀ k ≥ n, r.id ≠ (draws k).newRecommendationId
  advised : ∀ r ∈ db.recommendations, ∀ k ≥ n, r.findingId ≠ (draws k).newFindingId

/-- No id is drawn twice. -/
structure DrawnOnce (draws : ℕ → RoundDraws) : Prop where
  findings : Function.Injective fun n => (draws n).newFindingId
  recommendations : Function.Injective fun n => (draws n).newRecommendationId

/-- What one round stores of a finding. -/
structure StoredAs (workspaceId jobId : String) (finding : EngineFinding)
    (stored : Finding × Recommendation) : Prop where
  key : keyOf stored.1 = keyFor workspaceId jobId finding
  carries : Carries finding stored.1
  workspaceId : stored.2.workspaceId = workspaceId
  jobId : stored.2.jobId = jobId
  findingId : stored.2.findingId = stored.1.id
  advises : Advises finding stored.2

/-- An analysis has been added to the store, finding by finding. -/
def Added (workspaceId jobId : String) (analysis : List EngineFinding) (db db' : Database) : Prop :=
  ∃ stored : List (Finding × Recommendation),
    List.Forall₂ (StoredAs workspaceId jobId) analysis stored ∧
    db'.findings.docs = db.findings.docs ++ stored.map Prod.fst ∧
    db'.recommendations.docs = db.recommendations.docs ++ stored.map Prod.snd

/-- The store after one round.
SRCLINE: apps/worker/src/processor.ts:109-150 -/
theorem persist_round (hdrawn : DrawnOnce draws) {rest : List EngineFinding} {n m : ℕ}
    (hunused : NotDrawnYet draws n db)
    (hmiss : ∀ stored ∈ db.findings, keyOf stored ≠ keyFor workspaceId jobId finding) :
    ∃ db' stored, (persist workspaceId jobId correlationId draws (finding :: rest) n m).run
        database db =
          (persist workspaceId jobId correlationId draws rest (n + 1) (m + 1)).run database db' ∧
      StoredAs workspaceId jobId finding stored ∧ NotDrawnYet draws (n + 1) db' ∧
      db'.findings.docs = db.findings.docs ++ [stored.1] ∧
      db'.recommendations.docs = db.recommendations.docs ++ [stored.2] := by
  let upsert : DbOp := .upsertFinding workspaceId jobId correlationId finding
    (draws n).findingAt (draws n).newFindingId
  let stored := finding.newFinding workspaceId jobId correlationId
    (draws n).findingAt (draws n).newFindingId
  let upsert' : DbOp := .upsertRecommendation workspaceId jobId correlationId stored.id finding
    (draws n).recommendationAt (draws n).newRecommendationId
  let advice := finding.newRecommendation workspaceId jobId correlationId stored.id
    (draws n).recommendationAt (draws n).newRecommendationId
  have hfinding : (upsert.exec db).1 = .ok stored ∧
      (upsert.exec db).2.findings.docs = db.findings.docs ++ [stored] :=
    upsertFinding_inserts hmiss fun stored hmem => hunused.findings stored hmem n le_rfl
  have hadvice : (upsert'.exec (upsert.exec db).2).1 = .ok advice ∧
      (upsert'.exec (upsert.exec db).2).2.recommendations.docs =
        db.recommendations.docs ++ [advice] :=
    upsertRecommendation_inserts (fun r hmem => hunused.advised r hmem n le_rfl)
      fun r hmem => hunused.recommendations r hmem n le_rfl
  refine ⟨_, (stored, advice), (run_attempt hfinding.1).trans ((run_attempt hadvice.1).trans
    run_call), ⟨rfl, ⟨rfl, rfl, rfl, rfl, rfl, rfl⟩, rfl, rfl, rfl, ⟨rfl, rfl, rfl, rfl⟩⟩, ?_,
    hfinding.2, hadvice.2⟩
  have hlater : ∀ k ≥ n + 1, k ≠ n := fun k hk => by omega
  refine ⟨fun old hmem k hk => ?_, fun r hmem k hk => ?_, fun r hmem k hk => ?_⟩
  · change old ∈ (upsert.exec db).2.findings.docs at hmem
    rw [hfinding.2] at hmem
    rcases List.mem_append.mp hmem with hmem | hmem
    · exact hunused.findings old hmem k (by omega)
    · rw [List.mem_singleton.mp hmem]
      exact fun hid => hlater k hk (hdrawn.findings hid).symm
  · change r ∈ (upsert'.exec (upsert.exec db).2).2.recommendations.docs at hmem
    rw [hadvice.2] at hmem
    rcases List.mem_append.mp hmem with hmem | hmem
    · exact hunused.recommendations r hmem k (by omega)
    · rw [List.mem_singleton.mp hmem]
      exact fun hid => hlater k hk (hdrawn.recommendations hid).symm
  · change r ∈ (upsert'.exec (upsert.exec db).2).2.recommendations.docs at hmem
    rw [hadvice.2] at hmem
    rcases List.mem_append.mp hmem with hmem | hmem
    · exact hunused.advised r hmem k (by omega)
    · rw [List.mem_singleton.mp hmem]
      exact fun hid => hlater k hk (hdrawn.findings hid).symm

/-- **The persistence loop inserts every finding**, if no two are alike and none is there.
SRCLINE: apps/worker/src/processor.ts:109-153 -/
theorem persist_inserts (hdrawn : DrawnOnce draws) {rest : List EngineFinding} {n m : ℕ}
    (hunused : NotDrawnYet draws n db)
    (hmiss : ∀ finding ∈ rest, ∀ stored ∈ db.findings,
      keyOf stored ≠ keyFor workspaceId jobId finding)
    (hdistinct : (rest.map fun f => (f.resourceId, f.ruleId)).Nodup) :
    ∃ db', (persist workspaceId jobId correlationId draws rest n m).run database db =
        (.ok (n + rest.length, m + rest.length), db') ∧ Added workspaceId jobId rest db db' := by
  induction rest generalizing n m db with
  | nil => exact ⟨db, rfl, [], .nil, by simp, by simp⟩
  | cons finding rest ih =>
      obtain ⟨hnot, hdistinct⟩ := List.nodup_cons.mp hdistinct
      obtain ⟨db₁, stored, hround, hstored, hunused₁, hfindings, hrecommendations⟩ :=
        persist_round hdrawn hunused (hmiss finding List.mem_cons_self)
      have hmiss₁ : ∀ f ∈ rest, ∀ old ∈ db₁.findings,
          keyOf old ≠ keyFor workspaceId jobId f := by
        intro f hf old hmem hkey
        rw [Collection.mem_def, hfindings] at hmem
        rcases List.mem_append.mp hmem with hmem | hmem
        · exact hmiss f (List.mem_cons_of_mem _ hf) old hmem hkey
        · -- the finding just stored is not like one of the rest
          rw [List.mem_singleton.mp hmem, hstored.key] at hkey
          refine hnot (List.mem_map.mpr ⟨f, hf, ?_⟩)
          exact (congrArg (fun key => key.2.2) hkey).symm
      obtain ⟨db', hrest, storeds, hall, hfindings', hrecommendations'⟩ :=
        ih hunused₁ hmiss₁ hdistinct
      refine ⟨db', ?_, stored :: storeds, .cons hstored hall, ?_, ?_⟩
      · rw [hround, hrest, List.length_cons]
        congr 3 <;> omega
      · rw [hfindings', hfindings, List.map_cons, List.append_assoc]
        rfl
      · rw [hrecommendations', hrecommendations, List.map_cons, List.append_assoc]
        rfl

/-- What has been added counts for the job, and nothing else does. -/
theorem Added.counts {analysis : List EngineFinding} {db' : Database}
    (h : Added workspaceId jobId analysis db db')
    (hfirst : ∀ stored ∈ db.findings, stored.jobId ≠ jobId) :
    (db'.findings.filter (·.jobId == jobId)).length = analysis.length ∧
      (db'.recommendations.filter (·.jobId == jobId)).length =
        (db.recommendations.filter (·.jobId == jobId)).length + analysis.length := by
  obtain ⟨stored, hall, hfindings, hrecommendations⟩ := h
  have hlength : analysis.length = stored.length := hall.length_eq
  have hjob : ∀ s ∈ stored, s.1.jobId = jobId ∧ s.2.jobId = jobId := by
    clear hlength hfindings hrecommendations
    induction hall with
    | nil => simp
    | cons hstored _ ih =>
        refine List.forall_mem_cons.mpr ⟨⟨?_, hstored.jobId⟩, ih⟩
        exact congrArg (fun key => key.2.1) hstored.key
  constructor
  · have hold : db.findings.docs.filter (·.jobId == jobId) = [] := by
      rw [List.filter_eq_nil_iff]
      intro old hmem
      simpa using hfirst old hmem
    have hnew : (stored.map Prod.fst).filter (·.jobId == jobId) = stored.map Prod.fst := by
      rw [List.filter_eq_self, List.forall_mem_map]
      intro s hs
      simpa using (hjob s hs).1
    rw [Collection.filter, hfindings, List.filter_append, hold, hnew, hlength]
    simp
  · have hnew : (stored.map Prod.snd).filter (·.jobId == jobId) = stored.map Prod.snd := by
      rw [List.filter_eq_self, List.forall_mem_map]
      intro s hs
      simpa using (hjob s hs).2
    rw [Collection.filter, hrecommendations, List.filter_append, hnew, List.length_append,
      List.length_map, hlength]
    rfl

/-- **The first run of a job** stores what the engine reports of the inventory it has loaded.
SRCLINE: apps/worker/src/processor.ts:82-154 -/
theorem run_stores (numerals : PyNumerals) (json : List (String × PyVal) → JsonText)
    (resourceIds : Option (List String)) (resourceTypes : Option (List ResourceType))
    (hfirst : ∀ stored ∈ db.findings, stored.jobId ≠ jobId) (hdrawn : DrawnOnce draws)
    (hunused : NotDrawnYet draws 0 db) {response : AnalyzeResponse}
    (hresponse : analyze numerals (analyzeRequest workspaceId correlationId
      (db.findInventory workspaceId resourceIds resourceTypes)) = .ok response) :
    ∃ db', (run workspaceId jobId correlationId resourceIds resourceTypes
        (engineAnalysis numerals json workspaceId correlationId) draws).run database db =
          (.ok ⟨(db.findInventory workspaceId resourceIds resourceTypes).length,
            response.findings.length, response.findings.length⟩, db') ∧
      Added workspaceId jobId (response.findings.map (·.received json)) db db' := by
  let resources := db.findInventory workspaceId resourceIds resourceTypes
  have hids :
      ((analyzeRequest workspaceId correlationId resources).resources.map (·.id)).Nodup := by
    show ((resources.map _).map _).Nodup
    rw [List.map_map]
    exact db.resources.nodup_id.sublist (List.filter_sublist.map _)
  have hdistinct : ((response.findings.map (·.received json)).map fun f =>
      (f.resourceId, f.ruleId)).Nodup := by
    rw [List.map_map]
    exact nodup_analyze hids hresponse
  have hmiss : ∀ finding ∈ response.findings.map (·.received json), ∀ stored ∈ db.findings,
      keyOf stored ≠ keyFor workspaceId jobId finding :=
    fun finding _ stored hmem hkey => hfirst stored hmem (congrArg (fun key => key.2.1) hkey)
  have hpersist : ∃ db', (persist workspaceId jobId correlationId draws
      (response.findings.map (·.received json)) 0 0).run database db =
        (.ok (0 + (response.findings.map (·.received json)).length,
          0 + (response.findings.map (·.received json)).length), db') ∧
      Added workspaceId jobId (response.findings.map (·.received json)) db db' :=
    persist_inserts hdrawn hunused hmiss hdistinct
  obtain ⟨db', hpersist, hadded⟩ := hpersist
  refine ⟨db', ?_, hadded⟩
  unfold run
  refine run_call.trans ?_
  show ((Prog.ofExcept (engineAnalysis numerals json workspaceId correlationId resources) >>=
    _).run database db) = _
  rw [engineAnalysis_eq hresponse]
  show ((persist _ _ _ _ _ 0 0 >>= _).run database db) = _
  rw [Prog.run_bind, hpersist]
  simp
  rfl

end Persist

/-- **No finding is lost between the engine and the store.** The findings of a response differ in
resource or rule, and name resources of the request and known rules. The first uninterrupted run
of a job returns, and has stored as many findings and recommendations as the engine reports of
the inventory; that is also what it returns.
SRCLINE: services/diagnostics/app/main.py:42-53, services/diagnostics/app/engine.py:218-237,
apps/worker/src/processor.ts:82-154, packages/shared/src/db/models/finding.ts:19 -/
theorem no_finding_lost (numerals : PyNumerals) (json : List (String × PyVal) → JsonText) :
    (∀ request response, (request.resources.map (·.id)).Nodup →
      analyze numerals request = .ok response →
        (response.findings.map fun f => (f.resourceId, f.ruleId)).Nodup ∧
        ∀ finding ∈ response.findings, finding.resourceId ∈ request.resources.map (·.id) ∧
          finding.ruleId ∈ POLICY_RULE_IDS) ∧
    ∀ (db : Database) (workspaceId jobId correlationId : String)
      (resourceIds : Option (List String)) (resourceTypes : Option (List ResourceType))
      (draws : ℕ → RoundDraws), (∀ stored ∈ db.findings, stored.jobId ≠ jobId) →
      DrawnOnce draws → NotDrawnYet draws 0 db → ∃ response summary db',
        analyze numerals (analyzeRequest workspaceId correlationId
          (db.findInventory workspaceId resourceIds resourceTypes)) = .ok response ∧
        (run workspaceId jobId correlationId resourceIds resourceTypes
          (engineAnalysis numerals json workspaceId correlationId) draws).run database db =
            (.ok summary, db') ∧
        (db'.findings.filter (·.jobId == jobId)).length = response.findings.length ∧
        (db'.recommendations.filter (·.jobId == jobId)).length =
          (db.recommendations.filter (·.jobId == jobId)).length + response.findings.length ∧
        summary.findingsCreated = response.findings.length ∧
        summary.recommendationsCreated = response.findings.length := by
  constructor
  · intro request response hdistinct hresponse
    refine ⟨nodup_analyze hdistinct hresponse, fun finding hmem => ?_⟩
    obtain ⟨resource, hresource, p, hreports⟩ := analyze_reports hresponse finding hmem
    exact ⟨List.mem_map.mpr ⟨resource, hresource, hreports.resourceId.symm⟩,
      hreports.ruleId ▸ p.ruleId_mem⟩
  · intro db workspaceId jobId correlationId resourceIds resourceTypes draws hfirst hdrawn hunused
    obtain ⟨response, hresponse⟩ := analyze_inventory numerals workspaceId correlationId
      (db.findInventory workspaceId resourceIds resourceTypes)
    obtain ⟨db', hrun, hadded⟩ :=
      run_stores numerals json resourceIds resourceTypes hfirst hdrawn hunused hresponse
    obtain ⟨hfindings, hrecommendations⟩ := hadded.counts hfirst
    rw [List.length_map] at hfindings hrecommendations
    exact ⟨response, _, db', hresponse, hrun, hfindings, hrecommendations, rfl, rfl⟩

/-- A store with the bucket alone. -/
def assetsStore : Database := { bucketStore with findings := Collection.empty }

/-- A letter and a number of zeros. -/
def numbered (c : Char) (n : ℕ) : String := String.ofList (c :: List.replicate n '0')

/-- A new id for each round. -/
def assetsDraws (n : ℕ) : RoundDraws := ⟨n, numbered 'f' n, n, numbered 'r' n, n⟩

/-- Different rounds draw different identities. -/
theorem numbered_injective (c : Char) : Function.Injective (numbered c) := by
  intro n m h
  have hlist : c :: List.replicate n '0' = c :: List.replicate m '0' := String.ofList_injective h
  simpa using congrArg List.length hlist

/-- All findings about the assets are stored and counted. -/
theorem no_finding_lost_assets :
    ∃ response summary db',
      analyze ⟨fun _ => none, fun _ => none⟩
        (analyzeRequest "ws" "c-1" (assetsStore.findInventory "ws" none none)) = .ok response ∧
      (run "ws" "job-1" "c-1" none none
        (engineAnalysis ⟨fun _ => none, fun _ => none⟩ (fun _ => "\x7b\x7d") "ws" "c-1")
          assetsDraws).run database assetsStore = (.ok summary, db') ∧
      (response.findings.map fun f => (f.resourceId, f.ruleId)).Nodup ∧
      (db'.findings.filter (·.jobId == "job-1")).length = response.findings.length ∧
      summary.findingsCreated = response.findings.length ∧
      summary.recommendationsCreated = response.findings.length := by
  have hnone : ∀ stored, stored ∉ assetsStore.findings := Collection.not_mem_empty
  have hnone' : ∀ r, r ∉ assetsStore.recommendations := Collection.not_mem_empty
  obtain ⟨hresponses, hruns⟩ := no_finding_lost ⟨fun _ => none, fun _ => none⟩ fun _ => "\x7b\x7d"
  obtain ⟨response, summary, db', hresponse, hrun, hfindings, -, hcount, hcount'⟩ :=
    hruns assetsStore "ws" "job-1" "c-1" none none assetsDraws
      (fun stored hmem => absurd hmem (hnone stored))
      ⟨numbered_injective 'f', numbered_injective 'r'⟩
      ⟨fun stored hmem => absurd hmem (hnone stored), fun r hmem => absurd hmem (hnone' r),
        fun r hmem => absurd hmem (hnone' r)⟩
  exact ⟨response, summary, db', hresponse, hrun, (hresponses _ _ (by decide) hresponse).1,
    hfindings, hcount, hcount'⟩

end CloudOps.Analysis
