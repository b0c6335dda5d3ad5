import CloudOps.Analysis.JobRuns

/-!
# Processing a job again

Runs of the processor on one job, with one analysis, in any interleaving and each cut off
anywhere: once one of them has returned, findings and recommendations are those of the
analysis (`reprocessing_idempotent`). The invariant is about what is stored, not about who
stored it, so a run that goes on after it was given up does no harm.
-/

set_option autoImplicit false

namespace CloudOps.Analysis

open CloudOps.Computation CloudOps.Model CloudOps.Model.JobProcessor

/-- What a run of the processor is given beside the job. -/
structure RunCall where
  correlationId : String
  resourceIds : Option (List String)
  resourceTypes : Option (List ResourceType)
  analyze : List CloudResource → Except AppError DiagnosticEngineResult
  draws : ℕ → RoundDraws

def RunCall.program (c : RunCall) (workspaceId jobId : String) : DbProg JobResultSummary :=
  run workspaceId jobId c.correlationId c.resourceIds c.resourceTypes c.analyze c.draws

/-- Runs of the processor in flight on the database. -/
abbrev RunPool : Type := Pool DbOp DbOp.Reply Database AppError JobResultSummary

/-- The machine that interleaves them at their database calls; a write may fail. -/
abbrev jobRuns : Machine RunPool PoolEvent := Pool.machine database faults

/-- Runs on one job, none of which has begun. -/
def process (workspaceId jobId : String) (db : Database) (runs : ℕ → RunCall) : RunPool :=
  Pool.initial db fun q => (runs q).program workspaceId jobId

section Invariant

variable (workspaceId jobId : String) (analysis : List EngineFinding) (drawn : String → Prop)

/-- What the calls of these runs find in the store: a recommendation is written for a finding of
the job that is stored. -/
inductive Grounded (before : Database) : DbOp → Prop
  | read (op : DbOp) (hop : op.writes = false) : Grounded before op
  | finding (correlationId : String) (finding : EngineFinding) (now : Time) (newId : String)
      (hfinding : finding ∈ analysis) (hdrawn : drawn newId) :
      Grounded before (.upsertFinding workspaceId jobId correlationId finding now newId)
  | recommendation (correlationId id : String) (finding : EngineFinding) (now : Time)
      (newId : String) (hfinding : finding ∈ analysis)
      (hstored : ∃ stored ∈ before.findings, stored.id = id ∧
        keyOf stored = keyFor workspaceId jobId finding) :
      Grounded before (.upsertRecommendation workspaceId jobId correlationId id finding now newId)
  | health (check : HealthCheck) : Grounded before (.createHealthCheck check)

/-- What is stored for the job comes from its analysis. -/
structure FromAnalysis (db : Database) : Prop where
  findings : ∀ stored ∈ db.findings, stored.jobId = jobId →
    stored.workspaceId = workspaceId ∧ ∃ finding ∈ analysis, Carries finding stored
  recommendations : ∀ r ∈ db.recommendations, ∀ stored ∈ db.findings, stored.jobId = jobId →
    r.findingId = stored.id → r.workspaceId = workspaceId ∧
      ∃ finding ∈ analysis, keyOf stored = keyFor workspaceId jobId finding ∧ Advises finding r
  known : ∀ r ∈ db.recommendations, (∀ id, drawn id → r.findingId ≠ id) ∨
    ∃ stored ∈ db.findings, stored.id = r.findingId

variable {workspaceId jobId analysis drawn} {db : Database} {op : DbOp}

/-- A read leaves the database as it is. -/
theorem exec_read (hop : op.writes = false) : (op.exec db).2 = db := by
  cases op <;> first | rfl | cases hop

/-- The upsert of a finding keeps to the analysis.
SRCLINE: apps/worker/src/processor.ts:110-124 -/
theorem FromAnalysis.upsertFinding {correlationId newId : String} {finding : EngineFinding}
    {now : Time} (h : FromAnalysis workspaceId jobId analysis drawn db)
    (hfinding : finding ∈ analysis) (hdrawn : drawn newId) :
    FromAnalysis workspaceId jobId analysis drawn
      ((DbOp.upsertFinding workspaceId jobId correlationId finding now newId).exec db).2 where
  findings := by
    intro stored hmem hjob
    rcases mem_findings_exec hmem with hold | ⟨_, _, _, _, _, _, hop, hkey, hcarries, -⟩
    · exact h.findings stored hold hjob
    · cases hop
      exact ⟨congrArg (·.1) hkey, finding, hfinding, hcarries⟩
  recommendations := by
    intro r hr stored hmem hjob hid
    rcases mem_findings_exec hmem with hold | ⟨_, _, _, _, _, _, hop, -, -, hfrom⟩
    · exact h.recommendations r hr stored hold hjob hid
    · cases hop
      rcases hfrom with ⟨old, hold, holdId, hkey⟩ | ⟨hnew, hfree⟩
      · have holdJob : old.jobId = jobId := (congrArg (·.2.1) hkey).trans hjob
        obtain ⟨hws, f, hf, hfkey, hadvises⟩ :=
          h.recommendations r hr old hold holdJob (hid.trans holdId.symm)
        exact ⟨hws, f, hf, hkey.symm.trans hfkey, hadvises⟩
      · -- no recommendation is stored for a finding that was not there
        rcases h.known r hr with hnot | ⟨old, hold, holdId⟩
        · exact absurd (hid.trans hnew) (hnot _ hdrawn)
        · exact absurd (holdId.trans (hid.trans hnew)) (hfree old hold).1
  known := by
    intro r hr
    rcases h.known r hr with hnot | ⟨old, hold, holdId⟩
    · exact Or.inl hnot
    · obtain ⟨stored, hmem, hid, -⟩ := findings_stay (.upsertFinding workspaceId jobId
        correlationId finding now newId) hold
      exact Or.inr ⟨stored, hmem, hid.trans holdId⟩

/-- The upsert of a recommendation keeps to the analysis.
SRCLINE: apps/worker/src/processor.ts:125-140 -/
theorem FromAnalysis.upsertRecommendation {correlationId id newId : String}
    {finding : EngineFinding} {now : Time}
    (h : FromAnalysis workspaceId jobId analysis drawn db) (hfinding : finding ∈ analysis)
    (hstored : ∃ stored ∈ db.findings, stored.id = id ∧
      keyOf stored = keyFor workspaceId jobId finding) :
    FromAnalysis workspaceId jobId analysis drawn
      ((DbOp.upsertRecommendation workspaceId jobId correlationId id finding now newId).exec
        db).2 where
  findings := h.findings
  recommendations := by
    intro r hr stored hmem hjob hid
    rcases mem_recommendations_exec hr with hold |
      ⟨_, _, _, _, _, _, _, hop, hws, hrid, -, hadvises⟩
    · exact h.recommendations r hold stored hmem hjob hid
    · cases hop
      obtain ⟨found, hfound, hfoundId, hkey⟩ := hstored
      obtain rfl : stored = found :=
        Collection.eq_of_id hmem hfound (hid.symm.trans (hrid.trans hfoundId.symm))
      exact ⟨hws, finding, hfinding, hkey, hadvises⟩
  known := by
    intro r hr
    rcases mem_recommendations_exec hr with hold | ⟨_, _, _, _, _, _, _, hop, -, hrid, -, -⟩
    · exact h.known r hold
    · cases hop
      obtain ⟨found, hfound, hfoundId, -⟩ := hstored
      exact Or.inr ⟨found, hfound, hfoundId.trans hrid.symm⟩

/-- **One call keeps what is stored to the analysis.** -/
theorem FromAnalysis.exec (h : FromAnalysis workspaceId jobId analysis drawn db)
    (hop : Grounded workspaceId jobId analysis drawn db op) :
    FromAnalysis workspaceId jobId analysis drawn (op.exec db).2 := by
  cases hop with
  | read _ hop => rw [exec_read hop]; exact h
  | finding correlationId finding now newId hfinding hdrawn =>
      exact h.upsertFinding hfinding hdrawn
  | recommendation correlationId id finding now newId hfinding hstored =>
      exact h.upsertRecommendation hfinding hstored
  | health check => exact { h with }

end Invariant

section Runs

variable {workspaceId jobId : String} {db : Database} {runs : ℕ → RunCall} {s : RunPool}
  {analysis : List EngineFinding} {G : RunPool → PoolEvent → Prop}

/-- The ids drawn for new findings. -/
def drawnIds (runs : ℕ → RunCall) (id : String) : Prop :=
  ∃ q n, id = ((runs q).draws n).newFindingId

/-- The finding a call writes, or writes a recommendation for. -/
def writtenFor? : DbOp → Option EngineFinding
  | .upsertFinding _ _ _ finding _ _ => some finding
  | .upsertRecommendation _ _ _ _ finding _ _ => some finding
  | _ => none

/-- What a run writes is from its analysis. -/
theorem analysed_of_reaches
    (hs : jobRuns.Reaches G (process workspaceId jobId db runs) s) {q : ℕ}
    {ev : Event DbOp Database} (hev : (q, ev) ∈ s.history) {finding : EngineFinding}
    (hfinding : writtenFor? ev.op = some finding) :
    ∃ resources result, (runs q).analyze resources = .ok result ∧ finding ∈ result.findings := by
  obtain ⟨older, newer, hhist⟩ := List.append_of_mem hev
  have hstage := (Pool.conforms_of_reaches (fun q => run_emits upsertKeys_nil) hs q).emitted_at
    hhist
  obtain ⟨op, before⟩ := ev
  cases hstage with
  | inventory ids types => cases hfinding
  | finding correlationId f now n hanalysis => cases hfinding; exact hanalysis
  | recommendation correlationId id f now newId hanalysis _ => cases hfinding; exact hanalysis
  | health check => cases hfinding

/-- **Every call of a run is grounded**, whatever the other runs do. -/
theorem grounded_of_reaches
    (hs : jobRuns.Reaches G (process workspaceId jobId db runs) s)
    (hanalysis : ∀ q ev, (q, ev) ∈ s.history → ∀ finding, writtenFor? ev.op = some finding →
      finding ∈ analysis) (q : ℕ) (ev : Event DbOp Database) (hev : (q, ev) ∈ s.history) :
    Grounded workspaceId jobId analysis (drawnIds runs) ev.before ev.op := by
  obtain ⟨older, newer, hhist⟩ := List.append_of_mem hev
  have hstage := (Pool.conforms_of_reaches (fun q => run_emits upsertKeys_nil) hs q).emitted_at
    hhist
  have hchained := Pool.chained_of_reaches hs
  rw [hhist] at hchained
  have hfrom := hanalysis q ev hev
  obtain ⟨op, before⟩ := ev
  cases hstage with
  | inventory ids types => exact .read _ rfl
  | finding correlationId finding now n _ =>
      exact .finding correlationId finding now _ (hfrom finding rfl) ⟨q, n, rfl⟩
  | recommendation correlationId id finding now newId _ hwrote =>
      exact .recommendation correlationId id finding now newId (hfrom finding rfl)
        (hwrote.stored hchained.split.1)
  | health check => exact .health check

/-- **What is stored for a job comes from what its runs have written**, if nothing was stored for
it before. -/
theorem fromAnalysis_of_reaches
    (hs : jobRuns.Reaches G (process workspaceId jobId db runs) s)
    (hanalysis : ∀ q ev, (q, ev) ∈ s.history → ∀ finding, writtenFor? ev.op = some finding →
      finding ∈ analysis)
    (hfirst : ∀ stored ∈ db.findings, stored.jobId ≠ jobId)
    (hids : ∀ r ∈ db.recommendations, ∀ q n, r.findingId ≠ ((runs q).draws n).newFindingId) :
    FromAnalysis workspaceId jobId analysis (drawnIds runs) s.store := by
  have hle := (Pool.chained_of_reaches hs).le (R := fun db db' =>
    FromAnalysis workspaceId jobId analysis (drawnIds runs) db →
      FromAnalysis workspaceId jobId analysis (drawnIds runs) db') (fun _ h => h)
    (fun _ _ _ h h' hd => h' (h hd)) fun q ev hev h =>
      h.exec (grounded_of_reaches hs hanalysis q ev hev)
  refine hle.1 ⟨fun stored hmem hjob => absurd hjob (hfirst stored hmem),
    fun _ _ stored hmem hjob _ => absurd hjob (hfirst stored hmem), fun r hr => Or.inl ?_⟩
  rintro id ⟨q, n, rfl⟩
  exact hids r hr q n

/-- What is stored for the job is what the analysis says. -/
structure Reprocessed (jobId : String) (analysis : List EngineFinding) (db : Database) : Prop where
  stored : ∀ finding ∈ analysis, ∃! stored, stored ∈ db.findings ∧ stored.jobId = jobId ∧
    Carries finding stored
  analysed : ∀ stored ∈ db.findings, stored.jobId = jobId →
    ∃! finding, finding ∈ analysis ∧ Carries finding stored
  recommended : ∀ finding ∈ analysis, ∀ stored ∈ db.findings, stored.jobId = jobId →
    Carries finding stored → ∃ r ∈ db.recommendations, r.findingId = stored.id ∧
      Advises finding r ∧ ∀ r' ∈ db.recommendations, r'.findingId = stored.id → r' = r

/-- **Processing a job again changes nothing**: once one of any number of runs with one analysis
has returned, in whatever way they were interleaved and cut off, findings and recommendations
of the job are those of the analysis.
SRCLINE: apps/worker/src/processor.ts:82-154, packages/shared/src/db/models/finding.ts:19,
packages/shared/src/db/models/recommendation.ts:18 -/
theorem reprocessing_idempotent
    (hdistinct : (analysis.map fun f => (f.resourceId, f.ruleId)).Nodup)
    (hanalysis : ∀ q resources result, (runs q).analyze resources = .ok result →
      result.findings = analysis)
    (hfirst : ∀ stored ∈ db.findings, stored.jobId ≠ jobId)
    (hids : ∀ r ∈ db.recommendations, ∀ q n, r.findingId ≠ ((runs q).draws n).newFindingId)
    (hs : jobRuns.Reaches G (process workspaceId jobId db runs) s)
    (hended : ∃ q summary, s.procs q = .ret summary) :
    Reprocessed jobId analysis s.store := by
  have hchained := Pool.chained_of_reaches hs
  have hwritten : ∀ q ev, (q, ev) ∈ s.history → ∀ finding, writtenFor? ev.op = some finding →
      finding ∈ analysis := by
    intro q ev hev finding hfinding
    obtain ⟨resources, result, hresult, hmem⟩ := analysed_of_reaches hs hev hfinding
    rw [← hanalysis q resources result hresult]
    exact hmem
  have hinv : FromAnalysis workspaceId jobId analysis (drawnIds runs) s.store :=
    fromAnalysis_of_reaches hs hwritten hfirst hids
  -- a pair of the analysis belongs to one finding of it
  have hpair : ∀ f ∈ analysis, ∀ f' ∈ analysis, f.resourceId = f'.resourceId →
      f.ruleId = f'.ruleId → f = f' := fun f hf f' hf' hresource hrule =>
    List.inj_on_of_nodup_map hdistinct hf hf' (Prod.ext hresource hrule)
  obtain ⟨q, summary, hq⟩ := hended
  have hends := (Pool.conforms_of_reaches (fun q => run_emits upsertKeys_nil) hs q).emits
  rw [hq] at hends
  have hprocessed : ∃ result, Processed workspaceId jobId (runs q).analyze (own q s.history)
      result := by
    rcases hends with hend | hstopped
    · obtain ⟨result, hprocessed, -⟩ := hend
      exact ⟨result, hprocessed⟩
    · cases hstopped
  obtain ⟨result, hprocessed⟩ := hprocessed
  obtain ⟨resources, hresult⟩ := hprocessed.analysis
  have hall := hanalysis q resources result hresult
  have hwrote : ∀ f ∈ analysis, ∃ stored ∈ s.store.findings, stored.jobId = jobId ∧
      Carries f stored ∧ ∃ r ∈ s.store.recommendations, r.findingId = stored.id := by
    intro f hf
    obtain ⟨id, hfinding, hrecommendation⟩ := hprocessed.wrote f (hall ▸ hf)
    obtain ⟨stored, hmem, hid, hkey⟩ := hfinding.stored hchained
    obtain ⟨r, hr, -, hrid⟩ := hrecommendation.stored hchained
    have hjob : stored.jobId = jobId := congrArg (·.2.1) hkey
    obtain ⟨-, f', hf', hcarries⟩ := hinv.findings stored hmem hjob
    obtain rfl : f' = f := hpair f' hf' f hf
      (hcarries.resourceId.symm.trans (congrArg (·.2.2.1) hkey))
      (hcarries.ruleId.symm.trans (congrArg (·.2.2.2) hkey))
    exact ⟨stored, hmem, hjob, hcarries, r, hr, hrid.trans hid.symm⟩
  have hsame : ∀ f, ∀ stored ∈ s.store.findings, stored.jobId = jobId → Carries f stored →
      ∀ stored' ∈ s.store.findings, stored'.jobId = jobId → Carries f stored' →
        stored' = stored := by
    intro f stored hmem hjob hcarries stored' hmem' hjob' hcarries'
    refine eq_of_key hmem' hmem ?_
    simp only [keyOf, (hinv.findings stored hmem hjob).1, (hinv.findings stored' hmem' hjob').1,
      hjob, hjob', hcarries.resourceId, hcarries.ruleId, hcarries'.resourceId, hcarries'.ruleId]
  refine ⟨fun f hf => ?_, fun stored hmem hjob => ?_, fun f hf stored hmem hjob hcarries => ?_⟩
  · obtain ⟨stored, hmem, hjob, hcarries, -⟩ := hwrote f hf
    exact ⟨stored, ⟨hmem, hjob, hcarries⟩, fun stored' h =>
      hsame f stored hmem hjob hcarries stored' h.1 h.2.1 h.2.2⟩
  · obtain ⟨-, f, hf, hcarries⟩ := hinv.findings stored hmem hjob
    exact ⟨f, ⟨hf, hcarries⟩, fun f' h => hpair f' h.1 f hf
      (h.2.resourceId.symm.trans hcarries.resourceId) (h.2.ruleId.symm.trans hcarries.ruleId)⟩
  · obtain ⟨stored', hmem', hjob', hcarries', r, hr, hrid⟩ := hwrote f hf
    obtain rfl := hsame f stored hmem hjob hcarries stored' hmem' hjob' hcarries'
    obtain ⟨hws, f', hf', hkey, hadvises⟩ := hinv.recommendations r hr stored' hmem hjob hrid
    obtain rfl : f = f' := hpair f hf f' hf'
      (hcarries.resourceId.symm.trans (congrArg (·.2.2.1) hkey))
      (hcarries.ruleId.symm.trans (congrArg (·.2.2.2) hkey))
    refine ⟨r, hr, hrid, hadvises, fun r' hr' hrid' => ?_⟩
    obtain ⟨hws', -⟩ := hinv.recommendations r' hr' stored' hmem hjob hrid'
    exact Collection.eq_of_index hr' hr (Prod.ext (hws'.trans hws.symm) (hrid'.trans hrid.symm))

end Runs

/-! ## A run that is cut off while another goes on -/

/-- Two findings about one bucket. -/
def bucketAnalysis : List EngineFinding :=
  [⟨"r-1", "s3.public_access", "high", "Public bucket", "", "\x7b\x7d",
      ⟨.restrictPublicStorage, "Block public access", "No public reads", 9 / 10⟩⟩,
    ⟨"r-1", "resource.missing_tags", "low", "Missing tags", "", "\x7b\x7d",
      ⟨.addMissingTag, "Add the tag", "Costs can be allocated", 1 / 2⟩⟩]

/-- Runs with this analysis and with ids and clocks of their own. -/
def bucketRuns (q : ℕ) : RunCall :=
  ⟨"c-job", none, none, fun _ => .ok ⟨bucketAnalysis⟩,
    fun n => ⟨q, String.ofList (List.replicate (10 * q + n) 'f'), q,
      String.ofList (List.replicate (10 * q + n) 'r'), q⟩⟩

/-- Run 0 writes its first finding, run 1 goes all the way, and in between run 0 writes one
recommendation, its last call. -/
def cutOff : List PoolEvent := [0, 0, 1, 1, 1, 1, 0, 1, 1, 1].map .run

/-- The pool after these steps. -/
def cutOffPool : RunPool :=
  (jobRuns.run (process "ws" "job-1" .empty bucketRuns) cutOff).get (by decide +kernel)

/-- The run has returned. -/
def hasReturned : DbProg JobResultSummary → Bool
  | .ret _ => true
  | _ => false

/-- Two runs, one of them cut off, leave the findings of the analysis. -/
theorem reprocessing_idempotent_cutOff : Reprocessed "job-1" bucketAnalysis cutOffPool.store := by
  have hs : jobRuns.Reaches Machine.unguarded (process "ws" "job-1" .empty bucketRuns) cutOffPool :=
    Machine.reaches_of_run cutOff (Option.some_get _).symm
  refine reprocessing_idempotent (by decide) ?_ ?_ ?_ hs ?_
  · intro q resources result hresult
    cases hresult
    rfl
  · exact fun stored hmem => absurd hmem (Collection.not_mem_empty stored)
  · exact fun r hmem => absurd hmem (Collection.not_mem_empty r)
  · have hreturned : hasReturned (cutOffPool.procs 1) = true := by decide +kernel
    cases hq : cutOffPool.procs 1 with
    | ret summary => exact ⟨1, summary, hq⟩
    | throw e => rw [hq] at hreturned; cases hreturned
    | call op k => rw [hq] at hreturned; cases hreturned

end CloudOps.Analysis
