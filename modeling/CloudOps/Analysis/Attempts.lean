import CloudOps.Analysis.JobRuns
import CloudOps.Model.Worker

/-!
# One attempt of a worker

An attempt claims, works on the job it is handed, and gives that job back, completed or
failed, however its `try` is cut short (`attempt_emits`). `AttemptWork` lists its calls after
the claim.
-/

set_option autoImplicit false

namespace CloudOps.Analysis

open CloudOps.Computation CloudOps.Model CloudOps.Model.JobProcessor

/-- A call that hands out a job. -/
def isClaim : DbOp → Bool
  | .claimJob .. => true
  | _ => false

/-- A call that neither writes a job nor reads one that it may write. -/
def apartFromJobs : DbOp → Bool
  | .createJob .. | .saveJob .. | .claimJob .. | .heartbeatJob .. | .completeJob .. | .failJob ..
  | .recoverAbandoned .. | .findJobById .. | .findJob .. => false
  | _ => true

/-- The job that a call completes or fails. -/
def givesBack? : DbOp → Option String
  | .completeJob jobId _ _ => some jobId
  | .failJob _ call _ _ => some call.jobId
  | _ => none

/-- A program has completed or failed a job. -/
def GaveBack (past : Past) (jobId : String) : Prop := ∃ ev ∈ past, givesBack? ev.op = some jobId

/-- A program has looked for a job to fail, and it was not there. -/
def Missed (past : Past) (jobId : String) : Prop :=
  ∃ before, ⟨.findJobById jobId, before⟩ ∈ past ∧ before.jobs.get? jobId = none

/-- The calls of an attempt for the job it has been handed. A failure is written right after the
job has been read. -/
inductive AttemptWork (config : JobQueueConfig) (job : DiagnosticJob) (past : Past) : DbOp → Prop
  | apart (op : DbOp) (hop : apartFromJobs op = true) : AttemptWork config job past op
  | complete (summary : JobResultSummary) (now : Time) :
      AttemptWork config job past (.completeJob job.id summary now)
  | read : AttemptWork config job past (.findJobById job.id)
  | fail (older : Past) (before : Database) (stored : DiagnosticJob) (error : StructuredFailure)
      (random : ℚ) (now : Time) (hpast : past = older ++ [⟨.findJobById job.id, before⟩])
      (hstored : before.jobs.get? job.id = some stored) : AttemptWork config job past
        (.failJob config ⟨job.id, stored.attempts, stored.maxAttempts, error⟩ random now)

section Programs

variable {config : JobQueueConfig}
  {analyze : List CloudResource → Except AppError DiagnosticEngineResult} {draws : AttemptDraws}
  {job : DiagnosticJob} {past : Past} {op : DbOp}

/-- What an attempt does after its claim is no claim. -/
theorem AttemptWork.not_claim (h : AttemptWork config job past op) : isClaim op = false := by
  cases h with
  | apart op hop =>
      cases op with
      | claimJob config workerId now jobId => cases hop
      | _ => rfl
  | _ => rfl

/-- A run of the processor touches no job. -/
theorem RunStage.apart {workspaceId jobId : String} {rounds : ℕ → RoundDraws}
    (h : RunStage workspaceId jobId analyze rounds past op) : apartFromJobs op = true := by
  cases h <;> rfl

/-- The `try` of an attempt gives the job back when it comes to its end.
SRCLINE: apps/worker/src/processor.ts:32-44 -/
theorem process_emits (hpast : upsertKeys past = []) :
    (JobProcessor.process analyze draws job).Emits database (AttemptWork config job)
      (fun past result => ∀ u, result = .ok u → GaveBack past job.id) past := by
  unfold JobProcessor.process
  refine Prog.Emits.bind ((run_emits hpast).mono (fun past op hstage => ?_) ?_)
  · exact .apart op hstage.apart
  · intro past' outcome _
    cases outcome with
    | error err => exact fun u hu => nomatch hu
    | ok summary =>
        refine ⟨.complete summary draws.completedAt, fun before u _ =>
          ⟨⟨.completeJob job.id summary draws.completedAt, before⟩, by simp, rfl⟩⟩

/-- The `catch` of an attempt gives the job back, if it is still there.
SRCLINE: apps/worker/src/processor.ts:53-62, packages/shared/src/jobs/queue.ts:66-101 -/
theorem fail_gives_back {error : StructuredFailure} {random : ℚ} {now : Time} :
    (JobProcessor.fail config job.id error random now).Emits database
      (AttemptWork config job)
      (fun past result => (∃ job?, result = .ok job?) ∧ (GaveBack past job.id ∨ Missed past job.id))
      past := by
  refine emits_call .read fun before job? hread => ?_
  cases job? with
  | none => exact ⟨⟨none, rfl⟩, Or.inr ⟨before, by simp, hread⟩⟩
  | some stored =>
      let call : FailCall := ⟨job.id, stored.attempts, stored.maxAttempts, error⟩
      refine ⟨.fail past before stored error random now rfl hread, fun before' => ⟨⟨_, rfl⟩,
        Or.inl ⟨⟨.failJob config call random now, before'⟩, ?_, rfl⟩⟩⟩
      exact List.mem_append_right _ List.mem_cons_self

end Programs

/-- The first call of an attempt. -/
def attemptClaim (a : Attempt) : DbOp :=
  .claimJob a.config a.draws.workerId a.draws.claimedAt a.draws.jobId

/-- What an attempt has been handed, and nothing since. -/
def Handed (a : Attempt) (past : Past) (job? : Option DiagnosticJob) : Prop :=
  ∃ before rest, past = ⟨attemptClaim a, before⟩ :: rest ∧
    (database.exec (attemptClaim a) before).1 = job? ∧ ∀ ev ∈ rest, isClaim ev.op = false

/-- The calls of an attempt, each with what came before it. -/
inductive AttemptCalls (a : Attempt) : Past → DbOp → Prop
  | claim : AttemptCalls a [] (attemptClaim a)
  | work (past : Past) (op : DbOp) (job : DiagnosticJob) (hhanded : Handed a past (some job))
      (hop : AttemptWork a.config job past op) : AttemptCalls a past op

/-- How an attempt ends: it returns whether it has been handed a job, and has given it back. -/
def AttemptEnds (a : Attempt) (past : Past) (result : Except AppError Bool) : Prop :=
  ∃ job?, Handed a past job? ∧ result = .ok job?.isSome ∧
    ∀ job, job? = some job → GaveBack past job.id ∨ Missed past job.id

/-- **An attempt gives back what it is handed**, wherever its `try` is cut short.
SRCLINE: apps/worker/src/processor.ts:24-80 -/
theorem attempt_emits (a : Attempt) :
    a.program.Emits database (AttemptCalls a) (AttemptEnds a) [] := by
  refine emits_call (AttemptCalls.claim (a := a)) fun before job? hreply => ?_
  cases job? with
  | none => exact ⟨none, ⟨before, [], rfl, hreply, by simp⟩, rfl, by simp⟩
  | some job =>
    have hhanded : Handed a [⟨attemptClaim a, before⟩] (some job) :=
      ⟨before, [], rfl, hreply, by simp⟩
    have hkeep : ∀ past op before', Handed a past (some job) → AttemptWork a.config job past op →
        Handed a (past ++ [⟨op, before'⟩]) (some job) := by
      rintro past op before' ⟨first, rest, rfl, hjob, hrest⟩ hop
      refine ⟨first, rest ++ [⟨op, before'⟩], rfl, hjob, fun ev hev => ?_⟩
      rcases List.mem_append.mp hev with hold | hnew
      · exact hrest ev hold
      · rw [List.mem_singleton.mp hnew]
        exact hop.not_claim
    have hcalls : ∀ past op, AttemptWork a.config job past op ∧ Handed a past (some job) →
        AttemptCalls a past op := fun past op h => .work past op job h.2 h.1
    refine Prog.Emits.handle (Prog.Emits.mono (Prog.Emits.carry (Prog.Emits.interrupted
      (process_emits rfl) fun error past u hu => nomatch hu) hhanded hkeep) hcalls ?_)
    rintro past outcome ⟨hends, hhanded'⟩
    cases outcome with
    | ok u =>
        exact ⟨some job, hhanded', rfl, fun _ hsame => Option.some.inj hsame ▸ Or.inl (hends u rfl)⟩
    | error err =>
        refine Prog.Emits.bind (Prog.Emits.mono (Prog.Emits.carry fail_gives_back hhanded' hkeep)
          hcalls ?_)
        rintro past' result ⟨⟨⟨failed?, rfl⟩, hback⟩, hhanded''⟩
        exact ⟨some job, hhanded'', rfl, fun _ hsame => Option.some.inj hsame ▸ hback⟩

end CloudOps.Analysis
