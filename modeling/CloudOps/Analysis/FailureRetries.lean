import CloudOps.Model.JobProcessor

/-!
# Failures and retries

The worker does not look at the `retryable` of an error: it looks for a text in its message.
`failure_follows_flag_iff` says when the two agree, for one call of `processNext` from the
claim to the end.
-/

set_option autoImplicit false

namespace CloudOps.Analysis

open CloudOps.Computation CloudOps.Model CloudOps.Model.JobProcessor

/-- The text the worker looks for. -/
def saysNotRetryable (err : AppError) : Bool := includes err.message "not retryable"

/-- A stored job that a claim hands out at an instant. -/
structure Claimable (db : Database) (jobId : String) (now : Time) (job : DiagnosticJob) : Prop where
  stored : db.jobs.get? jobId = some job
  matched : claimFilter now job = true

section Calls

variable {config : JobQueueConfig} {db : Database} {jobId workerId : String} {now : Time}
  {job : DiagnosticJob}

/-- The claim of a job that can be claimed. -/
theorem exec_claimJob (h : Claimable db jobId now job) :
    database.exec (.claimJob config workerId now jobId) db =
      (some (claimUpdate config workerId now job),
        { db with jobs := db.jobs.update jobId (claimUpdate config workerId now) }) := by
  have hclaim : JobQueue.claim config db.jobs workerId now jobId =
      some (db.jobs.update jobId (claimUpdate config workerId now)) := by
    simp [JobQueue.claim, h.stored, h.matched]
  have hget : (db.jobs.update jobId (claimUpdate config workerId now)).get? jobId =
      some (claimUpdate config workerId now job) := by
    rw [Collection.get?_update_self, h.stored]
    rfl
  simp only [database, DbOp.exec, hclaim, Option.bind_some, hget, Option.getD_some]

/-- A call and what follows it. -/
theorem run_call_bind {α : Type} (op : DbOp) (f : op.Reply → DbProg α) :
    ((Prog.call op .ret : DbProg op.Reply) >>= f).run database db =
      (f (database.exec op db).1).run database (database.exec op db).2 := rfl

/-- A program runs on from what its first call is known to give. -/
theorem run_call_of_exec {α : Type} {op : DbOp} {reply : op.Reply} {db' : Database}
    (h : database.exec op db = (reply, db')) (f : op.Reply → DbProg α) :
    ((Prog.call op .ret : DbProg op.Reply) >>= f).run database db =
      (f reply).run database db' := by
  rw [run_call_bind, h]

/-- `JobQueue.fail` on a stored job writes the failure.
SRCLINE: packages/shared/src/jobs/queue.ts:66-101 -/
theorem get?_run_fail {error : StructuredFailure} {random : ℚ} (h : db.jobs.get? jobId = some job) :
    (((fail config jobId error random now).run database db).2).jobs.get? jobId =
      some (failUpdate config ⟨jobId, job.attempts, job.maxAttempts, error⟩ random now job) := by
  have hrun : (fail config jobId error random now).run database db =
      (DiagnosticJobModel.fail config ⟨jobId, job.attempts, job.maxAttempts, error⟩ random
        now).run database db := by
    have hread : database.exec (.findJobById jobId) db = (some job, db) := Prod.ext h rfl
    exact run_call_of_exec hread _
  rw [hrun]
  change (database.exec (.failJob config ⟨jobId, job.attempts, job.maxAttempts, error⟩ random now)
    db).2.jobs.get? jobId = _
  simp only [database, DbOp.exec]
  rw [Collection.get?_update_self, h]
  rfl

end Calls

section ProcessNext

variable {config : JobQueueConfig}
  {analyze : List CloudResource → Except AppError DiagnosticEngineResult} {draws : AttemptDraws}
  {db : Database} {job : DiagnosticJob} {err : AppError}

/-- The write of `fail` for an attempt that has claimed the job. -/
def failCallOf (draws : AttemptDraws) (job : DiagnosticJob) (err : AppError) : FailCall where
  jobId := draws.jobId
  attempts := job.attempts + 1
  maxAttempts := job.maxAttempts
  error := failureOf err draws.failedAt

/-- **An attempt whose analysis fails**: the job is claimed, then the failure is written.
SRCLINE: apps/worker/src/processor.ts:24-80, packages/shared/src/jobs/queue.ts:66-101 -/
theorem run_processNext (hjob : Claimable db draws.jobId draws.claimedAt job)
    (herr : ∀ resources, analyze resources = .error err) :
    ((processNext config analyze draws).run database db).2.jobs.get? draws.jobId =
      some (failUpdate config (failCallOf draws job err) draws.random draws.failedAt
        (claimUpdate config draws.workerId draws.claimedAt job)) := by
  have hid : job.id = draws.jobId := (Collection.get?_eq_some_iff.mp hjob.stored).2
  let claimed : Database :=
    { db with
      jobs := db.jobs.update draws.jobId (claimUpdate config draws.workerId draws.claimedAt) }
  let job' : DiagnosticJob := claimUpdate config draws.workerId draws.claimedAt job
  have hclaimed : claimed.jobs.get? draws.jobId = some job' := by
    change (db.jobs.update _ _).get? draws.jobId = _
    rw [Collection.get?_update_self, hjob.stored]
    rfl
  have hprocess : ((processNext config analyze draws).run database db).2 =
      ((fail config draws.jobId (failureOf err draws.failedAt) draws.random draws.failedAt).run
        database claimed).2 := by
    have hcatch : (process analyze draws job').run database claimed = (.error err, claimed) := by
      unfold process
      rw [Prog.run_bind]
      have hrun : (run job'.workspaceId job'.id job'.correlationId job'.resourceIds
          job'.resourceTypes analyze draws.rounds).run database claimed =
        (.error err, claimed) := by
        refine (run_call_bind (.findInventory job'.workspaceId job'.resourceIds job'.resourceTypes)
          _).trans ?_
        rw [herr]
        rfl
      rw [hrun]
    have hclaim : (processNext config analyze draws).run database db = _ :=
      run_call_of_exec (exec_claimJob hjob) _
    rw [hclaim]
    dsimp only
    rw [Prog.run_handle, hcatch, show job'.id = draws.jobId from hid]
    dsimp only
    rw [Prog.run_bind]
    generalize (fail config draws.jobId (failureOf err draws.failedAt) draws.random
      draws.failedAt).run database claimed = outcome
    obtain ⟨result, store⟩ := outcome
    cases result with
    | ok job? => rfl
    | error e => rfl
  rw [hprocess]
  exact get?_run_fail hclaimed

/-- The job follows the flag of the error: a failure that may not be retried is dead-lettered as
such, one that may is retried while there are attempts left. -/
structure FollowsFlag (flag : Bool) (attempts maxAttempts : ℕ) (job : DiagnosticJob) : Prop where
  deadLettered : flag = false → job.status = .deadLettered ∧
    ∃ error, job.lastError = some error ∧ error.retryable = false
  retried : flag = true → attempts < maxAttempts → job.status = .retryWait

/-- **When failures follow their flag**: exactly when the message says so.
SRCLINE: apps/worker/src/processor.ts:53-67, packages/shared/src/jobs/queue.ts:66-101 -/
theorem failure_follows_flag_iff {flag : Bool}
    (hjob : Claimable db draws.jobId draws.claimedAt job)
    (herr : ∀ resources, analyze resources = .error err) (hflag : err.retryable = some flag) :
    (∃ job', ((processNext config analyze draws).run database db).2.jobs.get? draws.jobId =
        some job' ∧ FollowsFlag flag (job.attempts + 1) job.maxAttempts job') ↔
      ((err.retryable = some false → saysNotRetryable err = true) ∧
        (err.retryable = some true → job.attempts + 1 < job.maxAttempts →
          saysNotRetryable err = false)) := by
  rw [run_processNext hjob herr, hflag]
  simp only [Option.some.injEq]
  have hretryable : (failCallOf draws job err).error.retryable = !saysNotRetryable err := rfl
  have hattempts : (failCallOf draws job err).attempts = job.attempts + 1 := rfl
  have hmax : (failCallOf draws job err).maxAttempts = job.maxAttempts := rfl
  constructor
  · rintro ⟨job', rfl, hdead, hretried⟩
    refine ⟨fun hfalse => ?_, fun htrue hleft => ?_⟩
    · obtain ⟨-, error, herror, hnot⟩ := hdead hfalse
      have hsame : error = (failCallOf draws job err).error := by
        unfold failUpdate at herror
        split at herror <;> exact (Option.some.inj herror).symm
      rw [hsame, hretryable] at hnot
      simpa using hnot
    · have hwait := hretried htrue hleft
      unfold failUpdate at hwait
      split at hwait
      · cases hwait
      · next hgoes =>
        simp only [FailCall.deadLetters, hretryable, Bool.not_not, Bool.or_eq_true, not_or,
          Bool.not_eq_true] at hgoes
        exact hgoes.2
  · rintro ⟨hsaid, hsilent⟩
    refine ⟨_, rfl, fun hfalse => ?_, fun htrue hleft => ?_⟩
    · have hgoes : (failCallOf draws job err).deadLetters = true := by
        simp [FailCall.deadLetters, hretryable, hsaid hfalse]
      simp only [failUpdate, if_pos hgoes]
      exact ⟨trivial, _, rfl, by rw [hretryable, hsaid hfalse]; rfl⟩
    · have hgoes : (failCallOf draws job err).deadLetters = false := by
        simp [FailCall.deadLetters, hretryable, hsilent htrue hleft, hattempts, hmax, hleft]
      simp [failUpdate, hgoes]

end ProcessNext

/-! ## An answer with status 404 -/

/-- Failures of the diagnostics call follow their flag, whatever the job and the error are. -/
def FailuresFollowFlag (config : JobQueueConfig) : Prop :=
  ∀ (db : Database) (draws : AttemptDraws) (job : DiagnosticJob) (err : AppError) (flag : Bool)
    (analyze : List CloudResource → Except AppError DiagnosticEngineResult),
    Claimable db draws.jobId draws.claimedAt job → (∀ resources, analyze resources = .error err) →
    err.retryable = some flag →
      ∃ job', ((processNext config analyze draws).run database db).2.jobs.get? draws.jobId =
        some job' ∧ FollowsFlag flag (job.attempts + 1) job.maxAttempts job'

/-- A job with attempts left. -/
def freshJob : DiagnosticJob :=
  JobService.newJob ⟨3, 20000⟩ "job-1" "ws" "operator" "c-0" ⟨none, none, "job-key-1"⟩ 0

def freshStore : Database where
  jobs := ⟨[freshJob], by simp, by simp⟩
  resources := Collection.empty
  findings := Collection.empty
  recommendations := Collection.empty
  plans := Collection.empty
  tokens := Collection.empty
  executions := Collection.empty
  healthChecks := []
  audits := []

/-- One attempt of the job. -/
def attempt : AttemptDraws where
  workerId := "worker-1"
  jobId := "job-1"
  claimedAt := 0
  completedAt := 1
  failedAt := 1
  random := 0
  rounds := fun n => ⟨1, "f-" ++ toString n, 1, "rec-" ++ toString n, 1⟩

/-- The diagnostics service answers with 404, which the client marks as not retryable. -/
def notFoundAnswer (_ : List CloudResource) : Except AppError DiagnosticEngineResult :=
  (DiagnosticsClient.analyze (.new 5 15000) 0 1 (.answered 404 (.error ⟨"", ""⟩))).1

/-- The analysis answers every inventory with the same error. -/
theorem notFoundAnswer_eq (resources : List CloudResource) : notFoundAnswer resources =
    .error (.dependency "Diagnostics returned HTTP 404" false) := by
  have hmessage : "Diagnostics returned HTTP " ++ Nat.repr 404 =
      "Diagnostics returned HTTP 404" := by
    decide
  simp [notFoundAnswer, DiagnosticsClient.analyze, CircuitBreaker.exec,
    CircuitBreaker.maybeHalfOpen,
    CircuitBreaker.new, Exchange.result, ok, hmessage]

/-- The fresh job can be claimed. -/
theorem claimable_freshJob : Claimable freshStore attempt.jobId attempt.claimedAt freshJob :=
  ⟨rfl, by decide⟩

/-- A job whose analysis was answered with 404 is retried.
SRCLINE: packages/shared/src/diagnostics/client.ts:58-63, apps/worker/src/processor.ts:53-55 -/
theorem failures_do_not_follow_flag : ¬ FailuresFollowFlag ⟨30000, 3, 10, 20⟩ := by
  intro h
  have hfollows := (failure_follows_flag_iff claimable_freshJob notFoundAnswer_eq rfl).mp
    (h freshStore attempt freshJob _ false notFoundAnswer claimable_freshJob notFoundAnswer_eq rfl)
  have hsaid := hfollows.1 rfl
  revert hsaid
  decide

/-- A failure that may be retried is, with attempts left. -/
theorem failure_follows_flag_unavailable : ∃ job',
    ((processNext ⟨30000, 3, 10, 20⟩ (fun _ => .error (.dependency "Diagnostics returned HTTP 503"
      true)) attempt).run database freshStore).2.jobs.get? attempt.jobId = some job' ∧
      FollowsFlag true 1 3 job' :=
  (failure_follows_flag_iff claimable_freshJob (fun _ => rfl) rfl).mpr
    ⟨fun h => absurd h (by decide), fun _ _ => by decide⟩

end CloudOps.Analysis
