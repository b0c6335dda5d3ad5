import CloudOps.Analysis.RequestStages
import CloudOps.Model.JobProcessor
import CloudOps.Model.JobService

/-!
# The stages of a retry and of a failure

`retry` reads a job, saves it and records the audit event; a failure reads the job and writes
what becomes of it. Each call is listed here with what came before it; what follows for other
programs among which they run is read off these stages.
-/

set_option autoImplicit false

namespace CloudOps.Analysis

open CloudOps.Computation CloudOps.Model

section Jobs

variable {workspaceId id actorId correlationId jobId : String} {now auditedAt : Time}
  {config : JobQueueConfig} {error : StructuredFailure} {random : ℚ} {past : Past}

/-- The calls of `retry`, each with what came before it. -/
inductive RetryStage (workspaceId id : String) (now : Time) : Past → DbOp → Prop
  | lookUp : RetryStage workspaceId id now [] (.findJob id workspaceId)
  | save (found : Database) (job : DiagnosticJob) (hjob : found.findJob id workspaceId = some job)
      (hstatus : retryable job.status = true) :
      RetryStage workspaceId id now [⟨.findJob id workspaceId, found⟩] (.saveJob ⟨job, now⟩)
  | audit (past : Past) (event : AuditEvent) :
      RetryStage workspaceId id now past (.recordAudit event)

/-- **A retry reads the job it saves**, finds it failed or dead-lettered, and has only read when
it is rejected.
SRCLINE: apps/api/src/services/job-service.ts:81-104 -/
theorem retry_emits : (JobService.retry workspaceId id actorId correlationId now auditedAt).Emits
    database (RetryStage workspaceId id now) RejectsUnwritten [] := by
  refine emits_call .lookUp fun found job? hjob => ?_
  cases job? with
  | none => exact rejectsUnwritten_of_writes rfl
  | some job =>
    by_cases hstatus : retryable job.status = true
    · simp only [hstatus, Bool.not_true, Bool.false_eq_true, if_false]
      refine emits_call (.save found job hjob hstatus) fun _ _ _ => ?_
      exact emits_call (.audit _ _) fun _ _ _ => rejectsUnwritten_ok _
    · simp only [hstatus, Bool.not_false, if_true]
      exact rejectsUnwritten_of_writes rfl

/-- The calls of a failure. -/
inductive FailStage (config : JobQueueConfig) (jobId : String) (error : StructuredFailure)
    (random : ℚ) (now : Time) : DbOp → Prop
  | lookUp : FailStage config jobId error random now (.findJobById jobId)
  | fail (attempts maxAttempts : ℕ) : FailStage config jobId error random now
      (.failJob config ⟨jobId, attempts, maxAttempts, error⟩ random now)

/-- A failure is read, then written.
SRCLINE: packages/shared/src/jobs/queue.ts:66-101 -/
theorem fail_emits : (JobProcessor.fail config jobId error random now).Emits database
    (fun _ => FailStage config jobId error random now) (fun _ _ => True) past := by
  refine emits_call .lookUp fun before job? _ => ?_
  cases job? with
  | none => trivial
  | some job => exact ⟨.fail job.attempts job.maxAttempts, fun _ => trivial⟩

end Jobs

end CloudOps.Analysis
