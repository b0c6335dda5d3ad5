import CloudOps.Analysis.FailureRetries
import CloudOps.Analysis.JobStages
import CloudOps.Analysis.ServiceRuns

/-!
# What a manual retry finds when it saves

`retry` tests the status of the copy it has read and saves later. `saves_find_halted` says
which calls in between can make its save land on a job that is not failed: another retry's
save, a completion, and a failure that is to be tried again.
-/

set_option autoImplicit false

namespace CloudOps.Analysis

open CloudOps.Computation CloudOps.Model

/-- The calls of operators and workers on jobs that are there. -/
inductive JobCall
  | retry (workspaceId id actorId correlationId : String) (now auditedAt : Time)
  | claim (config : JobQueueConfig) (workerId : String) (now : Time) (jobId : String)
  | heartbeat (config : JobQueueConfig) (jobId workerId : String) (now : Time)
  | complete (jobId : String) (summary : JobResultSummary) (now : Time)
  | fail (config : JobQueueConfig) (jobId : String) (error : StructuredFailure) (random : ℚ)
      (now : Time)
  | recoverAbandoned (now : Time)

/-- The program of a call; its outcome does not matter here. -/
def JobCall.program : JobCall → DbProg Unit
  | .retry workspaceId id actorId correlationId now auditedAt => do
    let _ ← JobService.retry workspaceId id actorId correlationId now auditedAt
    return ()
  | .claim config workerId now jobId => do
    let _ ← DiagnosticJobModel.claim config workerId now jobId
    return ()
  | .heartbeat config jobId workerId now => .call (.heartbeatJob config jobId workerId now) .ret
  | .complete jobId summary now => DiagnosticJobModel.complete jobId summary now
  | .fail config jobId error random now => do
    let _ ← JobProcessor.fail config jobId error random now
    return ()
  | .recoverAbandoned now => .call (.recoverAbandoned now) .ret

/-- Calls in flight on the database. -/
abbrev JobPool : Type := Pool DbOp DbOp.Reply Database AppError Unit

/-- The machine that interleaves them at their database calls; a write may fail. -/
abbrev jobCalls : Machine JobPool PoolEvent := Pool.machine database faults

/-- The job is failed or dead-lettered, if it is there. -/
def Halted (id : String) (db : Database) : Prop :=
  ∀ job ∈ db.jobs, job.id = id → retryable job.status = true

/-- The calls that turn a failed job into one that is not: the save of a retry, a completion, and
a failure that is to be tried again. -/
def Disturbs (id : String) : DbOp → Prop
  | .saveJob call => call.loaded.id = id
  | .completeJob jobId _ _ => jobId = id
  | .failJob _ call _ _ => call.jobId = id ∧ call.deadLetters = false
  | _ => False

/-- What each call relies on: a save follows the read of a failed job, and no job is created. -/
structure ReadFirst (past : Past) (op : DbOp) : Prop where
  saves : ∀ call, op = .saveJob call → ∃ workspaceId found,
    past = [⟨.findJob call.loaded.id workspaceId, found⟩] ∧
      found.findJob call.loaded.id workspaceId = some call.loaded ∧
      retryable call.loaded.status = true
  creates : ∀ job, op ≠ .createJob job

/-- A retry saves what it has read. -/
theorem RetryStage.readFirst {workspaceId id : String} {now : Time} {past : Past} {op : DbOp}
    (h : RetryStage workspaceId id now past op) : ReadFirst past op := by
  cases h with
  | lookUp => exact ⟨by simp, by simp⟩
  | audit past event => exact ⟨by simp, by simp⟩
  | save found job hjob hstatus =>
      refine ⟨fun call hcall => ?_, by simp⟩
      cases hcall
      have hid : job.id = id := by
        have hfilter := (Collection.mem_of_find? hjob).2
        simp only [Bool.and_eq_true, beq_iff_eq] at hfilter
        exact hfilter.1
      subst hid
      exact ⟨workspaceId, found, rfl, hjob, hstatus⟩

/-- A failure saves nothing. -/
theorem FailStage.readFirst {config : JobQueueConfig} {jobId : String} {error : StructuredFailure}
    {random : ℚ} {now : Time} {past : Past} {op : DbOp}
    (h : FailStage config jobId error random now op) : ReadFirst past op := by
  cases h with
  | lookUp => exact ⟨by simp, by simp⟩
  | fail attempts maxAttempts => exact ⟨by simp, by simp⟩

/-- Every call saves only what it has read. -/
theorem JobCall.program_emits (c : JobCall) :
    c.program.Emits database ReadFirst (fun _ _ => True) [] := by
  cases c with
  | retry workspaceId id actorId correlationId now auditedAt =>
      exact (emits_discard retry_emits).mono (fun _ _ => RetryStage.readFirst) fun _ _ _ => trivial
  | claim config workerId now jobId => exact emits_call ⟨by simp, by simp⟩ fun _ _ _ => trivial
  | heartbeat config jobId workerId now => exact ⟨⟨by simp, by simp⟩, fun _ => trivial⟩
  | complete jobId summary now => exact ⟨⟨by simp, by simp⟩, fun _ => trivial⟩
  | fail config jobId error random now =>
      exact (emits_discard fail_emits).mono (fun _ _ => FailStage.readFirst) fun _ _ _ => trivial
  | recoverAbandoned now => exact ⟨⟨by simp, by simp⟩, fun _ => trivial⟩

/-- An update of other jobs leaves a failed job failed. -/
theorem Halted.update {jobs : Collection DiagnosticJob} {id : String} {p : DiagnosticJob → Bool}
    {f : DiagnosticJob → DiagnosticJob} (hid : ∀ job, Document._id (f job) = Document._id job)
    (hix : ∀ job, Document.uniqueIndex (f job) = Document.uniqueIndex job)
    (h : ∀ job ∈ jobs, job.id = id → retryable job.status = true)
    (hf : ∀ job ∈ jobs, job.id = id → p job = true → retryable (f job).status = true) :
    ∀ job ∈ jobs.updateMany p f hid hix, job.id = id → retryable job.status = true := by
  intro job' hmem hjob'
  obtain ⟨job, hjob, heq⟩ := Collection.mem_updateMany.mp hmem
  by_cases hp : p job = true
  · rw [if_pos hp] at heq
    subst heq
    exact hf job hjob ((hid job).symm.trans hjob') hp
  · rw [if_neg hp] at heq
    subst heq
    exact h job hjob hjob'

/-- **A failed job stays failed** through every call that does not disturb it.
SRCLINE: packages/shared/src/jobs/queue.ts:15-119 -/
theorem Halted.exec {id : String} {db : Database} {op : DbOp} (h : Halted id db)
    (hcreate : ∀ job, op ≠ .createJob job) (hcalm : ¬ Disturbs id op) :
    Halted id (op.exec db).2 := by
  cases op with
  | createJob job => exact absurd rfl (hcreate job)
  | saveJob call =>
      refine Halted.update (f := retrySave call) (fun _ => rfl) (fun _ => rfl) h
        fun job _ hjob hp => ?_
      exact absurd ((of_decide_eq_true hp).symm.trans hjob) hcalm
  | claimJob config workerId now jobId =>
      change ∀ job ∈ (JobQueue.claim config db.jobs workerId now jobId).getD db.jobs, _
      unfold JobQueue.claim
      split
      · exact h
      · next job hget =>
        split
        · next hmatch =>
          refine Halted.update (f := claimUpdate config workerId now) (fun _ => rfl)
            (fun _ => rfl) h fun job' hmem hid hp => ?_
          -- what a claim matches is pending or waiting, not failed
          have hsame : job' = job := by
            obtain ⟨hjob, hjobId⟩ := Collection.get?_eq_some_iff.mp hget
            exact Collection.eq_of_id hmem hjob ((of_decide_eq_true hp).trans hjobId.symm)
          have hhalted := h job' hmem hid
          rw [hsame] at hhalted
          simp only [claimFilter, Bool.and_eq_true] at hmatch
          cases hstatus : job.status <;>
            simp [hstatus, retryable, JobStatus.isQueued] at hhalted hmatch
        · exact h
  | heartbeatJob config jobId workerId now =>
      exact Halted.update (f := heartbeatUpdate config now) (fun _ => rfl) (fun _ => rfl) h
        fun job hmem hid _ => h job hmem hid
  | completeJob jobId summary now =>
      refine Halted.update (f := completeUpdate summary now) (fun _ => rfl) (fun _ => rfl) h
        fun job _ hjob hp => ?_
      exact absurd ((of_decide_eq_true hp).symm.trans hjob) hcalm
  | failJob config call random now =>
      refine Halted.update (f := failUpdate config call random now) (fun job => ?_)
        (fun job => ?_) h fun job _ hjob hp => ?_
      · unfold failUpdate
        split <;> rfl
      · unfold failUpdate
        split <;> rfl
      have hid : call.jobId = id := (of_decide_eq_true hp).symm.trans hjob
      have hdead : call.deadLetters = true := by
        cases hdead : call.deadLetters with
        | true => rfl
        | false => exact absurd ⟨hid, hdead⟩ hcalm
      rw [failUpdate, if_pos hdead]
      rfl
  | recoverAbandoned now =>
      refine Halted.update (f := recoverUpdate now) (fun _ => rfl) (fun _ => rfl) h
        fun job hmem hjob hp => ?_
      have hhalted := h job hmem hjob
      simp only [recoverFilter, Bool.and_eq_true, beq_iff_eq] at hp
      rw [hp.1] at hhalted
      cases hhalted
  | _ => exact h

/-! ## Runs -/

/-- Between the read of a retry and its save, nothing disturbs the job: no other retry of it
saves, no completion of it lands, and no failure of it that is to be tried again. -/
def SavesUndisturbed (s : JobPool) (e : PoolEvent) : Prop :=
  ∀ q call, s.Performs e q (.saveJob call) → ∀ older newer workspaceId found,
    s.history = older ++ (q, ⟨.findJob call.loaded.id workspaceId, found⟩) :: newer →
      ∀ q' ev, (q', ev) ∈ newer → ¬ Disturbs call.loaded.id ev.op

/-- In runs of these calls under a guard, every save of a retry finds its job failed or
dead-lettered. -/
def SavesFindHalted (db : Database) (calls : ℕ → JobCall)
    (G : JobPool → PoolEvent → Prop) : Prop :=
  ∀ s, jobCalls.Reaches G (Pool.initial db fun q => (calls q).program) s →
    ∀ q call before, (q, ⟨.saveJob call, before⟩) ∈ s.history → Halted call.loaded.id before

/-- **A retry saves on a failed job** in every run in which nothing disturbs the job between its
read and its save.
SRCLINE: apps/api/src/services/job-service.ts:81-104, packages/shared/src/jobs/queue.ts:15-119 -/
theorem saves_find_halted (db : Database) (calls : ℕ → JobCall) :
    SavesFindHalted db calls SavesUndisturbed := by
  intro s hs q call before hev
  have hconforms := Pool.conforms_of_reaches (fun q => (calls q).program_emits) hs
  have hread : ∀ q ev, (q, ev) ∈ s.history → ∃ past, ReadFirst past ev.op := by
    intro q ev hmem
    obtain ⟨past, rest, hown⟩ := List.append_of_mem (mem_own.mpr hmem)
    exact ⟨past, (hconforms q).emitted past ev rest hown⟩
  obtain ⟨older, newer, hhist⟩ := List.append_of_mem hev
  obtain ⟨workspaceId, found, hpast, hfound, hstatus⟩ :=
    ((hconforms q).emitted_at hhist).saves call rfl
  obtain ⟨first, between, holder, -, -⟩ := own_split (show own q older = [] ++ _ :: [] from hpast)
  -- nothing in between disturbs the job
  have hcalm : ∀ q' ev, (q', ev) ∈ between → ¬ Disturbs call.loaded.id ev.op := by
    have hguarded := Pool.guarded_of_reaches
      (C := fun history q ev => ∀ call, ev.op = .saveJob call →
      ∀ older newer workspaceId found,
        history = older ++ (q, ⟨.findJob call.loaded.id workspaceId, found⟩) :: newer →
          ∀ q' ev', (q', ev') ∈ newer → ¬ Disturbs call.loaded.id ev'.op) hs ?_
    · exact hguarded older q _ newer hhist call rfl first between workspaceId found holder
    · rintro t e q op hG hp call rfl
      exact hG q call hp
  have hchained := Pool.chained_of_reaches hs
  rw [hhist] at hchained
  have hpath := hchained.split.1
  rw [holder] at hpath
  have hstart : Halted call.loaded.id found := by
    intro job hmem hid
    rw [Collection.eq_of_id hmem (Collection.mem_of_find? hfound).1 hid]
    exact hstatus
  have hkept := hpath.split.2.le (R := fun db db' => Halted call.loaded.id db →
    Halted call.loaded.id db') (fun _ h => h) (fun _ _ _ h h' hd => h' (h hd)) ?_
  · exact hkept.1 hstart
  · intro q' ev hmem hhalted
    have hmem' : (q', ev) ∈ s.history := by
      rw [hhist, holder]
      exact List.mem_append_left _ (List.mem_append_right _ (List.mem_cons_of_mem _ hmem))
    obtain ⟨past, hfirst⟩ := hread q' ev hmem'
    exact hhalted.exec hfirst.creates (hcalm q' ev hmem)

/-! ## Two retries, and a claim between their saves -/

/-- A job all of whose attempts have failed. -/
def deadJob : DiagnosticJob :=
  { freshJob with
    status := .deadLettered
    claimedBy := some "worker-1"
    attempts := 3
    completedAt := some 10 }

/-- A store with the job. -/
def deadStore : Database := { Database.empty with jobs := ⟨[deadJob], by simp, by simp⟩ }

/-- Two retries of the job, and the claim of a worker. -/
def retryTwice : ℕ → JobCall
  | 0 => .retry "ws" "job-1" "operator" "c-1" 20 20
  | 1 => .retry "ws" "job-1" "operator" "c-2" 20 20
  | _ => .claim ⟨30000, 3, 10, 20⟩ "worker-2" 21 "job-1"

/-- Both retries read, the first saves, the worker claims, the second saves. -/
def claimBetween : List PoolEvent := [.run 0, .run 1, .run 0, .run 2, .run 1]

/-- Whether a call is a save that does not find its job failed or dead-lettered. -/
def savesOnLive : ℕ × Event DbOp Database → Bool
  | (_, ⟨.saveJob call, before⟩) =>
    before.jobs.docs.any fun job => job.id == call.loaded.id && !retryable job.status
  | _ => false

/-- The second retry saves on a running job and takes it away from its worker.
SRCLINE: apps/api/src/services/job-service.ts:84-94 -/
theorem saves_do_not_find_halted : ¬ SavesFindHalted deadStore retryTwice Machine.unguarded := by
  intro h
  let start : JobPool := Pool.initial deadStore fun q => (retryTwice q).program
  let s := (jobCalls.run start claimBetween).get (by decide +kernel)
  have hs : jobCalls.Reaches Machine.unguarded start s :=
    Machine.reaches_of_run claimBetween (Option.some_get _).symm
  have hlive : s.history.any savesOnLive = true := by decide +kernel
  obtain ⟨⟨q, op, before⟩, hev, hsaves⟩ := List.any_eq_true.mp hlive
  cases op with
  | saveJob call =>
      obtain ⟨job, hjob, hfound⟩ := List.any_eq_true.mp hsaves
      simp only [Bool.and_eq_true, beq_iff_eq, Bool.not_eq_true'] at hfound
      have hhalted := h s hs q call before hev job hjob hfound.1
      rw [hfound.2] at hhalted
      cases hhalted
  | _ => cases hsaves

/-! ## A job that is retried twice, one retry after the other -/

/-- Whether a call turns a failed job into one that is not. -/
def disturbs (id : String) : DbOp → Bool
  | .saveJob call => call.loaded.id == id
  | .completeJob jobId _ _ => jobId == id
  | .failJob _ call _ _ => call.jobId == id && !call.deadLetters
  | _ => false

/-- What disturbs a job is found to. -/
theorem disturbs_of_disturbs {id : String} {op : DbOp} (h : Disturbs id op) :
    disturbs id op = true := by
  cases op with
  | saveJob call => exact beq_iff_eq.mpr h
  | completeJob jobId summary now => exact beq_iff_eq.mpr h
  | failJob config call random now =>
      obtain ⟨hid, hretries⟩ : call.jobId = id ∧ call.deadLetters = false := h
      simp [disturbs, hid, hretries]
  | _ => exact h.elim

/-- Whether nothing disturbs the job in a history that begins with the read of the retry. -/
def calmSince (q : ℕ) (id : String) : History → Bool
  | (q', ⟨.findJob id' _, _⟩) :: newer =>
    decide (q' ≠ q) || id' != id || newer.all fun e => !disturbs id e.2.op
  | _ => true

/-- Whether nothing disturbs the job between the read of a retry and its save. -/
def savesUndisturbed (s : JobPool) (q : ℕ) : DbOp → Bool
  | .saveJob call => s.history.tails.all (calmSince q call.loaded.id)
  | _ => true

/-- The check of the calls decides the condition. -/
theorem savesUndisturbed_of_check (s : JobPool) (e : PoolEvent)
    (h : Pool.passes savesUndisturbed s e = true) : SavesUndisturbed s e := by
  intro q call hp older newer workspaceId found hsplit q' ev hev hdisturbs
  have htail : (q, ⟨.findJob call.loaded.id workspaceId, found⟩) :: newer ∈ s.history.tails :=
    (List.mem_tails _ _).mpr ⟨older, hsplit.symm⟩
  have hcalm := List.all_eq_true.mp (hp.passed h) _ htail
  simp only [calmSince, ne_eq, not_true_eq_false, decide_false, bne_self_eq_false, Bool.false_or,
    List.all_eq_true, Bool.not_eq_true'] at hcalm
  have hnot := hcalm (q', ev) hev
  rw [disturbs_of_disturbs hdisturbs] at hnot
  cases hnot

/-- Two retries of the job; in between a worker claims it and fails for good. -/
def retryAgain : ℕ → JobCall
  | 0 => .retry "ws" "job-1" "operator" "c-1" 20 20
  | 1 => .claim ⟨30000, 3, 10, 20⟩ "worker-2" 21 "job-1"
  | 2 => .fail ⟨30000, 3, 10, 20⟩ "job-1" ⟨"PROCESSING_ERROR", "No such workspace", false, none, 22⟩
    0 22
  | 3 => .retry "ws" "job-1" "operator" "c-2" 23 23
  | _ => .recoverAbandoned 23

/-- Abandoned jobs are recovered between the read and the save of the second retry. -/
def retriedInTurn : List PoolEvent := ([0, 0, 1, 2, 0, 2, 3, 4, 3, 3] : List ℕ).map .run

/-- The calls after that. -/
def retriedPool : JobPool :=
  (jobCalls.runChecked (Pool.passes savesUndisturbed)
    (Pool.initial deadStore fun q => (retryAgain q).program) retriedInTurn).get (by decide +kernel)

/-- Both retries have saved, each on a dead-lettered job. -/
theorem saves_find_halted_retriedInTurn :
    (retriedPool.history.filter fun e => disturbs "job-1" e.2.op).map (·.1) = [0, 3] ∧
      retriedPool.store.jobs.docs.map (fun job => (job.status, job.attempts)) =
        [(.pending, 0)] ∧
      ∀ q call before, (q, ⟨.saveJob call, before⟩) ∈ retriedPool.history →
        Halted call.loaded.id before := by
  have hs : jobCalls.Reaches SavesUndisturbed
      (Pool.initial deadStore fun q => (retryAgain q).program) retriedPool :=
    Machine.reaches_of_runChecked savesUndisturbed_of_check retriedInTurn (Option.some_get _).symm
  exact ⟨by decide +kernel, by decide +kernel, saves_find_halted deadStore retryAgain _ hs⟩

end CloudOps.Analysis
