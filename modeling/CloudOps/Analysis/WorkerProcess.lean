import CloudOps.Analysis.Attempts
import CloudOps.Analysis.WorkerLoop

/-!
# A worker process among other programs

The attempts of one process run on a database that any other programs use. An attempt gives
back the job it was handed; the control says which attempts can still be under way. Together:
the process never holds more jobs than `WORKER_CONCURRENCY` (`jobs_held_le`), it gives all of
them back before it exits (`exit_gives_back`), and after a signal it does exit
(`shutdown_ends`).
-/

set_option autoImplicit false

namespace CloudOps.Analysis

open CloudOps.Computation CloudOps.Model CloudOps.Model.JobProcessor

/-! ## Runs of the process -/

/-- Attempt `k` has been handed the job. -/
def HandedOut (s : AttemptPool) (k : ℕ) (job : DiagnosticJob) : Prop :=
  ∃ config workerId now jobId before,
    (place k, ⟨.claimJob config workerId now jobId, before⟩) ∈ s.history ∧
      (database.exec (.claimJob config workerId now jobId) before).1 = some job

/-- Attempt `k` has completed or failed the job. -/
def GivenBack (s : AttemptPool) (k : ℕ) (jobId : String) : Prop :=
  ∃ op before, (place k, ⟨op, before⟩) ∈ s.history ∧ givesBack? op = some jobId

/-- Attempt `k` has itself ended in the error of a call. The code lets out only what fails outside
its `try`: the claim, and the recording of the failure. -/
def Stopped (s : AttemptPool) (k : ℕ) : Prop := s.procs (place k) = .throw callFaults.error

section Runs

variable {c : ℚ} {db : Database} {attempts : ℕ → Attempt} {others : ℕ → DbProg Bool}
  {G : Worker × AttemptPool → WorkerEvent ⊕ PoolEvent → Prop} {s : Worker × AttemptPool} {k : ℕ}
  {job : DiagnosticJob}

/-- An attempt runs at its place. -/
theorem placed_place : placed attempts others (place k) = (attempts k).program := by
  unfold placed place
  rw [if_pos (by omega), show 2 * k / 2 = k by omega]

/-- An attempt that is not in flight has not begun or has ended. -/
theorem not_under_way (hs : (workerProcess c).Reaches G (workerStarted db attempts others) s) :
    ∀ k, k ∉ s.1.inflight → own (place k) s.2.history = [] ∨ (s.2.procs (place k)).Ended := by
  induction hs with
  | refl => exact fun k _ => Or.inl rfl
  | @step t u e ht _ he ih =>
      obtain ⟨hallowed, ⟨a, rfl, hstep, hpool⟩ | ⟨b, rfl, hstep, hworker⟩⟩ :=
        Machine.beside_cases he
      · rw [hpool]
        obtain ⟨-, hcase⟩ := workerStep_of_step hstep
        intro k hk
        generalize u.1 = w' at hcase hk
        cases hcase with
        | counted hloop =>
            have hfilled := filled_fillRounds (c := c) ⌈c⌉₊ t.1
            exact ih k fun hold => hk (hfilled.inflight hold)
        | settled k' _ =>
            by_cases hsame : k = k'
            · subst hsame
              exact Or.inr (of_decide_eq_true hallowed)
            · exact ih k fun hold => hk (Finset.mem_erase.mpr ⟨hsame, hold⟩)
        | _ => exact ih k hk
      · rw [hworker]
        intro k hk
        -- only attempts in flight perform anything
        have hother : ∀ q, q % 2 = 1 ∨ (t.1.exited = false ∧ q / 2 ∈ t.1.inflight) →
            place k ≠ q := by
          rintro q (hodd | ⟨-, hin⟩) rfl
          · unfold place at hodd
            omega
          · rw [show place k / 2 = k by unfold place; omega] at hin
            exact hk hin
        have hkeep := ih k hk
        have hcase := Pool.step_cases hstep
        generalize u.2 = pool at hcase ⊢
        cases hcase with
        | run q op rest _ =>
            have hne := hother q (of_decide_eq_true hallowed)
            simpa [Pool.perform, own_append_ne hne.symm, Function.update_of_ne hne] using hkeep
        | applied q op rest _ _ =>
            have hne := hother q (of_decide_eq_true hallowed)
            simpa [Pool.perform, own_append_ne hne.symm, Function.update_of_ne hne] using hkeep
        | lost q op rest _ _ =>
            have hne := hother q (of_decide_eq_true hallowed)
            simpa [Pool.stop, Function.update_of_ne hne] using hkeep

/-- A job that has been looked for after it was handed out is there. -/
theorem not_missed {a : Attempt}
    (hs : (workerProcess c).Reaches G (workerStarted db attempts others) s)
    (hhanded : Handed a (own (place k) s.2.history) (some job)) :
    ¬ Missed (own (place k) s.2.history) job.id := by
  rintro ⟨read, hread, hnone⟩
  obtain ⟨first, rest, hown, hjob, -⟩ := hhanded
  have hchained : Pool.Chained database db s.2.history s.2.store := Pool.chained_of_reaches hs.snd
  have hrest : ⟨.findJobById job.id, read⟩ ∈ rest := by
    rw [hown] at hread
    rcases List.mem_cons.mp hread with heq | hmem
    · cases heq
    · exact hmem
  obtain ⟨older, newer, hsplit, -, rfl⟩ := own_split (hown.trans (List.nil_append _).symm)
  rw [hsplit] at hchained
  obtain ⟨-, hafter⟩ := hchained.split
  obtain ⟨mid, late, rfl⟩ := List.append_of_mem (mem_own.mp hrest)
  obtain ⟨hmid, -⟩ := hafter.split
  obtain ⟨hstays, -⟩ := hmid.le (R := fun db db' : Database => ∀ job ∈ db.jobs,
      ∃ job' ∈ db'.jobs, Document._id job' = Document._id job) (fun _ job h => ⟨job, h, rfl⟩)
    (fun _ _ _ h h' job hmem => by
      obtain ⟨job', hmem', hid⟩ := h job hmem
      obtain ⟨job'', hmem'', hid'⟩ := h' job' hmem'
      exact ⟨job'', hmem'', hid'.trans hid⟩)
    fun q ev _ job hmem => by
      obtain ⟨job', hmem', hid, -⟩ := jobs_stay ev.op hmem
      exact ⟨job', hmem', hid⟩
  have hstored : job ∈ (database.exec (attemptClaim a) first).2.jobs := by
    change (JobQueue.claim a.config first.jobs a.draws.workerId a.draws.claimedAt
      a.draws.jobId).bind (·.get? a.draws.jobId) = some job at hjob
    obtain ⟨jobs, hclaim, hget⟩ := Option.bind_eq_some_iff.mp hjob
    show job ∈ (JobQueue.claim a.config first.jobs a.draws.workerId a.draws.claimedAt
      a.draws.jobId).getD first.jobs
    rw [hclaim]
    exact (Collection.get?_eq_some_iff.mp hget).1
  obtain ⟨job', hmem', hid⟩ := hstays job hstored
  exact Collection.get?_eq_none_iff.mp hnone job' hmem' hid

/-- **What is handed out is under way, given back, or stopped.** -/
theorem handedOut_cases (hs : (workerProcess c).Reaches G (workerStarted db attempts others) s)
    (hhanded : HandedOut s.2 k job) :
    k ∈ s.1.inflight ∨ GivenBack s.2 k job.id ∨ Stopped s.2 k := by
  by_cases hin : k ∈ s.1.inflight
  · exact Or.inl hin
  refine Or.inr ?_
  obtain ⟨config, workerId, now, jobId, before, hclaim, hreply⟩ := hhanded
  have hmem := mem_own.mpr hclaim
  have hconforms : Pool.Conforms database callFaults (AttemptCalls (attempts k))
      (AttemptEnds (attempts k)) (s.2.procs (place k)) (own (place k) s.2.history) :=
    Pool.conforms_of_emits (placed_place ▸ attempt_emits (attempts k)) hs.snd
  rcases not_under_way hs k hin with hnothing | hended
  · rw [hnothing] at hmem
    exact absurd hmem List.not_mem_nil
  rcases hconforms.emits with hemits | hstopped
  · refine Or.inl ?_
    obtain ⟨job?, hhanded, -, hback⟩ : ∃ job?, Handed (attempts k) (own (place k) s.2.history)
        job? ∧ True ∧ ∀ job, job? = some job → GaveBack (own (place k) s.2.history) job.id ∨
          Missed (own (place k) s.2.history) job.id := by
      generalize s.2.procs (place k) = p at hended hemits
      cases p with
      | call op rest => exact hended.elim
      | ret b =>
          obtain ⟨job?, hhanded, -, hback⟩ := hemits
          exact ⟨job?, hhanded, trivial, hback⟩
      | throw e =>
          obtain ⟨job?, hhanded, -, hback⟩ := hemits
          exact ⟨job?, hhanded, trivial, hback⟩
    -- the job is the one of the only claim
    obtain rfl : job? = some job := by
      obtain ⟨first, rest, hown, hjob, hrest⟩ := hhanded
      rw [hown] at hmem
      rcases List.mem_cons.mp hmem with heq | hlater
      · obtain ⟨hop, rfl⟩ := Event.mk.inj heq
        obtain ⟨rfl, rfl, rfl, rfl⟩ := DbOp.claimJob.inj hop
        exact hjob.symm.trans hreply
      · cases hrest _ hlater
    rcases hback job rfl with ⟨ev, hev, hgives⟩ | hmissed
    · exact ⟨ev.op, ev.before, mem_own.mp hev, hgives⟩
    · exact absurd hmissed (not_missed hs hhanded)
  · exact Or.inr hstopped

/-- **Never more jobs than `WORKER_CONCURRENCY`**: the jobs that the attempts of a process have
been handed and have not given back, but for attempts that have ended in an error, in any run and
whatever other programs do.
SRCLINE: apps/worker/src/index.ts:62-89, apps/worker/src/processor.ts:24-80 -/
theorem jobs_held_le (hs : (workerProcess c).Reaches G (workerStarted db attempts others) s)
    {K : Finset ℕ} (hK : ∀ k ∈ K, ∃ job, HandedOut s.2 k job ∧ ¬ GivenBack s.2 k job.id ∧
      ¬ Stopped s.2 k) : K.card ≤ ⌈c⌉₊ := by
  have hcontrolled : Controlled c s.1 := controlled_of_reaches hs.fst
  have hsub : K ⊆ s.1.inflight := by
    intro k hk
    obtain ⟨job, hhanded, hkept, hgoing⟩ := hK k hk
    rcases handedOut_cases hs hhanded with hin | hback | hstopped
    · exact hin
    · exact absurd hback hkept
    · exact absurd hstopped hgoing
  exact (Finset.card_le_card hsub).trans hcontrolled.bounded

/-- **A process that exits has given everything back**: when a shutdown has come to its end, every
job handed out to the process has been completed or failed by it, but for attempts that have ended
in an error.
SRCLINE: apps/worker/src/index.ts:93-101, apps/worker/src/processor.ts:24-80 -/
theorem exit_gives_back (hs : (workerProcess c).Reaches G (workerStarted db attempts others) s)
    (hexit : s.1.exited = true) :
    (∀ k, own (place k) s.2.history = [] ∨ (s.2.procs (place k)).Ended) ∧
      ∀ k job, HandedOut s.2 k job → GivenBack s.2 k job.id ∨ Stopped s.2 k := by
  have hcontrolled : Controlled c s.1 := controlled_of_reaches hs.fst
  have hnone : ∀ k, k ∉ s.1.inflight := by
    intro k hk
    rw [(hcontrolled.exited hexit).1] at hk
    exact Finset.notMem_empty k hk
  refine ⟨fun k => not_under_way hs k (hnone k), fun k job hhanded => ?_⟩
  exact (handedOut_cases hs hhanded).resolve_left (hnone k)

/-- An event of the process itself: the control goes on without a further signal, or an attempt in
flight performs its next call. -/
inductive OwnEvent (w : Worker) : WorkerEvent ⊕ PoolEvent → Prop
  | control (e : WorkerEvent) (he : e ≠ .signal) : OwnEvent w (.inl e)
  | attempt (k : ℕ) (hk : k ∈ w.inflight) : OwnEvent w (.inr (.run (place k)))

/-- **A shutdown comes to its end**: once a signal has come no attempt starts, the control has no
more than `remaining` events before it unless there is a further signal, and until the exit
there is always an event of the process itself that can come.
SRCLINE: apps/worker/src/index.ts:73-102 -/
theorem shutdown_ends (hs : (workerProcess c).Reaches G (workerStarted db attempts others) s)
    (hsignal : s.1.running = false) :
    (∀ t, (workerProcess c).Reaches G s t → t.1.inflight ⊆ s.1.inflight) ∧
      (∀ es t, (workerProcess c).run s es = some t → Sum.inl WorkerEvent.signal ∉ es →
        (es.filterMap Sum.getLeft?).length ≤ remaining s.1) ∧
      (s.1.exited = false → ∃ e t, OwnEvent s.1 e ∧ (workerProcess c).step s e = some t) := by
  have hcontrolled : Controlled c s.1 := controlled_of_reaches hs.fst
  refine ⟨fun t ht => (spawned_after_signal hsignal ht.fst).2.2, fun es t hrun hnone => ?_,
    fun hexited => ?_⟩
  · have hstep : ∀ (w : Worker) (e : WorkerEvent) (w' : Worker), w.running = false →
        e ≠ .signal → (workerControl c).step w e = some w' →
          w'.running = false ∧ remaining w' < remaining w := by
      intro w e w' hstopped he hstep
      have hreaches : (workerControl c).Reaches Machine.unguarded w w' :=
        Machine.Reaches.refl.step e trivial hstep
      exact ⟨(spawned_after_signal hstopped hreaches).1, remaining_decreases hstopped he hstep⟩
    refine Machine.length_le_of_run hstep _ hsignal ?_ (Machine.run_beside_fst es hrun)
    · rintro e he rfl
      obtain ⟨e', he', hleft⟩ := List.mem_filterMap.mp he
      cases e' with
      | inl a =>
          cases hleft
          exact hnone he'
      | inr b => cases hleft
  · rcases shutdown_awaits hcontrolled hsignal hexited with ⟨k, hk, hsettles⟩ |
      ⟨e, hgoes, he, hother⟩
    · -- an attempt in flight has ended or has a call to perform
      obtain ⟨w', hw'⟩ := Option.isSome_iff_exists.mp hsettles
      cases hproc : s.2.procs (place k) with
      | ret b =>
          refine ⟨.inl (.settled k), (w', s.2), .control _ (by simp), ?_⟩
          simp [workerProcess, Machine.beside, inStep, hproc, Prog.Ended, workerControl, hw']
      | throw err =>
          refine ⟨.inl (.settled k), (w', s.2), .control _ (by simp), ?_⟩
          simp [workerProcess, Machine.beside, inStep, hproc, Prog.Ended, workerControl, hw']
      | call op rest =>
          refine ⟨.inr (.run (place k)), (s.1, s.2.perform database (place k) op
            (rest (database.exec op s.2.store).1)), .attempt k hk, ?_⟩
          have hplace : place k / 2 = k := by unfold place; omega
          simp [workerProcess, Machine.beside, inStep, hplace, hexited, hk, Pool.machine, hproc]
    · obtain ⟨w', hw'⟩ := Option.isSome_iff_exists.mp hgoes
      refine ⟨.inl e, (w', s.2), .control e he, ?_⟩
      have hallowed : inStep s (.inl e) = true := by
        cases e with
        | settled k => exact absurd rfl (hother k)
        | _ => rfl
      simp [workerProcess, Machine.beside, hallowed, workerControl, hw']

end Runs

/-! ## A process with two attempts and one job -/

/-- The attempts look for one job; the run of the first one times out after a call. -/
def oneJobAttempts (k : ℕ) : Attempt where
  config := ⟨30000, 3, 10, 20⟩
  analyze := fun _ => .ok ⟨[]⟩
  draws := ⟨"worker-1", "job-1", 1, 2, 3, 0, fun _ => ⟨0, "f", 0, "r", 0⟩⟩
  interruption := if k = 0 then some ⟨1, false, jobTimedOut⟩ else none

/-- Another program creates the job. -/
def jobCreation (_ : ℕ) : DbProg Bool := do
  DiagnosticJobModel.create (JobService.newJob ⟨3, 20000⟩ "job-1" "ws" "operator" "c-0"
    ⟨none, none, "job-key-1"⟩ 0)
  return true

/-- The first attempt claims the job, the second one finds none. -/
def untilHeld : List (WorkerEvent ⊕ PoolEvent) :=
  [.inr (.run 1), .inl (.recovered true), .inl (.counted true), .inr (.run 0), .inr (.run 2)]

/-- A signal comes while the job is held; the attempt times out and fails the job. -/
def untilExit : List (WorkerEvent ⊕ PoolEvent) :=
  untilHeld ++ [.inl (.settled 1), .inl .signal, .inr (.run 0), .inr (.run 0), .inr (.run 0),
    .inl (.settled 0), .inl .slept, .inl (.drained 0), .inl (.joined 0)]

/-- The process after these events. -/
def processAfter (es : List (WorkerEvent ⊕ PoolEvent)) : Option (Worker × AttemptPool) :=
  (workerProcess 2).run (workerStarted .empty oneJobAttempts jobCreation) es

/-- Whether an event of a history hands a job to a program. -/
def handsOut (q : ℕ) : ℕ × Event DbOp Database → Bool
  | (q', ⟨.claimJob config workerId now jobId, before⟩) =>
    q' == q && ((DbOp.claimJob config workerId now jobId).exec before).1.isSome
  | _ => false

/-- A job that the history shows handed out to an attempt has been. -/
theorem handedOut_of_any {s : AttemptPool} {k : ℕ}
    (h : s.history.any (handsOut (place k)) = true) : ∃ job, HandedOut s k job := by
  obtain ⟨⟨q, op, before⟩, hmem, hhands⟩ := List.any_eq_true.mp h
  cases op with
  | claimJob config workerId now jobId =>
      simp only [handsOut, Bool.and_eq_true, beq_iff_eq] at hhands
      obtain ⟨rfl, hsome⟩ := hhands
      obtain ⟨job, hjob⟩ := Option.isSome_iff_exists.mp hsome
      exact ⟨job, config, workerId, now, jobId, before, hmem, hjob⟩
  | _ => cases hhands

/-- Whether an event of a history gives a job back. -/
def handsBack (q : ℕ) (e : ℕ × Event DbOp Database) : Bool :=
  e.1 == q && (givesBack? e.2.op).isSome

/-- Whether a program has thrown. -/
def throws : DbProg Bool → Bool
  | .throw _ => true
  | _ => false

/-- An attempt that has not thrown has not been stopped. -/
theorem not_stopped_of_not_thrown {s : AttemptPool} {k : ℕ}
    (h : throws (s.procs (place k)) = false) : ¬ Stopped s k := by
  intro hstopped
  rw [Stopped] at hstopped
  rw [hstopped] at h
  cases h

/-- One job is held, and there may be two. -/
theorem jobs_held_le_two : ∃ s : Worker × AttemptPool, (∃ job, HandedOut s.2 0 job ∧
    ¬ GivenBack s.2 0 job.id ∧ ¬ Stopped s.2 0) ∧ ({0} : Finset ℕ).card ≤ ⌈(2 : ℚ)⌉₊ := by
  let s := (processAfter untilHeld).get (by decide +kernel)
  have hs : (workerProcess 2).Reaches Machine.unguarded
      (workerStarted .empty oneJobAttempts jobCreation) s :=
    Machine.reaches_of_run untilHeld (Option.some_get _).symm
  obtain ⟨job, hjob⟩ : ∃ job, HandedOut s.2 0 job := handedOut_of_any (by decide +kernel)
  have hkept : ¬ GivenBack s.2 0 job.id := by
    rintro ⟨op, before, hmem, hgives⟩
    have hnone : s.2.history.any (handsBack (place 0)) = false := by decide +kernel
    have hback : s.2.history.any (handsBack (place 0)) = true :=
      List.any_eq_true.mpr ⟨_, hmem, by simp [handsBack, hgives]⟩
    exact absurd (hnone.symm.trans hback) (by decide)
  have hgoing : ¬ Stopped s.2 0 := not_stopped_of_not_thrown (by decide +kernel)
  refine ⟨s, ⟨job, hjob, hkept, hgoing⟩, jobs_held_le hs fun k hk => ?_⟩
  obtain rfl := Finset.mem_singleton.mp hk
  exact ⟨job, hjob, hkept, hgoing⟩

/-- The job whose attempt timed out is given back before the exit. -/
theorem exit_gives_back_timedOut : ∃ (s : Worker × AttemptPool) (job : DiagnosticJob),
    s.1.exited = true ∧ HandedOut s.2 0 job ∧ GivenBack s.2 0 job.id := by
  let s := (processAfter untilExit).get (by decide +kernel)
  have hs : (workerProcess 2).Reaches Machine.unguarded
      (workerStarted .empty oneJobAttempts jobCreation) s :=
    Machine.reaches_of_run untilExit (Option.some_get _).symm
  have hexit : s.1.exited = true := by decide +kernel
  obtain ⟨job, hjob⟩ : ∃ job, HandedOut s.2 0 job := handedOut_of_any (by decide +kernel)
  have hgoing : ¬ Stopped s.2 0 := not_stopped_of_not_thrown (by decide +kernel)
  exact ⟨s, job, hexit, hjob, ((exit_gives_back hs hexit).2 0 job hjob).resolve_right hgoing⟩

/-- After the signal the loop sleeps, one attempt is in flight and one shutdown waits for it. -/
theorem shutdown_ends_held : ∃ s : Worker × AttemptPool, s.1.running = false ∧
    s.1.exited = false ∧ remaining s.1 = 5 ∧
      ∃ e t, OwnEvent s.1 e ∧ (workerProcess 2).step s e = some t := by
  let s := (processAfter (untilHeld ++ [.inl (.settled 1), .inl .signal])).get (by decide +kernel)
  have hs : (workerProcess 2).Reaches Machine.unguarded
      (workerStarted .empty oneJobAttempts jobCreation) s :=
    Machine.reaches_of_run _ (Option.some_get _).symm
  have hsignal : s.1.running = false := by decide +kernel
  have hexited : s.1.exited = false := by decide +kernel
  exact ⟨s, hsignal, hexited, by decide +kernel, (shutdown_ends hs hsignal).2.2 hexited⟩

end CloudOps.Analysis
