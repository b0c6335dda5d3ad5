import CloudOps.Computation.Interleaving
import CloudOps.Model.JobProcessor
import Mathlib.Data.Finset.Card
import Mathlib.Algebra.Order.Floor.Semiring
import Mathlib.Data.Rat.Floor

/-!
# The worker process (`apps/worker/src/index.ts`)

`loop` recovers abandoned jobs, measures the queue and starts attempts up to the configured
number; a signal starts a `shutdown`, which waits for the attempts in flight and then for the
loop. The control state `Worker` moves at the points where the process waits. An `attempt`
is a call of `processNext` whose `try` may be cut short anywhere, by the timeout or by a call
that fails. `workerProcess` is the two together, on a database that any other programs use.
-/

set_option autoImplicit false

namespace CloudOps.Model

open CloudOps.Computation

/-! ## The control of the process -/

/-- Where `loop` waits: for `recoverAbandoned`, for `pendingDepth`, for `sleep`. -/
inductive LoopPoint
  | recovering | counting | sleeping | ended
  deriving DecidableEq, Repr

/-- Where a `shutdown` waits: for the attempts that were in flight at its signal, then for the
loop. -/
inductive ShutdownPoint
  | settling (attempts : Finset ℕ)
  | joining
  deriving DecidableEq

/-- The variables of `main`. Attempts are numbered in the order in which they start. -/
structure Worker where
  running : Bool
  inflight : Finset ℕ
  spawned : ℕ
  loop : LoopPoint
  shutdowns : List ShutdownPoint
  exited : Bool
  deriving DecidableEq

/-- The process when its loop has begun.
SRCLINE: apps/worker/src/index.ts:34-35,73-76,91 -/
def Worker.started : Worker where
  running := true
  inflight := ∅
  spawned := 0
  loop := .recovering
  shutdowns := []
  exited := false

/-- SRCLINE: apps/worker/src/index.ts:62-71 -/
def Worker.spawn (w : Worker) : Worker :=
  { w with inflight := insert w.spawned w.inflight, spawned := w.spawned + 1 }

/-- The inner `while`, for a number of rounds.
SRCLINE: apps/worker/src/index.ts:81-83 -/
def Worker.fillRounds (WORKER_CONCURRENCY : ℚ) : ℕ → Worker → Worker
  | 0, w => w
  | rounds + 1, w =>
    if w.running && decide ((w.inflight.card : ℚ) < WORKER_CONCURRENCY) then
      w.spawn.fillRounds WORKER_CONCURRENCY rounds
    else w

/-- The inner `while`; it does not wait, and it ends after this many rounds (`fill_full`). -/
def Worker.fill (WORKER_CONCURRENCY : ℚ) (w : Worker) : Worker :=
  w.fillRounds WORKER_CONCURRENCY ⌈WORKER_CONCURRENCY⌉₊

/-- What the process waits for, when it comes. -/
inductive WorkerEvent
  /-- `recoverAbandoned` returns, or throws -/
  | recovered (ok : Bool)
  /-- `pendingDepth` returns, or throws -/
  | counted (ok : Bool)
  | slept
  /-- an attempt has ended and leaves `inflight` -/
  | settled (attempt : ℕ)
  | signal
  /-- `allSettled` of a shutdown -/
  | drained (shutdown : ℕ)
  /-- `await loopPromise` of a shutdown, and the exit -/
  | joined (shutdown : ℕ)
  deriving DecidableEq

/-- The control of the process, from one point where it waits to the next.
SRCLINE: apps/worker/src/index.ts:62-102 -/
def Worker.step (WORKER_CONCURRENCY : ℚ) (w : Worker) (e : WorkerEvent) : Option Worker :=
  if w.exited then none
  else
    match e with
    | .recovered ok =>
      if w.loop = .recovering then
        some { w with loop := if ok then .counting else .sleeping }
      else none
    | .counted ok =>
      if w.loop = .counting then
        some { (if ok then w.fill WORKER_CONCURRENCY else w) with loop := .sleeping }
      else none
    | .slept =>
      if w.loop = .sleeping then
        some { w with loop := if w.running then .recovering else .ended }
      else none
    | .settled attempt =>
      if attempt ∈ w.inflight then some { w with inflight := w.inflight.erase attempt } else none
    | .signal =>
      some { w with running := false, shutdowns := w.shutdowns ++ [.settling w.inflight] }
    | .drained shutdown =>
      match w.shutdowns[shutdown]? with
      | some (.settling attempts) =>
        if Disjoint attempts w.inflight then
          some { w with shutdowns := w.shutdowns.set shutdown .joining }
        else none
      | _ => none
    | .joined shutdown =>
      if w.shutdowns[shutdown]? = some .joining ∧ w.loop = .ended then
        some { w with exited := true }
      else none

/-- The control of the process as a machine. -/
def workerControl (WORKER_CONCURRENCY : ℚ) : Machine Worker WorkerEvent :=
  ⟨Worker.step WORKER_CONCURRENCY⟩

/-! ## Attempts -/

/-- A call of `processNext`. Its `try` may be cut short by the timeout, which lets the run go on
as a program of its own, or by a call that fails, performed or not.
SRCLINE: apps/worker/src/processor.ts:24-80 -/
def attempt (config : JobQueueConfig)
    (analyze : List CloudResource → Except AppError DiagnosticEngineResult)
    (draws : JobProcessor.AttemptDraws) (interruption : Option (Prog.Interruption AppError)) :
    DbProg Bool := do
  let job? ← DiagnosticJobModel.claim config draws.workerId draws.claimedAt draws.jobId
  match job? with
  | none => return false
  | some job =>
    ((JobProcessor.process analyze draws job).interrupted interruption).handle fun
      | .ok _ => return true
      | .error err => do
        let _ ← JobProcessor.fail config job.id (JobProcessor.failureOf err draws.failedAt)
          draws.random draws.failedAt
        return true

/-- An attempt that is not cut short is `processNext`. -/
theorem attempt_none (config : JobQueueConfig)
    (analyze : List CloudResource → Except AppError DiagnosticEngineResult)
    (draws : JobProcessor.AttemptDraws) :
    attempt config analyze draws none = JobProcessor.processNext config analyze draws := rfl

/-! ## The process on the database -/

/-- The arguments of an attempt. -/
structure Attempt where
  config : JobQueueConfig
  analyze : List CloudResource → Except AppError DiagnosticEngineResult
  draws : JobProcessor.AttemptDraws
  interruption : Option (Prog.Interruption AppError)

/-- The program of an attempt. -/
def Attempt.program (a : Attempt) : DbProg Bool := attempt a.config a.analyze a.draws a.interruption

/-- Where attempt `k` of the process stands among the programs of the pool; the places between
are for everything else that uses the database. -/
def place (k : ℕ) : ℕ := 2 * k

/-- The programs of the pool: the attempts of the process, and any others. -/
def placed (attempts : ℕ → Attempt) (others : ℕ → DbProg Bool) (q : ℕ) : DbProg Bool :=
  if q % 2 = 0 then (attempts (q / 2)).program else others (q / 2)

/-- Attempts and other programs in flight on the database. -/
abbrev AttemptPool : Type := Pool DbOp DbOp.Reply Database AppError Bool

/-- What the control and the attempts have to do with each other: an attempt leaves `inflight` when
it has ended, and goes on only while it is in flight and the process is there. -/
def inStep (s : Worker × AttemptPool) : WorkerEvent ⊕ PoolEvent → Bool
  | .inl (.settled k) => decide (s.2.procs (place k)).Ended
  | .inl _ => true
  | .inr (.run q) | .inr (.fail q _) =>
    decide (q % 2 = 1 ∨ (s.1.exited = false ∧ q / 2 ∈ s.1.inflight))

/-- Any call may fail here, reads included, and ends its program. What fails in the `try` of an
attempt is the interruption of the attempt, which goes on. -/
def callFaults : Faults DbOp AppError :=
  ⟨fun _ => true, .internal ⟨"MongoNetworkError", "database call failed"⟩⟩

/-- The worker process on a database that it shares with other programs. -/
def workerProcess (WORKER_CONCURRENCY : ℚ) :
    Machine (Worker × AttemptPool) (WorkerEvent ⊕ PoolEvent) :=
  (workerControl WORKER_CONCURRENCY).beside (Pool.machine database callFaults) inStep

/-- The process when its loop has begun, with any database and any other programs. -/
def workerStarted (db : Database) (attempts : ℕ → Attempt) (others : ℕ → DbProg Bool) :
    Worker × AttemptPool :=
  (.started, Pool.initial db (placed attempts others))

end CloudOps.Model
