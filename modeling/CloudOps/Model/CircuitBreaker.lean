import CloudOps.Computation.Transition
import CloudOps.Model.Types

/-!
# The circuit breaker (`observability/circuit-breaker.ts`)

The methods of the class as functions of its fields and the clock. `exec` awaits the call in
its middle, so it is two steps: `exec` up to the call, and `settle` when the call has
succeeded or failed. The machine `breakerCalls` lets any number of calls overlap.

The machine also keeps what no field records: how the calls it admitted have settled, and
when. No step of the breaker reads that.
-/

set_option autoImplicit false

namespace CloudOps.Model

open CloudOps.Computation

inductive CircuitState
  | closed | open | halfOpen
  deriving DecidableEq, Repr

/-- The fields of the class. -/
structure CircuitBreaker where
  failures : ℕ
  state : CircuitState
  openedAt : Time
  failureThreshold : ℚ
  resetTimeoutMs : ℚ

namespace CircuitBreaker

/-- SRCLINE: packages/shared/src/observability/circuit-breaker.ts:6-13 -/
def new (failureThreshold resetTimeoutMs : ℚ) : CircuitBreaker where
  failures := 0
  state := .closed
  openedAt := 0
  failureThreshold := failureThreshold
  resetTimeoutMs := resetTimeoutMs

/-- SRCLINE: packages/shared/src/observability/circuit-breaker.ts:36-40 -/
def maybeHalfOpen (breaker : CircuitBreaker) (now : Time) : CircuitBreaker :=
  if breaker.state = .open ∧ breaker.resetTimeoutMs ≤ now - breaker.openedAt then
    { breaker with state := .halfOpen }
  else breaker

/-- SRCLINE: packages/shared/src/observability/circuit-breaker.ts:42-45 -/
def onSuccess (breaker : CircuitBreaker) : CircuitBreaker :=
  { breaker with failures := 0, state := .closed }

/-- SRCLINE: packages/shared/src/observability/circuit-breaker.ts:47-53 -/
def onFailure (breaker : CircuitBreaker) (now : Time) : CircuitBreaker :=
  let breaker := { breaker with failures := breaker.failures + 1 }
  if breaker.state = .halfOpen ∨ breaker.failureThreshold ≤ breaker.failures then
    { breaker with state := .open, openedAt := now }
  else breaker

/-- SRCLINE: packages/shared/src/observability/circuit-breaker.ts:15-18 -/
def getState (breaker : CircuitBreaker) (now : Time) : CircuitState × CircuitBreaker :=
  let breaker := breaker.maybeHalfOpen now
  (breaker.state, breaker)

/-- `exec` up to the call of its function, which an error keeps from being invoked.
SRCLINE: packages/shared/src/observability/circuit-breaker.ts:20-24 -/
def exec (breaker : CircuitBreaker) (now : Time) : Except AppError Unit × CircuitBreaker :=
  let breaker := breaker.maybeHalfOpen now
  if breaker.state = .open then
    (.error (.dependency "Diagnostics circuit breaker is open" true), breaker)
  else (.ok (), breaker)

/-- `exec` after its function has succeeded or failed.
SRCLINE: packages/shared/src/observability/circuit-breaker.ts:25-33 -/
def settle (breaker : CircuitBreaker) (now : Time) (succeeded : Bool) : CircuitBreaker :=
  if succeeded then breaker.onSuccess else breaker.onFailure now

end CircuitBreaker

/-- How an admitted call has settled. -/
structure Settlement where
  succeeded : Bool
  settledAt : Time

/-- A breaker and the calls over it. -/
structure BreakerCalls where
  now : Time
  breaker : CircuitBreaker
  /-- calls whose function has been invoked and has not settled -/
  inFlight : ℕ
  /-- the settlements so far, the last one first -/
  settled : List Settlement

/-- The start of a call, the settlement of one in flight, a reading of the state, or the passing
of time. -/
inductive BreakerEvent
  | tick (ms : ℕ)
  | exec
  | settle (succeeded : Bool)
  | getState

namespace BreakerCalls

/-- A new breaker, nothing called yet. -/
def initial (failureThreshold resetTimeoutMs : ℚ) (now : Time) : BreakerCalls :=
  ⟨now, .new failureThreshold resetTimeoutMs, 0, []⟩

/-- The step function of the calls. -/
def step (s : BreakerCalls) : BreakerEvent → Option BreakerCalls
  | .tick ms => some { s with now := s.now + ms }
  | .exec =>
      match s.breaker.exec s.now with
      | (.ok _, breaker) => some { s with breaker := breaker, inFlight := s.inFlight + 1 }
      | (.error _, breaker) => some { s with breaker := breaker }
  | .settle succeeded =>
      if 0 < s.inFlight then
        some { s with
          breaker := s.breaker.settle s.now succeeded
          inFlight := s.inFlight - 1
          settled := ⟨succeeded, s.now⟩ :: s.settled }
      else none
  | .getState => some { s with breaker := (s.breaker.getState s.now).2 }

end BreakerCalls

/-- Overlapping calls over one breaker as a machine. -/
def breakerCalls : Machine BreakerCalls BreakerEvent := ⟨BreakerCalls.step⟩

end CloudOps.Model
