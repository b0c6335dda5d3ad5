import CloudOps.Model.CircuitBreaker

/-!
# What a circuit breaker is for

The state a breaker should report, told by how its calls have settled and by the clock alone:
closed below the threshold of failures in a row, then open for a time after the last of
them, then half open.
-/

set_option autoImplicit false

namespace CloudOps.Interface

open CloudOps.Model

/-- The failures since the last success. -/
def failuresInARow (settled : List Settlement) : ℕ :=
  (settled.takeWhile fun settlement => !settlement.succeeded).length

/-- The instant of the last failure. -/
def lastFailure (settled : List Settlement) : Option Time :=
  (settled.find? fun settlement => !settlement.succeeded).map (·.settledAt)

/-- **The specification of the state.** -/
def specState (failureThreshold resetTimeoutMs : ℚ) (settled : List Settlement) (now : Time) :
    CircuitState :=
  if failuresInARow settled < failureThreshold then .closed
  else if (lastFailure settled).any fun t => (now - t : ℚ) < resetTimeoutMs then .open
  else .halfOpen

/-- Before any call there is no failure. -/
@[simp] theorem failuresInARow_nil : failuresInARow [] = 0 := rfl

/-- A success ends the failures in a row. -/
@[simp] theorem failuresInARow_success (t : Time) (settled : List Settlement) :
    failuresInARow (⟨true, t⟩ :: settled) = 0 := rfl

/-- A failure is one more in a row. -/
@[simp] theorem failuresInARow_failure (t : Time) (settled : List Settlement) :
    failuresInARow (⟨false, t⟩ :: settled) = failuresInARow settled + 1 := rfl

/-- The failure just settled is the last. -/
@[simp] theorem lastFailure_failure (t : Time) (settled : List Settlement) :
    lastFailure (⟨false, t⟩ :: settled) = some t := rfl

/-- Below the threshold the breaker is closed. -/
theorem specState_closed {failureThreshold resetTimeoutMs : ℚ} {settled : List Settlement}
    {now : Time} (h : failuresInARow settled < failureThreshold) :
    specState failureThreshold resetTimeoutMs settled now = .closed := if_pos h

/-- From the threshold on the breaker is open in its window. -/
theorem specState_open {failureThreshold resetTimeoutMs : ℚ} {settled : List Settlement}
    {now t : Time} (h : failureThreshold ≤ failuresInARow settled)
    (ht : lastFailure settled = some t) (hwindow : (now - t : ℚ) < resetTimeoutMs) :
    specState failureThreshold resetTimeoutMs settled now = .open := by
  rw [specState, if_neg (not_lt.mpr h), if_pos (by simpa [ht] using hwindow)]

/-- From the threshold on the breaker is half open after its window. -/
theorem specState_halfOpen {failureThreshold resetTimeoutMs : ℚ} {settled : List Settlement}
    {now t : Time} (h : failureThreshold ≤ failuresInARow settled)
    (ht : lastFailure settled = some t) (hwindow : resetTimeoutMs ≤ now - t) :
    specState failureThreshold resetTimeoutMs settled now = .halfOpen := by
  rw [specState, if_neg (not_lt.mpr h), if_neg (by simpa [ht] using hwindow)]

end CloudOps.Interface
