import CloudOps.Interface.BreakerHistory

/-!
# The circuit breaker and its history

The breaker keeps a counter, an instant and a state that it updates only when it is asked.
`Tracks` says what these have to do with the settlements so far; every step keeps it, and so
what the breaker reports is what the specification says, for overlapping calls as well.
-/

set_option autoImplicit false

namespace CloudOps.Analysis

open CloudOps.Computation CloudOps.Model CloudOps.Interface

section Steps

variable {s s' : BreakerCalls} {e : BreakerEvent}

/-- **The steps of the calls**, said once. -/
theorem breaker_step_cases (h : breakerCalls.step s e = some s') :
    (∃ ms : ℕ, e = .tick ms ∧ s' = { s with now := s.now + ms }) ∨
    (∃ inFlight, e = .exec ∧
      s' = { s with breaker := s.breaker.maybeHalfOpen s.now, inFlight := inFlight }) ∨
    (∃ succeeded, e = .settle succeeded ∧ 0 < s.inFlight ∧ s' = { s with
      breaker := s.breaker.settle s.now succeeded
      inFlight := s.inFlight - 1
      settled := ⟨succeeded, s.now⟩ :: s.settled }) ∨
    (e = .getState ∧ s' = { s with breaker := s.breaker.maybeHalfOpen s.now }) := by
  cases e with
  | tick ms => exact Or.inl ⟨ms, rfl, (Option.some.inj h).symm⟩
  | exec =>
      refine Or.inr (Or.inl ?_)
      by_cases hopen : (s.breaker.maybeHalfOpen s.now).state = .open
      · simp only [breakerCalls, BreakerCalls.step, CircuitBreaker.exec, if_pos hopen,
          Option.some.injEq] at h
        exact ⟨s.inFlight, rfl, h.symm⟩
      · simp only [breakerCalls, BreakerCalls.step, CircuitBreaker.exec, if_neg hopen,
          Option.some.injEq] at h
        exact ⟨s.inFlight + 1, rfl, h.symm⟩
  | settle succeeded =>
      refine Or.inr (Or.inr (Or.inl ⟨succeeded, rfl, ?_⟩))
      by_cases hflight : 0 < s.inFlight
      · simp only [breakerCalls, BreakerCalls.step, if_pos hflight, Option.some.injEq] at h
        exact ⟨hflight, h.symm⟩
      · simp [breakerCalls, BreakerCalls.step, hflight] at h
  | getState => exact Or.inr (Or.inr (Or.inr ⟨rfl, (Option.some.inj h).symm⟩))

/-- A call is rejected when the breaker is open at its start, and only then. -/
theorem exec_fst (breaker : CircuitBreaker) (now : Time) : (breaker.exec now).1 =
    if (breaker.getState now).1 = .open then
      .error (.dependency "Diagnostics circuit breaker is open" true) else .ok () := by
  unfold CircuitBreaker.exec CircuitBreaker.getState
  dsimp only
  split <;> rfl

/-- A call that is rejected does not invoke its function. -/
theorem inFlight_exec (h : breakerCalls.step s .exec = some s') :
    s'.inFlight = if (s.breaker.getState s.now).1 = .open then s.inFlight else s.inFlight + 1 := by
  by_cases hopen : (s.breaker.maybeHalfOpen s.now).state = .open
  · simp only [breakerCalls, BreakerCalls.step, CircuitBreaker.exec, if_pos hopen,
      Option.some.injEq] at h
    rw [← h, CircuitBreaker.getState, if_pos hopen]
  · simp only [breakerCalls, BreakerCalls.step, CircuitBreaker.exec, if_neg hopen,
      Option.some.injEq] at h
    rw [← h, CircuitBreaker.getState, if_neg hopen]

end Steps

/-! ## The invariant -/

/-- What the fields of a breaker have to do with the settlements so far. -/
structure Tracks (failureThreshold resetTimeoutMs : ℚ) (s : BreakerCalls) : Prop where
  threshold : s.breaker.failureThreshold = failureThreshold
  timeout : s.breaker.resetTimeoutMs = resetTimeoutMs
  failures : s.breaker.failures = failuresInARow s.settled
  state : match s.breaker.state with
    | .closed => (failuresInARow s.settled : ℚ) < failureThreshold
    | .open => failureThreshold ≤ failuresInARow s.settled ∧
        lastFailure s.settled = some s.breaker.openedAt
    | .halfOpen => failureThreshold ≤ failuresInARow s.settled ∧
        ∃ t, lastFailure s.settled = some t ∧ resetTimeoutMs ≤ s.now - t

section Tracks

variable {failureThreshold resetTimeoutMs : ℚ} {s s' : BreakerCalls} {e : BreakerEvent}

/-- Asking for the state turns an open breaker half open when its time is over. -/
theorem Tracks.maybeHalfOpen (h : Tracks failureThreshold resetTimeoutMs s) :
    Tracks failureThreshold resetTimeoutMs
      { s with breaker := s.breaker.maybeHalfOpen s.now } ∧
    (s.breaker.maybeHalfOpen s.now).state =
      specState failureThreshold resetTimeoutMs s.settled s.now := by
  obtain ⟨hthreshold, hreset, hfailures, hstate⟩ := h
  unfold CircuitBreaker.maybeHalfOpen
  cases hs : s.breaker.state with
  | closed =>
      rw [if_neg (by simp)]
      rw [hs] at hstate
      exact ⟨⟨hthreshold, hreset, hfailures, by simpa [hs] using hstate⟩,
        hs.trans (specState_closed hstate).symm⟩
  | «open» =>
      rw [hs] at hstate
      obtain ⟨hfull, hlast⟩ := hstate
      by_cases hover : s.breaker.resetTimeoutMs ≤ s.now - s.breaker.openedAt
      · rw [if_pos ⟨rfl, hover⟩]
        rw [hreset] at hover
        exact ⟨⟨hthreshold, hreset, hfailures, hfull, _, hlast, hover⟩,
          (specState_halfOpen hfull hlast hover).symm⟩
      · rw [if_neg (by simpa using hover)]
        rw [hreset, not_le] at hover
        exact ⟨⟨hthreshold, hreset, hfailures, by simpa [hs] using ⟨hfull, hlast⟩⟩,
          hs.trans (specState_open hfull hlast hover).symm⟩
  | halfOpen =>
      rw [if_neg (by simp)]
      rw [hs] at hstate
      obtain ⟨hfull, t, hlast, hover⟩ := hstate
      exact ⟨⟨hthreshold, hreset, hfailures, by simpa [hs] using ⟨hfull, t, hlast, hover⟩⟩,
        hs.trans (specState_halfOpen hfull hlast hover).symm⟩

/-- A settlement is what the history records. -/
theorem Tracks.settle (hpos : 0 < failureThreshold)
    (h : Tracks failureThreshold resetTimeoutMs s) (succeeded : Bool) (inFlight : ℕ) :
    Tracks failureThreshold resetTimeoutMs { s with
      breaker := s.breaker.settle s.now succeeded
      inFlight := inFlight
      settled := ⟨succeeded, s.now⟩ :: s.settled } := by
  obtain ⟨hthreshold, hreset, hfailures, hstate⟩ := h
  cases succeeded with
  | true =>
      refine ⟨hthreshold, hreset, rfl, ?_⟩
      simpa [CircuitBreaker.settle, CircuitBreaker.onSuccess] using hpos
  | false =>
      have hcount : ((s.breaker.failures + 1 : ℕ) : ℚ) = failuresInARow s.settled + 1 := by
        rw [hfailures]; push_cast; rfl
      by_cases hopens : s.breaker.state = .halfOpen ∨
          s.breaker.failureThreshold ≤ ((s.breaker.failures + 1 : ℕ) : ℚ)
      · have hfull : failureThreshold ≤ ((failuresInARow s.settled + 1 : ℕ) : ℚ) := by
          rcases hopens with hhalf | hfull
          · rw [hhalf] at hstate
            push_cast
            linarith [hstate.1]
          · rw [hthreshold, hcount] at hfull
            exact_mod_cast hfull
        simp only [CircuitBreaker.settle, CircuitBreaker.onFailure, Bool.false_eq_true, if_false,
          if_pos hopens]
        exact ⟨hthreshold, hreset, by rw [hfailures]; rfl, hfull, rfl⟩
      · simp only [CircuitBreaker.settle, CircuitBreaker.onFailure, Bool.false_eq_true, if_false,
          if_neg hopens]
        rw [not_or, not_le, hthreshold, hcount] at hopens
        refine ⟨hthreshold, hreset, by rw [hfailures]; rfl, ?_⟩
        cases hs : s.breaker.state with
        | closed => exact_mod_cast hopens.2
        | «open» =>
            rw [hs] at hstate
            linarith [hstate.1, hopens.2]
        | halfOpen => exact absurd hs hopens.1

/-- **Every step keeps the fields in line with the history.** -/
theorem Tracks.step (hpos : 0 < failureThreshold) (h : Tracks failureThreshold resetTimeoutMs s)
    (hstep : breakerCalls.step s e = some s') : Tracks failureThreshold resetTimeoutMs s' := by
  rcases breaker_step_cases hstep with ⟨ms, -, rfl⟩ | ⟨inFlight, -, rfl⟩ | ⟨succeeded, -, -, rfl⟩ |
    ⟨-, rfl⟩
  · obtain ⟨hthreshold, hreset, hfailures, hstate⟩ := h
    refine ⟨hthreshold, hreset, hfailures, ?_⟩
    cases hs : s.breaker.state with
    | closed => rw [hs] at hstate; exact hstate
    | «open» => rw [hs] at hstate; exact hstate
    | halfOpen =>
        rw [hs] at hstate
        obtain ⟨hfull, t, hlast, hover⟩ := hstate
        refine ⟨hfull, t, hlast, hover.trans ?_⟩
        push_cast
        linarith [Nat.cast_nonneg (α := ℚ) ms]
  · obtain ⟨hthreshold, hreset, hfailures, hstate⟩ := h.maybeHalfOpen.1
    exact ⟨hthreshold, hreset, hfailures, hstate⟩
  · exact h.settle hpos succeeded _
  · exact h.maybeHalfOpen.1

end Tracks

/-- **The breaker is what its history says**: in every run, for overlapping calls as well, it
reports the state of the specification, and rejects a call exactly when that state is open.
SRCLINE: packages/shared/src/observability/circuit-breaker.ts:5-53 -/
theorem breaker_refines_history {failureThreshold resetTimeoutMs : ℚ}
    (hthreshold : 1 ≤ failureThreshold) {now : Time} {G : BreakerCalls → BreakerEvent → Prop}
    {s : BreakerCalls}
    (hs : breakerCalls.Reaches G (.initial failureThreshold resetTimeoutMs now) s) :
    (s.breaker.getState s.now).1 = specState failureThreshold resetTimeoutMs s.settled s.now ∧
    ((s.breaker.exec s.now).1 = .error (.dependency "Diagnostics circuit breaker is open" true) ↔
      specState failureThreshold resetTimeoutMs s.settled s.now = .open) ∧
    ∀ s', breakerCalls.step s .exec = some s' → (s'.inFlight = s.inFlight ↔
      specState failureThreshold resetTimeoutMs s.settled s.now = .open) := by
  have hpos : 0 < failureThreshold := by linarith
  have htracks : Tracks failureThreshold resetTimeoutMs s := by
    refine hs.invariant ⟨rfl, rfl, rfl, ?_⟩ fun t e t' ht _ hstep => ht.step hpos hstep
    simpa [BreakerCalls.initial, CircuitBreaker.new] using hpos
  have hstate : (s.breaker.getState s.now).1 =
      specState failureThreshold resetTimeoutMs s.settled s.now := htracks.maybeHalfOpen.2
  refine ⟨hstate, ?_, fun s' hstep => ?_⟩
  · rw [exec_fst, hstate]
    split
    · next h => simp [h]
    · next h => simp [h]
  · rw [inFlight_exec hstep, hstate]
    split
    · next h => simp [h]
    · next h => simp [h]

/-- Two failures in a row open a breaker with threshold two. -/
theorem breaker_refines_history_twoFailures : ∃ s,
    breakerCalls.Reaches Machine.unguarded (.initial 2 10000 0) s ∧
      (s.breaker.getState s.now).1 = specState 2 10000 s.settled s.now ∧
        specState 2 10000 s.settled s.now = .open := by
  let s := (breakerCalls.run (.initial 2 10000 0)
    [.exec, .settle false, .exec, .settle false]).get (by decide +kernel)
  have hs : breakerCalls.Reaches Machine.unguarded (.initial 2 10000 0) s :=
    Machine.reaches_of_run _ (Option.some_get _).symm
  exact ⟨s, hs, (breaker_refines_history (by norm_num) hs).1, by decide +kernel⟩

end CloudOps.Analysis
