import CloudOps.Analysis.BreakerHistory

/-!
# The open window of the circuit breaker

Calls admitted before the breaker opens settle after it has opened. One that fails then
only opens it anew; one that succeeds closes it, whatever its time. `window_kept` says that
this success is all that can end the window early.
-/

set_option autoImplicit false

namespace CloudOps.Analysis

open CloudOps.Computation CloudOps.Model

/-- No call settles with success while the breaker is open and its time not over. -/
def NoLateSuccess (s : BreakerCalls) (e : BreakerEvent) : Prop :=
  e = .settle true → s.breaker.state = .open →
    s.breaker.resetTimeoutMs ≤ s.now - s.breaker.openedAt

/-- In runs under a guard, whenever the breaker passes to open at an instant, every call that
starts from then on before the reset time is over is rejected. -/
def KeepsWindow (failureThreshold resetTimeoutMs : ℚ)
    (G : BreakerCalls → BreakerEvent → Prop) : Prop :=
  1 ≤ failureThreshold → 0 ≤ resetTimeoutMs →
    ∀ now s s' t e, breakerCalls.Reaches G (.initial failureThreshold resetTimeoutMs now) s →
      G s e → breakerCalls.step s e = some s' → s.breaker.state ≠ .open →
      s'.breaker.state = .open → breakerCalls.Reaches G s' t →
      (t.now : ℚ) < s'.now + resetTimeoutMs →
        (t.breaker.exec t.now).1 =
          .error (.dependency "Diagnostics circuit breaker is open" true)

section Window

variable {resetTimeoutMs : ℚ} {opened : Time} {s s' : BreakerCalls} {e : BreakerEvent}

/-- The breaker is open until its time since `opened` is over. -/
structure Window (resetTimeoutMs : ℚ) (opened : Time) (s : BreakerCalls) : Prop where
  timeout : s.breaker.resetTimeoutMs = resetTimeoutMs
  isOpen : (s.now : ℚ) < opened + resetTimeoutMs →
    s.breaker.state = .open ∧ opened ≤ s.breaker.openedAt

/-- In its window the breaker stays as it is when it is asked for its state. -/
theorem Window.maybeHalfOpen (h : Window resetTimeoutMs opened s)
    (hnow : (s.now : ℚ) < opened + resetTimeoutMs) :
    s.breaker.maybeHalfOpen s.now = s.breaker := by
  obtain ⟨-, hle⟩ := h.isOpen hnow
  have hlate : (opened : ℚ) ≤ s.breaker.openedAt := by exact_mod_cast hle
  have htime := h.timeout
  refine if_neg fun hover => ?_
  have hreset := hover.2
  linarith

/-- Asking for the state leaves the reset time alone. -/
theorem maybeHalfOpen_timeout (breaker : CircuitBreaker) (now : Time) :
    (breaker.maybeHalfOpen now).resetTimeoutMs = breaker.resetTimeoutMs := by
  unfold CircuitBreaker.maybeHalfOpen
  split <;> rfl

/-- Settling a call leaves the reset time alone. -/
theorem settle_timeout (breaker : CircuitBreaker) (now : Time) (succeeded : Bool) :
    (breaker.settle now succeeded).resetTimeoutMs = breaker.resetTimeoutMs := by
  unfold CircuitBreaker.settle CircuitBreaker.onSuccess CircuitBreaker.onFailure
  dsimp only
  split
  · rfl
  · split <;> rfl

/-- **No step ends the window early** but a success.
SRCLINE: packages/shared/src/observability/circuit-breaker.ts:36-53 -/
theorem Window.step (h : Window resetTimeoutMs opened s) (hopened : opened ≤ s.now)
    (hG : NoLateSuccess s e) (hstep : breakerCalls.step s e = some s') :
    Window resetTimeoutMs opened s' ∧ opened ≤ s'.now := by
  rcases breaker_step_cases hstep with ⟨ms, -, rfl⟩ | ⟨inFlight, -, rfl⟩ |
    ⟨succeeded, rfl, -, rfl⟩ |
    ⟨-, rfl⟩
  · have hms : (0 : ℚ) ≤ (ms : ℚ) := Nat.cast_nonneg ms
    refine ⟨⟨h.timeout, fun hnow => h.isOpen ?_⟩, ?_⟩
    · push_cast at hnow
      linarith
    · exact le_add_of_le_of_nonneg hopened (Int.natCast_nonneg ms)
  · refine ⟨⟨(maybeHalfOpen_timeout _ _).trans h.timeout, fun hnow => ?_⟩, hopened⟩
    dsimp only at hnow ⊢
    rw [h.maybeHalfOpen hnow]
    exact h.isOpen hnow
  · refine ⟨⟨(settle_timeout _ _ _).trans h.timeout, fun hnow => ?_⟩, hopened⟩
    dsimp only at hnow ⊢
    obtain ⟨hopen, hle⟩ := h.isOpen hnow
    have hlate : (opened : ℚ) ≤ s.breaker.openedAt := by exact_mod_cast hle
    cases succeeded with
    | true =>
        -- the guard says that the time is over
        have hover := hG rfl hopen
        have htime := h.timeout
        linarith
    | false =>
        simp only [CircuitBreaker.settle, CircuitBreaker.onFailure, Bool.false_eq_true, if_false]
        split
        · exact ⟨rfl, hopened⟩
        · exact ⟨hopen, hle⟩
  · refine ⟨⟨(maybeHalfOpen_timeout _ _).trans h.timeout, fun hnow => ?_⟩, hopened⟩
    dsimp only at hnow ⊢
    rw [h.maybeHalfOpen hnow]
    exact h.isOpen hnow

/-- Only a failure opens a breaker, and it notes the instant. -/
theorem opened_step (hstep : breakerCalls.step s e = some s') (hnot : s.breaker.state ≠ .open)
    (hopen : s'.breaker.state = .open) : s'.breaker.openedAt = s'.now := by
  have hasked : (s.breaker.maybeHalfOpen s.now).state ≠ .open := by
    rw [CircuitBreaker.maybeHalfOpen, if_neg fun h => hnot h.1]
    exact hnot
  rcases breaker_step_cases hstep with ⟨ms, -, rfl⟩ | ⟨inFlight, -, rfl⟩ | ⟨succeeded, -, -, rfl⟩ |
    ⟨-, rfl⟩
  · exact absurd hopen hnot
  · exact absurd hopen hasked
  · cases succeeded with
    | true => cases hopen
    | false =>
        dsimp only at hopen ⊢
        simp only [CircuitBreaker.settle, CircuitBreaker.onFailure, Bool.false_eq_true, if_false]
          at hopen ⊢
        split
        · rfl
        · next h => rw [if_neg h] at hopen; exact absurd hopen hnot
  · exact absurd hopen hasked

end Window

/-- **The window is kept** in every run in which no call admitted earlier succeeds in it.
SRCLINE: packages/shared/src/observability/circuit-breaker.ts:20-53,
apps/worker/src/index.ts:27-32 -/
theorem window_kept (failureThreshold resetTimeoutMs : ℚ) :
    KeepsWindow failureThreshold resetTimeoutMs NoLateSuccess := by
  intro _ _ now s s' t e hs _ hstep hnot hopen ht hnow
  have htimeout : ∀ {u}, breakerCalls.Reaches NoLateSuccess
      (.initial failureThreshold resetTimeoutMs now) u →
        u.breaker.resetTimeoutMs = resetTimeoutMs := by
    intro u hu
    refine hu.invariant (I := fun u => u.breaker.resetTimeoutMs = resetTimeoutMs) rfl
      fun v e v' hv _ he => ?_
    rcases breaker_step_cases he with ⟨ms, -, rfl⟩ | ⟨inFlight, -, rfl⟩ | ⟨succeeded, -, -, rfl⟩ |
      ⟨-, rfl⟩
    · exact hv
    · exact (maybeHalfOpen_timeout _ _).trans hv
    · exact (settle_timeout _ _ _).trans hv
    · exact (maybeHalfOpen_timeout _ _).trans hv
  have hstart : Window resetTimeoutMs s'.now s' ∧ s'.now ≤ s'.now :=
    ⟨⟨htimeout (hs.step e ‹_› hstep), fun _ => ⟨hopen, (opened_step hstep hnot hopen).ge⟩⟩, le_rfl⟩
  have hend : Window resetTimeoutMs s'.now t ∧ s'.now ≤ t.now :=
    ht.invariant (I := fun u => Window resetTimeoutMs s'.now u ∧ s'.now ≤ u.now) hstart
      fun u e u' hu hG he => hu.1.step hu.2 hG he
  have hasked : (t.breaker.getState t.now).1 = .open := by
    rw [CircuitBreaker.getState, hend.1.maybeHalfOpen hnow]
    exact (hend.1.isOpen hnow).1
  rw [exec_fst, if_pos hasked]

/-! ## A success that comes late -/

/-- Two calls overlap; the first fails and opens the breaker, the second succeeds and closes it.
SRCLINE: packages/shared/src/observability/circuit-breaker.ts:42-45 -/
theorem window_not_kept : ¬ KeepsWindow 1 10000 Machine.unguarded := by
  intro h
  let s := (breakerCalls.run (.initial 1 10000 0) [.exec, .exec]).get (by decide +kernel)
  have hs : breakerCalls.Reaches Machine.unguarded (.initial 1 10000 0) s :=
    Machine.reaches_of_run _ (Option.some_get _).symm
  let s' := (breakerCalls.step s (.settle false)).get (by decide +kernel)
  have hstep : breakerCalls.step s (.settle false) = some s' := (Option.some_get _).symm
  let t := (breakerCalls.run s' [.tick 1, .settle true]).get (by decide +kernel)
  have ht : breakerCalls.Reaches Machine.unguarded s' t :=
    Machine.reaches_of_run _ (Option.some_get _).symm
  have hrejected := h (by norm_num) (by norm_num) 0 s s' t _ hs trivial hstep
    (by decide +kernel) (by decide +kernel) ht (by decide +kernel)
  rw [exec_fst, if_neg (by decide +kernel)] at hrejected
  cases hrejected

/-! ## A failure that comes late -/

/-- Whether no call settles with success in the window. -/
def noLateSuccess (s : BreakerCalls) : BreakerEvent → Bool
  | .settle true => decide (s.breaker.state = .open →
    s.breaker.resetTimeoutMs ≤ s.now - s.breaker.openedAt)
  | _ => true

/-- The check decides the condition. -/
theorem noLateSuccess_of_check (s : BreakerCalls) (e : BreakerEvent)
    (h : noLateSuccess s e = true) : NoLateSuccess s e := by
  rintro rfl
  exact of_decide_eq_true h

/-- A call succeeds, and two overlap. -/
def beforeOpening : List BreakerEvent := [.exec, .settle true, .exec, .exec, .tick 5]

/-- The second of the two fails late, and a third one is turned away. -/
def afterOpening : List BreakerEvent := [.tick 4000, .settle false, .exec, .tick 5000]

/-- The breaker before it opens. -/
def closedCalls : BreakerCalls :=
  (breakerCalls.runChecked noLateSuccess (.initial 1 10000 0) beforeOpening).get
    (by decide +kernel)

/-- The breaker when the first of the two has failed. -/
def openedCalls : BreakerCalls :=
  (breakerCalls.step closedCalls (.settle false)).get (by decide +kernel)

/-- The breaker in its window. -/
def windowCalls : BreakerCalls :=
  (breakerCalls.runChecked noLateSuccess openedCalls afterOpening).get (by decide +kernel)

/-- A call that starts nine seconds after the opening is rejected. -/
theorem window_kept_lateFailure : openedCalls.now = 5 ∧ windowCalls.now = 9005 ∧
    (windowCalls.breaker.exec windowCalls.now).1 =
      .error (.dependency "Diagnostics circuit breaker is open" true) := by
  have hs : breakerCalls.Reaches NoLateSuccess (.initial 1 10000 0) closedCalls :=
    Machine.reaches_of_runChecked noLateSuccess_of_check beforeOpening (Option.some_get _).symm
  have ht : breakerCalls.Reaches NoLateSuccess openedCalls windowCalls :=
    Machine.reaches_of_runChecked noLateSuccess_of_check afterOpening (Option.some_get _).symm
  exact ⟨by decide +kernel, by decide +kernel, window_kept 1 10000 (by norm_num) (by norm_num) 0
    closedCalls openedCalls windowCalls (.settle false) hs (fun h => by cases h)
    (Option.some_get _).symm (by decide +kernel) (by decide +kernel) ht (by decide +kernel)⟩

end CloudOps.Analysis
