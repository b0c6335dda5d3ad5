import CloudOps.Model.Retry
import Mathlib.Order.Bounds.Basic

/-!
# How often `withRetry` calls

`withRetry` stops at the first call that succeeds, that fails with an error it may not retry, or
that is the last one allowed, and hands on the outcome of that call. Between two calls it sleeps
once, and the throw after its loop is never reached (`withRetry_calls`).
-/

set_option autoImplicit false

namespace CloudOps.Analysis

open CloudOps.Computation CloudOps.Model

variable {ε α : Type}

/-- `fn` as the source of a sequence of outcomes; the state counts its calls, the first is
call one. -/
def calls (outcomes : ℕ → Except ε α) : Handler RetryOp (RetryOp.Reply ε α) ℕ where
  exec
    | .fn, n => (outcomes (n + 1), n + 1)
    | .sleep _, n => ((), n)

/-- The calls that `withRetry` does not go beyond. -/
def StopsAt (options : RetryOptions ε) (outcomes : ℕ → Except ε α) (k : ℕ) : Prop :=
  k = options.maxAttempts ∨ (∃ value, outcomes k = .ok value) ∨
    ∃ err, outcomes k = .error err ∧ options.retryable err = false

/-- The rounds from one attempt on: a call and a sleep each. -/
def roundsFrom (options : RetryOptions ε) (random : ℕ → ℚ) (attempt rounds : ℕ) : List RetryOp :=
  (List.range' attempt rounds).flatMap fun a => [.fn, .sleep (options.delay random a)]

/-- **The course of the loop** after `n` calls: it makes calls up to `last`, with a sleep after
each but the last one, and ends with the outcome of the last one. -/
structure Course (options : RetryOptions ε) (random : ℕ → ℚ) (outcomes : ℕ → Except ε α)
    (p : RetryProg ε α) (n last : ℕ) : Prop where
  least : IsLeast {k | n < k ∧ StopsAt options outcomes k} last
  ops : (p.trace (calls outcomes) n).map (·.op) =
    roundsFrom options random (n + 1) (last - (n + 1)) ++ [.fn]
  ends : p.run (calls outcomes) n = ((outcomes last).mapError .caught, last)

section Loop

variable {options : RetryOptions ε} {random : ℕ → ℚ} {outcomes : ℕ → Except ε α}
  {rounds n last : ℕ} {lastError : Option ε}

/-- A failed round is a call and a sleep before the other rounds. -/
theorem roundsFrom_succ (attempt : ℕ) : roundsFrom options random attempt (rounds + 1) =
    .fn :: .sleep (options.delay random attempt) ::
      roundsFrom options random (attempt + 1) rounds := by
  simp [roundsFrom, List.range'_succ]

/-- The next call is the least one that the loop can stop at. -/
theorem isLeast_next (h : StopsAt options outcomes (n + 1)) :
    IsLeast {k | n < k ∧ StopsAt options outcomes k} (n + 1) :=
  ⟨⟨Nat.lt_succ_self n, h⟩, fun _ hk => hk.1⟩

/-- A loop that does not stop at the next call stops where the rest of it does. -/
theorem isLeast_later (h : ¬ StopsAt options outcomes (n + 1))
    (hlast : IsLeast {k | n + 1 < k ∧ StopsAt options outcomes k} last) :
    IsLeast {k | n < k ∧ StopsAt options outcomes k} last := by
  obtain ⟨⟨hlt, hstops⟩, hle⟩ := hlast
  refine ⟨⟨by omega, hstops⟩, fun k hk => ?_⟩
  have hne : k ≠ n + 1 := by
    rintro rfl
    exact h hk.2
  have hlt : n < k := hk.1
  exact hle ⟨by omega, hk.2⟩

/-- A loop that ends with its next call. -/
theorem Course.of_next {p : RetryProg ε α} (hstops : StopsAt options outcomes (n + 1))
    (hops : (p.trace (calls outcomes) n).map (·.op) = [.fn])
    (hends : p.run (calls outcomes) n = ((outcomes (n + 1)).mapError .caught, n + 1)) :
    Course options random outcomes p n (n + 1) where
  least := isLeast_next hstops
  ops := by simp [hops, roundsFrom]
  ends := hends

/-- **The step and the run of the loop**, by induction on the rounds left. -/
theorem withRetryLoop_course (h : n + rounds + 1 = options.maxAttempts) : ∃ last,
    Course options random outcomes (withRetryLoop options random (rounds + 1) (n + 1) lastError)
      n last := by
  induction rounds generalizing n lastError with
  | zero =>
      have hlast : n + 1 = options.maxAttempts := by omega
      refine ⟨n + 1, .of_next (Or.inl hlast) ?_ ?_⟩
      · cases hcall : outcomes (n + 1) <;>
          simp [withRetryLoop, Prog.trace, calls, hcall, hlast.symm]
      · cases hcall : outcomes (n + 1) <;>
          simp [withRetryLoop, Prog.run, calls, hcall, hlast.symm, Except.mapError]
  | succ rounds ih =>
      have hmore : n + 1 ≠ options.maxAttempts := by omega
      cases hcall : outcomes (n + 1) with
      | ok value =>
          refine ⟨n + 1, .of_next (Or.inr (Or.inl ⟨value, hcall⟩)) ?_ ?_⟩
          · simp [withRetryLoop, Prog.trace, calls, hcall]
          · simp [withRetryLoop, Prog.run, calls, hcall, Except.mapError]
      | error err =>
          cases hretry : options.retryable err with
          | false =>
              refine ⟨n + 1, .of_next (Or.inr (Or.inr ⟨err, hcall, hretry⟩)) ?_ ?_⟩
              · simp [withRetryLoop, Prog.trace, calls, hcall, hretry]
              · simp [withRetryLoop, Prog.run, calls, hcall, hretry, Except.mapError]
          | true =>
              -- neither the last attempt nor an error that stops it: the loop sleeps and goes on
              have hgoes : ¬ StopsAt options outcomes (n + 1) := by
                rintro (hmax | ⟨value, hok⟩ | ⟨err', herr, hstop⟩)
                · exact hmore hmax
                · rw [hcall] at hok
                  cases hok
                · rw [hcall] at herr
                  cases herr
                  rw [hretry] at hstop
                  cases hstop
              obtain ⟨last, hleast, hops, hends⟩ := @ih (n + 1) (some err) (by omega)
              have hlt : n + 1 < last := hleast.1.1
              refine ⟨last, isLeast_later hgoes hleast, ?_, ?_⟩
              · have hrounds : last - (n + 1) = (last - (n + 1 + 1)) + 1 := by omega
                rw [hrounds, roundsFrom_succ, withRetryLoop]
                simpa [Prog.trace, calls, hcall, hretry, hmore] using hops
              · rw [withRetryLoop]
                simpa [Prog.run, calls, hcall, hretry, hmore] using hends

/-- **How often `withRetry` calls, and what it returns**: `fn` is called up to the first call that
succeeds, that may not be retried or that is the last one; there is one sleep between two calls
and none after the last; the outcome is that of the last call. The throw after the loop is
never reached.
SRCLINE: packages/shared/src/observability/retry.ts:42-59 -/
theorem withRetry_calls (options : RetryOptions ε) (random : ℕ → ℚ) (outcomes : ℕ → Except ε α)
    (h : 1 ≤ options.maxAttempts) : ∃ last,
    IsLeast {k | 1 ≤ k ∧ StopsAt options outcomes k} last ∧
    ((withRetry options random).trace (calls outcomes) 0).map (·.op) =
      roundsFrom options random 1 (last - 1) ++ [.fn] ∧
    (withRetry options random).run (calls outcomes) 0 =
      ((outcomes last).mapError .caught, last) ∧
    ∀ lastError, ((withRetry options random).run (calls outcomes) 0).1 ≠
      .error (.afterLoop lastError) := by
  obtain ⟨rounds, hrounds⟩ : ∃ rounds, options.maxAttempts = rounds + 1 :=
    Nat.exists_eq_add_of_le' h
  have hcourse : ∃ last, Course options random outcomes
      (withRetryLoop options random (rounds + 1) 1 none) 0 last :=
    withRetryLoop_course (by omega)
  rw [← hrounds] at hcourse
  obtain ⟨last, hleast, hops, hends⟩ := hcourse
  refine ⟨last, hleast, hops, hends, fun lastError hthrow => ?_⟩
  have hends : (withRetry options random).run (calls outcomes) 0 = _ := hends
  rw [hends] at hthrow
  cases hcall : outcomes last <;> simp [hcall, Except.mapError] at hthrow

end Loop

/-- A database that can be reached at the third attempt. -/
def thirdTime : ℕ → Except String Unit
  | 3 => .ok ()
  | _ => .error "server selection timed out"

/-- `connectMongo` connects at the third attempt, after two sleeps. -/
theorem withRetry_calls_connect : ∃ last, IsLeast {k | 1 ≤ k ∧ StopsAt
    ⟨8, 400, 4000, none⟩ thirdTime k} last ∧
    (connectMongo fun _ => 0).run (calls thirdTime) 0 = (.ok (), 3) ∧ last = 3 := by
  obtain ⟨last, hleast, -, hends, -⟩ :=
    withRetry_calls ⟨8, 400, 4000, none⟩ (fun _ => 0) thirdTime (by decide)
  have hrun : (connectMongo fun _ => 0).run (calls thirdTime) 0 = (.ok (), 3) := rfl
  refine ⟨last, hleast, hrun, ?_⟩
  exact (congrArg Prod.snd hends).symm

end CloudOps.Analysis
