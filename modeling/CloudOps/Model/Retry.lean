import CloudOps.Computation.Program
import Mathlib.Data.Rat.Floor

/-!
# Backoff and retries (`observability/retry.ts`)

`exponentialBackoffWithJitter` over exact rationals. The random draw of the source is the
argument `random`; `Math.round` rounds half up. `withRetry` is a program whose operations are
the calls of `fn` and the sleeps between them.
-/

set_option autoImplicit false

namespace CloudOps.Model

open CloudOps.Computation

/-! ## `exponentialBackoffWithJitter` -/

structure BackoffOptions where
  attempt : ℤ
  baseMs : ℚ
  maxMs : ℚ
  jitterRatio : Option ℚ

/-- `Math.round`: the nearest integer, halves upwards. -/
def mathRound (x : ℚ) : ℤ := ⌊x + 1 / 2⌋

/-- SRCLINE: packages/shared/src/observability/retry.ts:8-13 -/
def exponentialBackoffWithJitter (opts : BackoffOptions) (random : ℚ) : ℤ :=
  let exp := min opts.maxMs (opts.baseMs * 2 ^ (max 0 (opts.attempt - 1)).toNat)
  let jitterRatio := opts.jitterRatio.getD (1 / 5)
  let jitter := exp * jitterRatio * random
  mathRound (exp + jitter)

/-! ## `withRetry` -/

/-- SRCLINE: packages/shared/src/observability/retry.ts:35-40 -/
structure RetryOptions (ε : Type) where
  maxAttempts : ℕ
  baseMs : ℚ
  maxMs : ℚ
  retryOn : Option (ε → Bool)

/-- `options.retryOn ? options.retryOn(err) : true`. -/
def RetryOptions.retryable {ε : Type} (options : RetryOptions ε) (err : ε) : Bool :=
  match options.retryOn with
  | some retryOn => retryOn err
  | none => true

/-- What `withRetry` awaits: a call of `fn`, and a sleep. -/
inductive RetryOp
  | fn
  | sleep (ms : ℤ)
  deriving DecidableEq

@[reducible] def RetryOp.Reply (ε α : Type) : RetryOp → Type
  | .fn => Except ε α
  | .sleep _ => Unit

/-- The two throws of `withRetry`: of the error just caught, and of `lastError` after the loop. -/
inductive RetryThrow (ε : Type)
  | caught (err : ε)
  | afterLoop (lastError : Option ε)

/-- A program of `withRetry`: its calls of `fn` succeed with an `α` or fail with an `ε`. -/
abbrev RetryProg (ε α : Type) : Type := Prog RetryOp (RetryOp.Reply ε α) (RetryThrow ε) α

/-- The delay before the attempt after this one. -/
def RetryOptions.delay {ε : Type} (options : RetryOptions ε) (random : ℕ → ℚ) (attempt : ℕ) : ℤ :=
  exponentialBackoffWithJitter
    { attempt := attempt, baseMs := options.baseMs, maxMs := options.maxMs, jitterRatio := none }
    (random attempt)

/-- The loop of `withRetry`, with the number of rounds left: `attempt` runs up to `maxAttempts`. -/
def withRetryLoop {ε α : Type} (options : RetryOptions ε) (random : ℕ → ℚ) :
    ℕ → ℕ → Option ε → RetryProg ε α
  | 0, _, lastError => .throw (.afterLoop lastError)
  | rounds + 1, attempt, _ =>
    .call .fn fun outcome =>
      match outcome with
      | .ok value => .ret value
      | .error err =>
        if !options.retryable err || attempt == options.maxAttempts then .throw (.caught err)
        else
          .call (.sleep (options.delay random attempt)) fun _ =>
            withRetryLoop options random rounds (attempt + 1) (some err)

/-- SRCLINE: packages/shared/src/observability/retry.ts:42-59 -/
def withRetry {ε α : Type} (options : RetryOptions ε) (random : ℕ → ℚ) : RetryProg ε α :=
  withRetryLoop options random options.maxAttempts 1 none

/-- `connectMongo`, its `fn` an attempt to connect.
SRCLINE: packages/shared/src/db/connection.ts:5-21 -/
def connectMongo {ε : Type} (random : ℕ → ℚ) : RetryProg ε Unit :=
  withRetry ⟨8, 400, 4000, none⟩ random

end CloudOps.Model
