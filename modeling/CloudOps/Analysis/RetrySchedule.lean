import CloudOps.Model.JobQueue

/-!
# The retry schedule and its cap

`exponentialBackoffWithJitter` caps the exponential and adds the jitter afterwards. The delay
of a failed job therefore grows with its attempts and is never too short, but it can pass the
cap: `schedule_capped_iff` says when it does not.
-/

set_option autoImplicit false

namespace CloudOps.Analysis

open CloudOps.Model

/-! ## Rounding -/

/-- Rounding keeps the order. -/
theorem mathRound_mono {x y : ℚ} (h : x ≤ y) : mathRound x ≤ mathRound y :=
  Int.floor_mono (by linarith)

/-- What rounds to at most an integer lies below its next half. -/
theorem mathRound_le_iff {x : ℚ} {n : ℤ} : mathRound x ≤ n ↔ x < n + 1 / 2 := by
  unfold mathRound
  rw [← Int.lt_add_one_iff, Int.floor_lt]
  push_cast
  constructor <;> intro h <;> linarith

/-- What is at least an integer rounds to at least it. -/
theorem le_mathRound {x : ℚ} {n : ℤ} (h : (n : ℚ) ≤ x) : n ≤ mathRound x := by
  unfold mathRound
  rw [Int.le_floor]
  linarith

/-! ## The delay -/

/-- The exponential of a configuration, before its cap. -/
def uncapped (cfg : JobQueueConfig) (attempt : ℕ) : ℚ := cfg.backoffBaseMs * 2 ^ (attempt - 1)

/-- The delay after a failed attempt.
SRCLINE: packages/shared/src/jobs/queue.ts:84-88 -/
def retryDelay (cfg : JobQueueConfig) (attempt : ℕ) (random : ℚ) : ℤ :=
  exponentialBackoffWithJitter
    { attempt := attempt, baseMs := cfg.backoffBaseMs, maxMs := cfg.backoffMaxMs,
      jitterRatio := none } random

/-- What the schedule is meant to keep to at one attempt and one draw. -/
structure RespectsSchedule (cfg : JobQueueConfig) (random : ℚ) (attempt : ℕ) : Prop where
  cap : (retryDelay cfg attempt random : ℚ) ≤ cfg.backoffMaxMs
  floor : min cfg.backoffMaxMs cfg.backoffBaseMs ≤ retryDelay cfg attempt random
  grows : ∀ later, attempt ≤ later → retryDelay cfg attempt random ≤ retryDelay cfg later random

section Delay

variable {cfg : JobQueueConfig} {random : ℚ} {attempt later : ℕ} {baseMs maxMs : ℕ}

/-- `fail` moves the next run of a job it does not give up by this delay. -/
theorem nextRunAt_failUpdate {call : FailCall} {now : Time} {job : DiagnosticJob}
    (h : call.deadLetters = false) : (failUpdate cfg call random now job).nextRunAt =
      now + retryDelay cfg call.attempts random := by
  simp [failUpdate, h, retryDelay]

/-- The delay is the capped backoff with its jitter, rounded. -/
theorem retryDelay_eq : retryDelay cfg attempt random =
    mathRound (min cfg.backoffMaxMs (uncapped cfg attempt) * (1 + random / 5)) := by
  have hexponent : (max 0 ((attempt : ℤ) - 1)).toNat = attempt - 1 := by omega
  unfold retryDelay exponentialBackoffWithJitter uncapped
  simp only [hexponent, Option.getD_none]
  congr 1
  ring

/-- The backoff grows with the attempts. -/
theorem uncapped_mono (hbase : 0 ≤ cfg.backoffBaseMs) (h : attempt ≤ later) :
    uncapped cfg attempt ≤ uncapped cfg later := by
  unfold uncapped
  have hpow : (2 : ℚ) ^ (attempt - 1) ≤ 2 ^ (later - 1) :=
    pow_le_pow_right₀ (by norm_num) (by omega)
  exact mul_le_mul_of_nonneg_left hpow hbase

/-- The backoff is at least its base. -/
theorem base_le_uncapped (hbase : 0 ≤ cfg.backoffBaseMs) :
    cfg.backoffBaseMs ≤ uncapped cfg attempt := by
  have hpow : (1 : ℚ) ≤ 2 ^ (attempt - 1) := one_le_pow₀ (by norm_num)
  exact le_mul_of_one_le_right hbase hpow

/-- **The delay grows** with the attempts, for a fixed draw. -/
theorem retryDelay_mono (hbase : 0 ≤ cfg.backoffBaseMs) (hrandom : 0 ≤ random)
    (h : attempt ≤ later) : retryDelay cfg attempt random ≤ retryDelay cfg later random := by
  rw [retryDelay_eq, retryDelay_eq]
  apply mathRound_mono
  have hcapped : min cfg.backoffMaxMs (uncapped cfg attempt) ≤
      min cfg.backoffMaxMs (uncapped cfg later) := min_le_min_left _ (uncapped_mono hbase h)
  exact mul_le_mul_of_nonneg_right hcapped (by linarith)

/-- **The delay is never too short.** -/
theorem floor_le_retryDelay (hbase : cfg.backoffBaseMs = baseMs) (hmax : cfg.backoffMaxMs = maxMs)
    (hrandom : 0 ≤ random) :
    min cfg.backoffMaxMs cfg.backoffBaseMs ≤ retryDelay cfg attempt random := by
  have hbase₀ : 0 ≤ cfg.backoffBaseMs := hbase ▸ Nat.cast_nonneg baseMs
  have hmax₀ : 0 ≤ cfg.backoffMaxMs := hmax ▸ Nat.cast_nonneg maxMs
  have hfloor : min cfg.backoffMaxMs cfg.backoffBaseMs = ((min maxMs baseMs : ℕ) : ℤ) := by
    rw [hbase, hmax]
    push_cast
    rfl
  have hcapped : min cfg.backoffMaxMs cfg.backoffBaseMs ≤
      min cfg.backoffMaxMs (uncapped cfg attempt) := min_le_min_left _ (base_le_uncapped hbase₀)
  have hjitter : min cfg.backoffMaxMs (uncapped cfg attempt) ≤
      min cfg.backoffMaxMs (uncapped cfg attempt) * (1 + random / 5) :=
    le_mul_of_one_le_right (le_min hmax₀ (hbase₀.trans (base_le_uncapped hbase₀))) (by linarith)
  rw [retryDelay_eq, hfloor]
  exact_mod_cast le_mathRound (hfloor ▸ hcapped.trans hjitter)

/-- **When the delay keeps to the cap**: the exponential with its jitter stays below it, or the
jitter on the cap itself is rounded away. -/
theorem retryDelay_le_iff (hmax : cfg.backoffMaxMs = maxMs) (hrandom : 0 ≤ random) :
    (retryDelay cfg attempt random : ℚ) ≤ cfg.backoffMaxMs ↔
      uncapped cfg attempt * (1 + random / 5) < cfg.backoffMaxMs + 1 / 2 ∨
        cfg.backoffMaxMs * random < 5 / 2 := by
  have hcast : (retryDelay cfg attempt random : ℚ) ≤ cfg.backoffMaxMs ↔
      retryDelay cfg attempt random ≤ (maxMs : ℤ) := by
    rw [hmax]
    exact_mod_cast Iff.rfl
  rw [hcast, retryDelay_eq, mathRound_le_iff, show ((maxMs : ℤ) : ℚ) = cfg.backoffMaxMs by
    rw [hmax]; push_cast; rfl]
  rcases le_total cfg.backoffMaxMs (uncapped cfg attempt) with h | h
  · -- the cap has been reached: only the jitter on it counts
    have hle : cfg.backoffMaxMs * (1 + random / 5) ≤ uncapped cfg attempt * (1 + random / 5) :=
      mul_le_mul_of_nonneg_right h (by linarith)
    rw [min_eq_left h]
    constructor
    · intro hlt
      right
      linarith
    · rintro (hlt | hlt) <;> linarith
  · have hle : uncapped cfg attempt * random ≤ cfg.backoffMaxMs * random :=
      mul_le_mul_of_nonneg_right h hrandom
    rw [min_eq_right h]
    constructor
    · exact Or.inl
    · rintro (hlt | hlt) <;> linarith

/-- **When the schedule respects its cap.** It grows and is never too short in any case.
SRCLINE: packages/shared/src/observability/retry.ts:8-13,
packages/shared/src/jobs/queue.ts:84-100, packages/shared/tests/unit.test.ts:15-39 -/
theorem schedule_capped_iff (hbase : cfg.backoffBaseMs = baseMs) (hmax : cfg.backoffMaxMs = maxMs)
    (hrandom : 0 ≤ random) :
    (∀ call now job, call.deadLetters = false → (failUpdate cfg call random now job).nextRunAt =
      now + retryDelay cfg call.attempts random) ∧
    (RespectsSchedule cfg random attempt ↔
      uncapped cfg attempt * (1 + random / 5) < cfg.backoffMaxMs + 1 / 2 ∨
        cfg.backoffMaxMs * random < 5 / 2) := by
  have hbase₀ : 0 ≤ cfg.backoffBaseMs := hbase ▸ Nat.cast_nonneg baseMs
  refine ⟨fun call now job => nextRunAt_failUpdate, ?_⟩
  rw [← retryDelay_le_iff hmax hrandom]
  constructor
  · exact RespectsSchedule.cap
  · intro hcap
    exact ⟨hcap, floor_le_retryDelay hbase hmax hrandom, fun _ =>
      retryDelay_mono hbase₀ hrandom⟩

end Delay

/-- After the third failure of a job that is retried once a second at first, the delay keeps to a
cap of fifteen seconds. -/
theorem schedule_capped_third : RespectsSchedule ⟨30000, 10, 1000, 15000⟩ (1 / 2) 3 := by
  have hbase : (1000 : ℚ) = (1000 : ℕ) := by norm_num
  have hmax : (15000 : ℚ) = (15000 : ℕ) := by norm_num
  refine (schedule_capped_iff hbase hmax (by norm_num)).2.mpr (Or.inl ?_)
  norm_num [uncapped]

/-- After the sixth failure the jitter takes the delay past the cap. -/
theorem schedule_not_capped : ¬ RespectsSchedule ⟨30000, 10, 500, 15000⟩ (1 / 2) 6 := by
  intro h
  have hcap := h.cap
  rw [retryDelay_eq] at hcap
  norm_num [uncapped, mathRound] at hcap

end CloudOps.Analysis
