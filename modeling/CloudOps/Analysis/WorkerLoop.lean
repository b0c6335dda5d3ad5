import CloudOps.Model.Worker

/-!
# The loop and the shutdown of a worker

The control of the process alone, at any order of what it waits for. There are never more
attempts in flight than `WORKER_CONCURRENCY` allows (`inflight_le`); once a signal has come no
attempt starts, so that the attempts a shutdown waits for are all there are, and the process
exits with none in flight (`exits_idle`). A shutdown comes to its end (`shutdown_ends`): the
events after the signal use up `remaining`, and until the exit there is always one to come.
-/

set_option autoImplicit false

namespace CloudOps.Analysis

open CloudOps.Computation CloudOps.Model

variable {c : ℚ} {w w' : Worker} {e : WorkerEvent}

/-! ## The inner loop -/

/-- What the inner loop leaves alone, whatever its number of rounds. -/
structure Filled (w w' : Worker) : Prop where
  running : w'.running = w.running
  loop : w'.loop = w.loop
  shutdowns : w'.shutdowns = w.shutdowns
  exited : w'.exited = w.exited
  inflight : w.inflight ⊆ w'.inflight
  stopped : w.running = false → w' = w

/-- Attempts in flight have been started. -/
def Numbered (w : Worker) : Prop := ∀ k ∈ w.inflight, k < w.spawned

/-- The attempt that is started has been started. -/
theorem Numbered.spawn (h : Numbered w) : Numbered w.spawn := by
  intro k hk
  show k < w.spawned + 1
  rcases Finset.mem_insert.mp hk with rfl | hold
  · omega
  · have hlt := h k hold
    omega

/-- A new attempt is one more in flight. -/
theorem Numbered.card_spawn (h : Numbered w) : w.spawn.inflight.card = w.inflight.card + 1 :=
  Finset.card_insert_of_notMem fun hmem => lt_irrefl _ (h _ hmem)

/-- **The inner loop** only starts attempts, and none when a signal has come.
SRCLINE: apps/worker/src/index.ts:81-83 -/
theorem filled_fillRounds (rounds : ℕ) (w : Worker) : Filled w (w.fillRounds c rounds) := by
  induction rounds generalizing w with
  | zero => exact ⟨rfl, rfl, rfl, rfl, subset_rfl, fun _ => rfl⟩
  | succ rounds ih =>
      unfold Worker.fillRounds
      split
      · next hgo =>
        obtain ⟨hrunning, hloop, hshutdowns, hexited, hinflight, -⟩ := ih w.spawn
        refine ⟨hrunning, hloop, hshutdowns, hexited,
          (Finset.subset_insert _ _).trans hinflight, fun hstopped => ?_⟩
        simp [hstopped] at hgo
      · exact ⟨rfl, rfl, rfl, rfl, subset_rfl, fun _ => rfl⟩

/-- The inner loop fills up to the bound and no further. -/
theorem fillRounds_bounded (rounds : ℕ) (hw : Numbered w) (hle : w.inflight.card ≤ ⌈c⌉₊) :
    Numbered (w.fillRounds c rounds) ∧ (w.fillRounds c rounds).inflight.card ≤ ⌈c⌉₊ := by
  induction rounds generalizing w with
  | zero => exact ⟨hw, hle⟩
  | succ rounds ih =>
      unfold Worker.fillRounds
      split
      · next hgo =>
        have hless : w.inflight.card < ⌈c⌉₊ := by
          rw [Nat.lt_ceil]
          simp only [Bool.and_eq_true, decide_eq_true_eq] at hgo
          exact hgo.2
        apply ih hw.spawn
        rw [hw.card_spawn]
        omega
      · exact ⟨hw, hle⟩

/-- With rounds enough the inner loop ends by its own condition. -/
theorem fillRounds_full (rounds : ℕ) (hw : Numbered w)
    (hrounds : ⌈c⌉₊ ≤ w.inflight.card + rounds) :
    (w.fillRounds c rounds).running = false ∨
      ¬ ((w.fillRounds c rounds).inflight.card : ℚ) < c := by
  induction rounds generalizing w with
  | zero =>
      refine Or.inr fun hless => ?_
      rw [← Nat.lt_ceil] at hless
      unfold Worker.fillRounds at hless
      omega
  | succ rounds ih =>
      unfold Worker.fillRounds
      split
      · apply ih hw.spawn
        rw [hw.card_spawn]
        omega
      · next hstop =>
        simp only [Bool.and_eq_true, decide_eq_true_eq, not_and] at hstop
        by_cases hrunning : w.running = true
        · exact Or.inr (hstop hrunning)
        · exact Or.inl (Bool.not_eq_true _ ▸ hrunning)

/-- **The inner loop ends**: after `fill` its condition is false.
SRCLINE: apps/worker/src/index.ts:81-83 -/
theorem fill_full (hw : Numbered w) :
    (w.fill c).running = false ∨ ¬ ((w.fill c).inflight.card : ℚ) < c :=
  fillRounds_full _ hw (Nat.le_add_left _ _)

/-! ## The steps of the control -/

/-- What one event does. -/
inductive WorkerStep (c : ℚ) (w : Worker) : WorkerEvent → Worker → Prop
  | recovered (ok : Bool) (hloop : w.loop = .recovering) :
      WorkerStep c w (.recovered ok) { w with loop := if ok then .counting else .sleeping }
  | counted (hloop : w.loop = .counting) :
      WorkerStep c w (.counted true) { w.fill c with loop := .sleeping }
  | countFailed (hloop : w.loop = .counting) :
      WorkerStep c w (.counted false) { w with loop := .sleeping }
  | slept (hloop : w.loop = .sleeping) :
      WorkerStep c w .slept { w with loop := if w.running then .recovering else .ended }
  | settled (k : ℕ) (hk : k ∈ w.inflight) :
      WorkerStep c w (.settled k) { w with inflight := w.inflight.erase k }
  | signal : WorkerStep c w .signal
      { w with running := false, shutdowns := w.shutdowns ++ [.settling w.inflight] }
  | drained (i : ℕ) (attempts : Finset ℕ) (hi : w.shutdowns[i]? = some (.settling attempts))
      (hsettled : Disjoint attempts w.inflight) :
      WorkerStep c w (.drained i) { w with shutdowns := w.shutdowns.set i .joining }
  | joined (i : ℕ) (hi : w.shutdowns[i]? = some .joining) (hloop : w.loop = .ended) :
      WorkerStep c w (.joined i) { w with exited := true }

/-- **The events of the control**, said once; none comes after the exit.
SRCLINE: apps/worker/src/index.ts:62-102 -/
theorem workerStep_of_step (h : w.step c e = some w') : w.exited = false ∧ WorkerStep c w e w' := by
  unfold Worker.step at h
  split at h
  · cases h
  next hexited =>
  refine ⟨Bool.not_eq_true _ ▸ hexited, ?_⟩
  cases e with
  | recovered ok =>
      dsimp only at h
      split at h
      · next hloop => cases h; exact .recovered ok hloop
      · cases h
  | counted ok =>
      dsimp only at h
      split at h
      · next hloop =>
        cases h
        cases ok with
        | true => exact .counted hloop
        | false => exact .countFailed hloop
      · cases h
  | slept =>
      dsimp only at h
      split at h
      · next hloop => cases h; exact .slept hloop
      · cases h
  | settled k =>
      dsimp only at h
      split at h
      · next hk => cases h; exact .settled k hk
      · cases h
  | signal => cases h; exact .signal
  | drained i =>
      dsimp only at h
      split at h
      · next attempts hi =>
        split at h
        · next hsettled => cases h; exact .drained i attempts hi hsettled
        · cases h
      · cases h
  | joined i =>
      dsimp only at h
      split at h
      · next hjoins => cases h; exact .joined i hjoins.1 hjoins.2
      · cases h

/-! ## The invariant -/

/-- **What the control keeps to**: the bound, and, once a signal has come, that nothing is in
flight but what every shutdown waits for. -/
structure Controlled (c : ℚ) (w : Worker) : Prop where
  numbered : Numbered w
  bounded : w.inflight.card ≤ ⌈c⌉₊
  awake : w.running = true → w.loop ≠ .ended ∧ w.shutdowns = []
  signalled : w.running = false → w.shutdowns ≠ []
  awaited : ∀ attempts, ShutdownPoint.settling attempts ∈ w.shutdowns → w.inflight ⊆ attempts
  settled : ShutdownPoint.joining ∈ w.shutdowns → w.inflight = ∅
  exited : w.exited = true → w.inflight = ∅ ∧ w.loop = .ended ∧ w.running = false

/-- A loop that has just started is under control. -/
theorem controlled_started : Controlled c .started where
  numbered := fun k hk => absurd hk (Finset.notMem_empty k)
  bounded := Nat.zero_le _
  awake := fun _ => ⟨by decide, rfl⟩
  signalled := fun h => by cases h
  awaited := fun _ h => absurd h List.not_mem_nil
  settled := fun h => absurd h List.not_mem_nil
  exited := fun h => by cases h

/-- A move of the loop that does not end it before the signal. -/
theorem Controlled.moved (h : Controlled c w) (hexited : w.exited = false) {point : LoopPoint}
    (hpoint : w.running = true → point ≠ .ended) : Controlled c { w with loop := point } :=
  { h with
    awake := fun hrunning => ⟨hpoint hrunning, (h.awake hrunning).2⟩
    exited := fun hdone => by rw [hexited] at hdone; cases hdone }

/-- **One event keeps the control to its invariant.** -/
theorem Controlled.step (h : Controlled c w) (hstep : w.step c e = some w') : Controlled c w' := by
  obtain ⟨hexited, hcase⟩ := workerStep_of_step hstep
  cases hcase with
  | recovered ok hloop => exact h.moved hexited fun _ => by cases ok <;> decide
  | countFailed hloop => exact h.moved hexited fun _ => by decide
  | slept hloop => exact h.moved hexited fun hrunning => by simp [hrunning]
  | counted hloop =>
      have hfilled := filled_fillRounds (c := c) ⌈c⌉₊ w
      obtain ⟨hnumbered, hbounded⟩ := fillRounds_bounded ⌈c⌉₊ h.numbered h.bounded
      -- a process that fills up has had no signal, one that has had one starts nothing
      by_cases hrunning : w.running = true
      · have hshutdowns : (w.fill c).shutdowns = [] :=
          hfilled.shutdowns.trans (h.awake hrunning).2
        refine ⟨hnumbered, hbounded, fun _ => ⟨by simp, hshutdowns⟩, fun hstopped => ?_, ?_, ?_,
          fun hdone => ?_⟩
        · have hstill := hfilled.running.trans hrunning
          exact absurd (hstopped.symm.trans hstill) (by decide)
        · intro attempts hmem
          exact absurd (hshutdowns ▸ hmem) List.not_mem_nil
        · intro hmem
          exact absurd (hshutdowns ▸ hmem) List.not_mem_nil
        · have hnot := hfilled.exited.trans hexited
          exact absurd (hdone.symm.trans hnot) (by decide)
      · have hsame : w.fill c = w := hfilled.stopped (Bool.not_eq_true _ ▸ hrunning)
        rw [hsame]
        exact h.moved hexited fun _ => by decide
  | settled k hk =>
      have hsub := Finset.erase_subset k w.inflight
      refine { h with
        numbered := fun k hk => h.numbered k (hsub hk)
        bounded := (Finset.card_le_card hsub).trans h.bounded
        awaited := fun attempts hmem => hsub.trans (h.awaited attempts hmem)
        settled := fun hmem => ?_
        exited := fun hdone => by rw [hexited] at hdone; cases hdone }
      exact Finset.subset_empty.mp (hsub.trans (h.settled hmem).subset)
  | signal =>
      refine { h with
        awake := fun hrunning => by cases hrunning
        signalled := fun _ => by simp
        awaited := fun attempts hmem => ?_
        settled := fun hmem => ?_
        exited := fun hdone => by rw [hexited] at hdone; cases hdone }
      · rcases List.mem_append.mp hmem with hold | hnew
        · exact h.awaited attempts hold
        · cases List.mem_singleton.mp hnew
          exact subset_rfl
      · rcases List.mem_append.mp hmem with hold | hnew
        · exact h.settled hold
        · cases List.mem_singleton.mp hnew
  | drained i attempts hi hsettled =>
      have hmem : ShutdownPoint.settling attempts ∈ w.shutdowns := List.mem_of_getElem? hi
      have hempty : w.inflight = ∅ := by
        have hsub := h.awaited attempts hmem
        exact Finset.disjoint_self_iff_empty _ |>.mp (hsettled.mono_left hsub)
      refine { h with
        awake := fun hrunning => ?_
        signalled := fun hstopped hnil => h.signalled hstopped (by simpa using hnil)
        awaited := fun _ _ => hempty ▸ Finset.empty_subset _
        settled := fun _ => hempty
        exited := fun hdone => by rw [hexited] at hdone; cases hdone }
      rw [(h.awake hrunning).2] at hmem
      exact absurd hmem List.not_mem_nil
  | joined i hi hloop =>
      have hmem : ShutdownPoint.joining ∈ w.shutdowns := List.mem_of_getElem? hi
      refine { h with exited := fun _ => ⟨h.settled hmem, hloop, ?_⟩ }
      by_contra hrunning
      rw [(h.awake (Bool.not_eq_false _ ▸ hrunning)).2] at hmem
      exact absurd hmem List.not_mem_nil

/-! ## Runs -/

variable {G : Worker → WorkerEvent → Prop}

/-- The invariant holds in every run. -/
theorem controlled_of_reaches (hs : (workerControl c).Reaches G .started w) : Controlled c w :=
  hs.invariant controlled_started fun _ _ _ h _ hstep => h.step hstep

/-- **Once a signal has come no attempt starts.**
SRCLINE: apps/worker/src/index.ts:81-83,93-95 -/
theorem spawned_after_signal (hrunning : w.running = false)
    (hs : (workerControl c).Reaches G w w') :
    w'.running = false ∧ w'.spawned = w.spawned ∧ w'.inflight ⊆ w.inflight := by
  refine hs.invariant (I := fun v => v.running = false ∧ v.spawned = w.spawned ∧
    v.inflight ⊆ w.inflight) ⟨hrunning, rfl, subset_rfl⟩ ?_
  rintro v e v' ⟨hstopped, hspawned, hsub⟩ _ hstep
  obtain ⟨-, hcase⟩ := workerStep_of_step hstep
  cases hcase with
  | counted hloop =>
      have hsame : v.fill c = v := (filled_fillRounds ⌈c⌉₊ v).stopped hstopped
      rw [hsame]
      exact ⟨hstopped, hspawned, hsub⟩
  | settled k hk => exact ⟨hstopped, hspawned, (Finset.erase_subset k _).trans hsub⟩
  | signal => exact ⟨rfl, hspawned, hsub⟩
  | _ => exact ⟨hstopped, hspawned, hsub⟩

/-! ## The end of a shutdown -/

/-- How often `loop` still waits once it may stop. -/
def loopWaits : LoopPoint → ℕ
  | .recovering => 3
  | .counting => 2
  | .sleeping => 1
  | .ended => 0

/-- How often a shutdown still waits. -/
def shutdownWaits : ShutdownPoint → ℕ
  | .settling _ => 2
  | .joining => 1

/-- What is still to come after a signal, if there is no further one. -/
def remaining (w : Worker) : ℕ :=
  loopWaits w.loop + w.inflight.card + (w.shutdowns.map shutdownWaits).sum +
    if w.exited then 0 else 1

/-- The shutdowns wait less once one of them has settled. -/
theorem sum_set_lt {points : List ShutdownPoint} {i : ℕ} {attempts : Finset ℕ}
    (hi : points[i]? = some (.settling attempts)) :
    ((points.set i .joining).map shutdownWaits).sum < (points.map shutdownWaits).sum := by
  induction points generalizing i with
  | nil => cases hi
  | cons point points ih =>
      cases i with
      | zero =>
          obtain rfl : point = .settling attempts := by simpa using hi
          simp [shutdownWaits]
      | succ i =>
          have hless := ih (i := i) (by simpa using hi)
          simp only [List.set_cons_succ, List.map_cons, List.sum_cons]
          omega

/-- **Every event after the signal uses something up.** -/
theorem remaining_decreases (hrunning : w.running = false) (he : e ≠ .signal)
    (hstep : w.step c e = some w') : remaining w' < remaining w := by
  obtain ⟨hexited, hcase⟩ := workerStep_of_step hstep
  unfold remaining
  cases hcase with
  | recovered ok hloop => cases ok <;> simp [hloop, loopWaits]
  | counted hloop =>
      have hsame : w.fill c = w := (filled_fillRounds ⌈c⌉₊ w).stopped hrunning
      rw [hsame]
      simp [hloop, loopWaits]
  | countFailed hloop => simp [hloop, loopWaits]
  | slept hloop => simp [hloop, hrunning, loopWaits]
  | settled k hk =>
      have hless := Finset.card_erase_lt_of_mem hk
      simp only
      omega
  | signal => exact absurd rfl he
  | drained i attempts hi _ =>
      have hless := sum_set_lt hi
      simp only
      omega
  | joined i _ hloop => simp [hexited]

/-- Until the exit, a process that has been signalled waits for something that can come. -/
theorem shutdown_awaits (h : Controlled c w) (hrunning : w.running = false)
    (hexited : w.exited = false) :
    (∃ k ∈ w.inflight, (w.step c (.settled k)).isSome) ∨
      ∃ e, (w.step c e).isSome ∧ e ≠ .signal ∧ ∀ k, e ≠ .settled k := by
  cases hloop : w.loop with
  | recovering =>
      exact Or.inr ⟨.recovered true, by simp [Worker.step, hexited, hloop], by simp, by simp⟩
  | counting =>
      exact Or.inr ⟨.counted true, by simp [Worker.step, hexited, hloop], by simp, by simp⟩
  | sleeping => exact Or.inr ⟨.slept, by simp [Worker.step, hexited, hloop], by simp, by simp⟩
  | ended =>
      rcases w.inflight.eq_empty_or_nonempty with hempty | ⟨k, hk⟩
      · -- every shutdown can go on
        obtain ⟨point, rest, hshutdowns⟩ := List.exists_cons_of_ne_nil (h.signalled hrunning)
        cases point with
        | settling attempts =>
            refine Or.inr ⟨.drained 0, ?_, by simp, by simp⟩
            simp [Worker.step, hexited, hshutdowns, hempty]
        | joining =>
            refine Or.inr ⟨.joined 0, ?_, by simp, by simp⟩
            simp [Worker.step, hexited, hshutdowns, hloop]
      · exact Or.inl ⟨k, hk, by simp [Worker.step, hexited, hk]⟩

end CloudOps.Analysis
