import Mathlib.Tactic

/-!
# Guarded runs of a labelled machine

A `Machine` either refuses an event or moves its state by it. `Machine.Reaches G s t`
is a run from `s` to `t` every event of which met the guard `G` in the state before it;
the guard `unguarded` gives the runs without a condition. `Reaches.invariant` is the
induction every safety result about a machine goes through: what holds at the start and
is kept by each guarded step holds in every state reached.
-/

set_option autoImplicit false

namespace CloudOps.Computation

/-- A machine with state `σ` and events `ε`; `step s e = none` means that `e` is refused in `s`. -/
structure Machine (σ ε : Type) where
  step : σ → ε → Option σ

namespace Machine

variable {σ ε : Type} {M : Machine σ ε} {G G' : σ → ε → Prop} {s t u : σ}

/-- The state after a list of events, `none` as soon as one of them is refused. -/
def run (M : Machine σ ε) : σ → List ε → Option σ
  | s, [] => some s
  | s, e :: es => (M.step s e).bind fun s' => M.run s' es

/-- The guard that lets every event through. -/
def unguarded : σ → ε → Prop := fun _ _ => True

/-- `M.Reaches G s t`: some run leads from `s` to `t`, each of its events meeting `G` in the
state before it. -/
inductive Reaches (M : Machine σ ε) (G : σ → ε → Prop) (s : σ) : σ → Prop
  | refl : Reaches M G s s
  | step {t u : σ} (e : ε) : Reaches M G s t → G t e → M.step t e = some u → Reaches M G s u

/-- **The invariant rule**: a property of the start that every guarded step keeps holds
wherever a guarded run leads. -/
theorem Reaches.invariant {I : σ → Prop} (h : M.Reaches G s t) (h0 : I s)
    (hstep : ∀ s e s', I s → G s e → M.step s e = some s' → I s') : I t := by
  induction h with
  | refl => exact h0
  | step e _ hG he ih => exact hstep _ e _ ih hG he

/-- A run under a stronger guard is a run under a weaker one. -/
theorem Reaches.mono (h : M.Reaches G s t) (hG : ∀ s e, G s e → G' s e) :
    M.Reaches G' s t := by
  induction h with
  | refl => exact .refl
  | step e _ hg he ih => exact .step e ih (hG _ _ hg) he

/-- Runs compose. -/
theorem Reaches.trans (h : M.Reaches G s t) (h' : M.Reaches G t u) : M.Reaches G s u := by
  induction h' with
  | refl => exact h
  | step e _ hg he ih => exact .step e ih hg he

/-- What `run` computes is reached, under every guard its events meet. -/
theorem reaches_of_run_guarded (es : List ε) (h : M.run s es = some t)
    (hG : ∀ e ∈ es, ∀ s, G s e) : M.Reaches G s t := by
  induction es generalizing s with
  | nil =>
      obtain rfl : s = t := by simpa [run] using h
      exact .refl
  | cons e es ih =>
      simp only [run, Option.bind_eq_some_iff] at h
      obtain ⟨s', he, hrest⟩ := h
      have hfirst : M.Reaches G s s' := Reaches.refl.step e (hG e (by simp) s) he
      exact hfirst.trans (ih hrest fun e he => hG e (List.mem_cons_of_mem _ he))

/-- What `run` computes is reached. -/
theorem reaches_of_run (es : List ε) (h : M.run s es = some t) : M.Reaches unguarded s t :=
  reaches_of_run_guarded es h fun _ _ _ => trivial

/-- The state after a list of events that all pass a check, each in the state before it. -/
def runChecked (M : Machine σ ε) (check : σ → ε → Bool) : σ → List ε → Option σ
  | s, [] => some s
  | s, e :: es =>
    if check s e then (M.step s e).bind fun s' => M.runChecked check s' es else none

/-- A checked run is a run under the guard that the check decides. -/
theorem reaches_of_runChecked {check : σ → ε → Bool} (hcheck : ∀ s e, check s e = true → G s e) :
    ∀ (es : List ε) {s : σ}, M.runChecked check s es = some t → M.Reaches G s t
  | [], _, h => by
      cases h
      exact .refl
  | e :: es, s, h => by
      unfold runChecked at h
      split at h
      · next hpass =>
        obtain ⟨s', he, hrest⟩ := Option.bind_eq_some_iff.mp h
        have hfirst : M.Reaches G s s' := Reaches.refl.step e (hcheck s e hpass) he
        exact hfirst.trans (reaches_of_runChecked hcheck es hrest)
      · cases h

/-- **The termination rule**: where every event that is allowed takes something off a measure, a
run is no longer than the measure of its start. -/
theorem length_le_of_run {I : σ → Prop} {allowed : ε → Prop} {measure : σ → ℕ}
    (hstep : ∀ s e s', I s → allowed e → M.step s e = some s' →
      I s' ∧ measure s' < measure s) :
    ∀ (es : List ε) {s t : σ}, I s → (∀ e ∈ es, allowed e) → M.run s es = some t →
      es.length ≤ measure s
  | [], _, _, _, _, _ => Nat.zero_le _
  | e :: es, s, t, hI, hes, h => by
      simp only [run, Option.bind_eq_some_iff] at h
      obtain ⟨s', he, hrest⟩ := h
      obtain ⟨hI', hless⟩ := hstep s e s' hI (hes e List.mem_cons_self) he
      have hrest_le := length_le_of_run hstep es hI'
        (fun e he => hes e (List.mem_cons_of_mem _ he)) hrest
      rw [List.length_cons]
      omega

/-! ## Two machines side by side -/

section Beside

variable {τ δ : Type} {N : Machine τ δ} {allowed : σ × τ → ε ⊕ δ → Bool}
  {H : σ × τ → ε ⊕ δ → Prop} {p p' : σ × τ}

/-- Two machines, each with events of its own, where an event happens only if it is `allowed` in
the state of both. -/
def beside (M : Machine σ ε) (N : Machine τ δ) (allowed : σ × τ → ε ⊕ δ → Bool) :
    Machine (σ × τ) (ε ⊕ δ) where
  step p e :=
    if allowed p e then
      match e with
      | .inl e => (M.step p.1 e).map fun s => (s, p.2)
      | .inr e => (N.step p.2 e).map fun t => (p.1, t)
    else none

/-- What one event does. -/
theorem beside_cases {e : ε ⊕ δ} (h : (beside M N allowed).step p e = some p') :
    allowed p e = true ∧
      ((∃ a, e = .inl a ∧ M.step p.1 a = some p'.1 ∧ p'.2 = p.2) ∨
        ∃ b, e = .inr b ∧ N.step p.2 b = some p'.2 ∧ p'.1 = p.1) := by
  unfold beside at h
  dsimp only at h
  split at h
  · next hallowed =>
    refine ⟨hallowed, ?_⟩
    cases e with
    | inl a =>
        obtain ⟨s', hs', rfl⟩ := Option.map_eq_some_iff.mp h
        exact Or.inl ⟨a, rfl, hs', rfl⟩
    | inr b =>
        obtain ⟨t', ht', rfl⟩ := Option.map_eq_some_iff.mp h
        exact Or.inr ⟨b, rfl, ht', rfl⟩
  · cases h

/-- **A run of both is a run of each**: what is known of one machine alone holds beside the
other. -/
theorem Reaches.fst (h : (beside M N allowed).Reaches H p p') : M.Reaches unguarded p.1 p'.1 := by
  induction h with
  | refl => exact .refl
  | step e _ _ he ih =>
      obtain ⟨-, ⟨a, -, ha, -⟩ | ⟨b, -, -, hsame⟩⟩ := beside_cases he
      · exact ih.step a trivial ha
      · rw [hsame]
        exact ih

/-- The second machine of a run of both runs alone. -/
theorem Reaches.snd (h : (beside M N allowed).Reaches H p p') : N.Reaches unguarded p.2 p'.2 := by
  induction h with
  | refl => exact .refl
  | step e _ _ he ih =>
      obtain ⟨-, ⟨a, -, -, hsame⟩ | ⟨b, -, hb, -⟩⟩ := beside_cases he
      · rw [hsame]
        exact ih
      · exact ih.step b trivial hb

/-- The events of the first machine, on their own. -/
theorem run_beside_fst : ∀ (es : List (ε ⊕ δ)) {p p' : σ × τ},
    (beside M N allowed).run p es = some p' →
      M.run p.1 (es.filterMap Sum.getLeft?) = some p'.1
  | [], _, _, h => by
      cases h
      rfl
  | e :: es, p, p', h => by
      simp only [run, Option.bind_eq_some_iff] at h
      obtain ⟨q, he, hrest⟩ := h
      have htail := run_beside_fst es hrest
      obtain ⟨-, ⟨a, rfl, ha, -⟩ | ⟨b, rfl, -, hsame⟩⟩ := beside_cases he
      · show (M.step p.1 a).bind _ = _
        rw [ha]
        exact htail
      · rw [hsame] at htail
        exact htail

end Beside

end Machine

end CloudOps.Computation
