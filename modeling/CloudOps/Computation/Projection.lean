import CloudOps.Computation.Interleaving

/-!
# A part of a pool on its own

Some programs of a pool work on one part of the store, the `view`, the others are hidden from
it: a visible program has its replies from the view and its effect on it, a hidden one leaves it
as it is. Then the visible programs have run as they run on their own, on a store that holds
nothing but the view, while the hidden ones have never begun (`projected_of_reaches`).
-/

set_option autoImplicit false

namespace CloudOps.Computation

/-- Every step of a run may rely on where the run will lead. -/
theorem Machine.Reaches.onward {σ ε : Type} {M : Machine σ ε} {G : σ → ε → Prop} {s s' : σ}
    (hs : M.Reaches G s s') : M.Reaches (fun t e => G t e ∧ M.Reaches G t s') s s' := by
  induction hs with
  | refl => exact .refl
  | @step t u e ht hG he ih =>
      have hlast : M.Reaches G t u := Reaches.refl.step e hG he
      exact (ih.mono fun _ _ h => ⟨h.1, h.2.trans hlast⟩).step e ⟨hG, hlast⟩ he

/-- The program an event belongs to. -/
def PoolEvent.client : PoolEvent → ℕ
  | .run q => q
  | .fail q _ => q

/-- An event with the view of the store it has found. -/
def Event.seen {Op σ : Type} (view : σ → σ) (ev : Event Op σ) : Event Op σ :=
  ⟨ev.op, view ev.before⟩

namespace Pool

variable {Op : Type} {Reply : Op → Type} {σ ε α : Type} {h : Handler Op Reply σ}
  {faults : Faults Op ε} {s s' t : Pool Op Reply σ ε α} {e : PoolEvent} {view : σ → σ}
  {hidden : ℕ → Prop} {procs : ℕ → Prog Op Reply ε α}
  {G : Pool Op Reply σ ε α → PoolEvent → Prop}

/-- The program an event belongs to performs the operation. -/
theorem Performs.client {q : ℕ} {op : Op} (hp : s.Performs e q op) : e.client = q := by
  cases hp with
  | run => rfl
  | applied => rfl

/-- Only programs that are not hidden go on. -/
def Alone (hidden : ℕ → Prop) (_ : Pool Op Reply σ ε α) (e : PoolEvent) : Prop := ¬ hidden e.client

/-- `t` is what is seen of `s`: the view of the store, and the visible programs where they are, with
what they have performed. The hidden ones have not begun. -/
structure SeenAs (view : σ → σ) (hidden : ℕ → Prop) (procs : ℕ → Prog Op Reply ε α)
    (s t : Pool Op Reply σ ε α) : Prop where
  store : t.store = view s.store
  goOn : ∀ q, ¬ hidden q → t.procs q = s.procs q
  performed : ∀ q, ¬ hidden q → own q t.history = (own q s.history).map (Event.seen view)
  idle : ∀ q, hidden q → t.procs q = procs q ∧ own q t.history = []

/-- A visible program performs its operation on the view. -/
theorem SeenAs.perform (hseen : SeenAs view hidden procs s t) {q : ℕ} {op : Op}
    (hq : ¬ hidden q) (rest : Prog Op Reply ε α)
    (hview : view (h.exec op s.store).2 = (h.exec op (view s.store)).2) :
    SeenAs view hidden procs (s.perform h q op rest) (t.perform h q op rest) where
  store := by
    show (h.exec op t.store).2 = view (h.exec op s.store).2
    rw [hseen.store, hview]
  goOn := by
    intro q' hq'
    by_cases hqq : q' = q
    · subst hqq
      simp [Pool.perform]
    · simpa [Pool.perform, Function.update_of_ne hqq] using hseen.goOn q' hq'
  performed := by
    intro q' hq'
    by_cases hqq : q = q'
    · subst hqq
      simp [Pool.perform, hseen.performed q hq, Event.seen, hseen.store]
    · simpa [Pool.perform, own_append_ne hqq] using hseen.performed q' hq'
  idle := by
    intro q' hq'
    have hqq : q' ≠ q := fun heq => hq (heq ▸ hq')
    simpa [Pool.perform, own_append_ne (Ne.symm hqq), Function.update_of_ne hqq] using
      hseen.idle q' hq'

/-- A hidden program performs its operation without being seen. -/
theorem SeenAs.perform_hidden (hseen : SeenAs view hidden procs s t) {q : ℕ} {op : Op}
    (hq : hidden q) (rest : Prog Op Reply ε α) (hview : view (h.exec op s.store).2 = view s.store) :
    SeenAs view hidden procs (s.perform h q op rest) t where
  store := hseen.store.trans hview.symm
  goOn := by
    intro q' hq'
    have hqq : q' ≠ q := fun heq => hq' (heq ▸ hq)
    simpa [Pool.perform, Function.update_of_ne hqq] using hseen.goOn q' hq'
  performed := by
    intro q' hq'
    have hqq : q' ≠ q := fun heq => hq' (heq ▸ hq)
    simpa [Pool.perform, own_append_ne (Ne.symm hqq)] using hseen.performed q' hq'
  idle := hseen.idle

/-- A visible program is stopped. -/
theorem SeenAs.stop (hseen : SeenAs view hidden procs s t) {q : ℕ} (hq : ¬ hidden q)
    (rest : Prog Op Reply ε α) : SeenAs view hidden procs (s.stop q rest) (t.stop q rest) where
  store := hseen.store
  goOn := by
    intro q' hq'
    by_cases hqq : q' = q
    · subst hqq
      simp [Pool.stop]
    · simpa [Pool.stop, Function.update_of_ne hqq] using hseen.goOn q' hq'
  performed := hseen.performed
  idle := by
    intro q' hq'
    have hqq : q' ≠ q := fun heq => hq (heq ▸ hq')
    simpa [Pool.stop, Function.update_of_ne hqq] using hseen.idle q' hq'

/-- A hidden program is stopped without being seen. -/
theorem SeenAs.stop_hidden (hseen : SeenAs view hidden procs s t) {q : ℕ} (hq : hidden q)
    (rest : Prog Op Reply ε α) : SeenAs view hidden procs (s.stop q rest) t where
  store := hseen.store
  goOn := by
    intro q' hq'
    have hqq : q' ≠ q := fun heq => hq' (heq ▸ hq)
    simpa [Pool.stop, Function.update_of_ne hqq] using hseen.goOn q' hq'
  performed := hseen.performed
  idle := hseen.idle

/-- **One event is seen as an event of its program, or not at all.** -/
theorem SeenAs.step (hseen : SeenAs view hidden procs s t)
    (hstep : (machine h faults).step s e = some s')
    (hvisible : ∀ q op, s.Performs e q op → ¬ hidden q →
      h.exec op (view s.store) = ((h.exec op s.store).1, view (h.exec op s.store).2))
    (hhidden : ∀ q op, s.Performs e q op → hidden q →
      view (h.exec op s.store).2 = view s.store) :
    ∃ t', (machine h faults).Reaches (Alone hidden) t t' ∧ SeenAs view hidden procs s' t' := by
  have hnext : ∀ q op k, ¬ hidden q → s.procs q = .call op k → t.procs q = .call op k :=
    fun q op k hq hcall => (hseen.goOn q hq).trans hcall
  cases step_cases hstep with
  | run q op k hq =>
      by_cases hhid : hidden q
      · have hsame := hhidden q op (.run q op k hq) hhid
        exact ⟨t, .refl, hseen.perform_hidden hhid _ hsame⟩
      · have hview := hvisible q op (.run q op k hq) hhid
        refine ⟨_, Machine.Reaches.refl.step (.run q) hhid ?_,
          hseen.perform hhid _ (congrArg (·.2) hview).symm⟩
        have hreply : (h.exec op t.store).1 = (h.exec op s.store).1 := by
          rw [hseen.store, hview]
        simp only [machine, hnext q op k hhid hq, hreply]
  | applied q op k hq hop =>
      by_cases hhid : hidden q
      · have hsame := hhidden q op (.applied q op k hq) hhid
        exact ⟨t, .refl, hseen.perform_hidden hhid _ hsame⟩
      · have hview := hvisible q op (.applied q op k hq) hhid
        refine ⟨_, Machine.Reaches.refl.step (.fail q true) hhid ?_,
          hseen.perform hhid _ (congrArg (·.2) hview).symm⟩
        simp only [machine, hnext q op k hhid hq, hop, if_true]
  | lost q op k hq hop =>
      by_cases hhid : hidden q
      · exact ⟨t, .refl, hseen.stop_hidden hhid _⟩
      · refine ⟨_, Machine.Reaches.refl.step (.fail q false) hhid ?_, hseen.stop hhid _⟩
        simp only [machine, hnext q op k hhid hq, hop, if_true, Bool.false_eq_true, if_false]

/-- **What is seen of a run is a run of the visible programs alone**, on a store that holds nothing
but the view. -/
theorem projected_of_reaches {store : σ}
    (hs : (machine h faults).Reaches G (initial store procs) s)
    (hvisible : ∀ t e q op, (machine h faults).Reaches G (initial store procs) t → G t e →
      t.Performs e q op → ¬ hidden q →
      h.exec op (view t.store) = ((h.exec op t.store).1, view (h.exec op t.store).2))
    (hhidden : ∀ t e q op, (machine h faults).Reaches G (initial store procs) t → G t e →
      t.Performs e q op → hidden q → view (h.exec op t.store).2 = view t.store) :
    ∃ t, (machine h faults).Reaches (Alone hidden) (initial (view store) procs) t ∧
      SeenAs view hidden procs s t := by
  induction hs with
  | refl => exact ⟨_, .refl, rfl, fun _ _ => rfl, fun _ _ => rfl, fun _ _ => ⟨rfl, rfl⟩⟩
  | step e hu hG he ih =>
      obtain ⟨t, ht, hseen⟩ := ih
      obtain ⟨t', ht', hseen'⟩ := hseen.step he (fun q op => hvisible _ e q op hu hG)
        fun q op => hhidden _ e q op hu hG
      exact ⟨t', ht.trans ht', hseen'⟩

end Pool

end CloudOps.Computation
