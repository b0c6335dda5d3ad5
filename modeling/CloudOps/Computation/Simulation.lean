import CloudOps.Computation.Transition

/-!
# Simulations with foresight

A machine `N` simulates a machine `M` along a relation when every step of `M` is matched by a
run of `N`. The relation may depend on what is still to come: `foreseen` asks for a match
under every prophecy, and each step may start from the prophecy that it fulfils.

`Slots` is the bookkeeping such a relation needs where `N` keeps the calls in flight in a
list and `M` keeps them with their callers.
-/

set_option autoImplicit false

namespace CloudOps.Computation

namespace Machine

variable {σ ε τ δ Φ : Type} {M : Machine σ ε} {N : Machine τ δ} {G : σ → ε → Prop} {s s' : σ}
  {t : τ}

/-- **The simulation rule with foresight**: what is related under a prophecy after a step has been
related under some prophecy before it. -/
theorem Reaches.foreseen {R : Φ → σ → τ → Prop} (hs : M.Reaches G s s') (h0 : ∀ φ, R φ s t)
    (hstep : ∀ φ u e u', M.Reaches G s u → G u e → M.step u e = some u' →
      ∃ ψ, ∀ v, R ψ u v → ∃ v', N.Reaches unguarded v v' ∧ R φ u' v') :
    ∀ φ, ∃ t', N.Reaches unguarded t t' ∧ R φ s' t' := by
  induction hs with
  | refl => exact fun φ => ⟨t, .refl, h0 φ⟩
  | step e hu hG he ih =>
      intro φ
      obtain ⟨ψ, hmatch⟩ := hstep φ _ e _ hu hG he
      obtain ⟨v, hv, hrelated⟩ := ih ψ
      obtain ⟨v', hv', hrelated'⟩ := hmatch v hrelated
      exact ⟨v', hv.trans hv', hrelated'⟩

end Machine

/-! ## Calls in flight -/

section Slots

variable {κ C : Type} {pending pending' : κ → Option C} {calls : List C}

/-- Every call that is pending has a place of its own in the list. -/
def Slots (pending : κ → Option C) (calls : List C) : Prop :=
  ∃ slots : List (κ × C), calls = slots.map (·.2) ∧ ∀ q c, pending q = some c → (q, c) ∈ slots

/-- Where nothing is pending there are no slots. -/
theorem slots_nil (h : ∀ q, pending q = none) : Slots pending [] :=
  ⟨[], rfl, fun q c hq => by rw [h q] at hq; cases hq⟩

/-- Fewer calls are pending. -/
theorem Slots.keep (h : Slots pending calls)
    (hless : ∀ q c, pending' q = some c → pending q = some c) : Slots pending' calls := by
  obtain ⟨slots, hcalls, hslots⟩ := h
  exact ⟨slots, hcalls, fun q c hq => hslots q c (hless q c hq)⟩

/-- One more call is pending. -/
theorem Slots.push (h : Slots pending calls) {q : κ} {c : C}
    (hnew : ∀ q' c', pending' q' = some c' → (q' = q ∧ c' = c) ∨ pending q' = some c') :
    Slots pending' (calls ++ [c]) := by
  obtain ⟨slots, rfl, hslots⟩ := h
  refine ⟨slots ++ [(q, c)], by simp, fun q' c' hq' => ?_⟩
  rcases hnew q' c' hq' with ⟨rfl, rfl⟩ | hold
  · exact List.mem_append_right _ List.mem_cons_self
  · exact List.mem_append_left _ (hslots q' c' hold)

/-- A pending call is taken out of the list; those of the other callers stay. -/
theorem Slots.take (h : Slots pending calls) {q : κ} {c : C} (hq : pending q = some c)
    (hrest : ∀ q' c', pending' q' = some c' → q' ≠ q ∧ pending q' = some c') :
    ∃ i, calls[i]? = some c ∧ Slots pending' (calls.eraseIdx i) := by
  obtain ⟨slots, rfl, hslots⟩ := h
  obtain ⟨i, hi, hget⟩ := List.getElem_of_mem (hslots q c hq)
  refine ⟨i, by simp [hi, hget], slots.eraseIdx i, List.eraseIdx_map .., ?_⟩
  intro q' c' hq'
  obtain ⟨hne, hold⟩ := hrest q' c' hq'
  obtain ⟨j, hj, hget'⟩ := List.getElem_of_mem (hslots q' c' hold)
  refine List.mem_eraseIdx_iff_getElem.mpr ⟨j, hj, ?_, hget'⟩
  rintro rfl
  exact hne (congrArg Prod.fst (hget.symm.trans hget')).symm

end Slots

end CloudOps.Computation
