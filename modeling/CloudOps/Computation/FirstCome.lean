import CloudOps.Computation.Interleaving

/-!
# The first come

Programs that look for something before they act, and return it when it is there. As long
as no program looks while another has looked and not yet left anything to be found, only the
first one acts: it goes on as if it were alone, and every other one finds what it has left.
-/

set_option autoImplicit false

namespace CloudOps.Computation

namespace Pool

variable {Op : Type} {Reply : Op → Type} {σ ε α δ : Type}

/-- The program begins with a look at the store, and returns what it finds. -/
def LooksFirst (h : Handler Op Reply σ) (look : σ → Option δ) (hit : δ → α)
    (p : Prog Op Reply ε α) : Prop :=
  ∃ op k, p = .call op k ∧ (∀ s, (h.exec op s).2 = s) ∧
    ∀ s d, look s = some d → k (h.exec op s).1 = .ret (hit d)

/-- Program `q₀` has begun and goes on as if it were alone; the others have not begun, or have
found what there is to be found. -/
structure FirstCome (h : Handler Op Reply σ) (look : σ → Option δ) (hit : δ → α)
    (start s : Pool Op Reply σ ε α) (q₀ : ℕ) : Prop where
  begun : own q₀ s.history ≠ []
  alone : (s.procs q₀).run h s.store = (start.procs q₀).run h start.store
  others : ∀ q, q ≠ q₀ → (s.procs q = start.procs q ∧ own q s.history = []) ∨
    ∃ d, look s.store = some d ∧ s.procs q = .ret (hit d)

variable {h : Handler Op Reply σ} {look : σ → Option δ} {hit : δ → α} {faults : Faults Op ε}
  {start s t : Pool Op Reply σ ε α} {q q₀ : ℕ} {op : Op} {k : Reply op → Prog Op Reply ε α}

/-- The first program to begin is alone. -/
theorem FirstCome.begin (hstart : start.history = []) (hq : start.procs q = .call op k) :
    FirstCome h look hit start (start.perform h q op (k (h.exec op start.store).1)) q where
  begun := by simp [perform]
  alone := by simp [perform, hq]
  others := by
    intro q' hne
    refine Or.inl ⟨by simp [perform, Function.update_of_ne hne], ?_⟩
    simp only [perform, own_append_ne (Ne.symm hne), hstart, own_nil]

/-- The first program goes on. -/
theorem FirstCome.goOn (hfirst : FirstCome h look hit start s q₀) (hq : s.procs q₀ = .call op k)
    (hkept : ∀ d, look s.store = some d → look (h.exec op s.store).2 = some d) :
    FirstCome h look hit start (s.perform h q₀ op (k (h.exec op s.store).1)) q₀ where
  begun := by simp [perform]
  alone := by
    have halone := hfirst.alone
    rw [hq] at halone
    simpa [perform] using halone
  others := by
    intro q' hne
    rcases hfirst.others q' hne with ⟨hproc, hown⟩ | ⟨d, hlook, hproc⟩
    · refine Or.inl ⟨by simpa [perform, Function.update_of_ne hne] using hproc, ?_⟩
      simpa [perform, own_append_ne (Ne.symm hne)] using hown
    · exact Or.inr ⟨d, hkept d hlook, by simpa [perform, Function.update_of_ne hne] using hproc⟩

/-- Another program begins, and finds something. -/
theorem FirstCome.find (hfirst : FirstCome h look hit start s q₀) (hne : q ≠ q₀)
    (hlooks : LooksFirst h look hit (start.procs q)) (hunbegun : s.procs q = start.procs q)
    (hq : s.procs q = .call op k) {d : δ} (hlook : look s.store = some d) :
    FirstCome h look hit start (s.perform h q op (k (h.exec op s.store).1)) q₀ := by
  obtain ⟨op', k', hcall, hread, hfound⟩ := hlooks
  have hsame : Prog.call op k = Prog.call op' k' := hq.symm.trans (hunbegun.trans hcall)
  cases hsame
  have hstore : (s.perform h q op (k (h.exec op s.store).1)).store = s.store := hread s.store
  refine ⟨?_, ?_, fun q' hne' => ?_⟩
  · simpa [perform, own_append_ne hne] using hfirst.begun
  · rw [hstore]
    simpa [perform, Function.update_of_ne (Ne.symm hne)] using hfirst.alone
  · rw [hstore]
    by_cases hqq : q' = q
    · subst hqq
      exact Or.inr ⟨d, hlook, by simpa [perform] using hfound s.store d hlook⟩
    · simpa [perform, Function.update_of_ne hqq, own_append_ne (Ne.symm hqq)] using
        hfirst.others q' hne'

/-- **First come, first served**: only the first program acts, if every other one begins when
there is something to be found. -/
theorem firstCome_of_reaches {G : Pool Op Reply σ ε α → PoolEvent → Prop}
    (hstart : start.history = []) (hlooks : ∀ q, LooksFirst h look hit (start.procs q))
    (hs : (machine h faults).Reaches G start s)
    (hG : ∀ t e, (machine h faults).Reaches G start t → G t e →
      t = start ∨ (∃ q₀, FirstCome h look hit start t q₀) →
      ∃ q, e = .run q ∧ (own q t.history = [] → t.history = [] ∨ (look t.store).isSome))
    (hkept : ∀ t q op k d, (machine h faults).Reaches G start t → t.procs q = .call op k →
      look t.store = some d → look (h.exec op t.store).2 = some d) :
    s = start ∨ ∃ q₀, FirstCome h look hit start s q₀ := by
  induction hs with
  | refl => exact Or.inl rfl
  | step e ht hGe he ih =>
      refine Or.inr ?_
      obtain ⟨q, rfl, hbegin⟩ := hG _ e ht hGe ih
      cases step_cases he with
      | run _ op k hq =>
          rcases ih with rfl | ⟨q₀, hfirst⟩
          · exact ⟨q, .begin hstart hq⟩
          · refine ⟨q₀, ?_⟩
            by_cases hne : q = q₀
            · subst hne
              exact hfirst.goOn hq fun d => hkept _ q op k d ht hq
            · rcases hfirst.others q hne with ⟨hunbegun, hown⟩ | ⟨d, -, hended⟩
              · rcases hbegin hown with hnone | hsome
                · -- the first program has begun
                  exact absurd (by rw [hnone, own_nil]) hfirst.begun
                · obtain ⟨d, hlook⟩ := Option.isSome_iff_exists.mp hsome
                  exact hfirst.find hne (hlooks q) hunbegun hq hlook
              · rw [hended] at hq
                cases hq

end Pool

end CloudOps.Computation
