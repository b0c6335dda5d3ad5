import Mathlib.Tactic

/-!
# Updates that overwrite their targets

A family of updates of a state, each with a target: an update replaces what its target
holds, and leaves the other targets alone. `Overwriting` states this by equations between
updates. `apply s a = norm s` says that update `a` is in effect in `s`; `norm` is what every
update does besides.

`last_alone_iff` answers when the last update of a list alone gives what the whole list
gives: when every other update that is not overwritten later is in effect from the start.
`applyAll_eq_self_iff` answers in the same terms when a list changes nothing.
Updates that commute can be applied in any order and any number of times
(`applyAll_eq_of_mem_iff`).
-/

set_option autoImplicit false

namespace CloudOps.Computation

/-- Updates of states in `S`, named by `A`, each with a target in `T`. `Has s t` says that target
`t` is present in `s`, so that it is changed in place. -/
structure Overwriting (S A T : Type) where
  apply : S → A → S
  target : A → T
  norm : S → S
  Has : S → T → Prop
  apply_norm : ∀ s a, apply (norm s) a = apply s a
  norm_apply : ∀ s a, norm (apply s a) = apply s a
  absorb : ∀ s a b, target a = target b → apply (apply s a) b = apply s b
  comm : ∀ s a b, target a ≠ target b → Has s (target a) →
    apply (apply s a) b = apply (apply s b) a
  has_apply : ∀ s t b, Has s t → Has (apply s b) t
  has_of_inEffect : ∀ s a, apply s a = norm s → Has s (target a)
  inEffect_apply : ∀ s a b, target a ≠ target b →
    (apply (apply s b) a = apply s b ↔ apply s a = norm s)

namespace Overwriting

variable {S A T : Type} (O : Overwriting S A T) {s : S} {a b last : A} {as : List A}

/-- Applies a list of updates. -/
def applyAll (s : S) (as : List A) : S := as.foldl O.apply s

/-- Update `a` is in effect: to apply it changes nothing. -/
def InEffect (s : S) (a : A) : Prop := O.apply s a = O.norm s

/-- Every update of the list but the last is overwritten by a later one or in effect. -/
def OthersInEffect (s : S) (as : List A) : Prop :=
  ∀ pre a post, as = pre ++ a :: post → post ≠ [] →
    (∀ b ∈ post, O.target b ≠ O.target a) → O.InEffect s a

variable {O}

/-- A single update has no others. -/
theorem othersInEffect_singleton : O.OthersInEffect s [a] := by
  intro pre b post heq hne
  have hlen := congrArg List.length heq
  simp only [List.length_append, List.length_cons, List.length_nil] at hlen
  exact absurd (List.length_eq_zero_iff.mp (by omega)) hne

/-- Changes are applied in turn. -/
theorem applyAll_append (as bs : List A) :
    O.applyAll s (as ++ bs) = O.applyAll (O.applyAll s as) bs := List.foldl_append

/-- The last change is applied to what the others have made. -/
theorem applyAll_concat (as : List A) (a : A) :
    O.applyAll s (as ++ [a]) = O.apply (O.applyAll s as) a := by
  simp [applyAll]

/-- What a list of updates leaves has what every update does besides. -/
theorem norm_applyAll (h : as ≠ []) : O.norm (O.applyAll s as) = O.applyAll s as := by
  obtain ⟨as', a, rfl⟩ := (List.eq_nil_or_concat' as).resolve_left h
  rw [applyAll_concat, O.norm_apply]

/-- An update moves past updates of other targets. -/
theorem applyAll_comm (h : O.Has s (O.target a)) (has : ∀ b ∈ as, O.target b ≠ O.target a) :
    O.applyAll (O.apply s a) as = O.apply (O.applyAll s as) a := by
  induction as generalizing s with
  | nil => rfl
  | cons b as ih =>
      have hb : O.target a ≠ O.target b := Ne.symm (has b List.mem_cons_self)
      change O.applyAll (O.apply (O.apply s a) b) as = O.apply (O.applyAll (O.apply s b) as) a
      rw [O.comm s a b hb h]
      exact ih (O.has_apply s _ b h) fun b' hb' => has b' (List.mem_cons_of_mem _ hb')

/-- A change of another target hides no effect. -/
theorem inEffect_of_apply (hab : O.target a ≠ O.target b) (h : O.InEffect (O.apply s b) a) :
    O.InEffect s a := by
  rw [InEffect, O.norm_apply] at h
  exact (O.inEffect_apply s a b hab).mp h

/-- To be in effect is not affected by updates of other targets. -/
theorem inEffect_applyAll (has : ∀ b ∈ as, O.target b ≠ O.target a) (h : O.InEffect s a) :
    O.InEffect (O.applyAll s as) a := by
  induction as generalizing s with
  | nil => exact h
  | cons b as ih =>
      have hb : O.target a ≠ O.target b := Ne.symm (has b List.mem_cons_self)
      refine ih (fun b' hb' => has b' (List.mem_cons_of_mem _ hb')) ?_
      rw [InEffect, O.norm_apply]
      exact (O.inEffect_apply s a b hb).mpr h

/-- A change is in effect when it has just been applied. -/
theorem inEffect_self : O.InEffect (O.apply s a) a := by
  rw [InEffect, O.absorb s a a rfl, O.norm_apply]

/-- What every update does besides can be left to the updates. -/
theorem apply_applyAll_norm (as : List A) :
    O.apply (O.applyAll (O.norm s) as) a = O.apply (O.applyAll s as) a := by
  cases as with
  | nil => exact O.apply_norm s a
  | cons b as => simp only [applyAll, List.foldl_cons, O.apply_norm]

/-! ## Commuting updates -/

section Commuting

variable {bs : List A}

/-- An update that comes up later need not be made first. -/
theorem applyAll_apply_of_mem
    (hcomm : ∀ s, ∀ b ∈ as, O.apply (O.apply s a) b = O.apply (O.apply s b) a) (ha : a ∈ as) :
    O.applyAll (O.apply s a) as = O.applyAll s as := by
  induction as generalizing s with
  | nil => simp at ha
  | cons b as ih =>
      show O.applyAll (O.apply (O.apply s a) b) as = O.applyAll (O.apply s b) as
      by_cases hab : a = b
      · rw [hab, O.absorb s b b rfl]
      · rw [hcomm s b List.mem_cons_self]
        exact ih (fun s c hc => hcomm s c (List.mem_cons_of_mem _ hc))
          ((List.mem_cons.mp ha).resolve_left hab)

variable [DecidableEq A]

/-- Repeated updates can be left out. -/
theorem applyAll_dedup (hcomm : ∀ s, ∀ a ∈ as, ∀ b ∈ as,
      O.apply (O.apply s a) b = O.apply (O.apply s b) a) :
    O.applyAll s as.dedup = O.applyAll s as := by
  induction as generalizing s with
  | nil => rfl
  | cons a as ih =>
      have hrest := ih (s := O.apply s a) fun s b hb c hc =>
        hcomm s b (List.mem_cons_of_mem _ hb) c (List.mem_cons_of_mem _ hc)
      have hhead : ∀ s, ∀ b ∈ as, O.apply (O.apply s a) b = O.apply (O.apply s b) a :=
        fun s b hb => hcomm s a List.mem_cons_self b (List.mem_cons_of_mem _ hb)
      by_cases ha : a ∈ as
      · rw [List.dedup_cons_of_mem ha]
        show O.applyAll s as.dedup = O.applyAll (O.apply s a) as
        rw [← hrest, applyAll_apply_of_mem (fun s b hb => hhead s b (List.mem_dedup.mp hb))
          (List.mem_dedup.mpr ha)]
      · rw [List.dedup_cons_of_notMem ha]
        exact hrest

/-- **Commuting updates depend on which they are**, not on their order or number. -/
theorem applyAll_eq_of_mem_iff (hcomm : ∀ s, ∀ a ∈ as, ∀ b ∈ as,
      O.apply (O.apply s a) b = O.apply (O.apply s b) a) (h : ∀ a, a ∈ as ↔ a ∈ bs) :
    O.applyAll s as = O.applyAll s bs := by
  have hcomm' : ∀ s, ∀ a ∈ bs, ∀ b ∈ bs, O.apply (O.apply s a) b = O.apply (O.apply s b) a :=
    fun s a ha b hb => hcomm s a ((h a).mpr ha) b ((h b).mpr hb)
  rw [← applyAll_dedup hcomm, ← applyAll_dedup hcomm']
  have hperm : as.dedup.Perm bs.dedup := by
    rw [List.perm_ext_iff_of_nodup as.nodup_dedup bs.nodup_dedup]
    intro a
    rw [List.mem_dedup, List.mem_dedup]
    exact h a
  apply hperm.foldl_eq'
  intro a ha b hb s
  exact (hcomm s b (List.mem_dedup.mp hb) a (List.mem_dedup.mp ha)).symm

end Commuting

variable [DecidableEq T]

/-- Updates whose target is overwritten at the end can be left out. -/
theorem apply_applyAll_filter (h : O.Has s (O.target b)) (as : List A) :
    O.apply (O.applyAll s as) b =
      O.apply (O.applyAll s (as.filter fun a => O.target a ≠ O.target b)) b := by
  induction as generalizing s with
  | nil => rfl
  | cons a as ih =>
      have hrest := ih (O.has_apply s _ a h)
      by_cases hab : O.target a = O.target b
      · have hothers :
            ∀ c ∈ as.filter fun c => O.target c ≠ O.target b, O.target c ≠ O.target a := by
          intro c hc
          rw [hab]
          simpa using (List.mem_filter.mp hc).2
        rw [List.filter_cons_of_neg (by simp [hab])]
        refine hrest.trans ?_
        rw [applyAll_comm (hab ▸ h) hothers, O.absorb _ a b hab]
      · rw [List.filter_cons_of_pos (by simp [hab])]
        exact hrest

/-- The last update alone gives what the whole list gives, if the others are in effect or
overwritten. -/
theorem apply_applyAll (h : ∀ pre a post, as = pre ++ a :: post →
      (∀ b ∈ post, O.target b ≠ O.target a) → O.target a ≠ O.target last → O.InEffect s a) :
    O.apply (O.applyAll s as) last = O.apply s last := by
  -- each round takes off the end of the list, and with it the updates it overwrites
  induction hn : as.length using Nat.strong_induction_on generalizing as with
  | _ n ih =>
    subst hn
    rcases List.eq_nil_or_concat' as with rfl | ⟨as, b, rfl⟩
    · rfl
    rw [applyAll_concat]
    by_cases hlast : O.target b = O.target last
    · rw [O.absorb _ b last hlast]
      refine ih as.length (by simp) (fun pre a post heq hpost ha => ?_) rfl
      refine h pre a (post ++ [b]) (by simp [heq]) (fun c hc => ?_) ha
      rcases List.mem_append.mp hc with hc | hc
      · exact hpost c hc
      · rw [List.mem_singleton.mp hc, hlast]; exact Ne.symm ha
    · have hb : O.InEffect s b := h as b [] rfl (by simp) hlast
      have hhas := O.has_of_inEffect s b hb
      rw [apply_applyAll_filter hhas, ← applyAll_comm hhas fun c hc => by
        simpa using (List.mem_filter.mp hc).2]
      rw [show O.apply s b = O.norm s from hb, apply_applyAll_norm]
      refine ih _ (by simpa using Nat.lt_succ_of_le (List.length_filter_le _ as))
        (fun pre a post heq hpost ha => ?_) rfl
      obtain ⟨pre', rest, rfl, -, hrest⟩ := List.filter_eq_append_iff.mp heq
      obtain ⟨skipped, post', rfl, -, hab, rfl⟩ := List.filter_eq_cons_iff.mp hrest
      have hab : O.target a ≠ O.target b := by simpa using hab
      refine h (pre' ++ skipped) a (post' ++ [b]) (by simp) (fun c hc => ?_) ha
      rcases List.mem_append.mp hc with hc | hc
      · by_cases hcb : O.target c = O.target b
        · rw [hcb]; exact Ne.symm hab
        · exact hpost c (List.mem_filter.mpr ⟨hc, by simpa using hcb⟩)
      · rw [List.mem_singleton.mp hc]; exact Ne.symm hab

/-- **When the last update alone is enough**: exactly when every other update is overwritten
by a later one or in effect from the start. -/
theorem last_alone_iff : O.applyAll s (as ++ [last]) = O.apply s last ↔
    O.OthersInEffect s (as ++ [last]) := by
  constructor
  · intro heq pre a post hsplit hne hpost
    obtain ⟨post', last', rfl⟩ := (List.eq_nil_or_concat' post).resolve_left hne
    have hend : as ++ [last] = (pre ++ a :: post') ++ [last'] := by simpa using hsplit
    obtain rfl : last = last' := List.singleton_inj.mp (List.append_inj' hend rfl).2
    rw [hsplit, applyAll_append] at heq
    change O.applyAll (O.apply (O.applyAll s pre) a) (post' ++ [last]) = _ at heq
    have hkept : O.InEffect (O.apply s last) a :=
      heq ▸ inEffect_applyAll hpost inEffect_self
    exact inEffect_of_apply (Ne.symm (hpost last (by simp))) hkept
  · intro h
    rw [applyAll_concat]
    refine apply_applyAll fun pre a post heq hpost ha => ?_
    refine h pre a (post ++ [last]) (by simp [heq]) (by simp) (fun b hb => ?_)
    rcases List.mem_append.mp hb with hb | hb
    · exact hpost b hb
    · rw [List.mem_singleton.mp hb]; exact Ne.symm ha

/-- **When a list of updates changes nothing**: exactly when what every update does besides is
done, and every update that no later one overwrites is in effect. -/
theorem applyAll_eq_self_iff (h : as ≠ []) : O.applyAll s as = s ↔ O.norm s = s ∧
    ∀ pre a post, as = pre ++ a :: post → (∀ b ∈ post, O.target b ≠ O.target a) →
      O.InEffect s a := by
  constructor
  · intro hsame
    refine ⟨by rw [← hsame, norm_applyAll h], fun pre a post hsplit hpost => ?_⟩
    have hkept : O.InEffect (O.applyAll (O.apply (O.applyAll s pre) a) post) a :=
      inEffect_applyAll hpost inEffect_self
    have hall : O.applyAll (O.apply (O.applyAll s pre) a) post = O.applyAll s as := by
      rw [hsplit, applyAll_append]
      rfl
    rwa [hall, hsame] at hkept
  · rintro ⟨hnorm, heffect⟩
    obtain ⟨as', last, rfl⟩ := (List.eq_nil_or_concat' as).resolve_left h
    have hlast : O.InEffect s last := heffect as' last [] rfl (by simp)
    have halone : O.applyAll s (as' ++ [last]) = O.apply s last :=
      last_alone_iff.mpr fun pre a post hsplit _ hpost => heffect pre a post hsplit hpost
    rw [halone, show O.apply s last = O.norm s from hlast, hnorm]

end Overwriting

end CloudOps.Computation
