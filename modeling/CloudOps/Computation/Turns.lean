import Mathlib.Tactic
import Mathlib.Data.List.Basic
import CloudOps.Computation.Interleaving

/-!
# Histories by turns

A history interleaves the operations of several programs. `byTurns` gives the operations of
each program all at once, program by program. A history whose operations come in the order of
their programs is the history by turns: `eq_byTurns`.
-/

set_option autoImplicit false

namespace CloudOps.Computation

variable {E : Type}

/-- The operations program by program. -/
def byTurns (order : List ℕ) (history : List (ℕ × E)) : List (ℕ × E) :=
  order.flatMap fun q => history.filter (·.1 = q)

/-- A history sorted by programs starts with those of the first one. -/
theorem eq_filter_append (q : ℕ) (history : List (ℕ × E))
    (hsorted : history.Pairwise fun a b => b.1 = q → a.1 = q) :
    history = history.filter (·.1 = q) ++ history.filter (·.1 ≠ q) := by
  induction history with
  | nil => rfl
  | cons e history ih =>
      obtain ⟨hfirst, hrest⟩ := List.pairwise_cons.mp hsorted
      by_cases he : e.1 = q
      · have htail := ih hrest
        simp only [he, decide_true, List.filter_cons_of_pos, ne_eq, not_true_eq_false, decide_false,
          Bool.false_eq_true, not_false_eq_true, List.filter_cons_of_neg, List.cons_append]
        exact congrArg (e :: ·) htail
      · have hnone : ∀ e' ∈ history, e'.1 ≠ q := fun e' he' hq => he (hfirst e' he' hq)
        have hempty : history.filter (·.1 = q) = [] := by
          simpa [List.filter_eq_nil_iff] using hnone
        have hall : history.filter (·.1 ≠ q) = history := by
          simpa [List.filter_eq_self] using hnone
        rw [List.filter_cons_of_neg (by simpa using he),
          List.filter_cons_of_pos (by simpa using he), hempty, hall, List.nil_append]

/-- **A history in the order of its programs is the history by turns.** -/
theorem eq_byTurns {order : List ℕ} {history : List (ℕ × E)} (hmem : ∀ e ∈ history, e.1 ∈ order)
    (hnodup : order.Nodup)
    (hsorted : history.Pairwise fun a b => order.idxOf a.1 ≤ order.idxOf b.1) :
    history = byTurns order history := by
  induction order generalizing history with
  | nil =>
      have hnil : history = [] := List.eq_nil_iff_forall_not_mem.mpr fun e he =>
        absurd (hmem e he) List.not_mem_nil
      rw [hnil]; rfl
  | cons q order ih =>
      obtain ⟨hq, hnodup⟩ := List.nodup_cons.mp hnodup
      have hfirst := eq_filter_append q history (hsorted.imp fun {a b} hab hb => by
        rw [hb, List.idxOf_cons_self, Nat.le_zero] at hab
        by_contra hne
        rw [List.idxOf_cons_ne _ (Ne.symm hne)] at hab
        cases hab)
      have hrest : history.filter (·.1 ≠ q) = byTurns order (history.filter (·.1 ≠ q)) := by
        refine ih (fun e he => ?_) hnodup ?_
        · obtain ⟨he, hne⟩ := List.mem_filter.mp he
          exact (List.mem_cons.mp (hmem e he)).resolve_left (by simpa using hne)
        · refine List.Pairwise.imp_of_mem ?_ (hsorted.filter _)
          intro a b ha hb hab
          have hne : ∀ e ∈ history.filter (·.1 ≠ q), q ≠ e.1 := fun e he =>
            Ne.symm (by simpa using (List.mem_filter.mp he).2)
          rw [List.idxOf_cons_ne _ (hne a ha), List.idxOf_cons_ne _ (hne b hb)] at hab
          omega
      have hothers : byTurns order (history.filter (·.1 ≠ q)) = byTurns order history := by
        unfold byTurns
        refine List.flatMap_congr fun q' hq' => ?_
        rw [List.filter_filter]
        refine List.filter_congr fun e _ => ?_
        have hne : q' ≠ q := fun h => hq (h ▸ hq')
        by_cases he : e.1 = q' <;> simp [he, hne]
      conv_lhs => rw [hfirst, hrest, hothers]
      rfl

section Order

variable {order order' : List ℕ} {history : List (ℕ × E)}

/-- The turns of a list come part by part. -/
theorem byTurns_append (order order' : List ℕ) (history : List (ℕ × E)) :
    byTurns (order ++ order') history = byTurns order history ++ byTurns order' history :=
  List.flatMap_append

/-- The turn of the first program comes first. -/
theorem byTurns_cons (q : ℕ) (order : List ℕ) (history : List (ℕ × E)) :
    byTurns (q :: order) history = history.filter (·.1 = q) ++ byTurns order history :=
  List.flatMap_cons

/-- By turns there are the operations of the programs listed. -/
theorem mem_byTurns {e : ℕ × E} : e ∈ byTurns order history ↔ e.1 ∈ order ∧ e ∈ history := by
  simp only [byTurns, List.mem_flatMap, List.mem_filter, decide_eq_true_eq]
  constructor
  · rintro ⟨q, hq, he, rfl⟩
    exact ⟨hq, he⟩
  · rintro ⟨hq, he⟩
    exact ⟨e.1, hq, he, rfl⟩

/-- A part of the history by turns is the part by turns. -/
theorem byTurns_filter (f : ℕ × E → Bool) :
    byTurns order (history.filter f) = (byTurns order history).filter f := by
  simp only [byTurns, List.filter_flatMap, List.filter_filter, Bool.and_comm]

/-- What each program has performed is the same by turns. -/
theorem filter_byTurns {q : ℕ} (hq : q ∈ order) (hnodup : order.Nodup) :
    (byTurns order history).filter (·.1 = q) = history.filter (·.1 = q) := by
  induction order with
  | nil => exact absurd hq List.not_mem_nil
  | cons q' order ih =>
      obtain ⟨hq', hnodup⟩ := List.nodup_cons.mp hnodup
      rw [byTurns_cons, List.filter_append, List.filter_filter]
      rcases List.mem_cons.mp hq with rfl | hmem
      · have hothers : (byTurns order history).filter (·.1 = q) = [] := by
          refine List.filter_eq_nil_iff.mpr fun e he hqe => hq' ?_
          obtain rfl : e.1 = q := by simpa using hqe
          exact (mem_byTurns.mp he).1
        simp only [hothers, Bool.and_self, List.append_nil]
      · have hfirst : history.filter (fun e => decide (e.1 = q) && decide (e.1 = q')) = [] := by
          refine List.filter_eq_nil_iff.mpr fun e _ hboth => hq' ?_
          obtain ⟨rfl, rfl⟩ : e.1 = q ∧ e.1 = q' := by simpa using hboth
          exact hmem
        rw [hfirst, List.nil_append, ih hmem hnodup]

end Order

/-- The store after programs have run one after another. -/
def runInTurn {Op : Type} {Reply : Op → Type} {σ ε α : Type} (h : Handler Op Reply σ)
    (procs : ℕ → Prog Op Reply ε α) (order : List ℕ) (s : σ) : σ :=
  order.foldl (fun s q => ((procs q).run h s).2) s

/-- Where an operation stands in two histories of the same operations, if its program has performed
the same before it in both. -/
theorem eq_of_append_cons {older older' newer newer' : List (ℕ × E)} {e : ℕ × E}
    (h : older ++ e :: newer = older' ++ e :: newer')
    (hown : older.countP (·.1 = e.1) = older'.countP (·.1 = e.1)) : older = older' := by
  have hshort : ∀ {a b c d : List (ℕ × E)}, a ++ e :: c = b ++ e :: d →
      a.countP (·.1 = e.1) = b.countP (·.1 = e.1) → a.length ≤ b.length → a = b := by
    intro a b c d heq hcount hle
    obtain ⟨rest, rfl⟩ : a <+: b :=
      List.prefix_of_prefix_length_le ⟨e :: c, heq⟩ ⟨e :: d, rfl⟩ hle
    rw [List.append_assoc] at heq
    have htail := List.append_cancel_left heq
    cases rest with
    | nil => exact (List.append_nil a).symm
    | cons e' rest =>
        obtain ⟨rfl, -⟩ := List.cons.inj htail
        rw [List.countP_append, List.countP_cons_of_pos (by simp)] at hcount
        omega
  rcases Nat.le_total older.length older'.length with hle | hle
  · exact hshort h hown hle
  · exact (hshort h.symm hown.symm hle).symm

end CloudOps.Computation
