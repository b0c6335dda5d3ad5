import CloudOps.Computation.Interleaving

/-!
# Programs under a policy

A policy says which operations are allowed in which store. A program that is to keep to it
among others knows the stores it has found only from its own past; what it relies on must
stay when the others go on. `Permitted` asks that each operation be allowed in every store in
which everything the program has left behind is kept, for a relation that every operation
respects. Then the policy holds of each operation at the very store it is performed on
(`Pool.allowed_of_reaches`).
-/

set_option autoImplicit false

namespace CloudOps.Computation

variable {Op : Type} {Reply : Op → Type} {σ ε α : Type}

/-- What the operations of a program have left behind is kept in the store. -/
def Kept (h : Handler Op Reply σ) (R : σ → σ → Prop) (past : List (Event Op σ)) (s : σ) : Prop :=
  ∀ ev ∈ past, R (h.exec ev.op ev.before).2 s

/-- **The program keeps to a policy**: each operation is allowed, after what the program has done
before it, in every store in which its past is kept, and the end is as promised. -/
def Prog.Permitted (h : Handler Op Reply σ) (R : σ → σ → Prop)
    (A : List (Event Op σ) → σ → Op → Prop) (B : Except ε α → Prop) :
    Prog Op Reply ε α → List (Event Op σ) → Prop :=
  Prog.Emits h (fun past op => ∀ s, Kept h R past s → A past s op) fun _ result => B result

/-- A relation that holds between stores as operations are performed. -/
structure Handler.Respects (h : Handler Op Reply σ) (R : σ → σ → Prop) : Prop where
  refl : ∀ s, R s s
  trans : ∀ s t u, R s t → R t u → R s u
  exec : ∀ op s, R s (h.exec op s).2

namespace Pool

variable {h : Handler Op Reply σ} {faults : Faults Op ε} {s : Pool Op Reply σ ε α}
  {G : Pool Op Reply σ ε α → PoolEvent → Prop} {R : σ → σ → Prop}
  {A : List (Event Op σ) → σ → Op → Prop}
  {B : Except ε α → Prop} {store t : σ} {procs : ℕ → Prog Op Reply ε α} {q : ℕ}

/-- The store of every state of a run is related to that of its end. -/
theorem respected_of_reaches {s' : Pool Op Reply σ ε α} (hR : h.Respects R)
    (hs : (machine h faults).Reaches G s s') : R s.store s'.store := by
  refine hs.invariant (I := fun t => R s.store t.store) (hR.refl _) ?_
  intro t e t' ih _ hstep
  rcases step_performs hstep with ⟨q, op, rest, -, rfl⟩ | ⟨hstore, -⟩
  · exact hR.trans _ _ _ ih (hR.exec op t.store)
  · rw [hstore]
    exact ih

/-- What has been left behind on a path is kept at its end. -/
theorem Chained.kept {history : List (ℕ × Event Op σ)} (hR : h.Respects R)
    (hc : Chained h store history t) : Kept h R (own q history) t := by
  intro ev hev
  obtain ⟨older, newer, rfl⟩ := List.append_of_mem (mem_own.mp hev)
  have hafter : Chained h (h.exec ev.op ev.before).2 newer t := hc.split.2
  exact (hafter.le hR.refl hR.trans fun _ ev _ => hR.exec ev.op ev.before).1

/-- An operation is allowed when it is performed. -/
theorem allowed_of_performs (hR : h.Respects R) (hq : (procs q).Permitted h R A B [])
    (hs : (machine h faults).Reaches G (initial store procs) s) {e : PoolEvent} {op : Op}
    (hp : s.Performs e q op) : A (own q s.history) s.store op := by
  obtain ⟨k, hnext⟩ := hp.next
  have hconforms := conforms_of_emits hq hs
  rw [hnext] at hconforms
  exact hconforms.next s.store ((chained_of_reaches hs).kept hR)

/-- **A policy holds at the store of each operation**, after what its program has done before it, in
every interleaving with any other programs. -/
theorem allowed_of_reaches (hR : h.Respects R) (hq : (procs q).Permitted h R A B [])
    (hs : (machine h faults).Reaches G (initial store procs) s) {ev : Event Op σ}
    (hev : (q, ev) ∈ s.history) : ∃ older newer, s.history = older ++ (q, ev) :: newer ∧
      A (own q older) ev.before ev.op := by
  obtain ⟨older, newer, hhist⟩ := List.append_of_mem hev
  have hchained : Chained h store (older ++ (q, ev) :: newer) s.store :=
    hhist ▸ chained_of_reaches hs
  exact ⟨older, newer, hhist,
    (conforms_of_emits hq hs).emitted_at hhist ev.before (hchained.split.1.kept hR)⟩

/-- What is promised of the end holds of what a program returns. -/
theorem ended_of_reaches (hq : (procs q).Permitted h R A B [])
    (hs : (machine h faults).Reaches G (initial store procs) s) {a : α}
    (hended : s.procs q = .ret a) : B (.ok a) := by
  rcases (conforms_of_emits hq hs).emits with hemits | hstopped
  · rw [hended] at hemits
    exact hemits
  · rw [hended] at hstopped
    cases hstopped

end Pool

end CloudOps.Computation
