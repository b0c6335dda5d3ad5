import CloudOps.Computation.Transition
import CloudOps.Computation.Program

/-!
# Interleaved programs

A `Pool` holds a store, any number of programs, and the history of the operations they
have performed on the store. One event lets one program perform its next operation, or
stops it there with an error, its operation applied or lost. Runs are the guarded runs of
this machine.

`own q history` is what program `q` has performed. Nothing but the program itself adds to
it, so a result about a program alone (`Prog.Emits`) holds in every interleaving: that is
`conforms_of_emits`. `before_le_of_reaches` is the other rule for whole runs: a relation
that every operation respects holds between any store of the history and the present one.
-/

set_option autoImplicit false

namespace CloudOps.Computation

/-- Programs over one store, and what they have performed on it so far, oldest first. -/
structure Pool (Op : Type) (Reply : Op → Type) (σ ε α : Type) where
  store : σ
  procs : ℕ → Prog Op Reply ε α
  history : List (ℕ × Event Op σ)

/-- Program `q` performs its next operation, or fails at it. -/
inductive PoolEvent
  | run (q : ℕ)
  | fail (q : ℕ) (applied : Bool)

/-- The operations that may fail, and the error they then raise. -/
structure Faults (Op ε : Type) where
  mayFail : Op → Bool
  error : ε

/-- What program `q` has performed. -/
def own {Op σ : Type} (q : ℕ) (history : List (ℕ × Event Op σ)) : List (Event Op σ) :=
  (history.filter (·.1 = q)).map (·.2)

section Own

variable {Op σ : Type} {q q' : ℕ} {ev : Event Op σ} {history : List (ℕ × Event Op σ)}

/-- In an empty history nobody has performed anything. -/
@[simp] theorem own_nil : own q ([] : List (ℕ × Event Op σ)) = [] := rfl

/-- What a program has performed stands in the history under its number. -/
@[simp] theorem mem_own : ev ∈ own q history ↔ (q, ev) ∈ history := by
  simp [own]

/-- The operation a program performs is its last. -/
@[simp] theorem own_append_self : own q (history ++ [(q, ev)]) = own q history ++ [ev] := by
  simp [own]

/-- What a program has performed splits with the history. -/
theorem own_append (older newer : List (ℕ × Event Op σ)) :
    own q (older ++ newer) = own q older ++ own q newer := by
  simp [own]

/-- An operation of the program is the first of its own. -/
theorem own_cons_self : own q ((q, ev) :: history) = ev :: own q history := by
  simp [own]

/-- What a program has performed splits at its own operations. -/
theorem own_append_cons_self (older newer : List (ℕ × Event Op σ)) :
    own q (older ++ (q, ev) :: newer) = own q older ++ ev :: own q newer := by
  rw [own_append, own_cons_self]

/-- An operation of another program does not matter, at the beginning of a history. -/
theorem own_cons_ne (h : q' ≠ q) : own q ((q', ev) :: history) = own q history := by
  simp [own, h]

/-- An operation of another program does not matter, at the end of a history. -/
theorem own_append_ne (h : q' ≠ q) : own q (history ++ [(q', ev)]) = own q history := by
  simp [own, h]

/-- Where an operation of the program stands in the history. -/
theorem own_split {past rest : List (Event Op σ)} (h : own q history = past ++ ev :: rest) :
    ∃ older newer, history = older ++ (q, ev) :: newer ∧ own q older = past ∧
      own q newer = rest := by
  induction history generalizing past with
  | nil => simp at h
  | cons e history ih =>
      obtain ⟨q', ev'⟩ := e
      by_cases hq : q' = q
      · subst hq
        rw [own_cons_self] at h
        cases past with
        | nil =>
            obtain ⟨rfl, hrest⟩ := List.cons.inj h
            exact ⟨[], history, rfl, rfl, hrest⟩
        | cons first past =>
            obtain ⟨rfl, htail⟩ := List.cons.inj h
            obtain ⟨older, newer, rfl, hold, hnew⟩ := ih htail
            exact ⟨(q', ev') :: older, newer, rfl, by rw [own_cons_self, hold], hnew⟩
      · rw [own_cons_ne hq] at h
        obtain ⟨older, newer, rfl, hold, hnew⟩ := ih h
        exact ⟨(q', ev') :: older, newer, rfl, by rw [own_cons_ne hq, hold], hnew⟩

end Own

namespace Pool

variable {Op : Type} {Reply : Op → Type} {σ ε α : Type}

/-- A pool of programs none of which has begun. -/
def initial (store : σ) (procs : ℕ → Prog Op Reply ε α) : Pool Op Reply σ ε α :=
  ⟨store, procs, []⟩

/-- Program `q` performs `op` and goes on as `rest`. -/
def perform (h : Handler Op Reply σ) (s : Pool Op Reply σ ε α) (q : ℕ) (op : Op)
    (rest : Prog Op Reply ε α) : Pool Op Reply σ ε α where
  store := (h.exec op s.store).2
  procs := Function.update s.procs q rest
  history := s.history ++ [(q, ⟨op, s.store⟩)]

/-- Program `q` goes on as `rest` without performing anything. -/
def stop (s : Pool Op Reply σ ε α) (q : ℕ) (rest : Prog Op Reply ε α) : Pool Op Reply σ ε α :=
  { s with procs := Function.update s.procs q rest }

/-- The machine that interleaves the programs. -/
def machine (h : Handler Op Reply σ) (faults : Faults Op ε) :
    Machine (Pool Op Reply σ ε α) PoolEvent where
  step s
    | .run q => match s.procs q with
      | .call op k => some (s.perform h q op (k (h.exec op s.store).1))
      | _ => none
    | .fail q applied => match s.procs q with
      | .call op _ =>
        if faults.mayFail op then
          if applied then some (s.perform h q op (.throw faults.error))
          else some (s.stop q (.throw faults.error))
        else none
      | _ => none

variable {h : Handler Op Reply σ} {faults : Faults Op ε} {s s' : Pool Op Reply σ ε α}
  {e : PoolEvent} {G : Pool Op Reply σ ε α → PoolEvent → Prop}

/-- What one event does. -/
inductive Step (h : Handler Op Reply σ) (faults : Faults Op ε) (s : Pool Op Reply σ ε α) :
    PoolEvent → Pool Op Reply σ ε α → Prop
  | run (q : ℕ) (op : Op) (k : Reply op → Prog Op Reply ε α) (hq : s.procs q = .call op k) :
      Step h faults s (.run q) (s.perform h q op (k (h.exec op s.store).1))
  | applied (q : ℕ) (op : Op) (k : Reply op → Prog Op Reply ε α) (hq : s.procs q = .call op k)
      (hop : faults.mayFail op = true) :
      Step h faults s (.fail q true) (s.perform h q op (.throw faults.error))
  | lost (q : ℕ) (op : Op) (k : Reply op → Prog Op Reply ε α) (hq : s.procs q = .call op k)
      (hop : faults.mayFail op = true) :
      Step h faults s (.fail q false) (s.stop q (.throw faults.error))

/-- **The events of a pool**, said once: the program they belong to was at an operation. -/
theorem step_cases (hs : (machine h faults).step s e = some s') : Step h faults s e s' := by
  cases e with
  | run q =>
      cases hq : s.procs q with
      | call op k =>
          simp only [machine, hq, Option.some.injEq] at hs
          subst hs
          exact .run q op k hq
      | ret a => simp [machine, hq] at hs
      | throw e => simp [machine, hq] at hs
  | fail q applied =>
      cases hq : s.procs q with
      | call op k =>
          by_cases hop : faults.mayFail op = true
          · cases applied with
            | true =>
                simp only [machine, hq, hop, if_true, Option.some.injEq] at hs
                subst hs
                exact .applied q op k hq hop
            | false =>
                simp only [machine, hq, hop, if_true, Bool.false_eq_true, if_false,
                  Option.some.injEq] at hs
                subst hs
                exact .lost q op k hq hop
          · simp [machine, hq, hop] at hs
      | ret a => simp [machine, hq] at hs
      | throw e => simp [machine, hq] at hs

/-- Event `e` makes program `q` perform `op` on the store, whether it goes on or fails. -/
inductive Performs (s : Pool Op Reply σ ε α) : PoolEvent → ℕ → Op → Prop
  | run (q : ℕ) (op : Op) (k : Reply op → Prog Op Reply ε α) (hq : s.procs q = .call op k) :
      Performs s (.run q) q op
  | applied (q : ℕ) (op : Op) (k : Reply op → Prog Op Reply ε α) (hq : s.procs q = .call op k) :
      Performs s (.fail q true) q op

/-- A program that performs an operation was at it. -/
theorem Performs.next {q : ℕ} {op : Op} (hp : s.Performs e q op) : ∃ k, s.procs q = .call op k := by
  cases hp with
  | run _ _ k hq => exact ⟨k, hq⟩
  | applied _ _ k hq => exact ⟨k, hq⟩

/-- Either an event performs one operation of one program, or it leaves store and history
alone. -/
theorem step_performs (hs : (machine h faults).step s e = some s') :
    (∃ q op rest, s.Performs e q op ∧ s' = s.perform h q op rest) ∨
      (s'.store = s.store ∧ s'.history = s.history) := by
  cases step_cases hs with
  | run q op k hq => exact Or.inl ⟨q, op, _, .run q op k hq, rfl⟩
  | applied q op k hq hop => exact Or.inl ⟨q, op, _, .applied q op k hq, rfl⟩
  | lost q op k hq hop => exact Or.inr ⟨rfl, rfl⟩

/-- Whether the operation that an event performs, if it performs one, passes a check. -/
def passes (check : Pool Op Reply σ ε α → ℕ → Op → Bool) (s : Pool Op Reply σ ε α) :
    PoolEvent → Bool
  | .run q | .fail q true => match s.procs q with
    | .call op _ => check s q op
    | _ => true
  | .fail _ false => true

/-- An operation of an event that passes has passed the check. -/
theorem Performs.passed {check : Pool Op Reply σ ε α → ℕ → Op → Bool} {q : ℕ} {op : Op}
    (hp : s.Performs e q op) (hpass : passes check s e = true) : check s q op = true := by
  cases hp with
  | run _ _ k hq => simpa [passes, hq] using hpass
  | applied _ _ k hq => simpa [passes, hq] using hpass

/-- **The invariant rule for stores and histories**: it is enough to look at one operation
of one program. -/
theorem invariant_of_performs {I : σ → List (ℕ × Event Op σ) → Prop}
    (hs : (machine h faults).Reaches G s s') (h0 : I s.store s.history)
    (hstep : ∀ t e q op, (machine h faults).Reaches G s t → G t e → t.Performs e q op →
      I t.store t.history → I (h.exec op t.store).2 (t.history ++ [(q, ⟨op, t.store⟩)])) :
    I s'.store s'.history := by
  induction hs with
  | refl => exact h0
  | step e ht hG he ih =>
      rcases step_performs he with ⟨q, op, rest, hp, rfl⟩ | ⟨hstore, hhist⟩
      · exact hstep _ e q op ht hG hp ih
      · rw [hstore, hhist]; exact ih

/-- **The invariant rule for a program with its past**: it is enough to look at the operation the
program is at, performed or lost, whatever the other programs do. -/
theorem invariant_of_own {store : σ} {procs : ℕ → Prog Op Reply ε α} {q : ℕ}
    {I : Prog Op Reply ε α → List (Event Op σ) → Prop}
    (hs : (machine h faults).Reaches G (initial store procs) s) (h0 : I (procs q) [])
    (hperform : ∀ op k past before rest, I (.call op k) past →
      (rest = k (h.exec op before).1 ∨ faults.mayFail op = true ∧ rest = .throw faults.error) →
      I rest (past ++ [⟨op, before⟩]))
    (hlost : ∀ op k past, I (.call op k) past → faults.mayFail op = true →
      I (.throw faults.error) past) :
    I (s.procs q) (own q s.history) := by
  refine hs.invariant (I := fun s => I (s.procs q) (own q s.history)) h0 ?_
  intro s e s' ih _ hstep
  cases step_cases hstep with
  | run q' op k hq' =>
      by_cases hqq : q' = q
      · subst hqq
        rw [hq'] at ih
        simpa [Pool.perform] using hperform op k _ s.store _ ih (Or.inl rfl)
      · simpa [Pool.perform, own_append_ne hqq, Function.update_of_ne (Ne.symm hqq)] using ih
  | applied q' op k hq' hop =>
      by_cases hqq : q' = q
      · subst hqq
        rw [hq'] at ih
        simpa [Pool.perform] using hperform op k _ s.store _ ih (Or.inr ⟨hop, rfl⟩)
      · simpa [Pool.perform, own_append_ne hqq, Function.update_of_ne (Ne.symm hqq)] using ih
  | lost q' op k hq' hop =>
      by_cases hqq : q' = q
      · subst hqq
        rw [hq'] at ih
        simpa [Pool.stop] using hlost op k _ ih hop
      · simpa [Pool.stop, Function.update_of_ne (Ne.symm hqq)] using ih

/-! ## Programs keep to their logic -/

/-- A program with its past keeps to `J` and `Q`: each operation performed met `J`, and so
will those to come, unless the program has been stopped by a failure. -/
structure Conforms (h : Handler Op Reply σ) (faults : Faults Op ε)
    (J : List (Event Op σ) → Op → Prop) (Q : List (Event Op σ) → Except ε α → Prop)
    (p : Prog Op Reply ε α) (past : List (Event Op σ)) : Prop where
  emitted : ∀ older ev newer, past = older ++ ev :: newer → J older ev.op
  emits : p.Emits h J Q past ∨ p = .throw faults.error

section Conforms

variable {J : List (Event Op σ) → Op → Prop} {Q : List (Event Op σ) → Except ε α → Prop}
  {p rest : Prog Op Reply ε α} {past : List (Event Op σ)} {op : Op}
  {k : Reply op → Prog Op Reply ε α}

/-- The operation a program is at meets `J`. -/
theorem Conforms.next (hc : Conforms h faults J Q (.call op k) past) : J past op := by
  rcases hc.emits with hemits | hstopped
  · exact hemits.1
  · cases hstopped

/-- What an operation in the middle of a history met. -/
theorem Conforms.emitted_at {q : ℕ} {ev : Event Op σ} {history older newer : List (ℕ × Event Op σ)}
    (hc : Conforms h faults J Q p (own q history)) (hsplit : history = older ++ (q, ev) :: newer) :
    J (own q older) ev.op :=
  hc.emitted _ _ _ (hsplit ▸ own_append_cons_self older newer)

/-- Performing an operation keeps a program to its logic. -/
theorem Conforms.perform (hc : Conforms h faults J Q (.call op k) past) (before : σ)
    (hrest : rest = k (h.exec op before).1 ∨ rest = .throw faults.error) :
    Conforms h faults J Q rest (past ++ [⟨op, before⟩]) where
  emitted := by
    intro older ev newer heq
    rcases List.eq_nil_or_concat newer with rfl | ⟨newer', last, rfl⟩
    · obtain ⟨rfl, hev⟩ := List.append_inj' heq rfl
      obtain rfl := List.singleton_inj.mp hev
      exact hc.next
    · have heq' : past ++ [⟨op, before⟩] = (older ++ ev :: newer') ++ [last] := by simpa using heq
      obtain ⟨hpast, -⟩ := List.append_inj' heq' rfl
      exact hc.emitted older ev newer' hpast
  emits := by
    rcases hc.emits with hemits | hstopped
    · rcases hrest with rfl | rfl
      · exact Or.inl (hemits.2 before)
      · exact Or.inr rfl
    · cases hstopped

end Conforms

/-- **A program alone and a program among others**: what `Emits` says of a program holds in
every interleaving, whatever the other programs are. -/
theorem conforms_of_emits {store : σ} {procs : ℕ → Prog Op Reply ε α}
    {J : List (Event Op σ) → Op → Prop} {Q : List (Event Op σ) → Except ε α → Prop} {q : ℕ}
    (hq : (procs q).Emits h J Q [])
    (hs : (machine h faults).Reaches G (initial store procs) s) :
    Conforms h faults J Q (s.procs q) (own q s.history) := by
  refine invariant_of_own (I := Conforms h faults J Q) hs ⟨by simp, Or.inl hq⟩ ?_ ?_
  · intro op k past before rest hc hrest
    exact hc.perform before (hrest.imp_right And.right)
  · intro op k past hc _
    exact ⟨hc.emitted, Or.inr rfl⟩

/-- Every program of a pool keeps to its logic. -/
theorem conforms_of_reaches {store : σ} {procs : ℕ → Prog Op Reply ε α}
    {J : ℕ → List (Event Op σ) → Op → Prop} {Q : ℕ → List (Event Op σ) → Except ε α → Prop}
    (hprocs : ∀ q, (procs q).Emits h (J q) (Q q) [])
    (hs : (machine h faults).Reaches G (initial store procs) s) (q : ℕ) :
    Conforms h faults (J q) (Q q) (s.procs q) (own q s.history) :=
  conforms_of_emits (hprocs q) hs

/-- **A guard that speaks of the history** holds at every event of the history. -/
theorem guarded_of_reaches {store : σ} {procs : ℕ → Prog Op Reply ε α}
    {C : List (ℕ × Event Op σ) → ℕ → Event Op σ → Prop}
    (hs : (machine h faults).Reaches G (initial store procs) s)
    (hG : ∀ t e q op, G t e → t.Performs e q op → C t.history q ⟨op, t.store⟩) :
    ∀ older q ev newer, s.history = older ++ (q, ev) :: newer → C older q ev := by
  refine invariant_of_performs (I := fun _ history => ∀ older q ev newer,
    history = older ++ (q, ev) :: newer → C older q ev) hs (by simp [initial]) ?_
  intro t e q op _ hGe hp ih older q' ev newer heq
  rcases List.eq_nil_or_concat' newer with rfl | ⟨newer', last, rfl⟩
  · obtain ⟨rfl, hlast⟩ := List.append_inj' heq rfl
    obtain ⟨rfl, rfl⟩ := Prod.mk.inj (List.singleton_inj.mp hlast)
    exact hG t e q op hGe hp
  · have heq' : t.history ++ [(q, ⟨op, t.store⟩)] = (older ++ (q', ev) :: newer') ++ [last] := by
      simpa using heq
    obtain ⟨hhist, -⟩ := List.append_inj' heq' rfl
    exact ih older q' ev newer' hhist

/-- No operation fails. -/
def OnlyRuns (_ : Pool Op Reply σ ε α) (e : PoolEvent) : Prop := ∃ q, e = .run q

/-- Programs that do not fail have followed their code. -/
theorem follows_of_reaches {store : σ} {procs : ℕ → Prog Op Reply ε α}
    (hs : (machine h faults).Reaches G (initial store procs) s)
    (hG : ∀ t e, G t e → ∃ q, e = .run q) (q : ℕ) :
    (procs q).Follows h (own q s.history) (s.procs q) := by
  induction hs generalizing q with
  | refl => exact .refl _
  | step e ht hGe he ih =>
      obtain ⟨q', rfl⟩ := hG _ e hGe
      cases step_cases he with
      | run _ op k hq' =>
          by_cases hqq : q' = q
          · subst hqq
            simpa [Pool.perform] using (ih q').concat hq' _
          · simpa [Pool.perform, own_append_ne hqq, Function.update_of_ne (Ne.symm hqq)] using ih q

/-- Programs that do not fail follow their logic to the end. -/
theorem emits_of_reaches {store : σ} {procs : ℕ → Prog Op Reply ε α}
    {J : ℕ → List (Event Op σ) → Op → Prop} {Q : ℕ → List (Event Op σ) → Except ε α → Prop}
    (hprocs : ∀ q, (procs q).Emits h (J q) (Q q) [])
    (hs : (machine h faults).Reaches G (initial store procs) s)
    (hG : ∀ t e, G t e → ∃ q, e = .run q) (q : ℕ) :
    (s.procs q).Emits h (J q) (Q q) (own q s.history) := by
  have h := (hprocs q).follows (follows_of_reaches hs hG q)
  rwa [List.nil_append] at h

/-- **The first operation of a program**, if it cannot fail: a program that the reply ends performs
nothing else. -/
theorem first_of_reaches {store : σ} {procs : ℕ → Prog Op Reply ε α} {q : ℕ} {op : Op}
    {k : Reply op → Prog Op Reply ε α} (hq : procs q = .call op k)
    (hop : faults.mayFail op = false)
    (hs : (machine h faults).Reaches G (initial store procs) s) :
    (own q s.history = [] ∧ s.procs q = .call op k) ∨
      ∃ before rest, own q s.history = ⟨op, before⟩ :: rest ∧
        ∀ a, k (h.exec op before).1 = .ret a → rest = [] ∧ s.procs q = .ret a := by
  refine invariant_of_own (I := fun p past => (past = [] ∧ p = .call op k) ∨
    ∃ before rest, past = ⟨op, before⟩ :: rest ∧
      ∀ a, k (h.exec op before).1 = .ret a → rest = [] ∧ p = .ret a) hs (Or.inl ⟨rfl, hq⟩) ?_ ?_
  · rintro op' k' past before p (⟨rfl, hfirst⟩ | ⟨first, rest, rfl, hends⟩) hp
    · cases hfirst
      rcases hp with rfl | ⟨hfail, -⟩
      · exact Or.inr ⟨before, [], rfl, fun a ha => ⟨rfl, ha⟩⟩
      · rw [hop] at hfail
        cases hfail
    · refine Or.inr ⟨first, rest ++ [⟨op', before⟩], rfl, fun a ha => ?_⟩
      cases (hends a ha).2
  · rintro op' k' past (⟨rfl, hfirst⟩ | ⟨first, rest, rfl, hends⟩) hfail
    · cases hfirst
      rw [hop] at hfail
      cases hfail
    · refine Or.inr ⟨first, rest, rfl, fun a ha => ?_⟩
      cases (hends a ha).2

/-! ## The history as a path -/

/-- The history leads from one store to another, each operation performed where the one
before it led. -/
def Chained (h : Handler Op Reply σ) : σ → List (ℕ × Event Op σ) → σ → Prop
  | s, [], t => t = s
  | s, (_, ev) :: history, t => ev.before = s ∧ Chained h (h.exec ev.op s).2 history t

/-- Paths compose. -/
theorem chained_append {s t : σ} {older newer : List (ℕ × Event Op σ)} :
    Chained h s (older ++ newer) t ↔ ∃ u, Chained h s older u ∧ Chained h u newer t := by
  induction older generalizing s with
  | nil => simp [Chained]
  | cons e older ih => simp [Chained, ih, and_assoc]

/-- **The history is a path** from the first store to the present one. -/
theorem chained_of_reaches {store : σ} {procs : ℕ → Prog Op Reply ε α}
    (hs : (machine h faults).Reaches G (initial store procs) s) :
    Chained h store s.history s.store := by
  refine invariant_of_performs (I := fun t history => Chained h store history t) hs rfl ?_
  intro t e q op _ _ _ hchained
  exact chained_append.mpr ⟨t.store, hchained, rfl, rfl⟩

/-- A history splits at an event where the store is the one the event found. -/
theorem Chained.split {s t : σ} {older newer : List (ℕ × Event Op σ)} {q : ℕ} {ev : Event Op σ}
    (hc : Chained h s (older ++ (q, ev) :: newer) t) :
    Chained h s older ev.before ∧ Chained h (h.exec ev.op ev.before).2 newer t := by
  obtain ⟨u, hold, rfl, hnew⟩ := chained_append.mp hc
  exact ⟨hold, hnew⟩

/-- **The view of one program**: a part of the store that only program `q` changes is what the
operations of `q` make of it. -/
theorem Chained.view {V : Type} (view : σ → V) (act : Op → V → V) {s t : σ}
    {history : List (ℕ × Event Op σ)} (hc : Chained h s history t) (q : ℕ)
    (hown : ∀ ev, (q, ev) ∈ history → view (h.exec ev.op ev.before).2 = act ev.op (view ev.before))
    (hother : ∀ q' ev, (q', ev) ∈ history → q' ≠ q →
      view (h.exec ev.op ev.before).2 = view ev.before) :
    view t = (own q history).foldl (fun v ev => act ev.op v) (view s) := by
  induction history generalizing s with
  | nil => rw [show t = s from hc]; rfl
  | cons e history ih =>
      obtain ⟨q', ev⟩ := e
      obtain ⟨rfl, hrest⟩ := hc
      have htail := ih hrest (fun ev' hev' => hown ev' (List.mem_cons_of_mem _ hev'))
        (fun q'' ev' hev' => hother q'' ev' (List.mem_cons_of_mem _ hev'))
      by_cases hq : q' = q
      · subst hq
        rw [own_cons_self, List.foldl_cons, ← hown ev List.mem_cons_self]
        exact htail
      · rw [own_cons_ne hq, ← hother q' ev List.mem_cons_self hq]
        exact htail

/-- **Stores only grow** along a relation that every operation of the path respects: every
store of the path is below the last one. -/
theorem Chained.le {R : σ → σ → Prop} (hrefl : ∀ s, R s s)
    (htrans : ∀ s t u, R s t → R t u → R s u) {s t : σ} {history : List (ℕ × Event Op σ)}
    (hc : Chained h s history t)
    (hexec : ∀ q ev, (q, ev) ∈ history → R ev.before (h.exec ev.op ev.before).2) :
    R s t ∧ ∀ q ev, (q, ev) ∈ history → R ev.before t := by
  induction history generalizing s with
  | nil =>
      rw [show t = s from hc]
      exact ⟨hrefl s, fun q ev hev => absurd hev List.not_mem_nil⟩
  | cons e history ih =>
      obtain ⟨q, ev⟩ := e
      obtain ⟨rfl, hrest⟩ := hc
      obtain ⟨hle, hall⟩ := ih hrest fun q' ev' hev' => hexec q' ev' (List.mem_cons_of_mem _ hev')
      have hfirst := htrans _ _ _ (hexec q ev List.mem_cons_self) hle
      refine ⟨hfirst, fun q' ev' hev' => ?_⟩
      rcases List.mem_cons.mp hev' with heq | hmem
      · obtain ⟨-, rfl⟩ := Prod.mk.inj heq
        exact hfirst
      · exact hall q' ev' hmem

/-- What holds at the end of a path and not at its beginning has been brought about by one of
its operations. -/
theorem Chained.enters {P : σ → Prop} {s t : σ} {history : List (ℕ × Event Op σ)}
    (hc : Chained h s history t) (hend : P t) :
    P s ∨ ∃ q ev, (q, ev) ∈ history ∧ ¬ P ev.before ∧ P (h.exec ev.op ev.before).2 := by
  induction history generalizing s with
  | nil => exact Or.inl ((show t = s from hc) ▸ hend)
  | cons e history ih =>
      obtain ⟨q, ev⟩ := e
      obtain ⟨rfl, hrest⟩ := hc
      rcases ih hrest with hafter | ⟨q', ev', hmem, henters⟩
      · by_cases hbefore : P ev.before
        · exact Or.inl hbefore
        · exact Or.inr ⟨q, ev, List.mem_cons_self, hbefore, hafter⟩
      · exact Or.inr ⟨q', ev', List.mem_cons_of_mem _ hmem, henters⟩

/-- Every operation respects the relation: every store of the history is below the present
one. -/
theorem before_le_of_reaches {R : σ → σ → Prop} (hrefl : ∀ s, R s s)
    (htrans : ∀ s t u, R s t → R t u → R s u) (hexec : ∀ op s, R s (h.exec op s).2)
    {store : σ} {procs : ℕ → Prog Op Reply ε α}
    (hs : (machine h faults).Reaches G (initial store procs) s) :
    R store s.store ∧ ∀ q ev, (q, ev) ∈ s.history → R ev.before s.store :=
  (chained_of_reaches hs).le hrefl htrans fun _ ev _ => hexec ev.op ev.before

end Pool

end CloudOps.Computation
