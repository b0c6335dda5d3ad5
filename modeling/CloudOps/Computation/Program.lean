import Mathlib.Tactic

/-!
# Programs over a shared store

A `Prog` is a request as the store sees it: it returns, throws, or performs one operation
and goes on with the reply. A `Handler` says what an operation replies and does to a
store. `Prog.run` performs a whole program without interruption; interleaved runs are in
`Interleaving.lean`.

`Prog.Emits` is the logic of a single program. It speaks of what the program itself has
performed so far, its own past, and of nothing else: whatever the store looked like at
each operation, every operation performed meets `J` with the past before it, and the end
meets `Q` with the whole past. Since it assumes nothing about the store, it holds under any
interference (`Interleaving.lean`).
-/

set_option autoImplicit false

namespace CloudOps.Computation

/-- A program: it returns, throws, or performs an operation and goes on with the reply. -/
inductive Prog (Op : Type) (Reply : Op → Type) (ε α : Type) : Type
  | ret (a : α)
  | throw (e : ε)
  | call (op : Op) (k : Reply op → Prog Op Reply ε α)

/-- What the operations reply and do to a store. -/
structure Handler (Op : Type) (Reply : Op → Type) (σ : Type) where
  exec : (op : Op) → σ → Reply op × σ

/-- An operation a program has performed, with the store it found. -/
structure Event (Op σ : Type) where
  op : Op
  before : σ

/-- The store after operations performed in turn. -/
def Handler.execAll {Op σ : Type} {Reply : Op → Type} (h : Handler Op Reply σ) (ops : List Op)
    (s : σ) : σ :=
  ops.foldl (fun s op => (h.exec op s).2) s

/-- Operations are performed in turn. -/
theorem Handler.execAll_append {Op σ : Type} {Reply : Op → Type} (h : Handler Op Reply σ)
    (ops ops' : List Op) (s : σ) : h.execAll (ops ++ ops') s = h.execAll ops' (h.execAll ops s) :=
  List.foldl_append

/-- What succeeds in sequence succeeds step by step. -/
theorem bind_ok {ε α β : Type} {x : Except ε α} {f : α → Except ε β} {b : β}
    (h : x >>= f = .ok b) : ∃ a, x = .ok a ∧ f a = .ok b := by
  cases x with
  | error e => cases h
  | ok a => exact ⟨a, rfl, h⟩

/-- What a successful `mapM` returns comes from the elements of the list. -/
theorem mem_of_mapM_ok {ε α β : Type} {f : α → Except ε β} {as : List α} {bs : List β} {b : β}
    (h : as.mapM f = .ok bs) (hb : b ∈ bs) : ∃ a ∈ as, f a = .ok b := by
  induction as generalizing bs with
  | nil =>
      rw [List.mapM_nil] at h
      cases h
      exact absurd hb List.not_mem_nil
  | cons a as ih =>
      rw [List.mapM_cons] at h
      obtain ⟨b', hb', h⟩ := bind_ok h
      obtain ⟨bs', hbs', h⟩ := bind_ok h
      cases h
      rcases List.mem_cons.mp hb with rfl | hb
      · exact ⟨a, List.mem_cons_self, hb'⟩
      · obtain ⟨a', ha', hfa⟩ := ih hbs' hb
        exact ⟨a', List.mem_cons_of_mem _ ha', hfa⟩

/-- What fails in sequence fails at one of its steps. -/
theorem bind_error {ε α β : Type} {x : Except ε α} {f : α → Except ε β} {e : ε}
    (h : x >>= f = .error e) : x = .error e ∨ ∃ a, x = .ok a ∧ f a = .error e := by
  cases x with
  | error e' =>
      cases h
      exact Or.inl rfl
  | ok a => exact Or.inr ⟨a, rfl, h⟩

/-- What a `mapM` fails with comes from an element of the list. -/
theorem error_of_mapM {ε α β : Type} {f : α → Except ε β} {as : List α} {e : ε}
    (h : as.mapM f = .error e) : ∃ a ∈ as, f a = .error e := by
  induction as with
  | nil => cases h
  | cons a as ih =>
      rw [List.mapM_cons] at h
      rcases bind_error h with hfirst | ⟨b, -, h⟩
      · exact ⟨a, List.mem_cons_self, hfirst⟩
      · rcases bind_error h with hrest | ⟨bs, -, h⟩
        · obtain ⟨a', ha', hfa⟩ := ih hrest
          exact ⟨a', List.mem_cons_of_mem _ ha', hfa⟩
        · cases h

/-- A `mapM` whose steps succeed is a `map`. -/
theorem mapM_eq_map {ε α β : Type} {f : α → Except ε β} {g : α → β} {as : List α}
    (h : ∀ a ∈ as, f a = .ok (g a)) : as.mapM f = .ok (as.map g) := by
  induction as with
  | nil => rfl
  | cons a as ih =>
      rw [List.mapM_cons, h a List.mem_cons_self, ih fun a' ha => h a' (List.mem_cons_of_mem _ ha)]
      rfl

namespace Prog

variable {Op : Type} {Reply : Op → Type} {ε α β σ : Type}

/-- Sequential composition. -/
def bind : Prog Op Reply ε α → (α → Prog Op Reply ε β) → Prog Op Reply ε β
  | .ret a, f => f a
  | .throw e, _ => .throw e
  | .call op k, f => .call op fun reply => (k reply).bind f

instance : Monad (Prog Op Reply ε) where
  pure := .ret
  bind := bind

/-- Goes on after a program with its outcome: `try` and `catch`. -/
def handle {ε' : Type} :
    Prog Op Reply ε α → (Except ε α → Prog Op Reply ε' β) → Prog Op Reply ε' β
  | .ret a, f => f (.ok a)
  | .throw e, f => f (.error e)
  | .call op k, f => .call op fun reply => (k reply).handle f

/-- Goes on with a value, or throws. -/
def ofExcept : Except ε α → Prog Op Reply ε α
  | .ok a => .ret a
  | .error e => .throw e

/-- What returns at once goes on with its value. -/
@[simp] theorem ret_bind (a : α) (f : α → Prog Op Reply ε β) :
    (Prog.ret a : Prog Op Reply ε α) >>= f = f a := rfl

/-- A sequence performs the operations of its first program first. -/
@[simp] theorem call_bind (op : Op) (k : Reply op → Prog Op Reply ε α)
    (f : α → Prog Op Reply ε β) :
    Prog.call op k >>= f = .call op fun reply => k reply >>= f := rfl

/-- The program has returned or thrown. -/
def Ended : Prog Op Reply ε α → Prop
  | .call _ _ => False
  | _ => True

instance : DecidablePred (Ended : Prog Op Reply ε α → Prop)
  | .ret _ => isTrue trivial
  | .throw _ => isTrue trivial
  | .call _ _ => isFalse id

/-! ## Runs without interruption -/

/-- Performs a whole program on a store. -/
def run (h : Handler Op Reply σ) : Prog Op Reply ε α → σ → Except ε α × σ
  | .ret a, s => (.ok a, s)
  | .throw e, s => (.error e, s)
  | .call op k, s => (k (h.exec op s).1).run h (h.exec op s).2

/-- A program at an operation runs on from its reply. -/
@[simp] theorem run_call (h : Handler Op Reply σ) (op : Op)
    (k : Reply op → Prog Op Reply ε α) (s : σ) :
    (Prog.call op k).run h s = (k (h.exec op s).1).run h (h.exec op s).2 := rfl

/-- The operations a program performs when nothing interrupts it. -/
def trace (h : Handler Op Reply σ) : Prog Op Reply ε α → σ → List (Event Op σ)
  | .ret _, _ => []
  | .throw _, _ => []
  | .call op k, s => ⟨op, s⟩ :: (k (h.exec op s).1).trace h (h.exec op s).2

/-- A sequence runs its second program on what the first returns, unless it fails. -/
theorem run_bind (h : Handler Op Reply σ) (p : Prog Op Reply ε α) (f : α → Prog Op Reply ε β)
    (s : σ) : (p >>= f).run h s = match p.run h s with
      | (.ok a, s') => (f a).run h s'
      | (.error e, s') => (.error e, s') := by
  induction p generalizing s with
  | ret a => rfl
  | throw e => rfl
  | call op k ih => simp only [call_bind, run_call, ih]

/-- A handler runs on the result, whatever it is. -/
theorem run_handle {ε' : Type} (h : Handler Op Reply σ) (p : Prog Op Reply ε α)
    (f : Except ε α → Prog Op Reply ε' β) (s : σ) :
    (p.handle f).run h s = (f (p.run h s).1).run h (p.run h s).2 := by
  induction p generalizing s with
  | ret a => rfl
  | throw e => rfl
  | call op k ih => exact ih _ _

/-! ## Programs that are cut short -/

/-- Where a program is cut short: after some calls, at the next one, which is performed or not,
with an error in place of its reply. -/
structure Interruption (ε : Type) where
  calls : ℕ
  performed : Bool
  error : ε

/-- The program up to an interruption; one that has ended by then is not cut short. -/
def cutShort (performed : Bool) (error : ε) : ℕ → Prog Op Reply ε α → Prog Op Reply ε α
  | _, .ret a => .ret a
  | _, .throw e => .throw e
  | 0, .call op _ => if performed then .call op fun _ => .throw error else .throw error
  | calls + 1, .call op k => .call op fun reply => (k reply).cutShort performed error calls

/-- The program, cut short or not. -/
def interrupted (interruption : Option (Interruption ε)) (p : Prog Op Reply ε α) :
    Prog Op Reply ε α :=
  match interruption with
  | none => p
  | some i => p.cutShort i.performed i.error i.calls

/-! ## Programs with some operations behind them -/

/-- Performing these operations, each on the store it found, leads from one program to another. -/
inductive Follows (h : Handler Op Reply σ) :
    Prog Op Reply ε α → List (Event Op σ) → Prog Op Reply ε α → Prop
  | refl (p : Prog Op Reply ε α) : Follows h p [] p
  | call (op : Op) (k : Reply op → Prog Op Reply ε α) (before : σ) (past : List (Event Op σ))
      (rest : Prog Op Reply ε α) (htail : Follows h (k (h.exec op before).1) past rest) :
      Follows h (.call op k) (⟨op, before⟩ :: past) rest

/-- A program that has followed its code to an operation follows it on. -/
theorem Follows.concat {h : Handler Op Reply σ} {p : Prog Op Reply ε α} {past : List (Event Op σ)}
    {op : Op} {k : Reply op → Prog Op Reply ε α} {rest : Prog Op Reply ε α}
    (hp : Follows h p past rest) (hrest : rest = .call op k) (before : σ) :
    Follows h p (past ++ [⟨op, before⟩]) (k (h.exec op before).1) := by
  induction hp with
  | refl p => subst hrest; exact .call op k before [] _ (.refl _)
  | call op' k' before' past rest _ ih => exact .call op' k' before' _ _ (ih hrest)

/-- **The same replies make the same operations**: a program that has ended performs them all
again from any store that gives it the same replies. -/
theorem Follows.run_eq {h : Handler Op Reply σ} {p : Prog Op Reply ε α} {past : List (Event Op σ)}
    {rest : Prog Op Reply ε α} (hp : Follows h p past rest) (hended : rest.Ended) (s : σ)
    (hreply : ∀ older ev newer, past = older ++ ev :: newer →
      (h.exec ev.op (h.execAll (older.map (·.op)) s)).1 = (h.exec ev.op ev.before).1) :
    (p.run h s).2 = h.execAll (past.map (·.op)) s := by
  induction hp generalizing s with
  | refl p =>
      cases p with
      | call op k => exact hended.elim
      | ret a => rfl
      | throw e => rfl
  | call op k before past rest _ ih =>
      have hfirst := hreply [] ⟨op, before⟩ past rfl
      rw [run_call, show (h.exec op s).1 = (h.exec op before).1 from hfirst]
      refine ih hended _ fun older ev newer heq => ?_
      exact hreply (⟨op, before⟩ :: older) ev newer (by rw [heq]; rfl)

/-! ## The logic of a program's own past -/

/-- Whatever the store at each operation: the operations that `p` performs after `past` meet
`J`, and its end meets `Q`. -/
def Emits (h : Handler Op Reply σ) (J : List (Event Op σ) → Op → Prop)
    (Q : List (Event Op σ) → Except ε α → Prop) : Prog Op Reply ε α → List (Event Op σ) → Prop
  | .ret a, past => Q past (.ok a)
  | .throw e, past => Q past (.error e)
  | .call op k, past => J past op ∧
      ∀ before, (k (h.exec op before).1).Emits h J Q (past ++ [⟨op, before⟩])

section Emits

variable {h : Handler Op Reply σ} {J J' : List (Event Op σ) → Op → Prop}
  {Q Q' : List (Event Op σ) → Except ε α → Prop} {past : List (Event Op σ)}

/-- What a sequence emits, in two parts. -/
theorem Emits.bind {p : Prog Op Reply ε α} {f : α → Prog Op Reply ε β}
    {R : List (Event Op σ) → Except ε β → Prop}
    (hp : p.Emits h J (fun past result => match result with
      | .ok a => (f a).Emits h J R past
      | .error e => R past (.error e)) past) :
    (p >>= f).Emits h J R past := by
  induction p generalizing past with
  | ret a => exact hp
  | throw e => exact hp
  | call op k ih => exact ⟨hp.1, fun before => ih _ (hp.2 before)⟩

/-- What a program with a handler emits, in two parts. -/
theorem Emits.handle {ε' : Type} {p : Prog Op Reply ε α}
    {f : Except ε α → Prog Op Reply ε' β} {R : List (Event Op σ) → Except ε' β → Prop}
    (hp : p.Emits h J (fun past result => (f result).Emits h J R past) past) :
    (p.handle f).Emits h J R past := by
  induction p generalizing past with
  | ret a => exact hp
  | throw e => exact hp
  | call op k ih => exact ⟨hp.1, fun before => ih _ (hp.2 before)⟩

/-- A program meets weaker rules too. -/
theorem Emits.mono {p : Prog Op Reply ε α} (hp : p.Emits h J Q past)
    (hJ : ∀ past op, J past op → J' past op) (hQ : ∀ past result, Q past result → Q' past result) :
    p.Emits h J' Q' past := by
  induction p generalizing past with
  | ret a => exact hQ _ _ hp
  | throw e => exact hQ _ _ hp
  | call op k ih => exact ⟨hJ _ _ hp.1, fun before => ih _ (hp.2 before)⟩

/-- A program with some operations behind it keeps to its logic. -/
theorem Emits.follows {p rest : Prog Op Reply ε α} {newer : List (Event Op σ)}
    (hp : p.Emits h J Q past) (hfollows : Follows h p newer rest) :
    rest.Emits h J Q (past ++ newer) := by
  induction hfollows generalizing past with
  | refl p => rw [List.append_nil]; exact hp
  | call op k before newer rest _ ih => simpa using ih (hp.2 before)

/-- **What every operation keeps** holds at each operation and at the end. -/
theorem Emits.carry {I : List (Event Op σ) → Prop} {p : Prog Op Reply ε α}
    (hp : p.Emits h J Q past) (h0 : I past)
    (hstep : ∀ past op before, I past → J past op → I (past ++ [⟨op, before⟩])) :
    p.Emits h (fun past op => J past op ∧ I past) (fun past result => Q past result ∧ I past)
      past := by
  induction p generalizing past with
  | ret a => exact ⟨hp, h0⟩
  | throw e => exact ⟨hp, h0⟩
  | call op k ih =>
      exact ⟨⟨hp.1, h0⟩, fun before => ih _ (hp.2 before) (hstep past op before h0 hp.1)⟩

/-- A program that is cut short has kept to its logic so far. -/
theorem Emits.cutShort {p : Prog Op Reply ε α} {performed : Bool} {error : ε} {calls : ℕ}
    (hp : p.Emits h J Q past) (hcut : ∀ past, Q past (.error error)) :
    (p.cutShort performed error calls).Emits h J Q past := by
  induction p generalizing past calls with
  | ret a => cases calls <;> exact hp
  | throw e => cases calls <;> exact hp
  | call op k ih =>
      cases calls with
      | zero =>
          unfold Prog.cutShort
          cases performed with
          | true => exact ⟨hp.1, fun before => hcut _⟩
          | false => exact hcut past
      | succ calls => exact ⟨hp.1, fun before => ih _ (hp.2 before)⟩

/-- A program that is cut off meets its rules as far as it goes. -/
theorem Emits.interrupted {p : Prog Op Reply ε α} {interruption : Option (Interruption ε)}
    (hp : p.Emits h J Q past) (hcut : ∀ error past, Q past (.error error)) :
    (p.interrupted interruption).Emits h J Q past := by
  cases interruption with
  | none => exact hp
  | some i => exact hp.cutShort (hcut i.error)

/-- A program that runs without interruption keeps to its logic. -/
theorem Emits.trace {p : Prog Op Reply ε α} (hp : p.Emits h J Q past) (s : σ) :
    Q (past ++ p.trace h s) (p.run h s).1 ∧
      ∀ older ev newer, p.trace h s = older ++ ev :: newer → J (past ++ older) ev.op := by
  induction p generalizing past s with
  | ret a => exact ⟨(List.append_nil past).symm ▸ hp, by simp [Prog.trace]⟩
  | throw e => exact ⟨(List.append_nil past).symm ▸ hp, by simp [Prog.trace]⟩
  | call op k ih =>
      obtain ⟨hend, hevents⟩ := ih _ (hp.2 s) (h.exec op s).2
      refine ⟨by simpa [Prog.trace] using hend, fun older ev newer heq => ?_⟩
      cases older with
      | nil =>
          obtain ⟨rfl, -⟩ := List.cons.inj heq
          simpa using hp.1
      | cons e older =>
          obtain ⟨rfl, hrest⟩ := List.cons.inj heq
          simpa using hevents older ev newer hrest

end Emits

end Prog

end CloudOps.Computation
