import CloudOps.Computation.Program

/-!
# Programs that keep to a part of the store

A handler `Isolates` a view of the store when every operation in scope replies from the view,
writes to the view, and leaves to the others what is theirs. Which operations are in scope may
depend on what the others have stored: an operation that addresses a document of theirs is not.

A program is `Within` its scope if all its operations are, whatever the view holds. Then the
view decides what it returns: `Within.noninterference`.
-/

set_option autoImplicit false

namespace CloudOps.Computation

variable {Op : Type} {Reply : Op → Type} {σ ρ ε α β : Type}

/-- An operation in scope has its reply from the view, and its effect on the view alone. -/
structure Handler.Isolates (h : Handler Op Reply σ) (view : σ → σ) (others : σ → ρ)
    (InScope : ρ → Op → Prop) : Prop where
  exec_view : ∀ op s, InScope (others s) op →
    h.exec op (view s) = ((h.exec op s).1, view (h.exec op s).2)
  exec_others : ∀ op s, InScope (others s) op → others (h.exec op s).2 = others s

namespace Prog

/-- Every operation of the program is in scope, whatever it reads from stores in which the
others have stored `o`. -/
def Within (h : Handler Op Reply σ) (others : σ → ρ) (InScope : ρ → Op → Prop) (o : ρ) :
    Prog Op Reply ε α → Prop
  | .ret _ => True
  | .throw _ => True
  | .call op k => InScope o op ∧
      ∀ s, others s = o → (k (h.exec op s).1).Within h others InScope o

section Within

variable {h : Handler Op Reply σ} {view : σ → σ} {others : σ → ρ} {InScope : ρ → Op → Prop}
  {o : ρ}

/-- Programs that stay within their scope compose. -/
theorem Within.bind {p : Prog Op Reply ε α} {f : α → Prog Op Reply ε β}
    (hp : p.Within h others InScope o) (hf : ∀ a, (f a).Within h others InScope o) :
    (p >>= f).Within h others InScope o := by
  induction p with
  | ret a => exact hf a
  | throw e => exact hp
  | call op k ih => exact ⟨hp.1, fun s hs => ih _ (hp.2 s hs)⟩

/-- A handler that stays within the scope keeps a program there. -/
theorem Within.handle {ε' : Type} {p : Prog Op Reply ε α} {f : Except ε α → Prog Op Reply ε' β}
    (hp : p.Within h others InScope o) (hf : ∀ result, (f result).Within h others InScope o) :
    (p.handle f).Within h others InScope o := by
  induction p with
  | ret a => exact hf (.ok a)
  | throw e => exact hf (.error e)
  | call op k ih => exact ⟨hp.1, fun s hs => ih _ (hp.2 s hs)⟩

/-- A check performs nothing. -/
theorem within_ofExcept {x : Except ε α} :
    (ofExcept x : Prog Op Reply ε α).Within h others InScope o := by
  cases x with
  | ok a => exact True.intro
  | error e => exact True.intro

/-- An operation, and what follows for each reply it may get. -/
theorem within_call {op : Op} {k : Reply op → Prog Op Reply ε α} (hop : InScope o op)
    (hrest : ∀ s reply, others s = o → (h.exec op s).1 = reply →
      (k reply).Within h others InScope o) : (call op k).Within h others InScope o :=
  ⟨hop, fun s hs => hrest s _ hs rfl⟩

/-- **A program within its scope runs on the view** as it runs on the whole store, and leaves to
the others what is theirs. -/
theorem Within.run {p : Prog Op Reply ε α} {s : σ} (hI : h.Isolates view others InScope)
    (hp : p.Within h others InScope (others s)) :
    p.run h (view s) = ((p.run h s).1, view (p.run h s).2) ∧
      others (p.run h s).2 = others s := by
  induction p generalizing s with
  | ret a => exact ⟨rfl, rfl⟩
  | throw e => exact ⟨rfl, rfl⟩
  | call op k ih =>
      have hview := hI.exec_view op s hp.1
      have hothers := hI.exec_others op s hp.1
      have hrest := hp.2 s rfl
      rw [← hothers] at hrest
      obtain ⟨hrun, hleft⟩ := ih _ hrest
      rw [run_call, hview]
      exact ⟨hrun, hleft.trans hothers⟩

/-- **Noninterference**: from two stores with one view, a program within its scope returns the
same and leaves the same view, and neither run changes what the others have stored. -/
theorem Within.noninterference {p : Prog Op Reply ε α} {s s' : σ}
    (hI : h.Isolates view others InScope) (hp : p.Within h others InScope (others s))
    (hp' : p.Within h others InScope (others s')) (hview : view s = view s') :
    (p.run h s).1 = (p.run h s').1 ∧ view (p.run h s).2 = view (p.run h s').2 ∧
      others (p.run h s).2 = others s ∧ others (p.run h s').2 = others s' := by
  obtain ⟨hrun, hothers⟩ := hp.run hI
  obtain ⟨hrun', hothers'⟩ := hp'.run hI
  rw [hview, hrun'] at hrun
  obtain ⟨hreply, hsame⟩ := Prod.mk.inj hrun
  exact ⟨hreply.symm, hsame.symm, hothers, hothers'⟩

end Within

end Prog

end CloudOps.Computation
