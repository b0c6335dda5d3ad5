import CloudOps.Computation.Turns

/-!
# Runs in which conflicts come in turn

A `Footprint` says which cells of the store an operation reads and writes. Two operations
conflict if one of them writes what the other touches. If all conflicts of a run come in the
order of a list of the programs, then running the programs one after another, in the order of
the list, makes the same of every cell: `serializable`.

The cells need to determine replies and effects only in the stores of an invariant.
-/

set_option autoImplicit false

namespace CloudOps.Computation

variable {Op : Type} {Reply : Op → Type} {σ ε α C : Type} {V : C → Type}

/-- Which cells of a store the operations read and write. -/
structure Footprint (Op σ C : Type) (V : C → Type) where
  cell : (c : C) → σ → V c
  reads : Op → C → Prop
  writes : Op → C → Prop

/-- What a program has performed, as a part of the history. -/
theorem filter_eq_map_own (q : ℕ) (history : List (ℕ × Event Op σ)) :
    history.filter (·.1 = q) = (own q history).map (q, ·) := by
  rw [own, List.map_map]
  refine (List.map_id _).symm.trans (List.map_congr_left fun e he => ?_)
  obtain rfl : e.1 = q := by simpa using (List.mem_filter.mp he).2
  rfl

/-- How many operations of a program are of a kind. -/
theorem countP_filter_own (q : ℕ) (f : ℕ × Event Op σ → Bool) (history : List (ℕ × Event Op σ)) :
    (history.filter f).countP (·.1 = q) = (own q history).countP fun ev => f (q, ev) := by
  induction history with
  | nil => rfl
  | cons e history ih =>
      obtain ⟨q', ev⟩ := e
      by_cases hq : q' = q
      · subst hq
        rw [own_cons_self]
        by_cases hf : f (q', ev) = true <;> simp [hf, ih]
      · rw [own_cons_ne hq]
        by_cases hf : f (q', ev) = true <;> simp [hf, hq, ih]

namespace Footprint

variable (F : Footprint Op σ C V)

def Touches (op : Op) (c : C) : Prop := F.reads op c ∨ F.writes op c

/-- One of the operations writes what the other touches. -/
def Conflict (op op' : Op) : Prop :=
  ∃ c, (F.writes op c ∧ F.Touches op' c) ∨ (F.Touches op c ∧ F.writes op' c)

/-- The cells an operation touches determine its reply and what it writes, and it leaves the
other cells alone. -/
structure Lawful (h : Handler Op Reply σ) (I : σ → Prop) (Allowed : Op → Prop) : Prop where
  keeps : ∀ op s, Allowed op → I s → I (h.exec op s).2
  reply : ∀ op s t, Allowed op → I s → I t → (∀ c, F.Touches op c → F.cell c s = F.cell c t) →
    (h.exec op s).1 = (h.exec op t).1
  frame : ∀ op s c, Allowed op → I s → ¬ F.writes op c → F.cell c (h.exec op s).2 = F.cell c s
  effect : ∀ op s t c, Allowed op → I s → I t → F.writes op c →
    (∀ c, F.Touches op c → F.cell c s = F.cell c t) →
      F.cell c (h.exec op s).2 = F.cell c (h.exec op t).2

/-! ## The value of a cell after a history -/

open Classical in
/-- What the last write of a history has left in a cell, each write as it was performed. -/
noncomputable def after (h : Handler Op Reply σ) (c : C) (v : V c)
    (history : List (ℕ × Event Op σ)) : V c :=
  history.foldl
    (fun v e => if F.writes e.2.op c then F.cell c (h.exec e.2.op e.2.before).2 else v) v

section After

variable {F} {h : Handler Op Reply σ} {I : σ → Prop} {Allowed : Op → Prop} {c : C}
  {history : List (ℕ × Event Op σ)} {s t : σ}

/-- After a write a cell has the value written. -/
theorem after_concat (v : V c) (e : ℕ × Event Op σ) (hwrites : F.writes e.2.op c) :
    F.after h c v (history ++ [e]) = F.cell c (h.exec e.2.op e.2.before).2 := by
  rw [after, List.foldl_append]
  exact if_pos hwrites

/-- After an operation that does not write it a cell has its value. -/
theorem after_concat_of_not (v : V c) (e : ℕ × Event Op σ) (hwrites : ¬ F.writes e.2.op c) :
    F.after h c v (history ++ [e]) = F.after h c v history := by
  rw [after, List.foldl_append]
  exact if_neg hwrites

/-- Only the writes of the cell count. -/
theorem after_filter (v : V c) {f : ℕ × Event Op σ → Bool}
    (hf : ∀ e ∈ history, F.writes e.2.op c → f e = true) :
    F.after h c v (history.filter f) = F.after h c v history := by
  induction history using List.reverseRecOn with
  | nil => rfl
  | append_singleton history e ih =>
      have hrest := ih fun e' he' => hf e' (List.mem_append_left _ he')
      rw [List.filter_append]
      by_cases hwrites : F.writes e.2.op c
      · have hfe := hf e (List.mem_append_right _ (List.mem_singleton_self e)) hwrites
        rw [List.filter_cons_of_pos hfe, List.filter_nil, after_concat v e hwrites,
          after_concat v e hwrites]
      · rw [after_concat_of_not v e hwrites]
        by_cases hfe : f e = true
        · rw [List.filter_cons_of_pos hfe, List.filter_nil, after_concat_of_not v e hwrites, hrest]
        · rw [List.filter_cons_of_neg hfe, List.filter_nil, List.append_nil, hrest]

/-- Along a path every cell has the value its history has left in it. -/
theorem cell_of_chained (hF : F.Lawful h I Allowed)
    (hallowed : ∀ e ∈ history, Allowed e.2.op) (hI : I s) (hc : Pool.Chained h s history t) :
    I t ∧ ∀ c, F.cell c t = F.after h c (F.cell c s) history := by
  induction history using List.reverseRecOn generalizing t with
  | nil =>
      obtain rfl : t = s := hc
      exact ⟨hI, fun c => rfl⟩
  | append_singleton history e ih =>
      obtain ⟨hpath, hlast⟩ := Pool.Chained.split hc
      obtain rfl : t = (h.exec e.2.op e.2.before).2 := hlast
      obtain ⟨hbefore, hcell⟩ := ih (fun e' he' => hallowed e' (List.mem_append_left _ he')) hpath
      have hop := hallowed e (List.mem_append_right _ (List.mem_singleton_self e))
      refine ⟨hF.keeps _ _ hop hbefore, fun c => ?_⟩
      by_cases hwrites : F.writes e.2.op c
      · exact (after_concat _ e hwrites).symm
      · rw [hF.frame _ _ c hop hbefore hwrites, hcell c]
        exact (after_concat_of_not _ e hwrites).symm

/-- The same where the operations are performed again, each with what it touches as it was the
first time. -/
theorem cell_of_replay (hF : F.Lawful h I Allowed) (hallowed : ∀ e ∈ history, Allowed e.2.op)
    (hbefore : ∀ e ∈ history, I e.2.before) (hI : I s)
    (hsame : ∀ older e newer, history = older ++ e :: newer → ∀ c, F.Touches e.2.op c →
      F.cell c (h.execAll (older.map (·.2.op)) s) = F.cell c e.2.before) :
    I (h.execAll (history.map (·.2.op)) s) ∧
      ∀ c, F.cell c (h.execAll (history.map (·.2.op)) s) = F.after h c (F.cell c s) history := by
  induction history using List.reverseRecOn with
  | nil => exact ⟨hI, fun c => rfl⟩
  | append_singleton history e ih =>
      have hop := hallowed e (List.mem_append_right _ (List.mem_singleton_self e))
      have hfound := hbefore e (List.mem_append_right _ (List.mem_singleton_self e))
      obtain ⟨hreplayed, hcell⟩ := ih (fun e' he' => hallowed e' (List.mem_append_left _ he'))
        (fun e' he' => hbefore e' (List.mem_append_left _ he'))
        fun older e' newer heq => hsame older e' (newer ++ [e]) (by rw [heq]; simp)
      have htouched := hsame history e [] rfl
      rw [List.map_append, Handler.execAll_append]
      refine ⟨hF.keeps _ _ hop hreplayed, fun c => ?_⟩
      by_cases hwrites : F.writes e.2.op c
      · exact (hF.effect _ _ _ c hop hreplayed hfound hwrites htouched).trans
          (after_concat _ e hwrites).symm
      · exact ((hF.frame _ _ c hop hreplayed hwrites).trans (hcell c)).trans
          (after_concat_of_not _ e hwrites).symm

end After

/-! ## A history performed again by turns -/

/-- The conflicts of a history come in the order of a list of its programs. -/
structure InTurn (order : List ℕ) (history : List (ℕ × Event Op σ)) : Prop where
  mem : ∀ e ∈ history, e.1 ∈ order
  conflicts : history.Pairwise fun a b =>
    F.Conflict a.2.op b.2.op → order.idxOf a.1 ≤ order.idxOf b.1

section Replay

variable {F} {h : Handler Op Reply σ} {I : σ → Prop} {Allowed : Op → Prop}
  {history older newer : List (ℕ × Event Op σ)} {s t : σ} {order : List ℕ}
  {e : ℕ × Event Op σ}

/-- The invariant holds wherever the path goes. -/
theorem before_of_chained (hF : F.Lawful h I Allowed) (hallowed : ∀ e ∈ history, Allowed e.2.op)
    (hI : I s) (hc : Pool.Chained h s history t) : ∀ e ∈ history, I e.2.before := by
  intro e he
  obtain ⟨older, newer, rfl⟩ := List.append_of_mem he
  obtain ⟨hpath, -⟩ := Pool.Chained.split hc
  exact (cell_of_chained hF (fun e' he' => hallowed e' (List.mem_append_left _ he')) hI hpath).1

open Classical in
/-- What one program has to do with a cell, and what the others write of it. -/
noncomputable def about (q : ℕ) (c : C) (e : ℕ × Event Op σ) : Bool :=
  decide (F.writes e.2.op c ∨ (e.1 = q ∧ F.Touches e.2.op c))

/-- **Between the accesses of one program to a cell and the writes of the others there is no
choice**: they come by turns. -/
theorem filter_about (hnodup : order.Nodup) (hturn : F.InTurn order history) (q : ℕ) (c : C) :
    history.filter (F.about q c) = (byTurns order history).filter (F.about q c) := by
  rw [← byTurns_filter]
  refine eq_byTurns (fun e he => hturn.mem e (List.mem_of_mem_filter he)) hnodup ?_
  refine List.Pairwise.imp_of_mem ?_ (hturn.conflicts.filter _)
  intro a b ha hb hab
  have haccess : ∀ e ∈ history.filter (F.about q c),
      F.writes e.2.op c ∨ (e.1 = q ∧ F.Touches e.2.op c) := fun e he => by
    simpa [about] using (List.mem_filter.mp he).2
  by_cases hsame : a.1 = b.1
  · exact le_of_eq (congrArg order.idxOf hsame)
  · apply hab
    rcases haccess a ha with hwrites | ⟨haq, htouches⟩
    · exact ⟨c, Or.inl ⟨hwrites, (haccess b hb).elim Or.inr (·.2)⟩⟩
    · have hwrites := (haccess b hb).resolve_right fun hbq => hsame (haq.trans hbq.1.symm)
      exact ⟨c, Or.inr ⟨htouches, hwrites⟩⟩

/-- **Performed again by turns, every operation finds what it touches as it was.** -/
theorem cell_by_turns (hF : F.Lawful h I Allowed) (hallowed : ∀ e ∈ history, Allowed e.2.op)
    (hI : I s) (hc : Pool.Chained h s history t) (hnodup : order.Nodup)
    (hturn : F.InTurn order history) (hsplit : byTurns order history = older ++ e :: newer) :
    ∀ c, F.Touches e.2.op c →
      F.cell c (h.execAll (older.map (·.2.op)) s) = F.cell c e.2.before := by
  induction hlength : older.length using Nat.strong_induction_on generalizing older e newer with
  | _ n ih =>
  intro c htouches
  have hmem : ∀ e' ∈ older ++ e :: newer, e' ∈ history := fun e' he' =>
    (mem_byTurns.mp (hsplit ▸ he')).2
  have hfound := before_of_chained hF hallowed hI hc
  -- what the operations before it by turns have left of the cell
  have hreplayed : F.cell c (h.execAll (older.map (·.2.op)) s) =
      F.after h c (F.cell c s) older := by
    refine (cell_of_replay hF (fun e' he' => hallowed e' (hmem e' (by simp [he'])))
      (fun e' he' => hfound e' (hmem e' (by simp [he']))) hI ?_).2 c
    intro older' e' newer' heq
    have hshorter : older'.length < n := by simp [← hlength, heq]
    exact ih _ hshorter (by rw [hsplit, heq, List.append_assoc, List.cons_append]) rfl
  -- where it stands in the history, and what the operations before it there have left
  have hown : own e.1 history = own e.1 older ++ e.2 :: own e.1 newer := by
    have hq : e.1 ∈ order := hturn.mem e (hmem e (by simp))
    rw [← own_append_cons_self, ← hsplit, own, own, filter_byTurns hq hnodup]
  obtain ⟨first, last, rfl, hfirst, -⟩ := own_split hown
  obtain ⟨hpath, -⟩ := Pool.Chained.split hc
  have hreached := (cell_of_chained hF (fun e' he' => hallowed e' (by simp [he'])) hI hpath).2 c
  -- both are the same accesses of the cell
  have hsame : first.filter (F.about e.1 c) = older.filter (F.about e.1 c) := by
    have hboth := filter_about hnodup hturn e.1 c
    have hkept : F.about e.1 c e = true := by simp [about, htouches]
    rw [hsplit, List.filter_append, List.filter_append, List.filter_cons_of_pos hkept,
      List.filter_cons_of_pos hkept] at hboth
    refine eq_of_append_cons hboth ?_
    rw [countP_filter_own, countP_filter_own, hfirst]
  have hwrites : ∀ (v : V c) (part : List (ℕ × Event Op σ)),
      F.after h c v (part.filter (F.about e.1 c)) = F.after h c v part :=
    fun v part => after_filter v fun e' _ hw => by simp [about, hw]
  rw [hreplayed, hreached, ← hwrites _ older, ← hsame, hwrites]

end Replay

/-! ## Runs whose conflicts come in turn -/

/-- The operation an event performs conflicts with none that a later program of the list has
performed before. -/
def ConflictsInTurn (order : List ℕ) (s : Pool Op Reply σ ε α) (e : PoolEvent) : Prop :=
  ∀ q op, s.Performs e q op → q ∈ order ∧
    ∀ e' ∈ s.history, F.Conflict e'.2.op op → order.idxOf e'.1 ≤ order.idxOf q

section Runs

variable {F} {h : Handler Op Reply σ} {faults : Faults Op ε} {I : σ → Prop} {Allowed : Op → Prop}
  {G : Pool Op Reply σ ε α → PoolEvent → Prop} {store : σ} {procs : ℕ → Prog Op Reply ε α}
  {s : Pool Op Reply σ ε α} {order : List ℕ}

/-- **A run whose conflicts come in turn has a history whose conflicts do.** -/
theorem inTurn_of_reaches (hs : (Pool.machine h faults).Reaches G (Pool.initial store procs) s)
    (hG : ∀ t e, G t e → F.ConflictsInTurn order t e) : F.InTurn order s.history := by
  refine Pool.invariant_of_performs (I := fun _ history => F.InTurn order history) hs
    ⟨by simp [Pool.initial], List.Pairwise.nil⟩ ?_
  intro t e q op _ hGe hp ih
  obtain ⟨hq, hconflicts⟩ := hG t e hGe q op hp
  refine ⟨fun e' he' => ?_, ?_⟩
  · rcases List.mem_append.mp he' with hold | hnew
    · exact ih.mem e' hold
    · rw [List.mem_singleton.mp hnew]
      exact hq
  · refine List.pairwise_append.mpr ⟨ih.conflicts, List.pairwise_singleton _ _, ?_⟩
    intro a ha b hb
    rw [List.mem_singleton.mp hb]
    exact hconflicts a ha

/-- Allowed operations keep the invariant. -/
theorem keeps_execAll (hF : F.Lawful h I Allowed) {ops : List Op}
    (hallowed : ∀ op ∈ ops, Allowed op) {s : σ} (hI : I s) : I (h.execAll ops s) := by
  induction ops generalizing s with
  | nil => exact hI
  | cons op ops ih =>
      exact ih (fun op' h' => hallowed op' (List.mem_cons_of_mem _ h'))
        (hF.keeps op s (hallowed op List.mem_cons_self) hI)

/-- The turn of one program: it performs again what it performed in the history. -/
theorem run_turn (hF : F.Lawful h I Allowed)
    (hs : (Pool.machine h faults).Reaches G (Pool.initial store procs) s)
    (hG : ∀ t e, G t e → ∃ q, e = .run q) (hallowed : ∀ e ∈ s.history, Allowed e.2.op)
    (hI : I store) (hnodup : order.Nodup) (hturn : F.InTurn order s.history) {q : ℕ}
    (hended : (s.procs q).Ended) {done rest : List ℕ} (horder : order = done ++ q :: rest) :
    ((procs q).run h (h.execAll ((byTurns done s.history).map (·.2.op)) store)).2 =
      h.execAll ((byTurns (done ++ [q]) s.history).map (·.2.op)) store := by
  have hchained := Pool.chained_of_reaches hs
  have hperformed : ((own q s.history).map (·.op)) =
      ((byTurns [q] s.history).map (·.2.op)) := by
    rw [byTurns_cons, filter_eq_map_own]
    simp [byTurns]
  rw [byTurns_append, List.map_append, Handler.execAll_append, ← hperformed]
  refine Prog.Follows.run_eq (Pool.follows_of_reaches hs hG q) hended _ ?_
  intro older ev newer hown
  have hsplit : byTurns order s.history = (byTurns done s.history ++ older.map (q, ·)) ++
      (q, ev) :: (newer.map (q, ·) ++ byTurns rest s.history) := by
    rw [horder, byTurns_append, byTurns_cons, filter_eq_map_own, hown]
    simp
  have hmem : ∀ e ∈ byTurns order s.history, Allowed e.2.op := fun e he =>
    hallowed e (mem_byTurns.mp he).2
  have hops : h.execAll (older.map (·.op))
        (h.execAll ((byTurns done s.history).map (·.2.op)) store) =
      h.execAll ((byTurns done s.history ++ older.map (q, ·)).map (·.2.op)) store := by
    rw [List.map_append, Handler.execAll_append, List.map_map]
    rfl
  have hev : (q, ev) ∈ s.history := (mem_byTurns.mp (by rw [hsplit]; simp)).2
  rw [hops]
  refine hF.reply ev.op _ _ (hallowed _ hev) (keeps_execAll hF ?_ hI)
    (before_of_chained hF hallowed hI hchained _ hev)
    (cell_by_turns hF hallowed hI hchained hnodup hturn hsplit)
  intro op hop
  obtain ⟨e, he, rfl⟩ := List.mem_map.mp hop
  exact hmem e (by rw [hsplit]; exact List.mem_append_left _ he)

open Classical in
/-- The programs of a list that have performed something. -/
noncomputable def begun (order : List ℕ) (history : List (ℕ × Event Op σ)) : List ℕ :=
  order.filter fun q => own q history ≠ []

/-- All turns, one after another. -/
theorem run_turns (hF : F.Lawful h I Allowed)
    (hs : (Pool.machine h faults).Reaches G (Pool.initial store procs) s)
    (hG : ∀ t e, G t e → ∃ q, e = .run q) (hallowed : ∀ e ∈ s.history, Allowed e.2.op)
    (hI : I store) (hnodup : order.Nodup) (hturn : F.InTurn order s.history)
    (hended : ∀ q, own q s.history ≠ [] → (s.procs q).Ended) {done rest : List ℕ}
    (horder : order = done ++ rest) :
    runInTurn h procs (begun rest s.history)
        (h.execAll ((byTurns done s.history).map (·.2.op)) store) =
      h.execAll ((byTurns order s.history).map (·.2.op)) store := by
  induction rest generalizing done with
  | nil =>
      rw [horder, List.append_nil]
      rfl
  | cons q rest ih =>
      have hnext := ih (List.append_cons done q rest ▸ horder)
      by_cases hq : own q s.history = []
      · have hnothing : byTurns (done ++ [q]) s.history = byTurns done s.history := by
          rw [byTurns_append, byTurns_cons, filter_eq_map_own, hq]
          simp [byTurns]
        rw [begun, List.filter_cons_of_neg (by simpa using hq), ← hnext, hnothing]
        rfl
      · rw [begun, List.filter_cons_of_pos (by simpa using hq), ← hnext]
        rw [runInTurn, List.foldl_cons,
          run_turn hF hs hG hallowed hI hnodup hturn (hended q hq) horder]
        rfl

/-- **Conflicts in turn, same store**: every cell is what the programs make of it one after
another. -/
theorem serializable (hF : F.Lawful h I Allowed)
    (hs : (Pool.machine h faults).Reaches G (Pool.initial store procs) s)
    (hG : ∀ t e, G t e → ∃ q, e = .run q) (hallowed : ∀ e ∈ s.history, Allowed e.2.op)
    (hI : I store) (hnodup : order.Nodup) (hturn : F.InTurn order s.history)
    (hended : ∀ q, own q s.history ≠ [] → (s.procs q).Ended) (c : C) :
    F.cell c s.store = F.cell c (runInTurn h procs (begun order s.history) store) := by
  have hchained := Pool.chained_of_reaches hs
  have hserial : runInTurn h procs (begun order s.history) store =
      h.execAll ((byTurns order s.history).map (·.2.op)) store :=
    run_turns hF hs hG hallowed hI hnodup hturn hended (List.nil_append order).symm
  have hmem : ∀ e ∈ byTurns order s.history, e ∈ s.history := fun e he => (mem_byTurns.mp he).2
  have hreplayed := (cell_of_replay hF (fun e he => hallowed e (hmem e he))
    (fun e he => before_of_chained hF hallowed hI hchained e (hmem e he)) hI
    fun older e newer hsplit => cell_by_turns hF hallowed hI hchained hnodup hturn hsplit).2 c
  have hreached := (cell_of_chained hF hallowed hI hchained).2 c
  -- no program touches the cell but by its writes, so any will do
  have hwrites : ∀ (v : V c) (part : List (ℕ × Event Op σ)),
      F.after h c v (part.filter (F.about 0 c)) = F.after h c v part :=
    fun v part => after_filter v fun e _ hw => by simp [about, hw]
  rw [hserial]
  refine hreached.trans (Eq.trans ?_ hreplayed.symm)
  rw [← hwrites _ s.history, filter_about hnodup hturn 0 c, hwrites]

end Runs

end Footprint

end CloudOps.Computation
