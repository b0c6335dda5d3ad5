import Mathlib.Tactic
import Mathlib.Data.List.Nodup

/-!
# Pages of a sorted list

A list is shown page by page, each page cut out of an order of its own: any order that is sorted
by a key, where elements with equal keys may stand either way. `shown_perm_iff` says when the
pages together show every element once: the elements of one key never lie on both sides of a page
boundary.

What all orders have in common is where a downward closed condition ends (`IsOrder.take_countP`).
Where no tie crosses a boundary, the boundary is such an end, and every order has the same elements
before it.
-/

set_option autoImplicit false

namespace CloudOps.Computation

variable {α β κ : Type} [LinearOrder κ] {key : α → κ} {all order order' : List α} {limit : ℕ}

/-- The list in an order sorted by the key. -/
structure IsOrder (key : α → κ) (all order : List α) : Prop where
  perm : order.Perm all
  sorted : (order.map key).Pairwise (· ≤ ·)

/-- How many elements come before those of key `c`, in any order. -/
def before (key : α → κ) (all : List α) (c : κ) : ℕ := all.countP fun a => key a < c

/-- How many elements there are up to those of key `c`, in any order. -/
def upTo (key : α → κ) (all : List α) (c : κ) : ℕ := all.countP fun a => key a ≤ c

/-- Elements of one key are on both sides of a page boundary. -/
def TieAcross (key : α → κ) (all : List α) (limit : ℕ) : Prop :=
  ∃ a ∈ all, ∃ k, before key all (key a) < k * limit ∧ k * limit < upTo key all (key a)

/-- Page `n`, counted from zero. -/
def block (limit n : ℕ) (order : List α) : List α := (order.drop (n * limit)).take limit

/-- The number of pages of a list of `total` elements. -/
def pageCount (total limit : ℕ) : ℕ := (total + limit - 1) / limit

/-- What the pages show, page `n` in the order `orders n`. -/
def shown (limit pages : ℕ) (orders : ℕ → List α) : List α :=
  (List.range pages).flatMap fun n => block limit n (orders n)

/-- The ties of a mapped list, the keys being those of the images. -/
theorem tieAcross_map {f : β → α} {list : List β} :
    TieAcross key (list.map f) limit ↔ TieAcross (fun b => key (f b)) list limit := by
  have hcount : ∀ p : α → Bool, (list.map f).countP p = list.countP fun b => p (f b) :=
    fun p => List.countP_map
  unfold TieAcross before upTo
  simp only [hcount]
  constructor
  · rintro ⟨a, ha, k, htie⟩
    obtain ⟨b, hb, rfl⟩ := List.mem_map.mp ha
    exact ⟨b, hb, k, htie⟩
  · rintro ⟨b, hb, k, htie⟩
    exact ⟨f b, List.mem_map_of_mem hb, k, htie⟩

/-! ## What all orders have in common -/

/-- Sorting by the key is an order. -/
theorem isOrder_mergeSort (key : α → κ) (all : List α) :
    IsOrder key all (all.mergeSort fun a b => key a ≤ key b) := by
  refine ⟨List.mergeSort_perm _ _, ?_⟩
  rw [List.pairwise_map]
  have hsorted := @List.pairwise_mergeSort α (fun a b => decide (key a ≤ key b))
    (fun a b c hab hbc => by simpa using le_trans (by simpa using hab) (by simpa using hbc))
    (fun a b => by simpa using le_total (key a) (key b)) all
  exact hsorted.imp fun h => by simpa using h

/-- There is an order. -/
theorem exists_order (key : α → κ) (all : List α) : ∃ order, IsOrder key all order :=
  ⟨_, isOrder_mergeSort key all⟩

/-- Along an order the keys grow. -/
theorem IsOrder.key_le (h : IsOrder key all order) {i j : ℕ} (hi : i < order.length)
    (hj : j < order.length) (hij : i ≤ j) : key order[i] ≤ key order[j] := by
  rcases hij.eq_or_lt with rfl | hlt
  · exact le_rfl
  · exact List.pairwise_iff_getElem.mp (List.pairwise_map.mp h.sorted) i j hi hj hlt

section Cut

variable {p : α → Bool}

/-- The elements that meet a downward closed condition are those before its end. -/
theorem IsOrder.getElem_iff (h : IsOrder key all order)
    (hp : ∀ a b, key a ≤ key b → p b = true → p a = true) {j : ℕ} (hj : j < order.length) :
    p order[j] = true ↔ j < all.countP p := by
  have hsplit : all.countP p = (order.take j).countP p + (order.drop j).countP p := by
    rw [← List.countP_append, List.take_append_drop]
    exact (h.perm.countP_eq p).symm
  have htake : (order.take j).length = j := by
    rw [List.length_take]
    omega
  constructor
  · intro hin
    have hbefore : (order.take j).countP p = j := by
      refine (List.countP_eq_length.mpr fun a ha => ?_).trans htake
      obtain ⟨i, hi, rfl⟩ := List.mem_take_iff_getElem.mp ha
      exact hp _ _ (h.key_le (by omega) hj (by omega)) hin
    have hhere : 0 < (order.drop j).countP p := by
      rw [List.drop_eq_getElem_cons hj, List.countP_cons_of_pos hin]
      omega
    omega
  · intro hlt
    by_contra hout
    have hafter : (order.drop j).countP p = 0 := by
      refine List.countP_eq_zero.mpr fun a ha hin => ?_
      obtain ⟨i, hi, rfl⟩ := List.mem_drop_iff_getElem.mp ha
      exact hout (hp _ _ (h.key_le hj (by omega) (by omega)) hin)
    have hle := @List.countP_le_length _ p (order.take j)
    omega

/-- **What is before the end of a downward closed condition**: the elements that meet it, in every
order. -/
theorem IsOrder.take_countP (h : IsOrder key all order)
    (hp : ∀ a b, key a ≤ key b → p b = true → p a = true) :
    (order.take (all.countP p)).Perm (all.filter p) := by
  have hfilter : order.filter p = order.take (all.countP p) := by
    have hbefore : ∀ a ∈ order.take (all.countP p), p a = true := by
      intro a ha
      obtain ⟨i, hi, rfl⟩ := List.mem_take_iff_getElem.mp ha
      exact (h.getElem_iff hp (by omega)).mpr (by omega)
    have hafter : ∀ a ∈ order.drop (all.countP p), ¬ p a = true := by
      intro a ha hin
      obtain ⟨i, hi, rfl⟩ := List.mem_drop_iff_getElem.mp ha
      have hlt := (h.getElem_iff hp (by omega)).mp hin
      omega
    calc order.filter p
        = (order.take (all.countP p) ++ order.drop (all.countP p)).filter p := by
          rw [List.take_append_drop]
      _ = order.take (all.countP p) := by
          rw [List.filter_append, List.filter_eq_self.mpr hbefore,
            List.filter_eq_nil_iff.mpr hafter, List.append_nil]
  rw [← hfilter]
  exact h.perm.filter p

end Cut

/-! ## The pages of several orders -/

/-- Where no tie crosses the boundary, it is the end of a downward closed condition. -/
theorem exists_cut (htie : ¬ TieAcross key all limit) (k : ℕ) :
    ∃ p : α → Bool, (∀ a b, key a ≤ key b → p b = true → p a = true) ∧
      all.countP p = min (k * limit) all.length := by
  obtain ⟨order, h⟩ := exists_order key all
  have hlength := h.perm.length_eq
  rcases Nat.lt_or_ge (k * limit) order.length with hlt | hge
  · -- the first element after the boundary starts a new key
    let c := key order[k * limit]
    have hbelow : ∀ a b, key a ≤ key b → decide (key b < c) = true → decide (key a < c) = true :=
      fun a b hle hb => decide_eq_true (lt_of_le_of_lt hle (of_decide_eq_true hb))
    have hupto : ∀ a b, key a ≤ key b → decide (key b ≤ c) = true → decide (key a ≤ c) = true :=
      fun a b hle hb => decide_eq_true (le_trans hle (of_decide_eq_true hb))
    refine ⟨fun a => key a < c, hbelow, ?_⟩
    have hle : before key all c ≤ k * limit := by
      by_contra hgt
      have hin := (h.getElem_iff hbelow hlt).mpr (not_le.mp hgt)
      exact lt_irrefl c (of_decide_eq_true hin)
    have hup : k * limit < upTo key all c :=
      (h.getElem_iff hupto hlt).mp (decide_eq_true le_rfl)
    have heq : before key all c = k * limit := by
      by_contra hne
      have hmem : order[k * limit] ∈ all := h.perm.mem_iff.mp (List.getElem_mem hlt)
      exact htie ⟨_, hmem, k, lt_of_le_of_ne hle hne, hup⟩
    show before key all c = _
    omega
  · refine ⟨fun _ => true, fun _ _ _ _ => rfl, ?_⟩
    rw [List.countP_true]
    omega

/-- Where no tie crosses the boundary, every order has the same elements before it. -/
theorem IsOrder.take_perm (h : IsOrder key all order) (h' : IsOrder key all order')
    (htie : ¬ TieAcross key all limit) (k : ℕ) :
    (order.take (k * limit)).Perm (order'.take (k * limit)) := by
  obtain ⟨p, hp, hend⟩ := exists_cut htie k
  have htake : ∀ {o : List α}, IsOrder key all o → o.take (k * limit) = o.take (all.countP p) := by
    intro o ho
    rw [hend, ← ho.perm.length_eq, List.take_eq_take_iff]
    omega
  rw [htake h, htake h']
  exact (h.take_countP hp).trans (h'.take_countP hp).symm

/-- The first pages show what one order has before their end. -/
theorem shown_perm_take {orders : ℕ → List α} (horders : ∀ n, IsOrder key all (orders n))
    (h : IsOrder key all order) (htie : ¬ TieAcross key all limit) (pages : ℕ) :
    (shown limit pages orders).Perm (order.take (pages * limit)) := by
  induction pages with
  | zero =>
      rw [Nat.zero_mul]
      exact List.Perm.refl _
  | succ n ih =>
      have hstep : shown limit (n + 1) orders =
          shown limit n orders ++ block limit n (orders n) := by
        unfold shown
        rw [List.range_succ, List.flatMap_append, List.flatMap_singleton]
      have hjoin : (orders n).take ((n + 1) * limit) =
          (orders n).take (n * limit) ++ block limit n (orders n) := by
        rw [Nat.succ_mul, List.take_add]
        rfl
      rw [hstep]
      have hsame := ih.trans (h.take_perm (horders n) htie n)
      refine (hsame.append_right _).trans ?_
      rw [← hjoin]
      exact (horders n).take_perm h htie (n + 1)

/-- The pages reach the end. -/
theorem le_pageCount_mul {total : ℕ} (hlimit : 1 ≤ limit) :
    total ≤ pageCount total limit * limit := by
  have hdiv := Nat.div_add_mod (total + limit - 1) limit
  have hmod := Nat.mod_lt (total + limit - 1) hlimit
  rw [Nat.mul_comm] at hdiv
  show total ≤ (total + limit - 1) / limit * limit
  omega

/-- What stands between its bounds is in the block. -/
theorem mem_block {a : α} {n i : ℕ} (hi : order[i]? = some a) (hlo : n * limit ≤ i)
    (hhi : i < n * limit + limit) : a ∈ block limit n order := by
  unfold block
  refine List.mem_of_getElem? (i := i - n * limit) ?_
  rw [List.getElem?_take_of_lt (by omega), List.getElem?_drop]
  rwa [Nat.add_sub_cancel' hlo]

/-- Where a tie crosses a boundary, two neighbours at the boundary have one key. -/
theorem exists_neighbours (h : IsOrder key all order) (htie : TieAcross key all limit) :
    ∃ (k : ℕ) (x y : α) (l l' : List α), order = l ++ x :: y :: l' ∧
      l.length + 1 = k * limit ∧ key x = key y := by
  obtain ⟨a, -, k, hlow, hhigh⟩ := htie
  have hbelow : ∀ b b', key b ≤ key b' → decide (key b' < key a) = true →
      decide (key b < key a) = true :=
    fun b b' hle hb => decide_eq_true (lt_of_le_of_lt hle (of_decide_eq_true hb))
  have hupto : ∀ b b', key b ≤ key b' → decide (key b' ≤ key a) = true →
      decide (key b ≤ key a) = true :=
    fun b b' hle hb => decide_eq_true (le_trans hle (of_decide_eq_true hb))
  have hle := @List.countP_le_length _ (fun b => decide (key b ≤ key a)) all
  have hlength := h.perm.length_eq
  obtain ⟨m, hm⟩ : ∃ m, k * limit = m + 1 := ⟨k * limit - 1, by omega⟩
  rw [hm] at hlow hhigh
  have hnext : m + 1 < order.length := by
    unfold upTo at hhigh
    omega
  -- both have the key of the tie
  have hkey : ∀ i (hi : i < order.length), before key all (key a) ≤ i →
      i < upTo key all (key a) → key order[i] = key a := by
    intro i hi hlo hup
    have hnot : ¬ key order[i] < key a := by
      intro hlt
      have hend := (h.getElem_iff hbelow hi).mp (decide_eq_true hlt)
      unfold before at hlo
      omega
    have hin := (h.getElem_iff hupto hi).mpr hup
    exact le_antisymm (of_decide_eq_true hin) (not_lt.mp hnot)
  refine ⟨k, order[m], order[m + 1], order.take m, order.drop (m + 2), ?_, ?_, ?_⟩
  · rw [← List.drop_eq_getElem_cons hnext, ← List.drop_eq_getElem_cons, List.take_append_drop]
  · rw [List.length_take, hm]
    omega
  · rw [hkey m (by omega) (by omega) (by omega), hkey (m + 1) hnext (by omega) hhigh]

/-- Pages that show no element twice have none in common. -/
theorem disjoint_of_nodup {orders : ℕ → List α} {pages : ℕ} (h : (shown limit pages orders).Nodup)
    {i j : ℕ} (hij : i < j) (hj : j < pages) :
    List.Disjoint (block limit i (orders i)) (block limit j (orders j)) := by
  have hpairs := List.pairwise_iff_getElem.mp (List.nodup_flatMap.mp h).2 i j
    (by rw [List.length_range]; omega) (by rw [List.length_range]; omega) hij
  rwa [List.getElem_range, List.getElem_range] at hpairs

/-- A boundary inside the list is followed by a page. -/
theorem lt_pageCount {total k : ℕ} (hlimit : 1 ≤ limit) (h : k * limit < total) :
    k < pageCount total limit := by
  have hend := @le_pageCount_mul limit total hlimit
  by_contra hle
  have hmul := Nat.mul_le_mul_right limit (not_lt.mp hle)
  omega

/-- **A tie across a boundary can be shown twice**: the first of the two neighbours is last on its
page, and first on the next one if that has them the other way. -/
theorem exists_shown_twice (hlimit : 1 ≤ limit) (htie : TieAcross key all limit) :
    ∃ orders : ℕ → List α, (∀ n, IsOrder key all (orders n)) ∧
      ¬ (shown limit (pageCount all.length limit) orders).Nodup := by
  obtain ⟨order, h⟩ := exists_order key all
  obtain ⟨k, x, y, l, l', rfl, hboundary, hsame⟩ := exists_neighbours h htie
  have hswapped : IsOrder key all (l ++ y :: x :: l') := by
    refine ⟨((List.Perm.swap x y l').append_left l).trans h.perm, ?_⟩
    have hkeys : (l ++ y :: x :: l').map key = (l ++ x :: y :: l').map key := by simp [hsame]
    rw [hkeys]
    exact h.sorted
  -- the pages from the boundary on have the two neighbours swapped
  let orders (n : ℕ) : List α := if n < k then l ++ x :: y :: l' else l ++ y :: x :: l'
  refine ⟨orders, fun n => ?_, fun hnodup => ?_⟩
  · by_cases hn : n < k
    · simpa [orders, hn] using h
    · simpa [orders, hn] using hswapped
  obtain ⟨m, rfl⟩ : ∃ m, k = m + 1 := by
    cases k with
    | zero => omega
    | succ m => exact ⟨m, rfl⟩
  have hnext : (m + 1) * limit = m * limit + limit := Nat.succ_mul m limit
  have hlast : x ∈ block limit m (orders m) := by
    refine mem_block (i := l.length) ?_ (by omega) (by omega)
    simp [orders]
  have hfirst : x ∈ block limit (m + 1) (orders (m + 1)) := by
    refine mem_block (i := l.length + 1) ?_ (by omega) (by omega)
    simp [orders]
  have hlength := h.perm.length_eq
  rw [List.length_append, List.length_cons, List.length_cons] at hlength
  have hpages : m + 1 < pageCount all.length limit := by
    apply lt_pageCount hlimit
    omega
  exact disjoint_of_nodup hnodup (Nat.lt_succ_self m) hpages hlast hfirst

/-- **When the pages show every element once**, whatever order each page is cut out of: exactly if
no tie crosses a page boundary. -/
theorem shown_perm_iff (hlimit : 1 ≤ limit) (hnodup : all.Nodup) :
    (∀ orders : ℕ → List α, (∀ n, IsOrder key all (orders n)) →
      (shown limit (pageCount all.length limit) orders).Perm all) ↔ ¬ TieAcross key all limit := by
  constructor
  · intro hall htie
    obtain ⟨orders, horders, htwice⟩ := exists_shown_twice hlimit htie
    exact htwice ((hall orders horders).nodup_iff.mpr hnodup)
  · intro htie orders horders
    obtain ⟨order, h⟩ := exists_order key all
    refine (shown_perm_take horders h htie _).trans ?_
    have hend : order.length ≤ pageCount all.length limit * limit := by
      rw [h.perm.length_eq]
      exact le_pageCount_mul hlimit
    rw [List.take_of_length_le hend]
    exact h.perm

end CloudOps.Computation
