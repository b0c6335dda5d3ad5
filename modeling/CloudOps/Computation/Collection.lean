import Mathlib.Tactic
import Mathlib.Data.List.Nodup

/-!
# Document collections

A collection holds documents in insertion order, each with an identity `_id` and a second
unique index. `Collection` carries both uniqueness facts as fields, so a collection that
breaks an index cannot be built: `insert?` refuses a document whose identity or index is
taken, and an update comes with the proof that it moves neither.

The lemmas below read every operation through membership and through `get?`, the lookup
by identity; the results about programs use only these and never the list underneath.
-/

set_option autoImplicit false

namespace CloudOps.Computation

/-- Documents with an identity and a second unique index. -/
class Document (δ : Type) (κ ι : outParam Type) where
  _id : δ → κ
  uniqueIndex : δ → ι

open Document

/-- Documents in insertion order, no two with the same identity or the same index. -/
structure Collection (δ : Type) {κ ι : Type} [Document δ κ ι] where
  docs : List δ
  nodup_id : (docs.map (_id (κ := κ) (ι := ι))).Nodup
  nodup_index : (docs.map (uniqueIndex (κ := κ) (ι := ι))).Nodup

namespace Collection

variable {δ κ ι : Type} [Document δ κ ι]

instance : Membership δ (Collection δ) := ⟨fun c d => d ∈ c.docs⟩

/-- Membership is membership in the list of documents. -/
theorem mem_def {c : Collection δ} {d : δ} : d ∈ c ↔ d ∈ c.docs := Iff.rfl

instance [DecidableEq δ] (c : Collection δ) (d : δ) : Decidable (d ∈ c) :=
  inferInstanceAs (Decidable (d ∈ c.docs))

/-- The collection without documents. -/
def empty : Collection δ := ⟨[], by simp, by simp⟩

/-- Nothing is in the empty collection. -/
@[simp] theorem not_mem_empty (d : δ) : d ∉ (empty : Collection δ) := by
  simp [mem_def, empty]

/-- Collections with the same documents are one. -/
@[ext] theorem ext {c c' : Collection δ} (h : c.docs = c'.docs) : c = c' := by
  cases c; cases c'; simpa using h

/-- Two documents of a collection with one identity are one document. -/
theorem eq_of_id {c : Collection δ} {d d' : δ} (h : d ∈ c) (h' : d' ∈ c)
    (hid : _id d = _id d') : d = d' :=
  List.inj_on_of_nodup_map c.nodup_id h h' hid

/-- Two documents of a collection with one index value are one document. -/
theorem eq_of_index {c : Collection δ} {d d' : δ} (h : d ∈ c) (h' : d' ∈ c)
    (hix : uniqueIndex d = uniqueIndex d') : d = d' :=
  List.inj_on_of_nodup_map c.nodup_index h h' hix

/-- The first document that meets a filter. -/
def find? (c : Collection δ) (p : δ → Bool) : Option δ := c.docs.find? p

/-- The documents that meet a filter, in insertion order. -/
def filter (c : Collection δ) (p : δ → Bool) : List δ := c.docs.filter p

/-- What is found is stored and matches. -/
theorem mem_of_find? {c : Collection δ} {p : δ → Bool} {d : δ} (h : c.find? p = some d) :
    d ∈ c ∧ p d = true :=
  ⟨List.mem_of_find?_eq_some h, List.find?_some h⟩

/-- Nothing is found exactly when nothing matches. -/
theorem find?_eq_none {c : Collection δ} {p : δ → Bool} :
    c.find? p = none ↔ ∀ d ∈ c, p d = false := by
  simp [find?, mem_def]

/-- The filter keeps the stored documents that match. -/
@[simp] theorem mem_filter {c : Collection δ} {p : δ → Bool} {d : δ} :
    d ∈ c.filter p ↔ d ∈ c ∧ p d = true := by
  simp [filter, mem_def]

/-! ## Lookup by the second index -/

section Index

variable [DecidableEq ι]

/-- The document with index value `i`. -/
def byIndex? (c : Collection δ) (i : ι) : Option δ := c.docs.find? fun d => uniqueIndex d = i

/-- The lookup by index finds the document with that index. -/
theorem byIndex?_eq_some_iff {c : Collection δ} {i : ι} {d : δ} :
    c.byIndex? i = some d ↔ d ∈ c ∧ uniqueIndex d = i := by
  constructor
  · intro h
    exact ⟨List.mem_of_find?_eq_some h, by simpa using List.find?_some h⟩
  · rintro ⟨hd, rfl⟩
    cases h : c.byIndex? (uniqueIndex d) with
    | none =>
        have := List.find?_eq_none.mp h d hd
        simp at this
    | some d' =>
        have hix : uniqueIndex d' = uniqueIndex d := by simpa using List.find?_some h
        rw [eq_of_index (List.mem_of_find?_eq_some h) hd hix]

/-- The lookup by index fails exactly when no document has the index. -/
theorem byIndex?_eq_none_iff {c : Collection δ} {i : ι} :
    c.byIndex? i = none ↔ ∀ d ∈ c, uniqueIndex d ≠ i := by
  simp [byIndex?, mem_def]

/-- What a filter of identity and index finds: the documents of these pairs, looked up by index. -/
theorem filter_eq_filterMap {c : Collection δ} {p : δ → Bool} {r : κ × ι → Bool}
    (hp : ∀ d, p d = r (_id d, uniqueIndex d)) :
    c.filter p = ((c.docs.map fun d => (_id d, uniqueIndex d)).filter r).filterMap
      fun pair => c.byIndex? pair.2 := by
  have hkeys : (r ∘ fun d => (_id d, uniqueIndex d)) = p := funext fun d => (hp d).symm
  rw [List.filter_map, hkeys, List.filterMap_map]
  refine Eq.trans List.filterMap_some.symm (List.filterMap_congr fun d hd => ?_)
  exact (byIndex?_eq_some_iff.mpr ⟨List.mem_of_mem_filter hd, rfl⟩).symm

omit [DecidableEq ι] in
/-- A filter for one index value finds the document with it. -/
theorem find?_index_iff {c : Collection δ} {p : δ → Bool} {i : ι} {d : δ}
    (hp : ∀ d, p d = true ↔ uniqueIndex d = i) :
    c.find? p = some d ↔ d ∈ c ∧ uniqueIndex d = i := by
  constructor
  · intro h
    obtain ⟨hd, hpd⟩ := mem_of_find? h
    exact ⟨hd, (hp d).mp hpd⟩
  · rintro ⟨hd, hix⟩
    cases h : c.find? p with
    | none =>
        have hmiss := find?_eq_none.mp h d hd
        rw [(hp d).mpr hix] at hmiss
        cases hmiss
    | some d' =>
        obtain ⟨hd', hpd'⟩ := mem_of_find? h
        rw [eq_of_index hd' hd (((hp d').mp hpd').trans hix.symm)]

end Index

/-! ## Lookup by identity -/

variable [DecidableEq κ]

/-- The document with identity `k`. -/
def get? (c : Collection δ) (k : κ) : Option δ := c.docs.find? fun d => _id d = k

/-- The lookup by identity finds the document with that identity. -/
theorem get?_eq_some_iff {c : Collection δ} {k : κ} {d : δ} :
    c.get? k = some d ↔ d ∈ c ∧ _id d = k := by
  constructor
  · intro h
    exact ⟨List.mem_of_find?_eq_some h, by simpa using List.find?_some h⟩
  · rintro ⟨hd, rfl⟩
    cases h : c.get? (_id d) with
    | none =>
        have := List.find?_eq_none.mp h d hd
        simp at this
    | some d' =>
        have hid : _id d' = _id d := by simpa using List.find?_some h
        rw [eq_of_id (List.mem_of_find?_eq_some h) hd hid]

/-- A stored document is found under its identity. -/
theorem get?_id {c : Collection δ} {d : δ} (h : d ∈ c) : c.get? (_id d) = some d :=
  get?_eq_some_iff.mpr ⟨h, rfl⟩

/-- The lookup by identity fails exactly when no document has the identity. -/
theorem get?_eq_none_iff {c : Collection δ} {k : κ} :
    c.get? k = none ↔ ∀ d ∈ c, _id d ≠ k := by
  simp [get?, mem_def]

/-- The document with an identity is the one with an index value, if they belong together. -/
theorem get?_eq_byIndex? [DecidableEq ι] {c : Collection δ} {k : κ} {i : ι}
    (h : ∀ d ∈ c, _id d = k ↔ uniqueIndex d = i) : c.get? k = c.byIndex? i := by
  refine Option.ext fun d => ?_
  rw [get?_eq_some_iff, byIndex?_eq_some_iff]
  exact and_congr_right (h d)

/-- The lookup in the empty collection fails. -/
@[simp] theorem get?_empty (k : κ) : (empty : Collection δ).get? k = none := by
  simp [get?, empty]

/-! ## Updates

The default proof that an update keeps the indexes is written with `Eq.trans`, so that its
type is the one asked for and not an unfolding of it; the lemmas then unify with it. -/

/-- Applies `f` to every document that meets the filter. -/
def updateMany (c : Collection δ) (p : δ → Bool) (f : δ → δ)
    (hid : ∀ d, _id (f d) = _id d := by intro d; exact Eq.trans rfl rfl)
    (hix : ∀ d, uniqueIndex (f d) = uniqueIndex d := by intro d; exact Eq.trans rfl rfl) :
    Collection δ where
  docs := c.docs.map fun d => if p d then f d else d
  nodup_id := by
    have h : (fun d => _id (if p d then f d else d)) = (_id : δ → κ) := by
      funext d; split <;> simp [hid]
    simpa [Function.comp_def, h] using c.nodup_id
  nodup_index := by
    have h : (fun d => uniqueIndex (if p d then f d else d)) = (uniqueIndex : δ → ι) := by
      funext d; split <;> simp [hix]
    simpa [Function.comp_def, h] using c.nodup_index

/-- Applies `f` to the document with identity `k`, if there is one. -/
def update (c : Collection δ) (k : κ) (f : δ → δ)
    (hid : ∀ d, _id (f d) = _id d := by intro d; exact Eq.trans rfl rfl)
    (hix : ∀ d, uniqueIndex (f d) = uniqueIndex d := by intro d; exact Eq.trans rfl rfl) :
    Collection δ :=
  c.updateMany (fun d => _id d = k) f hid hix

section Updates

variable {c : Collection δ} {p : δ → Bool} {f : δ → δ} {k : κ}
  {hid : ∀ d, _id (f d) = _id d} {hix : ∀ d, uniqueIndex (f d) = uniqueIndex d}

omit [DecidableEq κ] in
/-- The documents after an update are the old ones, those that match changed. -/
theorem mem_updateMany {d' : δ} :
    d' ∈ c.updateMany p f hid hix ↔ ∃ d ∈ c, (if p d then f d else d) = d' := by
  simp [mem_def, updateMany]

/-- The documents after an update are the old ones, the one with the identity changed. -/
theorem mem_update {d' : δ} :
    d' ∈ c.update k f hid hix ↔ ∃ d ∈ c, (if _id d = k then f d else d) = d' := by
  simp [update, mem_updateMany]

/-- The lookup after an update finds the old document, changed if it matches. -/
theorem get?_updateMany (k : κ) :
    (c.updateMany p f hid hix).get? k = (c.get? k).map fun d => if p d then f d else d := by
  have h : ((fun d => decide (_id d = k)) ∘ fun d => if p d then f d else d) =
      fun d : δ => decide (_id d = k) := by
    funext d
    by_cases hp : p d <;> simp [hp, hid]
  simp only [get?, updateMany, List.find?_map, h]

/-- The updated document is found changed. -/
theorem get?_update_self : (c.update k f hid hix).get? k = (c.get? k).map f := by
  rw [update, get?_updateMany]
  cases h : c.get? k with
  | none => rfl
  | some d => simp [(get?_eq_some_iff.mp h).2]

/-- The other documents are found as they were. -/
theorem get?_update_ne {k' : κ} (h : k' ≠ k) :
    (c.update k f hid hix).get? k' = c.get? k' := by
  rw [update, get?_updateMany]
  cases hd : c.get? k' with
  | none => rfl
  | some d => simp [(get?_eq_some_iff.mp hd).2, h]

/-- A filter that the update does not change finds the same documents, updated. -/
theorem filter_update (hp : ∀ d, p (f d) = p d) :
    (c.update k f hid hix).filter p =
      (c.filter p).map fun d => if _id d = k then f d else d := by
  have h : (p ∘ fun d => if _id d = k then f d else d) = p := by
    funext d
    by_cases hk : _id d = k <;> simp [hk, hp]
  simp only [filter, update, updateMany, decide_eq_true_eq, List.filter_map, h]

/-- An update that keeps what the query looks at keeps what the query finds. -/
theorem find?_update (hp : ∀ d, p (f d) = p d) :
    (c.update k f hid hix).find? p =
      (c.find? p).map fun d => if _id d = k then f d else d := by
  have h : (p ∘ fun d => if _id d = k then f d else d) = p := by
    funext d
    by_cases hk : _id d = k <;> simp [hk, hp]
  simp only [find?, update, updateMany, decide_eq_true_eq, List.find?_map, h]

/-- The lookup by index finds the old document, changed if it has the identity. -/
theorem byIndex?_update [DecidableEq ι] (i : ι) :
    (c.update k f hid hix).byIndex? i =
      (c.byIndex? i).map fun d => if _id d = k then f d else d :=
  find?_update (p := fun d => decide (uniqueIndex d = i)) fun d => by rw [hix]

/-- What an update does not change of any document stays as it is. -/
theorem map_docs_update {α : Type} {g : δ → α} (hg : ∀ d, g (f d) = g d) :
    (c.update k f hid hix).docs.map g = c.docs.map g := by
  simp only [update, updateMany, List.map_map]
  refine List.map_congr_left fun d _ => ?_
  by_cases hk : _id d = k <;> simp [hk, hg]

/-- An update keeps the identities of the collection. -/
theorem get?_updateMany_isSome :
    ((c.updateMany p f hid hix).get? k).isSome = (c.get? k).isSome := by
  rw [get?_updateMany, Option.isSome_map]

/-- An update adds no identity and removes none. -/
theorem get?_update_isSome {k' : κ} :
    ((c.update k f hid hix).get? k').isSome = (c.get? k').isSome :=
  get?_updateMany_isSome

omit [DecidableEq κ] in
/-- Two filters that agree on the documents update the same ones. -/
theorem updateMany_congr {p' : δ → Bool} (h : ∀ d ∈ c, p d = p' d) :
    c.updateMany p f hid hix = c.updateMany p' f hid hix :=
  ext (List.map_congr_left fun d hd => by rw [h d hd])

omit [DecidableEq κ] in
/-- A filter that no document meets updates nothing. -/
theorem updateMany_eq_self (h : ∀ d ∈ c, p d = false) : c.updateMany p f hid hix = c := by
  refine ext ((List.map_congr_left fun d hd => ?_).trans (List.map_id _))
  rw [h d hd]
  rfl

omit [DecidableEq κ] in
/-- What an update leaves alone in a document stays in the collection. -/
theorem updateMany_view {γ : Type} {view : δ → γ} {d : δ} (hid : ∀ d, _id (f d) = _id d)
    (hix : ∀ d, uniqueIndex (f d) = uniqueIndex d) (hview : ∀ d, view (f d) = view d)
    (h : d ∈ c) : ∃ d' ∈ c.updateMany p f hid hix, view d' = view d := by
  refine ⟨if p d then f d else d, mem_updateMany.mpr ⟨d, h, rfl⟩, ?_⟩
  split
  · exact hview d
  · rfl

/-- An update keeps every view of the documents that it keeps of each. -/
theorem update_view {γ : Type} {view : δ → γ} {d : δ} (hid : ∀ d, _id (f d) = _id d)
    (hix : ∀ d, uniqueIndex (f d) = uniqueIndex d) (hview : ∀ d, view (f d) = view d)
    (h : d ∈ c) : ∃ d' ∈ c.update k f hid hix, view d' = view d :=
  updateMany_view hid hix hview h

omit [DecidableEq κ] in
/-- An update keeps every document under its identity and its index. -/
theorem updateMany_keeps {d : δ} (hid : ∀ d, _id (f d) = _id d)
    (hix : ∀ d, uniqueIndex (f d) = uniqueIndex d) (h : d ∈ c) :
    ∃ d' ∈ c.updateMany p f hid hix, _id d' = _id d ∧ uniqueIndex d' = uniqueIndex d := by
  refine ⟨if p d then f d else d, mem_updateMany.mpr ⟨d, h, rfl⟩, ?_⟩
  split
  · exact ⟨hid d, hix d⟩
  · exact ⟨rfl, rfl⟩

/-- An update keeps identities and indexes. -/
theorem update_keeps {d : δ} (hid : ∀ d, _id (f d) = _id d)
    (hix : ∀ d, uniqueIndex (f d) = uniqueIndex d) (h : d ∈ c) :
    ∃ d' ∈ c.update k f hid hix, _id d' = _id d ∧ uniqueIndex d' = uniqueIndex d :=
  updateMany_keeps hid hix h

end Updates

/-! ## Insertion -/

variable [DecidableEq ι]

/-- Whether inserting `d` would break one of the two unique indexes. -/
def Conflicts (c : Collection δ) (d : δ) : Prop :=
  ∃ d' ∈ c.docs, _id d' = _id d ∨ uniqueIndex d' = uniqueIndex d

instance (c : Collection δ) (d : δ) : Decidable (c.Conflicts d) :=
  inferInstanceAs (Decidable (∃ d' ∈ c.docs, _id d' = _id d ∨ uniqueIndex d' = uniqueIndex d))

/-- Inserts a document; `none` is the duplicate-key error. -/
def insert? (c : Collection δ) (d : δ) : Option (Collection δ) :=
  if h : c.Conflicts d then none
  else some
    { docs := c.docs ++ [d]
      nodup_id := by
        rw [List.map_append, List.nodup_append]
        refine ⟨c.nodup_id, by simp, ?_⟩
        rintro a ha b hb rfl
        obtain ⟨d', hd', rfl⟩ := List.mem_map.mp ha
        exact h ⟨d', hd', Or.inl (by simpa using hb)⟩
      nodup_index := by
        rw [List.map_append, List.nodup_append]
        refine ⟨c.nodup_index, by simp, ?_⟩
        rintro a ha b hb rfl
        obtain ⟨d', hd', rfl⟩ := List.mem_map.mp ha
        exact h ⟨d', hd', Or.inr (by simpa using hb)⟩ }

variable {c c' : Collection δ} {d : δ}

/-- An insertion is refused exactly on a conflict. -/
theorem insert?_eq_none_iff : c.insert? d = none ↔ c.Conflicts d := by
  unfold insert?; split <;> simp_all

/-- What a successful insertion says: the document was new and is now the last one. -/
theorem insert?_eq_some (h : c.insert? d = some c') :
    ¬ c.Conflicts d ∧ c'.docs = c.docs ++ [d] := by
  unfold insert? at h
  split at h
  · cases h
  · cases h; exact ⟨‹_›, rfl⟩

/-- An insertion adds its document to the old ones. -/
theorem mem_insert? (h : c.insert? d = some c') {d' : δ} : d' ∈ c' ↔ d' ∈ c ∨ d' = d := by
  rw [mem_def, (insert?_eq_some h).2]; simp [mem_def]

/-- An inserted document is found under its identity. -/
theorem get?_insert?_self (h : c.insert? d = some c') : c'.get? (_id d) = some d :=
  get?_id ((mem_insert? h).mpr (Or.inr rfl))

/-- An insertion leaves the other identities alone. -/
theorem get?_insert?_ne (h : c.insert? d = some c') {k : κ} (hk : k ≠ _id d) :
    c'.get? k = c.get? k := by
  simp only [get?, (insert?_eq_some h).2, List.find?_append]
  simp [Ne.symm hk]

/-- An insertion leaves the documents that were there as they were. -/
theorem get?_of_insert? (h : c.insert? d = some c') {k : κ} {d' : δ} (hd : c.get? k = some d') :
    c'.get? k = some d' := by
  rw [get?_insert?_ne h, hd]
  rintro rfl
  obtain ⟨hmem, hid⟩ := get?_eq_some_iff.mp hd
  exact (insert?_eq_some h).1 ⟨d', hmem, Or.inl hid⟩

/-- An inserted document is found under its index. -/
theorem byIndex?_insert?_self (h : c.insert? d = some c') :
    c'.byIndex? (uniqueIndex d) = some d :=
  byIndex?_eq_some_iff.mpr ⟨(mem_insert? h).mpr (Or.inr rfl), rfl⟩

/-- An insertion leaves the other indexes alone. -/
theorem byIndex?_insert?_ne (h : c.insert? d = some c') {i : ι} (hi : i ≠ uniqueIndex d) :
    c'.byIndex? i = c.byIndex? i := by
  simp only [byIndex?, (insert?_eq_some h).2, List.find?_append]
  simp [Ne.symm hi]

/-- The identity of an inserted document was free before. -/
theorem get?_eq_none_of_insert? (h : c.insert? d = some c') : c.get? (_id d) = none :=
  get?_eq_none_iff.mpr fun d' hd' hid => (insert?_eq_some h).1 ⟨d', hd', Or.inl hid⟩

/-! ## Upserts -/

/-- Updates the document a filter finds, or inserts `new` if it finds none, in one atomic step:
the document as it is then, `none` being the duplicate-key error, and the collection. -/
def upsert (c : Collection δ) (p : δ → Bool) (f : δ → δ) (new : δ)
    (hid : ∀ d, _id (f d) = _id d := by intro d; exact Eq.trans rfl rfl)
    (hix : ∀ d, uniqueIndex (f d) = uniqueIndex d := by intro d; exact Eq.trans rfl rfl) :
    Option δ × Collection δ :=
  match c.find? p with
  | some d => (some (f d), c.update (_id d) f hid hix)
  | none => match c.insert? new with
    | some c' => (some new, c')
    | none => (none, c)

section Upsert

variable {p : δ → Bool} {f : δ → δ} {new : δ} {hid : ∀ d, _id (f d) = _id d}
  {hix : ∀ d, uniqueIndex (f d) = uniqueIndex d}

/-- **The ways of an upsert**: it updates, inserts, or is refused. -/
theorem upsert_cases (c : Collection δ) :
    (∃ d ∈ c, p d = true ∧
      c.upsert p f new hid hix = (some (f d), c.update (_id d) f hid hix)) ∨
    (∃ c', c.insert? new = some c' ∧ (∀ d ∈ c, p d = false) ∧
      c.upsert p f new hid hix = (some new, c')) ∨
    (c.Conflicts new ∧ (∀ d ∈ c, p d = false) ∧ c.upsert p f new hid hix = (none, c)) := by
  unfold upsert
  cases hfind : c.find? p with
  | some d =>
      obtain ⟨hd, hpd⟩ := mem_of_find? hfind
      exact Or.inl ⟨d, hd, hpd, rfl⟩
  | none =>
      have hmiss := find?_eq_none.mp hfind
      cases hinsert : c.insert? new with
      | some c' => exact Or.inr (Or.inl ⟨c', rfl, hmiss, rfl⟩)
      | none => exact Or.inr (Or.inr ⟨insert?_eq_none_iff.mp hinsert, hmiss, rfl⟩)

/-- An upsert keeps every document, but for the fields it sets. -/
theorem upsert_keeps (h : d ∈ c) : ∃ d' ∈ (c.upsert p f new hid hix).2, d' = d ∨ d' = f d := by
  rcases upsert_cases c with ⟨e, -, -, heq⟩ | ⟨c', hinsert, -, heq⟩ | ⟨-, -, heq⟩ <;> rw [heq]
  · refine ⟨if _id d = _id e then f d else d, ?_, ?_⟩
    · show _ ∈ c.update (_id e) f hid hix
      rw [mem_update]
      exact ⟨d, h, rfl⟩
    · split
      · exact Or.inr rfl
      · exact Or.inl rfl
  · exact ⟨d, (mem_insert? hinsert).mpr (Or.inl h), Or.inl rfl⟩
  · exact ⟨d, h, Or.inl rfl⟩

/-- A document after an upsert was there before, or has just been updated, or has just been
inserted. -/
theorem of_mem_upsert {d' : δ} (h : d' ∈ (c.upsert p f new hid hix).2) :
    d' ∈ c ∨ (∃ d ∈ c, p d = true ∧ d' = f d) ∨
      (d' = new ∧ (∀ d ∈ c, p d = false) ∧ ¬ c.Conflicts new) := by
  rcases upsert_cases c with ⟨e, he, hpe, heq⟩ | ⟨c', hinsert, hmiss, heq⟩ | ⟨-, -, heq⟩ <;>
    rw [heq] at h
  · change d' ∈ c.update (_id e) f hid hix at h
    rw [mem_update] at h
    obtain ⟨d, hd, rfl⟩ := h
    by_cases hde : _id d = _id e
    · rw [if_pos hde]
      obtain rfl := eq_of_id hd he hde
      exact Or.inr (Or.inl ⟨d, hd, hpe, rfl⟩)
    · rw [if_neg hde]
      exact Or.inl hd
  · rcases (mem_insert? hinsert).mp h with hold | rfl
    · exact Or.inl hold
    · exact Or.inr (Or.inr ⟨rfl, hmiss, (insert?_eq_some hinsert).1⟩)
  · exact Or.inl h

/-- What an upsert returns is stored, updated or new. -/
theorem upsert_some {d' : δ} (h : (c.upsert p f new hid hix).1 = some d') :
    d' ∈ (c.upsert p f new hid hix).2 ∧ ((∃ d ∈ c, p d = true ∧ d' = f d) ∨ d' = new) := by
  rcases upsert_cases c with ⟨e, he, hpe, heq⟩ | ⟨c', hinsert, -, heq⟩ | ⟨-, -, heq⟩ <;>
    rw [heq] at h ⊢
  · cases h
    refine ⟨?_, Or.inl ⟨e, he, hpe, rfl⟩⟩
    show _ ∈ c.update (_id e) f hid hix
    rw [mem_update]
    exact ⟨e, he, if_pos rfl⟩
  · cases h
    exact ⟨(mem_insert? hinsert).mpr (Or.inr rfl), Or.inr rfl⟩
  · cases h

/-- An upsert that finds nothing adds its new document at the end. -/
theorem upsert_inserts (hmiss : ∀ d ∈ c, p d = false) (hfree : ¬ c.Conflicts new) :
    (c.upsert p f new hid hix).1 = some new ∧
      (c.upsert p f new hid hix).2.docs = c.docs ++ [new] := by
  unfold upsert
  rw [find?_eq_none.mpr hmiss]
  cases hinsert : c.insert? new with
  | none => exact absurd (insert?_eq_none_iff.mp hinsert) hfree
  | some c' => exact ⟨rfl, (insert?_eq_some hinsert).2⟩

/-- An upsert changes the number of documents of no kind that the update keeps, unless it
inserts one of that kind. -/
theorem length_filter_upsert {r : δ → Bool} (hr : ∀ d, r (f d) = r d)
    (hnew : r new = true → ∃ d ∈ c, p d = true) :
    ((c.upsert p f new hid hix).2.filter r).length = (c.filter r).length := by
  rcases upsert_cases c with ⟨e, -, -, heq⟩ | ⟨c', hinsert, hmiss, heq⟩ | ⟨-, -, heq⟩ <;> rw [heq]
  · have hkept : (r ∘ fun d => if decide (_id d = _id e) then f d else d) = r := by
      funext d
      by_cases hde : _id d = _id e <;> simp [hde, hr]
    simp only [filter, update, updateMany, List.filter_map, hkept, List.length_map]
  · have hother : r new = false := by
      refine Bool.eq_false_iff.mpr fun hkind => ?_
      obtain ⟨d, hd, hpd⟩ := hnew hkind
      rw [hmiss d hd] at hpd
      cases hpd
    simp only [filter, (insert?_eq_some hinsert).2, List.filter_append, List.filter_cons, hother]
    simp

end Upsert

end Collection

end CloudOps.Computation
