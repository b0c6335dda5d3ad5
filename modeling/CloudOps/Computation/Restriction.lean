import CloudOps.Computation.Collection

/-!
# Parts of a collection

`restrict` keeps the documents of one kind. An operation whose documents are all of that kind
does on the part what it does on the whole, and it leaves every part without such documents
alone.
-/

set_option autoImplicit false

namespace CloudOps.Computation.Collection

open Document

variable {δ κ ι : Type} [Document δ κ ι]

/-- The documents of a kind, in insertion order. -/
def restrict (c : Collection δ) (q : δ → Bool) : Collection δ where
  docs := c.docs.filter q
  nodup_id := c.nodup_id.sublist (List.filter_sublist.map _)
  nodup_index := c.nodup_index.sublist (List.filter_sublist.map _)

variable {c : Collection δ} {p q : δ → Bool} {d : δ}

/-- The part of a collection has its documents that match. -/
@[simp] theorem mem_restrict : d ∈ c.restrict q ↔ d ∈ c ∧ q d = true := by
  simp [mem_def, restrict]

/-! ## Lookups -/

/-- A query for documents of the part finds the same in it. -/
theorem filter_restrict (h : ∀ d ∈ c, p d = true → q d = true) :
    (c.restrict q).filter p = c.filter p := by
  simp only [filter, restrict, List.filter_filter]
  refine List.filter_congr fun d hd => ?_
  cases hp : p d with
  | false => rfl
  | true => rw [h d hd hp]; rfl

/-- A lookup of documents of the part finds the same in it. -/
theorem find?_restrict (h : ∀ d ∈ c, p d = true → q d = true) :
    (c.restrict q).find? p = c.find? p := by
  have hhead := congrArg List.head? (filter_restrict h)
  simpa [filter, find?, List.head?_filter] using hhead

/-! ## Updates -/

section Updates

variable {f : δ → δ} {hid : ∀ d, _id (f d) = _id d}
  {hix : ∀ d, uniqueIndex (f d) = uniqueIndex d}

/-- An update that keeps the kind of a document updates the part. -/
theorem restrict_updateMany (hq : ∀ d, q (f d) = q d) :
    (c.updateMany p f hid hix).restrict q = (c.restrict q).updateMany p f hid hix := by
  have hkind : (q ∘ fun d => if p d then f d else d) = q := by
    funext d
    by_cases hp : p d <;> simp [hp, hq]
  apply ext
  simp only [restrict, updateMany, List.filter_map, hkind]

/-- An update of documents of another kind leaves the part alone. -/
theorem restrict_updateMany_of_other (hq : ∀ d, q (f d) = q d)
    (h : ∀ d ∈ c, p d = true → q d = false) :
    (c.updateMany p f hid hix).restrict q = c.restrict q := by
  rw [restrict_updateMany hq]
  apply ext
  simp only [restrict, updateMany]
  calc (c.docs.filter q).map (fun d => if p d then f d else d)
      = (c.docs.filter q).map id := by
        refine List.map_congr_left fun d hd => ?_
        obtain ⟨hmem, hqd⟩ := List.mem_filter.mp hd
        have hp : p d ≠ true := fun hp => by
          rw [h d hmem hp] at hqd
          cases hqd
        rw [if_neg hp]
        rfl
    _ = c.docs.filter q := List.map_id _

variable [DecidableEq κ] {k : κ}

/-- An update that keeps the part commutes with taking it. -/
theorem restrict_update (hq : ∀ d, q (f d) = q d) :
    (c.update k f hid hix).restrict q = (c.restrict q).update k f hid hix :=
  restrict_updateMany hq

/-- An update of a document outside leaves the part alone. -/
theorem restrict_update_of_other (hq : ∀ d, q (f d) = q d)
    (h : ∀ d ∈ c, _id d = k → q d = false) : (c.update k f hid hix).restrict q = c.restrict q :=
  restrict_updateMany_of_other hq fun d hd hk => h d hd (of_decide_eq_true hk)

end Updates

/-! ## Insertions and upserts -/

variable [DecidableEq κ] [DecidableEq ι]

/-- A document that is refused only for documents of its kind is refused by the part as by the
whole. -/
theorem restrict_insert? (hq : q d = true)
    (h : ∀ d' ∈ c, _id d' = _id d ∨ uniqueIndex d' = uniqueIndex d → q d' = true) :
    (c.restrict q).insert? d = (c.insert? d).map (·.restrict q) := by
  have hconflicts : (c.restrict q).Conflicts d ↔ c.Conflicts d := by
    constructor
    · rintro ⟨d', hd', htaken⟩
      exact ⟨d', (mem_restrict.mp hd').1, htaken⟩
    · rintro ⟨d', hd', htaken⟩
      exact ⟨d', mem_restrict.mpr ⟨hd', h d' hd' htaken⟩, htaken⟩
  cases hwhole : c.insert? d with
  | none =>
      exact insert?_eq_none_iff.mpr (hconflicts.mpr (insert?_eq_none_iff.mp hwhole))
  | some c' =>
      obtain ⟨hfree, hdocs⟩ := insert?_eq_some hwhole
      cases hpart : (c.restrict q).insert? d with
      | none => exact absurd (hconflicts.mp (insert?_eq_none_iff.mp hpart)) hfree
      | some c'' =>
          have hdocs' := (insert?_eq_some hpart).2
          refine congrArg some (ext ?_)
          simp [hdocs', restrict, hdocs, hq]

/-- An insertion leaves the parts of other kinds alone. -/
theorem restrict_of_insert?_other {c' : Collection δ} (hinsert : c.insert? d = some c')
    (hq : q d = false) : c'.restrict q = c.restrict q := by
  apply ext
  simp [restrict, (insert?_eq_some hinsert).2, hq]

section Upsert

variable {f : δ → δ} {new : δ} {hid : ∀ d, _id (f d) = _id d}
  {hix : ∀ d, uniqueIndex (f d) = uniqueIndex d}

/-- An upsert within a kind upserts the part. -/
theorem restrict_upsert (hp : ∀ d ∈ c, p d = true → q d = true) (hf : ∀ d, q (f d) = q d)
    (hnew : q new = true)
    (htaken : ∀ d ∈ c, _id d = _id new ∨ uniqueIndex d = uniqueIndex new → q d = true) :
    (c.restrict q).upsert p f new hid hix =
      ((c.upsert p f new hid hix).1, (c.upsert p f new hid hix).2.restrict q) := by
  unfold upsert
  rw [find?_restrict hp]
  cases hfind : c.find? p with
  | some d =>
      refine Prod.ext rfl ?_
      show (c.restrict q).update (_id d) f hid hix = (c.update (_id d) f hid hix).restrict q
      rw [restrict_update hf]
  | none =>
      simp only [restrict_insert? hnew htaken]
      cases c.insert? new with
      | some c' => rfl
      | none => rfl

/-- An upsert leaves the parts of other kinds alone. -/
theorem restrict_upsert_of_other (hp : ∀ d ∈ c, p d = true → q d = false)
    (hf : ∀ d, q (f d) = q d) (hnew : q new = false) :
    (c.upsert p f new hid hix).2.restrict q = c.restrict q := by
  rcases upsert_cases c with ⟨e, he, hpe, heq⟩ | ⟨c', hinsert, -, heq⟩ | ⟨-, -, heq⟩ <;> rw [heq]
  · have hother : ∀ d ∈ c, _id d = _id e → q d = false := by
      intro d hd hde
      rw [eq_of_id hd he hde]
      exact hp e he hpe
    show (c.update (_id e) f hid hix).restrict q = c.restrict q
    rw [restrict_update_of_other hf hother]
  · exact restrict_of_insert?_other hinsert hnew

end Upsert

end CloudOps.Computation.Collection
