import Mathlib.Tactic
import Mathlib.Data.List.Nodup
import Mathlib.Data.List.Lookmap

/-!
# Insertion-ordered dictionaries

A `Dict` is the object or mapping of a scripting language: keys with values, in the order
the keys were first set, each key once. Setting a key that is there replaces its value in
place, setting a new key appends it. `ofFields` builds a dictionary from a record's fields
and leaves out those that are absent.

Programs are read through `get?`; `set_eq_self_of_get?` and `set_set` are the two facts that
speak of the dictionary as a whole.
-/

set_option autoImplicit false

namespace CloudOps.Computation

/-- Keys with values in insertion order, each key once. -/
structure Dict (κ α : Type) where
  entries : List (κ × α)
  nodup : (entries.map Prod.fst).Nodup
  deriving DecidableEq

namespace Dict

variable {κ α : Type}

/-- Dictionaries with the same entries are one. -/
@[ext] theorem ext {d d' : Dict κ α} (h : d.entries = d'.entries) : d = d' := by
  cases d; cases d'; simpa using h

/-- The dictionary without keys. -/
def empty : Dict κ α := ⟨[], by simp⟩

instance : Inhabited (Dict κ α) := ⟨empty⟩

variable [DecidableEq κ]

/-- The value of a key. -/
def get? (d : Dict κ α) (k : κ) : Option α := d.entries.lookup k

/-- Nothing is found in the empty dictionary. -/
@[simp] theorem get?_empty (k : κ) : (empty : Dict κ α).get? k = none := rfl

/-- Sets a key in a list of entries: in place if it is there, at the end otherwise. -/
def setEntries (k : κ) (v : α) : List (κ × α) → List (κ × α)
  | [] => [(k, v)]
  | (k', v') :: rest => if k' = k then (k, v) :: rest else (k', v') :: setEntries k v rest

section Entries

variable {k k' : κ} {v v' : α} {l : List (κ × α)}

/-- The first entry is looked at first. -/
theorem lookup_cons_ite : ((k', v) :: l).lookup k = if k = k' then some v else l.lookup k := by
  by_cases h : k = k'
  · simp [h]
  · rw [List.lookup_cons, beq_false_of_ne h, if_neg h]

/-- A key that is not there is not found. -/
theorem lookup_eq_none (h : k ∉ l.map Prod.fst) : l.lookup k = none := by
  induction l with
  | nil => rfl
  | cons e rest ih =>
      obtain ⟨k₁, v₁⟩ := e
      simp only [List.map_cons, List.mem_cons, not_or] at h
      rw [lookup_cons_ite, if_neg h.1, ih h.2]

/-- Setting a key adds no other key. -/
theorem mem_keys_setEntries :
    k' ∈ (setEntries k v l).map Prod.fst → k' = k ∨ k' ∈ l.map Prod.fst := by
  induction l with
  | nil => simp [setEntries]
  | cons e rest ih =>
      obtain ⟨k₁, v₁⟩ := e
      by_cases h : k₁ = k
      · subst h; simp [setEntries]
      · simp only [setEntries, if_neg h, List.map_cons, List.mem_cons]
        rintro (hk | hk)
        · exact Or.inr (Or.inl hk)
        · rcases ih hk with hk | hk
          · exact Or.inl hk
          · exact Or.inr (Or.inr hk)

/-- Setting a key keeps the keys distinct. -/
theorem nodup_setEntries (h : (l.map Prod.fst).Nodup) :
    ((setEntries k v l).map Prod.fst).Nodup := by
  induction l with
  | nil => simp [setEntries]
  | cons e rest ih =>
      obtain ⟨k₁, v₁⟩ := e
      by_cases hk : k₁ = k
      · subst hk; simpa [setEntries] using h
      · simp only [List.map_cons, List.nodup_cons] at h
        simp only [setEntries, if_neg hk, List.map_cons, List.nodup_cons]
        refine ⟨fun hmem => ?_, ih h.2⟩
        rcases mem_keys_setEntries hmem with heq | hmem
        · exact hk heq
        · exact h.1 hmem

/-- The value just set is found. -/
theorem lookup_setEntries_self : (setEntries k v l).lookup k = some v := by
  induction l with
  | nil => simp [setEntries]
  | cons e rest ih =>
      obtain ⟨k₁, v₁⟩ := e
      by_cases hk : k₁ = k
      · simp [setEntries, hk]
      · simpa [setEntries, hk, lookup_cons_ite, Ne.symm hk] using ih

/-- Setting a key leaves the others alone. -/
theorem lookup_setEntries_ne (h : k' ≠ k) : (setEntries k v l).lookup k' = l.lookup k' := by
  induction l with
  | nil => simp [setEntries, lookup_cons_ite, h]
  | cons e rest ih =>
      obtain ⟨k₁, v₁⟩ := e
      by_cases hk : k₁ = k
      · subst hk; simp [setEntries, lookup_cons_ite, h]
      · simp [setEntries, hk, lookup_cons_ite, ih]

/-- The last value set stays. -/
theorem setEntries_setEntries : setEntries k v (setEntries k v' l) = setEntries k v l := by
  induction l with
  | nil => simp [setEntries]
  | cons e rest ih =>
      obtain ⟨k₁, v₁⟩ := e
      by_cases hk : k₁ = k <;> simp [setEntries, hk, ih]

/-- Setting a value that is there already changes nothing. -/
theorem setEntries_eq_self (h : l.lookup k = some v) : setEntries k v l = l := by
  induction l with
  | nil => simp at h
  | cons e rest ih =>
      obtain ⟨k₁, v₁⟩ := e
      by_cases hk : k₁ = k
      · subst hk
        simp only [List.lookup_cons, beq_self_eq_true, Option.some.injEq] at h
        simp [setEntries, h]
      · have hrest : rest.lookup k = some v := by
          simpa [lookup_cons_ite, Ne.symm hk] using h
        simp [setEntries, hk, ih hrest]

/-- Settings of two keys commute if the first is there: it is set in place. -/
theorem setEntries_comm (hne : k ≠ k') (h : (l.lookup k).isSome) :
    setEntries k' v' (setEntries k v l) = setEntries k v (setEntries k' v' l) := by
  induction l with
  | nil => simp at h
  | cons e rest ih =>
      obtain ⟨k₁, v₁⟩ := e
      by_cases hk : k₁ = k
      · subst hk; simp [setEntries, hne]
      · by_cases hk' : k₁ = k'
        · subst hk'; simp [setEntries, hk]
        · have hrest : (rest.lookup k).isSome := by
            simpa [lookup_cons_ite, Ne.symm hk] using h
          simp [setEntries, hk, hk', ih hrest]

end Entries

/-- Sets a key. -/
def set (d : Dict κ α) (k : κ) (v : α) : Dict κ α :=
  ⟨setEntries k v d.entries, nodup_setEntries d.nodup⟩

variable {d : Dict κ α} {k k' : κ} {v v' : α}

/-- The value just set is found. -/
@[simp] theorem get?_set_self : (d.set k v).get? k = some v := lookup_setEntries_self

/-- Setting a key leaves the others alone. -/
theorem get?_set_ne (h : k' ≠ k) : (d.set k v).get? k' = d.get? k' := lookup_setEntries_ne h

/-- A lookup after a key has been set. -/
theorem get?_set : (d.set k v).get? k' = if k' = k then some v else d.get? k' := by
  split
  · next h => rw [h, get?_set_self]
  · next h => exact get?_set_ne h

/-- A key that is set is there, and no other one comes. -/
theorem isSome_get?_set : ((d.set k v).get? k').isSome ↔ (d.get? k').isSome ∨ k' = k := by
  rw [get?_set]
  split
  · next h => simp [h]
  · next h => simp [h]

/-- Of two settings of one key the second one stands. -/
@[simp] theorem set_set : (d.set k v').set k v = d.set k v := ext setEntries_setEntries

/-- Setting a key to the value it has changes nothing. -/
theorem set_eq_self_of_get? (h : d.get? k = some v) : d.set k v = d := ext (setEntries_eq_self h)

/-- A setting that changes nothing found its value in place. -/
theorem set_eq_self_iff : d.set k v = d ↔ d.get? k = some v := by
  refine ⟨fun h => ?_, set_eq_self_of_get?⟩
  rw [← h, get?_set_self]

/-- Settings of two keys commute if the first is there. -/
theorem set_comm (hne : k ≠ k') (h : (d.get? k).isSome) :
    (d.set k v).set k' v' = (d.set k' v').set k v := ext (setEntries_comm hne h)

/-! ## The fields of a record -/

/-- The dictionary of the fields that are present. -/
def ofFields (fields : List (κ × Option α)) (h : (fields.map Prod.fst).Nodup) : Dict κ α where
  entries := fields.filterMap fun f => f.2.map (f.1, ·)
  nodup := by
    have hsub : ((fields.filterMap fun f => f.2.map (f.1, ·)).map Prod.fst).Sublist
        (fields.map Prod.fst) := by
      clear h
      induction fields with
      | nil => simp
      | cons f rest ih =>
          obtain ⟨k, v⟩ := f
          cases v with
          | none => simpa using ih.cons k
          | some v => simpa using ih
    exact h.sublist hsub

/-- A field is found in the dictionary exactly if it is present in the record. -/
theorem get?_ofFields {fields : List (κ × Option α)} {k : κ} {v : Option α}
    (h : (fields.map Prod.fst).Nodup) (hv : (k, v) ∈ fields) : (ofFields fields h).get? k = v := by
  simp only [get?, ofFields]
  induction fields with
  | nil => simp at hv
  | cons f rest ih =>
      obtain ⟨k₁, v₁⟩ := f
      simp only [List.map_cons, List.nodup_cons] at h
      have habsent : k₁ ∉ (rest.filterMap fun f => f.2.map (f.1, ·)).map Prod.fst := by
        intro hmem
        obtain ⟨⟨_, w⟩, hw, rfl⟩ := List.mem_map.mp hmem
        obtain ⟨⟨k₂, v₂⟩, hf, hfw⟩ := List.mem_filterMap.mp hw
        obtain ⟨_, _, heq⟩ := Option.map_eq_some_iff.mp hfw
        obtain ⟨rfl, rfl⟩ := Prod.mk.inj heq
        exact h.1 (List.mem_map.mpr ⟨_, hf, rfl⟩)
      rcases List.mem_cons.mp hv with heq | hrest
      · obtain ⟨rfl, rfl⟩ := Prod.mk.inj heq
        cases v with
        | none => simpa using lookup_eq_none habsent
        | some v => simp
      · have hne : k₁ ≠ k := fun heq => h.1 (heq ▸ List.mem_map.mpr ⟨_, hrest, rfl⟩)
        cases v₁ with
        | none => simpa using ih h.2 hrest
        | some v₁ => simpa [lookup_cons_ite, Ne.symm hne] using ih h.2 hrest

end Dict

end CloudOps.Computation
