/-!
Tables: finite maps kept as lists of pairs in which no key occurs twice. The operations are told
apart by what looking a key up gives afterwards.
-/

namespace MediaShelf.Catalog

/-- A finite map. -/
structure Table (α β : Type) where
  pairs : List (α × β)

namespace Table

variable {α β : Type}

/-- The table without entries. -/
def empty : Table α β := ⟨[]⟩

/-- The keys, in the order of the pairs. -/
def keys (t : Table α β) : List α := t.pairs.map (·.1)

/-- The values, in the order of the pairs. -/
def values (t : Table α β) : List β := t.pairs.map (·.2)

/-- The number of entries. -/
def size (t : Table α β) : Nat := t.pairs.length

/-- No key occurs twice. -/
def Distinct (t : Table α β) : Prop := t.keys.Nodup

theorem distinct_empty : (empty : Table α β).Distinct := List.nodup_nil

variable [DecidableEq α]

/-- The value of a key. -/
def get? (t : Table α β) (key : α) : Option β :=
  (t.pairs.find? fun pair => pair.1 = key).map (·.2)

/-- Takes a key away. -/
def erase (t : Table α β) (key : α) : Table α β :=
  ⟨t.pairs.filter fun pair => pair.1 ≠ key⟩

/-- Gives a key a value. -/
def insert (t : Table α β) (key : α) (value : β) : Table α β :=
  ⟨(key, value) :: (t.erase key).pairs⟩

/-- Whether a key has a value. -/
def has (t : Table α β) (key : α) : Bool := (t.get? key).isSome

@[simp] theorem get?_empty (key : α) : (empty : Table α β).get? key = none := rfl

@[simp] theorem get?_insert_self (t : Table α β) (key : α) (value : β) :
    (t.insert key value).get? key = some value := by
  simp [get?, insert]

@[simp] theorem get?_erase_self (t : Table α β) (key : α) : (t.erase key).get? key = none := by
  simp [get?, erase, List.find?_eq_none]

theorem get?_erase_of_ne (t : Table α β) {key other : α} (h : other ≠ key) :
    (t.erase key).get? other = t.get? other := by
  unfold get? erase
  congr 1
  simp only [List.find?_filter]
  apply congrArg (fun p => List.find? p t.pairs)
  funext pair
  by_cases hp : pair.1 = other
  · simp [hp, h]
  · simp [hp]

theorem get?_insert_of_ne (t : Table α β) {key other : α} (h : other ≠ key) (value : β) :
    (t.insert key value).get? other = t.get? other := by
  have : (t.insert key value).get? other = (t.erase key).get? other := by
    simp [get?, insert, Ne.symm h]
  rw [this, get?_erase_of_ne t h]

theorem get?_erase (t : Table α β) (key other : α) :
    (t.erase key).get? other = if other = key then none else t.get? other := by
  by_cases h : other = key
  · rw [if_pos h, h, get?_erase_self]
  · rw [if_neg h, get?_erase_of_ne t h]

theorem get?_insert (t : Table α β) (key other : α) (value : β) :
    (t.insert key value).get? other = if other = key then some value else t.get? other := by
  by_cases h : other = key
  · rw [if_pos h, h, get?_insert_self]
  · rw [if_neg h, get?_insert_of_ne t h]

/-- In a table a key has the one value that stands beside it. -/
theorem Distinct.get?_eq_some {t : Table α β} (h : t.Distinct) {key : α} {value : β} :
    t.get? key = some value ↔ (key, value) ∈ t.pairs := by
  obtain ⟨pairs⟩ := t
  unfold get? Distinct keys at *
  induction pairs with
  | nil => simp
  | cons pair rest ih =>
    rw [List.map_cons, List.nodup_cons] at h
    by_cases hkey : pair.1 = key
    · rw [List.find?_cons_of_pos (by simpa using hkey), Option.map_some, Option.some.injEq,
        List.mem_cons]
      constructor
      · rintro rfl
        exact .inl (by rw [← hkey])
      · rintro (rfl | hmem)
        · rfl
        · exact absurd (List.mem_map_of_mem hmem) (hkey ▸ h.1)
    · rw [List.find?_cons_of_neg (by simpa using hkey), ih h.2, List.mem_cons]
      refine ⟨.inr, fun hmem => hmem.resolve_left ?_⟩
      rintro rfl
      exact hkey rfl

theorem mem_keys {t : Table α β} {key : α} : key ∈ t.keys ↔ t.has key := by
  unfold keys has get?
  rw [Option.isSome_map, List.find?_isSome, List.mem_map]
  simp

theorem Distinct.erase {t : Table α β} (h : t.Distinct) (key : α) : (t.erase key).Distinct := by
  unfold Distinct keys Table.erase at *
  exact h.sublist (List.Sublist.map _ List.filter_sublist)

theorem Distinct.insert {t : Table α β} (h : t.Distinct) (key : α) (value : β) :
    (t.insert key value).Distinct := by
  have he := h.erase key
  unfold Distinct keys Table.insert at *
  rw [List.map_cons, List.nodup_cons]
  refine ⟨?_, he⟩
  simp [Table.erase, List.mem_map, List.mem_filter]

end Table

end MediaShelf.Catalog
