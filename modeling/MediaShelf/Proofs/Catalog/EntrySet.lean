import Mathlib
import MediaShelf.Catalog.Scan

/-!
# The catalog as a set of entries

Seen from outside the two tables of a catalog are a plain set of entries in which identifiers are
unique, and paths too (`EntrySet`). A catalog holds a set if looking up an identifier, or a path,
finds the one entry of the set that has it (`Registry.Holds`); then each table is the inverse of the
other (`Registry.Holds.consistent`). Every operation on the tables is a simple one on the set:
putting an entry in first takes out the at most two entries that stand in its way.
-/

namespace MediaShelf.Catalog

/-- Entries of which no two have the same identifier, and no two the same path. -/
@[ext]
structure EntrySet where
  entries : Finset Entry
  idUnique : ∀ a ∈ entries, ∀ b ∈ entries, a.id = b.id → a = b
  keyUnique : ∀ a ∈ entries, ∀ b ∈ entries, a.key = b.key → a = b

namespace EntrySet

instance : Membership Entry EntrySet := ⟨fun s entry => entry ∈ s.entries⟩

theorem mem_entries {s : EntrySet} {entry : Entry} : entry ∈ s.entries ↔ entry ∈ s := Iff.rfl

def HasKey (s : EntrySet) (key : PathKey) : Prop := ∃ entry ∈ s, entry.key = key

instance (s : EntrySet) (key : PathKey) : Decidable (s.HasKey key) :=
  inferInstanceAs (Decidable (∃ entry ∈ s.entries, entry.key = key))

def empty : EntrySet := ⟨∅, by simp, by simp⟩

/-- The entries for which something does not hold. -/
def without (s : EntrySet) (p : Entry → Prop) [DecidablePred p] : EntrySet where
  entries := s.entries.filter fun entry => ¬ p entry
  idUnique a ha b hb h :=
    s.idUnique a (Finset.mem_filter.mp ha).1 b (Finset.mem_filter.mp hb).1 h
  keyUnique a ha b hb h :=
    s.keyUnique a (Finset.mem_filter.mp ha).1 b (Finset.mem_filter.mp hb).1 h

/-- An entry, and the entries that have neither its identifier nor its path. -/
def add (s : EntrySet) (entry : Entry) : EntrySet where
  entries := insert entry (s.entries.filter fun old => old.id ≠ entry.id ∧ old.key ≠ entry.key)
  idUnique a ha b hb h := by
    rw [Finset.mem_insert, Finset.mem_filter] at ha hb
    rcases ha with rfl | ⟨ha, hane, -⟩
    · rcases hb with rfl | ⟨-, hbne, -⟩
      · rfl
      · exact absurd h.symm hbne
    · rcases hb with rfl | ⟨hb, -, -⟩
      · exact absurd h hane
      · exact s.idUnique a ha b hb h
  keyUnique a ha b hb h := by
    rw [Finset.mem_insert, Finset.mem_filter] at ha hb
    rcases ha with rfl | ⟨ha, -, hane⟩
    · rcases hb with rfl | ⟨-, -, hbne⟩
      · rfl
      · exact absurd h.symm hbne
    · rcases hb with rfl | ⟨hb, -, -⟩
      · exact absurd h hane
      · exact s.keyUnique a ha b hb h

variable {s : EntrySet} {entry other : Entry}

@[simp] theorem not_mem_empty : entry ∉ empty := Finset.notMem_empty entry

@[simp] theorem mem_without {p : Entry → Prop} [DecidablePred p] :
    entry ∈ s.without p ↔ entry ∈ s ∧ ¬ p entry := Finset.mem_filter

@[simp] theorem mem_add :
    other ∈ s.add entry ↔ other = entry ∨ other ∈ s ∧ other.id ≠ entry.id ∧ other.key ≠ entry.key := by
  rw [← mem_entries, add, Finset.mem_insert, Finset.mem_filter, mem_entries]

theorem without_congr {p q : Entry → Prop} [DecidablePred p] [DecidablePred q]
    (h : ∀ entry ∈ s, p entry ↔ q entry) : s.without p = s.without q :=
  EntrySet.ext (Finset.filter_congr fun entry hmem => not_congr (h entry hmem))

theorem without_eq_self {p : Entry → Prop} [DecidablePred p] (h : ∀ entry ∈ s, ¬ p entry) :
    s.without p = s := EntrySet.ext (Finset.filter_true_of_mem h)

theorem without_without {p q : Entry → Prop} [DecidablePred p] [DecidablePred q] :
    (s.without p).without q = s.without fun entry => p entry ∨ q entry := by
  refine EntrySet.ext ((Finset.filter_filter _ _ _).trans (Finset.filter_congr fun entry _ => ?_))
  rw [not_or]

end EntrySet

/-- The tables of a catalog find just the entries of a set. -/
structure Registry.Holds (r : Registry) (s : EntrySet) : Prop where
  ids : r.byId.Distinct
  paths : r.byPath.Distinct
  byId : ∀ id entry, r.byId.get? id = some entry ↔ entry ∈ s ∧ entry.id = id
  byPath : ∀ key id, r.byPath.get? key = some id ↔ ∃ entry ∈ s, entry.key = key ∧ entry.id = id

/-- The two tables are of one size, and each is the inverse of the other. -/
structure Registry.Consistent (r : Registry) : Prop where
  ids : r.byId.Distinct
  paths : r.byPath.Distinct
  sameSize : r.byId.size = r.byPath.size
  byPath : ∀ key id, r.byPath.get? key = some id →
    ∃ entry, r.byId.get? id = some entry ∧ entry.id = id ∧ entry.key = key
  byId : ∀ id entry, r.byId.get? id = some entry →
    entry.id = id ∧ r.byPath.get? entry.key = some id

namespace Registry

variable {r : Registry} {s : EntrySet}

theorem holds_empty : Registry.empty.Holds .empty where
  ids := Table.distinct_empty
  paths := Table.distinct_empty
  byId id entry := by simp [Registry.empty]
  byPath key id := by simp [Registry.empty]

/-! ## Looking things up -/

namespace Holds

theorem byId_none (h : r.Holds s) {id : EntryId} :
    r.byId.get? id = none ↔ ∀ entry ∈ s, entry.id ≠ id := by
  rw [Option.eq_none_iff_forall_ne_some]
  constructor
  · intro hnone entry hmem hid
    exact hnone entry ((h.byId id entry).mpr ⟨hmem, hid⟩)
  · intro hall entry hsome
    obtain ⟨hmem, hid⟩ := (h.byId id entry).mp hsome
    exact hall entry hmem hid

theorem byPath_none (h : r.Holds s) {key : PathKey} :
    r.byPath.get? key = none ↔ ∀ entry ∈ s, entry.key ≠ key := by
  rw [Option.eq_none_iff_forall_ne_some]
  constructor
  · intro hnone entry hmem hkey
    exact hnone entry.id ((h.byPath key entry.id).mpr ⟨entry, hmem, hkey, rfl⟩)
  · intro hall id hsome
    obtain ⟨entry, hmem, hkey, -⟩ := (h.byPath key id).mp hsome
    exact hall entry hmem hkey

theorem has_byPath (h : r.Holds s) {key : PathKey} : r.byPath.has key ↔ s.HasKey key := by
  unfold Table.has EntrySet.HasKey
  rw [Option.isSome_iff_ne_none, ne_eq, h.byPath_none]
  simp

theorem byPath_key (h : r.Holds s) {entry : Entry} (hmem : entry ∈ s) :
    r.byPath.get? entry.key = some entry.id := (h.byPath _ _).mpr ⟨entry, hmem, rfl, rfl⟩

theorem values_eq (h : r.Holds s) : r.byId.values.toFinset = s.entries := by
  ext entry
  rw [List.mem_toFinset, EntrySet.mem_entries]
  unfold Table.values
  rw [List.mem_map]
  constructor
  · rintro ⟨⟨id, found⟩, hpair, rfl⟩
    exact ((h.byId id found).mp (h.ids.get?_eq_some.mpr hpair)).1
  · intro hmem
    exact ⟨(entry.id, entry), h.ids.get?_eq_some.mp ((h.byId _ _).mpr ⟨hmem, rfl⟩), rfl⟩

theorem nodup_values (h : r.Holds s) : r.byId.values.Nodup := by
  have hkeys : r.byId.keys = r.byId.values.map (·.id) := by
    unfold Table.keys Table.values
    rw [List.map_map]
    refine List.map_congr_left fun ⟨id, entry⟩ hpair => ?_
    exact ((h.byId id entry).mp (h.ids.get?_eq_some.mpr hpair)).2.symm
  have hnodup := h.ids
  unfold Table.Distinct at hnodup
  rw [hkeys] at hnodup
  exact hnodup.of_map

theorem size_eq (h : r.Holds s) : r.size = s.entries.card := by
  rw [← h.values_eq, List.toFinset_card_of_nodup h.nodup_values]
  unfold Registry.size Table.size Table.values
  rw [List.length_map]

theorem length_keys (h : r.Holds s) (p : PathKey → Bool) :
    (r.byPath.keys.filter p).length = (s.entries.filter fun entry => p entry.key).card := by
  have himage : (r.byPath.keys.filter p).toFinset =
      (s.entries.filter fun entry => p entry.key).image (·.key) := by
    ext key
    rw [List.mem_toFinset, List.mem_filter, Table.mem_keys, h.has_byPath, Finset.mem_image]
    constructor
    · rintro ⟨⟨entry, hmem, rfl⟩, hp⟩
      exact ⟨entry, Finset.mem_filter.mpr ⟨hmem, hp⟩, rfl⟩
    · rintro ⟨entry, hmem, rfl⟩
      obtain ⟨hmem, hp⟩ := Finset.mem_filter.mp hmem
      exact ⟨⟨entry, hmem, rfl⟩, hp⟩
  have hinj : Set.InjOn (fun entry : Entry => entry.key)
      (s.entries.filter fun entry => p entry.key) := by
    intro a ha b hb heq
    exact s.keyUnique a (Finset.mem_filter.mp ha).1 b (Finset.mem_filter.mp hb).1 heq
  rw [← List.toFinset_card_of_nodup (h.paths.filter p), himage, Finset.card_image_of_injOn hinj]

theorem volumeSize_eq (h : r.Holds s) (volume : VolumeId) :
    r.volumeSize volume = (s.entries.filter fun entry => entry.volume = volume).card := by
  unfold Registry.volumeSize
  rw [h.length_keys]
  exact congrArg Finset.card (Finset.filter_congr fun entry _ => decide_eq_true_iff)

/-- Tables that hold a set are each the inverse of the other. -/
theorem consistent (h : r.Holds s) : r.Consistent where
  ids := h.ids
  paths := h.paths
  sameSize := by
    have hpaths := h.length_keys fun _ => true
    simp only [List.filter_true, Finset.filter_true] at hpaths
    exact h.size_eq.trans (hpaths.symm.trans (List.length_map ..))
  byPath key id hsome := by
    obtain ⟨entry, hmem, hkey, hid⟩ := (h.byPath key id).mp hsome
    exact ⟨entry, (h.byId id entry).mpr ⟨hmem, hid⟩, hid, hkey⟩
  byId id entry hsome := by
    obtain ⟨hmem, rfl⟩ := (h.byId id entry).mp hsome
    exact ⟨rfl, h.byPath_key hmem⟩

end Holds

end Registry

end MediaShelf.Catalog
