import MediaShelf.Proofs.Catalog.Callers
import MediaShelf.Proofs.Catalog.Plans
import MediaShelf.Proofs.Text.ByteOrder
import MediaShelf.Shelf.Basic

/-!
# The order of listings

A listing is sorted by name, and by identifier where names are equal. Entries of one catalog differ
in their identifiers, so no two of them are level, and there is just one way to list them: what has
happened to the catalog before does not show (`list_canonical`).
-/

namespace MediaShelf.Catalog

/-! ## Entries -/

namespace Entry

/-- The name is the lesser one by its bytes, or the names are the same and the identifier is the
lesser one. -/
def Before (a b : Entry) : Prop :=
  Text.encode a.name < Text.encode b.name ∨ a.name = b.name ∧ a.id.bits.toNat < b.id.bits.toNat

variable {a b c : Entry}

theorem precedes_iff :
    a.precedes b ↔ a.name < b.name ∨ a.name = b.name ∧ a.id.bits.toNat ≤ b.id.bits.toNat := by
  rw [precedes, Bool.or_eq_true, Bool.and_eq_true, decide_eq_true_iff, beq_iff_eq, EntryId.le,
    decide_eq_true_iff]

theorem before_of_precedes (h : a.precedes b) (hid : a.id ≠ b.id) : a.Before b := by
  rcases precedes_iff.mp h with hname | ⟨hname, hle⟩
  · exact .inl (Text.encode_lt_encode.mpr hname)
  · refine .inr ⟨hname, Nat.lt_of_le_of_ne hle fun heq => hid ?_⟩
    exact congrArg EntryId.mk (BitVec.eq_of_toNat_eq heq)

theorem precedes_trans (hab : a.precedes b) (hbc : b.precedes c) : a.precedes c := by
  rw [precedes_iff] at *
  rcases hab with hab | ⟨hab, hle⟩ <;> rcases hbc with hbc | ⟨hbc, hle'⟩
  · exact .inl (lt_trans hab hbc)
  · exact .inl (hbc ▸ hab)
  · exact .inl (hab ▸ hbc)
  · exact .inr ⟨hab.trans hbc, hle.trans hle'⟩

theorem precedes_total (a b : Entry) : (a.precedes b || b.precedes a) = true := by
  rw [Bool.or_eq_true, precedes_iff, precedes_iff]
  rcases lt_trichotomy a.name b.name with hlt | heq | hgt
  · exact .inl (.inl hlt)
  · rcases Nat.le_total a.id.bits.toNat b.id.bits.toNat with hle | hle
    · exact .inl (.inr ⟨heq, hle⟩)
    · exact .inr (.inr ⟨heq.symm, hle⟩)
  · exact .inr (.inl hgt)

theorem Before.asymm (h : a.Before b) : ¬ b.Before a := by
  rintro (hlt | ⟨heq, hlt⟩)
  · rcases h with h | ⟨h, -⟩
    · exact List.lt_asymm hlt h
    · exact List.lt_irrefl _ (h ▸ hlt)
  · rcases h with h | ⟨-, h⟩
    · exact List.lt_irrefl _ (heq ▸ h)
    · omega

end Entry

/-! ## Listings -/

namespace Registry

/-- A catalog that callers have made out of an empty one, whatever they asked of it. -/
def Reached (r : Registry) : Prop :=
  ∃ (ids : IdSource) (calls : List (Caller × Demand)),
    ((Shared.start ids).serveAll calls).2.registry = r

variable {r r' : Registry} {s : EntrySet}

theorem Reached.exists_holds (h : r.Reached) : ∃ s, r.Holds s := by
  obtain ⟨ids, calls, rfl⟩ := h
  obtain ⟨last, -, hlast⟩ := (Shared.holds_start ids).serveAll calls
  exact ⟨last.entries, hlast.registry⟩

namespace Holds

theorem mem_list (h : r.Holds s) {entry : Entry} : entry ∈ r.list ↔ entry ∈ r := by
  rw [list, List.mem_mergeSort, ← List.mem_toFinset, h.values_eq, EntrySet.mem_entries, h.mem]

theorem nodup_list (h : r.Holds s) : r.list.Nodup :=
  (List.mergeSort_perm _ _).nodup_iff.mpr h.nodup_values

theorem nodup_ids (h : r.Holds s) : (r.list.map (·.id)).Nodup := by
  refine h.nodup_list.map_on fun a ha b hb heq => ?_
  exact s.idUnique a (h.mem.mp (h.mem_list.mp ha)) b (h.mem.mp (h.mem_list.mp hb)) heq

/-- However the entries come out of the table, sorting puts each before those that follow. -/
theorem pairwise_before (h : r.Holds s) {entries : List Entry} (hperm : entries.Perm r.byId.values) :
    (entries.mergeSort Entry.precedes).Pairwise Entry.Before := by
  have hsorted : (entries.mergeSort Entry.precedes).Pairwise fun a b => a.precedes b :=
    @List.pairwise_mergeSort _ Entry.precedes (fun _ _ _ => Entry.precedes_trans)
      Entry.precedes_total entries
  have hlist : (entries.mergeSort Entry.precedes).Perm r.list :=
    ((List.mergeSort_perm _ _).trans hperm).trans (List.mergeSort_perm _ _).symm
  have hids : ((entries.mergeSort Entry.precedes).map Entry.id).Nodup :=
    (hlist.map Entry.id).nodup_iff.mpr h.nodup_ids
  exact hsorted.imp₂ (fun _ _ => Entry.before_of_precedes) (List.pairwise_map.mp hids)

/-- Catalogs of the same entries have one listing, however the entries come out of the table. -/
theorem mergeSort_eq (h : r.Holds s) (h' : r'.Holds s) {entries : List Entry}
    (hperm : entries.Perm r'.byId.values) : entries.mergeSort Entry.precedes = r.list := by
  refine List.Perm.eq_of_pairwise (fun a b _ _ hab hba => absurd hba hab.asymm)
    (h'.pairwise_before hperm) (h.pairwise_before (List.Perm.refl _)) ?_
  have hvalues : r'.byId.values.Perm r.byId.values :=
    (List.perm_ext_iff_of_nodup h'.nodup_values h.nodup_values).mpr fun entry => by
      rw [← List.mem_toFinset, h'.values_eq, ← h.values_eq, List.mem_toFinset]
  exact ((List.mergeSort_perm _ _).trans (hperm.trans hvalues)).trans (List.mergeSort_perm _ _).symm

theorem of_mem_iff {s' : EntrySet} (h : r.Holds s) (h' : r'.Holds s')
    (hsame : ∀ entry, entry ∈ r ↔ entry ∈ r') : s = s' :=
  EntrySet.ext (Finset.ext fun entry => by
    rw [EntrySet.mem_entries, EntrySet.mem_entries, ← h.mem, ← h'.mem, hsame])

end Holds

theorem Reached.mem_iff_of_perm (hr : r.Reached) (hr' : r'.Reached)
    (hperm : r.byId.values.Perm r'.byId.values) (entry : Entry) : entry ∈ r ↔ entry ∈ r' := by
  obtain ⟨s, h⟩ := hr.exists_holds
  obtain ⟨s', h'⟩ := hr'.exists_holds
  rw [h.mem, h'.mem, ← EntrySet.mem_entries, ← EntrySet.mem_entries, ← h.values_eq, ← h'.values_eq,
    List.mem_toFinset, List.mem_toFinset, hperm.mem_iff]

/-- **Listings are canonical.** Whatever callers have made of two empty catalogs, if the two have the
same entries, they have one listing, and it does not depend on how the entries come out of the table.
Each entry of the catalog is in it, once, and nothing else is; each comes before those that follow,
by its name and then by its identifier; and the files of a shelf are listed in the same order. -/
theorem list_canonical {r r' : Registry} (hr : r.Reached) (hr' : r'.Reached)
    (hsame : ∀ entry, entry ∈ r ↔ entry ∈ r') :
    r.list = r'.list ∧
      (∀ entries : List Entry, entries.Perm r'.byId.values →
        entries.mergeSort Entry.precedes = r.list) ∧
      (∀ entry, r.list.count entry = if entry ∈ r then 1 else 0) ∧
      r.list.Pairwise Entry.Before ∧
      ∀ shelf : Shelf, shelf.registry = r → shelf.files = r.list.map Shelf.listed := by
  obtain ⟨s, h⟩ := hr.exists_holds
  obtain ⟨s', h'⟩ := hr'.exists_holds
  obtain rfl := h.of_mem_iff h' hsame
  refine ⟨(h'.mergeSort_eq h (List.Perm.refl _)), fun entries => h.mergeSort_eq h', fun entry => ?_,
    h.pairwise_before (List.Perm.refl _), ?_⟩
  · rw [h.nodup_list.count]
    exact if_congr h.mem_list rfl rfl
  · rintro shelf rfl
    rfl

/-- Two films of one name, put in by hand, and one more that is taken out again. -/
def filmsByHand : List (Caller × Demand) :=
  [(0, .add (.ofFile ⟨6⟩ "v" (Text.encode "b/Film.mp4") 20)),
    (1, .add (.ofFile ⟨9⟩ "v" (Text.encode "Away.mp4") 7)),
    (0, .add (.ofFile ⟨5⟩ "v" (Text.encode "c/Film.mp4") 30)),
    (1, .remove "v" (Text.encode "Away.mp4"))]

/-- A scan that finds the two films in the other order. -/
def filmsByScan : List (Caller × Demand) :=
  [(0, .compare "v" [⟨Text.encode "c/Film.mp4", 30⟩, ⟨Text.encode "b/Film.mp4", 20⟩]), (0, .apply)]

theorem films_perm :
    ((Shared.start (.after ⟨4⟩)).serveAll filmsByHand).2.registry.byId.values.Perm
      ((Shared.start (.after ⟨4⟩)).serveAll filmsByScan).2.registry.byId.values :=
  List.isPerm_iff.mp (by cbv)

theorem list_canonical_twoFilms :
    let byHand := ((Shared.start (.after ⟨4⟩)).serveAll filmsByHand).2.registry
    let byScan := ((Shared.start (.after ⟨4⟩)).serveAll filmsByScan).2.registry
    byHand.byId.values ≠ byScan.byId.values ∧ byHand.list = byScan.list := by
  intro byHand byScan
  have hhand : byHand.Reached := ⟨_, _, rfl⟩
  have hscan : byScan.Reached := ⟨_, _, rfl⟩
  exact ⟨by decide +kernel,
    (list_canonical hhand hscan (hhand.mem_iff_of_perm hscan films_perm)).1⟩

end Registry

end MediaShelf.Catalog
