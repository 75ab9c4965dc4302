import MediaShelf.Proofs.Catalog.EntrySet

/-!
# Changes of the catalog

What each change of the tables does to the set that they hold: putting an entry in
(`Registry.Holds.insert`), taking the entry at a path away (`Registry.Holds.remove`), and the two
parts of a scan that look at the catalog and change it (`Registry.Holds.gone_eq`,
`Registry.Holds.removeGone`, `Registry.Holds.addFresh`).
-/

namespace MediaShelf.Catalog

namespace Registry

variable {r : Registry} {s : EntrySet}

/-! ## Putting an entry in -/

@[simp] theorem displacePath_byPath (key : PathKey) (id : EntryId) :
    (r.displacePath key id).byPath = r.byPath := by
  unfold displacePath
  split
  · split <;> rfl
  · rfl

@[simp] theorem displaceId_byId (key : PathKey) (id : EntryId) :
    (r.displaceId key id).byId = r.byId := by
  unfold displaceId
  split
  · split <;> rfl
  · rfl

/-- Only the entry at the path is put out, and not if it has the identifier. -/
theorem displacePath_get? (key : PathKey) (id other : EntryId) :
    (r.displacePath key id).byId.get? other =
      if r.byPath.get? key = some other ∧ other ≠ id then none else r.byId.get? other := by
  unfold displacePath
  cases hprevious : r.byPath.get? key with
  | none => simp
  | some previous =>
    by_cases hid : previous = id
    · subst hid
      have hno : ¬ (some previous = some other ∧ other ≠ previous) := by
        rintro ⟨heq, hne⟩
        exact hne (Option.some.inj heq).symm
      rw [if_neg hno]
      simp
    · simp only [ne_eq, hid, not_false_eq_true, if_true, Table.get?_erase]
      by_cases hother : other = previous
      · subst hother
        simp [hid]
      · have hne : ¬ previous = other := fun heq => hother heq.symm
        simp [hother, hne]

theorem displacePath_get?_self (key : PathKey) (id : EntryId) :
    (r.displacePath key id).byId.get? id = r.byId.get? id := by
  rw [displacePath_get?, if_neg fun h => h.2 rfl]

/-- Only the path of the entry with the identifier is forgotten, and not if it is the path. -/
theorem displaceId_get? (key : PathKey) (id : EntryId) (other : PathKey) :
    (r.displaceId key id).byPath.get? other =
      if (r.byId.get? id).map (·.key) = some other ∧ other ≠ key then none
      else r.byPath.get? other := by
  unfold displaceId
  cases hstale : r.byId.get? id with
  | none => simp
  | some stale =>
    simp only [Option.map_some, Option.some.injEq]
    by_cases hkey : stale.key = key
    · have hno : ¬ (stale.key = other ∧ other ≠ key) := by
        rintro ⟨heq, hne⟩
        exact hne (heq.symm.trans hkey)
      rw [if_neg (fun hne => hne hkey), if_neg hno]
    · rw [if_pos hkey, Table.get?_erase]
      by_cases hother : other = stale.key
      · subst hother
        simp [hkey]
      · have hne : ¬ (stale.key = other ∧ other ≠ key) := fun h => hother h.1.symm
        rw [if_neg hother, if_neg hne]

theorem insert_byId (entry : Entry) : (r.insert entry).byId =
    (r.displacePath entry.key entry.id).byId.insert entry.id entry := by
  unfold Registry.insert
  simp only [displaceId_byId]

theorem insert_byPath (entry : Entry) : (r.insert entry).byPath =
    ((r.displacePath entry.key entry.id).displaceId entry.key entry.id).byPath.insert entry.key
      entry.id := rfl

theorem distinct_displacePath (h : r.byId.Distinct) (key : PathKey) (id : EntryId) :
    (r.displacePath key id).byId.Distinct := by
  unfold displacePath
  split
  · split
    · exact h.erase _
    · exact h
  · exact h

theorem distinct_displaceId (h : r.byPath.Distinct) (key : PathKey) (id : EntryId) :
    (r.displaceId key id).byPath.Distinct := by
  unfold displaceId
  split
  · split
    · exact h.erase _
    · exact h
  · exact h

/-- Putting an entry in leaves those that have neither its identifier nor its path. -/
theorem Holds.insert (h : r.Holds s) (entry : Entry) : (r.insert entry).Holds (s.add entry) where
  ids := by
    rw [insert_byId]
    exact (distinct_displacePath h.ids _ _).insert _ _
  paths := by
    rw [insert_byPath]
    refine Table.Distinct.insert (distinct_displaceId ?_ _ _) _ _
    rw [displacePath_byPath]
    exact h.paths
  byId id other := by
    rw [insert_byId, Table.get?_insert, EntrySet.mem_add]
    by_cases hid : id = entry.id
    · rw [if_pos hid]
      constructor
      · rintro heq
        cases heq
        exact ⟨.inl rfl, hid.symm⟩
      · rintro ⟨rfl | ⟨-, hne, -⟩, hother⟩
        · rfl
        · exact absurd (hother.trans hid) hne
    · rw [if_neg hid, displacePath_get?]
      -- the entry with this identifier was put out if it is the one at the path
      by_cases hout : r.byPath.get? entry.key = some id
      · rw [if_pos ⟨hout, hid⟩]
        obtain ⟨old, hold, hkey, rfl⟩ := (h.byPath _ _).mp hout
        refine ⟨nofun, fun ⟨hmem, hother⟩ => ?_⟩
        rcases hmem with rfl | ⟨hmem, -, hne⟩
        · exact absurd hother.symm hid
        · rw [s.idUnique other hmem old hold hother] at hne
          exact absurd hkey hne
      · rw [if_neg fun hand => hout hand.1, h.byId]
        constructor
        · rintro ⟨hmem, rfl⟩
          refine ⟨.inr ⟨hmem, hid, fun hkey => hout ?_⟩, rfl⟩
          rw [← hkey]
          exact h.byPath_key hmem
        · rintro ⟨rfl | ⟨hmem, -, -⟩, hother⟩
          · exact absurd hother.symm hid
          · exact ⟨hmem, hother⟩
  byPath key id := by
    rw [insert_byPath, Table.get?_insert]
    by_cases hkey : key = entry.key
    · rw [if_pos hkey, Option.some.injEq]
      constructor
      · rintro rfl
        exact ⟨entry, EntrySet.mem_add.mpr (.inl rfl), hkey.symm, rfl⟩
      · rintro ⟨other, hmem, hother, rfl⟩
        rcases EntrySet.mem_add.mp hmem with rfl | ⟨-, -, hne⟩
        · rfl
        · exact absurd (hother.trans hkey) hne
    · rw [if_neg hkey, displaceId_get?, displacePath_byPath, displacePath_get?_self]
      -- the path was forgotten if the entry there has the identifier
      by_cases hout : (r.byId.get? entry.id).map (·.key) = some key
      · rw [if_pos ⟨hout, hkey⟩]
        obtain ⟨stale, hstale, rfl⟩ := Option.map_eq_some_iff.mp hout
        obtain ⟨hmem, hid⟩ := (h.byId _ _).mp hstale
        refine ⟨nofun, fun ⟨other, hother, hsame, _⟩ => ?_⟩
        rcases EntrySet.mem_add.mp hother with rfl | ⟨hother, hne, -⟩
        · exact absurd hsame.symm hkey
        · rw [s.keyUnique other hother stale hmem hsame] at hne
          exact absurd hid hne
      · rw [if_neg fun hand => hout hand.1, h.byPath]
        constructor
        · rintro ⟨other, hmem, rfl, rfl⟩
          refine ⟨other, EntrySet.mem_add.mpr (.inr ⟨hmem, fun hid => ?_, hkey⟩), rfl, rfl⟩
          exact hout (Option.map_eq_some_iff.mpr ⟨other, (h.byId _ _).mpr ⟨hmem, hid⟩, rfl⟩)
        · rintro ⟨other, hmem, hother, rfl⟩
          rcases EntrySet.mem_add.mp hmem with rfl | ⟨hmem, -, -⟩
          · exact absurd hother.symm hkey
          · exact ⟨other, hmem, hother, rfl⟩

/-! ## Taking entries away -/

theorem Holds.erase (h : r.Holds s) {old : Entry} (hold : old ∈ s) :
    Registry.Holds ⟨r.byId.erase old.id, r.byPath.erase old.key⟩ (s.without (· = old)) where
  ids := h.ids.erase _
  paths := h.paths.erase _
  byId id entry := by
    rw [Table.get?_erase, EntrySet.mem_without]
    by_cases hid : id = old.id
    · rw [if_pos hid]
      refine ⟨nofun, fun ⟨⟨hmem, hne⟩, hentry⟩ => ?_⟩
      exact absurd (s.idUnique entry hmem old hold (hentry.trans hid)) hne
    · rw [if_neg hid, h.byId]
      refine ⟨fun ⟨hmem, hentry⟩ => ⟨⟨hmem, fun heq => ?_⟩, hentry⟩, fun ⟨⟨hmem, _⟩, hentry⟩ =>
        ⟨hmem, hentry⟩⟩
      exact hid (hentry.symm.trans (congrArg _ heq))
  byPath key id := by
    rw [Table.get?_erase]
    by_cases hkey : key = old.key
    · rw [if_pos hkey]
      refine ⟨nofun, fun ⟨entry, hmem, hentry, _⟩ => ?_⟩
      obtain ⟨hmem, hne⟩ := EntrySet.mem_without.mp hmem
      exact absurd (s.keyUnique entry hmem old hold (hentry.trans hkey)) hne
    · rw [if_neg hkey, h.byPath]
      constructor
      · rintro ⟨entry, hmem, rfl, rfl⟩
        exact ⟨entry, EntrySet.mem_without.mpr ⟨hmem, fun heq => hkey (congrArg _ heq)⟩, rfl, rfl⟩
      · rintro ⟨entry, hmem, hentry, hid⟩
        exact ⟨entry, (EntrySet.mem_without.mp hmem).1, hentry, hid⟩

theorem Holds.remove (h : r.Holds s) (key : PathKey) :
    (∀ entry, (r.remove key).1 = some entry ↔ entry ∈ s ∧ entry.key = key) ∧
      (r.remove key).2.Holds (s.without (·.key = key)) := by
  unfold Registry.remove
  cases hid : r.byPath.get? key with
  | none =>
    have hnone := h.byPath_none.mp hid
    rw [EntrySet.without_eq_self hnone]
    exact ⟨fun entry => ⟨nofun, fun ⟨hmem, hkey⟩ => absurd hkey (hnone entry hmem)⟩, h⟩
  | some id =>
    obtain ⟨old, hold, rfl, rfl⟩ := (h.byPath key id).mp hid
    have hsame : s.without (·.key = old.key) = s.without (· = old) :=
      EntrySet.without_congr fun entry hmem =>
        ⟨s.keyUnique entry hmem old hold, fun heq => congrArg _ heq⟩
    rw [hsame]
    refine ⟨fun entry => ?_, h.erase hold⟩
    simp only [h.byId]
    constructor
    · rintro ⟨hmem, heq⟩
      exact ⟨hmem, by rw [s.idUnique entry hmem old hold heq]⟩
    · rintro ⟨hmem, heq⟩
      exact ⟨hmem, by rw [s.keyUnique entry hmem old hold heq]⟩

theorem Holds.removeIfCurrent (h : r.Holds s) (key : PathKey) (expected : EntryId) :
    ((r.removeIfCurrent key expected).1 = true ↔
      ∃ entry ∈ s, entry.key = key ∧ entry.id = expected) ∧
      (r.removeIfCurrent key expected).2.Holds
        (s.without fun entry => entry.key = key ∧ entry.id = expected) := by
  unfold Registry.removeIfCurrent
  by_cases hcurrent : r.byPath.get? key = some expected
  · obtain ⟨old, hold, rfl, rfl⟩ := (h.byPath _ _).mp hcurrent
    obtain ⟨hremoved, hholds⟩ := h.remove old.key
    have hsame : s.without (fun entry => entry.key = old.key ∧ entry.id = old.id) =
        s.without (·.key = old.key) :=
      EntrySet.without_congr fun entry hmem => and_iff_left_of_imp fun heq => by
        rw [s.keyUnique entry hmem old hold heq]
    rw [if_pos hcurrent, hsame]
    refine ⟨?_, hholds⟩
    show (r.remove old.key).1.isSome = true ↔ _
    rw [(hremoved old).mpr ⟨hold, rfl⟩]
    exact ⟨fun _ => ⟨old, hold, rfl, rfl⟩, fun _ => rfl⟩
  · have hnone : ¬ ∃ entry ∈ s, entry.key = key ∧ entry.id = expected := fun hsome =>
      hcurrent ((h.byPath _ _).mpr hsome)
    rw [if_neg hcurrent, EntrySet.without_eq_self fun entry hmem heq => hnone ⟨entry, hmem, heq⟩]
    exact ⟨⟨nofun, fun hsome => absurd hsome hnone⟩, h⟩

end Registry

/-! ## The two parts of a scan -/

/-- What a scan is going to do to a set. -/
structure Plan where
  volume : VolumeId
  /-- The paths without a file, and the identifiers that they had. -/
  gone : Finset (PathKey × EntryId)
  fresh : List Found
  unchanged : Nat

/-- What a difference is going to do. -/
def Difference.plan (d : Difference) (volume : VolumeId) : Plan :=
  ⟨volume, d.gone.toFinset, d.fresh, d.unchanged⟩

namespace EntrySet

/-- Compares what was found on a volume with the entries. -/
def plan (s : EntrySet) (volume : VolumeId) (found : List Found) : Plan :=
  let fresh := found.filter fun f => ¬ s.HasKey (.of volume f.path)
  { volume := volume
    gone := (s.entries.filter fun entry => entry.volume = volume ∧
      ∀ f ∈ found, entry.key ≠ .of volume f.path).image fun entry => (entry.key, entry.id)
    fresh := fresh
    unchanged := found.length - fresh.length }

/-- Puts the files in at whose paths there is no entry; how many there are. -/
def addFresh (s : EntrySet) (ids : IdSource) (volume : VolumeId) :
    List Found → Nat × EntrySet × IdSource
  | [] => (0, s, ids)
  | f :: rest =>
    if s.HasKey (.of volume f.path) then addFresh s ids volume rest
    else
      let (id, ids) := ids.next
      let (count, s, ids) := addFresh (s.add (.ofFile id volume f.path f.size)) ids volume rest
      (1 + count, s, ids)

/-- Carries a plan out: the entries that still are as they were when it was made are taken away,
then the files are put in. -/
def carryOut (s : EntrySet) (ids : IdSource) (plan : Plan) : ScanSummary × EntrySet × IdSource :=
  let removed := (s.entries.filter fun entry => (entry.key, entry.id) ∈ plan.gone).card
  let (added, s, ids) :=
    (s.without fun entry => (entry.key, entry.id) ∈ plan.gone).addFresh ids plan.volume plan.fresh
  (⟨added, removed, plan.unchanged⟩, s, ids)

end EntrySet

namespace Registry.Holds

variable {r : Registry} {s : EntrySet}

theorem isGone_iff (volume : VolumeId) (found : List Found) (entry : Entry) :
    isGone volume found entry.key = true ↔
      entry.volume = volume ∧ ∀ f ∈ found, entry.key ≠ .of volume f.path := by
  unfold isGone
  rw [Bool.and_eq_true, decide_eq_true_iff, Bool.not_eq_true', List.any_eq_false]
  refine and_congr_right fun hvolume => forall₂_congr fun f _ => ?_
  subst hvolume
  rw [beq_iff_eq]
  exact not_congr ⟨fun heq => congrArg (PathKey.mk entry.volume) heq.symm,
    fun heq => (congrArg PathKey.steps heq).symm⟩

theorem plan_eq (h : r.Holds s) (volume : VolumeId) (found : List Found) :
    (Difference.of r volume found).plan volume = s.plan volume found := by
  have hfresh : (found.filter fun f => ¬ r.byPath.has (.of volume f.path)) =
      found.filter fun f => ¬ s.HasKey (.of volume f.path) :=
    List.filter_congr fun f _ => by simp only [h.has_byPath]
  have hgone : (r.byPath.pairs.filter fun pair => isGone volume found pair.1).toFinset =
      (s.entries.filter fun entry => entry.volume = volume ∧
        ∀ f ∈ found, entry.key ≠ .of volume f.path).image fun entry => (entry.key, entry.id) := by
    ext ⟨key, id⟩
    rw [List.mem_toFinset, List.mem_filter, ← h.paths.get?_eq_some, h.byPath, Finset.mem_image]
    constructor
    · rintro ⟨⟨entry, hmem, rfl, rfl⟩, hgone⟩
      exact ⟨entry, Finset.mem_filter.mpr ⟨hmem, (isGone_iff volume found entry).mp hgone⟩, rfl⟩
    · rintro ⟨entry, hmem, heq⟩
      obtain ⟨hmem, hgone⟩ := Finset.mem_filter.mp hmem
      cases heq
      exact ⟨⟨entry, hmem, rfl, rfl⟩, (isGone_iff volume found entry).mpr hgone⟩
  unfold Difference.of Difference.plan EntrySet.plan
  simp only [hfresh, hgone]

theorem card_current (h : r.Holds s) (key : PathKey) (id : EntryId) :
    (s.entries.filter fun entry => entry.key = key ∧ entry.id = id).card =
      if (r.removeIfCurrent key id).1 then 1 else 0 := by
  by_cases hdone : (r.removeIfCurrent key id).1 = true
  · obtain ⟨old, hold, rfl, rfl⟩ := (h.removeIfCurrent key id).1.mp hdone
    rw [if_pos hdone, Finset.card_eq_one]
    refine ⟨old, Finset.ext fun entry => ?_⟩
    rw [Finset.mem_filter, Finset.mem_singleton]
    constructor
    · rintro ⟨hmem, hkey, -⟩
      exact s.keyUnique entry hmem old hold hkey
    · rintro rfl
      exact ⟨hold, rfl, rfl⟩
  · rw [if_neg hdone, Finset.card_eq_zero, Finset.filter_eq_empty_iff]
    intro entry hmem hboth
    exact hdone ((h.removeIfCurrent key id).1.mpr ⟨entry, hmem, hboth⟩)

theorem removeGone (h : r.Holds s) (gone : List (PathKey × EntryId)) :
    (Catalog.removeGone r gone).1 =
        (s.entries.filter fun entry => (entry.key, entry.id) ∈ gone).card ∧
      (Catalog.removeGone r gone).2.Holds
        (s.without fun entry => (entry.key, entry.id) ∈ gone) := by
  induction gone generalizing r s with
  | nil =>
    rw [EntrySet.without_eq_self fun entry _ => List.not_mem_nil]
    refine ⟨?_, h⟩
    simp [Catalog.removeGone]
  | cons first rest ih =>
    obtain ⟨key, id⟩ := first
    obtain ⟨hcount, hholds⟩ := ih (h.removeIfCurrent key id).2
    have hmem : ∀ entry : Entry, (entry.key, entry.id) ∈ (key, id) :: rest ↔
        (entry.key = key ∧ entry.id = id) ∨ (entry.key, entry.id) ∈ rest := fun entry => by
      rw [List.mem_cons, Prod.mk.injEq]
    rw [EntrySet.without_without] at hholds
    refine ⟨?_, ?_⟩
    · have hdisjoint : Disjoint
          (s.entries.filter fun entry => entry.key = key ∧ entry.id = id)
          ((s.without fun entry => entry.key = key ∧ entry.id = id).entries.filter
            fun entry => (entry.key, entry.id) ∈ rest) := by
        rw [Finset.disjoint_left]
        intro entry hfirst hlater
        exact (Finset.mem_filter.mp (Finset.mem_filter.mp hlater).1).2 (Finset.mem_filter.mp hfirst).2
      calc (Catalog.removeGone r ((key, id) :: rest)).1
          = (if (r.removeIfCurrent key id).1 then 1 else 0) +
              (Catalog.removeGone (r.removeIfCurrent key id).2 rest).1 := rfl
        _ = (s.entries.filter fun entry => entry.key = key ∧ entry.id = id).card +
              ((s.without fun entry => entry.key = key ∧ entry.id = id).entries.filter
                fun entry => (entry.key, entry.id) ∈ rest).card := by
            rw [h.card_current, hcount]
        _ = _ := (Finset.card_union_of_disjoint hdisjoint).symm
        _ = _ := by
            refine congrArg Finset.card (Finset.ext fun entry => ?_)
            rw [Finset.mem_union, Finset.mem_filter, Finset.mem_filter, Finset.mem_filter, hmem]
            simp only [EntrySet.mem_entries, EntrySet.mem_without]
            tauto
    · rw [EntrySet.without_congr fun entry _ => hmem entry]
      exact hholds

theorem addFresh (h : r.Holds s) (ids : IdSource) (volume : VolumeId) (fresh : List Found) :
    (Catalog.addFresh r ids volume fresh).1 = (s.addFresh ids volume fresh).1 ∧
      (Catalog.addFresh r ids volume fresh).2.2 = (s.addFresh ids volume fresh).2.2 ∧
      (Catalog.addFresh r ids volume fresh).2.1.Holds (s.addFresh ids volume fresh).2.1 := by
  induction fresh generalizing r s ids with
  | nil => exact ⟨rfl, rfl, h⟩
  | cons f rest ih =>
    simp only [Catalog.addFresh, EntrySet.addFresh, h.has_byPath]
    by_cases hkey : s.HasKey (.of volume f.path)
    · rw [if_pos hkey, if_pos hkey]
      exact ih h ids
    · rw [if_neg hkey, if_neg hkey]
      obtain ⟨hcount, hids, hholds⟩ :=
        ih (h.insert (.ofFile ids.next.1 volume f.path f.size)) ids.next.2
      exact ⟨congrArg (1 + ·) hcount, hids, hholds⟩

/-- Applying a difference does to the set what carrying out its plan does. -/
theorem apply (h : r.Holds s) (d : Difference) (ids : IdSource) (volume : VolumeId) :
    (d.apply r ids volume).1 = (s.carryOut ids (d.plan volume)).1 ∧
      (d.apply r ids volume).2.2 = (s.carryOut ids (d.plan volume)).2.2 ∧
      (d.apply r ids volume).2.1.Holds (s.carryOut ids (d.plan volume)).2.1 := by
  obtain ⟨hremoved, hkept⟩ := h.removeGone d.gone
  have hsame : (s.without fun entry => (entry.key, entry.id) ∈ d.gone) =
      s.without fun entry => (entry.key, entry.id) ∈ (d.plan volume).gone :=
    EntrySet.without_congr fun entry _ => List.mem_toFinset.symm
  rw [hsame] at hkept
  obtain ⟨hadded, hids, hholds⟩ := hkept.addFresh ids volume d.fresh
  refine ⟨?_, hids, hholds⟩
  unfold Difference.apply EntrySet.carryOut
  simp only [hadded, hremoved, Difference.plan, List.mem_toFinset]

end Registry.Holds

end MediaShelf.Catalog
