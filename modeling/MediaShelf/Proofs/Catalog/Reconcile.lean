import MediaShelf.Proofs.Catalog.Discovery
import MediaShelf.Proofs.Catalog.Plans

/-!
# A scan reconciles its volume

A scan that comes to its end leaves in its volume just the files that were found (`scan_reconciles`):
entries of files that are still there are not touched, other volumes are not either, and the summary
counts what was done. Nothing came between its two parts here, so a plan is carried out in the set
that it was made for.
-/

namespace MediaShelf.Catalog

open MediaShelf.Files

/-- The paths on a volume at which files were found. -/
def foundKeys (volume : VolumeId) (found : List Found) : Finset PathKey :=
  (found.map fun f => PathKey.of volume f.path).toFinset

theorem mem_foundKeys {volume : VolumeId} {found : List Found} {key : PathKey} :
    key ∈ foundKeys volume found ↔ ∃ f ∈ found, PathKey.of volume f.path = key := by
  rw [foundKeys, List.mem_toFinset, List.mem_map]

theorem volume_of_mem_foundKeys {volume : VolumeId} {found : List Found} {key : PathKey}
    (h : key ∈ foundKeys volume found) : key.volume = volume := by
  obtain ⟨f, -, rfl⟩ := mem_foundKeys.mp h
  rfl

theorem DistinctPaths.card_foundKeys {found : List Found} (h : DistinctPaths found)
    (volume : VolumeId) : (foundKeys volume found).card = found.length := by
  have hnodup : (found.map fun f => PathKey.of volume f.path).Nodup :=
    List.pairwise_map.mpr ((List.pairwise_map.mp h).imp fun hne heq =>
      hne (congrArg PathKey.steps heq))
  rw [foundKeys, List.toFinset_card_of_nodup hnodup, List.length_map]

namespace EntrySet

variable {s : EntrySet} {volume : VolumeId} {found : List Found}

def keysOf (s : EntrySet) (volume : VolumeId) : Finset PathKey :=
  (s.entries.filter (·.volume = volume)).image (·.key)

theorem mem_keysOf {key : PathKey} :
    key ∈ s.keysOf volume ↔ key.volume = volume ∧ s.HasKey key := by
  simp only [keysOf, Finset.mem_image, Finset.mem_filter, mem_entries]
  constructor
  · rintro ⟨entry, ⟨hmem, hvolume⟩, rfl⟩
    exact ⟨hvolume, entry, hmem, rfl⟩
  · rintro ⟨hvolume, entry, hmem, rfl⟩
    exact ⟨entry, ⟨hmem, hvolume⟩, rfl⟩

/-! ## What is absent, and what is lost -/

theorem absent_filter (files : List Found) :
    s.absent volume (files.filter fun f => ¬ s.HasKey (.of volume f.path)) =
      s.absent volume files := by
  induction files with
  | nil => rfl
  | cons f rest ih =>
    by_cases hhas : s.HasKey (.of volume f.path)
    · rw [List.filter_cons_of_neg (by simpa using hhas), ih, absent, if_pos hhas]
    · rw [List.filter_cons_of_pos (by simpa using hhas), absent, absent, if_neg hhas, if_neg hhas, ih]

theorem mem_absent (h : DistinctPaths found) {f : Found} (hf : f ∈ found)
    (hnone : ¬ s.HasKey (.of volume f.path)) : f ∈ s.absent volume found := by
  have hkey : PathKey.of volume f.path ∈ (s.absent volume found).map
      fun f => PathKey.of volume f.path :=
    (mem_keys_absent found).mpr ⟨List.mem_map_of_mem hf, hnone⟩
  obtain ⟨g, hg, heq⟩ := List.mem_map.mp hkey
  rw [← List.inj_on_of_nodup_map h (absent_subset found hg) hf (congrArg PathKey.steps heq)]
  exact hg

theorem mem_keys_unlisted {later : EntrySet} {key : PathKey} :
    key ∈ (s.unlisted later volume found).map (fun f => PathKey.of volume f.path) ↔
      key ∈ foundKeys volume found ∧ ¬ s.HasKey key ∧ ¬ later.HasKey key := by
  rw [unlisted, mem_keys_absent, mem_foundKeys, List.mem_map]
  simp only [List.mem_filter, decide_eq_true_iff]
  constructor
  · rintro ⟨⟨f, ⟨hf, hnone⟩, rfl⟩, hlater⟩
    exact ⟨⟨f, hf, rfl⟩, hnone, hlater⟩
  · rintro ⟨⟨f, hf, rfl⟩, hnone, hlater⟩
    exact ⟨⟨f, ⟨hf, hnone⟩, rfl⟩, hlater⟩

theorem mem_unlisted (h : DistinctPaths found) {later : EntrySet} {f : Found} (hf : f ∈ found)
    (hnone : ¬ s.HasKey (.of volume f.path)) (hlater : ¬ later.HasKey (.of volume f.path)) :
    f ∈ s.unlisted later volume found :=
  mem_absent (h.sublist (List.filter_sublist.map _))
    (List.mem_filter.mpr ⟨hf, decide_eq_true hnone⟩) hlater

theorem length_absent : (s.absent volume found).length =
    (foundKeys volume found \ s.keysOf volume).card := by
  have hkeys : ((s.absent volume found).map fun f => PathKey.of volume f.path).toFinset =
      foundKeys volume found \ s.keysOf volume := by
    ext key
    rw [List.mem_toFinset, mem_keys_absent, Finset.mem_sdiff, foundKeys, List.mem_toFinset,
      mem_keysOf, not_and]
    refine and_congr_right fun hfound => ⟨fun hnone _ => hnone, fun hnone => hnone ?_⟩
    exact volume_of_mem_foundKeys (List.mem_toFinset.mpr hfound)
  rw [← hkeys, List.toFinset_card_of_nodup (nodup_keys_absent found), List.length_map]

/-- The lost entries are those whose paths were not found, and that were in the set with which the
volume was compared. -/
theorem lost_iff_foundKeys {entry : Entry} :
    s.Lost volume found entry ↔ entry.volume = volume ∧ entry.key ∉ foundKeys volume found ∧
      ∃ old ∈ s, old.key = entry.key ∧ old.id = entry.id := by
  rw [Lost, mem_foundKeys, and_assoc]
  refine and_congr_right fun _ => and_congr_left fun _ => ?_
  rw [not_exists]
  exact forall_congr' fun f => ⟨fun h hf => h hf.1 hf.2.symm, fun h hf heq => h ⟨hf, heq.symm⟩⟩

theorem lost_iff {entry : Entry} (hmem : entry ∈ s) :
    s.Lost volume found entry ↔ entry.volume = volume ∧ entry.key ∉ foundKeys volume found := by
  rw [lost_iff_foundKeys, ← and_assoc]
  exact and_iff_left ⟨entry, hmem, rfl, rfl⟩

theorem card_lost : (s.entries.filter fun entry => s.Lost volume found entry).card =
    (s.keysOf volume \ foundKeys volume found).card := by
  have hkeys : s.keysOf volume \ foundKeys volume found =
      (s.entries.filter fun entry => s.Lost volume found entry).image (·.key) := by
    ext key
    simp only [Finset.mem_sdiff, mem_keysOf, Finset.mem_image, Finset.mem_filter, mem_entries]
    constructor
    · rintro ⟨⟨hvolume, entry, hmem, rfl⟩, hnone⟩
      exact ⟨entry, ⟨hmem, (lost_iff hmem).mpr ⟨hvolume, hnone⟩⟩, rfl⟩
    · rintro ⟨entry, ⟨hmem, hlost⟩, rfl⟩
      obtain ⟨hvolume, hnone⟩ := (lost_iff hmem).mp hlost
      exact ⟨⟨hvolume, entry, hmem, rfl⟩, hnone⟩
  rw [hkeys, Finset.card_image_of_injOn]
  intro a ha b hb hkey
  exact s.keyUnique a (Finset.mem_filter.mp ha).1 b (Finset.mem_filter.mp hb).1 hkey

theorem unchanged_plan (h : DistinctPaths found) : (s.plan volume found).unchanged =
    (foundKeys volume found ∩ s.keysOf volume).card := by
  have hfresh : (found.filter fun f => ¬ s.HasKey (.of volume f.path)).length =
      (foundKeys volume found \ s.keysOf volume).card := by
    have hnodup : DistinctPaths (found.filter fun f => ¬ s.HasKey (.of volume f.path)) :=
      h.sublist (List.filter_sublist.map _)
    rw [← hnodup.card_foundKeys volume]
    congr 1
    ext key
    simp only [mem_foundKeys, Finset.mem_sdiff, mem_keysOf, List.mem_filter, decide_eq_true_iff]
    constructor
    · rintro ⟨f, ⟨hf, hnone⟩, rfl⟩
      exact ⟨⟨f, hf, rfl⟩, fun hhas => hnone hhas.2⟩
    · rintro ⟨⟨f, hf, rfl⟩, hnone⟩
      exact ⟨f, ⟨hf, fun hhas => hnone ⟨rfl, hhas⟩⟩, rfl⟩
  have hcard := Finset.card_inter_add_card_sdiff (foundKeys volume found) (s.keysOf volume)
  rw [h.card_foundKeys volume] at hcard
  show found.length - _ = _
  rw [hfresh]
  omega

theorem summary_eq {ids : IdSource} (h : DistinctPaths found)
    (hids : ids.Fresh s.HasId (s.carryOut ids (s.plan volume found)).1.added) :
    (s.carryOut ids (s.plan volume found)).1 =
      ⟨(foundKeys volume found \ s.keysOf volume).card,
        (s.keysOf volume \ foundKeys volume found).card,
        (foundKeys volume found ∩ s.keysOf volume).card⟩ := by
  rw [(carryOut_spec hids).1, unlisted, absent_filter, length_absent, card_lost, unchanged_plan h]

theorem mem_carryOut_plan {ids : IdSource} {entry : Entry}
    (hids : ids.Fresh s.HasId (s.carryOut ids (s.plan volume found)).1.added) :
    entry ∈ (s.carryOut ids (s.plan volume found)).2.1 ↔
      (entry ∈ s ∧ ¬ s.Lost volume found entry) ∨
        Numbered ids volume (s.absent volume found) entry := by
  have hmem := (carryOut_spec hids).2 entry
  rwa [unlisted, absent_filter] at hmem

/-- Where a scan has left what was not lost and put in what was absent, there are entries just where
files were found. -/
theorem keysOf_eq_foundKeys {last : EntrySet} {ids : IdSource} (h : DistinctPaths found)
    (hentries : ∀ entry : Entry, entry.volume = volume → (entry ∈ last ↔
      (entry ∈ s ∧ ¬ s.Lost volume found entry) ∨
        Numbered ids volume (s.absent volume found) entry)) :
    last.keysOf volume = foundKeys volume found := by
  ext key
  rw [mem_keysOf]
  constructor
  · rintro ⟨hvolume, entry, hentry, rfl⟩
    rcases (hentries entry hvolume).mp hentry with ⟨hold, hnot⟩ | ⟨n, f, hf, rfl⟩
    · by_contra hnone
      exact hnot ((lost_iff hold).mpr ⟨hvolume, hnone⟩)
    · exact mem_foundKeys.mpr ⟨f, absent_subset found (List.mem_of_getElem? hf), rfl⟩
  · intro hkey
    refine ⟨volume_of_mem_foundKeys hkey, ?_⟩
    obtain ⟨f, hf, rfl⟩ := mem_foundKeys.mp hkey
    by_cases hhas : s.HasKey (.of volume f.path)
    · obtain ⟨entry, hold, heq⟩ := hhas
      refine ⟨entry, (hentries entry (congrArg PathKey.volume heq)).mpr
        (.inl ⟨hold, fun hlost => ?_⟩), heq⟩
      exact ((lost_iff hold).mp hlost).2 (heq ▸ hkey)
    · obtain ⟨n, hn⟩ := List.mem_iff_getElem?.mp (mem_absent h hf hhas)
      exact ⟨_, (hentries (.ofFile _ volume f.path f.size) rfl).mpr (.inr ⟨n, f, hn, rfl⟩), rfl⟩

theorem keysOf_carryOut_plan {ids : IdSource} (h : DistinctPaths found)
    (hids : ids.Fresh s.HasId (s.carryOut ids (s.plan volume found)).1.added) :
    (s.carryOut ids (s.plan volume found)).2.1.keysOf volume = foundKeys volume found :=
  keysOf_eq_foundKeys h fun _ _ => mem_carryOut_plan hids

end EntrySet

/-! ## Scans -/

/-- A catalog before and after a scan of a volume, by which some files were found. -/
structure Reconciled (before : Registry) (volume : VolumeId) (found : List Found)
    (outcome : ScanOutcome) (after : Registry) : Prop where
  consistent : after.Consistent
  /-- There are entries just where files were found. -/
  paths : after.keysOf volume = foundKeys volume found
  /-- Entries of files that are still there are left as they were. -/
  kept : ∀ entry ∈ before, entry.key ∈ foundKeys volume found → entry ∈ after
  /-- Each other file has one entry, which is new and is named by the path. -/
  fresh : ∀ f ∈ found, PathKey.of volume f.path ∉ before.keysOf volume →
    ∃ id, ¬ before.HasId id ∧ ∀ entry, entry ∈ after ∧ entry.key = .of volume f.path ↔
      entry = .ofFile id volume f.path f.size
  others : ∀ entry, entry.volume ≠ volume → (entry ∈ after ↔ entry ∈ before)
  summary : outcome = .ok (some
    ⟨(foundKeys volume found \ before.keysOf volume).card,
      (before.keysOf volume \ foundKeys volume found).card,
      (foundKeys volume found ∩ before.keysOf volume).card⟩)
  /-- A second scan that finds the same paths changes nothing. -/
  again : ∀ (ids : IdSource) (found' : List Found), DistinctPaths found' →
    foundKeys volume found' = foundKeys volume found →
    reconcile after ids volume (.ok (some found')) =
      (.ok (some ⟨0, 0, (foundKeys volume found).card⟩), after, ids)

namespace Registry

variable {r : Registry} {s : EntrySet} {volume : VolumeId} {found : List Found}

theorem Holds.keysOf_eq (h : r.Holds s) : r.keysOf volume = s.keysOf volume := by
  ext key
  rw [h.mem_keysOf, EntrySet.mem_keysOf]

/-- A scan does to the set of entries what making a plan and carrying it out does. -/
theorem Holds.reconcile (h : r.Holds s) (ids : IdSource) (volume : VolumeId) (found : List Found) :
    (reconcile r ids volume (.ok (some found))).1 =
        .ok (some (s.carryOut ids (s.plan volume found)).1) ∧
      (reconcile r ids volume (.ok (some found))).2.2 =
        (s.carryOut ids (s.plan volume found)).2.2 ∧
      (reconcile r ids volume (.ok (some found))).2.1.Holds
        (s.carryOut ids (s.plan volume found)).2.1 := by
  have happly := h.apply (Difference.of r volume found) ids volume
  rw [h.plan_eq] at happly
  exact ⟨congrArg (fun summary => (.ok (some summary) : ScanOutcome)) happly.1, happly.2⟩

theorem Holds.reconcile_idle (h : r.Holds s) (hdistinct : DistinctPaths found)
    (hpaths : s.keysOf volume = foundKeys volume found) (ids : IdSource) :
    Catalog.reconcile r ids volume (.ok (some found)) =
      (.ok (some ⟨0, 0, (foundKeys volume found).card⟩), r, ids) := by
  have hfresh : (Difference.of r volume found).fresh = [] := by
    refine List.filter_eq_nil_iff.mpr fun f hf => ?_
    have hkey : PathKey.of volume f.path ∈ s.keysOf volume :=
      hpaths ▸ mem_foundKeys.mpr ⟨f, hf, rfl⟩
    simpa using h.has_byPath.mpr (EntrySet.mem_keysOf.mp hkey).2
  have hgone : (Difference.of r volume found).gone = [] := by
    refine List.filter_eq_nil_iff.mpr fun pair hpair hgone => ?_
    obtain ⟨key, id⟩ := pair
    obtain ⟨entry, hmem, rfl, rfl⟩ := (h.byPath _ _).mp (h.paths.get?_eq_some.mpr hpair)
    obtain ⟨hvolume, hnone⟩ := (Registry.Holds.isGone_iff volume found entry).mp hgone
    have hkey : entry.key ∈ s.keysOf volume := EntrySet.mem_keysOf.mpr ⟨hvolume, entry, hmem, rfl⟩
    obtain ⟨f, hf, heq⟩ := mem_foundKeys.mp (hpaths ▸ hkey)
    exact hnone f hf heq.symm
  have hunchanged : (Difference.of r volume found).unchanged = (foundKeys volume found).card := by
    have hall : (Difference.of r volume found).unchanged =
        found.length - (Difference.of r volume found).fresh.length := rfl
    rw [hall, hfresh, hdistinct.card_foundKeys, List.length_nil, Nat.sub_zero]
  unfold Catalog.reconcile Difference.apply
  simp only [hgone, hfresh, hunchanged, Catalog.removeGone, Catalog.addFresh]

theorem Holds.reconciled (h : r.Holds s) {ids : IdSource} (hdistinct : DistinctPaths found)
    (hids : ids.FreshUntil (Catalog.reconcile r ids volume (.ok (some found))).2.2 r.HasId) :
    Reconciled r volume found (Catalog.reconcile r ids volume (.ok (some found))).1
      (Catalog.reconcile r ids volume (.ok (some found))).2.1 := by
  obtain ⟨houtcome, hlater, hholds⟩ := h.reconcile ids volume found
  rw [IdSource.FreshUntil, hlater, EntrySet.carryOut_ids, IdSource.skip_drawn,
    Nat.add_sub_cancel_left] at hids
  have hfresh : ids.Fresh s.HasId (s.carryOut ids (s.plan volume found)).1.added :=
    hids.mono (Nat.le_refl _) fun id => h.hasId.mpr
  have hmem : ∀ entry, entry ∈ (s.carryOut ids (s.plan volume found)).2.1 ↔
      (entry ∈ s ∧ ¬ s.Lost volume found entry) ∨
        EntrySet.Numbered ids volume (s.absent volume found) entry := fun _ =>
    EntrySet.mem_carryOut_plan hfresh
  have hpaths := EntrySet.keysOf_carryOut_plan hdistinct hfresh
  have hcount : (s.carryOut ids (s.plan volume found)).1.added = (s.absent volume found).length := by
    rw [(EntrySet.carryOut_spec hfresh).1, EntrySet.unlisted, EntrySet.absent_filter]
  exact {
    consistent := hholds.consistent
    paths := hholds.keysOf_eq.trans hpaths
    kept := fun entry hbefore hkey => by
      rw [hholds.mem, hmem]
      have hold := h.mem.mp hbefore
      exact .inl ⟨hold, fun hlost => ((EntrySet.lost_iff hold).mp hlost).2 hkey⟩
    fresh := fun f hf hnone => by
      have hlacks : ¬ s.HasKey (.of volume f.path) := fun hhas =>
        hnone (h.mem_keysOf.mpr ⟨rfl, hhas⟩)
      have hnew := EntrySet.exists_of_numbered (hcount ▸ hfresh)
        (fun entry hnumbered => (hmem entry).mpr (.inr hnumbered))
        (EntrySet.mem_absent hdistinct hf hlacks)
      simpa only [h.hasId, hholds.mem] using hnew
    others := fun entry hvolume => by
      rw [hholds.mem, hmem, h.mem]
      constructor
      · rintro (⟨hold, -⟩ | ⟨n, f, -, rfl⟩)
        · exact hold
        · exact absurd rfl hvolume
      · intro hold
        exact .inl ⟨hold, fun hlost => hvolume hlost.1.1⟩
    summary := by
      rw [houtcome, h.keysOf_eq, EntrySet.summary_eq hdistinct hfresh]
    again := fun ids' found' hdistinct' hsame => by
      rw [← hsame] at hpaths ⊢
      exact hholds.reconcile_idle hdistinct' hpaths ids' }

end Registry

/-- **Reconciliation.** A scan that comes to its end reconciles its volume, whichever files it found
and whatever was in the catalog, if the identifiers that it hands out are new and different. What a
walk finds are different files, and scanning a volume is reconciling it with what the walk found. -/
theorem scan_reconciles (r : Registry) (hr : r.Consistent) (ids : IdSource) (volume : VolumeId) :
    (∀ found, DistinctPaths found →
      let (outcome, after, later) := reconcile r ids volume (.ok (some found))
      ids.FreshUntil later r.HasId → Reconciled r volume found outcome after) ∧
    ∀ (tree : Tree) here root cancel found, tree.Sound → tree.Named →
      walkVolume tree here root cancel = .ok (some found) →
        DistinctPaths found ∧ scanVolume tree here r ids volume root cancel =
          reconcile r ids volume (.ok (some found)) := by
  obtain ⟨s, hs⟩ := hr.exists_holds
  refine ⟨fun found hdistinct hids => hs.reconciled hdistinct hids, ?_⟩
  intro tree here root cancel found hsound hnamed hwalk
  refine ⟨distinctPaths_walkVolume hsound hnamed hwalk, ?_⟩
  rw [scanVolume, hwalk]

/-- A catalog with files `a.mp4` and `g.mp4` of one volume, and another `a.mp4` of a second one. -/
def olderRegistry : Registry :=
  ((Registry.empty.insert (.ofFile ⟨1⟩ "v" [97, 46, 109, 112, 52] 5)).insert
    (.ofFile ⟨2⟩ "v" [103, 46, 109, 112, 52] 5)).insert (.ofFile ⟨3⟩ "w" [97, 46, 109, 112, 52] 5)

theorem olderRegistry_consistent : olderRegistry.Consistent :=
  (((Registry.holds_empty.insert _).insert _).insert _).consistent

/-- A root `/r` with files `a.mp4` and `n.mp4`. -/
def newerTree : Tree :=
  ⟨[([[114]], .folder), ([[114], [97, 46, 109, 112, 52]], .file 0),
    ([[114], [110, 46, 109, 112, 52]], .file 1)],
    [(0, ⟨[1, 2, 3], 0, ⟨0⟩⟩), (1, ⟨[7, 7], 0, ⟨0⟩⟩)], 2⟩

/-- One file has grown smaller, one is gone, and one is new. -/
theorem scan_reconciles_newer :
    Reconciled olderRegistry "v" [⟨[97, 46, 109, 112, 52], 3⟩, ⟨[110, 46, 109, 112, 52], 2⟩]
        (.ok (some ⟨1, 1, 1⟩))
        (scanVolume newerTree [] olderRegistry (.after ⟨9⟩) "v" [47, 114] none).2.1 := by
  obtain ⟨hscan, hwalk⟩ := scan_reconciles olderRegistry olderRegistry_consistent (.after ⟨9⟩) "v"
  obtain ⟨hdistinct, heq⟩ := hwalk newerTree [] [47, 114] none
    [⟨[97, 46, 109, 112, 52], 3⟩, ⟨[110, 46, 109, 112, 52], 2⟩] (by decide) (by decide) (by cbv)
  rw [heq]
  exact hscan _ hdistinct (by decide +kernel)

end MediaShelf.Catalog
