import MediaShelf.Proofs.Catalog.Changes

/-!
# Plans that are carried out late

A scan compares a volume with the catalog, and changes the catalog later. Whatever has become of the
catalog in between, carrying the plan out takes away just the entries that were lost at the
comparison and are still the same, and puts an entry in for each file whose path had none either time
(`EntrySet.carryOut_spec`). This needs fresh identifiers: an entry that is put in displaces none.
-/

namespace MediaShelf.Catalog

/-! ## Contents of a catalog -/

namespace Registry

instance : Membership Entry Registry := ⟨fun r entry => r.byId.get? entry.id = some entry⟩

instance (r : Registry) (entry : Entry) : Decidable (entry ∈ r) :=
  inferInstanceAs (Decidable (r.byId.get? entry.id = some entry))

def HasId (r : Registry) (id : EntryId) : Prop := (r.byId.get? id).isSome

instance (r : Registry) : DecidablePred r.HasId :=
  fun id => inferInstanceAs (Decidable ((r.byId.get? id).isSome = true))

def keysOf (r : Registry) (volume : VolumeId) : Finset PathKey :=
  ((r.byId.values.filter (·.volume = volume)).map (·.key)).toFinset

end Registry

namespace EntrySet

def HasId (s : EntrySet) (id : EntryId) : Prop := ∃ entry ∈ s, entry.id = id

end EntrySet

namespace Registry

variable {r : Registry} {s : EntrySet} {entry : Entry}

theorem Holds.mem (h : r.Holds s) : entry ∈ r ↔ entry ∈ s :=
  (h.byId entry.id entry).trans (and_iff_left rfl)

theorem Holds.hasId (h : r.Holds s) {id : EntryId} : r.HasId id ↔ s.HasId id := by
  unfold HasId EntrySet.HasId
  rw [Option.isSome_iff_exists]
  simp only [h.byId]

theorem Holds.mem_keysOf (h : r.Holds s) {volume : VolumeId} {key : PathKey} :
    key ∈ r.keysOf volume ↔ key.volume = volume ∧ s.HasKey key := by
  unfold keysOf
  rw [List.mem_toFinset, List.mem_map]
  simp only [List.mem_filter, ← List.mem_toFinset (l := r.byId.values), h.values_eq,
    EntrySet.mem_entries, decide_eq_true_iff]
  constructor
  · rintro ⟨entry, ⟨hmem, hvolume⟩, rfl⟩
    exact ⟨hvolume, entry, hmem, rfl⟩
  · rintro ⟨hvolume, entry, hmem, rfl⟩
    exact ⟨entry, ⟨hmem, hvolume⟩, rfl⟩

theorem Consistent.exists_holds (h : r.Consistent) : ∃ s, r.Holds s := by
  have hvalues : ∀ entry, entry ∈ r.byId.values.toFinset ↔ r.byId.get? entry.id = some entry := by
    intro entry
    rw [List.mem_toFinset]
    unfold Table.values
    rw [List.mem_map]
    constructor
    · rintro ⟨⟨id, found⟩, hpair, rfl⟩
      have hget := h.ids.get?_eq_some.mpr hpair
      rw [(h.byId id found hget).1]
      exact hget
    · intro hget
      exact ⟨_, h.ids.get?_eq_some.mp hget, rfl⟩
  refine ⟨⟨r.byId.values.toFinset, ?_, ?_⟩, h.ids, h.paths, ?_, ?_⟩
  · intro a ha b hb hid
    rw [hvalues] at ha hb
    rw [hid, hb] at ha
    exact (Option.some.inj ha).symm
  · intro a ha b hb hkey
    rw [hvalues] at ha hb
    have hpath := (h.byId _ a ha).2
    rw [hkey, (h.byId _ b hb).2, Option.some.injEq] at hpath
    rw [hpath, ha] at hb
    exact Option.some.inj hb
  · intro id entry
    rw [← EntrySet.mem_entries, hvalues]
    constructor
    · intro hget
      have hid := (h.byId id entry hget).1
      exact ⟨hid ▸ hget, hid⟩
    · rintro ⟨hget, rfl⟩
      exact hget
  · intro key id
    constructor
    · intro hget
      obtain ⟨entry, hentry, hid, hkey⟩ := h.byPath key id hget
      exact ⟨entry, (hvalues entry).mpr (hid ▸ hentry), hkey, hid⟩
    · rintro ⟨entry, hmem, rfl, rfl⟩
      exact (h.byId _ _ ((hvalues entry).mp hmem)).2

end Registry

/-! ## Fresh identifiers -/

namespace IdSource

/-- The next identifiers are all different, and none of them is taken. -/
structure Fresh (ids : IdSource) (taken : EntryId → Prop) (count : Nat) : Prop where
  unused : ∀ n < count, ¬ taken (ids.sequence (ids.drawn + n))
  distinct : ∀ n < count, ∀ m < n, ids.sequence (ids.drawn + m) ≠ ids.sequence (ids.drawn + n)

/-- The identifiers that were handed out from `ids` on until `later` are fresh. -/
def FreshUntil (ids later : IdSource) (taken : EntryId → Prop) : Prop :=
  ids.Fresh taken (later.drawn - ids.drawn)

def skip (ids : IdSource) (count : Nat) : IdSource := { ids with drawn := ids.drawn + count }

variable {ids : IdSource} {taken taken' : EntryId → Prop} {count : Nat}

instance [DecidablePred taken] : Decidable (ids.Fresh taken count) :=
  decidable_of_iff ((∀ n < count, ¬ taken (ids.sequence (ids.drawn + n))) ∧
      ∀ n < count, ∀ m < n, ids.sequence (ids.drawn + m) ≠ ids.sequence (ids.drawn + n))
    ⟨fun h => ⟨h.1, h.2⟩, fun h => ⟨h.unused, h.distinct⟩⟩

instance [DecidablePred taken] {later : IdSource} : Decidable (ids.FreshUntil later taken) :=
  inferInstanceAs (Decidable (ids.Fresh taken (later.drawn - ids.drawn)))

theorem next_eq (ids : IdSource) : ids.next = (ids.sequence ids.drawn, ids.skip 1) := rfl

theorem skip_skip (ids : IdSource) (m n : Nat) : (ids.skip m).skip n = ids.skip (m + n) := by
  simp [skip, Nat.add_assoc]

@[simp] theorem skip_drawn (ids : IdSource) (n : Nat) : (ids.skip n).drawn = ids.drawn + n := rfl

theorem Fresh.mono (h : ids.Fresh taken count) {fewer : Nat} (hle : fewer ≤ count)
    (htaken : ∀ id, taken' id → taken id) : ids.Fresh taken' fewer where
  unused n hn hused := h.unused n (by omega) (htaken _ hused)
  distinct n hn := h.distinct n (by omega)

/-- Behind the first identifiers, which may be taken now, the next ones are fresh. -/
theorem Fresh.skip (h : ids.Fresh taken count) {first : Nat} (hle : first ≤ count)
    (htaken : ∀ id, taken' id → taken id ∨ ∃ n < first, id = ids.sequence (ids.drawn + n)) :
    (ids.skip first).Fresh taken' (count - first) where
  unused n hn hused := by
    simp only [IdSource.skip, Nat.add_assoc] at hused
    rcases htaken _ hused with hold | ⟨m, hm, heq⟩
    · exact h.unused (first + n) (by omega) hold
    · exact h.distinct (first + n) (by omega) m (by omega) heq.symm
  distinct n hn m hm := by
    simp only [IdSource.skip, Nat.add_assoc]
    exact h.distinct (first + n) (by omega) (first + m) (by omega)

end IdSource

/-! ## New files -/

namespace EntrySet

/-- The files at whose paths there is no entry, the first one for each path. -/
def absent (s : EntrySet) (volume : VolumeId) : List Found → List Found
  | [] => []
  | f :: rest =>
    if s.HasKey (.of volume f.path) then s.absent volume rest
    else f :: (s.absent volume rest).filter fun g => PathKey.of volume g.path ≠ .of volume f.path

variable {s s' : EntrySet} {volume : VolumeId} {entry : Entry}

theorem absent_congr {files : List Found}
    (h : ∀ f ∈ files, s.HasKey (.of volume f.path) ↔ s'.HasKey (.of volume f.path)) :
    s.absent volume files = s'.absent volume files := by
  induction files with
  | nil => rfl
  | cons f rest ih =>
    rw [List.forall_mem_cons] at h
    simp only [absent, h.1, ih h.2]

theorem absent_of_hasKey {key : PathKey} (h : ∀ other, s'.HasKey other ↔ other = key ∨ s.HasKey other)
    (files : List Found) : s'.absent volume files =
      (s.absent volume files).filter fun g => PathKey.of volume g.path ≠ key := by
  induction files with
  | nil => rfl
  | cons f rest ih =>
    simp only [absent, h]
    by_cases hhas : s.HasKey (.of volume f.path)
    · rw [if_pos (.inr hhas), if_pos hhas, ih]
    · rw [if_neg hhas]
      by_cases hkey : PathKey.of volume f.path = key
      · -- the file at the path is passed over, and so are those behind it
        rw [if_pos (.inl hkey), ih, List.filter_cons_of_neg (by simpa using hkey), List.filter_filter,
          hkey]
        simp
      · rw [if_neg (by tauto), ih, List.filter_cons_of_pos (by simpa using hkey), List.filter_filter,
          List.filter_filter]
        simp only [Bool.and_comm]

theorem mem_keys_absent {key : PathKey} (files : List Found) :
    key ∈ (s.absent volume files).map (fun f => PathKey.of volume f.path) ↔
      key ∈ files.map (fun f => PathKey.of volume f.path) ∧ ¬ s.HasKey key := by
  induction files with
  | nil => simp [absent]
  | cons f rest ih =>
    have hfilter : key ∈ ((s.absent volume rest).filter fun g =>
          PathKey.of volume g.path ≠ .of volume f.path).map (fun f => PathKey.of volume f.path) ↔
        key ∈ (s.absent volume rest).map (fun f => PathKey.of volume f.path) ∧
          key ≠ .of volume f.path := by
      simp only [List.mem_map, List.mem_filter, decide_eq_true_iff]
      constructor
      · rintro ⟨g, ⟨hmem, hne⟩, rfl⟩
        exact ⟨⟨g, hmem, rfl⟩, hne⟩
      · rintro ⟨⟨g, hmem, rfl⟩, hne⟩
        exact ⟨g, ⟨hmem, hne⟩, rfl⟩
    unfold absent
    split
    case isTrue hhas =>
      rw [ih, List.map_cons, List.mem_cons]
      refine ⟨fun h => ⟨.inr h.1, h.2⟩, fun h => ⟨h.1.resolve_left fun heq => h.2 ?_, h.2⟩⟩
      rw [heq]
      exact hhas
    case isFalse hhas =>
      rw [List.map_cons, List.mem_cons, hfilter, ih, List.map_cons, List.mem_cons]
      by_cases hkey : key = .of volume f.path
      · rw [hkey]
        simp [hhas]
      · simp [hkey]

theorem nodup_keys_absent (files : List Found) :
    ((s.absent volume files).map fun f => PathKey.of volume f.path).Nodup := by
  induction files with
  | nil => exact List.nodup_nil
  | cons f rest ih =>
    unfold absent
    split
    · exact ih
    · rw [List.map_cons, List.nodup_cons]
      refine ⟨?_, ih.sublist (List.filter_sublist.map _)⟩
      simp [List.mem_map, List.mem_filter]

theorem absent_subset (files : List Found) : s.absent volume files ⊆ files := by
  induction files with
  | nil => exact fun _ h => h
  | cons f rest ih =>
    unfold absent
    split
    · exact fun g hg => List.mem_cons_of_mem f (ih hg)
    · refine List.cons_subset_cons f fun g hg => ih (List.mem_filter.mp hg).1

theorem hasKey_add (hid : ¬ s.HasId entry.id) (key : PathKey) :
    (s.add entry).HasKey key ↔ key = entry.key ∨ s.HasKey key := by
  constructor
  · rintro ⟨other, hmem, rfl⟩
    rcases mem_add.mp hmem with rfl | ⟨hmem, -, -⟩
    · exact .inl rfl
    · exact .inr ⟨other, hmem, rfl⟩
  · rintro (rfl | ⟨other, hmem, rfl⟩)
    · exact ⟨entry, mem_add.mpr (.inl rfl), rfl⟩
    · by_cases hkey : other.key = entry.key
      · exact ⟨entry, mem_add.mpr (.inl rfl), hkey.symm⟩
      · exact ⟨other, mem_add.mpr (.inr ⟨hmem, fun h => hid ⟨other, hmem, h⟩, hkey⟩), rfl⟩

/-- An entry whose identifier and path are both new displaces none. -/
theorem mem_add_of_new (hid : ¬ s.HasId entry.id) (hkey : ¬ s.HasKey entry.key) {other : Entry} :
    other ∈ s.add entry ↔ other = entry ∨ other ∈ s := by
  rw [mem_add]
  refine or_congr_right (and_iff_left_of_imp fun hmem => ⟨fun h => ?_, fun h => ?_⟩)
  · exact hid ⟨other, hmem, h⟩
  · exact hkey ⟨other, hmem, h⟩

/-- The entries of the files, with the identifiers from the source in turn. -/
def Numbered (ids : IdSource) (volume : VolumeId) (files : List Found) (entry : Entry) : Prop :=
  ∃ n f, files[n]? = some f ∧
    entry = .ofFile (ids.sequence (ids.drawn + n)) volume f.path f.size

theorem numbered_cons {ids : IdSource} {f : Found} {rest : List Found} :
    Numbered ids volume (f :: rest) entry ↔
      entry = .ofFile (ids.sequence ids.drawn) volume f.path f.size ∨
        Numbered (ids.skip 1) volume rest entry := by
  constructor
  · rintro ⟨n, g, hg, rfl⟩
    cases n with
    | zero => cases hg; exact .inl rfl
    | succ n =>
      refine .inr ⟨n, g, by simpa using hg, ?_⟩
      rw [IdSource.skip, Nat.add_right_comm, Nat.add_assoc]
  · rintro (rfl | ⟨n, g, hg, rfl⟩)
    · exact ⟨0, f, rfl, rfl⟩
    · refine ⟨n + 1, g, by simpa using hg, ?_⟩
      rw [IdSource.skip, Nat.add_right_comm, Nat.add_assoc]

theorem exists_of_numbered {last : EntrySet} {ids : IdSource} {files : List Found}
    {taken : EntryId → Prop} (hids : ids.Fresh taken files.length)
    (hlast : ∀ entry, Numbered ids volume files entry → entry ∈ last) {f : Found} (hf : f ∈ files) :
    ∃ id, ¬ taken id ∧ ∀ entry, entry ∈ last ∧ entry.key = .of volume f.path ↔
      entry = .ofFile id volume f.path f.size := by
  obtain ⟨n, hn⟩ := List.mem_iff_getElem?.mp hf
  have hmem := hlast (.ofFile (ids.sequence (ids.drawn + n)) volume f.path f.size) ⟨n, f, hn, rfl⟩
  refine ⟨_, hids.unused n (List.getElem?_eq_some_iff.mp hn).1, fun entry => ⟨?_, ?_⟩⟩
  · rintro ⟨hentry, hkey⟩
    exact last.keyUnique entry hentry _ hmem hkey
  · rintro rfl
    exact ⟨hmem, rfl⟩

theorem addFresh_ids (s : EntrySet) (ids : IdSource) (volume : VolumeId) (files : List Found) :
    (s.addFresh ids volume files).2.2 = ids.skip (s.addFresh ids volume files).1 := by
  induction files generalizing s ids with
  | nil => rfl
  | cons f rest ih =>
    unfold addFresh
    split
    · exact ih s ids
    · simp only [ih, IdSource.next_eq, IdSource.skip_skip]

/-- With fresh identifiers just the absent files are put in, and nothing is displaced. -/
theorem addFresh_spec {ids : IdSource} {files : List Found}
    (hids : ids.Fresh s.HasId (s.addFresh ids volume files).1) :
    (s.addFresh ids volume files).1 = (s.absent volume files).length ∧
      ∀ entry, entry ∈ (s.addFresh ids volume files).2.1 ↔
        entry ∈ s ∨ Numbered ids volume (s.absent volume files) entry := by
  induction files generalizing s ids with
  | nil => exact ⟨rfl, fun entry => by simp [addFresh, absent, Numbered]⟩
  | cons f rest ih =>
    unfold addFresh at hids ⊢
    unfold absent
    split at hids
    case isTrue hhas =>
      rw [if_pos hhas, if_pos hhas]
      exact ih hids
    case isFalse hhas =>
      rw [if_neg hhas, if_neg hhas]
      simp only [IdSource.next_eq] at hids ⊢
      generalize hfirst : Entry.ofFile (ids.sequence ids.drawn) volume f.path f.size = first at hids ⊢
      have hid : first.id = ids.sequence ids.drawn := by rw [← hfirst]; rfl
      have hkey : first.key = .of volume f.path := by rw [← hfirst]; rfl
      have hnew : ¬ s.HasId first.id := by
        rw [hid]
        exact hids.unused 0 (by omega)
      have hmem (other : Entry) : other ∈ s.add first ↔ other = first ∨ other ∈ s :=
        mem_add_of_new hnew (hkey ▸ hhas)
      have htaken : ∀ id, (s.add first).HasId id →
          s.HasId id ∨ ∃ n < 1, id = ids.sequence (ids.drawn + n) := by
        rintro id ⟨other, hother, rfl⟩
        rcases (hmem other).mp hother with rfl | hold
        · exact .inr ⟨0, Nat.one_pos, hid⟩
        · exact .inl ⟨other, hold, rfl⟩
      have hrest := hids.skip (by omega) htaken
      rw [Nat.add_sub_cancel_left] at hrest
      obtain ⟨hcount, hentries⟩ := ih hrest
      have habsent : (s.add first).absent volume rest =
          (s.absent volume rest).filter fun g => PathKey.of volume g.path ≠ first.key :=
        absent_of_hasKey (fun key => hasKey_add hnew key) rest
      rw [hkey] at habsent
      rw [habsent] at hcount hentries
      refine ⟨by rw [hcount, List.length_cons, Nat.add_comm], fun other => ?_⟩
      rw [hentries, hmem, numbered_cons, hfirst]
      tauto

/-! ## Carrying out a plan -/

/-- A scan that compared a volume with the set `s` did not find the path of an entry, which was in
the set then. -/
def Lost (s : EntrySet) (volume : VolumeId) (found : List Found) (entry : Entry) : Prop :=
  (entry.volume = volume ∧ ∀ f ∈ found, entry.key ≠ .of volume f.path) ∧
    ∃ old ∈ s, old.key = entry.key ∧ old.id = entry.id

theorem mem_gone {found : List Found} :
    (entry.key, entry.id) ∈ (s.plan volume found).gone ↔ s.Lost volume found entry := by
  simp only [plan, Finset.mem_image, Finset.mem_filter, mem_entries, Prod.mk.injEq, Lost]
  constructor
  · rintro ⟨old, ⟨hmem, hvolume, hlost⟩, hkey, hid⟩
    refine ⟨⟨(congrArg PathKey.volume hkey).symm.trans hvolume, fun f hf => ?_⟩, old, hmem, hkey, hid⟩
    rw [← hkey]
    exact hlost f hf
  · rintro ⟨⟨hvolume, hlost⟩, old, hmem, hkey, hid⟩
    refine ⟨old, ⟨hmem, (congrArg PathKey.volume hkey).trans hvolume, fun f hf => ?_⟩, hkey, hid⟩
    rw [hkey]
    exact hlost f hf

instance (s : EntrySet) (volume : VolumeId) (found : List Found) :
    DecidablePred (s.Lost volume found) :=
  fun _ => decidable_of_iff _ mem_gone

/-- The files that a scan found at paths without an entry, neither when it compared the volume with
the set `s` nor in `later`. -/
def unlisted (s later : EntrySet) (volume : VolumeId) (found : List Found) : List Found :=
  later.absent volume (found.filter fun f => ¬ s.HasKey (.of volume f.path))

theorem carryOut_ids (s : EntrySet) (ids : IdSource) (plan : Plan) :
    (s.carryOut ids plan).2.2 = ids.skip (s.carryOut ids plan).1.added := by
  unfold carryOut
  exact addFresh_ids ..

/-- Carrying a plan out takes away what was lost when it was made and still is the same, and puts in
what was found at paths that had no entry either time. -/
theorem carryOut_spec {later : EntrySet} {ids : IdSource} {found : List Found}
    (hids : ids.Fresh later.HasId (later.carryOut ids (s.plan volume found)).1.added) :
    (later.carryOut ids (s.plan volume found)).1 =
        ⟨(s.unlisted later volume found).length,
          (later.entries.filter fun entry => s.Lost volume found entry).card,
          (s.plan volume found).unchanged⟩ ∧
      ∀ entry, entry ∈ (later.carryOut ids (s.plan volume found)).2.1 ↔
        (entry ∈ later ∧ ¬ s.Lost volume found entry) ∨
          Numbered ids volume (s.unlisted later volume found) entry := by
  have hlost : (later.without fun entry => (entry.key, entry.id) ∈ (s.plan volume found).gone) =
      later.without (s.Lost volume found) := without_congr fun _ _ => mem_gone
  have hcard : (later.entries.filter fun entry => (entry.key, entry.id) ∈ (s.plan volume found).gone) =
      later.entries.filter fun entry => s.Lost volume found entry :=
    Finset.filter_congr fun _ _ => mem_gone
  -- what is taken away stands at no path where a file was found
  have habsent : (later.without (s.Lost volume found)).absent volume (s.plan volume found).fresh =
      s.unlisted later volume found := by
    refine absent_congr fun f hf => ?_
    have hfound : f ∈ found := (List.mem_filter.mp hf).1
    constructor
    · rintro ⟨entry, hmem, hkey⟩
      exact ⟨entry, (mem_without.mp hmem).1, hkey⟩
    · rintro ⟨entry, hmem, hkey⟩
      exact ⟨entry, mem_without.mpr ⟨hmem, fun h => h.1.2 f hfound hkey⟩, hkey⟩
  have hvolume : (s.plan volume found).volume = volume := rfl
  have hfewer : ∀ id, (later.without (s.Lost volume found)).HasId id → later.HasId id := by
    rintro id ⟨entry, hmem, hid⟩
    exact ⟨entry, (mem_without.mp hmem).1, hid⟩
  unfold carryOut at hids ⊢
  simp only [hlost, hcard, hvolume] at hids ⊢
  obtain ⟨hcount, hentries⟩ := addFresh_spec (s := later.without (s.Lost volume found))
    (hids.mono (Nat.le_refl _) hfewer)
  rw [habsent] at hcount hentries
  refine ⟨by rw [hcount], fun entry => ?_⟩
  rw [hentries, mem_without]

end EntrySet

end MediaShelf.Catalog
