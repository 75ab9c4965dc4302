import MediaShelf.Proofs.Catalog.Identity

/-!
# A scan that comes late

Between the two parts of a scan other callers may do to the catalog whatever they like: take entries
away and put them in again, under other identifiers too, and scan the same volume themselves. What
the second part then does is said by the catalog that was seen and the one that is met alone
(`AppliedLate`): it takes away what was seen and not found, if it is still the same, adds what was
found and is neither in the one nor in the other, and touches nothing else (`scan_applied_late`).
-/

namespace MediaShelf.Catalog

/-- The second part of a scan of a volume by which some files were found: the catalog that its first
part has `seen`, the one that it has `met`, what was told, and the catalog `after` it. -/
structure AppliedLate (seen met : Registry) (volume : VolumeId) (found : List Found) (reply : Reply)
    (after : Registry) : Prop where
  consistent : after.Consistent
  /-- Taken away are the entries of the volume where nothing was found that are still the same. -/
  removed : ∀ entry ∈ met, entry ∉ after ↔
    entry.volume = volume ∧ entry.key ∉ foundKeys volume found ∧
      ∃ old ∈ seen, old.key = entry.key ∧ old.id = entry.id
  /-- Put in is one entry for each file that is neither in the one nor in the other. -/
  added : ∀ f ∈ found, PathKey.of volume f.path ∉ seen.keysOf volume →
    PathKey.of volume f.path ∉ met.keysOf volume →
      ∃ id, ¬ met.HasId id ∧ ∀ entry, entry ∈ after ∧ entry.key = .of volume f.path ↔
        entry = .ofFile id volume f.path f.size
  nothingElse : ∀ entry ∈ after, entry ∉ met →
    entry.key ∈ foundKeys volume found ∧ entry.key ∉ seen.keysOf volume ∧
      entry.key ∉ met.keysOf volume
  /-- What was put out and in again, under another identifier, is not taken for what was seen. -/
  recataloged : ∀ entry ∈ met, (∀ old ∈ seen, old.key = entry.key → old.id ≠ entry.id) →
    entry ∈ after
  /-- What somebody has put in where a file was found is left alone. -/
  notOverwritten : ∀ entry ∈ met, entry.key ∈ foundKeys volume found →
    ∀ other, other ∈ after ∧ other.key = entry.key ↔ other = entry
  summary : reply = .scanned (some
    ⟨(after.entries \ met.entries).card, (met.entries \ after.entries).card,
      (foundKeys volume found ∩ seen.keysOf volume).card⟩)
  /-- The files that are not new are counted by a difference of two numbers. -/
  noUnderflow : (Difference.of seen volume found).fresh.length ≤ found.length

/-! ## What others leave alone -/

namespace PlainShared

variable {p next last : PlainShared} {caller other : Caller}

theorem Step.plans_of_ne {demand : Demand} {reply : Reply} (h : p.Step other demand reply next)
    (hne : caller ≠ other) : next.plans caller = p.plans caller := by
  cases h with
  | compare | apply => exact Function.update_of_ne hne _ _
  | add | remove | removeNone | getNil | get | getNone | idForPath | idForPathNone | size
  | volumeSize | applyNone => rfl

theorem Run.plans_of_others {calls : List (Caller × Demand)} {replies : List Reply}
    (h : p.Run calls replies last) (hothers : ∀ call ∈ calls, call.1 ≠ caller) :
    last.plans caller = p.plans caller := by
  induction h with
  | nil => rfl
  | cons hstep _ ih =>
    rw [List.forall_mem_cons] at hothers
    rw [ih hothers.2, hstep.plans_of_ne hothers.1.symm]

end PlainShared

/-! ## The set that is met -/

section Sets

variable {seen : EntrySet} {volume : VolumeId} {found : List Found} {caller : Caller}
  {p next : PlainShared} {reply : Reply}

/-- An entry that is put in stands where there was none either time. -/
theorem EntrySet.Numbered.key_mem {ids : IdSource} {later : EntrySet} {entry : Entry}
    (h : Numbered ids volume (seen.unlisted later volume found) entry) :
    entry.key ∈ foundKeys volume found ∧ ¬ seen.HasKey entry.key ∧ ¬ later.HasKey entry.key := by
  obtain ⟨n, f, hf, rfl⟩ := h
  exact mem_keys_unlisted.mp (List.mem_map_of_mem (List.mem_of_getElem? hf))

theorem Applied.mem_iff_of_mem (h : Applied seen volume found caller p reply next) {entry : Entry}
    (hmet : entry ∈ p.entries) : entry ∈ next.entries ↔ ¬ seen.Lost volume found entry := by
  rw [h.entries, and_iff_right hmet, or_iff_left]
  intro hnumbered
  exact hnumbered.key_mem.2.2 ⟨entry, hmet, rfl⟩

end Sets

theorem Applied.late {seen met after : Registry} {s : EntrySet} {volume : VolumeId}
    {found : List Found} {caller : Caller} {p next : PlainShared} {reply : Reply}
    (happlied : Applied s volume found caller p reply next) (hseen : seen.Holds s)
    (hmet : met.Holds p.entries) (hafter : after.Holds next.entries)
    (hdistinct : DistinctPaths found)
    (hfresh : p.ids.Fresh p.entries.HasId (s.unlisted p.entries volume found).length) :
    AppliedLate seen met volume found reply after := by
  have hleft : ∀ entry ∈ met, entry ∈ after ↔ ¬ s.Lost volume found entry := fun entry hentry =>
    hafter.mem.trans (happlied.mem_iff_of_mem (hmet.mem.mp hentry))
  exact {
    consistent := hafter.consistent
    removed := fun entry hentry => by
      rw [hleft entry hentry, not_not, EntrySet.lost_iff_foundKeys]
      simp only [hseen.mem]
    added := fun f hf hnotSeen hnotMet => by
      have hnew : f ∈ s.unlisted p.entries volume found :=
        EntrySet.mem_unlisted hdistinct hf (fun hhas => hnotSeen (hseen.mem_keysOf.mpr ⟨rfl, hhas⟩))
          (fun hhas => hnotMet (hmet.mem_keysOf.mpr ⟨rfl, hhas⟩))
      have hone := EntrySet.exists_of_numbered hfresh
        (fun entry hnumbered => (happlied.entries entry).mpr (.inr hnumbered)) hnew
      simpa only [hmet.hasId, hafter.mem] using hone
    nothingElse := fun entry hentry hnotMet => by
      rw [hafter.mem, happlied.entries] at hentry
      obtain ⟨hold, -⟩ | hnumbered := hentry
      · exact absurd (hmet.mem.mpr hold) hnotMet
      · obtain ⟨hfound, hnotSeen, hlacks⟩ := hnumbered.key_mem
        exact ⟨hfound, fun h => hnotSeen (hseen.mem_keysOf.mp h).2,
          fun h => hlacks (hmet.mem_keysOf.mp h).2⟩
    recataloged := fun entry hentry hother => by
      rw [hleft entry hentry]
      rintro ⟨-, old, hold, hkey, hid⟩
      exact hother old (hseen.mem.mpr hold) hkey hid
    notOverwritten := fun entry hentry hfound other => by
      have hstays : entry ∈ after := (hleft entry hentry).mpr fun hlost =>
        (EntrySet.lost_iff_foundKeys.mp hlost).2.1 hfound
      constructor
      · rintro ⟨hother, hkey⟩
        exact EntrySet.keyUnique _ other (hafter.mem.mp hother) entry (hafter.mem.mp hstays) hkey
      · rintro rfl
        exact ⟨hstays, rfl⟩
    summary := by
      obtain ⟨hadded, hremoved⟩ := happlied.counts hfresh
      rw [happlied.reply, hafter.entries_eq, hmet.entries_eq, hadded, hremoved,
        hseen.keysOf_eq, EntrySet.unchanged_plan hdistinct]
    noUnderflow := List.length_filter_le _ _ }

/-- What a caller meets that has compared a volume with a catalog, after some calls of others. -/
def Shared.meanwhile (c : Shared) (caller : Caller) (volume : VolumeId) (found : List Found)
    (calls : List (Caller × Demand)) : Shared :=
  ((c.serve caller (.compare volume found)).2.serveAll calls).2

/-- **A scan that comes late.** A caller compares a volume with a consistent catalog, whatever any
callers were going to do before; others do to the catalog what they like; and the caller changes it
by the difference. If the identifiers that it hands out then are different, and new to the catalog,
the change is the one that is due, and the caller is told what was done. -/
theorem scan_applied_late (c : Shared) (hc : c.registry.Consistent) (caller : Caller)
    (volume : VolumeId) (found : List Found) (hdistinct : DistinctPaths found)
    (calls : List (Caller × Demand)) (hothers : ∀ call ∈ calls, call.1 ≠ caller) :
    let met := c.meanwhile caller volume found calls
    met.ids.FreshUntil (met.serve caller .apply).2.ids met.registry.HasId →
      AppliedLate c.registry met.registry volume found (met.serve caller .apply).1
        (met.serve caller .apply).2.registry := by
  obtain ⟨s, hs⟩ := hc.exists_holds
  have hstart : c.Holds ⟨s, c.ids, Option.map planOf ∘ c.differences⟩ := ⟨hs, rfl, rfl⟩
  obtain ⟨p, hrun, hmet⟩ := (hstart.part caller (.compare volume found)).2.serveAll calls
  have hplan : p.plans caller = some (s.plan volume found) :=
    (hrun.plans_of_others hothers).trans (Function.update_self _ _ _)
  obtain ⟨hreply, hlast⟩ := hmet.part caller .apply
  intro met hids
  have hfresh : p.ids.Fresh p.entries.HasId ((p.part caller .apply).2.ids.drawn - p.ids.drawn) := by
    rw [← hlast.ids, ← hmet.ids]
    exact hids.mono (Nat.le_refl _) fun id => hmet.registry.hasId.mpr
  have happlied := applied_of_fresh hplan hfresh
  rw [happlied.ids, IdSource.skip_drawn, Nat.add_sub_cancel_left] at hfresh
  rw [← hreply] at happlied
  exact happlied.late hs hmet.registry hlast.registry hdistinct hfresh

/-- A catalog with files `a.mp4`, `b.mp4` and `g.mp4` of one volume. -/
def beforeScan : Shared :=
  .resting (olderRegistry.insert (.ofFile ⟨4⟩ "v" [98, 46, 109, 112, 52] 5)) (.after ⟨9⟩)

theorem beforeScan_consistent : beforeScan.registry.Consistent :=
  olderRegistry_consistent.exists_holds.elim fun _ hholds => (hholds.insert _).consistent

/-- A scan has found `a.mp4`, `n.mp4` and `m.mp4`. -/
def foundByScan : List Found :=
  [⟨[97, 46, 109, 112, 52], 3⟩, ⟨[110, 46, 109, 112, 52], 2⟩, ⟨[109, 46, 109, 112, 52], 4⟩]

/-- In between `g.mp4` goes and comes back, and somebody puts `m.mp4` in. -/
def duringScan : List (Caller × Demand) :=
  [(1, .remove "v" [103, 46, 109, 112, 52]),
    (2, .add (.ofFile ⟨20⟩ "v" [103, 46, 109, 112, 52] 5)),
    (1, .add (.ofFile ⟨21⟩ "v" [109, 46, 109, 112, 52] 4))]

/-- Only `b.mp4` is taken away, and only `n.mp4` is put in. -/
theorem scan_applied_late_recataloged :
    let met := beforeScan.meanwhile 0 "v" foundByScan duringScan
    AppliedLate beforeScan.registry met.registry "v" foundByScan (met.serve 0 .apply).1
        (met.serve 0 .apply).2.registry ∧
      (met.serve 0 .apply).1 = .scanned (some ⟨1, 1, 1⟩) ∧
      .ofFile ⟨20⟩ "v" [103, 46, 109, 112, 52] 5 ∈ (met.serve 0 .apply).2.registry := by
  refine ⟨?_, ?_, by decide +kernel⟩
  · exact scan_applied_late beforeScan beforeScan_consistent 0 "v" foundByScan (by decide)
      duringScan (by decide) (by decide +kernel)
  · cbv

end MediaShelf.Catalog
