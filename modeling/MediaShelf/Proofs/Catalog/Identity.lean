import MediaShelf.Proofs.Catalog.Reconcile
import MediaShelf.Proofs.Catalog.Scans

/-!
# Entries last

Whatever scans run at the same time, an entry stays as it is until a scan that begins after it was
put in misses its file (`scans_keep_identity`). A scan that began before may carry out its plan
later, but this plan does not know the identifier of the entry, and takes nothing away that it does
not know (`PlainShared.Keeps`). For the same reason an identifier that is out never comes back: those
that are handed out later are all different from it.
-/

namespace MediaShelf.Catalog

/-! ## What is said of a run -/

/-- A scan misses a path if it compares the volume and has found nothing there. -/
def ScanPart.Misses (key : PathKey) : ScanPart → Prop
  | .compare volume found => key.volume = volume ∧ ∀ f ∈ found, key ≠ .of volume f.path
  | .apply => False

instance (key : PathKey) : (part : ScanPart) → Decidable (part.Misses key)
  | .compare volume found =>
    inferInstanceAs (Decidable (key.volume = volume ∧ ∀ f ∈ found, key ≠ .of volume f.path))
  | .apply => inferInstanceAs (Decidable False)

/-- No scan that compares its volume between two moments misses a path. -/
def NeverMissed (parts : List (Caller × ScanPart)) (key : PathKey) (first last : Nat) : Prop :=
  ∀ n < last, first ≤ n → ∀ head ∈ parts[n]?, ¬ head.2.Misses key

instance (parts : List (Caller × ScanPart)) (key : PathKey) (first last : Nat) :
    Decidable (NeverMissed parts key first last) :=
  inferInstanceAs (Decidable (∀ n < last, first ≤ n → ∀ head ∈ parts[n]?, ¬ head.2.Misses key))

def Registry.entries (r : Registry) : Finset Entry := r.byId.values.toFinset

/-- A catalog after so many parts of scans. -/
def Registry.after (r : Registry) (ids : IdSource) (parts : List (Caller × ScanPart)) (n : Nat) :
    Registry := ((Shared.resting r ids).after parts n).registry

/-- An entry is in the catalog from a moment on: it is there, and was not the moment before. -/
def ListedAt (catalog : Nat → Registry) (entry : Entry) (n : Nat) : Prop :=
  entry ∈ catalog n ∧ ∀ m, m + 1 = n → entry ∉ catalog m

/-- Parts of scans, what their callers are told, and what the catalog is after so many of them. -/
structure LastingIdentity (parts : List (Caller × ScanPart)) (replies : List Reply)
    (catalog : Nat → Registry) : Prop where
  consistent : ∀ n, (catalog n).Consistent
  /-- An entry is the one at its path, with all that it holds, as long as no scan that began after
  it was put in misses the path. -/
  kept : ∀ entry first n, ListedAt catalog entry first → first ≤ n →
    NeverMissed parts entry.key first n →
      ∀ other, other ∈ catalog n ∧ other.key = entry.key ↔ other = entry
  /-- However many scans have found a new file, there is never more than one entry for it. -/
  once : ∀ key first last, (∀ entry ∈ catalog first, entry.key ≠ key) →
    NeverMissed parts key first last →
      ∀ m n a b, m ∈ Finset.Icc first last → n ∈ Finset.Icc first last → a ∈ catalog m →
        b ∈ catalog n → a.key = key → b.key = key → a = b
  /-- Each of the scans that have found it leaves an entry for it. -/
  listed : ∀ m n caller volume found, m < n → parts[m]? = some (caller, .compare volume found) →
    parts[n]? = some (caller, .apply) →
    (∀ k, m < k → k < n → ∀ head ∈ parts[k]?, head.1 ≠ caller) →
      ∀ f ∈ found, PathKey.of volume f.path ∉ (catalog m).keysOf volume →
        PathKey.of volume f.path ∈ (catalog (n + 1)).keysOf volume
  /-- A scan reports as many new entries as its second part has put in, and as many gone ones as it
  has taken away. -/
  counted : ∀ n summary, replies[n]? = some (.scanned (some summary)) →
    summary.added = ((catalog (n + 1)).entries \ (catalog n).entries).card ∧
      summary.removed = ((catalog n).entries \ (catalog (n + 1)).entries).card
  /-- An identifier that is out stays out. -/
  retired : ∀ id l m n, l ≤ m → m ≤ n → (catalog l).HasId id → ¬ (catalog m).HasId id →
    ¬ (catalog n).HasId id

theorem exists_listedAt {catalog : Nat → Registry} {entry : Entry} {first n : Nat} (hle : first ≤ n)
    (hmem : entry ∈ catalog n) (hnot : entry ∉ catalog first) :
    ∃ m, first ≤ m ∧ m ≤ n ∧ ListedAt catalog entry m := by
  induction n, hle using Nat.le_induction with
  | base => exact absurd hmem hnot
  | succ n hle ih =>
    by_cases hbefore : entry ∈ catalog n
    · obtain ⟨m, hfirst, hlast, hlisted⟩ := ih hbefore
      exact ⟨m, hfirst, by omega, hlisted⟩
    · refine ⟨n + 1, by omega, Nat.le_refl _, hmem, fun m hm => ?_⟩
      rwa [Nat.succ.inj hm]

/-- Of two entries at one path the one that is seen first is kept, so it is the other one. -/
theorem eq_of_kept {catalog : Nat → Registry} {parts : List (Caller × ScanPart)}
    (hkept : ∀ entry first n, ListedAt catalog entry first → first ≤ n →
      NeverMissed parts entry.key first n →
        ∀ other, other ∈ catalog n ∧ other.key = entry.key ↔ other = entry)
    {key : PathKey} {first last m n : Nat} {a b : Entry}
    (hnone : ∀ entry ∈ catalog first, entry.key ≠ key) (hfound : NeverMissed parts key first last)
    (hfirst : first ≤ m) (hle : m ≤ n) (hlast : n ≤ last) (ha : a ∈ catalog m) (hb : b ∈ catalog n)
    (hakey : a.key = key) (hbkey : b.key = key) : a = b := by
  obtain ⟨k, hk, hkm, hlisted⟩ := exists_listedAt hfirst ha fun hold => hnone a hold hakey
  have hwindow : NeverMissed parts a.key k n := by
    rw [hakey]
    intro i hi hki
    exact hfound i (by omega) (by omega)
  exact ((hkept a k n hlisted (by omega) hwindow b).mp ⟨hb, hbkey.trans hakey.symm⟩).symm

namespace EntrySet

/-- The entries of the files, with the identifiers from the source in turn. -/
def numbered (ids : IdSource) (volume : VolumeId) (files : List Found) : Finset Entry :=
  Finset.univ.image fun n : Fin files.length =>
    .ofFile (ids.sequence (ids.drawn + n)) volume files[n].path files[n].size

variable {ids : IdSource} {files : List Found}

theorem mem_numbered {volume : VolumeId} {entry : Entry} :
    entry ∈ numbered ids volume files ↔ Numbered ids volume files entry := by
  rw [numbered, Finset.mem_image]
  constructor
  · rintro ⟨n, -, rfl⟩
    exact ⟨n, files[n], List.getElem?_eq_getElem n.isLt, rfl⟩
  · rintro ⟨n, f, hf, rfl⟩
    obtain ⟨hlt, rfl⟩ := List.getElem?_eq_some_iff.mp hf
    exact ⟨⟨n, hlt⟩, Finset.mem_univ _, rfl⟩

theorem card_numbered {taken : EntryId → Prop} (volume : VolumeId)
    (hids : ids.Fresh taken files.length) : (numbered ids volume files).card = files.length := by
  rw [numbered, Finset.card_image_of_injective, Finset.card_univ, Fintype.card_fin]
  intro m n heq
  have hid : ids.sequence (ids.drawn + m) = ids.sequence (ids.drawn + n) := congrArg Entry.id heq
  rcases Nat.lt_trichotomy m n with hlt | heq | hlt
  · exact absurd hid (hids.distinct n n.isLt m hlt)
  · exact Fin.ext heq
  · exact absurd hid.symm (hids.distinct m m.isLt n hlt)

end EntrySet

theorem Registry.Holds.entries_eq {r : Registry} {s : EntrySet} (h : r.Holds s) :
    r.entries = s.entries := h.values_eq

/-! ## From one moment to the next -/

/-- What can happen to a set with a part of a scan. -/
inductive Moved (s : EntrySet) (ids : IdSource) (count : Nat) (p : PlainShared) :
    Option (Caller × ScanPart) → PlainShared → Prop
  | idle (part : Option (Caller × ScanPart)) : Moved s ids count p part p
  | compared (caller : Caller) (volume : VolumeId) (found : List Found) :
      Moved s ids count p (some (caller, .compare volume found))
        { p with plans := Function.update p.plans caller (some (p.entries.plan volume found)) }
  | applied {caller : Caller} {earlier : EntrySet} {volume : VolumeId} {found : List Found}
      {reply : Reply} {next : PlainShared}
      (hplan : p.plans caller = some (earlier.plan volume found))
      (happlied : Applied earlier volume found caller p reply next)
      (hfresh : p.ids.Fresh (ids.Used s.HasId count)
        (earlier.unlisted p.entries volume found).length) :
      Moved s ids count p (some (caller, .apply)) next

/-- An entry is in a set, and nobody is about to take it away. -/
structure PlainShared.Keeps (p : PlainShared) (entry : Entry) : Prop where
  mem : entry ∈ p.entries
  safe : ∀ caller plan, p.plans caller = some plan → (entry.key, entry.id) ∉ plan.gone

section Steps

variable {s : EntrySet} {ids : IdSource} {count : Nat} {p next : PlainShared}
  {part : Option (Caller × ScanPart)} {entry : Entry}

theorem Moved.new_id (hmoved : Moved s ids count p part next) (hmem : entry ∈ next.entries)
    (hnew : entry ∉ p.entries) : ¬ ids.Used s.HasId count entry.id := by
  cases hmoved with
  | idle => exact absurd hmem hnew
  | compared => exact absurd hmem hnew
  | applied _ happlied hfresh =>
    rcases (happlied.entries entry).mp hmem with ⟨hold, -⟩ | ⟨n, f, hf, rfl⟩
    · exact absurd hold hnew
    · exact hfresh.unused n (List.getElem?_eq_some_iff.mp hf).1

theorem Moved.plans_cases (hmoved : Moved s ids count p part next) {caller : Caller} {plan : Plan}
    (hplan : next.plans caller = some plan) :
    p.plans caller = some plan ∨ ∃ volume found,
      part = some (caller, .compare volume found) ∧ plan = p.entries.plan volume found := by
  cases hmoved with
  | idle => exact .inl hplan
  | compared other volume found =>
    simp only [Function.update_apply] at hplan
    split at hplan
    case isTrue heq =>
      rw [heq]
      exact .inr ⟨volume, found, rfl, (Option.some.inj hplan).symm⟩
    case isFalse => exact .inl hplan
  | applied _ happlied =>
    rw [happlied.plans, Function.update_apply] at hplan
    split at hplan
    · cases hplan
    · exact .inl hplan

/-- Nobody is about to take away an entry that was just put in: nobody knows it. -/
theorem Moved.keeps_new (hmoved : Moved s ids count p part next) (htraced : Traced s ids count p)
    (hmem : entry ∈ next.entries) (hnew : entry ∉ p.entries) : next.Keeps entry := by
  refine ⟨hmem, fun caller plan hplan hgone => ?_⟩
  rcases hmoved.plans_cases hplan with hold | ⟨volume, found, rfl, rfl⟩
  · obtain ⟨earlier, volume, found, rfl, hused⟩ := htraced.plans caller plan hold
    obtain ⟨-, old, hmem', -, hid⟩ := EntrySet.mem_gone.mp hgone
    exact hmoved.new_id hmem hnew (hid ▸ hused old.id ⟨old, hmem', rfl⟩)
  · -- while a volume is compared, nothing is put in
    cases hmoved with
    | idle => exact hnew hmem
    | compared => exact hnew hmem

/-- An entry is kept by every part except a comparison that misses it. -/
theorem Moved.keeps (hmoved : Moved s ids count p part next) (hkeeps : p.Keeps entry)
    (hfound : ∀ head ∈ part, ¬ head.2.Misses entry.key) : next.Keeps entry := by
  refine ⟨?_, fun caller plan hplan hgone => ?_⟩
  · cases hmoved with
    | idle => exact hkeeps.mem
    | compared => exact hkeeps.mem
    | applied hplan happlied =>
      refine (happlied.entries entry).mpr (.inl ⟨hkeeps.mem, fun hlost => ?_⟩)
      exact hkeeps.safe _ _ hplan (EntrySet.mem_gone.mpr hlost)
  · rcases hmoved.plans_cases hplan with hold | ⟨volume, found, rfl, rfl⟩
    · exact hkeeps.safe caller plan hold hgone
    · obtain ⟨⟨hvolume, hnone⟩, -⟩ := EntrySet.mem_gone.mp hgone
      exact hfound _ rfl ⟨hvolume, hnone⟩

theorem Moved.not_hasId (hmoved : Moved s ids count p part next) {id : EntryId}
    (hused : ids.Used s.HasId count id) (hout : ¬ p.entries.HasId id) :
    ¬ next.entries.HasId id := by
  rintro ⟨entry, hmem, rfl⟩
  refine hmoved.new_id hmem (fun hold => ?_) hused
  exact hout ⟨entry, hold, rfl⟩

theorem Applied.hasKey {earlier : EntrySet} {volume : VolumeId} {found : List Found}
    {caller : Caller} {reply : Reply} (h : Applied earlier volume found caller p reply next)
    {f : Found} (hf : f ∈ found) (hnone : ¬ earlier.HasKey (.of volume f.path)) :
    next.entries.HasKey (.of volume f.path) := by
  by_cases hhas : p.entries.HasKey (.of volume f.path)
  · obtain ⟨entry, hmem, hkey⟩ := hhas
    exact ⟨entry, (h.entries entry).mpr (.inl ⟨hmem, fun hlost => hlost.1.2 f hf hkey⟩), hkey⟩
  · have hlisted : PathKey.of volume f.path ∈
        (earlier.unlisted p.entries volume found).map fun f => PathKey.of volume f.path :=
      EntrySet.mem_keys_unlisted.mpr ⟨mem_foundKeys.mpr ⟨f, hf, rfl⟩, hnone, hhas⟩
    obtain ⟨g, hg, hkey⟩ := List.mem_map.mp hlisted
    obtain ⟨n, hn⟩ := List.mem_iff_getElem?.mp hg
    exact ⟨_, (h.entries _).mpr (.inr ⟨n, g, hn, rfl⟩), hkey⟩

theorem Applied.counts {earlier : EntrySet} {volume : VolumeId} {found : List Found}
    {caller : Caller} {reply : Reply} (h : Applied earlier volume found caller p reply next)
    (hfresh : p.ids.Fresh p.entries.HasId (earlier.unlisted p.entries volume found).length) :
    (next.entries.entries \ p.entries.entries).card =
        (earlier.unlisted p.entries volume found).length ∧
      (p.entries.entries \ next.entries.entries).card =
        (p.entries.entries.filter fun entry => earlier.Lost volume found entry).card := by
  have hentries := h.entries
  generalize earlier.unlisted p.entries volume found = files at hentries hfresh ⊢
  have hnew : ∀ entry, EntrySet.Numbered p.ids volume files entry → entry ∉ p.entries := by
    rintro entry ⟨n, f, hf, rfl⟩ hmem
    exact hfresh.unused n (List.getElem?_eq_some_iff.mp hf).1 ⟨_, hmem, rfl⟩
  constructor
  · rw [← EntrySet.card_numbered volume hfresh]
    congr 1
    ext entry
    rw [Finset.mem_sdiff, EntrySet.mem_entries, EntrySet.mem_entries, hentries, EntrySet.mem_numbered]
    constructor
    · rintro ⟨⟨hold, -⟩ | hnumbered, hnot⟩
      · exact absurd hold hnot
      · exact hnumbered
    · intro hnumbered
      exact ⟨.inr hnumbered, hnew entry hnumbered⟩
  · congr 1
    ext entry
    rw [Finset.mem_sdiff, EntrySet.mem_entries, EntrySet.mem_entries, hentries, Finset.mem_filter,
      EntrySet.mem_entries]
    refine and_congr_right fun hmem => ?_
    rw [or_iff_left fun hnumbered => hnew entry hnumbered hmem, and_iff_right hmem, not_not]

end Steps

/-! ## Whole runs -/

section Runs

variable {s : EntrySet} {ids : IdSource} {parts : List (Caller × ScanPart)} {entry : Entry}

theorem moved_after (hids : ids.FreshUntil ((PlainShared.resting s ids).run parts).2.ids s.HasId)
    (n : Nat) :
    Moved s ids (((PlainShared.resting s ids).after parts n).ids.drawn - ids.drawn)
      ((PlainShared.resting s ids).after parts n) parts[n]?
      ((PlainShared.resting s ids).after parts (n + 1)) := by
  have htraced := traced_after hids n
  have hdrawn := (PlainShared.resting s ids).drawn_after_le parts (n + 1)
  cases hpart : parts[n]? with
  | none =>
    rw [PlainShared.after_succ_of_none hpart]
    exact .idle none
  | some head =>
    obtain ⟨caller, part⟩ := head
    rw [PlainShared.after_succ hpart] at hdrawn ⊢
    cases part with
    | compare volume found => exact .compared caller volume found
    | apply =>
      cases hplan : ((PlainShared.resting s ids).after parts n).plans caller with
      | none =>
        simp only [PlainShared.part, hplan]
        exact .idle _
      | some plan =>
        obtain ⟨earlier, volume, found, rfl, -⟩ := htraced.plans caller plan hplan
        obtain ⟨happlied, hfresh⟩ := htraced.apply hids hplan (Nat.le_trans hdrawn (by omega))
        exact .applied hplan happlied hfresh

/-- An entry is kept as long as no scan misses it that began after it was put in. -/
theorem keeps_after (hids : ids.FreshUntil ((PlainShared.resting s ids).run parts).2.ids s.HasId)
    {first n : Nat} (hle : first ≤ n)
    (hmem : entry ∈ ((PlainShared.resting s ids).after parts first).entries)
    (hnew : ∀ m, m + 1 = first → entry ∉ ((PlainShared.resting s ids).after parts m).entries)
    (hfound : NeverMissed parts entry.key first n) :
    ((PlainShared.resting s ids).after parts n).Keeps entry := by
  induction n, hle using Nat.le_induction with
  | base =>
    cases first with
    | zero => exact ⟨hmem, nofun⟩
    | succ m => exact (moved_after hids m).keeps_new (traced_after hids m) hmem (hnew m rfl)
  | succ n hle ih =>
    have hbefore : NeverMissed parts entry.key first n := fun k hk => hfound k (by omega)
    exact (moved_after hids n).keeps (ih hbefore) (hfound n (by omega) hle)

theorem not_hasId_after (hids : ids.FreshUntil ((PlainShared.resting s ids).run parts).2.ids s.HasId)
    {id : EntryId} {l m n : Nat} (hlm : l ≤ m) (hmn : m ≤ n)
    (hin : ((PlainShared.resting s ids).after parts l).entries.HasId id)
    (hout : ¬ ((PlainShared.resting s ids).after parts m).entries.HasId id) :
    ¬ ((PlainShared.resting s ids).after parts n).entries.HasId id := by
  have hused := (traced_after hids l).entries id hin
  induction n, hmn using Nat.le_induction with
  | base => exact hout
  | succ n hmn ih =>
    have hdrawn := (PlainShared.resting s ids).monotone_drawn_after parts (hlm.trans hmn)
    exact (moved_after hids n).not_hasId (hused.mono (Nat.sub_le_sub_right hdrawn _)) ih

theorem plans_after {p : PlainShared} {caller : Caller} {m n : Nat} (hle : m ≤ n)
    (hothers : ∀ k, m ≤ k → k < n → ∀ head ∈ parts[k]?, head.1 ≠ caller) :
    (p.after parts n).plans caller = (p.after parts m).plans caller := by
  induction n, hle using Nat.le_induction with
  | base => rfl
  | succ n hle ih =>
    rw [← ih fun k hk hlt => hothers k hk (by omega)]
    cases hpart : parts[n]? with
    | none => rw [PlainShared.after_succ_of_none hpart]
    | some head =>
      obtain ⟨other, part⟩ := head
      rw [PlainShared.after_succ hpart]
      exact PlainShared.plans_part_of_ne (hothers n hle (by omega) _ hpart).symm part

theorem hasKey_after (hids : ids.FreshUntil ((PlainShared.resting s ids).run parts).2.ids s.HasId)
    {m n : Nat} {caller : Caller} {volume : VolumeId} {found : List Found} (hlt : m < n)
    (hcompare : parts[m]? = some (caller, .compare volume found))
    (happly : parts[n]? = some (caller, .apply))
    (hothers : ∀ k, m < k → k < n → ∀ head ∈ parts[k]?, head.1 ≠ caller) {f : Found}
    (hf : f ∈ found)
    (hnone : ¬ ((PlainShared.resting s ids).after parts m).entries.HasKey (.of volume f.path)) :
    ((PlainShared.resting s ids).after parts (n + 1)).entries.HasKey (.of volume f.path) := by
  have hplan : ((PlainShared.resting s ids).after parts n).plans caller =
      some (((PlainShared.resting s ids).after parts m).entries.plan volume found) := by
    rw [plans_after (Nat.succ_le_of_lt hlt) fun k hk => hothers k hk, PlainShared.after_succ hcompare]
    exact Function.update_self _ _ _
  have hdrawn := (PlainShared.resting s ids).drawn_after_le parts (n + 1)
  rw [PlainShared.after_succ happly] at hdrawn ⊢
  obtain ⟨happlied, -⟩ := (traced_after hids n).apply hids hplan (Nat.le_trans hdrawn (by omega))
  exact happlied.hasKey hf hnone

theorem counted_after (hids : ids.FreshUntil ((PlainShared.resting s ids).run parts).2.ids s.HasId)
    {n : Nat} {summary : ScanSummary}
    (htold : ((PlainShared.resting s ids).run parts).1[n]? = some (.scanned (some summary))) :
    summary.added = (((PlainShared.resting s ids).after parts (n + 1)).entries.entries \
        ((PlainShared.resting s ids).after parts n).entries.entries).card ∧
      summary.removed = (((PlainShared.resting s ids).after parts n).entries.entries \
        ((PlainShared.resting s ids).after parts (n + 1)).entries.entries).card := by
  rw [PlainShared.getElem?_run, Option.map_eq_some_iff] at htold
  obtain ⟨⟨caller, part⟩, hpart, htold⟩ := htold
  have htraced := traced_after hids n
  have hdrawn := (PlainShared.resting s ids).drawn_after_le parts (n + 1)
  rw [PlainShared.after_succ hpart] at hdrawn ⊢
  cases part with
  | compare volume found => cases htold
  | apply =>
    cases hplan : ((PlainShared.resting s ids).after parts n).plans caller with
    | none =>
      simp only [PlainShared.part, hplan] at htold
      cases htold
    | some plan =>
      obtain ⟨earlier, volume, found, rfl, -⟩ := htraced.plans caller plan hplan
      obtain ⟨happlied, hfresh⟩ := htraced.apply hids hplan (Nat.le_trans hdrawn (by omega))
      obtain ⟨hadded, hremoved⟩ :=
        happlied.counts (hfresh.mono (Nat.le_refl _) htraced.entries)
      rw [hadded, hremoved]
      rw [happlied.reply] at htold
      cases htold
      exact ⟨rfl, rfl⟩

end Runs

/-- **Entries last.** In every run of scans, of whatever volumes, whose parts come in whatever
order, an entry stays as it is until a scan that began after it was put in misses its file; a new
file gets one entry however many scans have found it; and no identifier comes back that was out. -/
theorem scans_keep_identity (r : Registry) (hr : r.Consistent) (ids : IdSource)
    (parts : List (Caller × ScanPart))
    (hids : ids.FreshUntil ((Shared.resting r ids).run parts).2.ids r.HasId) :
    LastingIdentity parts ((Shared.resting r ids).run parts).1 (r.after ids parts) := by
  obtain ⟨s, hs⟩ := hr.exists_holds
  obtain ⟨hreplies, hfinal⟩ := (hs.resting ids).run parts
  have hholds (n : Nat) :
      (r.after ids parts n).Holds ((PlainShared.resting s ids).after parts n).entries :=
    ((hs.resting ids).after parts n).registry
  have hfresh : ids.FreshUntil ((PlainShared.resting s ids).run parts).2.ids s.HasId := by
    rw [← hfinal.ids]
    exact hids.mono (Nat.le_refl _) fun id => hs.hasId.mpr
  have hkept : ∀ entry first n, ListedAt (r.after ids parts) entry first → first ≤ n →
      NeverMissed parts entry.key first n →
        ∀ other, other ∈ r.after ids parts n ∧ other.key = entry.key ↔ other = entry := by
    rintro entry first n ⟨hmem, hnew⟩ hle hfound other
    have hkeeps := keeps_after hfresh hle ((hholds first).mem.mp hmem)
      (fun m hm hold => hnew m hm ((hholds m).mem.mpr hold)) hfound
    constructor
    · rintro ⟨hother, hkey⟩
      exact EntrySet.keyUnique _ other ((hholds n).mem.mp hother) entry hkeeps.mem hkey
    · rintro rfl
      exact ⟨(hholds n).mem.mpr hkeeps.mem, rfl⟩
  exact {
    consistent := fun n => (hholds n).consistent
    kept := hkept
    once := fun key first last hnone hfound m n a b hm hn ha hb hakey hbkey => by
      obtain ⟨hm, hm'⟩ := Finset.mem_Icc.mp hm
      obtain ⟨hn, hn'⟩ := Finset.mem_Icc.mp hn
      rcases Nat.le_total m n with hle | hle
      · exact eq_of_kept hkept hnone hfound hm hle hn' ha hb hakey hbkey
      · exact (eq_of_kept hkept hnone hfound hn hle hm' hb ha hbkey hakey).symm
    listed := fun m n caller volume found hlt hcompare happly hothers f hf hnone => by
      rw [(hholds (n + 1)).mem_keysOf]
      refine ⟨rfl, hasKey_after hfresh hlt hcompare happly hothers hf fun hhas => hnone ?_⟩
      exact (hholds m).mem_keysOf.mpr ⟨rfl, hhas⟩
    counted := fun n summary htold => by
      rw [hreplies] at htold
      simp only [(hholds _).entries_eq]
      exact counted_after hfresh htold
    retired := fun id l m n hlm hmn hin hout => by
      rw [(hholds _).hasId] at hin hout ⊢
      exact not_hasId_after hfresh hlm hmn hin hout }

/-- Two scans find a new file `n.mp4`, while a third one that began before them did not. The last
scan finds nothing at all. -/
def threeScans : List (Caller × ScanPart) :=
  [(0, .compare "v" []), (1, .compare "v" [⟨[110, 46, 109, 112, 52], 2⟩]),
    (2, .compare "v" [⟨[110, 46, 109, 112, 52], 4⟩]), (2, .apply), (1, .apply), (0, .apply),
    (0, .compare "v" []), (0, .apply)]

/-- The entry of the first one that is done is the one that stays, whatever the others do. -/
theorem scans_keep_identity_threeScans :
    LastingIdentity threeScans ((Shared.resting olderRegistry (.after ⟨9⟩)).run threeScans).1
        (olderRegistry.after (.after ⟨9⟩) threeScans) ∧
      ListedAt (olderRegistry.after (.after ⟨9⟩) threeScans)
        (.ofFile ⟨10⟩ "v" [110, 46, 109, 112, 52] 4) 4 ∧
      NeverMissed threeScans (.of "v" [110, 46, 109, 112, 52]) 4 6 := by
  refine ⟨scans_keep_identity olderRegistry olderRegistry_consistent (.after ⟨9⟩) threeScans
    (by decide +kernel), ⟨by decide +kernel, ?_⟩, by decide +kernel⟩
  rintro m hm
  cases hm
  decide +kernel

end MediaShelf.Catalog
