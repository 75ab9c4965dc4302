import MediaShelf.Proofs.Catalog.Serial
import MediaShelf.Proofs.Server.Volumes
import MediaShelf.Proofs.Shelf.Mounts
import MediaShelf.Shelf.Rescan

/-!
# A round of scans

A round scans the mounts of a shelf one after the other, until its token fires. Wherever that is,
the round has done just what a round without a token does to the first so many mounts
(`scanMounts_eq_take`): a walk that is called off comes to nothing. A round without a token
reconciles every volume whose root can be read, and each of them as it was at first, since the scans
before it were of other volumes (`Swept.scan`). So a volume is reconciled by a round, or left as it
was (`scanAll_atomic`).
-/

namespace MediaShelf

open MediaShelf.Catalog
open MediaShelf.Files

/-! ## Mounted shelves -/

/-- The mounts of a shelf, their limiters apart, are a table that was made when the shelf was. -/
def Shelf.Mounted (shelf : Shelf) : Prop :=
  ∃ mounts table, MountTable.ofMounts mounts = .ok table ∧
    shelf.mounts.map (·.volume) = table.map (·.volume)

theorem Shelf.Mounted.ordered {shelf : Shelf} (h : shelf.Mounted) : shelf.mounts.Ordered := by
  obtain ⟨mounts, table, hok, hsame⟩ := h
  have htable : (table.map (·.volume)).Pairwise fun a b => a.1 < b.1 :=
    List.pairwise_map.mpr (MountTable.ordered_ofMounts hok)
  rw [← hsame] at htable
  exact (List.pairwise_map (R := fun a b : VolumeId × Bytes => a.1 < b.1)).mp htable

/-! ## The token -/

namespace Catalog

/-- Whether the token is seen to have fired by one of the first looks. -/
def Cancellation.FiresWithin (cancel : Cancellation) (looks : Nat) : Prop :=
  ∃ look < looks, cancel.fired look

instance (cancel : Cancellation) (looks : Nat) : Decidable (cancel.FiresWithin looks) :=
  inferInstanceAs (Decidable (∃ look < looks, cancel.fired look))

namespace Cancellation

variable {cancel : Cancellation}

theorem not_firesWithin_none (looks : Nat) : ¬ FiresWithin none looks := by
  rintro ⟨look, -, hfired⟩
  cases hfired

theorem not_firesWithin_zero (cancel : Cancellation) : ¬ cancel.FiresWithin 0 := by
  rintro ⟨look, hlook, -⟩
  cases hlook

theorem firesWithin_some {first looks : Nat} : FiresWithin (some first) looks ↔ first < looks := by
  simp only [FiresWithin, fired, decide_eq_true_iff]
  constructor
  · rintro ⟨look, hlook, hfirst⟩
    omega
  · intro h
    exact ⟨first, h, Nat.le_refl _⟩

theorem FiresWithin.mono {looks more : Nat} (h : cancel.FiresWithin looks) (hle : looks ≤ more) :
    cancel.FiresWithin more := by
  obtain ⟨look, hlook, hfired⟩ := h
  exact ⟨look, Nat.lt_of_lt_of_le hlook hle, hfired⟩

@[simp] theorem after_none (looks : Nat) : Cancellation.after none looks = none := rfl

theorem firesWithin_after {looks more : Nat} (h : ¬ cancel.FiresWithin looks) :
    (cancel.after looks).FiresWithin more ↔ cancel.FiresWithin (looks + more) := by
  cases cancel with
  | none => exact iff_of_false (not_firesWithin_none _) (not_firesWithin_none _)
  | some first =>
    rw [firesWithin_some] at h
    rw [firesWithin_some]
    show FiresWithin (some (first - looks)) more ↔ _
    rw [firesWithin_some]
    omega

end Cancellation

/-! ## Walks that are called off -/

variable {size : FileNumber → Nat} {cancel : Cancellation} {items : List WalkItem}

/-- A token that does not fire makes no difference. -/
theorem collect_of_not_fired (look look' : Nat)
    (h : ∀ n < items.length, ¬ cancel.fired (look + n)) :
    collect size cancel look items = collect size none look' items := by
  induction items generalizing look look' with
  | nil => rfl
  | cons item rest ih =>
    have hfirst : ¬ cancel.fired look := h 0 (by simp)
    have hrest := ih (look + 1) (look' + 1) fun n hn => by
      have hlater := h (n + 1) (by simpa using hn)
      rwa [Nat.add_right_comm, Nat.add_assoc]
    unfold collect
    rw [if_neg hfirst, if_neg (by simp [Cancellation.fired]), hrest]

/-- A token that fires on the way ends a walk whose start could be read. -/
theorem collect_of_fired (look : Nat) (hmet : ∀ item ∈ items, ∀ fault, item ≠ .unreadable 0 fault)
    (h : ∃ n < items.length, cancel.fired (look + n)) :
    collect size cancel look items = .ok none := by
  induction items generalizing look with
  | nil =>
    obtain ⟨n, hn, -⟩ := h
    cases hn
  | cons item rest ih =>
    rw [List.forall_mem_cons] at hmet
    obtain ⟨n, hn, hfired⟩ := h
    unfold collect
    split
    case isTrue => rfl
    case isFalse hfirst =>
      have hpos : n ≠ 0 := by
        rintro rfl
        exact hfirst hfired
      have hrest := ih (look + 1) hmet.2 ⟨n - 1, by simp at hn; omega, by
        rwa [show look + 1 + (n - 1) = look + n by omega]⟩
      split
      case h_1 fault => exact absurd rfl (hmet.1 fault)
      case h_2 => simp only [hrest]

end Catalog

/-- A walk cannot read its start, or is told of nothing but its start and what lies below. -/
theorem Files.Tree.walk_cases (tree : Tree) (here : Place) (path : Bytes) :
    (∃ fault, tree.walk here path = [.unreadable 0 fault]) ∨
      ∀ item ∈ tree.walk here path, ∀ fault, item ≠ .unreadable 0 fault := by
  unfold Tree.walk
  split
  · exact .inl ⟨_, rfl⟩
  · split
    · refine .inr fun item hitem fault => ?_
      rcases List.mem_cons.mp hitem with rfl | hitem
      · nofun
      · obtain ⟨⟨names, node⟩, hbelow, rfl⟩ := List.mem_map.mp hitem
        have hne : names.length ≠ 0 := fun hzero =>
          Tree.ne_nil_of_mem_below hbelow (List.length_eq_zero_iff.mp hzero)
        dsimp only
        unfold itemBelow
        split
        · exact fun heq => hne (WalkItem.unreadable.inj heq).1
        · nofun
    · refine .inr fun item hitem fault => ?_
      rw [List.mem_singleton.mp hitem]
      nofun
    · exact .inl ⟨_, rfl⟩

section Walk

variable {tree : Tree} {here : Place} {root : Bytes} {cancel : Cancellation}

theorem walkVolume_of_fires (h : cancel.FiresWithin (tree.walk here root).length) :
    walkVolume tree here root cancel = .ok none := by
  obtain ⟨look, hlook, hfired⟩ := h
  unfold walkVolume
  rcases tree.walk_cases here root with ⟨fault, hwalk⟩ | hmet
  · rw [hwalk] at hlook ⊢
    have hzero : look = 0 := by simpa using hlook
    rw [collect, if_pos (hzero ▸ hfired)]
  · exact collect_of_fired 0 hmet ⟨look, hlook, by rwa [Nat.zero_add]⟩

theorem walkVolume_of_not_fires (h : ¬ cancel.FiresWithin (tree.walk here root).length) :
    walkVolume tree here root cancel = walkVolume tree here root none := by
  refine collect_of_not_fired 0 0 fun n hn hfired => h ⟨n, hn, ?_⟩
  rwa [Nat.zero_add] at hfired

/-- A walk that nobody calls off comes to its end, or finds its start unreadable. -/
theorem walkVolume_none_ne (tree : Tree) (here : Place) (root : Bytes) :
    walkVolume tree here root none ≠ .ok none := by
  have hcollect : ∀ (items : List WalkItem) (look : Nat),
      collect tree.sizeOf none look items ≠ .ok none := by
    intro items
    induction items with
    | nil => nofun
    | cons item rest ih =>
      intro look hnone
      unfold collect at hnone
      rw [if_neg (by simp [Cancellation.fired])] at hnone
      split at hnone
      · cases hnone
      · split at hnone
        · cases hnone
        · exact ih _ hnone
  exact hcollect _ 0

end Walk

/-! ## Rounds that are called off -/

@[simp] theorem Catalog.ScanSummary.zero_add (a : ScanSummary) : ScanSummary.zero.add a = a := by
  simp [ScanSummary.add, ScanSummary.zero]

/-- How often a round looks at its token that goes through some mounts. -/
def roundLooks (tree : Tree) (here : Place) (mounts : List Mount) : Nat :=
  (mounts.map fun mount => 1 + (tree.walk here mount.root).length).sum

section Round

variable {tree : Tree} {here : Place} {mount : Mount} {rest : List Mount} {cancel : Cancellation}

theorem roundLooks_cons : roundLooks tree here (mount :: rest) =
    1 + (tree.walk here mount.root).length + roundLooks tree here rest := List.sum_cons

/-- A token that fires before or at the first mount ends the round there. -/
theorem scanMounts_of_fires (h : cancel.FiresWithin (1 + (tree.walk here mount.root).length))
    (r : Registry) (ids : IdSource) :
    scanMounts tree here cancel (mount :: rest) r ids = (.zero, r, ids) := by
  unfold scanMounts
  split
  case isTrue => rfl
  case isFalse hfirst =>
    have hone : ¬ cancel.FiresWithin 1 := by
      rintro ⟨look, hlook, hfired⟩
      rw [Nat.lt_one_iff.mp hlook] at hfired
      exact hfirst hfired
    have hwalk := walkVolume_of_fires ((Cancellation.firesWithin_after hone).mpr h)
    simp only [scanVolume, hwalk, reconcile]

section Reached

variable (h : ¬ cancel.FiresWithin (1 + (tree.walk here mount.root).length))

include h

/-- A mount that the round gets through is scanned as if there were no token. -/
theorem scanMounts_of_reached (r : Registry) (ids : IdSource) :
    scanMounts tree here cancel (mount :: rest) r ids =
      match scanVolume tree here r ids mount.id mount.root none with
      | (.ok none, r, ids) => (.zero, r, ids)
      | (.ok (some summary), r, ids) =>
        let (total, r, ids) := scanMounts tree here
          (cancel.after (1 + (tree.walk here mount.root).length)) rest r ids
        (summary.add total, r, ids)
      | (.error _, r, ids) => scanMounts tree here
          (cancel.after (1 + (tree.walk here mount.root).length)) rest r ids := by
  have hone : ¬ cancel.FiresWithin 1 := fun hfires => h (hfires.mono (Nat.le_add_right _ _))
  have hfirst : ¬ cancel.fired 0 := fun hfired => hone ⟨0, Nat.one_pos, hfired⟩
  have hwalk := walkVolume_of_not_fires (mt (Cancellation.firesWithin_after hone).mp h)
  rw [scanMounts, if_neg hfirst, scanVolume, hwalk]
  rfl

theorem scanMounts_of_unreadable {fault : Fault}
    (hwalk : walkVolume tree here mount.root none = .error fault) (r : Registry) (ids : IdSource) :
    scanMounts tree here cancel (mount :: rest) r ids =
      scanMounts tree here (cancel.after (1 + (tree.walk here mount.root).length)) rest r ids := by
  rw [scanMounts_of_reached h, scanVolume, hwalk]
  rfl

theorem scanMounts_of_found {found : List Found}
    (hwalk : walkVolume tree here mount.root none = .ok (some found)) (r : Registry)
    (ids : IdSource) :
    scanMounts tree here cancel (mount :: rest) r ids =
      let (summary, r, ids) := (Difference.of r mount.id found).apply r ids mount.id
      let (total, r, ids) := scanMounts tree here
        (cancel.after (1 + (tree.walk here mount.root).length)) rest r ids
      (summary.add total, r, ids) := by
  rw [scanMounts_of_reached h, scanVolume, hwalk]
  rfl

end Reached

/-- Wherever it is called off, a round does what a round without a token does to the first so many
mounts: those that it gets through before the token fires. -/
theorem scanMounts_eq_take (tree : Tree) (here : Place) (mounts : List Mount)
    (cancel : Cancellation) :
    ∃ reached ≤ mounts.length,
      (∀ count ≤ mounts.length, count ≤ reached ↔
        ¬ cancel.FiresWithin (roundLooks tree here (mounts.take count))) ∧
      ∀ r ids, scanMounts tree here cancel mounts r ids =
        scanMounts tree here none (mounts.take reached) r ids := by
  induction mounts generalizing cancel with
  | nil =>
    refine ⟨0, Nat.le_refl _, fun count hcount => ?_, fun r ids => rfl⟩
    rw [List.take_nil]
    exact iff_of_true hcount cancel.not_firesWithin_zero
  | cons mount rest ih =>
    by_cases h : cancel.FiresWithin (1 + (tree.walk here mount.root).length)
    case pos =>
      refine ⟨0, Nat.zero_le _, fun count _ => ?_, fun r ids => scanMounts_of_fires h r ids⟩
      cases count with
      | zero => exact iff_of_true (Nat.le_refl _) cancel.not_firesWithin_zero
      | succ count =>
        rw [List.take_succ_cons, roundLooks_cons]
        exact iff_of_false (Nat.not_succ_le_zero _) (not_not.mpr (h.mono (Nat.le_add_right _ _)))
    case neg =>
      obtain ⟨reached, hle, hreached, hround⟩ :=
        ih (cancel.after (1 + (tree.walk here mount.root).length))
      refine ⟨reached + 1, Nat.succ_le_succ hle, fun count hcount => ?_, fun r ids => ?_⟩
      · cases count with
        | zero => exact iff_of_true (Nat.zero_le _) cancel.not_firesWithin_zero
        | succ count =>
          rw [List.take_succ_cons, roundLooks_cons, ← Cancellation.firesWithin_after h,
            ← hreached count (Nat.le_of_succ_le_succ hcount)]
          exact Nat.succ_le_succ_iff
      · have hnone := Cancellation.not_firesWithin_none (1 + (tree.walk here mount.root).length)
        rw [List.take_succ_cons]
        match hwalk : walkVolume tree here mount.root none with
        | .error fault =>
          rw [scanMounts_of_unreadable h hwalk, scanMounts_of_unreadable hnone hwalk, hround]
          rfl
        | .ok none => exact absurd hwalk (walkVolume_none_ne tree here mount.root)
        | .ok (some found) =>
          rw [scanMounts_of_found h hwalk, scanMounts_of_found hnone hwalk]
          simp only [hround]
          rfl

end Round

/-! ## Volumes that were scanned -/

namespace Catalog

/-- One summary of many. -/
def ScanSummary.sum : List ScanSummary → ScanSummary := List.foldr ScanSummary.add .zero

/-- Scans of different volumes, one after the other, have led from the set `s` to `last`, handing
out the first identifiers from the source. -/
structure Swept (s : EntrySet) (ids : IdSource) (scans : List (VolumeId × List Found)) (count : Nat)
    (last : EntrySet) : Prop where
  used : ∀ id, last.HasId id → ids.Used s.HasId count id
  scanned : AllScanned s scans last

theorem swept_start (s : EntrySet) (ids : IdSource) : Swept s ids [] 0 s where
  used _ h := .inl h
  scanned := ⟨nofun, fun volume _ => .refl volume s⟩

section Swept

variable {s now : EntrySet} {ids : IdSource} {scans : List (VolumeId × List Found)}
  {count total : Nat} {volume : VolumeId}

/-- A scan of another volume sees it as it was at first. -/
theorem Swept.scan (h : Swept s ids scans count now) (hids : ids.Fresh s.HasId total)
    (hother : ∀ scan ∈ scans, scan.1 ≠ volume) (found : List Found)
    (htotal : count + (now.carryOut (ids.skip count) (now.plan volume found)).1.added ≤ total) :
    (now.carryOut (ids.skip count) (now.plan volume found)).1 = s.scanSummary volume found ∧
      Swept s ids (scans ++ [(volume, found)])
        (count + (now.carryOut (ids.skip count) (now.plan volume found)).1.added)
        (now.carryOut (ids.skip count) (now.plan volume found)).2.1 := by
  have hsame : s.SameOn volume now := h.scanned.others volume hother
  rw [← hsame.plan_eq] at htotal ⊢
  have hrest : (ids.skip count).Fresh (ids.Used s.HasId count) (total - count) :=
    hids.skip (by omega) fun id hid => hid
  have hfresh : (ids.skip count).Fresh (ids.Used s.HasId count)
      (now.carryOut (ids.skip count) (s.plan volume found)).1.added :=
    hrest.mono (by omega) fun id hid => hid
  obtain ⟨hsummary, hentries⟩ := EntrySet.carryOut_spec (hfresh.mono (Nat.le_refl _) h.used)
  have hunlisted : s.unlisted now volume found = s.absent volume found := by
    rw [EntrySet.unlisted, ← hsame.absent_eq, EntrySet.absent_filter]
  have hlost : (now.entries.filter fun entry => s.Lost volume found entry) =
      s.entries.filter fun entry => s.Lost volume found entry :=
    (hsame.filter_eq fun _ hentry => hentry.1.1).symm
  rw [hunlisted] at hsummary hentries
  rw [hlost] at hsummary
  have hadded : (now.carryOut (ids.skip count) (s.plan volume found)).1.added =
      (s.absent volume found).length := congrArg ScanSummary.added hsummary
  rw [hadded] at hfresh htotal ⊢
  have helsewhere : ∀ other, volume ≠ other → now.SameOn other
      (now.carryOut (ids.skip count) (s.plan volume found)).2.1 := by
    intro other hne entry hvolume
    rw [hentries]
    constructor
    · intro hold
      exact .inl ⟨hold, fun hlost => hne (hlost.1.1.symm.trans hvolume)⟩
    · rintro (⟨hold, -⟩ | ⟨n, f, -, rfl⟩)
      · exact hold
      · exact absurd hvolume hne
  refine ⟨hsummary, ⟨fun id hid => ?_, ?_, ?_⟩⟩
  · obtain ⟨entry, hentry, rfl⟩ := hid
    rcases (hentries entry).mp hentry with ⟨hold, -⟩ | ⟨n, f, hf, rfl⟩
    · exact (h.used _ ⟨entry, hold, rfl⟩).mono (Nat.le_add_right _ _)
    · have hlt : n < (s.absent volume found).length := (List.getElem?_eq_some_iff.mp hf).1
      refine .inr ⟨count + n, Nat.add_lt_add_left hlt _, ?_⟩
      show ids.sequence (ids.drawn + count + n) = _
      rw [Nat.add_assoc]
  · intro scan hscan
    rcases List.mem_append.mp hscan with hscan | hscan
    · exact (h.scanned.scanned scan hscan).congr (helsewhere _ (hother scan hscan).symm)
    · rw [List.mem_singleton.mp hscan]
      refine ⟨ids.skip count, hfresh.mono (Nat.le_refl _) fun id => .inl, fun entry hvolume => ?_⟩
      rw [hentries, hsame entry hvolume]
  · intro other hnone
    rw [List.forall_mem_append] at hnone
    have hne : volume ≠ other := hnone.2 _ (List.mem_singleton.mpr rfl)
    exact (h.scanned.others other hnone.1).trans (helsewhere other hne)

end Swept

/-! ## Rounds without a token -/

/-- The volumes whose roots can be read, with the files below them. -/
def readable (tree : Tree) (here : Place) (mounts : List Mount) : List (VolumeId × List Found) :=
  mounts.filterMap fun mount =>
    match walkVolume tree here mount.root none with
    | .ok (some found) => some (mount.id, found)
    | _ => none

section Round

variable {s : EntrySet} {ids : IdSource} {tree : Tree} {here : Place}

theorem volume_of_mem_readable {mounts : List Mount} {scan : VolumeId × List Found}
    (h : scan ∈ readable tree here mounts) : ∃ mount ∈ mounts, mount.id = scan.1 := by
  obtain ⟨mount, hmount, hfound⟩ := List.mem_filterMap.mp h
  split at hfound
  · cases hfound
    exact ⟨mount, hmount, rfl⟩
  · cases hfound

theorem drawn_scanMounts (tree : Tree) (here : Place) (mounts : List Mount) {r : Registry}
    {now : EntrySet} (hr : r.Holds now) (ids : IdSource) :
    ids.drawn ≤ (scanMounts tree here none mounts r ids).2.2.drawn := by
  induction mounts generalizing r now ids with
  | nil => exact Nat.le_refl _
  | cons mount rest ih =>
    have hnone := Cancellation.not_firesWithin_none (1 + (tree.walk here mount.root).length)
    match hwalk : walkVolume tree here mount.root none with
    | .error fault =>
      rw [scanMounts_of_unreadable hnone hwalk]
      exact ih hr ids
    | .ok none => exact absurd hwalk (walkVolume_none_ne tree here mount.root)
    | .ok (some found) =>
      obtain ⟨-, hids, hholds⟩ := hr.apply (Difference.of r mount.id found) ids mount.id
      rw [scanMounts_of_found hnone hwalk]
      refine le_trans ?_ (ih hholds _)
      rw [hids, EntrySet.carryOut_ids]
      exact Nat.le_add_right _ _

/-- A round without a token scans the volumes whose roots can be read. -/
theorem scanMounts_swept {mounts : List Mount} {total : Nat} (hids : ids.Fresh s.HasId total)
    {scans : List (VolumeId × List Found)} {count : Nat} {now : EntrySet} {r : Registry}
    (h : Swept s ids scans count now) (hr : r.Holds now)
    (hmounts : (scans.map (·.1) ++ mounts.map (·.id)).Nodup)
    (htotal : (scanMounts tree here none mounts r (ids.skip count)).2.2.drawn ≤ ids.drawn + total) :
    ∃ last count', (scanMounts tree here none mounts r (ids.skip count)).2.1.Holds last ∧
      Swept s ids (scans ++ readable tree here mounts) count' last ∧
      (scanMounts tree here none mounts r (ids.skip count)).1 = ScanSummary.sum
        ((readable tree here mounts).map fun scan => s.scanSummary scan.1 scan.2) := by
  induction mounts generalizing scans count now r with
  | nil => exact ⟨now, count, hr, by rwa [readable, List.filterMap_nil, List.append_nil], rfl⟩
  | cons mount rest ih =>
    have hnone := Cancellation.not_firesWithin_none (1 + (tree.walk here mount.root).length)
    match hwalk : walkVolume tree here mount.root none with
    | .error fault =>
      have hreadable : readable tree here (mount :: rest) = readable tree here rest :=
        List.filterMap_cons_none (by rw [hwalk])
      rw [scanMounts_of_unreadable hnone hwalk] at htotal ⊢
      rw [hreadable]
      refine ih h hr (hmounts.sublist ?_) htotal
      exact List.Sublist.append_left (List.sublist_cons_self _ _) _
    | .ok none => exact absurd hwalk (walkVolume_none_ne tree here mount.root)
    | .ok (some found) =>
      have hreadable : readable tree here (mount :: rest) =
          (mount.id, found) :: readable tree here rest :=
        List.filterMap_cons_some (by rw [hwalk])
      obtain ⟨hsummary, hlater, hholds⟩ :=
        hr.apply (Difference.of r mount.id found) (ids.skip count) mount.id
      rw [hr.plan_eq] at hsummary hlater hholds
      rw [EntrySet.carryOut_ids, IdSource.skip_skip] at hlater
      rw [scanMounts_of_found hnone hwalk] at htotal ⊢
      simp only [hsummary, hlater, Cancellation.after_none] at htotal ⊢
      have hdrawn := drawn_scanMounts tree here rest hholds
        (ids.skip (count + (now.carryOut (ids.skip count) (now.plan mount.id found)).1.added))
      rw [IdSource.skip_drawn] at hdrawn
      have hnew : ∀ scan ∈ scans, scan.1 ≠ mount.id := fun scan hscan heq =>
        (List.nodup_append.mp hmounts).2.2 _ (List.mem_map_of_mem hscan) _ List.mem_cons_self heq
      obtain ⟨hscanned, hswept⟩ := h.scan hids hnew found
        (Nat.le_of_add_le_add_left (hdrawn.trans htotal))
      obtain ⟨last, count', hlast, hall, htotals⟩ := ih hswept hholds
        (by simpa [List.append_assoc] using hmounts) htotal
      refine ⟨last, count', hlast, ?_, ?_⟩
      · rwa [hreadable, List.append_cons]
      · rw [htotals, hscanned, hreadable]
        rfl

end Round

/-! ## A volume is reconciled, or left as it was -/

/-- Two catalogs have the same entries of a volume. -/
def Registry.SameOn (volume : VolumeId) (r r' : Registry) : Prop :=
  ∀ entry : Entry, entry.volume = volume → (entry ∈ r ↔ entry ∈ r')

/-- A volume, in the catalog before and the catalog after, was reconciled with the files found. -/
structure Registry.ReconciledOn (volume : VolumeId) (found : List Found) (before after : Registry) :
    Prop where
  /-- There are entries just where files were found. -/
  paths : after.keysOf volume = foundKeys volume found
  /-- Entries of files that are still there are left as they were. -/
  kept : ∀ entry ∈ before, entry.key ∈ foundKeys volume found → entry ∈ after
  /-- Each other file has one entry, which is new and is named by the path. -/
  fresh : ∀ f ∈ found, PathKey.of volume f.path ∉ before.keysOf volume →
    ∃ id, ¬ before.HasId id ∧ ∀ entry, entry ∈ after ∧ entry.key = .of volume f.path ↔
      entry = .ofFile id volume f.path f.size

/-- What became of the volume of a mount that a round got through, and the round's summary of it. -/
inductive Treated (tree : Tree) (here : Place) (before after : Registry) (mount : Mount) :
    ScanSummary → Prop where
  | reconciled (found : List Found) (walk : walkVolume tree here mount.root none = .ok (some found))
      (on : before.ReconciledOn mount.id found after) :
      Treated tree here before after mount
        ⟨(foundKeys mount.id found \ before.keysOf mount.id).card,
          (before.keysOf mount.id \ foundKeys mount.id found).card,
          (foundKeys mount.id found ∩ before.keysOf mount.id).card⟩
  | unreadable (fault : Fault) (walk : walkVolume tree here mount.root none = .error fault)
      (same : before.SameOn mount.id after) : Treated tree here before after mount .zero

section Volumes

variable {before after : Registry} {s last : EntrySet} {volume : VolumeId} {found : List Found}

theorem EntrySet.SameOn.registry (h : s.SameOn volume last) (hbefore : before.Holds s)
    (hafter : after.Holds last) : before.SameOn volume after := by
  intro entry hvolume
  rw [hbefore.mem, hafter.mem]
  exact h entry hvolume

theorem EntrySet.ScannedFrom.reconciledOn (h : s.ScannedFrom volume found last)
    (hbefore : before.Holds s) (hafter : after.Holds last) (hdistinct : DistinctPaths found) :
    before.ReconciledOn volume found after := by
  obtain ⟨ids, hids, hentries⟩ := h
  refine ⟨?_, fun entry hentry hkey => ?_, fun f hf hnone => ?_⟩
  · rw [hafter.keysOf_eq]
    exact EntrySet.keysOf_eq_foundKeys hdistinct hentries
  · have hold := hbefore.mem.mp hentry
    refine hafter.mem.mpr ((hentries entry (volume_of_mem_foundKeys hkey)).mpr (.inl ⟨hold, ?_⟩))
    exact fun hlost => ((EntrySet.lost_iff hold).mp hlost).2 hkey
  · have hlacks : ¬ s.HasKey (.of volume f.path) := fun hhas =>
      hnone (hbefore.mem_keysOf.mpr ⟨rfl, hhas⟩)
    have hlast : ∀ entry, EntrySet.Numbered ids volume (s.absent volume found) entry →
        entry ∈ last := by
      intro entry hnumbered
      have hvolume : entry.volume = volume := by
        obtain ⟨n, g, -, rfl⟩ := hnumbered
        rfl
      exact (hentries entry hvolume).mpr (.inr hnumbered)
    have hnew := EntrySet.exists_of_numbered hids hlast (EntrySet.mem_absent hdistinct hf hlacks)
    simpa only [hbefore.hasId, hafter.mem] using hnew

theorem EntrySet.scanSummary_eq (hbefore : before.Holds s) (hdistinct : DistinctPaths found) :
    s.scanSummary volume found = ⟨(foundKeys volume found \ before.keysOf volume).card,
      (before.keysOf volume \ foundKeys volume found).card,
      (foundKeys volume found ∩ before.keysOf volume).card⟩ := by
  rw [scanSummary, length_absent, card_lost, unchanged_plan hdistinct, hbefore.keysOf_eq]

/-- After the volumes were scanned whose roots can be read, every mount has been treated. -/
theorem AllScanned.treated {tree : Tree} (hs : tree.Sound) (hn : tree.Named) {here : Place}
    {mounts all : List Mount} (h : AllScanned s (readable tree here all) last)
    (hbefore : before.Holds s) (hafter : after.Holds last) (hmounts : (all.map (·.id)).Nodup)
    (hsub : mounts ⊆ all) :
    ∃ summaries, List.Forall₂ (Treated tree here before after) mounts summaries ∧
      ScanSummary.sum ((readable tree here mounts).map fun scan => s.scanSummary scan.1 scan.2) =
        ScanSummary.sum summaries := by
  induction mounts with
  | nil => exact ⟨[], .nil, rfl⟩
  | cons mount rest ih =>
    obtain ⟨hmem, hsub⟩ := List.cons_subset.mp hsub
    obtain ⟨summaries, hrest, hsum⟩ := ih hsub
    match hwalk : walkVolume tree here mount.root none with
    | .error fault =>
      have hreadable : readable tree here (mount :: rest) = readable tree here rest :=
        List.filterMap_cons_none (by rw [hwalk])
      refine ⟨.zero :: summaries, .cons (.unreadable fault hwalk ?_) hrest, ?_⟩
      · refine (h.others mount.id fun scan hscan heq => ?_).registry hbefore hafter
        -- a mount of the same volume would be this one, whose root cannot be read
        obtain ⟨other, hother, hfound⟩ := List.mem_filterMap.mp hscan
        split at hfound
        case h_1 found hread =>
          cases hfound
          rw [List.inj_on_of_nodup_map hmounts hother hmem heq, hwalk] at hread
          cases hread
        case h_2 => cases hfound
      · rw [hreadable, hsum]
        exact (ScanSummary.zero_add _).symm
    | .ok none => exact absurd hwalk (walkVolume_none_ne tree here mount.root)
    | .ok (some found) =>
      have hreadable : readable tree here (mount :: rest) =
          (mount.id, found) :: readable tree here rest :=
        List.filterMap_cons_some (by rw [hwalk])
      have hdistinct := distinctPaths_walkVolume hs hn hwalk
      have hscan : (mount.id, found) ∈ readable tree here all :=
        List.mem_filterMap.mpr ⟨mount, hmem, by rw [hwalk]⟩
      refine ⟨_, .cons (.reconciled found hwalk ?_) hrest, ?_⟩
      · exact (h.scanned _ hscan).reconciledOn hbefore hafter hdistinct
      · rw [hreadable, List.map_cons, EntrySet.scanSummary_eq hbefore hdistinct]
        exact congrArg (ScanSummary.add _) hsum

end Volumes

end Catalog

/-- **A round is atomic for each volume.** Wherever its token fires, a round treats the first so
many mounts, in the order of their volumes: just those that it gets through before. Of these every
readable one is reconciled, and every unreadable one is left as it was. All other volumes, mounted
or not, are left as they were too, and the round reports the sum of what was done. -/
theorem scanAll_atomic (shelf : Shelf) (hmounts : shelf.Mounted) (hr : shelf.registry.Consistent)
    (tree : Tree) (hs : tree.Sound) (hn : tree.Named) (here : Place) (cancel : Cancellation) :
    let (total, next) := shelf.scanAll tree here cancel
    shelf.ids.FreshUntil next.ids shelf.registry.HasId →
      shelf.mounts.Ordered ∧ next.registry.Consistent ∧
      next = { shelf with registry := next.registry, ids := next.ids } ∧
      ∃ reached ≤ shelf.mounts.length,
        (∀ count ≤ shelf.mounts.length, count ≤ reached ↔
          ¬ cancel.FiresWithin (roundLooks tree here (shelf.mounts.take count))) ∧
        (∃ summaries, List.Forall₂ (Treated tree here shelf.registry next.registry)
          (shelf.mounts.take reached) summaries ∧ total = ScanSummary.sum summaries) ∧
        ∀ volume, (∀ mount ∈ shelf.mounts.take reached, mount.id ≠ volume) →
          shelf.registry.SameOn volume next.registry := by
  obtain ⟨s, hholds⟩ := hr.exists_holds
  have hordered := hmounts.ordered
  have hnodup : (shelf.mounts.map (·.id)).Nodup :=
    List.pairwise_map.mpr (hordered.imp fun hlt => ne_of_lt hlt)
  obtain ⟨reached, hle, hreached, hround⟩ := scanMounts_eq_take tree here shelf.mounts cancel
  unfold Shelf.scanAll
  rw [hround]
  intro hids
  have hfresh : shelf.ids.FreshUntil
      (scanMounts tree here none (shelf.mounts.take reached) shelf.registry shelf.ids).2.2
      s.HasId :=
    hids.mono (Nat.le_refl _) fun id => hholds.hasId.mpr
  have htaken : ((shelf.mounts.take reached).map (·.id)).Nodup :=
    hnodup.sublist ((List.take_sublist _ _).map _)
  obtain ⟨last, count, hlast, hswept, htotal⟩ := scanMounts_swept hfresh (swept_start s shelf.ids)
    hholds htaken (by
      show (scanMounts tree here none (shelf.mounts.take reached) shelf.registry
        shelf.ids).2.2.drawn ≤ _
      omega)
  obtain ⟨summaries, htreated, hsum⟩ := hswept.scanned.treated hs hn hholds hlast
    htaken (List.Subset.refl _)
  refine ⟨hordered, hlast.consistent, rfl, reached, hle, hreached,
    ⟨summaries, htreated, htotal.trans hsum⟩, fun volume hnone => ?_⟩
  refine EntrySet.SameOn.registry (hswept.scanned.others volume fun scan hscan heq => ?_) hholds
    hlast
  obtain ⟨mount, hmount, hid⟩ := volume_of_mem_readable hscan
  exact hnone mount hmount (hid.trans heq)

/-- A shelf with mounts `v` and `x` of the root `/r`, and a mount `w` of a root that is missing. -/
def threeMounts : Shelf where
  mode := .direct
  bufferSize := 1
  mounts := [⟨"v", [47, 114], .ofCapacity 1⟩, ⟨"w", [47, 113], .ofCapacity 1⟩,
    ⟨"x", [47, 114], .ofCapacity 1⟩]
  rescanInterval := Shelf.defaultRescanInterval
  registry := olderRegistry
  ids := .after ⟨9⟩

/-- The token fires on the way through the third mount: it is left out, and the first one is
reconciled although the second one cannot be read. -/
theorem scanAll_atomic_threeMounts :
    let (total, next) := threeMounts.scanAll newerTree [] (some 7)
    (∃ summaries, List.Forall₂ (Treated newerTree [] olderRegistry next.registry)
      (threeMounts.mounts.take 2) summaries ∧ total = ScanSummary.sum summaries) ∧
      olderRegistry.SameOn "x" next.registry := by
  have hmounted : threeMounts.Mounted :=
    ⟨[⟨"x", [47, 114], .ofCapacity 1⟩, ⟨"v", [47, 114], .ofCapacity 1⟩,
      ⟨"w", [47, 113], .ofCapacity 1⟩], threeMounts.mounts, by decide, rfl⟩
  have hdrawn : (threeMounts.scanAll newerTree [] (some 7)).2.ids.drawn = 1 := by cbv
  have hids : threeMounts.ids.FreshUntil (threeMounts.scanAll newerTree [] (some 7)).2.ids
      olderRegistry.HasId := by
    rw [IdSource.FreshUntil, hdrawn]
    decide +kernel
  obtain ⟨-, -, -, reached, hle, hreached, hsum, hothers⟩ := scanAll_atomic threeMounts hmounted
    olderRegistry_consistent newerTree (by decide) (by decide) [] (some 7) hids
  have hlooks : roundLooks newerTree [] (threeMounts.mounts.take 2) = 6 := by cbv
  have hlooks' : roundLooks newerTree [] (threeMounts.mounts.take 3) = 10 := by cbv
  have htwo := hreached 2 (by decide)
  have hthree := hreached 3 (by decide)
  rw [hlooks, Cancellation.firesWithin_some] at htwo
  rw [hlooks', Cancellation.firesWithin_some] at hthree
  obtain rfl : reached = 2 := by omega
  exact ⟨hsum, hothers "x" (by decide)⟩

end MediaShelf
