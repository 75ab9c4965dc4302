import MediaShelf.Proofs.Catalog.Reconcile
import MediaShelf.Proofs.Catalog.Scans

/-!
# Scans of different volumes

Scans of different volumes do not get in each other's way: however their parts are mixed, they leave
the catalog, and report, as if they had come one after the other (`scans_serializable`). While others
scan other volumes, the entries of a volume stay the same (`Traced.frame`), so that both parts of its
one scan see it as it was at first (`scan_of_split`).
-/

namespace MediaShelf.Catalog

/-! ## Mixed scans -/

/-- Both parts of the scan that a caller is given. -/
def partsOf (scans : List (VolumeId × List Found)) (caller : Caller) : List (Caller × ScanPart) :=
  match scans[caller]? with
  | some (volume, found) => [(caller, .compare volume found), (caller, .apply)]
  | none => []

/-- Each of the callers does both parts of its scan in turn, while the others do theirs. -/
structure Interleaves (scans : List (VolumeId × List Found)) (parts : List (Caller × ScanPart)) :
    Prop where
  callers : ∀ head ∈ parts, head.1 < scans.length
  inTurn : ∀ caller < scans.length, parts.filter (·.1 = caller) = partsOf scans caller

def oneByOne (scans : List (VolumeId × List Found)) (order : List Caller) :
    List (Caller × ScanPart) := order.flatMap (partsOf scans)

/-- What a caller is told. -/
def told (parts : List (Caller × ScanPart)) (replies : List Reply) (caller : Caller) : List Reply :=
  ((parts.zip replies).filter (·.1.1 = caller)).map (·.2)

/-- Catalogs that have grown out of one, and differ only in the identifiers that were new. -/
def SameButNewIds (start a b : Registry) : Prop :=
  ∃ rename : EntryId → EntryId, (∀ id, start.HasId id → rename id = id) ∧
    (∀ x ∈ a, ∀ y ∈ a, rename x.id = rename y.id → x = y) ∧
    ∀ entry, entry ∈ b ↔ ∃ old ∈ a, entry = { old with id := rename old.id }

variable {scans : List (VolumeId × List Found)} {caller : Caller}

theorem partsOf_of_getElem? {volume : VolumeId} {found : List Found}
    (h : scans[caller]? = some (volume, found)) :
    partsOf scans caller = [(caller, .compare volume found), (caller, .apply)] := by
  unfold partsOf
  rw [h]

theorem fst_of_mem_partsOf {head : Caller × ScanPart} (h : head ∈ partsOf scans caller) :
    head.1 = caller := by
  unfold partsOf at h
  split at h
  · rcases List.mem_pair.mp h with rfl | rfl <;> rfl
  · cases h

theorem interleaves_oneByOne {order : List Caller}
    (horder : order.Perm (List.range scans.length)) : Interleaves scans (oneByOne scans order) where
  callers head hhead := by
    obtain ⟨caller, hcaller, hmem⟩ := List.mem_flatMap.mp hhead
    rw [fst_of_mem_partsOf hmem]
    exact List.mem_range.mp (horder.mem_iff.mp hcaller)
  inTurn caller hcaller := by
    have hmem : caller ∈ order := horder.mem_iff.mpr (List.mem_range.mpr hcaller)
    have hnodup : order.Nodup := horder.nodup_iff.mpr List.nodup_range
    obtain ⟨front, back, rfl⟩ := List.append_of_mem hmem
    obtain ⟨-, hback, hfront⟩ := List.nodup_append.mp hnodup
    have hothers : ∀ others : List Caller, caller ∉ others →
        (others.flatMap (partsOf scans)).filter (·.1 = caller) = [] := by
      intro others hnot
      rw [List.filter_eq_nil_iff]
      intro head hhead heq
      obtain ⟨other, hother, hpart⟩ := List.mem_flatMap.mp hhead
      rw [decide_eq_true_iff, fst_of_mem_partsOf hpart] at heq
      exact hnot (heq ▸ hother)
    have hself : (partsOf scans caller).filter (·.1 = caller) = partsOf scans caller :=
      List.filter_eq_self.mpr fun head hhead => by simpa using fst_of_mem_partsOf hhead
    rw [oneByOne, List.flatMap_append, List.flatMap_cons, List.filter_append, List.filter_append,
      hothers front fun hin => hfront caller hin caller List.mem_cons_self rfl, hself,
      hothers back (List.nodup_cons.mp hback).1, List.nil_append, List.append_nil]

theorem told_append {first second : List (Caller × ScanPart)} {replies others : List Reply}
    (h : first.length = replies.length) : told (first ++ second) (replies ++ others) caller =
      told first replies caller ++ told second others caller := by
  rw [told, List.zip_append h, List.filter_append, List.map_append]
  rfl

theorem told_cons_self (part : ScanPart) (rest : List (Caller × ScanPart)) (reply : Reply)
    (replies : List Reply) :
    told ((caller, part) :: rest) (reply :: replies) caller = reply :: told rest replies caller := by
  rw [told, List.zip_cons_cons, List.filter_cons_of_pos (by simp), List.map_cons]
  rfl

theorem told_of_others {parts : List (Caller × ScanPart)} (h : ∀ head ∈ parts, head.1 ≠ caller)
    (replies : List Reply) : told parts replies caller = [] := by
  rw [told, List.map_eq_nil_iff, List.filter_eq_nil_iff]
  intro pair hpair
  simpa using h pair.1 (List.of_mem_zip hpair).1

theorem PlainShared.snd_run_append (p : PlainShared) (first second : List (Caller × ScanPart)) :
    (p.run (first ++ second)).2 = ((p.run first).2.run second).2 := by
  rw [run_append]

theorem PlainShared.told_append_of_others {p : PlainShared} {front : List (Caller × ScanPart)}
    (h : ∀ head ∈ front, head.1 ≠ caller) (rest : List (Caller × ScanPart)) :
    told (front ++ rest) (p.run (front ++ rest)).1 caller =
      told rest ((p.run front).2.run rest).1 caller := by
  rw [run_append, told_append (p.length_run front).symm, told_of_others h, List.nil_append]

/-! ## The entries of a volume -/

namespace EntrySet

/-- Two sets have the same entries of a volume. -/
def SameOn (volume : VolumeId) (s s' : EntrySet) : Prop :=
  ∀ entry, entry.volume = volume → (entry ∈ s ↔ entry ∈ s')

variable {s s' : EntrySet} {volume : VolumeId} {found : List Found}

theorem SameOn.refl (volume : VolumeId) (s : EntrySet) : SameOn volume s s := fun _ _ => Iff.rfl

theorem SameOn.trans {s'' : EntrySet} (h : SameOn volume s s') (h' : SameOn volume s' s'') :
    SameOn volume s s'' := fun entry hvolume => (h entry hvolume).trans (h' entry hvolume)

theorem SameOn.hasKey (h : SameOn volume s s') (path : Bytes) :
    s.HasKey (.of volume path) ↔ s'.HasKey (.of volume path) :=
  exists_congr fun entry => and_congr_left fun hkey => h entry (congrArg PathKey.volume hkey)

theorem SameOn.filter_eq (h : SameOn volume s s') {q : Entry → Prop} [DecidablePred q]
    (hq : ∀ entry, q entry → entry.volume = volume) : s.entries.filter q = s'.entries.filter q := by
  ext entry
  rw [Finset.mem_filter, Finset.mem_filter]
  exact and_congr_left fun hentry => h entry (hq entry hentry)

theorem SameOn.plan_eq (h : SameOn volume s s') (found : List Found) :
    s.plan volume found = s'.plan volume found := by
  have hgone : (s.entries.filter fun entry => entry.volume = volume ∧
        ∀ f ∈ found, entry.key ≠ .of volume f.path) =
      s'.entries.filter fun entry => entry.volume = volume ∧
        ∀ f ∈ found, entry.key ≠ .of volume f.path := h.filter_eq fun _ hentry => hentry.1
  unfold plan
  simp only [h.hasKey, hgone]

theorem SameOn.absent_eq (h : SameOn volume s s') (files : List Found) :
    s.absent volume files = s'.absent volume files := absent_congr fun f _ => h.hasKey f.path

/-- What a scan reports that sees a volume as it is in the set. -/
def scanSummary (s : EntrySet) (volume : VolumeId) (found : List Found) : ScanSummary :=
  ⟨(s.absent volume found).length, (s.entries.filter fun entry => s.Lost volume found entry).card,
    (s.plan volume found).unchanged⟩

/-- A set has come out of another one by a scan of a volume, as far as the volume is concerned. -/
def ScannedFrom (s : EntrySet) (volume : VolumeId) (found : List Found) (last : EntrySet) : Prop :=
  ∃ ids : IdSource, ids.Fresh s.HasId (s.absent volume found).length ∧
    ∀ entry, entry.volume = volume → (entry ∈ last ↔
      (entry ∈ s ∧ ¬ s.Lost volume found entry) ∨ Numbered ids volume (s.absent volume found) entry)

theorem ScannedFrom.congr {last last' : EntrySet} (h : s.ScannedFrom volume found last)
    (hsame : last.SameOn volume last') : s.ScannedFrom volume found last' := by
  obtain ⟨ids, hids, hentries⟩ := h
  refine ⟨ids, hids, fun entry hvolume => ?_⟩
  rw [← hsame entry hvolume, hentries entry hvolume]

end EntrySet

/-! ## While others scan other volumes -/

/-- Nobody else than a caller is about to change a volume. -/
def PlainShared.LeftTo (p : PlainShared) (volume : VolumeId) (caller : Caller) : Prop :=
  ∀ other plan, p.plans other = some plan → plan.volume = volume → other = caller

/-- A part of somebody else's scan, of another volume. -/
def Elsewhere (volume : VolumeId) (caller : Caller) (head : Caller × ScanPart) : Prop :=
  head.1 ≠ caller ∧ ∀ found, head.2 ≠ .compare volume found

section Frame

variable {s : EntrySet} {ids : IdSource} {count total : Nat} {p : PlainShared} {volume : VolumeId}

theorem Traced.frame_step (h : Traced s ids count p) (hids : ids.Fresh s.HasId total)
    {head : Caller × ScanPart} (htotal : (p.part head.1 head.2).2.ids.drawn ≤ ids.drawn + total)
    (hleft : p.LeftTo volume caller) (hhead : Elsewhere volume caller head) :
    EntrySet.SameOn volume p.entries (p.part head.1 head.2).2.entries ∧
      (p.part head.1 head.2).2.LeftTo volume caller := by
  obtain ⟨other, part⟩ := head
  obtain ⟨hother, hpart⟩ := hhead
  cases part with
  | compare volume' found =>
    have hvolume : volume' ≠ volume := fun heq => hpart found (by rw [heq])
    refine ⟨.refl _ _, fun third plan hplan hplanned => ?_⟩
    simp only [PlainShared.part, Function.update_apply] at hplan
    split at hplan
    · cases hplan
      exact absurd hplanned hvolume
    · exact hleft third plan hplan hplanned
  | apply =>
    cases hplan : p.plans other with
    | none =>
      simp only [PlainShared.part, hplan]
      exact ⟨.refl _ _, hleft⟩
    | some plan =>
      obtain ⟨earlier, volume', found, rfl, -⟩ := h.plans other plan hplan
      have hvolume : volume' ≠ volume := fun heq => hother (hleft other _ hplan heq)
      obtain ⟨happlied, -⟩ := h.apply hids hplan htotal
      refine ⟨fun entry hentry => ?_, fun third plan hthird hplanned => ?_⟩
      · rw [happlied.entries]
        constructor
        · intro hmem
          exact .inl ⟨hmem, fun hlost => hvolume (hlost.1.1.symm.trans hentry)⟩
        · rintro (⟨hmem, -⟩ | ⟨n, f, -, rfl⟩)
          · exact hmem
          · exact absurd hentry hvolume
      · rw [happlied.plans, Function.update_apply] at hthird
        split at hthird
        · cases hthird
        · exact hleft third plan hthird hplanned

/-- While others scan other volumes, the entries of a volume stay the same. -/
theorem Traced.frame (h : Traced s ids count p) (hids : ids.Fresh s.HasId total)
    {parts : List (Caller × ScanPart)} (htotal : (p.run parts).2.ids.drawn ≤ ids.drawn + total)
    (hleft : p.LeftTo volume caller) (hparts : ∀ head ∈ parts, Elsewhere volume caller head) :
    EntrySet.SameOn volume p.entries (p.run parts).2.entries ∧
      (p.run parts).2.LeftTo volume caller ∧ (p.run parts).2.plans caller = p.plans caller := by
  induction parts generalizing p count with
  | nil => exact ⟨.refl _ _, hleft, rfl⟩
  | cons head rest ih =>
    rw [List.forall_mem_cons] at hparts
    rw [PlainShared.run_cons] at htotal ⊢
    have hnext := Nat.le_trans (PlainShared.drawn_run _ rest) htotal
    obtain ⟨hsame, hleft⟩ := h.frame_step hids hnext hleft hparts.1
    obtain ⟨more, hmore⟩ := h.step hids hnext
    obtain ⟨hsame', hleft', hplans⟩ := ih hmore htotal hleft hparts.2
    refine ⟨hsame.trans hsame', hleft', hplans.trans ?_⟩
    exact PlainShared.plans_part_of_ne hparts.1.1.symm head.2

end Frame

/-! ## One scan among others -/

theorem Interleaves.compare_mem {parts : List (Caller × ScanPart)} (h : Interleaves scans parts)
    {volume : VolumeId} {found : List Found} (hmem : (caller, .compare volume found) ∈ parts) :
    scans[caller]? = some (volume, found) := by
  have hpart : (caller, ScanPart.compare volume found) ∈ partsOf scans caller := by
    rw [← h.inTurn caller (h.callers _ hmem)]
    exact List.mem_filter.mpr ⟨hmem, by simp⟩
  unfold partsOf at hpart
  split at hpart
  case h_1 volume' found' hscan =>
    rw [hscan]
    rcases List.mem_pair.mp hpart with heq | heq
    · cases heq
      rfl
    · cases heq
  case h_2 => cases hpart

/-- In mixed scans a caller does the parts of its scan, and the others scan other volumes. -/
theorem Interleaves.split {parts : List (Caller × ScanPart)} (h : Interleaves scans parts)
    (hvolumes : (scans.map (·.1)).Nodup) {volume : VolumeId} {found : List Found}
    (hscan : scans[caller]? = some (volume, found)) :
    ∃ front middle back,
      parts = front ++ (caller, .compare volume found) :: (middle ++ (caller, .apply) :: back) ∧
      ∀ head ∈ front ++ middle ++ back, Elsewhere volume caller head := by
  have hfilter := h.inTurn caller (List.getElem?_eq_some_iff.mp hscan).1
  rw [partsOf_of_getElem? hscan] at hfilter
  obtain ⟨front, rest, rfl, hfront, -, hrest⟩ := List.filter_eq_cons_iff.mp hfilter
  obtain ⟨middle, back, rfl, hmiddle, -, hback⟩ := List.filter_eq_cons_iff.mp hrest
  refine ⟨front, middle, back, rfl, fun head hhead => ?_⟩
  have hother : head.1 ≠ caller := by
    rw [List.filter_eq_nil_iff] at hback
    rw [List.append_assoc, List.mem_append, List.mem_append] at hhead
    rcases hhead with hin | hin | hin
    · simpa using hfront head hin
    · simpa using hmiddle head hin
    · simpa using hback head hin
  refine ⟨hother, fun found' hcompare => ?_⟩
  -- somebody else who compared the volume would have been given the same scan
  obtain ⟨other, part⟩ := head
  subst hcompare
  have hin : (other, .compare volume found') ∈
      front ++ (caller, .compare volume found) :: (middle ++ (caller, .apply) :: back) := by
    simp only [List.mem_append, List.mem_cons] at hhead ⊢
    tauto
  have hget : (scans.map (·.1))[other]? = (scans.map (·.1))[caller]? := by
    rw [List.getElem?_map, List.getElem?_map, h.compare_mem hin, hscan]
    rfl
  have hlt : other < (scans.map (·.1)).length := by
    rw [List.length_map]
    exact h.callers _ hin
  exact hother ((List.getElem?_inj hlt hvolumes).mp hget)

section Scan

variable {s : EntrySet} {ids : IdSource} {total : Nat} {p : PlainShared} {volume : VolumeId}
  {found : List Found} {plan : Option Plan}

/-- A volume is as it was in the set `s`, and only the caller is going to change it, by a plan. -/
structure Untouched (s : EntrySet) (ids : IdSource) (volume : VolumeId) (caller : Caller)
    (plan : Option Plan) (p : PlainShared) : Prop where
  traced : ∃ count, Traced s ids count p
  same : s.SameOn volume p.entries
  left : p.LeftTo volume caller
  plan : p.plans caller = plan

theorem untouched_resting (s : EntrySet) (ids : IdSource) (volume : VolumeId) (caller : Caller) :
    Untouched s ids volume caller none (.resting s ids) where
  traced := ⟨0, traced_start s ids⟩
  same := .refl _ _
  left := nofun
  plan := rfl

theorem Untouched.run (h : Untouched s ids volume caller plan p) (hids : ids.Fresh s.HasId total)
    {parts : List (Caller × ScanPart)} (htotal : (p.run parts).2.ids.drawn ≤ ids.drawn + total)
    (hparts : ∀ head ∈ parts, Elsewhere volume caller head) :
    Untouched s ids volume caller plan (p.run parts).2 := by
  obtain ⟨count, htraced⟩ := h.traced
  obtain ⟨hsame, hleft, hplans⟩ := htraced.frame hids htotal h.left hparts
  obtain ⟨more, hmore⟩ := htraced.run hids htotal
  exact ⟨⟨_, hmore⟩, h.same.trans hsame, hleft, hplans.trans h.plan⟩

theorem Untouched.compare (h : Untouched s ids volume caller plan p) (found : List Found) :
    Untouched s ids volume caller (some (s.plan volume found))
      (p.part caller (.compare volume found)).2 := by
  obtain ⟨count, htraced⟩ := h.traced
  refine ⟨⟨count, htraced.source, htraced.entries, fun other plan hplan => ?_⟩, h.same,
    fun other plan hplan hvolume => ?_, ?_⟩
  · simp only [PlainShared.part, Function.update_apply] at hplan
    split at hplan
    · exact ⟨p.entries, volume, found, (Option.some.inj hplan).symm, htraced.entries⟩
    · exact htraced.plans other plan hplan
  · simp only [PlainShared.part, Function.update_apply] at hplan
    split at hplan
    case isTrue heq => exact heq
    case isFalse => exact h.left other plan hplan hvolume
  · simp only [PlainShared.part, Function.update_self, h.same.plan_eq found]

theorem Untouched.apply (h : Untouched s ids volume caller (some (s.plan volume found)) p)
    (hids : ids.Fresh s.HasId total)
    (htotal : (p.part caller .apply).2.ids.drawn ≤ ids.drawn + total) :
    (p.part caller .apply).1 = .scanned (some (s.scanSummary volume found)) ∧
      s.ScannedFrom volume found (p.part caller .apply).2.entries ∧
      (∃ count, Traced s ids count (p.part caller .apply).2) ∧
      (p.part caller .apply).2.LeftTo volume caller := by
  obtain ⟨count, htraced⟩ := h.traced
  obtain ⟨happlied, hfresh⟩ := htraced.apply hids h.plan htotal
  have hunlisted : s.unlisted p.entries volume found = s.absent volume found := by
    rw [EntrySet.unlisted, ← h.same.absent_eq, EntrySet.absent_filter]
  have hlost : (p.entries.entries.filter fun entry => s.Lost volume found entry) =
      s.entries.filter fun entry => s.Lost volume found entry :=
    (h.same.filter_eq fun _ hentry => hentry.1.1).symm
  have hreply := happlied.reply
  have hentries := happlied.entries
  rw [hunlisted] at hreply hentries hfresh
  rw [hlost] at hreply
  obtain ⟨more, hmore⟩ := htraced.step hids htotal
  refine ⟨hreply, ⟨p.ids, hfresh.mono (Nat.le_refl _) fun id => .inl, fun entry hvolume => ?_⟩,
    ⟨_, hmore⟩, fun other plan hplan hvolume => ?_⟩
  · rw [hentries, h.same entry hvolume]
  · rw [happlied.plans, Function.update_apply] at hplan
    split at hplan
    · cases hplan
    · exact h.left other plan hplan hvolume

theorem Untouched.finish (h : Untouched s ids volume caller (some (s.plan volume found)) p)
    (hids : ids.Fresh s.HasId total) {back : List (Caller × ScanPart)}
    (htotal : (p.run ((caller, .apply) :: back)).2.ids.drawn ≤ ids.drawn + total)
    (hback : ∀ head ∈ back, Elsewhere volume caller head) :
    told ((caller, .apply) :: back) (p.run ((caller, .apply) :: back)).1 caller =
        [.scanned (some (s.scanSummary volume found))] ∧
      s.ScannedFrom volume found (p.run ((caller, .apply) :: back)).2.entries := by
  rw [PlainShared.run_cons] at htotal ⊢
  have hnext := Nat.le_trans (PlainShared.drawn_run _ back) htotal
  obtain ⟨hreply, hscanned, ⟨count, htraced⟩, hleft⟩ := h.apply hids hnext
  obtain ⟨hsame, -⟩ := htraced.frame hids htotal hleft hback
  rw [told_cons_self, told_of_others fun head hhead => (hback head hhead).1, hreply]
  exact ⟨rfl, hscanned.congr hsame⟩

/-- Among scans of other volumes, a scan sees its volume as it was at first, both times. -/
theorem scan_of_split {front middle back : List (Caller × ScanPart)}
    (hothers : ∀ head ∈ front ++ middle ++ back, Elsewhere volume caller head)
    (hids : ids.FreshUntil ((PlainShared.resting s ids).run
      (front ++ (caller, .compare volume found) :: (middle ++ (caller, .apply) :: back))).2.ids
      s.HasId) :
    told (front ++ (caller, .compare volume found) :: (middle ++ (caller, .apply) :: back))
        ((PlainShared.resting s ids).run
          (front ++ (caller, .compare volume found) :: (middle ++ (caller, .apply) :: back))).1
        caller = [.done, .scanned (some (s.scanSummary volume found))] ∧
      s.ScannedFrom volume found ((PlainShared.resting s ids).run
        (front ++ (caller, .compare volume found) :: (middle ++ (caller, .apply) :: back))).2.entries := by
  simp only [List.forall_mem_append] at hothers
  obtain ⟨⟨hfront, hmiddle⟩, hback⟩ := hothers
  rw [PlainShared.told_append_of_others fun head hhead => (hfront head hhead).1]
  simp only [PlainShared.snd_run_append] at hids ⊢
  have hstart := untouched_resting s ids volume caller
  unfold IdSource.FreshUntil at hids
  generalize PlainShared.resting s ids = start at hids hstart ⊢
  generalize htotal : ((start.run front).2.run
    ((caller, .compare volume found) :: (middle ++ (caller, .apply) :: back))).2.ids.drawn = final
    at hids
  have hfirst := hstart.run hids
    (Nat.le_trans (PlainShared.drawn_run _ _) (htotal.trans_le (by omega))) hfront
  rw [PlainShared.run_cons, PlainShared.snd_run_append] at htotal
  have hwaited := (hfirst.compare found).run hids
    (Nat.le_trans (PlainShared.drawn_run _ _) (htotal.trans_le (by omega))) hmiddle
  obtain ⟨htold, hscanned⟩ := hwaited.finish hids (htotal.trans_le (by omega)) hback
  rw [PlainShared.run_cons, told_cons_self,
    PlainShared.told_append_of_others fun head hhead => (hmiddle head hhead).1, htold]
  refine ⟨rfl, ?_⟩
  rw [PlainShared.snd_run_append]
  exact hscanned

end Scan

/-! ## All scans together -/

/-- A set has come out of another one by scans of different volumes. -/
structure AllScanned (s : EntrySet) (scans : List (VolumeId × List Found)) (last : EntrySet) :
    Prop where
  scanned : ∀ scan ∈ scans, s.ScannedFrom scan.1 scan.2 last
  others : ∀ volume, (∀ scan ∈ scans, scan.1 ≠ volume) → s.SameOn volume last

/-- Mixed scans leave nothing else, and tell nothing else, than what the set at first determines. -/
theorem Interleaves.allScanned {parts : List (Caller × ScanPart)} (h : Interleaves scans parts)
    (hvolumes : (scans.map (·.1)).Nodup) {s : EntrySet} {ids : IdSource}
    (hids : ids.FreshUntil ((PlainShared.resting s ids).run parts).2.ids s.HasId) :
    AllScanned s scans ((PlainShared.resting s ids).run parts).2.entries ∧
      ∀ caller volume found, scans[caller]? = some (volume, found) →
        told parts ((PlainShared.resting s ids).run parts).1 caller =
          [.done, .scanned (some (s.scanSummary volume found))] := by
  have hscan : ∀ caller volume found, scans[caller]? = some (volume, found) →
      told parts ((PlainShared.resting s ids).run parts).1 caller =
          [.done, .scanned (some (s.scanSummary volume found))] ∧
        s.ScannedFrom volume found ((PlainShared.resting s ids).run parts).2.entries := by
    intro caller volume found hscan
    obtain ⟨front, middle, back, rfl, hothers⟩ := h.split hvolumes hscan
    exact scan_of_split hothers hids
  refine ⟨⟨fun scan hmem => ?_, fun volume hnone => ?_⟩, fun caller volume found hget =>
    (hscan caller volume found hget).1⟩
  · obtain ⟨caller, hget⟩ := List.mem_iff_getElem?.mp hmem
    exact (hscan caller scan.1 scan.2 hget).2
  · -- nobody scans the volume: it is left to a caller that does nothing
    have hparts : ∀ head ∈ parts, Elsewhere volume scans.length head := by
      intro head hhead
      refine ⟨Nat.ne_of_lt (h.callers head hhead), fun found hcompare => ?_⟩
      obtain ⟨other, part⟩ := head
      subst hcompare
      exact hnone _ (List.mem_of_getElem? (h.compare_mem hhead)) rfl
    have hdrawn := (PlainShared.resting s ids).drawn_run parts
    exact ((untouched_resting s ids volume scans.length).run hids (by omega) hparts).same

theorem AllScanned.exists_alike {s a b : EntrySet} (ha : AllScanned s scans a)
    (hb : AllScanned s scans b) {x : Entry} (hx : x ∈ a) :
    ∃ y ∈ b, y = { x with id := y.id } ∧ (s.HasId x.id → y.id = x.id) := by
  by_cases hscanned : ∃ scan ∈ scans, scan.1 = x.volume
  · obtain ⟨⟨volume, found⟩, hmem, rfl⟩ := hscanned
    obtain ⟨ids, hids, hentries⟩ := ha.scanned _ hmem
    obtain ⟨ids', -, hentries'⟩ := hb.scanned _ hmem
    rcases (hentries x rfl).mp hx with hkept | ⟨n, f, hf, heq⟩
    · exact ⟨x, (hentries' x rfl).mpr (.inl hkept), rfl, fun _ => rfl⟩
    · have hnew : ¬ s.HasId x.id := by
        rw [heq]
        exact hids.unused n (List.getElem?_eq_some_iff.mp hf).1
      have hother : .ofFile (ids'.sequence (ids'.drawn + n)) x.volume f.path f.size ∈ b :=
        (hentries' (.ofFile _ x.volume f.path f.size) rfl).mpr (.inr ⟨n, f, hf, rfl⟩)
      refine ⟨_, hother, ?_, fun hold => absurd hold hnew⟩
      rw [heq]
      rfl
  · have hnone : ∀ scan ∈ scans, scan.1 ≠ x.volume := fun scan hmem heq => hscanned ⟨scan, hmem, heq⟩
    refine ⟨x, ?_, rfl, fun _ => rfl⟩
    exact (hb.others x.volume hnone x rfl).mp ((ha.others x.volume hnone x rfl).mpr hx)

/-- Sets that came out of the same scans differ in the identifiers that were new. -/
theorem AllScanned.exists_rename {s a b : EntrySet} (ha : AllScanned s scans a)
    (hb : AllScanned s scans b) :
    ∃ rename : EntryId → EntryId, (∀ id, s.HasId id → rename id = id) ∧
      (∀ x ∈ a, ∀ y ∈ a, rename x.id = rename y.id → x = y) ∧
      ∀ entry, entry ∈ b ↔ ∃ old ∈ a, entry = { old with id := rename old.id } := by
  have hnames : ∀ id, ∃ new, (s.HasId id → new = id) ∧
      ∀ x ∈ a, x.id = id → { x with id := new } ∈ b := by
    intro id
    by_cases hin : ∃ x ∈ a, x.id = id
    · obtain ⟨x, hx, rfl⟩ := hin
      obtain ⟨y, hy, heq, hold⟩ := ha.exists_alike hb hx
      refine ⟨y.id, hold, fun x' hx' hid => ?_⟩
      rw [a.idUnique x' hx' x hx hid, ← heq]
      exact hy
    · exact ⟨id, fun _ => rfl, fun x hx hid => absurd ⟨x, hx, hid⟩ hin⟩
  choose rename hold hmem using hnames
  refine ⟨rename, hold, fun x hx y hy heq => ?_, fun entry => ⟨fun hentry => ?_, ?_⟩⟩
  · have hsame := b.idUnique _ (hmem _ x hx rfl) _ (hmem _ y hy rfl) heq
    have hkey : ({ x with id := rename x.id } : Entry).key =
        ({ y with id := rename y.id } : Entry).key := congrArg Entry.key hsame
    exact a.keyUnique x hx y hy hkey
  · obtain ⟨old, hin, heq, -⟩ := hb.exists_alike ha hentry
    refine ⟨old, hin, ?_⟩
    have hkey : entry.key = ({ old with id := rename old.id } : Entry).key := by
      rw [heq]
      rfl
    exact b.keyUnique entry hentry _ (hmem _ old hin rfl) hkey
  · rintro ⟨old, hin, rfl⟩
    exact hmem _ old hin rfl

/-- **Scans of different volumes are serializable.** However the parts of such scans are mixed, they
leave the catalog as the scans would one after the other, in any order, up to the identifiers that
are new; and each caller is told the same. -/
theorem scans_serializable (r : Registry) (hr : r.Consistent)
    (scans : List (VolumeId × List Found)) (hvolumes : (scans.map (·.1)).Nodup)
    (parts : List (Caller × ScanPart)) (hparts : Interleaves scans parts)
    (order : List Caller) (horder : order.Perm (List.range scans.length)) (ids ids' : IdSource)
    (hids : ids.FreshUntil ((Shared.resting r ids).run parts).2.ids r.HasId)
    (hids' : ids'.FreshUntil ((Shared.resting r ids').run (oneByOne scans order)).2.ids r.HasId) :
    let mixed := (Shared.resting r ids).run parts
    let serial := (Shared.resting r ids').run (oneByOne scans order)
    mixed.2.registry.Consistent ∧ serial.2.registry.Consistent ∧
      SameButNewIds r mixed.2.registry serial.2.registry ∧
      ∀ caller < scans.length, ∃ summary,
        told parts mixed.1 caller = [.done, .scanned (some summary)] ∧
        told (oneByOne scans order) serial.1 caller = [.done, .scanned (some summary)] := by
  obtain ⟨s, hs⟩ := hr.exists_holds
  obtain ⟨hreplies, hmixed⟩ := (hs.resting ids).run parts
  obtain ⟨hreplies', hserial⟩ := (hs.resting ids').run (oneByOne scans order)
  have hfresh : ids.FreshUntil ((PlainShared.resting s ids).run parts).2.ids s.HasId := by
    rw [← hmixed.ids]
    exact hids.mono (Nat.le_refl _) fun id => hs.hasId.mpr
  have hfresh' : ids'.FreshUntil ((PlainShared.resting s ids').run (oneByOne scans order)).2.ids
      s.HasId := by
    rw [← hserial.ids]
    exact hids'.mono (Nat.le_refl _) fun id => hs.hasId.mpr
  obtain ⟨hall, htold⟩ := hparts.allScanned hvolumes hfresh
  obtain ⟨hall', htold'⟩ := (interleaves_oneByOne horder).allScanned hvolumes hfresh'
  refine ⟨hmixed.registry.consistent, hserial.registry.consistent, ?_, fun caller hlt => ?_⟩
  · obtain ⟨rename, hold, hinjective, hentries⟩ := hall.exists_rename hall'
    refine ⟨rename, fun id hid => hold id (hs.hasId.mp hid), fun x hx y hy => ?_, fun entry => ?_⟩
    · exact hinjective x (hmixed.registry.mem.mp hx) y (hmixed.registry.mem.mp hy)
    · rw [hserial.registry.mem, hentries]
      simp only [hmixed.registry.mem]
  · have hget : scans[caller]? = some (scans[caller].1, scans[caller].2) :=
      List.getElem?_eq_getElem hlt
    refine ⟨s.scanSummary scans[caller].1 scans[caller].2, ?_, ?_⟩
    · rw [hreplies]
      exact htold caller _ _ hget
    · rw [hreplies']
      exact htold' caller _ _ hget

/-- A scan that finds nothing, and one that finds a file with the path of another volume. -/
def twoScans : List (VolumeId × List Found) :=
  [("v", []), ("w", [⟨[97, 46, 109, 112, 52], 3⟩, ⟨[103, 46, 109, 112, 52], 4⟩])]

/-- Both compare, then both change the catalog, the first one last. -/
theorem scans_serializable_twoScans :
    let mixed := (Shared.resting olderRegistry (.after ⟨9⟩)).run
      [(0, .compare "v" []), (1, .compare "w" [⟨[97, 46, 109, 112, 52], 3⟩,
        ⟨[103, 46, 109, 112, 52], 4⟩]), (1, .apply), (0, .apply)]
    let serial := (Shared.resting olderRegistry (.after ⟨20⟩)).run (oneByOne twoScans [1, 0])
    SameButNewIds olderRegistry mixed.2.registry serial.2.registry := by
  refine (scans_serializable olderRegistry olderRegistry_consistent twoScans (by decide) _
    ⟨by decide, by decide⟩ [1, 0] (by decide) (.after ⟨9⟩) (.after ⟨20⟩) (by decide +kernel)
    (by decide +kernel)).2.2.1

end MediaShelf.Catalog
