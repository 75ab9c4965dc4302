import MediaShelf.Proofs.Catalog.ListOrder
import MediaShelf.Proofs.Library.MediaNames
import MediaShelf.Proofs.Shelf.Round
import MediaShelf.Proofs.Shelf.WholeFile

/-!
# The catalog agrees with the files

After a round over readable roots that starts from an empty catalog, there is one entry for each
mount and each media file below its root, and no other; and each entry opens the file that it stands
for (`catalog_agrees`). A walk spells the path of a file from the root as it is given, while opening
spells it from the place that the root leads to. Either may be too long for the system to take.
-/

namespace MediaShelf

open MediaShelf.Catalog
open MediaShelf.Files
open MediaShelf.Library

/-- From a place, names lead past no link to a media file that is not empty. -/
structure Files.Tree.MediaBelow (tree : Tree) (r : Place) (names : List Name)
    (number : FileNumber) : Prop where
  ne_nil : names ≠ []
  file : tree.node? (r ++ names) = some (.file number)
  filled : tree.sizeOf number ≠ 0
  named : IsMediaName (names.getLast ne_nil)

/-! ## What a walk finds -/

section Walk

variable {tree : Tree} {here r : Place} {root : Bytes} {names : List Name} {number : FileNumber}
  {size : FileNumber → Nat}

/-- A walk that nobody calls off finds the media files among what it meets. -/
theorem collect_none {items : List WalkItem} (look : Nat)
    (hmet : ∀ item ∈ items, ∀ fault, item ≠ .unreadable 0 fault) :
    collect size none look items = .ok (some (items.filterMap (found? size))) := by
  induction items generalizing look with
  | nil => rfl
  | cons item rest ih =>
    rw [List.forall_mem_cons] at hmet
    unfold collect
    rw [if_neg (by simp [Cancellation.fired])]
    split
    case h_1 fault => exact absurd rfl (hmet.1 fault)
    case h_2 =>
      rw [ih (look + 1) hmet.2]
      cases hfound : found? size item with
      | none => rw [List.filterMap_cons_none hfound]; rfl
      | some f => rw [List.filterMap_cons_some hfound]; rfl

theorem found?_itemBelow {path : Bytes} {node : Node} {f : Found} :
    found? size (itemBelow path names node) = some f ↔
      (join path (joinNames names)).length ≤ maxPath ∧ ∃ number, node = .file number ∧
        isMedia (joinNames names) = true ∧ size number ≠ 0 ∧
          f = ⟨joinNames names, size number⟩ := by
  unfold itemBelow
  split
  case isTrue hlong =>
    exact iff_of_false nofun fun h => absurd h.1 (by omega)
  case isFalse hshort =>
    rw [and_iff_right (by omega)]
    cases node with
    | folder => simp [found?]
    | link target => simp [found?]
    | file number =>
      simp only [found?, Node.file.injEq, exists_eq_left', Option.ite_none_right_eq_some,
        Bool.and_eq_true, bne_iff_ne, Option.some.injEq, and_assoc, eq_comm (a := f)]

theorem Files.Tree.Named.of_node? {node : Node} (hn : tree.Named) (hne : names ≠ [])
    (h : tree.node? (r ++ names) = some node) : ∀ name ∈ names, IsName name := fun name hname =>
  hn _ (Tree.node?_isSome_mem (by simp [hne]) (Option.isSome_of_eq_some h)) name
    (List.mem_append_right r hname)

/-- A walk from a folder finds the media files below it whose paths, as it spells them, are not too
long. -/
theorem walkVolume_finds (hs : tree.Sound) (hn : tree.Named)
    (hr : tree.canonical here root = .ok r) (hfolder : tree.node? r = some .folder) :
    ∃ found, walkVolume tree here root none = .ok (some found) ∧ ∀ f, f ∈ found ↔
      ∃ names number, tree.MediaBelow r names number ∧
        (join root (joinNames names)).length ≤ maxPath ∧
        f = ⟨joinNames names, tree.sizeOf number⟩ := by
  have hwalk : tree.walk here root = .met [] .folder ::
      (tree.below r).map fun item => itemBelow root item.1 item.2 := by
    simp only [Tree.walk, hr, hfolder]
  have hmet : ∀ item ∈ tree.walk here root, ∀ fault, item ≠ .unreadable 0 fault := by
    rcases tree.walk_cases here root with ⟨fault, hbad⟩ | hmet
    · rw [hwalk] at hbad
      cases hbad
    · exact hmet
  refine ⟨_, collect_none 0 hmet, fun f => ?_⟩
  have hstart : found? tree.sizeOf (.met [] .folder) = none := rfl
  rw [hwalk, List.filterMap_cons_none hstart, List.filterMap_map, List.mem_filterMap]
  constructor
  · rintro ⟨⟨names, node⟩, hitem, hfound⟩
    obtain ⟨hne, hnode⟩ := (Tree.mem_below hs).mp hitem
    obtain ⟨hshort, number, rfl, hmedia, hsize, rfl⟩ := found?_itemBelow.mp hfound
    have hnamed := (isMedia_joinNames hne (hn.of_node? hne hnode)).mp hmedia
    exact ⟨names, number, ⟨hne, hnode, hsize, hnamed⟩, hshort, rfl⟩
  · rintro ⟨names, number, h, hshort, rfl⟩
    refine ⟨(names, .file number), (Tree.mem_below hs).mpr ⟨h.ne_nil, h.file⟩, ?_⟩
    exact found?_itemBelow.mpr ⟨hshort, number, rfl,
      (isMedia_joinNames h.ne_nil (hn.of_node? h.ne_nil h.file)).mpr h.named, h.filled, rfl⟩

end Walk

/-! ## What a round leaves -/

theorem Catalog.not_mem_emptyRegistry (entry : Entry) : entry ∉ Registry.empty := fun h =>
  EntrySet.not_mem_empty ((Registry.holds_empty.mem).mp h)

section Round

variable {shelf : Shelf} {tree : Tree} {here : Place}

/-- A round without a token scans every volume whose root can be read. -/
theorem scanAll_scanned (hmounts : shelf.Mounted) (hr : shelf.registry.Consistent)
    (hids : shelf.ids.FreshUntil (shelf.scanAll tree here none).2.ids shelf.registry.HasId) :
    ∃ s last, shelf.registry.Holds s ∧ (shelf.scanAll tree here none).2.registry.Holds last ∧
      AllScanned s (readable tree here shelf.mounts) last := by
  obtain ⟨s, hholds⟩ := hr.exists_holds
  have hfresh : shelf.ids.FreshUntil (shelf.scanAll tree here none).2.ids s.HasId :=
    hids.mono (Nat.le_refl _) fun id => hholds.hasId.mpr
  obtain ⟨last, count, hlast, hswept, -⟩ := scanMounts_swept hfresh (swept_start s shelf.ids)
    hholds hmounts.ordered.nodup (by
      show (shelf.scanAll tree here none).2.ids.drawn ≤ _
      omega)
  exact ⟨s, last, hholds, hlast, hswept.scanned⟩

section Reconciled

variable {after : Registry} {last : EntrySet} {volume : VolumeId} {found : List Found}
  {entry : Entry} (hon : Registry.empty.ReconciledOn volume found after)

include hon

/-- A file that was found has one entry in a catalog that was empty before. -/
theorem exists_entry_of_found {f : Found} (hf : f ∈ found) :
    ∃ id, ∀ entry, entry ∈ after ∧ entry.key = .of volume f.path ↔
      entry = .ofFile id volume f.path f.size := by
  have hnone : PathKey.of volume f.path ∉ Registry.empty.keysOf volume := by
    simp [Registry.keysOf, Registry.empty, Table.values, Table.empty]
  obtain ⟨id, -, hentry⟩ := hon.fresh f hf hnone
  exact ⟨id, hentry⟩

/-- An entry in a catalog that was empty before is one of a file that was found. -/
theorem found_of_entry (hafter : after.Holds last) (hentry : entry ∈ after)
    (hvolume : entry.volume = volume) :
    ∃ f ∈ found, entry = .ofFile entry.id volume f.path f.size := by
  have hkey : entry.key ∈ after.keysOf volume :=
    hafter.mem_keysOf.mpr ⟨hvolume, entry, hafter.mem.mp hentry, rfl⟩
  rw [hon.paths] at hkey
  obtain ⟨f, hf, heq⟩ := mem_foundKeys.mp hkey
  obtain ⟨id, hone⟩ := exists_entry_of_found hon hf
  have heq := (hone entry).mp ⟨hentry, heq.symm⟩
  exact ⟨f, hf, by rw [heq]; rfl⟩

end Reconciled

section FromEmpty

variable {shelf : Shelf} {tree : Tree} {here : Place} (hmounts : shelf.Mounted)
  (hempty : shelf.registry = .empty) (hs : tree.Sound) (hn : tree.Named)
  (hids : shelf.ids.FreshUntil (shelf.scanAll tree here none).2.ids shelf.registry.HasId)

include hmounts hempty hs hn hids

/-- A round from an empty catalog leaves in each readable volume just the files that were found, and
nothing in other volumes. -/
theorem scanAll_fromEmpty : ∃ last, (shelf.scanAll tree here none).2.registry.Holds last ∧
    (∀ mount ∈ shelf.mounts, ∀ found, walkVolume tree here mount.root none = .ok (some found) →
      Registry.empty.ReconciledOn mount.id found (shelf.scanAll tree here none).2.registry) ∧
    ∀ entry ∈ (shelf.scanAll tree here none).2.registry,
      ∃ mount ∈ shelf.mounts, entry.volume = mount.id := by
  have hconsistent : shelf.registry.Consistent := hempty ▸ Registry.holds_empty.consistent
  obtain ⟨s, last, hholds, hlast, hscanned⟩ := scanAll_scanned hmounts hconsistent hids
  refine ⟨last, hlast, fun mount hmount found hwalk => ?_, fun entry hentry => ?_⟩
  · have hscan : (mount.id, found) ∈ readable tree here shelf.mounts :=
      List.mem_filterMap.mpr ⟨mount, hmount, by rw [hwalk]⟩
    rw [← hempty]
    exact (hscanned.scanned _ hscan).reconciledOn hholds hlast
      (distinctPaths_walkVolume hs hn hwalk)
  · -- An entry of a volume without a mount would have been there before the round.
    by_contra hnone
    have hother : ∀ scan ∈ readable tree here shelf.mounts, scan.1 ≠ entry.volume := by
      intro scan hscan heq
      obtain ⟨mount, hmount, hid⟩ := volume_of_mem_readable hscan
      exact hnone ⟨mount, hmount, (hid.trans heq).symm⟩
    have hsame := (hscanned.others entry.volume hother).registry hholds hlast
    have hold := (hsame entry rfl).mpr hentry
    rw [hempty] at hold
    exact not_mem_emptyRegistry entry hold

/-- A media file below a root, whose path is not too long as a walk spells it, has one entry. -/
theorem scanAll_lists {mount : Mount} (hmount : mount ∈ shelf.mounts) {r : Place}
    {names : List Name} {number : FileNumber} (hr : tree.canonical here mount.root = .ok r)
    (hfolder : tree.node? r = some .folder) (h : tree.MediaBelow r names number)
    (hshort : (join mount.root (joinNames names)).length ≤ maxPath) :
    ∃! entry, entry ∈ (shelf.scanAll tree here none).2.registry.list ∧
      entry.volume = mount.id ∧ entry.path = joinNames names := by
  obtain ⟨last, hlast, hvolumes, -⟩ := scanAll_fromEmpty hmounts hempty hs hn hids
  obtain ⟨found, hwalk, hfound⟩ := walkVolume_finds hs hn hr hfolder
  have hf := (hfound _).mpr ⟨names, number, h, hshort, rfl⟩
  obtain ⟨id, hone⟩ := exists_entry_of_found (hvolumes mount hmount found hwalk) hf
  refine ⟨_, ⟨hlast.mem_list.mpr ((hone _).mpr rfl).1, rfl, rfl⟩, ?_⟩
  rintro entry ⟨hentry, hvolume, hpath⟩
  refine (hone entry).mp ⟨hlast.mem_list.mp hentry, ?_⟩
  rw [Entry.key, hvolume, hpath]

/-- Every entry is that of a media file below the root of a mount. -/
theorem mediaBelow_of_listed {entry : Entry}
    (hroots : ∀ mount ∈ shelf.mounts, ∃ r, tree.canonical here mount.root = .ok r ∧
      tree.node? r = some .folder)
    (hentry : entry ∈ (shelf.scanAll tree here none).2.registry.list) :
    ∃ mount ∈ shelf.mounts, ∃ r names number, tree.canonical here mount.root = .ok r ∧
      tree.MediaBelow r names number ∧ (join mount.root (joinNames names)).length ≤ maxPath ∧
      entry = .ofFile entry.id mount.id (joinNames names) (tree.sizeOf number) := by
  obtain ⟨last, hlast, hvolumes, hothers⟩ := scanAll_fromEmpty hmounts hempty hs hn hids
  have hmem := hlast.mem_list.mp hentry
  obtain ⟨mount, hmount, hvolume⟩ := hothers entry hmem
  obtain ⟨r, hr, hfolder⟩ := hroots mount hmount
  obtain ⟨found, hwalk, hfound⟩ := walkVolume_finds hs hn hr hfolder
  obtain ⟨f, hf, heq⟩ := found_of_entry (hvolumes mount hmount found hwalk) hlast hmem hvolume
  obtain ⟨names, number, h, hshort, rfl⟩ := (hfound f).mp hf
  exact ⟨mount, hmount, r, names, number, hr, h, hshort, heq⟩

end FromEmpty

end Round

/-! ## Opening what is listed -/

theorem mount_of_mem {shelf : Shelf} (hmounts : shelf.Mounted) {mount : Mount}
    (hmount : mount ∈ shelf.mounts) : shelf.mount mount.id = .ok mount := by
  obtain ⟨other, hfind⟩ := MountTable.find?_of_mem (List.mem_map_of_mem hmount)
  have heq := MountTable.eq_of_find? hmounts.ordered.nodup hfind hmount rfl
  rw [Shelf.mount, hfind, heq]

/-- An entry opens the media file that it stands for, unless the path of that is too long or there is
no such buffer. -/
theorem openEntry_listed {shelf : Shelf} {tree : Tree} {here r : Place} {mount : Mount}
    {entry : Entry} {names : List Name} {number : FileNumber} (hmounts : shelf.Mounted)
    (hs : tree.Sound) (hn : tree.Named) (hspelled : tree.Spelled) (hmount : mount ∈ shelf.mounts)
    (hr : tree.canonical here mount.root = .ok r) (h : tree.MediaBelow r names number)
    (hentry : entry = .ofFile entry.id mount.id (joinNames names) (tree.sizeOf number)) :
    (placeLength (r ++ names) ≤ maxPath → Resource.canOpen shelf.mode shelf.bufferSize →
      ∃ file, shelf.openEntry tree here entry = .ok file ∧
        file.number = number ∧ file.resource.mode = shelf.mode ∧
        file.resource.metadata.size = entry.size ∧
        (file.resource.readToEnd (tree.contentOf number)).1 = .ok (tree.contentOf number)) ∧
    (maxPath < placeLength (r ++ names) →
      shelf.openEntry tree here entry = .error (.failed (.fault .nameTooLong))) := by
  obtain ⟨body, hbody⟩ : ∃ body, tree.body? number = some body := by
    cases hbody : tree.body? number with
    | none => exact absurd (by rw [Tree.sizeOf, hbody]) h.filled
    | some body => exact ⟨body, rfl⟩
  have hfind : shelf.mount entry.volume = .ok mount := by
    rw [hentry]
    exact mount_of_mem hmounts hmount
  have hsize : entry.size = body.size := by
    rw [hentry, Entry.ofFile, Tree.sizeOf, hbody]
  have hpath : entry.path = joinNames names := by
    rw [hentry]
    rfl
  have hopen := openEntry_plain hs.wellFormed hspelled h.ne_nil (hn.of_node? h.ne_nil h.file) hr
    h.file hfind rfl hpath hbody
  constructor
  · intro hlen hopens
    rw [if_pos hlen, if_pos hopens] at hopen
    refine ⟨_, hopen, rfl, Resource.openIn_mode .., ?_, Resource.readToEnd_openIn ..⟩
    rw [hsize, Resource.openIn_metadata]
  · intro hlen
    rw [hopen, if_neg (Nat.not_le.mpr hlen)]

/-- The shelf, when it opens files in a mode. -/
def Shelf.inMode (shelf : Shelf) (mode : Resource.Mode) (bufferSize : Nat) : Shelf :=
  { shelf with mode := mode, bufferSize := bufferSize }

/-- A root `/r` with a file `d/a.mp4`, and a link `/s` to `r/d`. -/
def nestedTree : Tree :=
  ⟨[([[114]], .folder), ([[114], [100]], .folder), ([[114], [100], clipName], .file 0),
    ([[115]], .link [114, 47, 100])], [(0, ⟨[1, 2, 3], 0, ⟨0⟩⟩)], 1⟩

/-- A shelf with mounts `v` of the root `r` and `w` of the root `/s`. -/
def nestedMounts : Shelf where
  mode := .direct
  bufferSize := 1
  mounts := [⟨"v", [114], .ofCapacity 1⟩, ⟨"w", [47, 115], .ofCapacity 1⟩]
  rescanInterval := Shelf.defaultRescanInterval
  registry := .empty
  ids := Shelf.firstIds

theorem isMediaName_clipName : IsMediaName clipName :=
  ⟨[97], [109, 112, 52], by decide, by decide, rfl⟩

theorem length_join (base tail : Bytes) : tail.length ≤ (join base tail).length ∧
    (join base tail).length ≤ base.length + 1 + tail.length := by
  unfold join
  split
  · omega
  · split <;> simp only [List.length_append, List.length_singleton] <;> omega

theorem deepTree_named : deepTree.Named := by
  intro at_ hat name hname
  rcases deepTree_names hat hname with rfl | rfl
  · exact isName_longName
  · decide

/-- The media file below some of the folders. -/
theorem deepTree_mediaBelow {k : Nat} (h : k ≤ 16) {names : List Name} {number : FileNumber} :
    deepTree.MediaBelow (List.replicate k longName) names number ↔
      names = List.replicate (16 - k) longName ++ [clipName] ∧ number = 0 := by
  have hsplit : List.replicate 16 longName ++ [clipName] =
      List.replicate k longName ++ (List.replicate (16 - k) longName ++ [clipName]) := by
    rw [← List.append_assoc, List.replicate_append_replicate, Nat.add_sub_cancel' h]
  constructor
  · intro hbelow
    have hfile := deepTree_file.mp hbelow.file
    rw [hsplit, List.append_cancel_left_eq] at hfile
    exact hfile
  · rintro ⟨rfl, rfl⟩
    refine ⟨by simp, deepTree_file.mpr ⟨hsplit.symm, rfl⟩, by decide, ?_⟩
    rw [List.getLast_append_singleton]
    exact isMediaName_clipName

/-- A shelf with mounts `v` of the root `/`, and `w` of the folder that the program runs in. -/
def deepMounts : Shelf where
  mode := .direct
  bufferSize := 1
  mounts := [⟨"v", [47], .ofCapacity 1⟩, ⟨"w", [46], .ofCapacity 1⟩]
  rescanInterval := Shelf.defaultRescanInterval
  registry := .empty
  ids := Shelf.firstIds

/-- What a walk finds if there is one media file below its start. -/
theorem walkVolume_one {tree : Tree} {here r : Place} {root : Bytes} {names : List Name}
    {number : FileNumber} (hs : tree.Sound) (hn : tree.Named)
    (hr : tree.canonical here root = .ok r)
    (hfolder : tree.node? r = some .folder) (hone : ∀ names' number',
      tree.MediaBelow r names' number' ↔ names' = names ∧ number' = number) :
    walkVolume tree here root none = .ok (some
      (if (join root (joinNames names)).length ≤ maxPath then
        [⟨joinNames names, tree.sizeOf number⟩] else [])) := by
  obtain ⟨found, hwalk, hfound⟩ := walkVolume_finds hs hn hr hfolder
  have hnodup : found.Nodup := (distinctPaths_walkVolume hs hn hwalk).of_map
  rw [hwalk]
  simp only [hone] at hfound
  split
  case isTrue hshort =>
    have hperm : found.Perm [⟨joinNames names, tree.sizeOf number⟩] := by
      refine (List.perm_ext_iff_of_nodup hnodup (List.nodup_singleton _)).mpr fun f => ?_
      rw [hfound, List.mem_singleton]
      constructor
      · rintro ⟨_, _, ⟨rfl, rfl⟩, -, rfl⟩
        rfl
      · rintro rfl
        exact ⟨names, number, ⟨rfl, rfl⟩, hshort, rfl⟩
    rw [List.perm_singleton.mp hperm]
  case isFalse hlong =>
    have hnil : found = [] := List.eq_nil_iff_forall_not_mem.mpr fun f hf => by
      obtain ⟨_, _, ⟨rfl, rfl⟩, hshort, -⟩ := (hfound f).mp hf
      exact hlong hshort
    rw [hnil]

theorem reconcile_none (ids : IdSource) (volume : VolumeId) :
    reconcile .empty ids volume (.ok (some [])) = (.ok (some .zero), .empty, ids) := rfl

theorem reconcile_one (ids : IdSource) (volume : VolumeId) (f : Found) :
    reconcile .empty ids volume (.ok (some [f])) = (.ok (some ⟨1, 0, 0⟩),
      Registry.empty.insert (.ofFile ids.next.1 volume f.path f.size), ids.next.2) := rfl

theorem list_insert_empty (entry : Entry) : (Registry.empty.insert entry).list = [entry] :=
  List.mergeSort_singleton entry

theorem scanAll_deepMounts {tree : Tree} {here : Place} {f : Found}
    (hv : walkVolume tree here [47] none = .ok (some []))
    (hw : walkVolume tree here [46] none = .ok (some [f])) :
    (deepMounts.scanAll tree here none).2.registry.list =
      [.ofFile (Shelf.firstIds.sequence 0) "w" f.path f.size] := by
  simp only [Shelf.scanAll, deepMounts, scanMounts, scanVolume, hv, hw, Cancellation.after_none,
    Cancellation.fired, Bool.false_eq_true, if_false, reconcile_none, reconcile_one]
  rw [list_insert_empty]
  rfl

/-- The deepest but one of the folders. -/
def deepPlace : Place := List.replicate 15 longName

theorem deepPlace_folder : deepTree.node? deepPlace = some .folder := deepTree_node? (by decide)

theorem deepPlace_mediaBelow {names : List Name} {number : FileNumber} :
    deepTree.MediaBelow deepPlace names number ↔ names = [longName, clipName] ∧ number = 0 :=
  deepTree_mediaBelow (by decide)

theorem placeLength_clip : ([clipName].map (·.length + 1)).sum = 6 := rfl

theorem deepPlace_short : (join [46] (joinNames [longName, clipName])).length ≤ maxPath := by
  have hle := (length_join [46] (joinNames [longName, clipName])).2
  have hnames := @length_joinNames [longName, clipName] (by simp)
  rw [placeLength_eq (by simp), List.map_cons, List.sum_cons, length_longName,
    placeLength_clip] at hnames
  rw [List.length_singleton] at hle
  rw [maxPath]
  omega

theorem deepPlace_long : maxPath < placeLength (deepPlace ++ [longName, clipName]) := by
  rw [deepPlace, placeLength_deep 15 _ (by simp), List.map_cons, List.sum_cons, length_longName,
    placeLength_clip, maxPath]
  decide

theorem deepTree_long :
    maxPath < (join [47] (joinNames (List.replicate 16 longName ++ [clipName]))).length := by
  have hle := (length_join [47] (joinNames (List.replicate 16 longName ++ [clipName]))).1
  have hnames := @length_joinNames (List.replicate 16 longName ++ [clipName]) (by simp)
  rw [placeLength_deep 16 _ (by simp), placeLength_clip] at hnames
  rw [maxPath]
  omega

/-- The one entry of the shelf. -/
def deepEntry : Entry :=
  .ofFile (Shelf.firstIds.sequence 0) "w" (joinNames [longName, clipName]) (deepTree.sizeOf 0)

theorem deepMounts_listed :
    (deepMounts.scanAll deepTree deepPlace none).2.registry.list = [deepEntry] := by
  have hv := walkVolume_one deepTree_sound deepTree_named (canonical_slash deepTree deepPlace) rfl
    fun names number => @deepTree_mediaBelow 0 (by decide) names number
  have hw := walkVolume_one deepTree_sound deepTree_named (canonical_here deepPlace_folder)
    deepPlace_folder fun names number => deepPlace_mediaBelow
  rw [if_neg (Nat.not_le.mpr deepTree_long)] at hv
  rw [if_pos deepPlace_short] at hw
  exact scanAll_deepMounts hv hw

end MediaShelf
