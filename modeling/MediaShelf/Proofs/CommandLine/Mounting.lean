import MediaShelf.CommandLine.Command
import MediaShelf.Proofs.Settings.Serving

/-!
# From the command line to the mounts

Settings and the command line both name folders. Serving takes the volumes of one of them, adds the
folders that are given by path alone, and spreads every volume over its folders. The main result,
`mounts_of_arguments`, says what mounts come of it: every folder once and in order, with the slots
of its volume and a name made from that of its volume.
-/

namespace MediaShelf.Settings

open MediaShelf.Admission
open MediaShelf.Catalog

/-! ## Names of mounts -/

/-- The names of the mounts of a volume: its own if there is one mount, and else one with a number
for each. -/
def mountIds (name : VolumeId) (count : Nat) : List VolumeId :=
  if count = 1 then [name]
  else (List.range count).map fun i => name ++ "-" ++ toString (i + 1)

/-- The names of some volumes: that which each has, and for one without a name the next one that is
made up. -/
def volumeNames (ids : IdSource) (volumes : List VolumeSettings) : List VolumeId :=
  volumes.mapIdx fun i volume =>
    if volume.id = "" then
      (ids.sequence (ids.drawn + (volumes.take i).countP (·.id = ""))).toText
    else volume.id

theorem volumeName_eq (ids : IdSource) (volume : VolumeSettings) :
    volumeName ids volume =
      (if volume.id = "" then (ids.sequence ids.drawn).toText else volume.id,
        { ids with drawn := ids.drawn + [volume].countP (·.id = "") }) := by
  unfold volumeName
  split
  case isTrue h => simp [IdSource.next, h]
  case isFalse h => simp [h]

theorem volumeNames_cons (ids : IdSource) (volume : VolumeSettings) (rest : List VolumeSettings) :
    volumeNames ids (volume :: rest) =
      (volumeName ids volume).1 :: volumeNames (volumeName ids volume).2 rest := by
  have htake : ∀ i, ((volume :: rest).take (i + 1)).countP (·.id = "") =
      [volume].countP (·.id = "") + (rest.take i).countP (·.id = "") := by
    intro i
    rw [List.take_succ_cons, ← List.singleton_append, List.countP_append]
  simp only [volumeName_eq, volumeNames, List.mapIdx_cons, htake, List.take_zero,
    List.countP_nil, Nat.add_zero, Nat.add_assoc]

@[simp] theorem length_volumeNames (ids : IdSource) (volumes : List VolumeSettings) :
    (volumeNames ids volumes).length = volumes.length := List.length_mapIdx

/-- The mounts of volumes are those of each of them, under its name, in order. -/
theorem plans_eq (ids : IdSource) (volumes : List VolumeSettings) :
    (plans ids volumes).1 = (volumes.zip (volumeNames ids volumes)).flatMap fun (volume, name) =>
      volumePlans name volume := by
  induction volumes generalizing ids with
  | nil => rfl
  | cons volume rest ih => rw [volumeNames_cons, List.zip_cons_cons, List.flatMap_cons, ← ih]; rfl

/-! ## Mounts of a volume -/

variable (name : VolumeId) (volume : VolumeSettings)

theorem map_root_volumePlans : (volumePlans name volume).map (·.root) = volume.paths := by
  unfold volumePlans
  dsimp only
  split
  case h_1 path hpaths => rw [hpaths]; rfl
  case h_2 =>
    rw [List.map_map]
    exact List.zipIdx_map_fst 0 volume.paths

theorem map_slots_volumePlans :
    (volumePlans name volume).map (·.slots) = volume.paths.map fun _ => max 1 volume.slots := by
  unfold volumePlans
  dsimp only
  split
  case h_1 path hpaths => rw [hpaths, max_comm]; rfl
  case h_2 =>
    rw [List.map_map, max_comm]
    simp [Function.comp_def, List.map_const']

theorem map_id_volumePlans :
    (volumePlans name volume).map (·.id) = mountIds name volume.paths.length := by
  unfold volumePlans mountIds
  dsimp only
  split
  case h_1 path hpaths => rw [hpaths]; rfl
  case h_2 hseveral =>
    have hcount : volume.paths.length ≠ 1 := fun hone =>
      let ⟨path, hpath⟩ := List.length_eq_one_iff.mp hone
      hseveral path hpath
    rw [if_neg hcount, List.range_eq_range', ← List.zipIdx_map_snd 0 volume.paths, List.map_map,
      List.map_map]
    rfl

/-! ## Mounts of all volumes -/

variable (ids : IdSource) (volumes : List VolumeSettings)

theorem flatMap_zip_volumeNames {α : Type} (f : VolumeSettings → List α) :
    ((volumes.zip (volumeNames ids volumes)).flatMap fun entry => f entry.1) =
      volumes.flatMap f := by
  rw [← List.flatMap_map, List.map_fst_zip (by simp)]

theorem map_root_plans : (plans ids volumes).1.map (·.root) = volumes.flatMap (·.paths) := by
  rw [plans_eq, List.map_flatMap, ← flatMap_zip_volumeNames ids]
  simp only [map_root_volumePlans]

theorem map_slots_plans : (plans ids volumes).1.map (·.slots) =
    volumes.flatMap fun volume => volume.paths.map fun _ => max 1 volume.slots := by
  rw [plans_eq, List.map_flatMap, ← flatMap_zip_volumeNames ids]
  simp only [map_slots_volumePlans]

theorem map_id_plans : (plans ids volumes).1.map (·.id) =
    (volumes.zip (volumeNames ids volumes)).flatMap fun (volume, name) =>
      mountIds name volume.paths.length := by
  rw [plans_eq, List.map_flatMap]
  simp only [map_id_volumePlans]

end MediaShelf.Settings

namespace MediaShelf

open MediaShelf.Admission
open MediaShelf.Catalog

/-! ## The table of the mounts -/

namespace MountTable

variable {mounts : List Mount}

/-- Mounts with names make a table exactly if no two of them have the same name. -/
theorem ofMounts_isOk_iff (hnamed : ∀ mount ∈ mounts, mount.id ≠ "") :
    (∃ table, ofMounts mounts = .ok table) ↔ (mounts.map (·.id)).Nodup := by
  constructor
  · rintro ⟨table, htable⟩
    by_contra hids
    obtain ⟨before, mount, rest, rfl, hbefore, hmount⟩ := Settings.exists_first_repeated hids
    rw [List.forall_mem_append, List.forall_mem_cons] at hnamed
    have herror := @extend_of_repeated [] mount before rest hnamed.1 hnamed.2.1 hbefore hmount
    cases htable.symm.trans herror
  · intro hids
    obtain ⟨table, htable, -⟩ := @extend_of_nodup [] mounts hnamed hids
    exact ⟨table, htable⟩

/-- The table holds every mount once. -/
theorem perm_of_ofMounts {table : MountTable} (hnamed : ∀ mount ∈ mounts, mount.id ≠ "")
    (h : ofMounts mounts = .ok table) : table.Perm mounts := by
  obtain ⟨full, hfull, hperm⟩ :=
    @extend_of_nodup [] mounts hnamed ((ofMounts_isOk_iff hnamed).mp ⟨table, h⟩)
  obtain rfl : table = full := Except.ok.inj (h.symm.trans hfull)
  exact hperm

end MountTable

theorem Shelf.ofMounts_eq_ok {mode : Resource.Mode} {size : Nat} {mounts : List Mount}
    {shelf : Shelf} (h : Shelf.ofMounts mode size mounts = .ok shelf) :
    MountTable.ofMounts mounts = .ok shelf.mounts := by
  unfold Shelf.ofMounts at h
  split at h
  · cases h
  · rename_i htable
    obtain rfl := Except.ok.inj h
    exact htable

theorem Shelf.ofMounts_isOk (mode : Resource.Mode) (size : Nat) {mounts : List Mount}
    {table : MountTable} (h : MountTable.ofMounts mounts = .ok table) :
    ∃ shelf, Shelf.ofMounts mode size mounts = .ok shelf := by
  rw [Shelf.ofMounts, h]
  exact ⟨_, rfl⟩

end MediaShelf

namespace MediaShelf.CommandLine

open MediaShelf.Admission
open MediaShelf.Catalog
open MediaShelf.Settings

/-! ## What is served -/

variable (arguments : ServeArguments) (s : Settings)

/-- The volumes that are given as such: those of the command line, or else those of the settings. -/
def givenVolumes : List VolumeSettings :=
  if arguments.mounts = [] then s.media.volumes else arguments.mounts

/-- The folders that are given by path alone; the folder that the program is in if nothing else is
given. -/
def looseFolders : List Bytes :=
  if arguments.paths = [] ∧ givenVolumes arguments s = [] then [Text.encode "."]
  else arguments.paths

/-- The slots of folders that are given by path alone. -/
def looseSlots : Nat := arguments.slots.getD s.media.slots

/-- The volumes that are served: the given ones, and one of all the loose folders. -/
def servedVolumes : List VolumeSettings :=
  givenVolumes arguments s ++
    if looseFolders arguments s = [] then []
    else [.ofPaths (looseFolders arguments s) (looseSlots arguments s)]

theorem applyTo_volumes : (arguments.applyTo s).media.volumes = servedVolumes arguments s := by
  unfold ServeArguments.applyTo addPaths servedVolumes looseFolders
  dsimp only
  rw [← givenVolumes]
  split
  · rw [if_neg (List.cons_ne_nil _ _), if_neg (List.cons_ne_nil _ _)]
    rfl
  · split
    · exact (List.append_nil _).symm
    · rfl

variable {arguments s}

theorem slots_of_servedVolumes {limit : Nat}
    (hvolumes : ∀ volume ∈ s.media.volumes, volume.slots ≤ limit)
    (hmounts : ∀ volume ∈ arguments.mounts, volume.slots ≤ limit)
    (hloose : looseSlots arguments s ≤ limit) :
    ∀ volume ∈ servedVolumes arguments s, volume.slots ≤ limit := by
  unfold servedVolumes
  rw [List.forall_mem_append]
  constructor
  · unfold givenVolumes
    split
    · exact hvolumes
    · exact hmounts
  · split
    · exact List.forall_mem_nil _
    · exact List.forall_mem_singleton.mpr hloose

variable (arguments s)

/-- The parts of the served volumes are those of the given ones, and then those of the loose
folders. -/
theorem flatMap_servedVolumes {α : Type} (f : Nat → Bytes → α) :
    ((servedVolumes arguments s).flatMap fun volume => volume.paths.map (f volume.slots)) =
      ((givenVolumes arguments s).flatMap fun volume => volume.paths.map (f volume.slots)) ++
        (looseFolders arguments s).map (f (looseSlots arguments s)) := by
  rw [servedVolumes, List.flatMap_append]
  split
  · rename_i hloose
    rw [hloose, List.flatMap_nil, List.map_nil]
  · rw [List.flatMap_singleton]
    rfl

/-- The mounts that are to come of some arguments: one for each folder, first of the given volumes
and then of the loose folders, with the slots of its volume, which are never 0, and the name of its
volume, which has a number behind it if the volume has more than one folder. -/
structure Mounting (ids : IdSource) (mounts : List Mount) : Prop where
  roots : mounts.map (·.root) =
    (givenVolumes arguments s).flatMap (·.paths) ++ looseFolders arguments s
  slots : mounts.map (·.limiter.capacity) =
    ((givenVolumes arguments s).flatMap fun volume =>
      volume.paths.map fun _ => max 1 volume.slots) ++
    (looseFolders arguments s).map fun _ => max 1 (looseSlots arguments s)
  names : mounts.map (·.id) =
    ((servedVolumes arguments s).zip (volumeNames ids (servedVolumes arguments s))).flatMap
      fun (volume, name) => mountIds name volume.paths.length

theorem mounting_plans (ids : IdSource) :
    Mounting arguments s ids ((plans ids (servedVolumes arguments s)).1.map mountOf) where
  roots := by
    have hroots := flatMap_servedVolumes arguments s fun _ path => path
    simp only [List.map_id'] at hroots
    rw [List.map_map, ← hroots, ← map_root_plans ids]
    rfl
  slots := by
    have hslots := flatMap_servedVolumes arguments s fun slots _ => max 1 slots
    rw [← hslots, ← map_slots_plans ids, List.map_map]
    refine List.map_congr_left fun plan hplan => ?_
    obtain ⟨-, volume, -, heq⟩ := mem_plans hplan
    have hpositive : 1 ≤ plan.slots := heq ▸ le_max_right _ _
    exact max_eq_left hpositive
  names := by rw [map_mountOf_id, map_id_plans]

/-- What comes of some arguments and settings in which no volume asks for more slots than there can
be: every folder is mounted once and in order (`Mounting`), and these mounts make a shelf exactly if
their names are all different. Then the shelf holds each of them once, and finds it by its name. -/
theorem mounts_of_arguments (ids : IdSource)
    (hvolumes : ∀ volume ∈ s.media.volumes, volume.slots ≤ maxSlots)
    (hmounts : ∀ volume ∈ arguments.mounts, volume.slots ≤ maxSlots)
    (hloose : looseSlots arguments s ≤ maxSlots) :
    ∃ mounts, (plans ids (arguments.applyTo s).media.volumes).1.mapM Mount.ofPlan? = some mounts ∧
      Mounting arguments s ids mounts ∧
      ∀ mode size,
        ((∃ shelf, Shelf.ofMounts mode size mounts = .ok shelf) ↔ (mounts.map (·.id)).Nodup) ∧
        ∀ shelf, Shelf.ofMounts mode size mounts = .ok shelf →
          shelf.mounts.Perm mounts ∧ ∀ mount ∈ mounts, shelf.mount mount.id = .ok mount := by
  have hslots := slots_of_servedVolumes hvolumes hmounts hloose
  have hfit : ∀ plan ∈ (plans ids (servedVolumes arguments s)).1, plan.slots ≤ maxSlots := by
    intro plan hplan
    obtain ⟨-, volume, hvolume, heq⟩ := mem_plans hplan
    exact heq ▸ max_le (hslots volume hvolume) (by decide)
  have hnamed : ∀ mount ∈ (plans ids (servedVolumes arguments s)).1.map mountOf,
      mount.id ≠ "" := by
    intro mount hmount
    obtain ⟨plan, hplan, rfl⟩ := List.mem_map.mp hmount
    exact (mem_plans hplan).1
  rw [applyTo_volumes]
  refine ⟨_, mapM_ofPlan? hfit, mounting_plans arguments s ids, fun mode size => ⟨?_, ?_⟩⟩
  · rw [← MountTable.ofMounts_isOk_iff hnamed]
    exact ⟨fun ⟨shelf, hshelf⟩ => ⟨shelf.mounts, Shelf.ofMounts_eq_ok hshelf⟩,
      fun ⟨table, htable⟩ => Shelf.ofMounts_isOk mode size htable⟩
  · intro shelf hshelf
    have htable := Shelf.ofMounts_eq_ok hshelf
    have hperm := MountTable.perm_of_ofMounts hnamed htable
    refine ⟨hperm, fun mount hmount => ?_⟩
    have hmem := hperm.mem_iff.mpr hmount
    obtain ⟨found, hfound⟩ := MountTable.find?_of_mem (List.mem_map_of_mem (f := (·.id)) hmem)
    obtain rfl := MountTable.eq_of_find? (MountTable.ordered_ofMounts htable).nodup hfound hmem rfl
    rw [Shelf.mount, hfound]

/-- Two volumes, the second without a name and without slots, and two loose folders. -/
def twoVolumesAndFolders : ServeArguments where
  paths := [Text.encode "/d", Text.encode "e"]
  host := none
  port := none
  mode := none
  bufferSize := none
  slots := some 7
  mounts := [⟨"disk", 2, [Text.encode "/a", Text.encode "/b"]⟩, ⟨"", 0, [Text.encode "/c"]⟩]

theorem mounts_of_arguments_twoVolumes :
    ∃ mounts,
      (plans Shelf.firstIds (twoVolumesAndFolders.applyTo .default).media.volumes).1.mapM
        Mount.ofPlan? = some mounts ∧
      mounts.map (·.root) = ["/a", "/b", "/c", "/d", "e"].map Text.encode ∧
      mounts.map (·.limiter.capacity) = [2, 2, 1, 7, 7] ∧
      mounts.map (·.id) = ["disk-1", "disk-2", "01900000-0000-7000-8000-000000000001",
        "01900000-0000-7000-8000-000000000002-1", "01900000-0000-7000-8000-000000000002-2"] ∧
      ∃ shelf, Shelf.ofMounts .direct 1 mounts = .ok shelf ∧ shelf.mounts.Perm mounts := by
  obtain ⟨mounts, hplans, hmounting, hshelf⟩ :=
    mounts_of_arguments twoVolumesAndFolders .default Shelf.firstIds (by decide) (by decide)
      (by decide)
  have hnames := hmounting.names.trans (b := _) (c := ["disk-1", "disk-2",
    "01900000-0000-7000-8000-000000000001", "01900000-0000-7000-8000-000000000002-1",
    "01900000-0000-7000-8000-000000000002-2"]) (by decide +kernel)
  obtain ⟨hok, hall⟩ := hshelf .direct 1
  obtain ⟨shelf, hshelf⟩ := hok.mpr (hnames ▸ by decide +kernel)
  exact ⟨mounts, hplans, hmounting.roots.trans (by decide +kernel),
    hmounting.slots.trans (by decide +kernel), hnames, shelf, hshelf, (hall shelf hshelf).1⟩

end MediaShelf.CommandLine
