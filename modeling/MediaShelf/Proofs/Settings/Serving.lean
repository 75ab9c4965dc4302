import Mathlib
import MediaShelf.Proofs.Shelf.Mounts
import MediaShelf.Settings.Mounts
import MediaShelf.Settings.Sound

/-!
# What checked settings are good for

Settings that pass `check` make a shelf unless two mounts have one name: `checked_settings_served`.
The names are only known once volumes are spread over their folders, so they are no part of the
check. A volume that may have too many slots is left out of account here.
-/

namespace MediaShelf.Settings

open MediaShelf.Admission
open MediaShelf.Catalog

/-! ## Mounts of volumes -/

theorem toText_ne_empty (id : EntryId) : id.toText ≠ "" := by
  intro h
  have hlist := congrArg String.toList h
  simp [EntryId.toText] at hlist

theorem volumeName_ne_empty (ids : IdSource) (volume : VolumeSettings) :
    (volumeName ids volume).1 ≠ "" := by
  unfold volumeName
  split
  · exact toText_ne_empty _
  · assumption

theorem mem_volumePlans {id : VolumeId} {volume : VolumeSettings} {plan : MountPlan}
    (hid : id ≠ "") (h : plan ∈ volumePlans id volume) :
    plan.id ≠ "" ∧ plan.root ∈ volume.paths ∧ plan.slots = max volume.slots 1 := by
  unfold volumePlans at h
  dsimp only at h
  split at h
  case h_1 path hpaths =>
    obtain rfl := List.mem_singleton.mp h
    exact ⟨hid, by rw [hpaths]; exact List.mem_singleton_self _, rfl⟩
  case h_2 =>
    obtain ⟨⟨path, i⟩, hmem, rfl⟩ := List.mem_map.mp h
    refine ⟨fun hempty => hid ?_, (List.mem_zipIdx hmem).2.2 ▸ List.getElem_mem _, rfl⟩
    simpa using congrArg String.toList hempty

theorem exists_volumePlan (id : VolumeId) {volume : VolumeSettings} {path : Bytes}
    (h : path ∈ volume.paths) :
    ∃ plan ∈ volumePlans id volume, plan.root = path ∧ plan.slots = max volume.slots 1 := by
  unfold volumePlans
  dsimp only
  split
  case h_1 other hpaths =>
    rw [hpaths, List.mem_singleton] at h
    exact ⟨_, List.mem_singleton_self _, h.symm, rfl⟩
  case h_2 =>
    obtain ⟨i, hi, hget⟩ := List.getElem_of_mem h
    refine ⟨_, List.mem_map.mpr ⟨(path, i), ?_, rfl⟩, rfl, rfl⟩
    rw [List.mem_zipIdx_iff_getElem?, List.getElem?_eq_getElem hi, hget]

variable {ids : IdSource} {volumes : List VolumeSettings} {plan : MountPlan}

theorem mem_plans (h : plan ∈ (plans ids volumes).1) :
    plan.id ≠ "" ∧ ∃ volume ∈ volumes, plan.slots = max volume.slots 1 := by
  induction volumes generalizing ids with
  | nil => exact absurd h List.not_mem_nil
  | cons volume rest ih =>
    simp only [plans] at h
    rcases List.mem_append.mp h with h | h
    · obtain ⟨hid, -, hslots⟩ := mem_volumePlans (volumeName_ne_empty ids volume) h
      exact ⟨hid, volume, List.mem_cons_self, hslots⟩
    · obtain ⟨hid, other, hother, hslots⟩ := ih h
      exact ⟨hid, other, List.mem_cons_of_mem _ hother, hslots⟩

theorem exists_plan (ids : IdSource) {volume : VolumeSettings} {path : Bytes}
    (hvolume : volume ∈ volumes) (hpath : path ∈ volume.paths) :
    ∃ plan ∈ (plans ids volumes).1, plan.root = path ∧ plan.slots = max volume.slots 1 := by
  induction volumes generalizing ids with
  | nil => exact absurd hvolume List.not_mem_nil
  | cons first rest ih =>
    simp only [plans]
    rcases List.mem_cons.mp hvolume with rfl | hrest
    · obtain ⟨plan, hplan, h⟩ := exists_volumePlan (volumeName ids volume).1 hpath
      exact ⟨plan, List.mem_append_left _ hplan, h⟩
    · obtain ⟨plan, hplan, h⟩ := ih (volumeName ids first).2 hrest
      exact ⟨plan, List.mem_append_right _ hplan, h⟩

/-! ## Mounts with slots -/

/-- A planned mount with every slot free. -/
def mountOf (plan : MountPlan) : Mount := ⟨plan.id, plan.root, .ofCapacity plan.slots⟩

theorem mapM_ofPlan? {wanted : List MountPlan} (h : ∀ plan ∈ wanted, plan.slots ≤ maxSlots) :
    wanted.mapM Mount.ofPlan? = some (wanted.map mountOf) := by
  induction wanted with
  | nil => rfl
  | cons plan rest ih =>
    rw [List.forall_mem_cons] at h
    rw [List.mapM_cons, ih h.2, Mount.ofPlan?, Limiter.ofCapacity?, if_pos h.1]
    rfl

theorem map_mountOf_id (wanted : List MountPlan) :
    (wanted.map mountOf).map (·.id) = wanted.map (·.id) := by
  rw [List.map_map]
  rfl

/-- The shelf of settings whose volumes may all have their slots is that of the table of mounts. -/
theorem shelfFrom_eq {media : MediaSettings}
    (hslots : ∀ volume ∈ media.volumes, volume.slots ≤ maxSlots) :
    shelfFrom ids media =
      match MountTable.ofMounts ((plans ids media.volumes).1.map mountOf) with
      | .error clash => .error (.failure (.invalidInput clash.text))
      | .ok table =>
        .ok ⟨media.mode, max media.bufferSize.bytes 1, table,
          max media.rescanInterval 1 * 1000, .empty, (plans ids media.volumes).2⟩ := by
  have hfit : ∀ plan ∈ (plans ids media.volumes).1, plan.slots ≤ maxSlots := by
    intro plan hplan
    obtain ⟨-, volume, hvolume, heq⟩ := mem_plans hplan
    rw [heq]
    exact max_le (hslots volume hvolume) (by decide)
  simp only [shelfFrom, mapM_ofPlan? hfit, Shelf.ofMounts]
  cases MountTable.ofMounts ((plans ids media.volumes).1.map mountOf) <;> rfl

/-! ## Names that occur again -/

theorem exists_first_repeated {α β : Type} {key : α → β} {items : List α}
    (h : ¬(items.map key).Nodup) :
    ∃ before item rest, items = before ++ item :: rest ∧ (before.map key).Nodup ∧
      key item ∈ before.map key := by
  -- From the end, so that the items before the last one are known not to repeat a key.
  induction items using List.reverseRecOn with
  | nil => exact absurd List.nodup_nil h
  | append_singleton items last ih =>
    by_cases hnodup : (items.map key).Nodup
    · refine ⟨items, last, [], rfl, hnodup, ?_⟩
      by_contra hnew
      rw [List.map_append, List.map_singleton] at h
      exact h (List.nodup_append'.mpr ⟨hnodup, List.nodup_singleton _,
        List.disjoint_singleton.mpr hnew⟩)
    · obtain ⟨before, item, rest, rfl, hbefore, hitem⟩ := ih hnodup
      exact ⟨before, item, rest ++ [last], by rw [List.append_assoc, List.cons_append],
        hbefore, hitem⟩

/-! ## Checked settings -/

theorem paths_of_checkVolumes {here : Bytes} {number : Nat} {mounted : Settings.Mounted}
    (h : checkVolumes here number mounted volumes = .ok ()) :
    ∀ volume ∈ volumes, volume.paths ≠ [] := by
  induction volumes generalizing number mounted with
  | nil => exact fun volume hvolume => absurd hvolume List.not_mem_nil
  | cons volume rest ih =>
    unfold checkVolumes at h
    dsimp only at h
    split at h
    · cases h
    · split at h
      · cases h
      · exact List.forall_mem_cons.mpr ⟨by assumption, ih h⟩

theorem paths_of_check {here : Bytes} {s : Settings} (h : check here s = .ok ()) :
    ∀ volume ∈ s.media.volumes, volume.paths ≠ [] := by
  unfold check at h
  split at h
  · cases h
  · split at h
    · cases h
    · exact paths_of_checkVolumes h

/-- Settings that pass the check, and whose volumes do not ask for more slots than there can be, are
served if the names of their mounts are all different: every volume has a folder, and each of its
folders is mounted with the slots of the volume. If a name occurs again, the first one that does is
reported, and nothing else is. -/
theorem checked_settings_served (here : Bytes) (ids : IdSource) (s : Settings)
    (hcheck : check here s = .ok ())
    (hslots : ∀ volume ∈ s.media.volumes, volume.slots ≤ maxSlots) :
    (((plans ids s.media.volumes).1.map (·.id)).Nodup →
      ∃ shelf, shelfFrom ids s.media = .ok shelf ∧
        shelf.mounts.Perm ((plans ids s.media.volumes).1.map mountOf) ∧
        ∀ volume ∈ s.media.volumes, volume.paths ≠ [] ∧ ∀ path ∈ volume.paths,
          ∃ mount ∈ shelf.mounts, mount.root = path ∧
            mount.limiter = .ofCapacity volume.slots) ∧
    (¬((plans ids s.media.volumes).1.map (·.id)).Nodup →
      ∃ before plan rest, (plans ids s.media.volumes).1 = before ++ plan :: rest ∧
        (before.map (·.id)).Nodup ∧ plan.id ∈ before.map (·.id) ∧
        shelfFrom ids s.media =
          .error (.failure (.invalidInput ("duplicate volume id: " ++ plan.id)))) := by
  have hnamed : ∀ mount ∈ (plans ids s.media.volumes).1.map mountOf, mount.id ≠ "" := by
    intro mount hmount
    obtain ⟨plan, hplan, rfl⟩ := List.mem_map.mp hmount
    exact (mem_plans hplan).1
  rw [shelfFrom_eq hslots]
  constructor
  · intro hids
    obtain ⟨table, htable, hperm⟩ := @MountTable.extend_of_nodup [] _ hnamed
      (by rwa [List.nil_append, map_mountOf_id])
    refine ⟨_, by rw [MountTable.ofMounts, htable], hperm, fun volume hvolume => ?_⟩
    refine ⟨paths_of_check hcheck volume hvolume, fun path hpath => ?_⟩
    obtain ⟨plan, hplan, hroot, hcapacity⟩ := exists_plan ids hvolume hpath
    refine ⟨mountOf plan, hperm.mem_iff.mpr (List.mem_map_of_mem hplan), hroot, ?_⟩
    simp [mountOf, hcapacity, Limiter.ofCapacity]
  · intro hids
    obtain ⟨before, plan, rest, hplans, hbefore, hplan⟩ := exists_first_repeated hids
    refine ⟨before, plan, rest, hplans, hbefore, hplan, ?_⟩
    rw [hplans, List.map_append, List.map_cons, List.forall_mem_append, List.forall_mem_cons]
      at hnamed
    rw [hplans, List.map_append, List.map_cons, MountTable.ofMounts,
      MountTable.extend_of_repeated hnamed.1 hnamed.2.1]
    · rfl
    · rwa [List.nil_append, map_mountOf_id]
    · rwa [List.nil_append, map_mountOf_id]

/-- One volume with two folders. -/
def twoFolders : Settings :=
  ⟨defaultServer,
    { defaultMedia with volumes := [⟨"films", 2, [Text.encode "/a", Text.encode "/b"]⟩] }⟩

theorem checked_settings_served_twoFolders :
    check (Text.encode "/") twoFolders = .ok () ∧
      ∃ shelf, shelfFrom Shelf.firstIds twoFolders.media = .ok shelf ∧
        ∃ mount ∈ shelf.mounts, mount.root = Text.encode "/b" ∧
          mount.limiter = .ofCapacity 2 := by
  have hcheck : check (Text.encode "/") twoFolders = .ok () := by decide +kernel
  have hslots : ∀ volume ∈ twoFolders.media.volumes, volume.slots ≤ maxSlots := by decide +kernel
  have hids : ((plans Shelf.firstIds twoFolders.media.volumes).1.map (·.id)).Nodup := by
    decide +kernel
  obtain ⟨shelf, hshelf, -, hserved⟩ :=
    (checked_settings_served (Text.encode "/") Shelf.firstIds twoFolders hcheck hslots).1 hids
  have hfilms := (hserved ⟨"films", 2, [Text.encode "/a", Text.encode "/b"]⟩
    (List.mem_singleton_self _)).2 (Text.encode "/b") (by simp)
  exact ⟨hcheck, shelf, hshelf, hfilms⟩

def namesakes : Settings :=
  ⟨defaultServer,
    { defaultMedia with
      volumes := [⟨"v", 10, [Text.encode "/a"]⟩, ⟨"v", 10, [Text.encode "/b"]⟩] }⟩

/-- Two volumes of one name pass the check, and there is no shelf of them. -/
theorem checked_settings_not_served :
    check (Text.encode "/") namesakes = .ok () ∧
      shelf namesakes.media = .error (.failure (.invalidInput "duplicate volume id: v")) := by
  refine ⟨by decide +kernel, rfl⟩

end MediaShelf.Settings
