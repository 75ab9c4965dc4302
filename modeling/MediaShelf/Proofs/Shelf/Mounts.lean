import Mathlib
import MediaShelf.Shelf.Mount

/-!
# Tables of mounts

The mounts of a table stand in the order of their volumes (`MountTable.ordered_ofMounts`), so a
volume tells which mount is meant. What is done to the limiter of a volume leaves everything else of
the table as it is (`MountTable.frame_changeLimiter`).
-/

namespace MediaShelf

open MediaShelf.Admission
open MediaShelf.Catalog

namespace MountTable

variable {table : MountTable} {volume : VolumeId} {mount : Mount}

/-! ## Order -/

/-- The mounts stand in the order of their volumes, which are all different. -/
def Ordered (table : MountTable) : Prop := table.Pairwise fun a b => a.id < b.id

theorem mem_put {other : Mount} : other ∈ table.put mount ↔ other = mount ∨ other ∈ table := by
  induction table with
  | nil => simp [put]
  | cons first rest ih =>
    unfold put
    split
    · exact List.mem_cons
    · rw [List.mem_cons, ih, List.mem_cons, or_left_comm]

theorem Ordered.put (h : table.Ordered) (hnew : ∀ other ∈ table, other.id ≠ mount.id) :
    (table.put mount).Ordered := by
  induction table with
  | nil => exact List.pairwise_singleton _ _
  | cons first rest ih =>
    obtain ⟨hfirst, hrest⟩ := List.pairwise_cons.mp h
    rw [List.forall_mem_cons] at hnew
    unfold MountTable.put
    split
    case isTrue hlt =>
      refine List.pairwise_cons.mpr ⟨fun other hother => ?_, h⟩
      rcases List.mem_cons.mp hother with rfl | hother
      · exact hlt
      · exact lt_trans hlt (hfirst other hother)
    case isFalse hnot =>
      refine List.pairwise_cons.mpr ⟨fun other hother => ?_, ih hrest hnew.2⟩
      rcases mem_put.mp hother with rfl | hother
      · exact lt_of_le_of_ne (not_lt.mp hnot) hnew.1
      · exact hfirst other hother

/-- What holds of the empty table and is kept when a mount of a new volume is put into its place
holds of every table that mounts make. -/
theorem of_ofMounts {P : MountTable → Prop} {mounts : List Mount} (hnil : P [])
    (hput : ∀ {start : MountTable} {mount : Mount}, mount ∈ mounts →
      (∀ other ∈ start, other.id ≠ mount.id) → P start → P (start.put mount))
    (h : ofMounts mounts = .ok table) : P table := by
  have hextend : ∀ (some : List Mount) (start : MountTable), some ⊆ mounts → P start →
      start.extend some = .ok table → P table := by
    intro some
    induction some with
    | nil =>
      intro start _ hstart hok
      cases hok
      exact hstart
    | cons mount rest ih =>
      intro start hsub hstart hok
      obtain ⟨hmem, hrest⟩ := List.cons_subset.mp hsub
      unfold extend at hok
      split at hok
      · cases hok
      · split at hok
        · cases hok
        · rename_i hnone
          refine ih _ hrest (hput hmem (fun other hother heq => hnone ?_) hstart) hok
          exact List.find?_isSome.mpr ⟨other, hother, by simpa using heq⟩
  exact hextend mounts [] (List.Subset.refl _) hnil h

/-- Every table that mounts make is in order. -/
theorem ordered_ofMounts {mounts : List Mount} (h : ofMounts mounts = .ok table) : table.Ordered :=
  of_ofMounts List.Pairwise.nil (fun _ hnew hstart => hstart.put hnew) h

theorem mem_of_ofMounts {mounts : List Mount} (h : ofMounts mounts = .ok table)
    (hmount : mount ∈ table) : mount ∈ mounts := by
  have hall : table ⊆ mounts := by
    refine of_ofMounts (P := (· ⊆ mounts)) (List.nil_subset _)
      (fun hfirst _ hstart other hother => ?_) h
    rcases mem_put.mp hother with rfl | hold
    · exact hfirst
    · exact hstart hold
  exact hall hmount

theorem perm_put : (table.put mount).Perm (mount :: table) := by
  induction table with
  | nil => exact List.Perm.refl _
  | cons first rest ih =>
    unfold put
    split
    · exact List.Perm.refl _
    · exact (ih.cons first).trans (List.Perm.swap mount first rest)

theorem isSome_find? : (table.find? volume).isSome = true ↔ volume ∈ table.map (·.id) := by
  simp [find?, List.find?_isSome, List.mem_map]

theorem perm_put_append (table : MountTable) (mount : Mount) (rest : List Mount) :
    (table.put mount ++ rest).Perm (table ++ mount :: rest) :=
  (perm_put.append_right rest).trans List.perm_middle.symm

/-- A mount of a new volume is put into its place before the others follow. -/
theorem extend_cons {rest : List Mount} (hname : mount.id ≠ "")
    (hnew : mount.id ∉ table.map (·.id)) :
    table.extend (mount :: rest) = (table.put mount).extend rest := by
  rw [extend, if_neg hname, if_neg (mt isSome_find?.mp hnew)]

theorem not_mem_of_nodup {rest : List Mount}
    (hids : ((table ++ mount :: rest).map (·.id)).Nodup) : mount.id ∉ table.map (·.id) := by
  rw [List.map_append, List.map_cons, List.nodup_middle, List.nodup_cons] at hids
  exact fun h => hids.1 (List.mem_append_left _ h)

/-- Mounts of new volumes, which are all different, all find their place. -/
theorem extend_of_nodup {mounts : List Mount} (hnamed : ∀ mount ∈ mounts, mount.id ≠ "")
    (hids : ((table ++ mounts).map (·.id)).Nodup) :
    ∃ full, table.extend mounts = .ok full ∧ full.Perm (table ++ mounts) := by
  induction mounts generalizing table with
  | nil => exact ⟨table, rfl, by rw [List.append_nil]⟩
  | cons mount rest ih =>
    rw [List.forall_mem_cons] at hnamed
    have hperm := perm_put_append table mount rest
    obtain ⟨full, hfull, hall⟩ := ih hnamed.2 ((hperm.map (·.id)).nodup_iff.mpr hids)
    refine ⟨full, ?_, hall.trans hperm⟩
    rw [extend_cons hnamed.1 (not_mem_of_nodup hids), hfull]

/-- The first mount whose volume was met before is the one that is refused. -/
theorem extend_of_repeated {before rest : List Mount} (hnamed : ∀ other ∈ before, other.id ≠ "")
    (hname : mount.id ≠ "") (hids : ((table ++ before).map (·.id)).Nodup)
    (hmount : mount.id ∈ (table ++ before).map (·.id)) :
    table.extend (before ++ mount :: rest) = .error (.duplicate mount.id) := by
  induction before generalizing table with
  | nil =>
    rw [List.append_nil] at hmount
    rw [List.nil_append, extend, if_neg hname, if_pos (isSome_find?.mpr hmount)]
  | cons first before ih =>
    rw [List.forall_mem_cons] at hnamed
    have hperm := perm_put_append table first before
    rw [List.cons_append, extend_cons hnamed.1 (not_mem_of_nodup hids)]
    exact ih hnamed.2 ((hperm.map (·.id)).nodup_iff.mpr hids)
      ((hperm.map (·.id)).mem_iff.mpr hmount)

theorem Ordered.nodup (h : table.Ordered) : (table.map (·.id)).Nodup :=
  List.pairwise_map.mpr (h.imp fun hlt => ne_of_lt hlt)

/-! ## Volumes -/

theorem mem_of_find? (h : table.find? volume = some mount) : mount ∈ table ∧ mount.id = volume :=
  ⟨List.mem_of_find?_eq_some h, by simpa using List.find?_some h⟩

theorem find?_of_mem (h : volume ∈ table.map (·.id)) :
    ∃ mount, table.find? volume = some mount := by
  obtain ⟨mount, hmount, hid⟩ := List.mem_map.mp h
  exact Option.isSome_iff_exists.mp (List.find?_isSome.mpr ⟨mount, hmount, by simpa using hid⟩)

/-- Volumes tell mounts apart. -/
theorem eq_of_find? (hids : (table.map (·.id)).Nodup) (h : table.find? volume = some mount)
    {other : Mount} (hother : other ∈ table) (hid : other.id = volume) : other = mount := by
  obtain ⟨hmount, hvolume⟩ := mem_of_find? h
  exact List.inj_on_of_nodup_map hids hother hmount (hid.trans hvolume.symm)

/-! ## Limiters -/

/-- The mounts but for who has and who wants their slots. -/
def frame (table : MountTable) : List (VolumeId × Bytes × Nat) :=
  table.map fun mount => (mount.id, mount.root, mount.limiter.capacity)

theorem map_id_eq (table : MountTable) : table.map (·.id) = table.frame.map (·.1) := by
  unfold frame
  rw [List.map_map]
  rfl

theorem changeLimiter_eq (hids : (table.map (·.id)).Nodup) (h : table.find? volume = some mount)
    (change : Limiter → Limiter) :
    table.changeLimiter (fun _ => change mount.limiter) volume =
      table.changeLimiter change volume := by
  refine List.map_congr_left fun other hother => ?_
  split
  case isTrue hid => rw [eq_of_find? hids h hother hid]
  case isFalse => rfl

theorem frame_changeLimiter {change : Limiter → Limiter}
    (hcapacity : ∀ l, (change l).capacity = l.capacity) (volume : VolumeId) :
    (table.changeLimiter change volume).frame = table.frame := by
  unfold frame changeLimiter
  rw [List.map_map]
  refine List.map_congr_left fun mount _ => ?_
  rw [Function.comp_apply]
  split
  · rw [hcapacity]
  · rfl

end MountTable

end MediaShelf
