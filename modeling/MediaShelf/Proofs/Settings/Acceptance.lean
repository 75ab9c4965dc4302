import MediaShelf.Proofs.Files.Spelling
import MediaShelf.Settings.Sound

/-!
# Which settings are accepted

The check goes through the volumes and their folders one after the other and stops at the first
fault. What it decides is a condition on the settings as a whole (`Servable`), in which every two
folders are compared; so neither the order of the volumes nor that of their folders matters:
`check_accepts`.
-/

namespace MediaShelf.Settings

open MediaShelf.Files

/-! ## Absolute paths -/

/-- The root in front of an absolute path: one slash, or two where there are exactly two. -/
def rootText (path : Bytes) : Bytes :=
  if path.take 2 = [slash, slash] ∧ path[2]? ≠ some slash then [slash, slash] else [slash]

/-- The absolute form of a path as a text: its parts behind the root, or behind the folder that it
is seen from, and a slash at the end if it has one there. -/
def absoluteText? (here path : Bytes) : Option Bytes :=
  if path = [] then none
  else
    let folder := if isAbsolute path then rootText path else here
    let text := (partSteps path).foldl (fun text step => join text step.bytes) folder
    some (if path.getLast? = some slash then join text [] else text)

/-- The absolute form of a path, up to its spelling. -/
def absoluteForm? (here path : Bytes) : Option (List Step) := (absoluteText? here path).map steps

theorem steps_rootText (path : Bytes) : steps (rootText path) = [.root] := by
  unfold rootText
  split <;> rfl

theorem leadSteps_of_isAbsolute {path : Bytes} (h : isAbsolute path = true) :
    leadSteps path = [.root] := if_pos (beq_iff_eq.mp h)

theorem leadSteps_of_not_isAbsolute {path : Bytes} (h : ¬isAbsolute path = true) :
    leadSteps path = [.here] ∨ leadSteps path = [] := by
  rw [leadSteps, if_neg fun heq => h (beq_iff_eq.mpr heq)]
  split
  · exact .inl rfl
  · exact .inr rfl

theorem partSteps_ne_here {path : Bytes} {rest : List Step} :
    partSteps path ≠ .here :: rest := by
  intro h
  have hmem : Step.here ∈ partSteps path := h ▸ List.mem_cons_self
  exact absurd (mem_partSteps hmem).2 (by decide)

theorem absoluteForm?_of_ne_nil (here : Bytes) {path : Bytes} (h : path ≠ []) :
    absoluteForm? here path =
      some ((if isAbsolute path then [.root] else steps here) ++ partSteps path) := by
  have hslash : ∀ text : Bytes,
      steps (if path.getLast? = some slash then join text [] else text) = steps text := by
    intro text
    split
    · exact steps_join_nil text
    · rfl
  rw [absoluteForm?, absoluteText?, if_neg h, Option.map_some, hslash,
    steps_foldl_join _ fun step => mem_partSteps]
  split
  · rw [steps_rootText]
  · rfl

@[simp] theorem absoluteForm?_eq_none {here path : Bytes} :
    absoluteForm? here path = none ↔ path = [] := by
  constructor
  · intro hnone
    by_contra hne
    rw [absoluteForm?_of_ne_nil here hne] at hnone
    cases hnone
  · rintro rfl
    rfl

theorem absoluteSteps?_eq (here path : Bytes) :
    absoluteSteps? here path = absoluteForm? here path := by
  unfold absoluteSteps?
  split
  case isTrue hnil => rw [absoluteForm?_eq_none.mpr hnil]
  case isFalse hne =>
    rw [absoluteForm?_of_ne_nil here hne]
    split
    case isTrue habsolute => rw [steps_eq, leadSteps_of_isAbsolute habsolute]
    case isFalse hrelative =>
      rw [steps_eq path]
      rcases leadSteps_of_not_isAbsolute hrelative with hlead | hlead <;> rw [hlead]
      · rfl
      · rw [List.nil_append]
        split
        · rename_i heq
          exact absurd heq partSteps_ne_here
        · rfl

/-! ## Spellings of one folder -/

/-- The first path is the second one with a slash or a dot that does not count. -/
inductive Respelled : Bytes → Bytes → Prop where
  | repeatedSlash (front back : Bytes) :
    Respelled (front ++ slash :: slash :: back) (front ++ slash :: back)
  | innerDot (front back : Bytes) :
    Respelled (front ++ slash :: dot :: slash :: back) (front ++ slash :: back)
  | lastSlash {path : Bytes} : path ≠ [] → Respelled (path ++ [slash]) path
  | lastDot {path : Bytes} : path ≠ [] → Respelled (path ++ [slash, dot]) path
  | firstDot {path : Bytes} : path ≠ [] → ¬isAbsolute path → Respelled (dot :: slash :: path) path

theorem isAbsolute_append {front : Bytes} (h : front ≠ []) (back : Bytes) :
    isAbsolute (front ++ back) = isAbsolute front := by
  rw [isAbsolute, List.head?_append_of_ne_nil _ h, isAbsolute]

theorem absoluteForm?_append_slash (here front : Bytes) {back other : Bytes}
    (h : partSteps back = partSteps other) :
    absoluteForm? here (front ++ slash :: back) = absoluteForm? here (front ++ slash :: other) := by
  have habsolute :
      isAbsolute (front ++ slash :: back) = isAbsolute (front ++ slash :: other) := by
    cases front <;> rfl
  rw [absoluteForm?_of_ne_nil here (by simp), absoluteForm?_of_ne_nil here (by simp), habsolute,
    partSteps_append_slash, partSteps_append_slash, h]

/-- What adds no part behind the last slash does not count. -/
theorem absoluteForm?_append_nothing (here : Bytes) {path back : Bytes} (hne : path ≠ [])
    (h : partSteps back = []) :
    absoluteForm? here (path ++ slash :: back) = absoluteForm? here path := by
  rw [absoluteForm?_of_ne_nil here (by simp), absoluteForm?_of_ne_nil here hne,
    isAbsolute_append hne, partSteps_append_slash, h, List.append_nil]

theorem Respelled.absoluteForm?_eq {path other : Bytes} (h : Respelled path other) (here : Bytes) :
    absoluteForm? here path = absoluteForm? here other := by
  cases h with
  | repeatedSlash front back =>
    exact absoluteForm?_append_slash here front (partSteps_append_slash [] back)
  | innerDot front back =>
    exact absoluteForm?_append_slash here front (partSteps_append_slash [dot] back)
  | lastSlash hne => exact absoluteForm?_append_nothing here hne rfl
  | lastDot hne => exact absoluteForm?_append_nothing here hne rfl
  | firstDot hne hrelative =>
    have hdot : ¬isAbsolute (dot :: slash :: other) := by simp [isAbsolute, dot, slash]
    rw [absoluteForm?_of_ne_nil here (by simp), absoluteForm?_of_ne_nil here hne,
      if_neg hrelative, if_neg hdot]
    exact congrArg some (congrArg _ (partSteps_append_slash [dot] other))

/-! ## Folders that are given once -/

def forms (here : Bytes) (paths : List Bytes) : List (Option (List Step)) :=
  paths.map (absoluteForm? here)

def Mounted.forms (mounted : Mounted) : List (Option (List Step)) := mounted.map fun m => some m.1

variable (here : Bytes) {mounted : Settings.Mounted}

theorem Mounted.mem_forms {absolute : List Step} :
    some absolute ∈ Mounted.forms mounted ↔ (mounted.lookup absolute).isSome := by
  rw [List.lookup_isSome_iff, Mounted.forms, List.mem_map]
  simp

/-- The folders of a volume are taken exactly if all of them have a path and none of them is met
twice, here or before; then all of them are noted. -/
theorem checkPaths_spec (label : String) (paths : List Bytes)
    (hmounted : (Mounted.forms mounted).Nodup) :
    match checkPaths here label mounted paths with
    | .ok after => [] ∉ paths ∧ (Mounted.forms after).Nodup ∧
        (Mounted.forms after).Perm (forms here paths ++ Mounted.forms mounted)
    | .error _ => [] ∈ paths ∨ ¬(forms here paths ++ Mounted.forms mounted).Nodup := by
  induction paths generalizing mounted with
  | nil => exact ⟨List.not_mem_nil, hmounted, List.Perm.refl _⟩
  | cons path rest ih =>
    unfold checkPaths
    cases hform : absoluteSteps? here path with
    | none =>
      rw [absoluteSteps?_eq, absoluteForm?_eq_none] at hform
      exact .inl (hform ▸ List.mem_cons_self)
    | some absolute =>
      have hforms : forms here (path :: rest) = some absolute :: forms here rest := by
        rw [forms, List.map_cons, ← absoluteSteps?_eq, hform, forms]
      have hpath : path ≠ [] := by
        rintro rfl
        cases hform
      dsimp only
      cases hlookup : mounted.lookup absolute with
      | some other =>
        refine .inr fun hnodup => ?_
        rw [hforms, List.cons_append, List.nodup_cons, List.mem_append, not_or] at hnodup
        exact hnodup.1.2 (Mounted.mem_forms.mpr (hlookup ▸ rfl))
      | none =>
        have hnew : some absolute ∉ Mounted.forms mounted := fun hmem => by
          simpa [hlookup] using Mounted.mem_forms.mp hmem
        have hperm : (forms here rest ++ Mounted.forms ((absolute, label) :: mounted)).Perm
            (forms here (path :: rest) ++ Mounted.forms mounted) := by
          rw [hforms]
          exact List.perm_middle
        have hgrown : (Mounted.forms ((absolute, label) :: mounted)).Nodup :=
          List.nodup_cons.mpr ⟨hnew, hmounted⟩
        have hrest := ih hgrown
        dsimp only
        split at hrest
        · obtain ⟨hnamed, hnodup, hall⟩ := hrest
          exact ⟨List.not_mem_cons_of_ne_of_not_mem hpath.symm hnamed, hnodup, hall.trans hperm⟩
        · exact hrest.imp (List.mem_cons_of_mem _) (mt hperm.nodup_iff.mpr)

def folders (volumes : List VolumeSettings) : List Bytes := volumes.flatMap (·.paths)

/-- Volumes are taken exactly if every volume has folders, all of them have a path, and none of them
is met twice, in whatever volumes it is. -/
theorem checkVolumes_ok_iff (number : Nat) (volumes : List VolumeSettings)
    (hmounted : (Mounted.forms mounted).Nodup) :
    checkVolumes here number mounted volumes = .ok () ↔
      (∀ volume ∈ volumes, volume.paths ≠ []) ∧ [] ∉ folders volumes ∧
        (forms here (folders volumes) ++ Mounted.forms mounted).Nodup := by
  induction volumes generalizing number mounted with
  | nil => simpa [checkVolumes, folders, forms] using hmounted
  | cons volume rest ih =>
    have hfolders : folders (volume :: rest) = volume.paths ++ folders rest := rfl
    have hforms : forms here (folders (volume :: rest)) ++ Mounted.forms mounted =
        forms here volume.paths ++ (forms here (folders rest) ++ Mounted.forms mounted) := by
      rw [hfolders, forms, List.map_append, List.append_assoc]
      rfl
    have hperm : (forms here (folders (volume :: rest)) ++ Mounted.forms mounted).Perm
        (forms here (folders rest) ++ (forms here volume.paths ++ Mounted.forms mounted)) := by
      rw [hforms, ← List.append_assoc, ← List.append_assoc]
      exact List.perm_append_comm.append_right _
    rw [List.forall_mem_cons, hperm.nodup_iff, hfolders, List.mem_append, not_or]
    unfold checkVolumes
    dsimp only
    split
    case isTrue hnone => simp [hnone]
    case isFalse hsome =>
      have hspec := checkPaths_spec here (volumeLabel number volume) volume.paths hmounted
      split <;> rename_i hpaths <;> rw [hpaths] at hspec <;> dsimp only at hspec
      · refine iff_of_false (by simp) ?_
        rintro ⟨-, ⟨hnamed, -⟩, hnodup⟩
        exact hspec.elim hnamed fun h => h (List.Nodup.of_append_right hnodup)
      · obtain ⟨hnamed, hnodup, hall⟩ := hspec
        rw [ih (number + 1) hnodup, (hall.append_left _).nodup_iff]
        simp [hsome, hnamed]

/-! ## Accepted settings -/

/-- What is asked of settings that are to be served from a folder: the server has a port, a buffer
that is used is not empty, every volume has folders, and no two folders are the same. -/
structure Servable (here : Bytes) (s : Settings) : Prop where
  port : s.server.port ≠ 0
  buffer : s.media.mode = .buffered → s.media.bufferSize.bytes ≠ 0
  paths : ∀ volume ∈ s.media.volumes, volume.paths ≠ []
  named : [] ∉ folders s.media.volumes
  apart : (forms here (folders s.media.volumes)).Nodup

theorem check_ok_iff (here : Bytes) (s : Settings) : check here s = .ok () ↔ Servable here s := by
  have hempty : (Mounted.forms []).Nodup := List.nodup_nil
  have hvolumes := checkVolumes_ok_iff here 1 s.media.volumes hempty
  unfold check
  split
  case isTrue hport => exact iff_of_false (by simp) fun h => h.port hport
  case isFalse hport =>
    split
    case isTrue hbuffer => exact iff_of_false (by simp) fun h => h.buffer hbuffer.1 hbuffer.2
    case isFalse hbuffer =>
      rw [hvolumes, show Mounted.forms [] = [] from rfl, List.append_nil]
      constructor
      · rintro ⟨hpaths, hnamed, hapart⟩
        exact ⟨hport, fun hmode hempty => hbuffer ⟨hmode, hempty⟩, hpaths, hnamed, hapart⟩
      · rintro ⟨-, -, hpaths, hnamed, hapart⟩
        exact ⟨hpaths, hnamed, hapart⟩

/-- The same volumes in some other order, each with its folders in some other order. -/
def Reordered (before after : List VolumeSettings) : Prop :=
  ∃ between, before.Perm between ∧
    List.Forall₂ (fun v w => v.id = w.id ∧ v.slots = w.slots ∧ v.paths.Perm w.paths) between after

def withVolumes (s : Settings) (volumes : List VolumeSettings) : Settings :=
  { s with media := { s.media with volumes := volumes } }

namespace Reordered

variable {before after : List VolumeSettings}

theorem perm_folders (h : Reordered before after) : (folders before).Perm (folders after) := by
  obtain ⟨between, hperm, hsame⟩ := h
  have hbetween : (folders between).Perm (folders after) := by
    clear hperm
    induction hsame with
    | nil => exact List.Perm.refl _
    | cons hfirst _ ih => exact hfirst.2.2.append ih
  exact (hperm.flatMap_right _).trans hbetween

theorem perm_lengths (h : Reordered before after) :
    (before.map (·.paths.length)).Perm (after.map (·.paths.length)) := by
  obtain ⟨between, hperm, hsame⟩ := h
  have hbetween : between.map (·.paths.length) = after.map (·.paths.length) := by
    clear hperm
    induction hsame with
    | nil => rfl
    | cons hfirst _ ih => rw [List.map_cons, List.map_cons, hfirst.2.2.length_eq, ih]
  exact hbetween ▸ hperm.map _

end Reordered

theorem paths_ne_nil_iff {volumes : List VolumeSettings} :
    (∀ volume ∈ volumes, volume.paths ≠ []) ↔ 0 ∉ volumes.map (·.paths.length) := by
  simp [List.mem_map, List.length_eq_zero_iff]

theorem Servable.reordered {here : Bytes} {s : Settings} {volumes : List VolumeSettings}
    (h : Reordered s.media.volumes volumes) :
    Servable here s ↔ Servable here (withVolumes s volumes) := by
  have hfolders := h.perm_folders
  have hpaths : (∀ volume ∈ s.media.volumes, volume.paths ≠ []) ↔
      ∀ volume ∈ volumes, volume.paths ≠ [] := by
    rw [paths_ne_nil_iff, paths_ne_nil_iff, h.perm_lengths.mem_iff]
  have hapart := (hfolders.map (absoluteForm? here)).nodup_iff
  constructor
  · rintro ⟨hport, hbuffer, hgiven, hnamed, hforms⟩
    exact ⟨hport, hbuffer, hpaths.mp hgiven, mt hfolders.mem_iff.mpr hnamed, hapart.mp hforms⟩
  · rintro ⟨hport, hbuffer, hgiven, hnamed, hforms⟩
    exact ⟨hport, hbuffer, hpaths.mpr hgiven, mt hfolders.mem_iff.mp hnamed, hapart.mpr hforms⟩

/-- Settings are accepted exactly if they can be served. The order of the volumes does not matter,
nor that of the folders in a volume, and folders are told apart by their absolute forms, in which
further slashes and dots do not count. -/
theorem check_accepts (here : Bytes) (s : Settings) :
    (check here s = .ok () ↔ Servable here s) ∧
      (∀ volumes, Reordered s.media.volumes volumes →
        (check here (withVolumes s volumes) = .ok () ↔ check here s = .ok ())) ∧
      ∀ path other, Respelled path other → absoluteForm? here path = absoluteForm? here other := by
  refine ⟨check_ok_iff here s, fun volumes hvolumes => ?_, fun path other h => ?_⟩
  · rw [check_ok_iff, check_ok_iff, Servable.reordered hvolumes]
  · exact h.absoluteForm?_eq here

/-- A folder that is given twice, once by its absolute path. -/
example : check (Text.encode "/a") ⟨defaultServer, { defaultMedia with
      volumes := [⟨"v", 1, [Text.encode "/a/b", Text.encode ".//b/"]⟩] }⟩ =
    .error (.sharedPath (Text.encode ".//b/") "v" "v") := by decide +kernel

/-- Two volumes with three folders. -/
def twoVolumes : List VolumeSettings :=
  [⟨"films", 2, [Text.encode "/films", Text.encode "old"]⟩, ⟨"", 1, [Text.encode "./clips"]⟩]

/-- The same volumes the other way round. -/
def twoVolumesTurned : List VolumeSettings :=
  [⟨"", 1, [Text.encode "./clips"]⟩, ⟨"films", 2, [Text.encode "old", Text.encode "/films"]⟩]

theorem check_accepts_turned :
    Servable (Text.encode "/home") (withVolumes .default twoVolumes) ∧
      check (Text.encode "/home") (withVolumes .default twoVolumesTurned) = .ok () ∧
      absoluteForm? (Text.encode "/home") (Text.encode "./clips") =
        absoluteForm? (Text.encode "/home") (Text.encode "clips") := by
  have hcheck : check (Text.encode "/home") (withVolumes .default twoVolumes) = .ok () := by
    decide +kernel
  have hturned : Reordered twoVolumes twoVolumesTurned := by
    refine ⟨twoVolumes.reverse, (List.reverse_perm _).symm, ?_⟩
    exact .cons ⟨rfl, rfl, List.Perm.refl _⟩ (.cons ⟨rfl, rfl, List.Perm.swap _ _ _⟩ .nil)
  have hdot : Text.encode "./clips" = dot :: slash :: Text.encode "clips" := by decide +kernel
  have hrespelled : Respelled (Text.encode "./clips") (Text.encode "clips") := by
    rw [hdot]
    exact .firstDot (by decide +kernel) (by decide +kernel)
  obtain ⟨hservable, horder, hform⟩ :=
    check_accepts (Text.encode "/home") (withVolumes .default twoVolumes)
  exact ⟨hservable.mp hcheck, (horder twoVolumesTurned hturned).mpr hcheck, hform _ _ hrespelled⟩

end MediaShelf.Settings
