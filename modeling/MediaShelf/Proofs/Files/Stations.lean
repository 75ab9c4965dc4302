import MediaShelf.Proofs.Files.Escape
import MediaShelf.Proofs.Files.Names

/-!
# Resolving like the system

Inside its root the resolver agrees with the system (`resolveInRoot_agrees`). The walk of the system
comes to a number of stations: the places where it stands, and the links that it meets there. As
long as these are inside the root or on the way to it, and no path is too long for the system to be
asked about it, the resolver takes the same walk and ends at the same place
(`walkConfined_arrives`); at the first station elsewhere it refuses (`walkConfined_leaves`).
-/

namespace MediaShelf.Files

/-- What a walk of the system comes to. -/
inductive Station where
  /-- A place where it stands. -/
  | stand (place : Place)
  /-- A link that it meets, and from whose folder it goes on. -/
  | link (place : Place)
  deriving DecidableEq

/-- Where a station is. -/
def Station.place : Station → Place
  | stand place => place
  | link place => place

namespace Tree

/-- The stations of the walk that `walkSteps` takes, up to its end or its first fault. -/
def stations (tree : Tree) (links : Nat) (here : Place) : List Step → List Station
  | [] => []
  | .root :: rest => .stand [] :: stations tree links [] rest
  | .here :: rest =>
    match tree.standFault? here with
    | some _ => []
    | none => stations tree links here rest
  | .up :: rest =>
    match tree.standFault? here with
    | some _ => []
    | none => .stand here.dropLast :: stations tree links here.dropLast rest
  | .down name :: rest =>
    match tree.standFault? here with
    | some _ => []
    | none =>
      if maxName < name.length then []
      else
        match tree.node? (here ++ [name]) with
        | none => []
        | some (.link target) =>
          match links with
          | 0 => []
          | links + 1 =>
            .link (here ++ [name]) :: stations tree links here (systemSteps target ++ rest)
        | some _ => .stand (here ++ [name]) :: stations tree links (here ++ [name]) rest
termination_by steps => (links, steps.length)

section

variable {tree : Tree} {links : Nat} {here : Place} {name : Name} {rest : List Step}
  (hstand : tree.standFault? here = none) (hshort : ¬maxName < name.length)

include hstand

theorem stations_here :
    tree.stations links here (.here :: rest) = tree.stations links here rest := by
  rw [stations, hstand]

theorem stations_up : tree.stations links here (.up :: rest) =
    .stand here.dropLast :: tree.stations links here.dropLast rest := by
  rw [stations, hstand]

include hshort

theorem stations_link {target : Bytes} (hnode : tree.node? (here ++ [name]) = some (.link target)) :
    tree.stations (links + 1) here (.down name :: rest) =
      .link (here ++ [name]) :: tree.stations links here (systemSteps target ++ rest) := by
  simp only [stations, hstand, if_neg hshort, hnode]

theorem stations_node {node : Node} (hnode : tree.node? (here ++ [name]) = some node)
    (hlink : ∀ target, node ≠ .link target) :
    tree.stations links here (.down name :: rest) =
      .stand (here ++ [name]) :: tree.stations links (here ++ [name]) rest := by
  simp only [stations, hstand, if_neg hshort, hnode]

end

/-- The names of a tree are such as the system takes: not too long, and without the byte 0. -/
def Spelled (tree : Tree) : Prop :=
  ∀ place ∈ tree.nodes.map (·.1), ∀ name ∈ place, 0 ∉ name ∧ name.length ≤ maxName

instance (tree : Tree) : Decidable tree.Spelled :=
  inferInstanceAs (Decidable (∀ place ∈ tree.nodes.map (·.1),
    ∀ name ∈ place, 0 ∉ name ∧ name.length ≤ maxName))

/-! ## What a probe is told -/

variable {tree : Tree} {place here root : Place} {names : List Name} {node : Node}

theorem Spelled.of_node? (hn : tree.Spelled) (h : tree.node? place = some node) :
    ∀ name ∈ place, 0 ∉ name ∧ name.length ≤ maxName := by
  intro name hname
  have hne : place ≠ [] := List.ne_nil_of_mem hname
  exact hn place (node?_isSome_mem hne (Option.isSome_of_eq_some h)) name hname

theorem probeFrom_of_node? (hw : tree.WellFormed)
    (hshort : ∀ name ∈ names, name.length ≤ maxName)
    (h : tree.node? (here ++ names) = some node) : tree.probeFrom here names = .ok node := by
  induction names generalizing here with
  | nil => exact probeFrom_nil_ok.mpr (by simpa using h)
  | cons name names ih =>
    rw [List.forall_mem_cons] at hshort
    refine probeFrom_cons_ok.mpr ⟨?_, hshort.1, ih hshort.2 (by simpa using h)⟩
    exact hw.folder_of_append (name :: names) here (by simp) (Option.isSome_of_eq_some h)

/-- A probe tells of a node whose path is not too long. -/
theorem probe_of_node? (hw : tree.WellFormed) (hn : tree.Spelled)
    (h : tree.node? place = some node) (hlen : placeLength place ≤ maxPath) :
    tree.probe place = .ok node := by
  have hnames := hn.of_node? h
  have hshort : ∀ name ∈ place, name.length ≤ maxName := fun name hname => (hnames name hname).2
  refine probe_eq_ok.mpr ⟨?_, hlen, probeFrom_of_node? hw hshort h⟩
  rw [List.any_eq_false]
  intro name hname hnul
  exact (hnames name hname).1 (by simpa using hnul)

/-- A probe of a path that is too long says so. -/
theorem probe_of_tooLong (hnul : ∀ name ∈ place, 0 ∉ name) (hlen : maxPath < placeLength place) :
    tree.probe place = .error .nameTooLong := by
  have hany : ¬place.any (·.contains 0) = true := by
    rw [List.any_eq_true]
    rintro ⟨name, hname, hmem⟩
    exact hnul name hname (by simpa using hmem)
  rw [probe, if_neg hany, if_pos hlen]

end Tree

theorem placeLength_eq {place : Place} (hne : place ≠ []) :
    placeLength place = (place.map (·.length + 1)).sum := by
  rw [placeLength, placePath, if_neg hne, List.length_flatMap]
  rfl

theorem length_joinNames {names : List Name} (hne : names ≠ []) :
    (joinNames names).length + 1 = placeLength names := by
  rw [placeLength_eq hne]
  induction names with
  | nil => exact absurd rfl hne
  | cons name rest ih =>
    cases rest with
    | nil => rfl
    | cons next rest =>
      rw [List.map_cons, List.sum_cons, ← ih (by simp), joinNames_cons, List.length_append,
        List.length_append, List.length_singleton, Nat.add_assoc]

theorem placeLength_le_append_list (place : Place) (names : List Name) :
    placeLength place ≤ placeLength (place ++ names) := by
  induction names generalizing place with
  | nil => rw [List.append_nil]
  | cons name rest ih =>
    have hsplit : place ++ name :: rest = place ++ [name] ++ rest := by simp
    rw [hsplit]
    exact (placeLength_le_append place name).trans (ih _)

/-! ## The confined walk -/

theorem isInside_iff {root place : Place} : isInside root place = true ↔ root <+: place :=
  List.isPrefixOf_iff_prefix

section Step

variable {probe : Place → Except Fault Node} {root here : Place} {outside : Failure} {links : Nat}
  {name : Name} {rest : List Step}

theorem walkConfined_outside {missing : Bool} (h : ¬isAllowed root (here ++ [name])) :
    walkConfined probe root outside links missing here (.down name :: rest) = .error outside := by
  simp only [walkConfined, if_pos h]

theorem walkConfined_link {target : Bytes} (h : isAllowed root (here ++ [name]))
    (hprobe : probe (here ++ [name]) = .ok (.link target)) :
    walkConfined probe root outside (links + 1) false here (.down name :: rest) =
      walkConfined probe root outside links false here (steps target ++ rest) := by
  simp only [walkConfined, h, hprobe, not_true_eq_false, if_false, Bool.false_eq_true]

theorem walkConfined_node {node : Node} (h : isAllowed root (here ++ [name]))
    (hprobe : probe (here ++ [name]) = .ok node) (hlink : ∀ target, node ≠ .link target) :
    walkConfined probe root outside links false here (.down name :: rest) =
      walkConfined probe root outside links false (here ++ [name]) rest := by
  simp only [walkConfined, h, hprobe, not_true_eq_false, if_false, Bool.false_eq_true]

theorem walkConfined_tooLong (h : isAllowed root (here ++ [name]))
    (hprobe : probe (here ++ [name]) = .error .nameTooLong) :
    walkConfined probe root outside links false here (.down name :: rest) =
      .error (.fault .nameTooLong) := by
  simp only [walkConfined, h, hprobe, not_true_eq_false, if_false, Bool.false_eq_true]
  rw [if_neg (by decide)]

end Step

/-- If the first of some stations is near the root and not all are, then a later one is not. -/
theorem leaves_later {root : Place} {first : Station} {later : List Station}
    (hleave : ∃ station ∈ first :: later, ¬isAllowed root station.place)
    (hfirst : isAllowed root first.place) : ∃ station ∈ later, ¬isAllowed root station.place := by
  obtain ⟨station, hmem, hout⟩ := hleave
  rcases List.mem_cons.mp hmem with rfl | hlater
  · exact absurd hfirst hout
  · exact ⟨station, hlater, hout⟩

section Walk

variable {tree : Tree} {root : Place} {outside : Failure} (hw : tree.WellFormed)
  (hn : tree.Spelled)

include hw hn

/-- If all stations of the walk of the system are near the root, then the confined walk comes to the
same end, and is refused there if that is above the root. -/
theorem walkConfined_arrives {links : Nat} {here p : Place} {steps : List Step}
    (h : tree.walkSteps true links here steps = .ok p)
    (hnear : ∀ station ∈ tree.stations links here steps,
      isAllowed root station.place ∧ placeLength station.place ≤ maxPath)
    {steps' : List Step} (hsteps : moving steps' = moving steps) :
    walkConfined tree.probe root outside links false here steps' =
      if isInside root p then .ok p else .error outside := by
  -- The two walks hold the same steps apart from dots, which lead nowhere.
  fun_induction tree.walkSteps true links here steps generalizing steps' with
  | case1 links here hsome =>
    cases h
    rw [walkConfined_of_moving_nil hsteps, walkConfined, ite_not]
    rfl
  | case2 | case4 | case6 | case8 | case9 | case10 | case12 => cases h
  | case3 links here rest ih =>
    obtain ⟨tail, htail, hwalk⟩ := walkConfined_of_moving_cons hsteps
    rw [Tree.stations, List.forall_mem_cons] at hnear
    rw [hwalk, walkConfined]
    exact ih h hnear.2 htail
  | case5 links here rest hstand ih =>
    rw [Tree.stations_here hstand] at hnear
    exact ih h hnear hsteps
  | case7 links here rest hstand ih =>
    obtain ⟨tail, htail, hwalk⟩ := walkConfined_of_moving_cons hsteps
    rw [Tree.stations_up hstand, List.forall_mem_cons] at hnear
    rw [hwalk, walkConfined]
    exact ih h hnear.2 htail
  | case11 links here name rest _ _ target _ hlast => simp at hlast
  | case13 here name rest hstand hshort target hnode _ links ih =>
    obtain ⟨tail, htail, hwalk⟩ := walkConfined_of_moving_cons hsteps
    rw [Nat.succ_eq_add_one, Tree.stations_link hstand hshort hnode, List.forall_mem_cons] at hnear
    rw [hwalk, walkConfined_link hnear.1.1 (Tree.probe_of_node? hw hn hnode hnear.1.2)]
    refine ih h hnear.2 ?_
    rw [moving_append, moving_append, systemSteps_moving, htail]
    rfl
  | case14 links here name rest hstand hshort node hlink hnode ih =>
    obtain ⟨tail, htail, hwalk⟩ := walkConfined_of_moving_cons hsteps
    rw [Tree.stations_node hstand hshort hnode hlink, List.forall_mem_cons] at hnear
    rw [hwalk, walkConfined_node hnear.1.1 (Tree.probe_of_node? hw hn hnode hnear.1.2) hlink]
    exact ih h hnear.2 htail

/-- If some station of the walk of the system is not near the root, then the confined walk is
refused there. -/
theorem walkConfined_leaves {links : Nat} {here : Place} {steps : List Step}
    (hhere : isAllowed root here)
    (hleave : ∃ station ∈ tree.stations links here steps, ¬isAllowed root station.place)
    (hlen : ∀ station ∈ tree.stations links here steps,
      isAllowed root station.place → placeLength station.place ≤ maxPath)
    {steps' : List Step} (hsteps : moving steps' = moving steps) :
    walkConfined tree.probe root outside links false here steps' = .error outside := by
  -- The induction is on the stations, since the walk of the system may still come to a fault.
  fun_induction tree.stations links here steps generalizing steps' with
  | case1 | case3 | case5 | case7 | case8 | case9 | case10 =>
    obtain ⟨station, hmem, -⟩ := hleave
    cases hmem
  | case2 links here rest ih =>
    obtain ⟨tail, htail, hwalk⟩ := walkConfined_of_moving_cons hsteps
    have hroot : isAllowed root [] := Tree.isAllowed_on_way hhere List.nil_prefix
    rw [hwalk, walkConfined]
    exact ih hroot (leaves_later hleave hroot) (List.forall_mem_cons.mp hlen).2 htail
  | case4 links here rest hstand ih => exact ih hhere hleave hlen hsteps
  | case6 links here rest hstand ih =>
    obtain ⟨tail, htail, hwalk⟩ := walkConfined_of_moving_cons hsteps
    have hparent : isAllowed root here.dropLast :=
      Tree.isAllowed_on_way hhere (List.dropLast_prefix here)
    rw [hwalk, walkConfined]
    exact ih hparent (leaves_later hleave hparent) (List.forall_mem_cons.mp hlen).2 htail
  | case11 here name rest hstand hshort target hnode links ih =>
    obtain ⟨tail, htail, hwalk⟩ := walkConfined_of_moving_cons hsteps
    rw [List.forall_mem_cons] at hlen
    rw [hwalk]
    by_cases hnear : isAllowed root (here ++ [name])
    · rw [walkConfined_link hnear (Tree.probe_of_node? hw hn hnode (hlen.1 hnear))]
      refine ih hhere (leaves_later hleave hnear) hlen.2 ?_
      rw [moving_append, moving_append, systemSteps_moving, htail]
      rfl
    · exact walkConfined_outside hnear
  | case12 links here name rest hstand hshort node hlink hnode ih =>
    obtain ⟨tail, htail, hwalk⟩ := walkConfined_of_moving_cons hsteps
    rw [List.forall_mem_cons] at hlen
    rw [hwalk]
    by_cases hnear : isAllowed root (here ++ [name])
    · rw [walkConfined_node hnear (Tree.probe_of_node? hw hn hnode (hlen.1 hnear)) hlink]
      exact ih hnear (leaves_later hleave hnear) hlen.2 htail
    · exact walkConfined_outside hnear

omit hn in
theorem node?_on_way {here : Place} {name : Name} {rest : List Name} {node : Node}
    (hnode : tree.node? (here ++ name :: rest) = some node)
    (hlink : ∀ target, node ≠ .link target) :
    ∃ next, tree.node? (here ++ [name]) = some next ∧ ∀ target, next ≠ .link target := by
  by_cases hrest : rest = []
  · subst hrest
    exact ⟨node, hnode, hlink⟩
  · refine ⟨.folder, hw.folder_of_append rest (here ++ [name]) hrest ?_, nofun⟩
    rw [List.append_assoc, List.singleton_append, hnode]
    rfl

/-- Names that lead from inside the root to a node past no link are followed to it, unless its path
is too long. -/
theorem walkConfined_plain {links : Nat} {here : Place} {names : List Name} {node : Node}
    (hin : root <+: here) (hne : names ≠ []) (hnode : tree.node? (here ++ names) = some node)
    (hlink : ∀ target, node ≠ .link target) :
    walkConfined tree.probe root outside links false here (names.map .down) =
      if placeLength (here ++ names) ≤ maxPath then .ok (here ++ names)
      else .error (.fault .nameTooLong) := by
  induction names generalizing here with
  | nil => exact absurd rfl hne
  | cons name rest ih =>
    obtain ⟨next, hnext, hnolink⟩ := node?_on_way hw hnode hlink
    have hinside : root <+: here ++ [name] := hin.trans (List.prefix_append here [name])
    have hnear : isAllowed root (here ++ [name]) := Tree.isAllowed_iff.mpr (.inl hinside)
    have hsplit : here ++ name :: rest = here ++ [name] ++ rest := by simp
    rw [List.map_cons]
    by_cases hlen : placeLength (here ++ [name]) ≤ maxPath
    · rw [walkConfined_node hnear (Tree.probe_of_node? hw hn hnext hlen) hnolink]
      by_cases hrest : rest = []
      · subst hrest
        rw [List.map_nil, walkConfined, if_neg (not_not.mpr (isInside_iff.mpr hinside)),
          if_pos hlen]
        rfl
      · rw [hsplit] at hnode ⊢
        exact ih hinside hrest hnode
    · have hlong : ¬placeLength (here ++ name :: rest) ≤ maxPath := fun h =>
        hlen ((hsplit ▸ placeLength_le_append_list (here ++ [name]) rest).trans h)
      rw [if_neg hlong, walkConfined_tooLong hnear]
      exact Tree.probe_of_tooLong (fun name hname => (hn.of_node? hnext name hname).1) (by omega)

end Walk

/-! ## Resolving -/

theorem normalizeFrom_names (front names : List Name) :
    normalizeFrom front (names.map .down) = some (front ++ names) := by
  induction names generalizing front with
  | nil => rw [List.map_nil, normalizeFrom, List.append_nil]
  | cons name rest ih =>
    rw [List.map_cons, normalizeFrom, ih, List.append_assoc, List.singleton_append]

/-- A path that was written from names comes down to these names. -/
theorem normalize?_joinNames {names : List Name} (h : ∀ name ∈ names, IsName name) :
    normalize? (joinNames names) = some names := by
  rw [normalize?, steps_joinNames h, normalizeFrom_names, List.nil_append]

namespace Tree

variable {tree : Tree} {here r : Place} {root relative : Bytes} {names : List Name}

theorem resolveInRoot_eq_walk (hnames : normalize? relative = some names) (hne : names ≠ [])
    (hr : tree.canonical here root = .ok r) :
    tree.resolveInRoot here root relative =
      walkConfined tree.probe r (.outsideRoot relative) maxLinks false r (names.map .down) := by
  obtain ⟨name, rest, rfl⟩ := List.exists_cons_of_ne_nil hne
  simp only [resolveInRoot, hnames, hr]

/-- A path that leads past no link resolves to the node below the root that it names, unless the
path of that is too long. -/
theorem resolveInRoot_plain {node : Node} (hw : tree.WellFormed) (hn : tree.Spelled)
    (hnames : normalize? relative = some names) (hne : names ≠ [])
    (hr : tree.canonical here root = .ok r) (hnode : tree.node? (r ++ names) = some node)
    (hlink : ∀ target, node ≠ .link target) :
    tree.resolveInRoot here root relative =
      if placeLength (r ++ names) ≤ maxPath then .ok (r ++ names)
      else .error (.fault .nameTooLong) := by
  rw [resolveInRoot_eq_walk hnames hne hr]
  exact walkConfined_plain hw hn (List.prefix_refl r) hne hnode hlink

end Tree

/-- **Resolving like the system.** Let the system walk from the root of a volume by the names that a
relative path comes down to, and let it be asked about no path inside the root, or on the way to it,
that is too long. If the walk ends inside the root, and all that it came to was there or on the way
there, then the path resolves to the place where it ended. If something that it came to was
elsewhere, or if it ended above the root, then the path is refused as leading outside. -/
theorem resolveInRoot_agrees (tree : Tree) (here r : Place) (root relative : Bytes)
    (names : List Name) (hw : tree.WellFormed) (hn : tree.Spelled)
    (hnames : normalize? relative = some names) (hne : names ≠ [])
    (hr : tree.canonical here root = .ok r)
    (hlen : ∀ station ∈ tree.stations maxLinks r (names.map .down),
      isAllowed r station.place → placeLength station.place ≤ maxPath) :
    (∀ p, tree.walkSteps true maxLinks r (names.map .down) = .ok p → r <+: p →
      (∀ station ∈ tree.stations maxLinks r (names.map .down), isAllowed r station.place) →
        tree.resolveInRoot here root relative = .ok p) ∧
    ((∃ station ∈ tree.stations maxLinks r (names.map .down), ¬isAllowed r station.place) ∨
      (∃ p, tree.walkSteps true maxLinks r (names.map .down) = .ok p ∧ ¬r <+: p) →
        tree.resolveInRoot here root relative = .error (.outsideRoot relative)) := by
  rw [Tree.resolveInRoot_eq_walk hnames hne hr]
  have hstart : isAllowed r r := Tree.isAllowed_iff.mpr (.inl (List.prefix_refl r))
  have hend : ∀ p, tree.walkSteps true maxLinks r (names.map .down) = .ok p →
      (∀ station ∈ tree.stations maxLinks r (names.map .down), isAllowed r station.place) →
      walkConfined tree.probe r (.outsideRoot relative) maxLinks false r (names.map .down) =
        if isInside r p then .ok p else .error (.outsideRoot relative) := fun p hwalk hnear =>
    walkConfined_arrives hw hn hwalk
      (fun station hmem => ⟨hnear station hmem, hlen station hmem (hnear station hmem)⟩) rfl
  constructor
  · intro p hwalk hin hnear
    rw [hend p hwalk hnear, if_pos (isInside_iff.mpr hin)]
  · intro hout
    by_cases hnear : ∀ station ∈ tree.stations maxLinks r (names.map .down),
        isAllowed r station.place
    · rcases hout with ⟨station, hmem, hfar⟩ | ⟨p, hwalk, hout⟩
      · exact absurd (hnear station hmem) hfar
      · rw [hend p hwalk hnear, if_neg (mt isInside_iff.mp hout)]
    · exact walkConfined_leaves hw hn hstart (by simpa using hnear) hlen rfl

theorem resolveInRoot_agrees_linkedTree :
    linkedTree.resolveInRoot [] [47, 114] [108] = .ok [[114], [102]] ∧
      linkedTree.resolveInRoot [] [47, 114] [120] = .error (.outsideRoot [120]) := by
  have hw : linkedTree.WellFormed := (show linkedTree.Sound by decide).wellFormed
  have hn : linkedTree.Spelled := by decide
  have hr : linkedTree.canonical [] [47, 114] = .ok [[114]] := by cbv
  have hf : linkedTree.stations maxLinks [[114]] [.down [108]] =
      [.link [[114], [108]], .stand [], .stand [[114]], .stand [[114], [102]]] := by cbv
  have hx : linkedTree.stations maxLinks [[114]] [.down [120]] =
      [.link [[114], [120]], .stand [], .stand [[115]]] := by cbv
  constructor
  · refine (resolveInRoot_agrees linkedTree [] [[114]] [47, 114] [108] [[108]] hw hn (by decide)
      (by decide) hr ?_).1 [[114], [102]] (by cbv) (by decide) ?_
    · rw [List.map_singleton, hf]
      decide
    · rw [List.map_singleton, hf]
      decide
  · refine (resolveInRoot_agrees linkedTree [] [[114]] [47, 114] [120] [[120]] hw hn (by decide)
      (by decide) hr ?_).2 (.inl ?_)
    · rw [List.map_singleton, hx]
      decide
    · rw [List.map_singleton, hx]
      decide

/-! ## Where the two differ -/

theorem canonical_slash (tree : Tree) (here : Place) : tree.canonical here [47] = .ok [] := by
  cbv

theorem canonical_here {tree : Tree} {here : Place} (h : tree.node? here = some .folder) :
    tree.canonical here [46] = .ok here := by
  have hsteps : Tree.systemSteps [46] = [.here] := by decide
  have hlookup : tree.canonical here [46] =
      tree.walkSteps true maxLinks here (Tree.systemSteps [46]) := rfl
  rw [hlookup, hsteps, Tree.walkSteps, Tree.standFault?_eq_none.mpr h]
  simp [Tree.walkSteps, h]

/-- A root `/r` with a file `f` and a link `l` to `../a/f`, where `/a` is a link to `r`. -/
def aliasTree : Tree :=
  ⟨[([[97]], .link [114]), ([[114]], .folder), ([[114], [102]], .file 0),
    ([[114], [108]], .link [46, 46, 47, 97, 47, 102])], [(0, ⟨[1, 2, 3], 0, ⟨0⟩⟩)], 1⟩

/-- The longest name that there can be. -/
def longName : Name := List.replicate maxName 110

/-- The name of a file. -/
def clipName : Name := [97, 46, 109, 112, 52]

/-- Sixteen folders with such names, one in the other, and a file in the last. -/
def deepTree : Tree :=
  ⟨(List.range 16).map (fun k => (List.replicate (k + 1) longName, .folder)) ++
      [(List.replicate 16 longName ++ [clipName], .file 0)],
    [(0, ⟨[1, 2, 3], 0, ⟨0⟩⟩)], 1⟩

theorem deepTree_mem {item : Place × Node} : item ∈ deepTree.nodes ↔
    (∃ k < 16, item = (List.replicate (k + 1) longName, .folder)) ∨
      item = (List.replicate 16 longName ++ [clipName], .file 0) := by
  simp only [deepTree, List.mem_append, List.mem_map, List.mem_range, List.mem_singleton, eq_comm]

theorem deepTree_distinct : (deepTree.nodes.map (·.1)).Nodup := by
  have hplaces : deepTree.nodes.map (·.1) =
      (List.range 16).map (fun k => List.replicate (k + 1) longName) ++
        [List.replicate 16 longName ++ [clipName]] := by
    simp [deepTree]
  rw [hplaces]
  refine List.Nodup.append ?_ (List.nodup_singleton _) ?_
  · refine List.nodup_range.map fun j k heq => ?_
    simpa using congrArg List.length heq
  · rw [List.disjoint_singleton]
    intro hmem
    obtain ⟨k, hk, heq⟩ := List.mem_map.mp hmem
    have hlength := congrArg List.length heq
    rw [List.mem_range] at hk
    simp at hlength
    omega

theorem deepTree_node? {k : Nat} (h : k ≤ 16) :
    deepTree.node? (List.replicate k longName) = some .folder := by
  cases k with
  | zero => rfl
  | succ k =>
    exact (Tree.mem_nodes_of_nodup deepTree_distinct (by simp)).mp
      (deepTree_mem.mpr (.inl ⟨k, h, rfl⟩))

theorem deepTree_file {place : Place} {number : FileNumber} :
    deepTree.node? place = some (.file number) ↔
      place = List.replicate 16 longName ++ [clipName] ∧ number = 0 := by
  by_cases hne : place = []
  · subst hne
    simp [Tree.node?_nil]
  · rw [← Tree.mem_nodes_of_nodup deepTree_distinct hne, deepTree_mem]
    simp

theorem deepTree_sound : deepTree.Sound := by
  refine ⟨Tree.wellFormed_iff.mpr fun at_ hat => .inr ?_, deepTree_distinct⟩
  obtain ⟨item, hitem, rfl⟩ := List.mem_map.mp hat
  rcases deepTree_mem.mp hitem with ⟨k, hk, rfl⟩ | rfl
  · rw [List.dropLast_replicate]
    exact deepTree_node? (by omega)
  · rw [List.dropLast_concat]
    exact deepTree_node? (Nat.le_refl 16)

theorem longName_spelled : 0 ∉ longName ∧ longName.length ≤ maxName := by
  refine ⟨fun h => ?_, by simp [longName]⟩
  exact absurd (List.eq_of_mem_replicate h) (by decide)

/-- The names in the tree are the two. -/
theorem deepTree_names {place : Place} (h : place ∈ deepTree.nodes.map (·.1)) {name : Name}
    (hname : name ∈ place) : name = longName ∨ name = clipName := by
  obtain ⟨item, hitem, rfl⟩ := List.mem_map.mp h
  rcases deepTree_mem.mp hitem with ⟨k, hk, rfl⟩ | rfl
  · exact .inl (List.eq_of_mem_replicate hname)
  · rcases List.mem_append.mp hname with hname | hname
    · exact .inl (List.eq_of_mem_replicate hname)
    · exact .inr (List.mem_singleton.mp hname)

theorem deepTree_spelled : deepTree.Spelled := by
  intro at_ hat name hname
  rcases deepTree_names hat hname with rfl | rfl
  · exact longName_spelled
  · decide

theorem length_longName : longName.length = 255 := List.length_replicate

theorem placeLength_deep (k : Nat) (names : List Name)
    (h : List.replicate k longName ++ names ≠ []) :
    placeLength (List.replicate k longName ++ names) =
      256 * k + (names.map (·.length + 1)).sum := by
  rw [placeLength_eq h, List.map_append, List.map_replicate, List.sum_append, List.sum_replicate,
    smul_eq_mul, Nat.mul_comm, length_longName]

theorem isName_longName : IsName longName where
  ne_nil := by decide
  no_slash h := absurd (List.eq_of_mem_replicate h) (by decide)
  ne_here := by decide
  ne_up := by decide

/-- The resolver refuses what the system resolves inside the root, where a link elsewhere leads back
to it, and where the path of what is reached is too long to be asked about. -/
theorem resolveInRoot_stricter :
    (normalize? [108] = some [[108]] ∧ aliasTree.canonical [] [47, 114] = .ok [[114]] ∧
      aliasTree.walkSteps true maxLinks [[114]] [.down [108]] = .ok [[114], [102]] ∧
      (∀ place, .stand place ∈ aliasTree.stations maxLinks [[114]] [.down [108]] →
        isAllowed [[114]] place) ∧
      aliasTree.resolveInRoot [] [47, 114] [108] = .error (.outsideRoot [108])) ∧
    ∃ relative, normalize? relative = some (List.replicate 16 longName) ∧
      deepTree.canonical [] [47] = .ok [] ∧
      deepTree.walkSteps true maxLinks [] ((List.replicate 16 longName).map .down) =
        .ok (List.replicate 16 longName) ∧
      (∀ station ∈ deepTree.stations maxLinks [] ((List.replicate 16 longName).map .down),
        isAllowed [] station.place) ∧
      deepTree.resolveInRoot [] [47] relative = .error (.fault .nameTooLong) := by
  constructor
  · have hstations : aliasTree.stations maxLinks [[114]] [.down [108]] =
        [.link [[114], [108]], .stand [], .link [[97]], .stand [[114]], .stand [[114], [102]]] := by
      cbv
    refine ⟨by decide, by cbv, by cbv, ?_, by cbv⟩
    rw [hstations]
    simp only [List.mem_cons, List.not_mem_nil, or_false, reduceCtorEq, false_or,
      Station.stand.injEq]
    rintro place (rfl | rfl | rfl) <;> decide
  · have hnames : normalize? (joinNames (List.replicate 16 longName)) =
        some (List.replicate 16 longName) :=
      normalize?_joinNames fun name hname => List.eq_of_mem_replicate hname ▸ isName_longName
    have hnode : deepTree.node? ([] ++ List.replicate 16 longName) = some .folder := by
      rw [List.nil_append]
      exact deepTree_node? (Nat.le_refl 16)
    have hr : deepTree.canonical [] [47] = .ok [] := canonical_slash deepTree []
    have hlink : ∀ target, Node.folder ≠ .link target := fun target => Node.noConfusion
    have hshort : ∀ name ∈ List.replicate 16 longName, name.length ≤ maxName :=
      fun name hname => List.eq_of_mem_replicate hname ▸ longName_spelled.2
    refine ⟨_, hnames, hr, ?_, fun station _ => Tree.isAllowed_iff.mpr (.inl List.nil_prefix), ?_⟩
    · rw [Tree.walkSteps_of_probeFrom hlink
        (Tree.probeFrom_of_node? deepTree_sound.wellFormed hshort hnode), List.nil_append]
    · have hlong : ¬placeLength ([] ++ List.replicate 16 longName) ≤ maxPath := by
        rw [List.nil_append, ← List.append_nil (List.replicate 16 longName),
          placeLength_deep 16 [] (by simp)]
        decide
      rw [Tree.resolveInRoot_plain deepTree_sound.wellFormed deepTree_spelled hnames (by simp) hr
        hnode hlink, if_neg hlong]

end MediaShelf.Files
