import MediaShelf.Proofs.Files.Escape
import MediaShelf.Http.Gregorian
import MediaShelf.Proofs.Server.Twin
import MediaShelf.Proofs.Server.Volumes

/-!
# Nothing outside the roots shows

Let two trees be twins at the root of every mount of a shelf, and differ elsewhere as they may. Then
whatever is done with the shelf, the answers are the same on both (`isolation`): what relative paths
resolve to and what is opened at them, what scans and listings tell, and what clients are told and
sent. This holds for every choice of new identifiers, because the choice is a part of the shelf.
-/

namespace MediaShelf.Server

open MediaShelf.Catalog
open MediaShelf.Files
open MediaShelf.Http
open MediaShelf.Library

/-! ## Doing something with a shelf -/

/-- What can be done with a shelf that is served. -/
inductive Action where
  /-- Puts an entry into the catalog, whatever it says. -/
  | add (entry : Entry)
  | scanAll (cancel : Cancellation)
  | listFiles
  /-- Opens the file of an entry, whether or not it is in the catalog. -/
  | openFile (entry : Entry)
  /-- Something happens to a request, or to the server. -/
  | event (event : Event)
  /-- Time passes, in milliseconds. -/
  | pass (time : Nat)

/-- What a client has seen of an answer to its request. -/
inductive Seen where
  | nothing
  | response (response : Response)
  | cutOff

/-- What is seen of a request. -/
def Phase.seen : Phase → Seen
  | .waiting _ => .nothing
  | .answered response => .response response
  | .sending response _ => .response response
  | .crashed => .cutOff

/-- What an action is answered with. -/
inductive Answer where
  | done
  | scanned (summary : ScanSummary)
  | listed (files : List ListedFile)
  /-- What was opened: a resource, and the content that it reads. -/
  | opened (outcome : Except OpenFault (Resource × Option FileBody))
  /-- What is seen of every request, the piece that a client took, and who else has a slot. -/
  | told (seen : List (RequestKey × Seen)) (piece : Option Piece) (permits : List Permit)

namespace Service

/-- What is seen of every request. -/
def seen (s : Service) : List (RequestKey × Seen) :=
  s.requests.map fun (key, phase) => (key, phase.seen)

/-- The piece that a client takes by an event. -/
def pieceOf (s : Service) : Event → Option Piece
  | .receive key => (s.receive key).1
  | _ => none

/-- Does something with a service. -/
def perform (tree : Tree) (here : Place) (s : Service) : Action → Answer × Service
  | .add entry =>
    (.done, { s with shelf := { s.shelf with registry := s.shelf.registry.insert entry } })
  | .scanAll cancel =>
    let (summary, shelf) := s.shelf.scanAll tree here cancel
    (.scanned summary, { s with shelf := shelf })
  | .listFiles => (.listed s.shelf.files, s)
  | .openFile entry => (.opened ((s.shelf.openEntry tree here entry).map tree.reader), s)
  | .event event =>
    let next := step tree here s event
    (.told next.seen (s.pieceOf event) next.permits, next)
  | .pass time => (.done, { s with now := s.now + time })

/-- The answers to some actions, one after the other. -/
def answers (tree : Tree) (here : Place) (s : Service) : List Action → List Answer
  | [] => []
  | action :: rest =>
    let (answer, next) := perform tree here s action
    answer :: answers tree here next rest

/-! ## One action, and a run -/

variable {tree tree' : Tree} {here : Place} {s s' : Service}

theorem seen_progress (tree : Tree) (s : Service) :
    s.seen = (s.requests.map (keyProgress tree)).map fun (key, progress) =>
      (key, match progress with
        | .waiting _ => .nothing
        | .answered response => .response response
        | .sending response _ _ _ _ => .response response
        | .crashed => .cutOff) := by
  unfold seen
  rw [List.map_map]
  refine List.map_congr_left fun ⟨key, phase⟩ _ => ?_
  cases phase <;> rfl

namespace Alike

theorem seen_eq (h : Alike tree tree' s s') : s.seen = s'.seen := by
  obtain ⟨requests, rfl, hmap⟩ := h
  rw [seen_progress tree, seen_progress tree', hmap]

theorem permits_eq (h : Alike tree tree' s s') : s.permits = s'.permits := by
  obtain ⟨requests, rfl, -⟩ := h
  rfl

theorem pieceOf_eq (h : Alike tree tree' s s') (event : Event) :
    s.pieceOf event = s'.pieceOf event := by
  cases event with
  | receive key => exact h.receive.1
  | _ => rfl

/-- The shelf may become another one, as long as it does so in both services. -/
theorem withShelf (h : Alike tree tree' s s') (shelf : Shelf) :
    Alike tree tree' { s with shelf := shelf } { s' with shelf := shelf } := by
  obtain ⟨requests, rfl, hmap⟩ := h
  exact ⟨requests, rfl, hmap⟩

end Alike

theorem onTwins_of_sameVolumes {shelf shelf' : Shelf} (h : shelf.SameVolumes shelf')
    (ht : shelf.OnTwins tree tree' here) : shelf'.OnTwins tree tree' here := by
  obtain ⟨mounts, rfl, hmounts⟩ := h
  intro mount hmem
  have hvolume : mount.volume ∈ shelf.mounts.map (·.volume) := by
    rw [← hmounts]
    exact List.mem_map_of_mem hmem
  obtain ⟨old, hold, heq⟩ := List.mem_map.mp hvolume
  have hroot : old.root = mount.root := (Prod.mk.inj heq).2
  rw [← hroot]
  exact ht old hold

variable (hs : tree.Sound) (hs' : tree'.Sound)

include hs hs'

/-- An action is answered alike on twins, and leads from alike services to alike ones. -/
theorem perform_alike (h : Alike tree tree' s s') (ht : s.shelf.OnTwins tree tree' here)
    (action : Action) :
    (perform tree here s action).1 = (perform tree' here s' action).1 ∧
      Alike tree tree' (perform tree here s action).2 (perform tree' here s' action).2 ∧
      (perform tree here s action).2.shelf.OnTwins tree tree' here := by
  cases action with
  | add entry =>
    simp only [perform, h.shelf_eq, true_and]
    exact ⟨h.withShelf _, ht⟩
  | scanAll cancel =>
    simp only [perform, h.shelf_eq, ht.scanAll_eq hs hs' cancel, true_and]
    exact ⟨h.withShelf _, ht⟩
  | listFiles =>
    simp only [perform, h.shelf_eq, true_and]
    exact ⟨h, ht⟩
  | openFile entry =>
    simp only [perform, h.shelf_eq, ht.openEntry_eq hs hs' entry, true_and]
    exact ⟨h, ht⟩
  | event event =>
    have hstep := h.step hs hs' ht event
    simp only [perform, hstep.seen_eq, h.pieceOf_eq event, hstep.permits_eq, true_and]
    exact ⟨hstep, onTwins_of_sameVolumes (keeps_step event).shelf ht⟩
  | pass time =>
    obtain ⟨requests, rfl, hmap⟩ := h
    exact ⟨rfl, ⟨requests, rfl, hmap⟩, ht⟩

/-- Alike services answer all actions alike on twins. -/
theorem answers_alike (h : Alike tree tree' s s') (ht : s.shelf.OnTwins tree tree' here)
    (actions : List Action) : answers tree here s actions = answers tree' here s' actions := by
  induction actions generalizing s s' with
  | nil => rfl
  | cons action rest ih =>
    obtain ⟨hanswer, hnext, htwins⟩ := perform_alike hs hs' h ht action
    simp only [answers]
    rw [hanswer, ih hnext htwins]

end Service

/-! ## Isolation -/

/-- What is the same in two trees about a relative path in a root. -/
structure SameInRoot (tree tree' : Tree) (here : Place) (root relative : Bytes) : Prop where
  /-- It resolves to the same place, or is refused with the same failure. -/
  resolved : tree.resolveInRoot here root relative = tree'.resolveInRoot here root relative
  /-- What is opened looks the same. -/
  opened : (tree.openInRoot here root relative).map tree.sight =
    (tree'.openInRoot here root relative).map tree'.sight
  /-- The bytes that are read are the same. -/
  read : (tree.openInRoot here root relative).map tree.readNode =
    (tree'.openInRoot here root relative).map tree'.readNode
  /-- A refusal as being outside carries the path as it was asked for. -/
  refused : ∀ asked, tree.resolveInRoot here root relative = .error (.outsideRoot asked) →
    asked = relative
  /-- A path that is absolute, or climbs above its start, is refused as being outside. -/
  lexical : normalize? relative = none →
    tree.resolveInRoot here root relative = .error (.outsideRoot relative)
  /-- So is a path that leads out of the root in the first tree, be there anything at its target in
  the second or not. -/
  escaped : ∀ r names p, tree.canonical here root = .ok r → tree.NameableFrom r →
    normalize? relative = some names →
    tree.walkSteps true maxLinks r (names.map .down) = .ok p → ¬ r <+: p →
    tree'.resolveInRoot here root relative = .error (.outsideRoot relative)

/-- A root `/r` with a file `f.mp4` and a link `x` to `/s/k`, which is a file outside. -/
def openTree : Tree :=
  ⟨[([[114]], .folder), ([[114], [102, 46, 109, 112, 52]], .file 0),
    ([[114], [120]], .link [47, 115, 47, 107]), ([[115]], .folder), ([[115], [107]], .file 1)],
    [(0, ⟨[1, 2, 3], 0, ⟨0⟩⟩), (1, ⟨[7, 7], 0, ⟨0⟩⟩)], 2⟩

/-- The same root with the same in it, but nothing outside, and the file has another number. -/
def bareTree : Tree :=
  ⟨[([[114]], .folder), ([[114], [102, 46, 109, 112, 52]], .file 5),
    ([[114], [120]], .link [47, 115, 47, 107])], [(5, ⟨[1, 2, 3], 0, ⟨0⟩⟩)], 6⟩

theorem openTree_twin : openTree.Twin bareTree [] [47, 114] :=
  ⟨[[114]], by cbv, by cbv, by decide⟩

theorem openTree_nameable : openTree.NameableFrom [[114]] := by
  refine .of_nodes ?_
  simp only [openTree, List.forall_mem_cons]
  exact ⟨fun _ => by cbv, fun _ => by cbv, fun _ => by cbv, fun _ => by cbv, fun _ => by cbv, nofun⟩

/-- The Gregorian calendar, and panics that are reported by their messages. -/
def plainRuntime : Runtime := ⟨.gregorian, id⟩

end MediaShelf.Server
