import MediaShelf.Proofs.Http.ExactAnswer
import MediaShelf.Proofs.Server.Underway

/-!
# Streams are exact

A client that asks for a file gets just the bytes that its range header asks for, with a status and
fields that say so (`streams_exact`), as long as the file stays as it is. It does not matter how
files are read, what else happens to the service, in which pieces the client takes the body, and
whether it asks for the body at all. This takes a buffer that memory can give out and a time of
change that has a date. Nothing looks after either, and without them there is no exact answer
(`Course.Serves.refused`, `Course.Serves.cut_off`, `streams_not_exact`).

A request is followed from its arrival (`Course`): it waits for a slot while anything happens, is
answered when it is its turn, and is then sent the file while anything happens.
-/

namespace MediaShelf.Server

open MediaShelf.Catalog
open MediaShelf.Files
open MediaShelf.Http
open MediaShelf.Resource

/-- What it takes for a request to be one for a file. -/
theorem judge_stream {shelf : Shelf} {address : String} {request : Request} {entry : Entry}
    {mount : Mount} (h : judge shelf address request = .stream entry mount) :
    isServed request.method = true ∧
      (∃ part, Route.ofPath? request.target.path = some (.stream part) ∧
        entryOf shelf part = .ok entry) ∧
      shelf.mounts.find? entry.volume = some mount := by
  unfold judge at h
  split at h
  case h_1 => cases h
  case h_2 route hroute =>
    split at h
    case isTrue => cases h
    case isFalse hserved =>
      rw [Bool.not_eq_true', Bool.not_eq_false] at hserved
      split at h
      case h_2 => cases h
      case h_1 part =>
        split at h
        case h_1 => cases h
        case h_2 found hentry =>
          split at h
          case h_1 => cases h
          case h_2 mounted hmount =>
            cases h
            refine ⟨hserved, ⟨part, hroute, hentry⟩, ?_⟩
            unfold Shelf.mount at hmount
            split at hmount
            case h_1 hfound =>
              cases hmount
              exact hfound
            case h_2 => cases hmount

/-- The bytes that belong to the answer to a request for a file. -/
def bytesFor (request : Request) (content : Bytes) : Bytes :=
  if request.isHead then []
  else bytesOf content (ByteRange.parse (request.fields.text? "range") content.length)

namespace Service

variable {tree : Tree} {here : Place} {s : Service} {key : RequestKey} {call : Call}
  {request : Request} {entry : Entry} {mount : Mount}

/-! ## The turn of a request -/

/-- A request waits, and would get its slot now. -/
def Admits (s : Service) (key : RequestKey) : Prop :=
  ∃ call mount, s.phase? key = some (.waiting call) ∧
    s.shelf.mounts.find? call.entry.volume = some mount ∧
    (mount.limiter.poll call.ticket s.stopping).1 = .granted

/-- A request for a file that waits after its arrival waits for that file. -/
theorem phase?_arrive (h : judge s.shelf s.address request = .stream entry mount) :
    ∃ phase, (s.arrive key request).phase? key = some phase ∧
      ∀ call, phase = .waiting call → call.request = request ∧ call.entry = entry := by
  unfold arrive
  rw [h]
  simp only
  split
  · refine ⟨_, phase?_answer_self _ _, nofun⟩
  · refine ⟨_, phase?_setPhase_self _, fun call hcall => ?_⟩
    cases hcall
    exact ⟨rfl, rfl⟩

/-- What comes of opening a file that is there. -/
theorem openEntry_file {shelf : Shelf} {number : FileNumber} {body : FileBody}
    (hmount : shelf.mounts.find? entry.volume = some mount)
    (hopen : tree.openInRoot here mount.root entry.path = .ok (.file number))
    (hbody : tree.body? number = some body) :
    shelf.openEntry tree here entry =
      if canOpen shelf.mode shelf.bufferSize then .ok ⟨number, openIn shelf.mode shelf.bufferSize
        ⟨fileNameText entry.path, body.modified, body.size⟩⟩
      else .error (.panicked "capacity overflow") := by
  simp only [Shelf.openEntry, Shelf.mount, hmount, hopen, hbody]

theorem poll_of_granted (hphase : s.phase? key = some (.waiting call))
    (hmount : s.shelf.mounts.find? call.entry.volume = some mount)
    (hgranted : (mount.limiter.poll call.ticket s.stopping).1 = .granted) :
    poll tree here s key = serve tree here (s.changeLimiter call.entry.volume fun _ =>
      (mount.limiter.poll call.ticket s.stopping).2) key call := by
  unfold poll
  rw [hphase]
  simp only [hmount]
  split
  case h_1 limiter hpoll => rw [hpoll]
  case h_2 limiter hpoll =>
    rw [hpoll] at hgranted
    cases hgranted
  case h_3 limiter hpoll =>
    rw [hpoll] at hgranted
    cases hgranted

theorem expire_eq_poll (h : ∀ call, (poll tree here s key).phase? key ≠ some (.waiting call)) :
    expire tree here s key = poll tree here s key := by
  rcases hphase : (poll tree here s key).phase? key with _ | (call | response | ⟨response, x⟩ | _)
  · simp only [expire, hphase]
  · exact absurd hphase (h call)
  · simp only [expire, hphase]
  · simp only [expire, hphase]
  · simp only [expire, hphase]

/-- A request that is admitted has its file looked for. -/
theorem step_turn {turn : Event} (hturn : turn = .poll key ∨ turn = .expire key)
    (hphase : s.phase? key = some (.waiting call))
    (hmount : s.shelf.mounts.find? call.entry.volume = some mount)
    (hgranted : (mount.limiter.poll call.ticket s.stopping).1 = .granted) :
    step tree here s turn = serve tree here (s.changeLimiter call.entry.volume fun _ =>
      (mount.limiter.poll call.ticket s.stopping).2) key call := by
  have hpoll : poll tree here s key = serve tree here (s.changeLimiter call.entry.volume fun _ =>
      (mount.limiter.poll call.ticket s.stopping).2) key call :=
    poll_of_granted hphase hmount hgranted
  rcases hturn with rfl | rfl
  · exact hpoll
  · refine (expire_eq_poll fun other => ?_).trans hpoll
    rw [hpoll]
    exact serve_not_waiting call other

section Serving

variable {file : OpenFile} {response : Response}
  (hopen : s.shelf.openEntry tree here call.entry = .ok file)
  (hresponse : Response.ofFile? s.runtime.calendar call.request file.resource.metadata.name
    file.resource.metadata.size file.resource.metadata.modified = some response)

include hopen hresponse

theorem phase?_serve_whole (hbody : response.body = .whole []) :
    (serve tree here s key call).phase? key = some (.answered response) := by
  have hwithout : response.withoutBody = response := by rw [Response.withoutBody, ← hbody]
  unfold serve
  simp only [hopen, hresponse, hbody, phase?_release, phase?_answer_self, hwithout, ite_self]

theorem phase?_serve_span {offset length : Nat} (hbody : response.body = .span offset length) :
    (serve tree here s key call).phase? key = some (.sending response (Sending.settled
      ⟨call.entry.volume, call.ticket,
        (startTransfer (tree.contentOf file.number) file offset length).1,
        (startTransfer (tree.contentOf file.number) file offset length).2⟩)) := by
  unfold serve
  simp only [hopen, hresponse, hbody]
  exact phase?_setSending_self _ _

end Serving

theorem startTransfer_number (content : Bytes) (file : OpenFile) (offset length : Nat) :
    (startTransfer content file offset length).1.number = file.number := by
  unfold startTransfer
  split
  · rfl
  · split <;> rfl

/-- Who gets a slot for a file that is there gets the answer with the file. -/
theorem underway_serve {number : FileNumber} {body : FileBody} {name : String} {mode : Mode}
    {capacity : Nat} {response : Response} (hopen : s.shelf.openEntry tree here call.entry =
      .ok ⟨number, openIn mode capacity ⟨name, body.modified, body.size⟩⟩)
    (hanswer : Response.ofFile? s.runtime.calendar call.request name body.size body.modified =
      some response)
    (htree : tree.contentOf number = body.content) (hsize : body.size ≤ maxPosition) :
    Underway number body.content (bytesFor call.request body.content) response key
      (serve tree here s key call) [] := by
  have hmetadata : (openIn mode capacity ⟨name, body.modified, body.size⟩).metadata =
      ⟨name, body.modified, body.size⟩ := by cases mode <;> rfl
  have hwithin := ByteRange.withinFile_parse (call.request.fields.text? "range") body.size
  have hbody := body_of_ofFile? hanswer
  unfold bytesFor bytesOf
  rw [body.length_content]
  generalize ByteRange.parse (call.request.fields.text? "range") body.size = range at hwithin hbody ⊢
  have hresponse : Response.ofFile? s.runtime.calendar call.request
      (openIn mode capacity ⟨name, body.modified, body.size⟩).metadata.name
      (openIn mode capacity ⟨name, body.modified, body.size⟩).metadata.size
      (openIn mode capacity ⟨name, body.modified, body.size⟩).metadata.modified = some response := by
    rw [hmetadata]
    exact hanswer
  rcases hspan : range.span body.size with _ | ⟨offset, length⟩
  · rw [hspan] at hbody
    exact .answered (phase?_serve_whole hopen hresponse hbody) hbody (ite_self _) rfl
  · rw [hspan] at hbody
    by_cases hhead : call.request.isHead
    · simp only [hhead, if_true] at hbody ⊢
      exact .answered (phase?_serve_whole hopen hresponse hbody) hbody rfl rfl
    · simp only [hhead, Bool.false_eq_true, if_false] at hbody ⊢
      have hinside : offset + length ≤ body.content.length := by
        rw [body.length_content]
        exact hwithin.span_le hspan
      have hlength : body.content.length ≤ maxPosition := by rwa [body.length_content]
      refine .sending (phase?_serve_span hopen hresponse hbody) (Sending.Delivers.settled ⟨?_, ?_⟩)
        hinside rfl
      · exact startTransfer_number _ _ _ _
      · rw [htree]
        exact delivering_start (readsFrom_openIn _ _ _ _) hinside hlength

/-- Who asks for a file whose time of change has no date is cut off. -/
theorem phase?_serve_undated {number : FileNumber} {metadata : Metadata} {mode : Mode}
    {capacity : Nat}
    (hopen : s.shelf.openEntry tree here call.entry = .ok ⟨number, openIn mode capacity metadata⟩)
    (hundated : s.runtime.calendar.date? metadata.modified = none)
    (hspan : ((ByteRange.parse (call.request.fields.text? "range") metadata.size).span
      metadata.size).isSome) :
    (serve tree here s key call).phase? key = some .crashed := by
  have hmetadata : (openIn mode capacity metadata).metadata = metadata := by cases mode <;> rfl
  unfold serve
  simp only [hopen, hmetadata, ofFile?_eq_none hundated hspan, phase?_release, phase?_setPhase_self]

/-- A panic while the file is opened is a fault of the server to the client. -/
theorem response?_serve_panicked {message : String}
    (hopen : s.shelf.openEntry tree here call.entry = .error (.panicked message)) :
    ∃ response, (serve tree here s key call).response? key = some response ∧
      response.status = 500 := by
  unfold serve response?
  simp only [hopen, phase?_release, phase?_answer_self]
  refine ⟨_, rfl, ?_⟩
  split <;> rfl

end Service

/-! ## Exactness -/

/-- A request for a file, from its arrival on, and all that happens in the meantime. -/
structure Course where
  here : Place
  /-- The service before the request. -/
  service : Service
  key : RequestKey
  request : Request
  /-- The tree when the request arrives. -/
  arrival : Tree
  /-- What happens while the request waits for a slot. -/
  waiting : List (Tree × Action)
  /-- The tree when the file is opened. -/
  opened : Tree
  turn : Event
  number : FileNumber
  /-- What happens while the file is sent. -/
  sending : List (Tree × Action)

namespace Course

/-- The service when the request has arrived. -/
def arrived (c : Course) : Service :=
  Service.step c.arrival c.here c.service (.arrive c.key c.request)

/-- The service right before the turn of the request. -/
def ready (c : Course) : Service := c.arrived.after c.here c.waiting

/-- The service right after the turn of the request. -/
def answered (c : Course) : Service := Service.step c.opened c.here c.ready c.turn

/-- The service at the end. -/
def last (c : Course) : Service := c.answered.after c.here c.sending

/-- The pieces that the client has taken by the end. -/
def taken (c : Course) : List Piece := c.answered.taken c.here c.key c.sending

/-- A request for the file of an entry that is admitted, while the file stays as it is and the client
stays on the line. -/
structure Serves (c : Course) (entry : Entry) (body : FileBody) : Prop where
  fresh : c.service.phase? c.key = none
  asks : ∃ mount, judge c.service.shelf c.service.address c.request = .stream entry mount ∧
    c.opened.openInRoot c.here mount.root entry.path = .ok (.file c.number)
  waits : ∀ move ∈ c.waiting, move.2 ≠ .event (.hangUp c.key)
  admits : c.ready.Admits c.key
  turns : c.turn = .poll c.key ∨ c.turn = .expire c.key
  file : c.opened.body? c.number = some body
  unchanged : ∀ move ∈ c.sending, move.1.contentOf c.number = body.content
  listens : ∀ move ∈ c.sending, move.2 ≠ .event (.hangUp c.key)

variable {c : Course} {entry : Entry} {body : FileBody}

/-- At its turn the request has its file looked for, and the file is there. -/
theorem Serves.served (h : c.Serves entry body) :
    ∃ s call, c.answered = Service.serve c.opened c.here s c.key call ∧ call.request = c.request ∧
      s.runtime = c.service.runtime ∧ s.shelf.openEntry c.opened c.here call.entry =
        if canOpen c.service.shelf.mode c.service.shelf.bufferSize then
          .ok ⟨c.number, openIn c.service.shelf.mode c.service.shelf.bufferSize
            ⟨fileNameText entry.path, body.modified, body.size⟩⟩
        else .error (.panicked "capacity overflow") := by
  obtain ⟨mount, hjudge, hopen⟩ := h.asks
  obtain ⟨call, mount', hphase, hfound, hgranted⟩ := h.admits
  have harrived : c.arrived = c.service.arrive c.key c.request := by
    simp only [arrived, Service.step, h.fresh, Option.isSome_none, Bool.false_eq_true, if_false]
  obtain ⟨phase, hphase', hcall⟩ : ∃ phase, c.arrived.phase? c.key = some phase ∧
      ∀ call, phase = .waiting call → call.request = c.request ∧ call.entry = entry := by
    rw [harrived]
    exact Service.phase?_arrive hjudge
  have hwaiting : c.arrived.phase? c.key = some (.waiting call) := by
    refine Service.waiting_of_after ?_ h.waits hphase
    rw [hphase']
    rfl
  rw [hphase', Option.some.injEq] at hwaiting
  obtain ⟨hrequest, rfl⟩ := hcall call hwaiting
  have harrival : c.service.SameGround c.arrived := (Service.keeps_step _).sameGround
  have hready : c.service.SameGround c.ready := harrival.trans (Service.sameGround_after c.waiting)
  have hturn : c.service.SameGround (c.ready.changeLimiter call.entry.volume fun _ =>
      (mount'.limiter.poll call.ticket c.ready.stopping).2) :=
    hready.trans (Service.keeps_changeLimiter _ _).sameGround
  obtain ⟨mounted, hmounted, hroot⟩ :=
    MountTable.find?_of_volumes hturn.volumes (judge_stream hjudge).2.2
  rw [← hroot] at hopen
  refine ⟨_, call, Service.step_turn h.turns hphase hfound hgranted, hrequest, hturn.runtime, ?_⟩
  rw [Service.openEntry_file hmounted hopen h.file, hturn.mode, hturn.bufferSize]

theorem Serves.underway {response : Response} (h : c.Serves entry body)
    (hsize : body.size ≤ maxPosition)
    (hopens : canOpen c.service.shelf.mode c.service.shelf.bufferSize = true)
    (hresponse : Response.ofFile? c.service.runtime.calendar c.request (fileNameText entry.path)
      body.size body.modified = some response) :
    Underway c.number body.content (bytesFor c.request body.content) response c.key
      c.answered [] := by
  obtain ⟨s, call, hserve, hrequest, hruntime, hopen⟩ := h.served
  rw [if_pos hopens] at hopen
  have htree : c.opened.contentOf c.number = body.content := by rw [Tree.contentOf, h.file]
  rw [← hruntime, ← hrequest] at hresponse
  rw [hserve, ← hrequest]
  exact Service.underway_serve hopen hresponse htree hsize

/-- With a buffer too large for memory, who asks for a file is told of a fault of the server. -/
theorem Serves.refused (h : c.Serves entry body)
    (hopens : canOpen c.service.shelf.mode c.service.shelf.bufferSize = false) :
    ∃ response, c.answered.response? c.key = some response ∧ response.status = 500 := by
  obtain ⟨s, call, hserve, -, -, hopen⟩ := h.served
  rw [hopens] at hopen
  rw [hserve]
  exact Service.response?_serve_panicked hopen

/-- Who asks for a file whose time of change has no date gets no answer. -/
theorem Serves.cut_off (h : c.Serves entry body)
    (hopens : canOpen c.service.shelf.mode c.service.shelf.bufferSize = true)
    (hundated : c.service.runtime.calendar.date? body.modified = none)
    (hspan : ((ByteRange.parse (c.request.fields.text? "range") body.size).span body.size).isSome) :
    c.answered.phase? c.key = some .crashed := by
  obtain ⟨s, call, hserve, hrequest, hruntime, hopen⟩ := h.served
  rw [if_pos hopens] at hopen
  rw [← hruntime] at hundated
  rw [← hrequest] at hspan
  rw [hserve]
  exact Service.phase?_serve_undated hopen hundated hspan

end Course

/-- **Streams are exact.** For every entry and every file, which is no longer than files can be and
was changed at a time that has a date, there is for each value of the range header one exact answer:
a status, fields and bytes. Every request for the file that is admitted gets this answer, however
files are read, through any buffer that memory can give out, and whatever else happens. What its
client has taken at any moment are the first of the bytes, and a client that goes on taking gets the
others and then the end; who asks for the fields only gets them without a byte. A header that does
not show is as good as none. -/
theorem streams_exact (calendar : Calendar) (entry : Entry) (body : FileBody)
    (hsize : body.size ≤ maxPosition) (hdate : (calendar.date? body.modified).isSome)
    (fields : Fields) :
    (∀ value, fields.first? "range" = some value → ¬ value.all isTextByte →
      ByteRange.parse (fields.text? "range") body.size = ByteRange.parse none body.size) ∧
    ∃ status answerFields bytes,
      ExactAnswer body.content (ByteRange.parse (fields.text? "range") body.size) status
        answerFields bytes ∧
      ∀ c : Course, c.Serves entry body → c.service.runtime.calendar = calendar →
        canOpen c.service.shelf.mode c.service.shelf.bufferSize → c.request.fields = fields →
        (∃ response, c.last.response? c.key = some response ∧ response.status = status ∧
          response.fields = answerFields) ∧
        ∃ got : List Bytes, c.taken = got.map .bytes ∧
          ∀ tree : Tree, tree.contentOf c.number = body.content →
            ∃ rest, (c.last.takeBody tree c.here c.key).1 = .ok rest ∧
              got.flatten ++ rest = if c.request.isHead then [] else bytes := by
  have hlength : body.content.length ≤ maxPosition := by rwa [body.length_content]
  constructor
  · intro value hfirst hhidden
    rw [Fields.text?, hfirst, Option.bind_some, valueText?, if_neg hhidden]
  · -- any request with these fields tells what the answer is
    obtain ⟨asked, rfl⟩ : ∃ asked : Request, asked.fields = fields :=
      ⟨⟨"GET", ⟨[], none⟩, fields⟩, rfl⟩
    obtain ⟨date, hdate⟩ := Option.isSome_iff_exists.mp hdate
    obtain ⟨answer, hanswer⟩ :=
      exists_ofFile? hdate asked (fileNameText entry.path) body.content.length
    have hexact := exactAnswer_ofFile? hanswer
    rw [body.length_content] at hexact hanswer
    refine ⟨_, _, _, hexact, fun c hserves hcalendar hopens hfields => ?_⟩
    have halike := ofFile?_congr hfields calendar (fileNameText entry.path) body.size body.modified
    rw [hanswer, Option.map_some, Option.map_eq_some_iff] at halike
    obtain ⟨response, hresponse, hsame⟩ := halike
    obtain ⟨hstatus, hsame⟩ := Prod.mk.inj hsame
    rw [← hcalendar] at hresponse
    have hanswered := hserves.underway hsize hopens hresponse
    rw [bytesFor, hfields, body.length_content] at hanswered
    obtain ⟨got, htaken, hlast⟩ := hanswered.after hlength hserves.unchanged hserves.listens
    rw [List.nil_append] at hlast
    refine ⟨⟨_, hlast.response?_eq, hstatus, hsame⟩, got, htaken, fun tree htree => ?_⟩
    exact hlast.takeBody hlength htree

/-- The entry of `/r/f.mp4`. -/
def clipEntry : Entry := .ofFile ⟨1⟩ "v" [102, 46, 109, 112, 52] 3

/-- A service that knows it, and reads files through a buffer of a size. -/
def clipService (bufferSize : Nat) : Service :=
  .ofShelf plainRuntime ⟨.buffered, bufferSize, [⟨"v", [47, 114], .ofCapacity 1⟩], 0,
    Registry.empty.insert clipEntry, Shelf.firstIds⟩ "a" 0

/-- A request for all but the first byte of it, which is read through a buffer of two bytes. The first
piece is taken at the end. -/
def clipCourse : Course where
  here := []
  service := clipService 2
  key := 0
  request := ⟨"GET", ⟨Text.encode "/stream/00000000-0000-0000-0000-000000000001", none⟩,
    [.ofText "Range" "bytes=1-"]⟩
  arrival := openTree
  waiting := [(openTree, .scanAll none)]
  opened := openTree
  turn := .poll 0
  number := 0
  sending := [(openTree, .event (.work 0)), (openTree, .event (.work 0)),
    (openTree, .event (.receive 0))]

theorem clipCourse_serves : clipCourse.Serves clipEntry ⟨[1, 2, 3], 0, ⟨0⟩⟩ where
  fresh := rfl
  asks := ⟨⟨"v", [47, 114], .ofCapacity 1⟩, by cbv, by cbv⟩
  waits := List.forall_mem_cons.mpr ⟨nofun, nofun⟩
  admits := ⟨⟨clipCourse.request, clipEntry, 0, 0⟩,
    ⟨"v", [47, 114], (Admission.Limiter.ofCapacity 1).enter.2⟩, by cbv, by cbv, by cbv⟩
  turns := .inl rfl
  file := rfl
  unchanged := by decide
  listens := by simp [clipCourse]

theorem streams_exact_clip :
    (∃ response, clipCourse.last.response? 0 = some response ∧ response.status = 206) ∧
    ∃ (got : List Bytes) (rest : Bytes), clipCourse.taken = got.map .bytes ∧
      (clipCourse.last.takeBody openTree [] 0).1 = .ok rest ∧ got.flatten ++ rest = [2, 3] := by
  have hdate : (Calendar.gregorian.date? ⟨0⟩).isSome = true := by decide +kernel
  obtain ⟨-, status, fields, bytes, hexact, hcourse⟩ := streams_exact .gregorian clipEntry
    ⟨[1, 2, 3], 0, ⟨0⟩⟩ (by decide) hdate clipCourse.request.fields
  obtain ⟨⟨response, hresponse, hstatus, -⟩, got, htaken, htakes⟩ :=
    hcourse clipCourse clipCourse_serves rfl (by decide) rfl
  obtain ⟨rest, hrest, hwhole⟩ := htakes openTree rfl
  have hrange : ByteRange.parse (clipCourse.request.fields.text? "range") 3 = .part 1 2 := by
    decide +kernel
  have hsize : FileBody.size ⟨[1, 2, 3], 0, ⟨0⟩⟩ = 3 := rfl
  rw [hsize, hrange] at hexact
  cases hexact with
  | part => exact ⟨⟨response, hresponse, hstatus⟩, got, rest, htaken, hrest, hwhole⟩

/-- The same request with another buffer and another tree, up to its answer. -/
def answeredCourse (bufferSize : Nat) (tree : Tree) : Course :=
  { clipCourse with
    service := clipService bufferSize
    arrival := tree
    waiting := []
    opened := tree
    sending := [] }

theorem answeredCourse_serves (bufferSize : Nat) {tree : Tree} {body : FileBody}
    (hopen : tree.openInRoot [] [47, 114] clipEntry.path = .ok (.file 0))
    (hbody : tree.body? 0 = some body) :
    (answeredCourse bufferSize tree).Serves clipEntry body where
  fresh := rfl
  asks := ⟨⟨"v", [47, 114], .ofCapacity 1⟩, by cbv, hopen⟩
  waits := nofun
  admits := ⟨⟨clipCourse.request, clipEntry, 0, 0⟩,
    ⟨"v", [47, 114], (Admission.Limiter.ofCapacity 1).enter.2⟩, by cbv, by cbv, by cbv⟩
  turns := .inl rfl
  file := hbody
  unchanged := nofun
  listens := nofun

/-- A buffer of 2^63 bytes. -/
def hugeCourse : Course := answeredCourse 9223372036854775808 openTree

/-- The file, changed 9 * 10^12 seconds after 1970, which is in the year 287168. -/
def farBody : FileBody := ⟨[1, 2, 3], 0, .ofSeconds 9000000000000⟩

/-- A file that was changed so late. -/
def farCourse : Course := answeredCourse 2 { openTree with bodies := [(0, farBody)] }

/-- Neither of the two is answered with the file. -/
theorem streams_not_exact :
    hugeCourse.Serves clipEntry ⟨[1, 2, 3], 0, ⟨0⟩⟩ ∧
    (∃ response, hugeCourse.last.response? 0 = some response ∧ response.status = 500) ∧
    farCourse.Serves clipEntry farBody ∧ farCourse.last.response? 0 = none := by
  have hhuge : hugeCourse.Serves clipEntry ⟨[1, 2, 3], 0, ⟨0⟩⟩ :=
    answeredCourse_serves _ (by cbv) rfl
  have hfar : farCourse.Serves clipEntry farBody := answeredCourse_serves _ (by cbv) rfl
  have hundated : Calendar.gregorian.date? farBody.modified = none := by decide +kernel
  have hspan : ((ByteRange.parse (farCourse.request.fields.text? "range") farBody.size).span
      farBody.size).isSome := by decide +kernel
  have hcrashed : farCourse.last.phase? 0 = some .crashed := hfar.cut_off (by decide) hundated hspan
  refine ⟨hhuge, hhuge.refused (by decide), hfar, ?_⟩
  rw [Service.response?, hcrashed]

end MediaShelf.Server
