import Mathlib
import MediaShelf.Http.Response

/-!
# Answers with a file

What the answer to a request for a file says of it: the status, the fields that tell the range and
the length, and the bytes that belong to them (`ExactAnswer`). The other fields of the answer are
about something else, so each of the two stands there once (`values_spanFields`). The method does
not matter (`ofFile?_congr`). There is an answer if the time of change has a date
(`exists_ofFile?`).
-/

namespace MediaShelf.Http

open MediaShelf.Text

/-- The values of all fields of a name. -/
def Fields.values (fields : Fields) (name : String) : List Bytes :=
  (fields.filter fun field => smallName field.name == smallName name).map (·.value)

/-- An answer with a status, fields and a body that serves a range of a content exactly. -/
inductive ExactAnswer (content : Bytes) : ByteRange → Nat → Fields → Bytes → Prop
  | outside {fields : Fields} (hrange : fields.values "content-range" =
        [encode ("bytes */" ++ toString content.length)]) :
      ExactAnswer content .unsatisfiable 416 fields []
  | part {first last : Nat} {fields : Fields} (hle : first ≤ last) (hlt : last < content.length)
      (hrange : fields.values "content-range" = [encode ("bytes " ++ toString first ++ "-" ++
        toString last ++ "/" ++ toString content.length)])
      (hlength : fields.values "content-length" = [encode (toString (last - first + 1))]) :
      ExactAnswer content (.part first last) 206 fields ((content.drop first).take (last - first + 1))
  | whole {fields : Fields} (hrange : fields.values "content-range" = [])
      (hlength : fields.values "content-length" = [encode (toString content.length)]) :
      ExactAnswer content .full 200 fields content

/-- The bytes that a range asks for. -/
def bytesOf (content : Bytes) (range : ByteRange) : Bytes :=
  match range.span content.length with
  | none => []
  | some (offset, length) => (content.drop offset).take length

/-- What a range asks for lies inside the file. -/
theorem ByteRange.WithinFile.span_le {range : ByteRange} {size offset length : Nat}
    (h : range.WithinFile size) (hspan : range.span size = some (offset, length)) :
    offset + length ≤ size := by
  cases range with
  | full =>
    cases hspan
    omega
  | part first last =>
    obtain ⟨hle, hlt⟩ := h
    cases hspan
    omega
  | unsatisfiable => cases hspan

namespace Fields

variable {name other : String}

theorem values_append (fields more : Fields) (name : String) :
    Fields.values (fields ++ more) name = fields.values name ++ more.values name := by
  rw [Fields.values, List.filter_append, List.map_append]
  rfl

theorem values_ofText_self (value : String) (rest : Fields) :
    Fields.values (.ofText name value :: rest) name = encode value :: rest.values name := by
  simp only [Fields.values, Field.ofText, List.filter_cons, beq_self_eq_true, if_true, List.map_cons]

theorem values_cons_of_ne (h : (smallName other == smallName name) = false) (value : Bytes)
    (rest : Fields) : Fields.values (⟨other, value⟩ :: rest) name = rest.values name := by
  simp only [Fields.values, List.filter_cons, h, Bool.false_eq_true, if_false]

theorem values_ofText_of_ne (h : (smallName other == smallName name) = false) (value : String)
    (rest : Fields) : Fields.values (.ofText other value :: rest) name = rest.values name :=
  values_cons_of_ne h (encode value) rest

end Fields

/-! ## The answer with a file -/

section Answer

variable {calendar : Calendar} {request : Request} {name : String} {size : Nat} {modified : Moment}

/-- The status and the fields of an answer with a file do not depend on the method. -/
theorem ofFile?_congr {request' : Request} (h : request.fields = request'.fields)
    (calendar : Calendar) (name : String) (size : Nat) (modified : Moment) :
    (Response.ofFile? calendar request name size modified).map (fun r => (r.status, r.fields)) =
      (Response.ofFile? calendar request' name size modified).map fun r => (r.status, r.fields) := by
  unfold Response.ofFile?
  rw [h]
  dsimp only
  split
  · rfl
  · rw [Option.map_map, Option.map_map]
    refine congrArg (Option.map · _) (funext fun date => ?_)
    simp only [Function.comp_apply, Response.ofSpan, h]

/-- A file whose time of change has a date is answered with. -/
theorem exists_ofFile? {date : String} (h : calendar.date? modified = some date)
    (request : Request) (name : String) (size : Nat) :
    ∃ response, Response.ofFile? calendar request name size modified = some response := by
  unfold Response.ofFile?
  dsimp only
  split
  · exact ⟨_, rfl⟩
  · exact ⟨_, by rw [h, Option.map_some]⟩

/-- A file whose time of change has no date is not answered with. -/
theorem ofFile?_eq_none (h : calendar.date? modified = none)
    (hspan : ((ByteRange.parse (request.fields.text? "range") size).span size).isSome) :
    Response.ofFile? calendar request name size modified = none := by
  obtain ⟨span, hspan⟩ := Option.isSome_iff_exists.mp hspan
  simp only [Response.ofFile?, hspan, h, Option.map_none]

/-- What stands in the body of an answer with a file: nothing, or the span that is to be sent. -/
theorem body_of_ofFile? {response : Response}
    (h : Response.ofFile? calendar request name size modified = some response) :
    response.body =
      match (ByteRange.parse (request.fields.text? "range") size).span size with
      | none => .whole []
      | some (offset, length) => if request.isHead then .whole [] else .span offset length := by
  unfold Response.ofFile? at h
  cases hspan : (ByteRange.parse (request.fields.text? "range") size).span size with
  | none =>
    simp only [hspan, Option.some.injEq] at h
    rw [← h]
    rfl
  | some span =>
    simp only [hspan] at h
    obtain ⟨date, -, rfl⟩ := Option.map_eq_some_iff.mp h
    rfl

/-- The fields that tell the range and the length of an answer. -/
def extentNames : List String := ["content-range", "content-length"]

theorem values_rendererFields {name : String} (h : name ∈ extentNames) :
    Fields.values rendererFields name = [] := by
  rcases List.mem_pair.mp h with rfl | rfl
  · decide +kernel
  · decide +kernel

theorem values_disposition {name : String} (h : name ∈ extentNames) (disposition? : Option Bytes) :
    Fields.values (match disposition? with
      | some value => [Field.mk "content-disposition" value]
      | none => []) name = [] := by
  cases disposition? with
  | none => rfl
  | some value =>
    rcases List.mem_pair.mp h with rfl | rfl
    · exact Fields.values_cons_of_ne (by decide) _ _
    · exact Fields.values_cons_of_ne (by decide) _ _

/-- The other fields of an answer with a file are about something else. -/
theorem values_spanFields (contentType length date : String) (disposition? : Option Bytes)
    (rangeFields : Fields) (fromRenderer : Bool)
    (hlength : rangeFields.values "content-length" = []) :
    let disposition := match disposition? with
      | some value => [Field.mk "content-disposition" value]
      | none => []
    let fields : Fields :=
      [.ofText "content-type" contentType, .ofText "accept-ranges" "bytes",
        .ofText "content-length" length, .ofText "last-modified" date] ++ rangeFields ++
      disposition ++ (if fromRenderer then rendererFields else [])
    fields.values "content-range" = rangeFields.values "content-range" ∧
      fields.values "content-length" = [encode length] := by
  have hnil (name : String) : Fields.values [] name = [] := rfl
  have hrenderer : ∀ name ∈ extentNames,
      Fields.values (if fromRenderer then rendererFields else []) name = [] := by
    intro name hname
    split
    · exact values_rendererFields hname
    · exact hnil name
  simp only [Fields.values_append]
  constructor
  · rw [hrenderer _ (by decide), values_disposition (by decide),
      Fields.values_ofText_of_ne (by decide), Fields.values_ofText_of_ne (by decide),
      Fields.values_ofText_of_ne (by decide), Fields.values_ofText_of_ne (by decide), hnil]
    simp only [List.nil_append, List.append_nil]
  · rw [hrenderer _ (by decide), values_disposition (by decide),
      hlength, Fields.values_ofText_of_ne (by decide), Fields.values_ofText_of_ne (by decide),
      Fields.values_ofText_self, Fields.values_ofText_of_ne (by decide), hnil]
    rfl

/-- The answer with a file is exact. -/
theorem exactAnswer_ofFile? {content : Bytes} {response : Response}
    (h : Response.ofFile? calendar request name content.length modified = some response) :
    ExactAnswer content (ByteRange.parse (request.fields.text? "range") content.length)
      response.status response.fields
      (bytesOf content (ByteRange.parse (request.fields.text? "range") content.length)) := by
  have hwithin := ByteRange.withinFile_parse (request.fields.text? "range") content.length
  unfold Response.ofFile? at h
  cases hparse : ByteRange.parse (request.fields.text? "range") content.length with
  | unsatisfiable =>
    rw [hparse] at h
    cases h
    have hrange : Fields.values (Response.outsideFile content.length).fields "content-range" =
        [encode ("bytes */" ++ toString content.length)] := by
      rw [Response.outsideFile, Fields.values_ofText_self, Fields.values_ofText_of_ne (by decide)]
      rfl
    exact .outside hrange
  | part first last =>
    rw [hparse] at hwithin h
    obtain ⟨date, -, rfl⟩ := Option.map_eq_some_iff.mp h
    obtain ⟨hrange, hlength⟩ := values_spanFields (contentType name)
      (toString (last - first + 1)) date (disposition? name)
      [.ofText "content-range" (Response.rangeText first last content.length)]
      (isRenderer request.fields) (Fields.values_ofText_of_ne (by decide) _ _)
    rw [Fields.values_ofText_self] at hrange
    exact .part hwithin.1 hwithin.2 hrange hlength
  | full =>
    rw [hparse] at h
    obtain ⟨date, -, rfl⟩ := Option.map_eq_some_iff.mp h
    obtain ⟨hrange, hlength⟩ := values_spanFields (contentType name)
      (toString content.length) date (disposition? name) [] (isRenderer request.fields) rfl
    have hall : bytesOf content .full = content := by
      show (content.drop 0).take content.length = content
      rw [List.drop_zero, List.take_length]
    rw [hall]
    exact .whole hrange hlength

end Answer

end MediaShelf.Http
