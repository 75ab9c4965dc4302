import MediaShelf.Failure

/-!
Requests that are turned away: a status, a code and a text. The text is one of a few fixed ones,
so that no path and no wording of the file system reaches a client.
-/

namespace MediaShelf.Http

/-- An answer that turns a request away. -/
structure Refusal where
  status : Nat
  code : String
  text : String
  deriving DecidableEq, Repr

namespace Refusal

/-- A fault of the server itself. -/
def internal (text : String) : Refusal := ⟨500, "internal_error", text⟩

/-- No slot became free in time. -/
def busy : Refusal := ⟨503, "busy", "server too busy"⟩

/-- The code and the text for a failure. -/
def wording : Failure → String × String
  | .outsideRoot _ => ("forbidden", "forbidden")
  | .unsupportedMode _ => ("unsupported_mode", "configuration error: unsupported mode")
  | .notFound _ => ("not_found", "entry not found")
  | .volumeNotFound _ => ("volume_unavailable", "storage volume unavailable")
  | .admissionCancelled => ("busy", "server too busy")
  | .invalidInput _ => ("invalid_input", "invalid request")
  | .fault f =>
    if f.kind == .notFound then ("not_found", "file not found")
    else ("io_error", "file access error")

/-- The refusal of a request that failed. -/
def ofFailure (failure : Failure) : Refusal :=
  ⟨failure.status, (wording failure).1, (wording failure).2⟩

end Refusal

end MediaShelf.Http
