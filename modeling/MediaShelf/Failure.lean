import MediaShelf.Text.Utf8

/-!
What can go wrong, as causes: failures of the file system, and failures of the library. Every
cause has its wording and the status with which a client is turned away.
-/

namespace MediaShelf

/-- The kinds of file system failures. -/
inductive FaultKind where
  | notFound | permissionDenied | connectionRefused | connectionReset | connectionAborted
  | notConnected | addrInUse | addrNotAvailable | brokenPipe | alreadyExists | wouldBlock
  | notADirectory | isADirectory | directoryNotEmpty | readOnlyFilesystem | filesystemLoop
  | invalidInput | invalidData | timedOut | writeZero | storageFull | notSeekable
  | fileTooLarge | resourceBusy | invalidFilename | interrupted | unsupported | unexpectedEof
  | outOfMemory | other
  deriving DecidableEq, Repr

namespace FaultKind

/-- Every kind. -/
def all : List FaultKind :=
  [notFound, permissionDenied, connectionRefused, connectionReset, connectionAborted,
   notConnected, addrInUse, addrNotAvailable, brokenPipe, alreadyExists, wouldBlock,
   notADirectory, isADirectory, directoryNotEmpty, readOnlyFilesystem, filesystemLoop,
   invalidInput, invalidData, timedOut, writeZero, storageFull, notSeekable,
   fileTooLarge, resourceBusy, invalidFilename, interrupted, unsupported, unexpectedEof,
   outOfMemory, other]

end FaultKind

/-- A failure of the file system. -/
structure Fault where
  kind : FaultKind
  text : String
  deriving DecidableEq, Repr

namespace Fault

/-- A failure that the operating system reports by number. -/
def system (kind : FaultKind) (text : String) (number : Nat) : Fault :=
  ⟨kind, text ++ " (os error " ++ toString number ++ ")"⟩

/-- There is nothing at the path. -/
def noEntry : Fault := system .notFound "No such file or directory" 2

/-- A path goes on below something that is no directory. -/
def notDirectory : Fault := system .notADirectory "Not a directory" 20

/-- A directory was read as a file. -/
def isDirectory : Fault := system .isADirectory "Is a directory" 21

/-- A seek to a position that a file cannot have. -/
def invalidArgument : Fault := system .invalidInput "Invalid argument" 22

/-- A name, or a whole path, is longer than the system takes. -/
def nameTooLong : Fault := system .invalidFilename "File name too long" 36

/-- The system followed more links than it is willing to. -/
def linkLoop : Fault := system .filesystemLoop "Too many levels of symbolic links" 40

/-- A path holds the character that ends paths inside the system. -/
def nulInName : Fault := ⟨.invalidInput, "file name contained an unexpected NUL byte"⟩

/-- A relative path that names nothing below its root. -/
def emptyPath : Fault := ⟨.invalidInput, "empty relative path"⟩

/-- A walk inside a root met more links than it follows. -/
def tooManyLinks : Fault := ⟨.other, "too many levels of symbolic links"⟩

/-- A walk inside a root ended at nothing. -/
def noSuchFile : Fault := ⟨.notFound, "no such file"⟩

/-- An opened path is no regular file. -/
def notRegular : Fault := ⟨.invalidInput, "not a regular file"⟩

/-- A resource was used after it was closed. -/
def closed : Fault := ⟨.other, "resource is closed"⟩

/-- A relative seek past the least offset. -/
def seekOverflow : Fault := ⟨.invalidInput, "seek offset overflow"⟩

/-- A file ended before the bytes that were asked for. -/
def shortRead : Fault := ⟨.unexpectedEof, "failed to fill whole buffer"⟩

/-- A file ended inside the range that is being sent. -/
def shrank : Fault := ⟨.unexpectedEof, "file shrank while streaming"⟩

/-- The client went away while its body was sent. -/
def bodyDropped : Fault := ⟨.brokenPipe, "response body dropped"⟩

end Fault

/-- A failure of the library. -/
inductive Failure where
  /-- A path tried to leave its root; it is carried as it was asked for. -/
  | outsideRoot (path : Bytes)
  | unsupportedMode (mode : String)
  | notFound (what : String)
  | volumeNotFound (volume : String)
  /-- The wait for a slot was called off. -/
  | admissionCancelled
  | invalidInput (what : String)
  | fault (fault : Fault)
  deriving DecidableEq, Repr

namespace Failure

/-- The wording of a failure. -/
def message : Failure → String
  | outsideRoot path => "Path outside root directory: " ++ Text.decodeLossy path
  | unsupportedMode mode => "Unsupported resource mode: " ++ mode
  | notFound what => "Entry not found: " ++ what
  | volumeNotFound volume => "Volume not found: " ++ volume
  | admissionCancelled => "I/O admission cancelled"
  | invalidInput what => "Invalid input: " ++ what
  | fault f => "IO error: " ++ f.text

/-- Whether a failure says that a path left its root. -/
def isOutsideRoot : Failure → Bool
  | outsideRoot _ => true
  | _ => false

/-- Whether a failure says that there is nothing: no such entry, or no such file. -/
def isNotFound : Failure → Bool
  | notFound _ => true
  | fault f => f.kind == .notFound
  | _ => false

/-- The status that a failure is answered with. -/
def status : Failure → Nat
  | outsideRoot _ => 403
  | unsupportedMode _ => 501
  | notFound _ => 404
  | volumeNotFound _ => 503
  | admissionCancelled => 503
  | invalidInput _ => 400
  | fault f => if f.kind == .notFound then 404 else 500

end Failure

end MediaShelf
