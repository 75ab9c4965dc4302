import MediaShelf.Text.Unsigned

/-!
Addresses that a server listens at: an internet address of version 4 or 6, and a port.
-/

namespace MediaShelf.Server

open MediaShelf.Text

/-- An internet address. -/
inductive HostAddress where
  /-- Four bytes. -/
  | four (bytes : List Nat)
  /-- Eight groups of 16 bits, and the number of the network that a local address is on. -/
  | six (groups : List Nat) (scope : Nat)
  deriving DecidableEq, Repr

/-- An internet address and a port. -/
structure SocketAddress where
  host : HostAddress
  port : Nat
  deriving DecidableEq, Repr

/-! ## Reading -/

/-- Reads a number of one to `width` digits in some base, up to `limit`. -/
def readNumber? (base width limit : Nat) (s : List Char) : Option (Nat × List Char) :=
  let isDigit (c : Char) : Bool :=
    c.isDigit || (base == 16 && (('a' ≤ c && c ≤ 'f') || ('A' ≤ c && c ≤ 'F')))
  let value (c : Char) : Nat :=
    if c.isDigit then c.toNat - '0'.toNat
    else if 'a' ≤ c then c.toNat - 'a'.toNat + 10 else c.toNat - 'A'.toNat + 10
  let digits := s.takeWhile isDigit
  let n := digits.foldl (fun n c => n * base + value c) 0
  if digits = [] ∨ width < digits.length ∨ limit < n then none
  else some (n, s.drop digits.length)

/-- Reads a byte in decimal, without needless zeros in front. -/
def readByte? (s : List Char) : Option (Nat × List Char) :=
  match s with
  | '0' :: c :: _ => if c.isDigit then none else readNumber? 10 3 255 s
  | _ => readNumber? 10 3 255 s

/-- Reads bytes with dots between them. -/
def readBytes? : (count : Nat) → List Char → Option (List Nat × List Char)
  | 0, s => some ([], s)
  | count + 1, s =>
    match readByte? s with
    | none => none
    | some (byte, rest) =>
      if count = 0 then some ([byte], rest)
      else
        match rest with
        | '.' :: rest => (readBytes? count rest).map fun (bytes, rest) => (byte :: bytes, rest)
        | _ => none

/-- The two groups that four bytes make. -/
def groupsOfBytes : List Nat → List Nat
  | [a, b, c, d] => [a * 256 + b, c * 256 + d]
  | _ => []

/-- Reads up to `limit` groups with colons between them; the last two may be written as four bytes.
Tells whether they were. -/
def readGroups (limit : Nat) (isFirst : Bool) (s : List Char) : List Nat × Bool × List Char :=
  match limit with
  | 0 => ([], false, s)
  | limit + 1 =>
    let start? : Option (List Char) :=
      if isFirst then some s
      else match s with
        | ':' :: rest => some rest
        | _ => none
    match start? with
    | none => ([], false, s)
    | some start =>
      let bytes? := if limit = 0 then none else readBytes? 4 start
      match bytes? with
      | some (bytes, rest) => (groupsOfBytes bytes, true, rest)
      | none =>
        match readNumber? 16 4 word16Max start with
        | none => ([], false, s)
        | some (group, rest) =>
          let (groups, asBytes, rest) := readGroups limit false rest
          (group :: groups, asBytes, rest)

/-- Reads an address of version 6. Two colons stand for as many zero groups as are missing. -/
def readSix? (s : List Char) : Option (List Nat × List Char) :=
  let (head, asBytes, rest) := readGroups 8 true s
  if head.length = 8 then some (head, rest)
  else if asBytes then none
  else
    match rest with
    | ':' :: ':' :: rest =>
      let (tail, _, rest) := readGroups (7 - head.length) true rest
      some (head ++ List.replicate (8 - head.length - tail.length) 0 ++ tail, rest)
    | _ => none

/-- Reads the port at the end of an address. -/
def readPort? : List Char → Option Nat
  | ':' :: rest =>
    match readNumber? 10 rest.length word16Max rest with
    | some (port, []) => some port
    | _ => none
  | _ => none

/-- Reads the number of a network behind a percent sign, if there is one. -/
def readScope? : List Char → Option (Nat × List Char)
  | '%' :: rest => readNumber? 10 rest.length (Nat.pow 2 32 - 1) rest
  | s => some (0, s)

/-- Reads an address and a port. An address of version 6 stands in brackets. -/
def SocketAddress.parse? (text : String) : Option SocketAddress :=
  match text.toList with
  | '[' :: s =>
    match readSix? s with
    | none => none
    | some (groups, rest) =>
      match readScope? rest with
      | some (scope, ']' :: rest) => (readPort? rest).map fun port => ⟨.six groups scope, port⟩
      | _ => none
  | s =>
    match readBytes? 4 s with
    | none => none
    | some (bytes, rest) => (readPort? rest).map fun port => ⟨.four bytes, port⟩

/-! ## Writing -/

/-- A number in hexadecimal notation. -/
def hexText (n : Nat) : String := String.ofList (Nat.toDigits 16 n)

/-- Where the longest run of zero groups starts, and how long it is; of equally long ones the
first. `at_` is the place of the next group, and `run` the length of the run before it. -/
def longestZeros (best : Nat × Nat) (at_ run : Nat) : List Nat → Nat × Nat
  | [] => best
  | group :: rest =>
    if group = 0 then
      let run := run + 1
      let best := if best.2 < run then (at_ + 1 - run, run) else best
      longestZeros best (at_ + 1) run rest
    else longestZeros best (at_ + 1) 0 rest

/-- Groups with colons between them. -/
def groupsText (groups : List Nat) : String := ":".intercalate (groups.map hexText)

/-- Bytes with dots between them. -/
def bytesText (bytes : List Nat) : String := ".".intercalate (bytes.map toString)

/-- An address of version 6: the longest run of two or more zero groups becomes two colons, and an
address that stands for one of version 4 ends like that one. -/
def sixText (groups : List Nat) : String :=
  match groups with
  | [0, 0, 0, 0, 0, 0xFFFF, high, low] =>
    "::ffff:" ++ bytesText [high / 256, high % 256, low / 256, low % 256]
  | _ =>
    let (start, length) := longestZeros (0, 0) 0 0 groups
    if length < 2 then groupsText groups
    else groupsText (groups.take start) ++ "::" ++ groupsText (groups.drop (start + length))

/-- The written form of an address and a port. -/
def SocketAddress.toText (a : SocketAddress) : String :=
  match a.host with
  | .four bytes => bytesText bytes ++ ":" ++ toString a.port
  | .six groups scope =>
    let scope := if scope = 0 then "" else "%" ++ toString scope
    "[" ++ sixText groups ++ scope ++ "]:" ++ toString a.port

/-- Whether a machine that is on no network, not even on that of itself, can listen at an address.
It has no routes by which it could refuse an address of version 4, or one of version 6 that stands
for such a one or for all addresses. -/
def SocketAddress.isOwn (a : SocketAddress) : Bool :=
  match a.host with
  | .four _ => true
  | .six groups _ =>
    groups == List.replicate 8 0 || groups.take 6 == [0, 0, 0, 0, 0, 0xFFFF]

end MediaShelf.Server
