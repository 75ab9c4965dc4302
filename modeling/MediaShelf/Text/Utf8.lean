/-!
UTF-8 as lists of bytes. `decodeLossy` replaces what is not UTF-8 by U+FFFD, one for each longest
run of bytes that starts a character and does not finish it.
-/

namespace MediaShelf

/-- A byte string: file content, or a name as the file system keeps it. -/
abbrev Bytes := List UInt8

namespace Text

/-- The UTF-8 form of a text. -/
def encode (s : String) : Bytes := s.toUTF8.toList

/-- The character U+FFFD, which stands for bytes that are not UTF-8. -/
def replacement : Char := '\uFFFD'

/-- The six low bits of a byte that continues a character. -/
def tailBits (b : UInt8) : Nat := b.toNat % 64

/-- What a lead byte asks for: how many bytes follow, the range of the first of them, and the
bits that the lead itself gives. -/
structure Lead where
  tails : Nat
  least : UInt8
  greatest : UInt8
  bits : Nat

/-- The lead bytes of the characters beyond ASCII; overlong forms, surrogates and numbers past
U+10FFFF are shut out by the range of the second byte. -/
def lead? (b : UInt8) : Option Lead :=
  if 0xC2 ≤ b && b ≤ 0xDF then some ⟨1, 0x80, 0xBF, b.toNat - 0xC0⟩
  else if b == 0xE0 then some ⟨2, 0xA0, 0xBF, 0⟩
  else if b == 0xED then some ⟨2, 0x80, 0x9F, 0xD⟩
  else if 0xE1 ≤ b && b ≤ 0xEF then some ⟨2, 0x80, 0xBF, b.toNat - 0xE0⟩
  else if b == 0xF0 then some ⟨3, 0x90, 0xBF, 0⟩
  else if 0xF1 ≤ b && b ≤ 0xF3 then some ⟨3, 0x80, 0xBF, b.toNat - 0xF0⟩
  else if b == 0xF4 then some ⟨3, 0x80, 0x8F, 4⟩
  else none

/-- Where a decoder stands: between characters, or inside one that still needs bytes. -/
inductive DecodeState where
  | between
  | inside (missing : Nat) (least greatest : UInt8) (bits : Nat)

/-- Takes one byte: the characters it completes or spoils, newest first, and the next state. -/
def DecodeState.step (out : List Char) (state : DecodeState) (b : UInt8) :
    List Char × DecodeState :=
  let fresh (out : List Char) : List Char × DecodeState :=
    if b < 0x80 then (Char.ofNat b.toNat :: out, .between)
    else match lead? b with
      | some lead => (out, .inside lead.tails lead.least lead.greatest lead.bits)
      | none => (replacement :: out, .between)
  match state with
  | .between => fresh out
  | .inside missing least greatest bits =>
    if least ≤ b && b ≤ greatest then
      let bits := bits * 64 + tailBits b
      if missing ≤ 1 then (Char.ofNat bits :: out, .between)
      else (out, .inside (missing - 1) 0x80 0xBF bits)
    else fresh (replacement :: out)

/-- Decodes from a state; a character that the end cuts off is replaced. -/
def decodeFrom (out : List Char) (state : DecodeState) : Bytes → List Char
  | [] => match state with
    | .between => out.reverse
    | .inside .. => (replacement :: out).reverse
  | b :: rest =>
    let (out, state) := state.step out b
    decodeFrom out state rest

/-- The text of a byte string, with U+FFFD for what is not UTF-8. -/
def decodeLossy (bytes : Bytes) : String := String.ofList (decodeFrom [] .between bytes)

/-- The text of a byte string that is UTF-8. -/
def decode? (bytes : Bytes) : Option String := String.fromUTF8? ⟨bytes.toArray⟩

end Text

end MediaShelf
