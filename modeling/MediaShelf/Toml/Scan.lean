import MediaShelf.Text.Utf8

/-!
The smallest parts of TOML documents: blanks, comments, line ends, strings and keys. Each reader
gives what it read and the rest of the text, or nothing if the text does not start with such a
part.
-/

namespace MediaShelf.Toml

/-! ## Blanks and comments -/

/-- A blank inside a line. -/
def isBlank (c : Char) : Bool := c = ' ' || c = '\t'

/-- Drops the blanks in front. -/
def skipBlanks (s : List Char) : List Char := s.dropWhile isBlank

/-- A character that may stand in comments and in one-line literal texts. -/
def isPlain (c : Char) : Bool :=
  c = '\t' || (0x20 ≤ c.toNat && c.toNat ≤ 0x7E) || 0x80 ≤ c.toNat

/-- The rest after a line end. -/
def lineEnd? : List Char → Option (List Char)
  | '\n' :: rest => some rest
  | '\r' :: '\n' :: rest => some rest
  | _ => none

/-- The rest after a comment, if there is one in front. -/
def skipComment : List Char → List Char
  | '#' :: rest => rest.dropWhile isPlain
  | s => s

/-- The rest after what may stand between the end of a statement and the next line. -/
def statementEnd? (s : List Char) : Option (List Char) :=
  match skipComment (skipBlanks s) with
  | [] => some []
  | rest => lineEnd? rest

/-- Drops blanks, line ends and comments. -/
def skipFiller (inComment : Bool) : List Char → List Char
  | '\n' :: rest => skipFiller false rest
  | '\r' :: '\n' :: rest => skipFiller false rest
  | c :: rest =>
    if inComment then if isPlain c then skipFiller true rest else c :: rest
    else if isBlank c then skipFiller false rest
    else if c = '#' then skipFiller true rest
    else c :: rest
  | [] => []

/-! ## Strings -/

/-- The value of a hexadecimal digit. -/
def hexDigit? (c : Char) : Option Nat :=
  if '0' ≤ c ∧ c ≤ '9' then some (c.toNat - '0'.toNat)
  else if 'a' ≤ c ∧ c ≤ 'f' then some (c.toNat - 'a'.toNat + 10)
  else if 'A' ≤ c ∧ c ≤ 'F' then some (c.toNat - 'A'.toNat + 10)
  else none

/-- The number that digits stand for. -/
def hexValue? (digits : List Char) : Option Nat :=
  digits.foldl
    (fun value? c => match value?, hexDigit? c with
      | some value, some d => some (value * 16 + d)
      | _, _ => none)
    (some 0)

/-- The character with a number given in hexadecimal digits. -/
def charOfHex? (digits : List Char) : Option Char :=
  match hexValue? digits with
  | some n => if n.isValidChar then some (Char.ofNat n) else none
  | none => none

/-- The character that one letter behind a backslash stands for. -/
def escaped? : Char → Option Char
  | 'b' => some '\x08'
  | 't' => some '\t'
  | 'n' => some '\n'
  | 'f' => some '\x0c'
  | 'r' => some '\r'
  | '"' => some '"'
  | '\\' => some '\\'
  | _ => none

/-- A character that stands for itself between double quotes. -/
def isUnescaped (c : Char) : Bool := isPlain c && c ≠ '"' && c ≠ '\\'

/-- Reads up to the closing double quote; `soFar` holds what was read, newest first. -/
def basicBody (soFar : List Char) : List Char → Option (List Char × List Char)
  | '"' :: rest => some (soFar.reverse, rest)
  | '\\' :: 'u' :: a :: b :: c :: d :: rest =>
    match charOfHex? [a, b, c, d] with
    | some char => basicBody (char :: soFar) rest
    | none => none
  | '\\' :: 'U' :: a :: b :: c :: d :: e :: f :: g :: h :: rest =>
    match charOfHex? [a, b, c, d, e, f, g, h] with
    | some char => basicBody (char :: soFar) rest
    | none => none
  | '\\' :: letter :: rest =>
    match escaped? letter with
    | some char => basicBody (char :: soFar) rest
    | none => none
  | c :: rest => if isUnescaped c then basicBody (c :: soFar) rest else none
  | [] => none

/-- Where the reader of a text of many lines stands. -/
inductive FoldState where
  | text
  /-- Behind a backslash at the end of a line, before the line end. -/
  | beforeLineEnd
  /-- Behind a backslash at the end of a line, where blanks and line ends do not count. -/
  | afterLineEnd
  deriving DecidableEq, Repr

/-- The closing run of quotes: with three or more quotes the text ends, and up to two of them
belong to it. Gives the quotes of the text and the rest. -/
def closing? (quote : Char) (s : List Char) : Option (List Char × List Char) :=
  let run := s.takeWhile (· = quote)
  if run.length < 3 then none
  else
    let inside := min (run.length - 3) 2
    some (List.replicate inside quote, s.drop (inside + 3))

/-- Reads up to three double quotes. -/
def manyLineBody (soFar : List Char) (state : FoldState) :
    List Char → Option (List Char × List Char)
  | '"' :: rest =>
    if state = .beforeLineEnd then none
    else
      match closing? '"' ('"' :: rest) with
      | some (inside, rest) => some (soFar.reverse ++ inside, rest)
      | none => manyLineBody ('"' :: soFar) .text rest
  | '\n' :: rest =>
    if state = .text then manyLineBody ('\n' :: soFar) .text rest
    else manyLineBody soFar .afterLineEnd rest
  | '\r' :: '\n' :: rest =>
    if state = .text then manyLineBody ('\n' :: soFar) .text rest
    else manyLineBody soFar .afterLineEnd rest
  | '\\' :: 'u' :: a :: b :: c :: d :: rest =>
    if state = .beforeLineEnd then none
    else
      match charOfHex? [a, b, c, d] with
      | some char => manyLineBody (char :: soFar) .text rest
      | none => none
  | '\\' :: 'U' :: a :: b :: c :: d :: e :: f :: g :: h :: rest =>
    if state = .beforeLineEnd then none
    else
      match charOfHex? [a, b, c, d, e, f, g, h] with
      | some char => manyLineBody (char :: soFar) .text rest
      | none => none
  | '\\' :: '\r' :: '\n' :: rest =>
    if state = .beforeLineEnd then none else manyLineBody soFar .afterLineEnd rest
  | '\\' :: letter :: rest =>
    if state = .beforeLineEnd then none
    else if letter = '\n' then manyLineBody soFar .afterLineEnd rest
    else if isBlank letter then manyLineBody soFar .beforeLineEnd rest
    else
      match escaped? letter with
      | some char => manyLineBody (char :: soFar) .text rest
      | none => none
  | c :: rest =>
    if state ≠ .text ∧ isBlank c then manyLineBody soFar state rest
    else if state = .beforeLineEnd then none
    else if isUnescaped c then manyLineBody (c :: soFar) .text rest
    else none
  | [] => none

/-- Reads up to the closing single quote. -/
def literalBody (soFar : List Char) : List Char → Option (List Char × List Char)
  | '\x27' :: rest => some (soFar.reverse, rest)
  | c :: rest => if isPlain c then literalBody (c :: soFar) rest else none
  | [] => none

/-- Reads up to three single quotes. -/
def manyLineLiteralBody (soFar : List Char) : List Char → Option (List Char × List Char)
  | '\x27' :: rest =>
    match closing? '\x27' ('\x27' :: rest) with
    | some (inside, rest) => some (soFar.reverse ++ inside, rest)
    | none => manyLineLiteralBody ('\x27' :: soFar) rest
  | '\n' :: rest => manyLineLiteralBody ('\n' :: soFar) rest
  | '\r' :: '\n' :: rest => manyLineLiteralBody ('\n' :: soFar) rest
  | c :: rest => if isPlain c then manyLineLiteralBody (c :: soFar) rest else none
  | [] => none

/-- Drops one line end in front, if there is one. -/
def skipLineEnd (s : List Char) : List Char := (lineEnd? s).getD s

/-- Reads a string of any kind. -/
def string? : List Char → Option (List Char × List Char)
  | '"' :: '"' :: '"' :: rest => manyLineBody [] .text (skipLineEnd rest)
  | '\x27' :: '\x27' :: '\x27' :: rest => manyLineLiteralBody [] (skipLineEnd rest)
  | '"' :: rest => basicBody [] rest
  | '\x27' :: rest => literalBody [] rest
  | _ => none

/-! ## Keys -/

/-- A character of a key without quotes. -/
def isKeyChar (c : Char) : Bool := c.isAlphanum || c = '_' || c = '-'

/-- Reads one part of a key. -/
def keyPart? : List Char → Option (String × List Char)
  | '"' :: rest => (basicBody [] rest).map fun (part, rest) => (String.ofList part, rest)
  | '\x27' :: rest => (literalBody [] rest).map fun (part, rest) => (String.ofList part, rest)
  | s =>
    let part := s.takeWhile isKeyChar
    if part = [] then none else some (String.ofList part, s.drop part.length)

/-- How deep values may lie in each other, and how many parts a key may have. -/
def maxDepth : Nat := 79

/-- Reads the parts of a key, with dots between them and blanks around each. -/
def keyParts? : (fuel : Nat) → List Char → Option (List String × List Char)
  | 0, _ => none
  | fuel + 1, s =>
    match keyPart? (skipBlanks s) with
    | none => none
    | some (part, rest) =>
      match skipBlanks rest with
      | '.' :: rest => (keyParts? fuel rest).map fun (parts, rest) => (part :: parts, rest)
      | rest => some ([part], rest)

/-- Reads a key. -/
def key? (s : List Char) : Option (List String × List Char) :=
  (keyParts? (s.length + 1) s).filter fun (parts, _) => parts.length ≤ maxDepth

end MediaShelf.Toml
