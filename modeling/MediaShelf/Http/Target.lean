import MediaShelf.Text.Utf8

/-!
Request targets: a path and perhaps a query, as they stand on the request line, and what they say
once the percent signs are undone.
-/

namespace MediaShelf.Http

/-- Where a request goes; a target that is no path, such as a lone asterisk, has no slash in
front. -/
structure Target where
  path : Bytes
  query : Option Bytes
  deriving DecidableEq, Repr

/-! ## Percent signs -/

/-- The byte of the percent sign. -/
def percent : UInt8 := 0x25

/-- The value of a hexadecimal digit. -/
def hexByte? (b : UInt8) : Option UInt8 :=
  if 0x30 ≤ b && b ≤ 0x39 then some (b - 0x30)
  else if 0x41 ≤ b && b ≤ 0x46 then some (b - 0x37)
  else if 0x61 ≤ b && b ≤ 0x66 then some (b - 0x57)
  else none

/-- Replaces a percent sign and the two digits behind it by the byte they stand for. A percent
sign without two digits stands for itself. -/
def percentDecode : Bytes → Bytes
  | b :: high :: low :: rest =>
    match hexByte? high, hexByte? low with
    | some h, some l =>
      if b = percent then (h * 16 + l) :: percentDecode rest
      else b :: percentDecode (high :: low :: rest)
    | _, _ => b :: percentDecode (high :: low :: rest)
  | b :: rest => b :: percentDecode rest
  | [] => []

/-! ## Queries -/

/-- The text of one side of a query field: a plus sign is a space. -/
def fieldText (bytes : Bytes) : String :=
  Text.decodeLossy (percentDecode (bytes.map fun b => if b = 0x2B then 0x20 else b))

/-- A query field: what stands before the first equals sign, and what follows. -/
def queryField (part : Bytes) : String × String :=
  (fieldText (part.takeWhile (· ≠ 0x3D)), fieldText ((part.dropWhile (· ≠ 0x3D)).drop 1))

/-- The fields of a query, in order. -/
def queryFields (query : Bytes) : List (String × String) :=
  ((query.splitOn 0x26).filter (· ≠ [])).map queryField

/-- The value of a field that may occur at most once; an error if it occurs more often. -/
def singleField (name : String) (fields : List (String × String)) :
    Except Unit (Option String) :=
  match fields.filter (·.1 == name) with
  | [] => .ok none
  | [(_, value)] => .ok (some value)
  | _ => .error ()

/-! ## Reading a target -/

/-- A byte that may stand in a path. -/
def isPathByte (b : UInt8) : Bool :=
  0x20 < b && b != 0x23 && b != 0x3C && b != 0x3E && b != 0x3F && b != 0x60

/-- A byte that may stand in a query. -/
def isQueryByte (b : UInt8) : Bool :=
  0x20 < b && b != 0x22 && b != 0x23 && b != 0x3C && b != 0x3E

/-- A byte that may stand in the name of a server. -/
def isHostByte (b : UInt8) : Bool :=
  (0x30 ≤ b && b ≤ 0x39) || (0x41 ≤ b && b ≤ 0x5A) || (0x61 ≤ b && b ≤ 0x7A) ||
    (Text.encode "!$%&()*+,-.:;=@[]_~").contains b || b == 0x27

/-- The target of a path with perhaps a query; what follows a number sign does not count. -/
def pathTarget? (bytes : Bytes) : Option Target :=
  let shown := bytes.takeWhile (· ≠ 0x23)
  let path := shown.takeWhile (· ≠ 0x3F)
  let query := match shown.dropWhile (· ≠ 0x3F) with
    | [] => none
    | _ :: query => some query
  if path.all isPathByte && (query.getD []).all isQueryByte then
    some ⟨if path = [] then [0x2F] else path, query⟩
  else none

/-- The part behind the scheme, for a target that names a server. -/
def afterScheme? (bytes : Bytes) : Option Bytes :=
  let scheme := bytes.takeWhile (· ≠ 0x3A)
  let rest := bytes.drop scheme.length
  if scheme ≠ [] ∧ rest.take 3 = [0x3A, 0x2F, 0x2F] then some (rest.drop 3) else none

/-- A byte that ends the name of a server. -/
def endsHost (b : UInt8) : Bool := b == 0x2F || b == 0x3F || b == 0x23

/-- Reads a target: a path, a path behind the name of a server, an asterisk, or a server alone. -/
def Target.parse? (text : String) : Option Target :=
  let bytes := Text.encode text
  match bytes with
  | [] => none
  | [0x2A] => some ⟨[0x2A], none⟩
  | first :: _ =>
    if first = 0x2F then pathTarget? bytes
    else
      match afterScheme? bytes with
      | some rest =>
        let host := rest.takeWhile fun b => ! endsHost b
        if host = [] ∨ ! host.all isHostByte then none
        else pathTarget? (rest.drop host.length)
      | none => if bytes.all isHostByte then some ⟨[], none⟩ else none

theorem percentDecode_of_not_mem {bytes : Bytes} (h : percent ∉ bytes) :
    percentDecode bytes = bytes := by
  fun_induction percentDecode bytes with
  | case1 => simp at h
  | case2 b high low rest _ _ _ _ _ ih => rw [ih (fun hm => h (List.mem_cons_of_mem _ hm))]
  | case3 b high low rest _ ih => rw [ih (fun hm => h (List.mem_cons_of_mem _ hm))]
  | case4 b rest _ ih => rw [ih (fun hm => h (List.mem_cons_of_mem _ hm))]
  | case5 => rfl

end MediaShelf.Http
