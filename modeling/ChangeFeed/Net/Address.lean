import ChangeFeed.Decimal.Digits
import ChangeFeed.Text.Hex

/-!
# Internet addresses

Addresses of both versions, their text and how it is read. An address of the sixth version is
written with its longest run of two or more zero groups left out, the first of several; one that
maps an address of the fourth version ends in that address.
-/

namespace ChangeFeed.Net

/-- An internet address: four bytes, or eight groups of two bytes. -/
inductive Address where
  | four (octets : List Nat)
  | six (groups : List Nat)
  deriving DecidableEq, Inhabited

namespace Address

/-! ## Reading -/

/-- Reads a byte in decimal; a zero leads no other digit. -/
def octet? (cs : List Char) : Option (Nat × List Char) :=
  let ds := cs.takeWhile Decimal.isDigit
  if ds.length > 3 ∨ (1 < ds.length ∧ ds.head? = some '0') then none
  else ((Decimal.natural? ds).filter (· < 256)).map fun n => (n, cs.drop ds.length)

/-- Reads a point and a byte. -/
def pointOctet? : List Char → Option (Nat × List Char)
  | '.' :: cs => octet? cs
  | _ => none

/-- Reads four bytes with points between them. -/
def four? (cs : List Char) : Option (List Nat × List Char) := do
  let (a, cs) ← octet? cs
  let (b, cs) ← pointOctet? cs
  let (c, cs) ← pointOctet? cs
  let (d, cs) ← pointOctet? cs
  pure ([a, b, c, d], cs)

/-- Reads a group of at most four hexadecimal digits. -/
def group? (cs : List Char) : Option (Nat × List Char) :=
  let ds := cs.takeWhile fun c => (Text.Hex.value? c).isSome
  if ds.isEmpty ∨ 4 < ds.length then none
  else (Text.Hex.number? ds).map fun n => (n, cs.drop ds.length)

/-- Reads the colon before every group but the first. -/
def separator? (first : Bool) : List Char → Option (List Char)
  | ':' :: cs => if first then some (':' :: cs) else some cs
  | cs => if first then some cs else none

/-- Reads at most `limit` groups. Two groups may be written as four bytes, which then are the last;
answers the groups, whether they end so, and what is left. -/
def groups : Nat → Bool → List Char → List Nat × Bool × List Char
  | 0, _, cs => ([], false, cs)
  | limit + 1, first, cs =>
    let bytes? := if 0 < limit then (separator? first cs).bind four? else none
    match bytes? with
    | some ([a, b, c, d], rest) => ([a * 256 + b, c * 256 + d], true, rest)
    | _ =>
      match (separator? first cs).bind group? with
      | some (group, rest) =>
        let (more, endsInBytes, rest) := groups limit false rest
        (group :: more, endsInBytes, rest)
      | none => ([], false, cs)

/-- Reads eight groups, of which zeros may be left out once. -/
def six? (cs : List Char) : Option (List Nat × List Char) :=
  let (front, endsInBytes, rest) := groups 8 true cs
  if front.length = 8 then some (front, rest)
  else if endsInBytes then none
  else
    match rest with
    | ':' :: ':' :: rest =>
      let (back, _, rest) := groups (7 - front.length) true rest
      some (front ++ List.replicate (8 - front.length - back.length) 0 ++ back, rest)
    | _ => none

/-- Reads a whole text as an address. -/
def read? (s : String) : Option Address :=
  match four? s.toList with
  | some (octets, []) => some (.four octets)
  | _ =>
    match six? s.toList with
    | some (groups, []) => some (.six groups)
    | _ => none

/-! ## Writing -/

/-- Four bytes with points between them. -/
def octetsText (octets : List Nat) : String := ".".intercalate (octets.map toString)

def groupsText (groups : List Nat) : String :=
  ":".intercalate (groups.map fun g => String.ofList (Text.Hex.digits g))

/-- The length of the run of zeros at each position. -/
def zeroRuns : List Nat → List Nat
  | [] => []
  | g :: gs =>
    let rest := zeroRuns gs
    (if g = 0 then rest.headD 0 + 1 else 0) :: rest

/-- Groups with colons between them, the longest run of two or more zeros left out. -/
def compressed (groups : List Nat) : String :=
  let runs := zeroRuns groups
  let longest := runs.foldl max 0
  if longest < 2 then groupsText groups
  else
    let start := runs.findIdx (· = longest)
    groupsText (groups.take start) ++ "::" ++ groupsText (groups.drop (start + longest))

def text : Address → String
  | .four octets => octetsText octets
  | .six groups =>
    match groups with
    | [0, 0, 0, 0, 0, 0xffff, a, b] =>
      "::ffff:" ++ octetsText [a / 256, a % 256, b / 256, b % 256]
    | _ => compressed groups

/-- The text of a port at an address. -/
def withPort (address : Address) (port : Nat) : String :=
  match address with
  | .four _ => address.text ++ ":" ++ toString port
  | .six _ => "[" ++ address.text ++ "]:" ++ toString port

end Address

end ChangeFeed.Net
