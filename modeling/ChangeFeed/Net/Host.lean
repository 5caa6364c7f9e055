import ChangeFeed.Net.Address
import ChangeFeed.Net.Percent
import ChangeFeed.Net.Name

/-!
# Hosts

Where a web address points: a name or an internet address. A name is in its ASCII form. One whose
last part is a number is an address of the fourth version, of which parts may be left out, octal or
hexadecimal.
-/

namespace ChangeFeed.Net

/-- A name or an address. -/
inductive Host where
  | name (s : String)
  | address (a : Address)
  deriving DecidableEq, Inhabited

namespace Host

/-! ## Numeric addresses -/

/-- Reads digits of a base; no digits are zero. -/
def inBase? (base : Nat) (cs : List Char) : Option Nat :=
  cs.foldl (fun acc c => acc.bind fun n =>
    ((Text.Hex.value? c).filter (· < base)).map fun d => base * n + d) (some 0)

/-- Reads a part of a numeric address: hexadecimal after `0x`, octal after `0`, else decimal. -/
def number? : List Char → Option Nat
  | [] => none
  | '0' :: 'x' :: cs => inBase? 16 cs
  | '0' :: 'X' :: cs => inBase? 16 cs
  | '0' :: c :: cs => inBase? 8 (c :: cs)
  | cs => inBase? 10 cs

/-- The parts of a name, without an empty one at the end. -/
def parts (cs : List Char) : List (List Char) :=
  let ps := cs.splitOn '.'
  if ps.getLast? = some [] then ps.dropLast else ps

/-- Whether the last part of a name is a number. -/
def endsInNumber (cs : List Char) : Bool :=
  match (parts cs).getLast? with
  | some p => (!p.isEmpty && p.all Decimal.isDigit) || (number? p).isSome
  | none => false

/-- The four bytes of parts: each but the last is a byte, and the last fills what is left. -/
def octets? (numbers : List Nat) : Option (List Nat) :=
  match numbers.reverse with
  | [] => none
  | last :: front =>
    let left := 4 - front.length
    if 3 < front.length ∨ front.any (255 < ·) ∨ Nat.pow 256 left ≤ last then none
    else
      some (front.reverse ++
        (List.range left).map fun i => last / Nat.pow 256 (left - 1 - i) % 256)

/-! ## Hosts -/

def forbidden : List Char :=
  ['\x00', '\t', '\n', '\r', ' ', '#', '/', ':', '<', '>', '?', '@', '[', '\\', ']', '^', '|']

def bracketed? (cs : List Char) : Option Host :=
  match cs.getLast?, Address.six? cs.dropLast with
  | some ']', some (groups, []) => some (.address (.six groups))
  | _, _ => none

/-- Reads the host of an address of a well-known kind. -/
def read? : List Char → Option Host
  | '[' :: cs => bracketed? cs
  | cs => do
    let name ← Name.ascii? (← Bytes.text? (Percent.decode cs)).toList
    if name.isEmpty then none
    else if endsInNumber name then
      ((parts name).mapM number?).bind octets? |>.map fun bytes => .address (.four bytes)
    else some (.name (String.ofList name))

/-- Reads the host of any other address, which is left as it is. -/
def unchanged? : List Char → Option Host
  | '[' :: cs => bracketed? cs
  | cs =>
    if cs.any forbidden.contains then none
    else some (.name (String.ofList (Percent.encode [] cs)))

def text : Host → String
  | .name s => s
  | .address (.four octets) => Address.octetsText octets
  | .address (.six groups) => "[" ++ Address.compressed groups ++ "]"

end Host

end ChangeFeed.Net
