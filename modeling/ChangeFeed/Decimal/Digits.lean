/-!
# Decimal digits

Reading and writing of whole numbers in decimal digits.

* `natural? cs` reads a non-empty run of ASCII digits, whatever its length.
* `unsigned? bits cs` and `signed? bits cs` read the numbers that fit a word of the given width;
  both take one leading sign `+`, and `signed?` takes `-` as well.
-/

namespace ChangeFeed.Decimal

/-- The value of an ASCII digit. -/
def digit? (c : Char) : Option Nat :=
  if '0' ≤ c ∧ c ≤ '9' then some (c.toNat - '0'.toNat) else none

/-- Whether the character is an ASCII digit. -/
def isDigit (c : Char) : Bool := (digit? c).isSome

/-- The number that `acc` followed by the given digits stands for. -/
def naturalFrom? (acc : Nat) : List Char → Option Nat
  | [] => some acc
  | c :: cs =>
    match digit? c with
    | some d => naturalFrom? (10 * acc + d) cs
    | none => none

/-- Reads a non-empty run of ASCII digits. -/
def natural? : List Char → Option Nat
  | [] => none
  | cs => naturalFrom? 0 cs

/-- Reads a number below `2 ^ bits`; a leading `+` is allowed. -/
def unsigned? (bits : Nat) (cs : List Char) : Option Nat :=
  let digits := match cs with
    | '+' :: rest => rest
    | _ => cs
  (natural? digits).filter (· < Nat.pow 2 bits)

/-- Reads a number of a two's complement word of `bits` bits; a leading sign is allowed. -/
def signed? (bits : Nat) : List Char → Option Int
  | '-' :: cs => ((natural? cs).filter (· ≤ Nat.pow 2 (bits - 1))).map fun n => -(n : Int)
  | '+' :: cs => ((natural? cs).filter (· < Nat.pow 2 (bits - 1))).map Int.ofNat
  | cs => ((natural? cs).filter (· < Nat.pow 2 (bits - 1))).map Int.ofNat

/-- The decimal digits of a natural number, without leading zeros. -/
def digits (n : Nat) : List Char := Nat.toDigits 10 n

end ChangeFeed.Decimal
