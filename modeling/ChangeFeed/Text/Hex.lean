import ChangeFeed.Text.Bytes

/-!
# Hexadecimal digits

Single digits in both cases, numbers of digits, and byte strings of two digits a byte.
-/

namespace ChangeFeed.Text.Hex

/-- The value of a hexadecimal digit in either case. -/
def value? (c : Char) : Option Nat :=
  if '0' ≤ c ∧ c ≤ '9' then some (c.toNat - '0'.toNat)
  else if 'a' ≤ c ∧ c ≤ 'f' then some (c.toNat - 'a'.toNat + 10)
  else if 'A' ≤ c ∧ c ≤ 'F' then some (c.toNat - 'A'.toNat + 10)
  else none

/-- The small digit of a number below 16. -/
def digit (n : Nat) : Char := Nat.digitChar n

/-- The capital digit of a number below 16. -/
def capital (n : Nat) : Char := (digit n).toUpper

/-- The number that a run of digits stands for. -/
def number? (cs : List Char) : Option Nat :=
  cs.foldl (fun acc c => acc.bind fun n => (value? c).map fun d => 16 * n + d) (some 0)

/-- A number in small digits, without leading zeros. -/
def digits (n : Nat) : List Char := Nat.toDigits 16 n

/-- A number in at least `width` small digits. -/
def padded (width n : Nat) : List Char :=
  let ds := digits n
  List.replicate (width - ds.length) '0' ++ ds

/-- The byte string that pairs of digits stand for; a last single digit is left out. -/
def bytes? : List Char → Option Bytes
  | high :: low :: rest => do
    let h ← value? high
    let l ← value? low
    let more ← bytes? rest
    pure ((16 * h + l).toUInt8 :: more)
  | _ => some []

/-- Each byte in two small digits. -/
def ofBytes (bytes : Bytes) : String :=
  String.ofList (bytes.flatMap fun b => [digit (b.toNat / 16), digit (b.toNat % 16)])

end ChangeFeed.Text.Hex
