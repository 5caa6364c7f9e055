import ChangeFeed.Text.Bytes

/-!
# Texts of any bytes

`Text.replaced` reads a byte string as UTF-8 and puts the replacement character in the place of
every longest run of bytes that begins a character and does not end it.
-/

namespace ChangeFeed.Text

/-- A character under way: how many bytes are missing, between which bounds the next one must be,
and the number that the bytes so far stand for. -/
structure Partial where
  missing : Nat
  least : Nat
  greatest : Nat
  value : Nat
  deriving DecidableEq, Inhabited

/-- What a byte begins: a whole character, a character under way, or none. -/
inductive Lead where
  | whole (c : Char)
  | part (p : Partial)
  | none
  deriving DecidableEq, Inhabited

/-- What a byte begins. The bounds of the second byte leave out overlong forms, surrogates and
numbers past the last character. -/
def lead (b : UInt8) : Lead :=
  let n := b.toNat
  if n < 0x80 then .whole (Char.ofNat n)
  else if n < 0xc2 then .none
  else if n < 0xe0 then .part ⟨1, 0x80, 0xbf, n - 0xc0⟩
  else if n < 0xf0 then
    .part ⟨2, if n = 0xe0 then 0xa0 else 0x80, if n = 0xed then 0x9f else 0xbf, n - 0xe0⟩
  else if n < 0xf5 then
    .part ⟨3, if n = 0xf0 then 0x90 else 0x80, if n = 0xf4 then 0x8f else 0xbf, n - 0xf0⟩
  else .none

def replacement : Char := Char.ofNat 0xfffd

/-- Reads on from a character under way, if there is one. -/
def replacedFrom : Option Partial → List UInt8 → List Char
  | none, [] => []
  | some _, [] => [replacement]
  | some p, b :: rest =>
    if p.least ≤ b.toNat ∧ b.toNat ≤ p.greatest then
      let value := 64 * p.value + (b.toNat - 0x80)
      if p.missing ≤ 1 then Char.ofNat value :: replacedFrom none rest
      else replacedFrom (some ⟨p.missing - 1, 0x80, 0xbf, value⟩) rest
    else
      match lead b with
      | .whole c => replacement :: c :: replacedFrom none rest
      | .part q => replacement :: replacedFrom (some q) rest
      | .none => replacement :: replacement :: replacedFrom none rest
  | none, b :: rest =>
    match lead b with
    | .whole c => c :: replacedFrom none rest
    | .part q => replacedFrom (some q) rest
    | .none => replacement :: replacedFrom none rest

/-- The text of a byte string. -/
def replaced (bytes : Bytes) : String := String.ofList (replacedFrom none bytes)

end ChangeFeed.Text
