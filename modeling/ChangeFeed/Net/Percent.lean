import ChangeFeed.Text.Hex

/-!
# Percent encoding

In a web address a character that may not stand for itself is written as its UTF-8 bytes, each as a
percent sign and two hexadecimal digits. Which characters those are depends on the part of the
address; controls and everything outside of ASCII are among them everywhere.

* `encode` writes such a part, and `decode` reads it back as bytes.
* `form` writes a name or a value of a query, where a space is a plus sign.
-/

namespace ChangeFeed.Net.Percent

/-- A byte as a percent sign and two digits. -/
def triple (b : UInt8) : List Char :=
  ['%', Text.Hex.capital (b.toNat / 16), Text.Hex.capital (b.toNat % 16)]

/-- A character as the triples of its bytes. -/
def escape (c : Char) : List Char := (Bytes.ofText (String.singleton c)).flatMap triple

/-- Whether a character is a control or lies outside of ASCII. -/
def isOutside (c : Char) : Bool := c.toNat < 0x20 || 0x7e < c.toNat

/-- Writes a part of an address in which the given characters do not stand for themselves. -/
def encode (reserved : List Char) (cs : List Char) : List Char :=
  cs.flatMap fun c => if isOutside c || reserved.contains c then escape c else [c]

/-- What does not stand for itself in a fragment. -/
def fragmentSet : List Char := [' ', '"', '<', '>', '\x60']

/-- What does not stand for itself in a path. -/
def pathSet : List Char := fragmentSet ++ ['#', '?', '\x7b', '\x7d']

/-- What does not stand for itself in a query. -/
def querySet : List Char := [' ', '"', '#', '<', '>']

/-- The bytes of a text in which triples stand for bytes. A percent sign without two digits after it
stands for itself. -/
def decode : List Char → Bytes
  | [] => []
  | '%' :: high :: low :: rest =>
    match Text.Hex.value? high, Text.Hex.value? low with
    | some h, some l => (16 * h + l).toUInt8 :: decode rest
    | _, _ => 0x25 :: decode (high :: low :: rest)
  | c :: rest => Bytes.ofText (String.singleton c) ++ decode rest

/-- Whether a character stands for itself in a name or a value of a query. -/
def isPlain (c : Char) : Bool := c.isAlphanum || c = '*' || c = '-' || c = '.' || c = '_'

/-- Writes a name or a value of a query. -/
def form (s : String) : List Char :=
  s.toList.flatMap fun c => if isPlain c then [c] else if c = ' ' then ['+'] else escape c

/-- Writes pairs of names and values as a query. -/
def pairs (ps : List (String × String)) : List Char :=
  ['&'].intercalate (ps.map fun (name, value) => form name ++ '=' :: form value)

end ChangeFeed.Net.Percent
