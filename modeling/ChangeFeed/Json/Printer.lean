import ChangeFeed.Json.Value
import ChangeFeed.Text.Hex
import ChangeFeed.Decimal.Binary64

/-!
# Compact JSON text

`Json.compact` writes a document without blanks. Text is written as it is, save for the quote, the
backslash and the control characters below the blank.
-/

namespace ChangeFeed.Json

/-- Floating point numbers: plain from `1e-5` to below `1e16`, whole ones with `.0`. -/
def floatStyle : Decimal.Style := ⟨some (-5, 15), true, .even⟩

/-- How one character of a text is written. -/
def escapeChar (c : Char) : List Char :=
  if c = '"' then ['\\', '"']
  else if c = '\\' then ['\\', '\\']
  else if c.toNat = 8 then ['\\', 'b']
  else if c.toNat = 9 then ['\\', 't']
  else if c.toNat = 10 then ['\\', 'n']
  else if c.toNat = 12 then ['\\', 'f']
  else if c.toNat = 13 then ['\\', 'r']
  else if c.toNat < 32 then '\\' :: 'u' :: Text.Hex.padded 4 c.toNat
  else [c]

def quote (s : String) : List Char := '"' :: (s.toList.flatMap escapeChar ++ ['"'])

/-- The text of a number; one that is not finite is written as null. -/
def Number.characters : Number → List Char
  | .natural n => Decimal.digits n
  | .negative n => '-' :: Decimal.digits n.natAbs
  | .float x => if x.isNaN || x.isInf then "null".toList else (floatStyle.render x).toList

/-- The characters of a document's compact text. -/
def characters : Json → List Char
  | .null => ['n', 'u', 'l', 'l']
  | .bool true => ['t', 'r', 'u', 'e']
  | .bool false => ['f', 'a', 'l', 's', 'e']
  | .number n => n.characters
  | .string s => quote s
  | .array xs => '[' :: items xs
  | .object fs => '\x7b' :: fields fs
where
  items : List Json → List Char
    | [] => [']']
    | [x] => characters x ++ [']']
    | x :: xs => characters x ++ ',' :: items xs
  fields : List (String × Json) → List Char
    | [] => ['\x7d']
    | [(key, x)] => quote key ++ ':' :: (characters x ++ ['\x7d'])
    | (key, x) :: rest => quote key ++ ':' :: (characters x ++ ',' :: fields rest)

/-- The compact text of a document. -/
def compact (document : Json) : String := String.ofList document.characters

/-- The bytes of a document's compact text. -/
def payload (document : Json) : Bytes := Bytes.ofText document.compact

end ChangeFeed.Json
