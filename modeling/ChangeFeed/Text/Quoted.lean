import ChangeFeed.Text.Invisible
import ChangeFeed.Text.Extending
import ChangeFeed.Text.Hex

/-!
# Quoted text

A text between quotes in which every character is visible: the quote and the backslash are escaped,
line breaks and tabs have names of their own, and any other character without a glyph is written
with its code point.
-/

namespace ChangeFeed.Text

/-- How one character of a quoted text is written. -/
def visible (c : Char) : List Char :=
  if c = '"' then ['\\', '"']
  else if c = '\\' then ['\\', '\\']
  else if c = '\n' then ['\\', 'n']
  else if c = '\r' then ['\\', 'r']
  else if c = '\t' then ['\\', 't']
  else if c.toNat = 0 then ['\\', '0']
  else if ' ' ≤ c ∧ c ≤ '~' then [c]
  else if isExtending c || isInvisible c then
    ['\\', 'u', '\x7b'] ++ Hex.digits c.toNat ++ ['\x7d']
  else [c]

/-- A text between quotes, every character visible. -/
def quoted (s : String) : String := String.ofList ('"' :: (s.toList.flatMap visible ++ ['"']))

end ChangeFeed.Text
