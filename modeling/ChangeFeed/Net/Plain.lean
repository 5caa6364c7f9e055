import ChangeFeed.Net.Plain.Letters
import ChangeFeed.Net.Plain.Symbols
import ChangeFeed.Net.Plain.Ideographs
import ChangeFeed.Net.Plain.Forms
import ChangeFeed.Net.Plain.Supplement
import ChangeFeed.Net.Plain.Compatibility
import ChangeFeed.Text.Blank
import ChangeFeed.Text.Invisible
import ChangeFeed.Text.Lower

/-!
# Plain texts of characters

In the name of a host a capital stands for its small letter, and a ligature, a letter of another
width or a letter in a circle stands for its plain letters. `Plain.of?` gives the text that a
character stands for: itself, another text, nothing at all for a character that is passed over, or
none for a character that no name holds.
-/

namespace ChangeFeed.Net.Plain

open Text

def ignored : Ranges := [
  (0xad, 0xad), (0x34f, 0x34f), (0x115f, 0x1160), (0x17b4, 0x17b5), (0x180b, 0x180f),
  (0x200b, 0x200b), (0x2060, 0x2064), (0x206a, 0x206f), (0x3164, 0x3164), (0xfe00, 0xfe0f),
  (0xfeff, 0xfeff), (0xffa0, 0xffa0), (0x1bca0, 0x1bca3), (0x1d173, 0x1d17a), (0xe0100, 0xe01ef)]

/-- Visible characters that no name holds: their plain texts have dots or blanks, or they describe
how characters are put together. -/
def refused : Ranges := [
  (0xa8, 0xa8), (0xaf, 0xaf), (0xb4, 0xb4), (0xb8, 0xb8), (0x2d8, 0x2dd), (0x37a, 0x37a),
  (0x384, 0x385), (0x1fbd, 0x1fbd), (0x1fbf, 0x1fc1), (0x1fcd, 0x1fcf), (0x1fdd, 0x1fdf),
  (0x1fed, 0x1fee), (0x1ffd, 0x1ffe), (0x2017, 0x2017), (0x2024, 0x2026), (0x203e, 0x203e),
  (0x2488, 0x249b), (0x2ff0, 0x2fff), (0x309b, 0x309c), (0x31ef, 0x31ef), (0x33c2, 0x33c2),
  (0x33c7, 0x33c7), (0x33d8, 0x33d8), (0xfc5e, 0xfc63), (0xfdfa, 0xfdfb), (0xfe12, 0xfe12),
  (0xfe19, 0xfe19), (0xfe30, 0xfe30), (0xfe49, 0xfe4c), (0xfe52, 0xfe52), (0xfe70, 0xfe70),
  (0xfe72, 0xfe72), (0xfe74, 0xfe74), (0xfe76, 0xfe76), (0xfe78, 0xfe78), (0xfe7a, 0xfe7a),
  (0xfe7c, 0xfe7c), (0xfe7e, 0xfe7e), (0xffe3, 0xffe3), (0xfffc, 0xfffd), (0x1f100, 0x1f100)]

def keptCapitals : Ranges := [(0x13a0, 0x13f5)]

/-- The characters that have another plain text, other than capitals. -/
def runs : List (Nat × String) :=
  letters ++ symbols ++ ideographs ++ forms ++ supplement ++ compatibility

/-- The plain text that the tables have for a character. -/
def listed? (c : Char) : Option (List Char) := do
  let (first, texts) ← (runs.filter fun run => run.1 ≤ c.toNat).getLast?
  let text ← (splitOn ' ' texts)[c.toNat - first]?
  pure text.toList

/-- The text that a character stands for. -/
def of? (c : Char) : Option (List Char) :=
  if c.toNat < 0x80 then some [c.toLower]
  else if within ignored c then some []
  else if c.toNat = 0x200c ∨ c.toNat = 0x200d then some [c]
  else if within refused c || isInvisible c then none
  else some ((listed? c).getD [if within keptCapitals c then c else lowerChar c])

end ChangeFeed.Net.Plain
