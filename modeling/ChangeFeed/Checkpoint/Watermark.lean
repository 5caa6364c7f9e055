import ChangeFeed.Text.Bytes
import ChangeFeed.Decimal.Digits

/-!
# Watermarks as text

A watermark is the highest change index whose changes have been handed on. A checkpoint holds it as
decimal text; `decode` also takes leading zeros and one leading `+`.
-/

namespace ChangeFeed.Watermark

/-- The decimal text of a watermark. -/
def encode (watermark : Nat) : Bytes := Bytes.ofAscii (Decimal.digits watermark)

/-- Reads decimal text below `2 ^ 64`. -/
def decode (raw : Bytes) : Option Nat := Decimal.unsigned? 64 (raw.map fun b => Char.ofNat b.toNat)

end ChangeFeed.Watermark
