import ChangeFeed.Decimal.Digits

/-!
# Punycode

A label of a domain name in ASCII characters: first the ASCII characters of the label, then, after a
hyphen, where the others go. They are added in the order of their code points; a number says how
many places were passed over since the last one, with digits of 36 values whose threshold adapts to
the numbers so far. `encode` writes a label, and `decode?` reads it back.
-/

namespace ChangeFeed.Net.Punycode

/-- The digit of a value below 36: letters, then numerals. -/
def digit (n : Nat) : Char := if n < 26 then Char.ofNat (97 + n) else Char.ofNat (22 + n)

/-- The threshold of the digit at a position that grows by 36. -/
def threshold (bias k : Nat) : Nat := max 1 (min 26 (k - bias))

theorem threshold_le (bias k : Nat) : threshold bias k ≤ 26 := by unfold threshold; omega

theorem one_le_threshold (bias k : Nat) : 1 ≤ threshold bias k := by unfold threshold; omega

/-- The digits of a number; a digit below its threshold is the last one. -/
def number (bias k q : Nat) : List Char :=
  let t := threshold bias k
  if q < t then [digit q]
  else digit (t + (q - t) % (36 - t)) :: number bias (k + 36) ((q - t) / (36 - t))
termination_by q
decreasing_by
  have h1 := one_le_threshold bias k
  have h2 := threshold_le bias k
  have h3 : (q - threshold bias k) / (36 - threshold bias k) ≤ q - threshold bias k :=
    Nat.div_le_self _ _
  omega

/-- Divides until a number is small enough; answers how often that took and what is left. -/
def reduce (k delta : Nat) : Nat × Nat :=
  if delta ≤ 455 then (k, delta) else reduce (k + 36) (delta / 35)
termination_by delta

/-- The bias after a number was written, when `count` characters are in place. -/
def adapt (first : Bool) (delta count : Nat) : Nat :=
  let delta := if first then delta / 700 else delta / 2
  let (k, delta) := reduce 0 (delta + delta / count)
  k + 36 * delta / (delta + 38)

/-- What has been written so far. -/
structure Progress where
  /-- The places passed over since the last added character. -/
  delta : Nat
  bias : Nat
  /-- The characters in place. -/
  count : Nat
  first : Bool
  output : List Char

/-- Passes over one character of the label while the code point `n` is added. -/
def Progress.pass (n : Nat) (p : Progress) (c : Char) : Progress :=
  if c.toNat < n then { p with delta := p.delta + 1 }
  else if c.toNat = n then
    ⟨0, adapt p.first p.delta (p.count + 1), p.count + 1, false,
      p.output ++ number p.bias 36 p.delta⟩
  else p

/-- Adds the given code points, in their order; all those below `n` are in place. -/
def add (label : List Char) : Nat → List Nat → Progress → Progress
  | _, [], p => p
  | n, m :: ms, p =>
    let p := label.foldl (Progress.pass m) { p with delta := p.delta + (m - n) * (p.count + 1) }
    add label (m + 1) ms { p with delta := p.delta + 1 }

/-- Puts a code point into an ascending list without repetition. -/
def insert (n : Nat) : List Nat → List Nat
  | [] => [n]
  | m :: ms => if n < m then n :: m :: ms else if n = m then m :: ms else m :: insert n ms

def encode (label : List Char) : List Char :=
  let basic := label.filter fun c => c.toNat < 0x80
  let others := (label.filter fun c => 0x80 ≤ c.toNat).foldl (fun ns c => insert c.toNat ns) []
  let start := if basic.isEmpty then [] else basic ++ ['-']
  (add label 0x80 others ⟨0, 72, basic.length, true, start⟩).output

/-! ## Reading -/

def value? (c : Char) : Option Nat :=
  if c.isAlpha then some (c.toLower.toNat - 97) else (Decimal.digit? c).map (26 + ·)

/-- Keeps a number within a word of 32 bits. -/
def word? (n : Nat) : Option Nat := if n < UInt32.size then some n else none

/-- Reads the digits of a number and adds it to `sum`; answers the sum and what follows. -/
def readNumber? (bias : Nat) : Nat → Nat → Nat → List Char → Option (Nat × List Char)
  | _, _, _, [] => none
  | k, weight, sum, c :: cs => do
    let d ← value? c
    let sum ← word? (sum + (← word? (d * weight)))
    let t := threshold bias k
    if d < t then pure (sum, cs)
    else readNumber? bias (k + 36) (← word? (weight * (36 - t))) sum cs

/-- Puts characters into a label as the numbers say. `i` is the place of the last one, and `n` its
code point; the fuel is the number of characters that are left. -/
def place? (bias n i : Nat) (label : List Char) : Nat → List Char → Option (List Char)
  | _, [] => some label
  | 0, _ => none
  | fuel + 1, cs => do
    let (sum, rest) ← readNumber? bias 36 1 i cs
    let count := label.length + 1
    let n ← word? (n + sum / count)
    let j := sum % count
    if n.isValidChar then
      place? (adapt (i = 0) (sum - i) count) n (j + 1)
        (label.take j ++ Char.ofNat n :: label.drop j) fuel rest
    else none

def decode? (cs : List Char) : Option (List Char) :=
  let digits := (cs.reverse.takeWhile (· ≠ '-')).reverse
  let basic := cs.take (cs.length - digits.length - 1)
  if basic.isEmpty then place? 72 0x80 0 [] cs.length cs
  else place? 72 0x80 0 basic digits.length digits

end ChangeFeed.Net.Punycode
