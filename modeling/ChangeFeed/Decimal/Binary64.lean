import ChangeFeed.Decimal.Digits

/-!
# Decimal text of binary64 numbers

The text of a floating point number is the shortest decimal that reads back as the same number,
and of the shortest ones the nearest. Where two of them are equally near, a `Tie` decides.

* `Binary64.shortest` finds these digits by exact arithmetic: on the grids of 1, 2, … 17 significant
  digits it tries the two neighbours of the number, and the first grid with a neighbour that rounds
  to the number wins.
* `Style` says how the digits are laid out; `Style.render` writes a number in a style.
* `Binary64.read?` reads decimal text with correct rounding.
-/

namespace ChangeFeed.Decimal

namespace Binary64

/-- A finite positive number as `mantissa * 2 ^ exponent`, with the mantissa below `2 ^ 53`. -/
structure Parts where
  mantissa : Nat
  exponent : Int

/-- Whether the sign bit is set. -/
def isNegative (x : Float) : Bool := x.toBits.toNat / Nat.pow 2 63 = 1

/-- The magnitude of a finite number. -/
def parts (x : Float) : Parts :=
  let bits := x.toBits.toNat
  let fraction := bits % Nat.pow 2 52
  let power : Nat := bits / Nat.pow 2 52 % Nat.pow 2 11
  if power = 0 then ⟨fraction, -1074⟩ else ⟨fraction + Nat.pow 2 52, Int.ofNat power - 1075⟩

/-- A decimal `significand * 10 ^ exponent`. -/
structure Scaled where
  significand : Nat
  exponent : Int

/-- `a * 2 ^ i` and `b * 10 ^ j` over a common denominator. -/
def overCommon (a : Nat) (i : Int) (b : Nat) (j : Int) : Nat × Nat :=
  (a * Nat.pow 2 i.toNat * Nat.pow 10 (-j).toNat, b * Nat.pow 10 j.toNat * Nat.pow 2 (-i).toNat)

/-- The exponent `e` with `10 ^ (e - 1) ≤ mantissa * 2 ^ exponent < 10 ^ e`. -/
def decimalExponent (p : Parts) : Int :=
  let num := p.mantissa * Nat.pow 2 p.exponent.toNat
  let den := Nat.pow 2 (-p.exponent).toNat
  if den ≤ num then (digits (num / den)).length
  else
    let places := (digits (den / num)).length
    if num * Nat.pow 10 (places - 1) = den then 2 - places else 1 - places

/-- Whether `n * 10 ^ k` rounds to the number. The interval of the reals that round to it reaches
halfway to both neighbours, and contains its ends exactly if the mantissa is even. -/
def roundsTo (p : Parts) (n : Nat) (k : Int) : Bool :=
  let centre := 4 * p.mantissa
  let lower := if p.mantissa = Nat.pow 2 52 ∧ -1074 < p.exponent then centre - 1 else centre - 2
  let upper := centre + 2
  let (low, atLow) := overCommon lower (p.exponent - 2) n k
  let (high, atHigh) := overCommon upper (p.exponent - 2) n k
  if p.mantissa % 2 = 0 then low ≤ atLow ∧ atHigh ≤ high else low < atLow ∧ atHigh < high

/-- Which of two equally near decimals is meant. -/
inductive Tie where
  /-- The one with the even last digit. -/
  | even
  /-- The one of greater magnitude. -/
  | away
  deriving DecidableEq, Inhabited

/-- Of two neighbouring grid points the nearer to the number. -/
def nearer (tie : Tie) (p : Parts) (n : Nat) (k : Int) : Nat :=
  let (twice, sum) := overCommon (2 * p.mantissa) p.exponent (2 * n + 1) k
  if twice < sum then n
  else if sum < twice then n + 1
  else
    match tie with
    | .even => n + n % 2
    | .away => n + 1

/-- The point of the grid `10 ^ k` to print, if a neighbour of the number on it rounds to it. -/
def onGrid? (tie : Tie) (p : Parts) (k : Int) : Option Nat :=
  let (num, den) := overCommon p.mantissa p.exponent 1 k
  let n := num / den
  match roundsTo p n k, roundsTo p (n + 1) k with
  | true, true => some (nearer tie p n k)
  | true, false => some n
  | false, true => some (n + 1)
  | false, false => none

/-- The shortest decimal that reads back as the number. Seventeen digits always suffice. -/
def shortest (tie : Tie) (p : Parts) : Scaled :=
  let e := decimalExponent p
  let hit := (List.range 17).findSome? fun (i : Nat) =>
    let k := e - 1 - Int.ofNat i
    (onGrid? tie p k).map fun n => Scaled.mk n k
  let s := hit.getD ⟨0, 0⟩
  -- a carry to a power of ten leaves zeros behind
  let zeros := ((digits s.significand).reverse.takeWhile (· = '0')).length
  ⟨s.significand / Nat.pow 10 zeros, s.exponent + zeros⟩

/-- The value of `significand * 10 ^ exponent`, rounded to the nearest number. -/
def ofScaled (significand : Nat) (exponent : Int) : Float :=
  let size := (digits significand).length
  if significand = 0 then 0
  else if exponent + size > 310 then 1 / 0
  else if exponent + size < -330 then 0
  else Float.ofScientific significand (exponent < 0) exponent.natAbs

/-- Reads digits with an optional point and an optional power of ten. -/
def unsigned? (cs : List Char) : Option Float :=
  let whole := cs.takeWhile isDigit
  let afterWhole := cs.dropWhile isDigit
  let (fraction, afterFraction) := match afterWhole with
    | '.' :: rest => (rest.takeWhile isDigit, rest.dropWhile isDigit)
    | rest => ([], rest)
  match natural? (whole ++ fraction) with
  | none => none
  | some significand =>
    let shift : Int := -fraction.length
    let power? : Option Int := match afterFraction with
      | [] => some 0
      | c :: rest =>
        if c = 'e' ∨ c = 'E' then
          match rest with
          | '-' :: r => (natural? r).map fun n => -(n : Int)
          | '+' :: r => (natural? r).map Int.ofNat
          | r => (natural? r).map Int.ofNat
        else none
    power?.map fun power => ofScaled significand (power + shift)

/-- Reads the decimal text of a number: an optional sign, then digits with at most one point and an
optional power of ten, or one of the words `inf`, `infinity` and `nan` in any case. -/
def read? (cs : List Char) : Option Float :=
  let magnitude? (cs : List Char) : Option Float :=
    let word := String.ofList (cs.map Char.toLower)
    if word = "inf" ∨ word = "infinity" then some (1 / 0)
    else if word = "nan" then some (0 / 0)
    else unsigned? cs
  match cs with
  | '-' :: rest => (magnitude? rest).map (- ·)
  | '+' :: rest => magnitude? rest
  | _ => magnitude? cs

end Binary64

/-- How the shortest digits of a number are laid out. -/
structure Style where
  /-- The least and the greatest power of ten of a leading digit that is written without an
  exponent; `none` writes every number without one. -/
  plain : Option (Int × Int)
  /-- Whether a whole number without exponent ends in `.0`. -/
  point : Bool
  /-- Which of two equally near decimals is written. -/
  tie : Binary64.Tie

namespace Style

/-- Lays out digits with the given position of the decimal point, counted from their start. -/
def plainText (style : Style) (ds : List Char) (position : Int) : List Char :=
  if position ≤ 0 then '0' :: '.' :: (List.replicate (-position).toNat '0' ++ ds)
  else if ds.length ≤ position then
    ds ++ List.replicate (position.toNat - ds.length) '0' ++
      (if style.point then ['.', '0'] else [])
  else ds.take position.toNat ++ '.' :: ds.drop position.toNat

/-- Lays out digits with an exponent, which always has a sign. -/
def exponentText (ds : List Char) (position : Int) : List Char :=
  let power := position - 1
  let mantissa := match ds with
    | d :: e :: rest => d :: '.' :: e :: rest
    | _ => ds
  mantissa ++ 'e' :: (if power < 0 then '-' else '+') :: digits power.natAbs

/-- The text of the magnitude of a finite number. -/
def magnitude (style : Style) (x : Float) : List Char :=
  let p := Binary64.parts x
  if p.mantissa = 0 then '0' :: (if style.point then ['.', '0'] else [])
  else
    let s := Binary64.shortest style.tie p
    let ds := digits s.significand
    let position := s.exponent + ds.length
    match style.plain with
    | none => style.plainText ds position
    | some (least, greatest) =>
      if least ≤ position - 1 ∧ position - 1 ≤ greatest then style.plainText ds position
      else exponentText ds position

def render (style : Style) (x : Float) : String :=
  if x.isNaN then "NaN"
  else
    let sign := if Binary64.isNegative x then ['-'] else []
    if x.isInf then String.ofList (sign ++ ['i', 'n', 'f'])
    else String.ofList (sign ++ style.magnitude x)

end Style

end ChangeFeed.Decimal
