import ChangeFeed.Breakdown
import ChangeFeed.Decimal.Digits

/-!
# Durations

A duration in nanoseconds, and its text in the greatest unit that leaves a whole part: `1.5s`,
`250ms`, `7µs`, `0ns`. A duration is kept as a word of seconds and the nanoseconds of a further one,
so sums and multiples may be too long.
-/

namespace ChangeFeed

/-- A span of time in nanoseconds. -/
structure Duration where
  nanos : Nat
  deriving DecidableEq, Inhabited

namespace Duration

def ofMicros (n : Nat) : Duration := ⟨n * 1000⟩

def ofMillis (n : Nat) : Duration := ⟨n * 1000000⟩

def ofSeconds (n : Nat) : Duration := ⟨n * 1000000000⟩

def millis (d : Duration) : Nat := d.nanos / 1000000

/-- The nanoseconds of the longest duration. -/
def greatest : Nat := Nat.pow 2 64 * 1000000000 - 1

def plus (a b : Duration) : Except Breakdown Duration :=
  if a.nanos + b.nanos ≤ greatest then .ok ⟨a.nanos + b.nanos⟩ else .error .longSum

def twice (d : Duration) : Except Breakdown Duration :=
  if 2 * d.nanos ≤ greatest then .ok ⟨2 * d.nanos⟩ else .error .longMultiple

/-- A timer ticks with a period that is not zero. -/
def checkPeriod (d : Duration) : Except Breakdown Unit :=
  if d.nanos = 0 then .error .noPeriod else .ok ()

/-- A count of units of `10 ^ places` nanoseconds; the places after the point end in no zero. -/
def inUnit (nanos places : Nat) (unit : String) : String :=
  let whole := nanos / Nat.pow 10 places
  let fraction := Decimal.digits (Nat.pow 10 places + nanos % Nat.pow 10 places) |>.drop 1
  let fraction := (fraction.reverse.dropWhile (· = '0')).reverse
  let point := if fraction.isEmpty then [] else '.' :: fraction
  String.ofList (Decimal.digits whole ++ point) ++ unit

def text (d : Duration) : String :=
  if Nat.pow 10 9 ≤ d.nanos then inUnit d.nanos 9 "s"
  else if Nat.pow 10 6 ≤ d.nanos then inUnit d.nanos 6 "ms"
  else if Nat.pow 10 3 ≤ d.nanos then inUnit d.nanos 3 "µs"
  else inUnit d.nanos 0 "ns"

end Duration

end ChangeFeed
