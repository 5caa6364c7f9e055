import ChangeFeed.Decimal.Digits

/-!
# Dates and times in TOML

Reads a date, a time of day, or both, with an optional distance from universal time, and gives its
normal text: a `T` between date and time, fractions of a second without trailing zeros, and no more
than nine places of them.

* `Moment.read` reads what stands for itself in a document.
* `Moment.ofText?` reads a whole text, in which a day may have an hour 24.
-/

namespace ChangeFeed.Toml

namespace Moment

/-- Reads a number of exactly `count` digits within bounds. -/
def number (count least greatest : Nat) (cs : List Char) : Option (Nat × List Char) :=
  let ds := cs.take count
  if ds.length = count ∧ ds.all Decimal.isDigit then
    ((Decimal.natural? ds).filter fun n => least ≤ n && n ≤ greatest).map fun n =>
      (n, cs.drop count)
  else none

def char (c : Char) : List Char → Option (List Char)
  | x :: cs => if x = c then some cs else none
  | [] => none

/-- A number with leading zeros up to a width. -/
def padded (width n : Nat) : List Char :=
  let ds := Decimal.digits n
  List.replicate (width - ds.length) '0' ++ ds

/-- The number of days of a month. -/
def daysOf (year month : Nat) : Nat :=
  if month = 2 then
    if year % 4 = 0 ∧ (year % 100 ≠ 0 ∨ year % 400 = 0) then 29 else 28
  else if month ∈ [4, 6, 9, 11] then 30 else 31

def date (cs : List Char) : Option (List Char × List Char) := do
  let (year, cs) ← number 4 0 9999 cs
  let cs ← char '-' cs
  let (month, cs) ← number 2 1 12 cs
  let cs ← char '-' cs
  let (day, cs) ← number 2 1 (daysOf year month) cs
  pure (padded 4 year ++ '-' :: padded 2 month ++ '-' :: padded 2 day, cs)

/-- Reads the places of a second, of which nine count. -/
def places (cs : List Char) : List Char × List Char :=
  match cs with
  | '.' :: rest =>
    let ds := rest.takeWhile Decimal.isDigit
    if ds.isEmpty then ([], cs)
    else
      let kept := ((ds.take 9).reverse.dropWhile (· = '0')).reverse
      (if kept.isEmpty then [] else '.' :: kept, rest.drop ds.length)
  | _ => ([], cs)

/-- Reads a time of day with an hour up to the given one. -/
def time (lastHour : Nat) (cs : List Char) : Option (List Char × List Char) := do
  let (hour, cs) ← number 2 0 lastHour cs
  let cs ← char ':' cs
  let (minute, cs) ← number 2 0 59 cs
  let cs ← char ':' cs
  let (second, cs) ← number 2 0 60 cs
  let (fraction, cs) := places cs
  pure (padded 2 hour ++ ':' :: padded 2 minute ++ ':' :: padded 2 second ++ fraction, cs)

/-- Reads a distance from universal time, if there is one. -/
def offset (cs : List Char) : Option (List Char × List Char) :=
  let signed (sign : Char) (cs : List Char) : Option (List Char × List Char) := do
    let (hour, cs) ← number 2 0 23 cs
    let cs ← char ':' cs
    let (minute, cs) ← number 2 0 59 cs
    let sign := if hour = 0 ∧ minute = 0 then '+' else sign
    pure (sign :: padded 2 hour ++ ':' :: padded 2 minute, cs)
  match cs with
  | 'Z' :: rest => some (['Z'], rest)
  | 'z' :: rest => some (['Z'], rest)
  | '+' :: rest => signed '+' rest
  | '-' :: rest => signed '-' rest
  | _ => some ([], cs)

/-- Whether a date stands here, as far as its year and first dash tell. -/
def startsDate (cs : List Char) : Bool :=
  ((number 4 0 9999 cs).bind fun r => char '-' r.2).isSome

/-- Whether a time stands here, as far as its hour and first colon tell. -/
def startsTime (cs : List Char) : Bool :=
  ((number 2 0 23 cs).bind fun r => char ':' r.2).isSome

/-- Reads a moment that starts as one. -/
def read (cs : List Char) : Option (String × List Char) :=
  if startsDate cs then do
    let (day, cs) ← date cs
    match cs with
    | c :: rest =>
      if (c = 'T' ∨ c = 't' ∨ c = ' ') ∧ startsTime rest then do
        let (clock, cs) ← time 23 rest
        let (zone, cs) ← offset cs
        pure (String.ofList (day ++ 'T' :: clock ++ zone), cs)
      else pure (String.ofList day, cs)
    | [] => pure (String.ofList day, cs)
  else (time 23 cs).map fun (clock, cs) => (String.ofList clock, cs)

/-! ## Whole texts -/

/-- A number of minutes after universal time. -/
def minutesText (sign : Char) (minutes : Nat) : List Char :=
  (if minutes = 0 then '+' else sign) :: padded 2 (minutes / 60) ++ ':' :: padded 2 (minutes % 60)

/-- Reads a distance of at most a day from universal time, of which the minutes may be more than an
hour. -/
def wholeOffset? : List Char → Option (List Char)
  | [] => some []
  | ['Z'] => some ['Z']
  | ['z'] => some ['Z']
  | sign :: cs => do
    if sign ≠ '+' ∧ sign ≠ '-' then none
    else
      let (hours, cs) ← number 2 0 99 cs
      let cs ← char ':' cs
      let (minutes, cs) ← number 2 0 99 cs
      let total := 60 * hours + minutes
      if cs = [] ∧ total ≤ 24 * 60 then some (minutesText sign total) else none

def ofText? (s : String) : Option String :=
  let cs := s.toList
  if cs[2]? = some ':' then
    match time 24 cs with
    | some (clock, []) => some (String.ofList clock)
    | _ => none
  else do
    let (day, cs) ← date cs
    match cs with
    | [] => pure (String.ofList day)
    | c :: rest =>
      if c = 'T' ∨ c = 't' ∨ c = ' ' then
        let (clock, cs) ← time 24 rest
        let zone ← wholeOffset? cs
        pure (String.ofList (day ++ 'T' :: clock ++ zone))
      else none

end Moment

end ChangeFeed.Toml
