import ChangeFeed.Json.Reader

/-!
# Reading part of a JSON text

Where only some fields of an object matter, the values of the others are skipped: their text must be
JSON, but it may nest to any depth, hold numbers of any size and escape any code unit. A `Shape`
says which fields matter; `Json.readPart?` reads a text in a shape, with null for what was skipped.
-/

namespace ChangeFeed.Json

/-- Which fields of a document matter. -/
inductive Shape where
  /-- Everything matters. -/
  | whole
  /-- An object of which the named fields matter, or a list of their values in this order. -/
  | record (fields : List (String × Shape))
  /-- A list whose items have a shape. -/
  | list (item : Shape)
  deriving Inhabited

namespace Reader

/-- Skips digits, of which there must be one. -/
def skipDigits (cs : List Char) : Option (List Char) :=
  match cs with
  | c :: _ => if Decimal.isDigit c then some (cs.dropWhile Decimal.isDigit) else none
  | [] => none

/-- Skips an optional power of ten. -/
def skipExponent : List Char → Option (List Char)
  | c :: cs =>
    if c = 'e' ∨ c = 'E' then
      match cs with
      | '+' :: rest => skipDigits rest
      | '-' :: rest => skipDigits rest
      | _ => skipDigits cs
    else some (c :: cs)
  | [] => some []

/-- Skips the magnitude of a number. -/
def skipMagnitude (cs : List Char) : Option (List Char) := do
  let rest ← match cs with
    | '0' :: rest =>
      match rest with
      | c :: _ => if Decimal.isDigit c then none else some rest
      | [] => some rest
    | _ => skipDigits cs
  match rest with
  | '.' :: rest => skipExponent (← skipDigits rest)
  | _ => skipExponent rest

/-- Skips a text whose opening quote was read; the fuel is the number of characters left. -/
def skipText : Nat → List Char → Option (List Char)
  | 0, _ => none
  | fuel + 1, cs =>
    match cs with
    | [] => none
    | '"' :: rest => some rest
    | '\\' :: 'u' :: a :: b :: c :: d :: rest =>
      if (Text.Hex.number? [a, b, c, d]).isSome then skipText fuel rest else none
    | '\\' :: c :: rest =>
      if c ∈ ['"', '\\', '/', 'b', 'f', 'n', 'r', 't'] then skipText fuel rest else none
    | c :: rest => if c.toNat < 32 then none else skipText fuel rest

/-- The bracket of a container that was opened. -/
inductive Frame where
  | list | object
  deriving DecidableEq, Inhabited

/-- Skips the key of a field and its colon. -/
def skipKey (cs : List Char) : Option (List Char) :=
  match skip cs with
  | '"' :: rest =>
    match (skipText (rest.length + 1) rest).map skip with
    | some (':' :: rest) => some rest
    | _ => none
  | _ => none

/-- Closes containers that end here, and goes on to the next value if a container goes on. Answers
the open containers and what is left. -/
def skipEnds : List Frame → List Char → Option (List Frame × List Char)
  | [], cs => some ([], cs)
  | frame :: open_, cs =>
    match skip cs with
    | ',' :: rest =>
      match frame with
      | .list => some (frame :: open_, rest)
      | .object => (skipKey rest).map fun rest => (frame :: open_, rest)
    | ']' :: rest => if frame = .list then skipEnds open_ rest else none
    | '\x7d' :: rest => if frame = .object then skipEnds open_ rest else none
    | _ => none

/-- Skips a value inside open containers; the fuel is the number of characters left. -/
def skipValues : Nat → List Frame → List Char → Option (List Char)
  | 0, _, _ => none
  | fuel + 1, open_, cs =>
    let next (scalar : Option (List Char)) : Option (List Char) :=
      match scalar.bind (skipEnds open_) with
      | some ([], rest) => some rest
      | some (open_, rest) => skipValues fuel open_ rest
      | none => none
    let exactly (expected cs : List Char) : Option (List Char) := (word expected cs).toOption
    match skip cs with
    | 'n' :: cs => next (exactly "ull".toList cs)
    | 't' :: cs => next (exactly "rue".toList cs)
    | 'f' :: cs => next (exactly "alse".toList cs)
    | '-' :: cs => next (skipMagnitude cs)
    | '"' :: cs => next (skipText (cs.length + 1) cs)
    | '[' :: cs =>
      match skip cs with
      | ']' :: cs => next (some cs)
      | cs => skipValues fuel (.list :: open_) cs
    | '\x7b' :: cs =>
      match skip cs with
      | '\x7d' :: cs => next (some cs)
      | cs =>
        match skipKey cs with
        | some cs => skipValues fuel (.object :: open_) cs
        | none => none
    | cs => next (skipMagnitude cs)

/-- Skips a value, and reads it as null. -/
def skipped (cs : List Char) : Reading Json :=
  match skipValues (cs.length + 1) [] cs with
  | some rest => .ok (.null, rest)
  | none => stop .expectedValue cs

/-- Reads a document in a shape. -/
def part : Nat → Shape → List Char → Reading Json
  | depth, .whole, cs => value depth cs
  | 0, _, cs => value 0 cs
  | depth + 1, .record fields, cs =>
    match skip cs with
    | '[' :: cs =>
      list (fun position => match fields[position]? with
        | some (_, shape) => part depth shape
        | none => value depth) cs
    | '\x7b' :: cs =>
      object (fun key => match fields.lookup key with
        | some shape => part depth shape
        | none => skipped) cs
    | cs => value depth cs
  | depth + 1, .list item, cs =>
    match skip cs with
    | '[' :: cs => list (fun _ => part depth item) cs
    | cs => value depth cs

end Reader

/-- Reads a text as one document of which only a shape matters. -/
def readPart? (shape : Shape) (source : String) : Option Json :=
  match Reader.part Reader.greatestDepth shape source.toList with
  | .ok (document, rest) => if (Reader.skip rest).isEmpty then some document else none
  | .error _ => none

end ChangeFeed.Json
