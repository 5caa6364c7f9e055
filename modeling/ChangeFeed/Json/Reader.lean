import ChangeFeed.Json.Value
import ChangeFeed.Json.Fault
import ChangeFeed.Text.Hex
import ChangeFeed.Decimal.Digits

/-!
# Reading JSON text

`Json.read` reads a whole text as one document, with its fields as written, and `Json.parse` gives
the value that the document stands for. A text that is not JSON has a `Fault`.

Every reader here takes the characters that are left and answers what it read with the characters
that follow. A container takes the reader of its elements as an argument, so that the nesting
depth alone bounds the recursion; inside a container the number of characters left bounds the loop.
-/

namespace ChangeFeed.Json.Reader

/-- Why reading stopped: the flaw, the characters that were left, and how many bytes of them had
been looked at. -/
structure Stop where
  flaw : Flaw
  rest : List Char
  ahead : Nat
  deriving Inhabited

/-- What reading some characters gives: a value with the characters that follow, or a stop. -/
abbrev Reading (α : Type) := Except Stop (α × List Char)

/-- Stops before the characters that are left. -/
def stop {α : Type} (flaw : Flaw) (rest : List Char) : Except Stop α := .error ⟨flaw, rest, 0⟩

/-- Stops at the first byte that is left, if any. -/
def stopAt {α : Type} (flaw : Flaw) (rest : List Char) : Except Stop α :=
  .error ⟨flaw, rest, if rest.isEmpty then 0 else 1⟩

/-- Whether a character may stand between tokens. -/
def isSpace (c : Char) : Bool := c = ' ' || c = '\n' || c = '\t' || c = '\r'

/-- The characters from the next token on. -/
def skip (cs : List Char) : List Char := cs.dropWhile isSpace

def word : List Char → List Char → Except Stop (List Char)
  | [], cs => .ok cs
  | _ :: _, [] => stop .endInValue []
  | e :: es, c :: cs => if c = e then word es cs else stopAt .expectedWord (c :: cs)

/-! ## Numbers -/

/-- The greatest exponent of ten that is a factor of its own. -/
def greatestPower : Nat := 308

/-- A power of ten, correctly rounded. -/
def powerOfTen (n : Nat) : Float := Float.ofScientific 1 false n

/-- Multiplies by a power of ten in one step, or divides in steps of at most `greatestPower`.
The result is none if it is too large. -/
def scale (x : Float) (exponent : Int) : Option Float :=
  if 0 ≤ exponent then
    if exponent ≤ greatestPower then
      let y := x * powerOfTen exponent.toNat
      if y.isInf then none else some y
    else if x == 0 then some x else none
  else some (shrink ((-exponent).toNat / greatestPower + 1) x (-exponent).toNat)
where
  shrink : Nat → Float → Nat → Float
    | 0, x, _ => x
    | steps + 1, x, n =>
      if n ≤ greatestPower then x / powerOfTen n
      else if x == 0 then x
      else shrink steps (x / powerOfTen greatestPower) (n - greatestPower)

/-- The number `significand * 10 ^ exponent` with a sign. -/
def scaled (positive : Bool) (significand : Nat) (exponent : Int) (rest : List Char) :
    Reading Number :=
  match scale (Float.ofNat significand) exponent with
  | none => stop .numberOutOfRange rest
  | some x => .ok (.float (if positive then x else -x), rest)

/-- The digits of an exponent that still fit a signed word of 32 bits, or none, and what follows
the digits that were looked at. -/
def exponentDigits : Nat → List Char → Option Nat × List Char
  | n, c :: cs =>
    match Decimal.digit? c with
    | some d => if Nat.pow 2 31 ≤ 10 * n + d then (none, cs) else exponentDigits (10 * n + d) cs
    | none => (some n, c :: cs)
  | n, [] => (some n, [])

/-- Keeps an exponent within a signed word of 32 bits. -/
def clamp (n : Int) : Int := max (-2147483648) (min 2147483647 n)

/-- Reads the digits of an exponent whose sign has been read. -/
def exponentAfterSign (positive : Bool) (significand : Nat) (start : Int) (up : Bool) :
    List Char → Reading Number
  | [] => stop .endInValue []
  | c :: rest =>
    match Decimal.digit? c with
    | none => stopAt .invalidNumber (c :: rest)
    | some d =>
      match exponentDigits d rest with
      | (some n, rest) =>
        scaled positive significand (clamp (if up then start + n else start - n)) rest
      | (none, rest) =>
        if significand ≠ 0 ∧ up then stop .numberOutOfRange rest
        else .ok (.float (if positive then 0 else -0.0), rest.dropWhile Decimal.isDigit)

/-- Reads what follows the letter of an exponent. -/
def exponent (positive : Bool) (significand : Nat) (start : Int) : List Char → Reading Number
  | '+' :: cs => exponentAfterSign positive significand start true cs
  | '-' :: cs => exponentAfterSign positive significand start false cs
  | cs => exponentAfterSign positive significand start true cs

def optionalExponent (positive : Bool) (significand : Nat) (start : Int) :
    List Char → Reading Number
  | 'e' :: cs => exponent positive significand start cs
  | 'E' :: cs => exponent positive significand start cs
  | cs => scaled positive significand start cs

/-- Adds digits to a significand as long as it stays below `2 ^ 64`; answers the significand, the
number of digits added and what follows them. -/
def growSignificand : Nat → Nat → List Char → Nat × Nat × List Char
  | n, count, c :: cs =>
    match Decimal.digit? c with
    | some d =>
      if 10 * n + d < UInt64.size then growSignificand (10 * n + d) (count + 1) cs
      else (n, count, c :: cs)
    | none => (n, count, c :: cs)
  | n, count, [] => (n, count, [])

/-- Reads the places after a point. Digits beyond the greatest significand are dropped. -/
def places (positive : Bool) (significand : Nat) (dropped : Nat) (cs : List Char) :
    Reading Number :=
  let (significand, count, rest) := growSignificand significand 0 cs
  let start : Int := dropped - count
  let startsWithDigit := match rest with
    | c :: _ => Decimal.isDigit c
    | [] => false
  if startsWithDigit then
    optionalExponent positive significand start (rest.dropWhile Decimal.isDigit)
  else if count = 0 then
    match rest with
    | [] => stop .endInValue []
    | _ => stopAt .invalidNumber rest
  else optionalExponent positive significand start rest

/-- Reads what follows the whole digits of a number; `dropped` digits of them did not fit the
significand. -/
def afterWhole (positive : Bool) (significand dropped : Nat) : List Char → Reading Number
  | '.' :: cs => places positive significand dropped cs
  | 'e' :: cs => exponent positive significand dropped cs
  | 'E' :: cs => exponent positive significand dropped cs
  | cs =>
    if 0 < dropped then scaled positive significand dropped cs
    else if positive then .ok (.natural significand, cs)
    else if significand = 0 ∨ Nat.pow 2 63 < significand then
      .ok (.float (-(Float.ofNat significand)), cs)
    else .ok (.negative (-(significand : Int)), cs)

/-- Reads the magnitude of a number. -/
def magnitude (positive : Bool) : List Char → Reading Number
  | [] => stop .endInValue []
  | '0' :: cs =>
    match cs with
    | c :: _ => if Decimal.isDigit c then stopAt .invalidNumber cs else afterWhole positive 0 0 cs
    | [] => afterWhole positive 0 0 []
  | c :: cs =>
    match Decimal.digit? c with
    | none => stopAt .invalidNumber (c :: cs)
    | some d =>
      let (significand, _, rest) := growSignificand d 1 cs
      let dropped := (rest.takeWhile Decimal.isDigit).length
      afterWhole positive significand dropped (rest.drop dropped)

/-! ## Texts -/

/-- The characters after the given number of bytes, if there are as many, and the number of bytes by
which the last of them goes beyond. -/
def dropBytes : Nat → List Char → Option (List Char)
  | 0, cs => some cs
  | _ + 1, [] => none
  | n + 1, c :: cs => dropBytes (n + 1 - c.utf8Size) cs

/-- Whether at least the given number of bytes is left. -/
def hasBytes (n : Nat) (cs : List Char) : Bool := n ≤ (String.ofList (cs.take n)).utf8ByteSize

/-- Reads the four digits of a hexadecimal escape. -/
def fourDigits (cs : List Char) : Reading Nat :=
  if hasBytes 4 cs then
    match cs with
    | a :: b :: c :: d :: rest =>
      match Text.Hex.number? [a, b, c, d] with
      | some n => .ok (n, rest)
      | none => .error ⟨.invalidEscape, cs, 4⟩
    | _ => .error ⟨.invalidEscape, cs, 4⟩
  else stop .endInString []

/-- Reads what follows `\u`. The two halves of a character beyond `U+FFFF` are escaped one after the
other. -/
def unicodeEscape (cs : List Char) : Except Stop (Char × List Char) := do
  let (n, cs) : Nat × List Char ← fourDigits cs
  if 0xdc00 ≤ n ∧ n ≤ 0xdfff then stop .loneSurrogate cs
  else if n < 0xd800 ∨ 0xdbff < n then pure (Char.ofNat n, cs)
  else
    match cs with
    | [] => stop .endInString []
    | '\\' :: cs =>
      match cs with
      | [] => stop .endInString []
      | 'u' :: cs =>
        let (low, cs) ← fourDigits cs
        if low < 0xdc00 ∨ 0xdfff < low then stop .loneSurrogate cs
        else pure (Char.ofNat ((n - 0xd800) * 0x400 + (low - 0xdc00) + 0x10000), cs)
      | _ => .error ⟨.endOfEscape, cs, 1⟩
    | _ => .error ⟨.endOfEscape, cs, 1⟩

/-- Reads what follows the backslash of an escape. -/
def escape : List Char → Reading Char
  | [] => stop .endInString []
  | '"' :: cs => .ok ('"', cs)
  | '\\' :: cs => .ok ('\\', cs)
  | '/' :: cs => .ok ('/', cs)
  | 'b' :: cs => .ok ('\x08', cs)
  | 'f' :: cs => .ok ('\x0c', cs)
  | 'n' :: cs => .ok ('\n', cs)
  | 'r' :: cs => .ok ('\r', cs)
  | 't' :: cs => .ok ('\t', cs)
  | 'u' :: cs => unicodeEscape cs
  | cs => .error ⟨.invalidEscape, cs, 1⟩

/-- Reads the characters of a text up to its closing quote; the fuel is the number of characters
left, and `read` holds the characters read, last first. -/
def textBody : Nat → List Char → List Char → Reading String
  | 0, _, _ => stop .endInString []
  | fuel + 1, read, cs =>
    match cs with
    | [] => stop .endInString []
    | '"' :: cs => .ok (String.ofList read.reverse, cs)
    | '\\' :: cs =>
      match escape cs with
      | .ok (c, cs) => textBody fuel (c :: read) cs
      | .error e => .error e
    | c :: cs => if c.toNat < 32 then stop .controlCharacter cs else textBody fuel (c :: read) cs

/-- Reads a text whose opening quote has been read. -/
def text (cs : List Char) : Reading String := textBody (cs.length + 1) [] cs

/-! ## Containers -/

/-- Reads the items of a list after its first token, given the reader of the item at a position. -/
def items (item : Nat → List Char → Reading Json) : Nat → List Json → List Char → Reading Json
  | 0, _, _ => stop .endInList []
  | fuel + 1, read, cs =>
    match item read.length cs with
    | .error e => .error e
    | .ok (x, cs) =>
      let read := x :: read
      match skip cs with
      | [] => stop .endInList []
      | ']' :: cs => .ok (.array read.reverse, cs)
      | ',' :: cs =>
        match skip cs with
        | [] => stop .endInValue []
        | ']' :: cs => stopAt .trailingComma (']' :: cs)
        | cs => items item fuel read cs
      | cs => stopAt .expectedListEnd cs

/-- Reads a list whose opening bracket has been read. -/
def list (item : Nat → List Char → Reading Json) (cs : List Char) : Reading Json :=
  match skip cs with
  | [] => stop .endInList []
  | ']' :: cs => .ok (.array [], cs)
  | cs => items item (cs.length + 1) [] cs

/-- Reads the fields of an object from the quote of a key on, given the reader of the value of a
key. -/
def members (value : String → List Char → Reading Json) :
    Nat → List (String × Json) → List Char → Reading Json
  | 0, _, _ => stop .endInObject []
  | fuel + 1, read, cs =>
    match cs with
    | '"' :: cs =>
      match text cs with
      | .error e => .error e
      | .ok (key, cs) =>
        match skip cs with
        | [] => stop .endInObject []
        | ':' :: cs =>
          match value key cs with
          | .error e => .error e
          | .ok (x, cs) =>
            let read := (key, x) :: read
            match skip cs with
            | [] => stop .endInObject []
            | '\x7d' :: cs => .ok (.object read.reverse, cs)
            | ',' :: cs =>
              match skip cs with
              | [] => stop .endInValue []
              | '\x7d' :: cs => stopAt .trailingComma ('\x7d' :: cs)
              | cs => members value fuel read cs
            | cs => stopAt .expectedObjectEnd cs
        | cs => stopAt .expectedColon cs
    | cs => stopAt .keyNotString cs

/-- Reads an object whose opening brace has been read. -/
def object (value : String → List Char → Reading Json) (cs : List Char) : Reading Json :=
  match skip cs with
  | [] => stop .endInObject []
  | '\x7d' :: cs => .ok (.object [], cs)
  | cs => members value (cs.length + 1) [] cs

/-! ## Documents -/

/-- Reads a document of at most the given nesting depth. -/
def value : Nat → List Char → Reading Json
  | depth, cs =>
    match skip cs with
    | [] => stop .endInValue []
    | 'n' :: cs => (word "ull".toList cs).map fun rest => (.null, rest)
    | 't' :: cs => (word "rue".toList cs).map fun rest => (.bool true, rest)
    | 'f' :: cs => (word "alse".toList cs).map fun rest => (.bool false, rest)
    | '-' :: cs => (magnitude false cs).map fun (n, rest) => (.number n, rest)
    | '"' :: cs => (text cs).map fun (s, rest) => (.string s, rest)
    | '[' :: cs =>
      match depth with
      | 0 => stopAt .tooDeep ('[' :: cs)
      | depth + 1 => list (fun _ => value depth) cs
    | '\x7b' :: cs =>
      match depth with
      | 0 => stopAt .tooDeep ('\x7b' :: cs)
      | depth + 1 => object (fun _ => value depth) cs
    | c :: cs =>
      if Decimal.isDigit c then (magnitude true (c :: cs)).map fun (n, rest) => (.number n, rest)
      else stopAt .expectedValue (c :: cs)

/-- Lists and objects nest this deep at most. -/
def greatestDepth : Nat := 127

/-- Reads a whole text as characters. -/
def wholeText (cs : List Char) : Except Stop Json :=
  match value greatestDepth cs with
  | .error e => .error e
  | .ok (document, rest) =>
    match skip rest with
    | [] => .ok document
    | rest => stopAt .trailingText rest

/-- The fault of a stop in a text. -/
def Stop.fault (source : String) (e : Stop) : Fault :=
  let bytes := Bytes.ofText source
  let left := (String.ofList e.rest).utf8ByteSize
  Fault.after e.flaw (bytes.take (bytes.length - left + e.ahead))

end Reader

/-- Reads a text as one document, its fields as written. -/
def read (source : String) : Except Fault Json :=
  (Reader.wholeText source.toList).mapError (·.fault source)

/-- Reads a text as the value it stands for. -/
def parse (source : String) : Except Fault Json := (read source).map canonical

end ChangeFeed.Json
