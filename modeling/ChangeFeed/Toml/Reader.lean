import ChangeFeed.Toml.Marked
import ChangeFeed.Text.Hex
import ChangeFeed.Decimal.Binary64

/-!
# Reading TOML

`Toml.read?` reads a document, or gives none if the text is not one. Arrays and inline tables nest
to a bounded depth, which bounds the recursion; the loops inside are bounded by the number of
characters left.
-/

namespace ChangeFeed.Toml

/-- Whether a character stands between the parts of a line. -/
def isSpace (c : Char) : Bool := c = ' ' || c = '\t'

def skip (cs : List Char) : List Char := cs.dropWhile isSpace

/-- Whether a character may stand in a comment or in a text. Of the controls only the tab may. -/
def isVisible (c : Char) : Bool := c = '\t' || (c.toNat ≥ 0x20 && c.toNat ≠ 0x7f)

/-- Reads the end of a line. -/
def newline? : List Char → Option (List Char)
  | '\n' :: cs => some cs
  | '\r' :: '\n' :: cs => some cs
  | _ => none

/-- The characters after a comment, if there is one. -/
def skipComment : List Char → List Char
  | '#' :: cs => cs.dropWhile isVisible
  | cs => cs

/-- Reads the rest of a line that holds nothing more, or the end of the text. -/
def lineEnd? (cs : List Char) : Option (List Char) :=
  match skipComment (skip cs) with
  | [] => some []
  | cs => newline? cs

/-- The characters after spaces, line ends and comments; the fuel is the number of characters. -/
def skipLines : Nat → List Char → List Char
  | 0, cs => cs
  | fuel + 1, cs =>
    let cs := skipComment (skip cs)
    match newline? cs with
    | some rest => skipLines fuel rest
    | none => cs

/-! ## Texts -/

/-- The character of a code point in the given number of hexadecimal digits. -/
def codePoint (count : Nat) (cs : List Char) : Option (Char × List Char) :=
  let ds := cs.take count
  if ds.length = count then
    match Text.Hex.number? ds with
    | some n => if h : n.isValidChar then some (Char.ofNatAux n h, cs.drop count) else none
    | none => none
  else none

/-- Reads what follows the backslash of an escape. -/
def escape : List Char → Option (Char × List Char)
  | 'b' :: cs => some ('\x08', cs)
  | 't' :: cs => some ('\t', cs)
  | 'n' :: cs => some ('\n', cs)
  | 'f' :: cs => some ('\x0c', cs)
  | 'r' :: cs => some ('\r', cs)
  | '"' :: cs => some ('"', cs)
  | '\\' :: cs => some ('\\', cs)
  | 'u' :: cs => codePoint 4 cs
  | 'U' :: cs => codePoint 8 cs
  | _ => none

/-- Reads a text in double quotes whose first quote was read; `read` holds its characters, last
first. -/
def basic : Nat → List Char → List Char → Option (String × List Char)
  | 0, _, _ => none
  | fuel + 1, read, cs =>
    match cs with
    | '"' :: rest => some (String.ofList read.reverse, rest)
    | '\\' :: rest => (escape rest).bind fun (c, rest) => basic fuel (c :: read) rest
    | c :: rest => if isVisible c then basic fuel (c :: read) rest else none
    | [] => none

/-- Reads a text in single quotes whose first quote was read. -/
def literal (cs : List Char) : Option (String × List Char) :=
  let body := cs.takeWhile fun c => isVisible c && c ≠ '\''
  match cs.drop body.length with
  | '\'' :: rest => some (String.ofList body, rest)
  | _ => none

/-- The number of leading quotes of a kind. -/
def quotes (quote : Char) (cs : List Char) : Nat := (cs.takeWhile (· = quote)).length

/-- Reads three to five closing quotes; those beyond the third are part of the text. -/
def closing (quote : Char) (read cs : List Char) : Option (String × List Char) :=
  let count := quotes quote cs
  if 3 ≤ count ∧ count ≤ 5 then
    some (String.ofList (read.reverse ++ List.replicate (count - 3) quote), cs.drop count)
  else none

/-- Reads a text in three double quotes after its first quotes. -/
def basicLines : Nat → List Char → List Char → Option (String × List Char)
  | 0, _, _ => none
  | fuel + 1, read, cs =>
    match cs with
    | '"' :: rest =>
      if 3 ≤ quotes '"' cs then closing '"' read cs else basicLines fuel ('"' :: read) rest
    | '\\' :: rest =>
      match newline? (skip rest) with
      | some after => basicLines fuel read (skipBlank after.length after)
      | none => (escape rest).bind fun (c, rest) => basicLines fuel (c :: read) rest
    | c :: rest =>
      match newline? cs with
      | some rest => basicLines fuel ('\n' :: read) rest
      | none => if isVisible c then basicLines fuel (c :: read) rest else none
    | [] => none
where
  /-- The characters after spaces and line ends. -/
  skipBlank : Nat → List Char → List Char
    | 0, cs => cs
    | fuel + 1, cs =>
      match newline? (skip cs) with
      | some rest => skipBlank fuel rest
      | none => skip cs

/-- Reads a text in three single quotes after its first quotes. -/
def literalLines : Nat → List Char → List Char → Option (String × List Char)
  | 0, _, _ => none
  | fuel + 1, read, cs =>
    match cs with
    | '\'' :: rest =>
      if 3 ≤ quotes '\'' cs then closing '\'' read cs else literalLines fuel ('\'' :: read) rest
    | c :: rest =>
      match newline? cs with
      | some rest => literalLines fuel ('\n' :: read) rest
      | none => if isVisible c then literalLines fuel (c :: read) rest else none
    | [] => none

/-- Reads a text of any kind. -/
def text (cs : List Char) : Option (String × List Char) :=
  let fuel := cs.length + 1
  let afterNewline (cs : List Char) : List Char := (newline? cs).getD cs
  match cs with
  | '"' :: '"' :: '"' :: rest => basicLines fuel [] (afterNewline rest)
  | '\'' :: '\'' :: '\'' :: rest => literalLines fuel [] (afterNewline rest)
  | '"' :: rest => basic fuel [] rest
  | '\'' :: rest => literal rest
  | _ => none

/-! ## Keys -/

/-- Whether a character may stand in a key without quotes. -/
def isBare (c : Char) : Bool := c.isAlphanum || c = '_' || c = '-'

/-- Reads one part of a key. -/
def keyPart (cs : List Char) : Option (String × List Char) :=
  match cs with
  | '"' :: rest => basic (rest.length + 1) [] rest
  | '\'' :: rest => literal rest
  | _ =>
    let bare := cs.takeWhile isBare
    if bare.isEmpty then none else some (String.ofList bare, cs.drop bare.length)

/-- Reads the parts of a key, which stand between points; the fuel is the number of characters. -/
def keyParts : Nat → List Char → Option (List String × List Char)
  | 0, _ => none
  | fuel + 1, cs => do
    let (part, cs) ← keyPart (skip cs)
    match skip cs with
    | '.' :: rest =>
      let (more, rest) ← keyParts fuel rest
      pure (part :: more, rest)
    | rest => pure ([part], rest)

/-- The greatest number of parts of a key, and of values inside each other. -/
def greatestDepth : Nat := 79

/-- Reads a key: its last part, and those before. -/
def key (cs : List Char) : Option ((List String × String) × List Char) := do
  let (parts, cs) ← keyParts (cs.length + 1) cs
  let last ← parts.getLast?
  if parts.length ≤ greatestDepth then pure ((parts.dropLast, last), cs) else none

/-! ## Numbers -/

/-- Reads digits of a class, with single underscores between them. -/
def digitRun (isDigit : Char → Bool) (cs : List Char) : Option (List Char × List Char) :=
  let run := cs.takeWhile fun c => isDigit c || c = '_'
  let parts := run.splitOn '_'
  if parts.any List.isEmpty then none else some (parts.flatten, cs.drop run.length)

/-- Reads whole digits, which start with a zero only if there is no other digit. -/
def whole (cs : List Char) : Option (List Char × List Char) :=
  match cs with
  | '0' :: rest => some (['0'], rest)
  | _ => digitRun Decimal.isDigit cs

def sign : List Char → List Char × List Char
  | '+' :: cs => (['+'], cs)
  | '-' :: cs => (['-'], cs)
  | cs => ([], cs)

/-- Reads a power of ten, if there is one. -/
def exponent (cs : List Char) : Option (List Char × List Char) :=
  match cs with
  | c :: rest =>
    if c = 'e' ∨ c = 'E' then do
      let (mark, rest) := sign rest
      let (ds, rest) ← digitRun Decimal.isDigit rest
      pure ('e' :: mark ++ ds, rest)
    else some ([], cs)
  | [] => some ([], [])

/-- A finite number, or one below all others. -/
def float (cs : List Char) : Option Item :=
  (Decimal.Binary64.read? cs).bind fun x => if x == 1 / 0 then none else some (.float x)

/-- Reads a whole number in a base that is a power of two. -/
def inBase (base : Nat) (cs : List Char) : Option (Item × List Char) := do
  let isDigit (c : Char) : Bool := match Text.Hex.value? c with
    | some d => d < base
    | none => false
  let (ds, rest) ← digitRun isDigit cs
  let n := ds.foldl (fun n c => base * n + (Text.Hex.value? c).getD 0) 0
  if n < Nat.pow 2 63 then pure (.integer n, rest) else none

def number (cs : List Char) : Option (Item × List Char) :=
  match cs with
  | '0' :: 'x' :: rest => inBase 16 rest
  | '0' :: 'o' :: rest => inBase 8 rest
  | '0' :: 'b' :: rest => inBase 2 rest
  | _ =>
    let (mark, rest) := sign cs
    match rest with
    | 'i' :: 'n' :: 'f' :: rest => some (.float (if mark = ['-'] then -(1 / 0) else 1 / 0), rest)
    | 'n' :: 'a' :: 'n' :: rest => some (.float (0 / 0), rest)
    | _ => do
      let (ds, rest) ← whole rest
      match rest with
      | '.' :: after =>
        let (fraction, after) ← digitRun Decimal.isDigit after
        let (power, after) ← exponent after
        let x ← float (mark ++ ds ++ '.' :: fraction ++ power)
        pure (x, after)
      | _ =>
        let (power, after) ← exponent rest
        if power.isEmpty then
          let n ← Decimal.signed? 64 (mark ++ ds)
          pure (.integer n, after)
        else
          let x ← float (mark ++ ds ++ power)
          pure (x, after)

/-! ## Values -/

/-- Reads the items of an array up to its closing bracket; the fuel is the number of characters. -/
def arrayItems (item : List Char → Option (Item × List Char)) :
    Nat → List Item → List Char → Option (Item × List Char)
  | 0, _, _ => none
  | fuel + 1, read, cs =>
    match skipLines cs.length cs with
    | ']' :: rest => some (.list read.reverse, rest)
    | cs => do
      let (x, cs) ← item cs
      match skipLines cs.length cs with
      | ']' :: rest => pure (.list (x :: read).reverse, rest)
      | ',' :: rest => arrayItems item fuel (x :: read) rest
      | _ => none

/-- Reads the fields of an inline table from a key on. -/
def inlineFields (item : List Char → Option (Item × List Char)) :
    Nat → Item → List Char → Option (Item × List Char)
  | 0, _, _ => none
  | fuel + 1, table, cs => do
    let ((path, name), cs) ← key cs
    match cs with
    | '=' :: cs =>
      let (x, cs) ← item (skip cs)
      let table ← Item.insert? path name x table
      match skip cs with
      | '\x7d' :: rest =>
        match table with
        | .table _ fields => pure (.table .inline fields, rest)
        | _ => none
      | ',' :: rest => inlineFields item fuel table (skip rest)
      | _ => none
    | _ => none

/-- Reads a value whose arrays and inline tables nest no deeper than given. -/
def value : Nat → List Char → Option (Item × List Char)
  | depth, cs =>
    match cs with
    | '"' :: _ => (text cs).map fun (s, rest) => (.text s, rest)
    | '\'' :: _ => (text cs).map fun (s, rest) => (.text s, rest)
    | 't' :: 'r' :: 'u' :: 'e' :: rest => some (.flag true, rest)
    | 'f' :: 'a' :: 'l' :: 's' :: 'e' :: rest => some (.flag false, rest)
    | '[' :: rest =>
      match depth with
      | 0 => none
      | depth + 1 => arrayItems (value depth) (rest.length + 1) [] rest
    | '\x7b' :: rest =>
      match depth with
      | 0 => none
      | depth + 1 =>
        match skip rest with
        | '\x7d' :: rest => some (.table .inline [], rest)
        | rest => inlineFields (value depth) (rest.length + 1) (.table .header []) rest
    | _ =>
      if Moment.startsDate cs ∨ Moment.startsTime cs then
        (Moment.read cs).map fun (s, rest) => (.moment s, rest)
      else number cs

/-! ## Documents -/

/-- A document that is being read: the finished tables, and the table of the last header. -/
structure Draft where
  root : Item
  /-- The path of the last header, and whether it adds one of several tables. -/
  header : Option (List String × String × Bool)
  current : Item
  deriving Inhabited

namespace Draft

def empty : Draft := ⟨.table .header [], none, .table .header []⟩

/-- Puts the table of the last header in its place. -/
def finish? (d : Draft) : Option Item :=
  match d.header, d.current with
  | none, current => some current
  | some (path, name, false), .table _ fields => d.root.open? path name fields
  | some (path, name, true), .table _ fields => d.root.append? path name fields
  | _, _ => none

/-- Starts the table of a header. -/
def start? (d : Draft) (path : List String) (name : String) (several : Bool) : Option Draft := do
  let root ← d.finish?
  if several then pure ⟨root, some (path, name, true), .table .header []⟩
  else
    let fields ← root.implied? path name
    pure ⟨← root.take? path name, some (path, name, false), .table .header fields⟩

/-- Adds a value to the table of the last header. -/
def add? (d : Draft) (path : List String) (name : String) (x : Item) : Option Draft :=
  (Item.insert? path name x d.current).map fun current => { d with current }

end Draft

/-- Reads one line that is not empty. -/
def line (d : Draft) (cs : List Char) : Option (Draft × List Char) :=
  match cs with
  | '[' :: '[' :: rest => do
    let ((path, name), rest) ← key rest
    match rest with
    | ']' :: ']' :: rest =>
      let d ← d.start? path name true
      let rest ← lineEnd? rest
      pure (d, rest)
    | _ => none
  | '[' :: rest => do
    let ((path, name), rest) ← key rest
    match rest with
    | ']' :: rest =>
      let d ← d.start? path name false
      let rest ← lineEnd? rest
      pure (d, rest)
    | _ => none
  | _ => do
    let ((path, name), rest) ← key cs
    match rest with
    | '=' :: rest =>
      let (x, rest) ← value greatestDepth (skip rest)
      let d ← d.add? path name x
      let rest ← lineEnd? rest
      pure (d, rest)
    | _ => none

/-- Reads the lines of a document; the fuel is the number of characters. -/
def lines : Nat → Draft → List Char → Option Draft
  | 0, _, _ => none
  | fuel + 1, d, cs =>
    match skipLines cs.length cs with
    | [] => some d
    | cs => (line d cs).bind fun (d, rest) => lines fuel d rest

/-- Reads a document. A byte order mark at its start is left out. -/
def read? (source : String) : Option Item :=
  let cs := match source.toList with
    | '\ufeff' :: cs => cs
    | cs => cs
  ((lines (cs.length + 1) .empty cs).bind Draft.finish?).bind Item.plain?

end ChangeFeed.Toml
