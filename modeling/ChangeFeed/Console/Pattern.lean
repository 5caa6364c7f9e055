import ChangeFeed.Text.Blank
import ChangeFeed.Text.Hex
import ChangeFeed.Text.Letters

/-!
# Patterns

Regular expressions for the values of fields. Only whether a text is a pattern matters here.

A pattern stands between braces and holds none that closes, so whatever needs a closing brace, such
as a count of repetitions, is refused. Its characters stand for characters or, after `(?-u)`, for
bytes. There are no tables of words, digits, blanks and cases of characters, so whatever asks for
one is refused among characters; among bytes, whatever fits a part of a character is.

* `Pattern.nesting?` reads a pattern and tells how deeply it is nested.
* `Pattern.isValid` says whether a text is a pattern that is not nested too deeply.
-/

namespace ChangeFeed.Console.Pattern

/-! ## Modes -/

/-- How the characters of a pattern are read. -/
structure Modes where
  /-- Whether they stand for characters and not for bytes. -/
  ofCharacters : Bool
  /-- Whether a letter stands for both of its cases. -/
  ofBothCases : Bool
  /-- Whether blanks and comments are passed over. -/
  isSpaced : Bool
  deriving DecidableEq, Inhabited

namespace Modes

def standard : Modes := ⟨true, false, false⟩

/-- Whether a text turns modes on and, behind a dash, off. -/
def isChange (text : List Char) : Bool :=
  text.all ("imsUuRx-".toList.contains ·) && text.eraseDups.length = text.length &&
    text.getLast? ≠ some '-'

def change (m : Modes) (text : List Char) : Modes :=
  let on := text.takeWhile (· ≠ '-')
  let off := text.dropWhile (· ≠ '-')
  let pick (c : Char) (old : Bool) : Bool := (old || on.contains c) && !off.contains c
  ⟨pick 'u' m.ofCharacters, pick 'i' m.ofBothCases, pick 'x' m.isSpaced⟩

/-- The text behind blanks and comments, which run from a number sign to the end of the line. -/
def behindBlanks (inComment : Bool) : List Char → List Char
  | [] => []
  | c :: cs =>
    if inComment then behindBlanks (c ≠ '\n') cs
    else if Text.isBlank c then behindBlanks false cs
    else if c = '#' then behindBlanks true cs
    else c :: cs

/-- The text behind what is passed over. -/
def skip (m : Modes) (cs : List Char) : List Char :=
  if m.isSpaced then behindBlanks false cs else cs

/-- A look at the next character; of a comment only the sign is passed over. -/
def peek? (m : Modes) (cs : List Char) : Option Char :=
  if m.isSpaced then
    match cs.dropWhile Text.isBlank with
    | '#' :: rest => (rest.dropWhile Text.isBlank).head?
    | rest => rest.head?
  else cs.head?

/-- Whether a character may stand for itself, alone or in a class. A byte is a character that was
written as two hexadecimal digits. -/
def admits (m : Modes) (c : Char) (isByte inClass : Bool) : Bool :=
  if m.ofCharacters then !m.ofBothCases
  else c.toNat < 0x80 || (!isByte && !inClass && !m.ofBothCases)

end Modes

/-! ## Escapes -/

/-- What a backslash and the characters behind it stand for. -/
inductive Escape where
  | literal (c : Char) (isByte : Bool)
  /-- The digits, the blanks or the characters of words, or all others. -/
  | kind (isNegated : Bool)
  /-- A place: an end of the text, or an end of a word. -/
  | place (ofWord : Bool)
  deriving DecidableEq, Inhabited

namespace Escape

/-- Reads a number of hexadecimal digits. -/
def digits? (m : Modes) : Nat → List Char → Option (List Char × List Char)
  | 0, cs => some ([], cs)
  | n + 1, cs =>
    match m.skip cs with
    | [] => none
    | c :: rest =>
      if (Text.Hex.value? c).isSome then
        (digits? m n rest).map fun (ds, rest) => (c :: ds, rest)
      else none

/-- Reads the code of a character in a number of hexadecimal digits. -/
def code? (m : Modes) (n : Nat) (cs : List Char) : Option (Escape × List Char) := do
  let (ds, rest) ← digits? m n cs
  let code ← Text.Hex.number? ds
  if code.isValidChar then pure (.literal (Char.ofNat code) (n = 2), rest) else none

/-- Characters that are written as letters. -/
def named : List (Char × Char) :=
  [('a', '\x07'), ('f', '\x0c'), ('n', '\n'), ('r', '\x0d'), ('t', '\t'), ('v', '\x0b')]

def read? (m : Modes) : List Char → Option (Escape × List Char)
  | [] => none
  | 'x' :: rest => code? m 2 rest
  | 'u' :: rest => code? m 4 rest
  | 'U' :: rest => code? m 8 rest
  | c :: rest =>
    if ['d', 's', 'w'].contains c then some (.kind false, rest)
    else if ['D', 'S', 'W'].contains c then some (.kind true, rest)
    else if ['A', 'z'].contains c then some (.place false, rest)
    else if ['b', 'B', '<', '>'].contains c then some (.place true, rest)
    else
      match named.lookup c with
      | some c => some (.literal c false, rest)
      | none => if c.toNat < 0x80 && !c.isAlphanum then some (.literal c false, rest) else none

/-- Whether an escape may stand outside of classes. -/
def isFine (m : Modes) : Escape → Bool
  | .literal c isByte => m.admits c isByte false
  | .kind isNegated => !m.ofCharacters && !isNegated
  | .place ofWord => !m.ofCharacters || !ofWord

/-- Whether an escape may stand in a class. -/
def isFineInClass (m : Modes) : Escape → Bool
  | .literal c isByte => m.admits c isByte true
  | .kind isNegated => !m.ofCharacters && !isNegated
  | .place _ => false

end Escape

/-- How deeply several parts together are nested: one more than the deepest part, but no more than
it if it is alone. -/
def nestingOf : List Nat → Nat
  | [] => 0
  | [n] => n
  | ns => ns.foldl max 0 + 1

/-! ## Classes -/

/-- A class that is being read. -/
structure Class where
  /-- How deeply the parts behind the last operator are nested. -/
  parts : List Nat
  /-- How deeply all that stands before the last operator is nested. -/
  before : Option Nat
  deriving DecidableEq, Inhabited

namespace Class

/-- The names of classes of ASCII characters. -/
def names : List String :=
  ["alnum", "alpha", "ascii", "blank", "cntrl", "digit", "graph", "lower", "print", "punct",
    "space", "upper", "word", "xdigit"]

def add (x : Class) (nesting : Nat) : Class := { x with parts := nesting :: x.parts }

/-- How deeply the contents are nested. -/
def contents (x : Class) : Nat :=
  match x.before with
  | none => nestingOf x.parts
  | some n => max n (nestingOf x.parts) + 1

/-- Puts an operator behind the contents. -/
def operate (x : Class) : Class := ⟨[], some x.contents⟩

/-- The dashes at the start of a class, and what follows them. -/
def dashes (m : Modes) : Nat → List Char → Nat × List Char
  | n + 1, '-' :: rest =>
    let (count, rest) := dashes m n (m.skip rest)
    (count + 1, rest)
  | _, cs => (0, cs)

/-- Reads what follows the opening bracket: perhaps a negation, then dashes or a closing bracket
that stand for themselves. -/
def begin? (m : Modes) (cs : List Char) : Option (Class × List Char) :=
  let cs := m.skip cs
  let (isNegated, cs) := match cs with
    | '^' :: rest => (true, m.skip rest)
    | _ => (false, cs)
  let (count, cs) := match dashes m cs.length cs with
    | (0, ']' :: rest) => (1, rest)
    | found => found
  if isNegated && !m.ofCharacters then none
  else if 0 < count && !m.admits '-' false true then none
  else some (⟨List.replicate count 0, none⟩, cs)

/-- Reads the name of a class of ASCII characters behind a bracket; tells whether it is negated. -/
def name? : List Char → Option (Bool × List Char)
  | ':' :: cs =>
    let (isNegated, cs) := match cs with
      | '^' :: rest => (true, rest)
      | _ => (false, cs)
    match cs.dropWhile (· ≠ ':') with
    | ':' :: ']' :: rest =>
      if names.contains (String.ofList (cs.takeWhile (· ≠ ':'))) then some (isNegated, rest)
      else none
    | _ => none
  | _ => none

/-- Reads a character or an escape. -/
def item? (m : Modes) : List Char → Option (Escape × List Char)
  | [] => none
  | '\\' :: rest => Escape.read? m rest
  | c :: rest => some (.literal c false, rest)

/-- Reads a character, an escape or a range of characters; answers what follows. -/
def range? (m : Modes) (cs : List Char) : Option (List Char) := do
  let (first, rest) ← item? m cs
  let rest := m.skip rest
  let single : Option (List Char) := if first.isFineInClass m then some rest else none
  match rest with
  | '-' :: more =>
    if m.peek? more = some ']' || m.peek? more = some '-' then single
    else
      let (last, rest) ← item? m (m.skip more)
      match first, last with
      | .literal a _, .literal b _ =>
        if first.isFineInClass m && last.isFineInClass m && a ≤ b then some rest else none
      | _, _ => none
  | _ => single

/-- Reads the rest of a class inside of others; answers how deeply the outermost one is nested, and
what follows it. -/
def read? (m : Modes) : Nat → List Class → Class → List Char → Option (Nat × List Char)
  | 0, _, _, _ => none
  | fuel + 1, outer, x, cs =>
    match m.skip cs with
    | [] => none
    | '[' :: rest =>
      match name? rest with
      | some (isNegated, rest) =>
        if (if m.ofCharacters then m.ofBothCases else isNegated) then none
        else read? m fuel outer (x.add 0) rest
      | none =>
        match begin? m rest with
        | some (inner, rest) => read? m fuel (x :: outer) inner rest
        | none => none
    | ']' :: rest =>
      match outer with
      | [] => some (x.contents + 1, rest)
      | y :: outer => read? m fuel outer (y.add (x.contents + 1)) rest
    | '&' :: '&' :: rest => read? m fuel outer x.operate rest
    | '-' :: '-' :: rest => read? m fuel outer x.operate rest
    | '~' :: '~' :: rest => read? m fuel outer x.operate rest
    | rest =>
      match range? m rest with
      | some rest => read? m fuel outer (x.add 0) rest
      | none => none

end Class

/-! ## Groups -/

/-- A group that is being read, or the whole pattern. -/
structure Group where
  modes : Modes
  /-- How deeply the parts of the last branch are nested, the newest first. -/
  parts : List Nat
  /-- Whether the newest part can be repeated. -/
  canRepeat : Bool
  /-- How deeply the earlier branches are nested. -/
  branches : List Nat
  deriving DecidableEq, Inhabited

namespace Group

def empty (modes : Modes) : Group := ⟨modes, [], false, []⟩

def add (g : Group) (nesting : Nat) : Group :=
  { g with parts := nesting :: g.parts, canRepeat := true }

/-- Changes the modes of what follows in the group; the change is a part by itself. -/
def changeModes (g : Group) (text : List Char) : Group :=
  { g with modes := g.modes.change text, parts := 0 :: g.parts, canRepeat := false }

def repeat? (g : Group) : Option Group :=
  match g.canRepeat, g.parts with
  | true, n :: parts => some { g with parts := (n + 1) :: parts }
  | _, _ => none

def branch (g : Group) : Group :=
  { g with parts := [], canRepeat := false, branches := nestingOf g.parts :: g.branches }

/-- How deeply the contents are nested. -/
def contents (g : Group) : Nat := nestingOf (nestingOf g.parts :: g.branches)

/-- Whether a text can name a group. -/
def isName : List Char → Bool
  | [] => false
  | c :: cs =>
    (c = '_' || Text.isLetter c) &&
      cs.all fun c => ['_', '.', '[', ']'].contains c || Text.isAlphanumeric c

end Group

/-! ## Patterns -/

/-- What is known in the middle of a pattern. -/
structure Place where
  group : Group
  /-- The groups around it, the innermost first. -/
  outer : List Group
  /-- The names of groups. -/
  names : List (List Char)
  deriving Inhabited

namespace Place

/-- Adds a part to the group, if it may stand there. -/
def add? (p : Place) (isFine : Bool) (nesting : Nat) : Option Place :=
  if isFine then some { p with group := p.group.add nesting } else none

def enter (p : Place) (modes : Modes) : Place :=
  { p with group := .empty modes, outer := p.group :: p.outer }

def leave? (p : Place) : Option Place :=
  match p.outer with
  | [] => none
  | g :: outer => some { p with group := g.add (p.group.contents + 1), outer }

/-- Reads the name of a group that begins. -/
def enterNamed? (p : Place) (cs : List Char) : Option (Place × List Char) :=
  let name := cs.takeWhile (· ≠ '>')
  match cs.dropWhile (· ≠ '>') with
  | _ :: rest =>
    if Group.isName name && !p.names.contains name then
      some ({ p with names := name :: p.names }.enter p.group.modes, rest)
    else none
  | [] => none

/-- Reads what follows an opening parenthesis: a name, modes for the group or for what follows in
the group around it, or none of them. -/
def open? (p : Place) (cs : List Char) : Option (Place × List Char) :=
  match p.group.modes.skip cs with
  | '?' :: 'P' :: '<' :: rest => p.enterNamed? rest
  | '?' :: '<' :: rest => p.enterNamed? rest
  | '?' :: rest =>
    let text := rest.takeWhile fun c => c ≠ ':' && c ≠ ')'
    if !Modes.isChange text then none
    else
      match rest.drop text.length with
      | ':' :: rest => some (p.enter (p.group.modes.change text), rest)
      | ')' :: rest =>
        if text.isEmpty then none else some ({ p with group := p.group.changeModes text }, rest)
      | _ => none
  | rest => some (p.enter p.group.modes, rest)

def step? (p : Place) (c : Char) (rest : List Char) : Option (Place × List Char) := do
  let m := p.group.modes
  match c with
  | '(' => p.open? rest
  | ')' => pure (← p.leave?, rest)
  | '|' => pure ({ p with group := p.group.branch }, rest)
  | '[' =>
    let (x, more) ← Class.begin? m rest
    let (nesting, rest) ← Class.read? m (rest.length + 1) [] x more
    pure (← p.add? true nesting, rest)
  | '{' => none
  | '\\' =>
    let (e, rest) ← Escape.read? m rest
    pure (← p.add? (e.isFine m) 0, rest)
  | '.' => pure (← p.add? m.ofCharacters 0, rest)
  | c =>
    if ['?', '*', '+'].contains c then
      let group ← p.group.repeat?
      let rest := match rest with
        | '?' :: rest => rest
        | _ => rest
      pure ({ p with group }, rest)
    else pure (← p.add? (['^', '$'].contains c || m.admits c false false) 0, rest)

/-- Reads the rest of a pattern; answers how deeply all of it is nested. -/
def read? : Nat → Place → List Char → Option Nat
  | 0, _, _ => none
  | fuel + 1, p, cs =>
    match p.group.modes.skip cs with
    | [] => if p.outer.isEmpty then some p.group.contents else none
    | c :: rest =>
      match p.step? c rest with
      | some (p, rest) => read? fuel p rest
      | none => none

end Place

/-- How deeply a pattern is nested. -/
def nesting? (cs : List Char) : Option Nat :=
  Place.read? (cs.length + 1) ⟨.empty .standard, [], []⟩ cs

/-- How deeply a pattern may be nested. -/
def deepest : Nat := 250

/-- Whether a text is a pattern that is not nested too deeply. -/
def isValid (cs : List Char) : Bool := (nesting? cs).any (· ≤ deepest)

end ChangeFeed.Console.Pattern
