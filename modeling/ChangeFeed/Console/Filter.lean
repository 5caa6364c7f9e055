import ChangeFeed.Breakdown
import ChangeFeed.Console.Pattern
import ChangeFeed.Decimal.Binary64
import ChangeFeed.Text.Cut

/-!
# Log filters

Which log records are shown. A filter is a list of directives between commas. A directive has a
level, and may be for a target only, for the inside of a span, or for records with a certain field:
`warn`, `feed=debug`, `feed[span]=trace`, `[\x7bfield\x7d]=info`. For a record the directive with
the longest fitting target decides, of two such ones that with a field, and of two equal ones the
later.

* `Filter.strict` refuses a text with a malformed directive, `Filter.lenient` leaves it out.
* `Filter.shows` decides about a record outside of all spans.
-/

namespace ChangeFeed.Console

/-- How much is shown, from nothing to everything. -/
inductive Verbosity where
  | off | error | warn | info | debug | trace
  deriving DecidableEq, Inhabited

namespace Verbosity

def all : List Verbosity := [.off, .error, .warn, .info, .debug, .trace]

def name : Verbosity → String
  | .off => "off"
  | .error => "error"
  | .warn => "warn"
  | .info => "info"
  | .debug => "debug"
  | .trace => "trace"

/-- The place in the order from nothing to everything. -/
def rank (v : Verbosity) : Nat := all.idxOf v

/-- The level of a name in any case, or of a place in the order. -/
def ofText? (cs : List Char) : Option Verbosity :=
  match (Decimal.unsigned? 64 cs).bind fun n => all[n]? with
  | some v => some v
  | none => all.find? fun v => v.name.toList = cs.map Char.toLower

end Verbosity

/-- What is shown of which records. -/
structure Directive where
  level : Verbosity
  /-- What the target of a record must start with. -/
  target : Option (List Char)
  /-- The span that a record must be inside of. -/
  span : Option (List Char)
  /-- A field that a record must have, perhaps with a value. -/
  field : Option (List Char)
  deriving DecidableEq, Inhabited

/-- Why a text is no directive. -/
inductive Refusal where
  | malformed
  /-- A cut would lie inside of a character. -/
  | broken (cause : Breakdown)
  deriving DecidableEq, Inhabited

namespace Directive

/-- Whether a directive may start with a character. -/
def isStart (c : Char) : Bool := ['-', ':', '_'].contains c || Text.isAlphanumeric c

/-- The text without the blanks at its ends. -/
def trimmed (source : List Char) : List Char :=
  ((source.dropWhile Text.isBlank).reverse.dropWhile Text.isBlank).reverse

/-- The part of a text between two positions. -/
def cut (source : List Char) (start stop : Nat) : Except Refusal (List Char) :=
  match Text.between? start stop source with
  | some cs => .ok cs
  | none => .error (.broken .insideCharacter)

/-- Whether a text is a field with or without a value. A value is a number or a pattern, and ends
before a second equals sign. -/
def isField (cs : List Char) : Bool :=
  match cs.dropWhile (· ≠ '=') with
  | [] => !cs.isEmpty
  | _ :: rest =>
    let value := rest.takeWhile (· ≠ '=')
    (Decimal.Binary64.read? value).isSome || Pattern.isValid value

/-- Reads the level from a position on; none is everything. -/
def withLevel (d : Directive) (source : List Char) (start : Nat) : Except Refusal Directive := do
  let cs ← cut source start (Text.size source)
  if cs.isEmpty then .ok { d with level := .trace }
  else
    match Verbosity.ofText? cs with
    | some level => .ok { d with level }
    | none => .error .malformed

/-- Reads what follows the bracket behind a span or a field. -/
def afterSpan (d : Directive) (source cs : List Char) (position : Nat) : Except Refusal Directive :=
  match cs with
  | [] => .ok d
  | '=' :: _ => d.withLevel source (position + 1)
  | _ => .error .malformed

/-- Reads a field from the position after its brace. -/
def inField (d : Directive) (source cs : List Char) (start : Nat) : Except Refusal Directive :=
  let field := cs.takeWhile (· ≠ '\x7d')
  let stop := start + Text.size field
  match cs.drop field.length with
  | [] => .error .malformed
  | _ :: after => do
    let field ← cut source start stop
    let d := { d with field := some field }
    match isField field, after with
    | true, ']' :: after => d.afterSpan source after (stop + 2)
    | _, _ => .error .malformed

/-- Reads a span or a field from the position after its bracket. -/
def inSpan (d : Directive) (source cs : List Char) (start : Nat) : Except Refusal Directive :=
  let name := cs.takeWhile fun c => c ≠ ']' && c ≠ '\x7b'
  let stop := start + Text.size name
  match cs.drop name.length with
  | [] => .error .malformed
  | ']' :: after => do
    let name ← cut source start stop
    { d with span := some name }.afterSpan source after (stop + 1)
  | _ :: after => do
    let name ← cut source start stop
    { d with span := if name.isEmpty then none else some name }.inField source after (stop + 1)

/-- Reads a directive. Positions are counted in the text without blanks at its ends, and the parts
are cut out of the text as it is. -/
def read (source : List Char) : Except Refusal Directive :=
  let cs := trimmed source
  let any : Directive := ⟨.trace, none, none, none⟩
  match cs with
  | [] => .error .malformed
  | '[' :: rest => any.inSpan source rest 1
  | c :: _ =>
    let target := cs.takeWhile fun c => c ≠ '=' && c ≠ '['
    let stop := Text.size target
    if !isStart c then .error .malformed
    else
      match cs.drop target.length with
      | [] =>
        match Verbosity.ofText? source with
        | some level => .ok { any with level }
        | none => .ok { any with target := some source }
      | '=' :: _ => do
        let target ← cut source 0 stop
        { any with target := some target }.withLevel source (stop + 1)
      | _ :: rest => do
        let target ← cut source 0 stop
        { any with target := some target }.inSpan source rest (stop + 1)

/-- Whether a directive decides about a record outside of all spans. -/
def fits (d : Directive) (target : List Char) (fields : List (List Char)) : Bool :=
  d.span.isNone && (d.target.map fun t => t.isPrefixOf target).getD true &&
    (d.field.map fields.contains).getD true

def weight (d : Directive) : Nat × Nat :=
  ((d.target.map fun t => t.length + 1).getD 0, if d.field.isSome then 1 else 0)

/-- Whether a directive is at least as special as another. -/
def outweighs (d e : Directive) : Bool :=
  e.weight.1 < d.weight.1 || (e.weight.1 = d.weight.1 && e.weight.2 ≤ d.weight.2)

end Directive

/-- A list of directives. -/
structure Filter where
  directives : List Directive
  deriving DecidableEq, Inhabited

namespace Filter

def parts (s : String) : List (List Char) := (s.toList.splitOn ',').filter (!·.isEmpty)

def strict (s : String) : Except Refusal Filter := do
  let directives ← (parts s).mapM Directive.read
  pure ⟨directives⟩

/-- Reads a filter without the directives that are malformed; where none is left, errors are
shown. -/
def lenient (s : String) : Except Breakdown Filter := do
  let found ← (parts s).mapM fun part =>
    match Directive.read part with
    | .ok d => .ok (some d)
    | .error .malformed => .ok none
    | .error (.broken cause) => .error cause
  let directives := found.filterMap id
  pure ⟨if directives.isEmpty then [⟨.error, none, none, none⟩] else directives⟩

/-- The directive that decides about a record. -/
def decisive? (f : Filter) (target : List Char) (fields : List (List Char)) : Option Directive :=
  f.directives.foldl
    (fun best d =>
      if d.fits target fields && (best.map fun e => d.outweighs e).getD true then some d else best)
    none

/-- Whether a record outside of all spans is shown. -/
def shows (f : Filter) (target : String) (fields : List String) (level : Verbosity) : Bool :=
  match f.decisive? target.toList (fields.map String.toList) with
  | some d => level.rank ≤ d.level.rank
  | none => false

end Filter

end ChangeFeed.Console
