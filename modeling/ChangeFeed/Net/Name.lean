import ChangeFeed.Net.Plain
import ChangeFeed.Net.Punycode
import ChangeFeed.Text.Composed
import ChangeFeed.Text.Direction
import ChangeFeed.Text.Joining

/-!
# Names of hosts

A name is a row of labels between dots. It may be written in any script, and has one form in ASCII:
its plain text is composed, and a label that is still not ASCII is written in Punycode behind
`xn--`. `Name.ascii?` gives that form, or none if a label breaks a rule:

* a label that begins with `xn--` is the Punycode of a label that is plain and composed;
* no label begins with a mark;
* joiners stand only where letters of a script need them;
* in a name with letters from right to left, every label has one direction.
-/

namespace ChangeFeed.Net.Name

open Text

/-- The punctuation that no name holds. -/
def punctuation : List Char :=
  ['%', '#', '/', ':', '<', '>', '?', '@', '[', '\\', ']', '^', '|']

/-- Whether a character is a control, the blank, or punctuation that no name holds. -/
def isForbidden (c : Char) : Bool :=
  c.toNat ≤ 0x20 || c.toNat = 0x7f || punctuation.contains c

def isAscii (c : Char) : Bool := c.toNat < 0x80

/-! ## Labels -/

/-- What a label in Punycode begins with. -/
def mark : List Char := ['x', 'n', '-', '-']

/-- The greatest number of characters of a label that is read from Punycode, after its mark. -/
def longestCoded : Nat := 2000

/-- The greatest number of characters of a label that is written in Punycode. -/
def longestWritten : Nat := 1000

/-- Reads a label that is written in Punycode. -/
def coded? (cs : List Char) : Option (List Char) := do
  let label ←
    if cs.getLast? = none ∨ cs.getLast? = some '-' ∨ longestCoded < cs.length ∨ !cs.all isAscii then
      none
    else Punycode.decode? cs
  if label.all (fun c => Plain.of? c = some [c] && c ≠ '.') && composed label = label then
    some label
  else none

/-- Whether a joiner may stand between the characters before it, the nearest one first, and those
after it: behind a mark that leaves out a vowel, or, if it keeps letters apart, where they would
join. -/
def mayJoin (before : List Char) (joiner : Char) (after : List Char) : Bool :=
  match before with
  | [] => false
  | c :: _ =>
    isVirama c || (joiner.toNat = 0x200c && joinsAfter before && joinsBefore after)

/-- Whether all joiners of a label may stand where they are. -/
def joinsWell (before : List Char) : List Char → Bool
  | [] => true
  | c :: after =>
    (!(c.toNat = 0x200c || c.toNat = 0x200d) || mayJoin before c after) &&
      joinsWell (c :: before) after

/-- Whether a label in characters of its own script may stand in a name. -/
def isLabel (label : List Char) : Bool :=
  !(label.head?.map isMark).getD false && joinsWell [] label &&
    (label.all isAscii || label.length ≤ longestWritten)

/-- Reads a label of a composed plain text. -/
def label? (cs : List Char) : Option (List Char) := do
  let label ← if mark.isPrefixOf cs then coded? (cs.drop mark.length) else some cs
  if label.any isForbidden || !isLabel label then none else some label

/-! ## Directions -/

/-- Whether the characters of a label keep one direction. -/
def keepsDirection (label : List Char) : Bool :=
  match label.map direction with
  | [] => true
  | first :: rest =>
    let inner := rest.reverse.dropWhile (· = .mark)
    match first, inner with
    | .leftToRight, [] => true
    | .leftToRight, last :: before =>
      (last = .leftToRight || last = .europeanNumber) &&
        !before.contains .rightToLeft && !before.contains .arabicNumber
    | .rightToLeft, [] => true
    | .rightToLeft, last :: before =>
      (last = .rightToLeft || last = .europeanNumber || last = .arabicNumber) &&
        !before.contains .leftToRight &&
        !(inner.contains .europeanNumber && inner.contains .arabicNumber)
    | _, _ => false

/-- Whether a label has a letter or a numeral of a script from right to left. -/
def hasRightToLeft (label : List Char) : Bool :=
  label.any fun c => direction c = .rightToLeft || direction c = .arabicNumber

/-! ## Names -/

/-- The labels of a name in the characters of their scripts. -/
def labels? (cs : List Char) : Option (List (List Char)) := do
  let plain ← cs.mapM Plain.of?
  let labels ← ((composed plain.flatten).splitOn '.').mapM label?
  if labels.any hasRightToLeft && !labels.all keepsDirection then none else some labels

def asciiLabel (label : List Char) : List Char :=
  if label.all isAscii then label else mark ++ Punycode.encode label

def ascii? (cs : List Char) : Option (List Char) :=
  (labels? cs).map fun labels => ['.'].intercalate (labels.map asciiLabel)

end ChangeFeed.Net.Name
