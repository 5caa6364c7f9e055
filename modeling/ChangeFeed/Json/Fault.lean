import ChangeFeed.Text.Bytes

/-!
# Faults of JSON text

What is wrong with a text that is not JSON, and where: the line and the column of the byte at which
reading stopped.
-/

namespace ChangeFeed.Json

/-- What is wrong with a text. -/
inductive Flaw where
  | endInList | endInObject | endInString | endInValue
  | expectedColon | expectedListEnd | expectedObjectEnd | expectedWord | expectedValue
  | invalidEscape | invalidNumber | numberOutOfRange
  | controlCharacter | keyNotString | loneSurrogate
  | trailingComma | trailingText | endOfEscape | tooDeep
  deriving DecidableEq, Inhabited

def Flaw.message : Flaw → String
  | .endInList => "EOF while parsing a list"
  | .endInObject => "EOF while parsing an object"
  | .endInString => "EOF while parsing a string"
  | .endInValue => "EOF while parsing a value"
  | .expectedColon => "expected `:`"
  | .expectedListEnd => "expected `,` or `]`"
  | .expectedObjectEnd => "expected `,` or `\x7d`"
  | .expectedWord => "expected ident"
  | .expectedValue => "expected value"
  | .invalidEscape => "invalid escape"
  | .invalidNumber => "invalid number"
  | .numberOutOfRange => "number out of range"
  | .controlCharacter => "control character (\\u0000-\\u001F) found while parsing a string"
  | .keyNotString => "key must be a string"
  | .loneSurrogate => "lone leading surrogate in hex escape"
  | .trailingComma => "trailing comma"
  | .trailingText => "trailing characters"
  | .endOfEscape => "unexpected end of hex escape"
  | .tooDeep => "recursion limit exceeded"

/-- A flaw and where reading stopped. Lines count from one; the column is the number of bytes of the
line that were read. -/
structure Fault where
  flaw : Flaw
  line : Nat
  column : Nat
  deriving DecidableEq, Inhabited

def Fault.message (fault : Fault) : String :=
  fault.flaw.message ++ " at line " ++ toString fault.line ++ " column " ++ toString fault.column

/-- A flaw after the given bytes. -/
def Fault.after (flaw : Flaw) (read : Bytes) : Fault :=
  ⟨flaw, read.count 10 + 1, (read.reverse.takeWhile (· ≠ 10)).length⟩

end ChangeFeed.Json
