import ChangeFeed.Json.Printer
import ChangeFeed.Text.Quoted

/-!
# Typed values of documents

Reading text, flags, numbers, lists and records out of a canonical document. A document of another
kind is a fault that names what was found and what was expected.

A record is read from an object, field by field in the order of the object, or from an array whose
items are the first fields in the order of the record. Fields that are not there keep their values,
and keys that the record does not know are passed over.
-/

namespace ChangeFeed.Json.Typed

def found : Json → String
  | .null => "null"
  | .bool true => "boolean `true`"
  | .bool false => "boolean `false`"
  | .number (.natural n) => "integer `" ++ toString n ++ "`"
  | .number (.negative n) => "integer `" ++ toString n ++ "`"
  | .number (.float x) => "floating point `" ++ floatStyle.render x ++ "`"
  | .string s => "string " ++ Text.quoted s
  | .array _ => "sequence"
  | .object _ => "map"

/-- A document of a kind that was not expected. -/
def mismatch {α : Type} (expected : String) (document : Json) : Except String α :=
  .error ("invalid type: " ++ found document ++ ", expected " ++ expected)

def text : Json → Except String String
  | .string s => .ok s
  | document => mismatch "a string" document

def flag : Json → Except String Bool
  | .bool b => .ok b
  | document => mismatch "a boolean" document

/-- A whole number from `-2 ^ 63` to `2 ^ 63 - 1`. -/
def signed : Json → Except String Int
  | .number (.natural n) =>
    if n < Nat.pow 2 63 then .ok n
    else .error ("invalid value: integer `" ++ toString n ++ "`, expected i64")
  | .number (.negative n) => .ok n
  | document => mismatch "i64" document

def optional {α : Type} (read : Json → Except String α) : Json → Except String (Option α)
  | .null => .ok none
  | document => (read document).map some

def items : Json → Except String (List Json)
  | .array xs => .ok xs
  | document => mismatch "a sequence" document

/-- The values of an object by key. -/
def entries {α : Type} (read : Json → Except String α) :
    Json → Except String (List (String × α))
  | .object fields => fields.mapM fun (key, value) => (read value).map (key, ·)
  | document => mismatch "a map" document

/-- A field of a record: its key, and how its value changes the record. -/
structure RecordField (σ : Type) where
  key : String
  read : Json → σ → Except String σ

/-- A field that is set to a value of the given kind. -/
def field {σ α : Type} (key : String) (read : Json → Except String α) (set : σ → α → σ) :
    RecordField σ :=
  ⟨key, fun document s => (read document).map (set s)⟩

/-- Sets the fields that an object has. -/
def ofFields {σ : Type} (fields : List (RecordField σ)) :
    List (String × Json) → σ → Except String σ
  | [], s => .ok s
  | (key, value) :: rest, s =>
    match fields.find? (·.key = key) with
    | none => ofFields fields rest s
    | some f => do ofFields fields rest (← f.read value s)

/-- Sets the first fields to the items of an array. -/
def ofItems {σ : Type} : List (RecordField σ) → List Json → σ → Except String σ
  | f :: fields, x :: xs, s => do ofItems fields xs (← f.read x s)
  | _, _, s => .ok s

/-- A record with the given values where nothing is said. -/
def record {σ : Type} (name : String) (fields : List (RecordField σ)) (standard : σ) :
    Json → Except String σ
  | .object values => ofFields fields values standard
  | .array xs => do
    let s ← ofItems fields xs standard
    if fields.length < xs.length then
      .error ("invalid length " ++ toString xs.length ++ ", expected fewer elements in array")
    else .ok s
  | document => mismatch ("struct " ++ name) document

end ChangeFeed.Json.Typed
