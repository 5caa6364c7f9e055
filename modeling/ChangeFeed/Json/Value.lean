import ChangeFeed.Text.Bytes

/-!
# JSON values

A JSON document as a value. An object keeps its fields as they were written, in order and with
repeated keys; `Json.canonical` is the value the document stands for: fields sorted by key, the
last of several fields with one key winning.
-/

namespace ChangeFeed

/-- A number of a JSON document. -/
inductive Json.Number where
  /-- A whole number from 0 to `2 ^ 64 - 1`. -/
  | natural (n : Nat)
  /-- A negative whole number from `-2 ^ 63`. -/
  | negative (n : Int)
  /-- Any other number. -/
  | float (x : Float)
  deriving Inhabited

/-- A JSON document. -/
inductive Json where
  | null
  | bool (b : Bool)
  | number (n : Json.Number)
  | string (s : String)
  | array (items : List Json)
  | object (fields : List (String × Json))
  deriving Inhabited

namespace Json

/-- A document that is a whole number. -/
def natural (n : Nat) : Json := .number (.natural n)

/-- A document that is a whole number of either sign. -/
def integer (n : Int) : Json :=
  if n < 0 then .number (.negative n) else .number (.natural n.toNat)

/-- Whether two documents are written alike. -/
def beq : Json → Json → Bool
  | .null, .null => true
  | .bool a, .bool b => a == b
  | .number (.natural m), .number (.natural n) => m == n
  | .number (.negative m), .number (.negative n) => m == n
  | .number (.float x), .number (.float y) => x.toBits == y.toBits
  | .string a, .string b => a == b
  | .array as, .array bs => items as bs
  | .object as, .object bs => fields as bs
  | _, _ => false
where
  items : List Json → List Json → Bool
    | [], [] => true
    | a :: as, b :: bs => beq a b && items as bs
    | _, _ => false
  fields : List (String × Json) → List (String × Json) → Bool
    | [], [] => true
    | (k, a) :: as, (l, b) :: bs => k == l && beq a b && fields as bs
    | _, _ => false

instance : BEq Json := ⟨beq⟩

/-- Puts a field into fields sorted by key; a field with the same key is replaced. -/
def insertField (key : String) (value : Json) : List (String × Json) → List (String × Json)
  | [] => [(key, value)]
  | (k, v) :: rest =>
    if key < k then (key, value) :: (k, v) :: rest
    else if key = k then (key, value) :: rest
    else (k, v) :: insertField key value rest

/-- Sorts fields by key; of fields with one key the last wins. -/
def sortFields (fields : List (String × Json)) : List (String × Json) :=
  fields.foldl (fun sorted field => insertField field.1 field.2 sorted) []

/-- The value that a document stands for. -/
def canonical : Json → Json
  | .array xs => .array (items xs)
  | .object fs => .object (sortFields (fields fs))
  | document => document
where
  items : List Json → List Json
    | [] => []
    | x :: xs => canonical x :: items xs
  fields : List (String × Json) → List (String × Json)
    | [] => []
    | (key, x) :: rest => (key, canonical x) :: fields rest

/-- The field of a canonical object. -/
def field? (key : String) : Json → Option Json
  | .object fields => fields.lookup key
  | _ => none

/-- The text of a document that is one. -/
def string? : Json → Option String
  | .string s => some s
  | _ => none

/-- The number of a document that is a whole number from 0. -/
def natural? : Json → Option Nat
  | .number (.natural n) => some n
  | _ => none

end Json

end ChangeFeed
