import ChangeFeed.Settings.Fault
import ChangeFeed.Text.Lower
import ChangeFeed.Decimal.Binary64
import ChangeFeed.Json.Value

/-!
# Layered settings

Settings from several sources are merged into one tree of nodes before they are read. A node knows
which source it came from, unless it was made by merging. Scalars are read leniently: a text may
stand for a number or a flag, and a number for a text.
-/

namespace ChangeFeed.Settings

/-- A value without parts. -/
inductive Scalar where
  | absent
  | flag (b : Bool)
  /-- A whole number of a signed word of 64 bits. -/
  | integer (n : Int)
  /-- A whole number of an unsigned word of 64 bits. -/
  | natural (n : Nat)
  | float (x : Float)
  | text (s : String)
  deriving Inhabited

/-- Floating point numbers in settings: without exponent, whole ones without a point, and of two
equally near decimals the greater magnitude. -/
def floatStyle : Decimal.Style := ⟨none, false, .away⟩

/-- What a scalar of the wrong kind is called. -/
def Scalar.found : Scalar → String
  | .absent => "unit value"
  | .flag b => "boolean `" ++ toString b ++ "`"
  | .integer n => "64-bit integer `" ++ toString n ++ "`"
  | .natural n => "64-bit unsigned integer `" ++ toString n ++ "`"
  | .float x => "floating point `" ++ floatStyle.render x ++ "`"
  | .text s => "string " ++ Text.quoted s

/-- A node of merged settings. -/
inductive Node where
  | scalar (origin : Option String) (value : Scalar)
  | table (origin : Option String) (fields : List (String × Node))
  | list (origin : Option String) (items : List Node)
  deriving Inhabited

namespace Node

def nothing : Node := .scalar none .absent

def emptyTable : Node := .table none []

def origin : Node → Option String
  | .scalar origin _ => origin
  | .table origin _ => origin
  | .list origin _ => origin

/-! ## Merging -/

/-- One step of the path to a node. -/
inductive Step where
  | key (name : String)
  /-- A place in a list; a negative one counts from the end. -/
  | index (n : Int)
  deriving DecidableEq, Inhabited

/-- The fields of a table; anything else has none. -/
def fields : Node → List (String × Node)
  | .table _ fields => fields
  | _ => []

/-- The items of a list; anything else has none. -/
def items : Node → List Node
  | .list _ items => items
  | _ => []

def setField (key : String) (value : Node) : List (String × Node) → List (String × Node)
  | [] => [(key, value)]
  | (k, node) :: rest =>
    if k = key then (k, value) :: rest else (k, node) :: setField key value rest

/-- Sets the item at a position; nothing fills the list up to it. -/
def setItem (n : Nat) (value : Node) (items : List Node) : List Node :=
  let items := items ++ List.replicate (n + 1 - items.length) nothing
  items.take n ++ value :: items.drop (n + 1)

/-- Sets a field of the node as a table. -/
def setKey (root : Node) (key : String) (value : Node) : Node :=
  match root with
  | .table origin fields => .table origin (setField key value fields)
  | _ => .table none [(key, value)]

/-- Sets an item of the node as a list. -/
def setIndex (root : Node) (n : Nat) (value : Node) : Node :=
  match root with
  | .list origin items => .list origin (setItem n value items)
  | _ => .list none (setItem n value [])

/-- Puts a value at a key. A table is merged into what is there, field by field; anything else
replaces it. Keys are in small letters. -/
def put (key : String) (value : Node) (root : Node) : Node :=
  let key := Text.lower key
  match value with
  | .table _ incoming => root.setKey key (merge ((root.fields.lookup key).getD emptyTable) incoming)
  | value => root.setKey key value
where
  merge (target : Node) : List (String × Node) → Node
    | [] => target
    | (key, value) :: rest => merge (put key value target) rest

/-- The greatest number of items of a list that was made by putting something at an index. -/
def greatestLength : Nat := Nat.pow 2 32

/-- The position that an index means in a list of the given length. -/
def position (index : Int) (length : Nat) : Except Fault Nat :=
  if index < 0 then
    if index.natAbs ≤ length then .ok (length - index.natAbs) else .error (.broken .beforeStart)
  else if index < greatestLength then .ok index.toNat
  else .error (.broken .tooLong)

/-- Puts a value at the end of a path. -/
def putAt : List Step → Node → Node → Except Fault Node
  | [], value, _ => .ok value
  | [.key key], value, root => .ok (put key value root)
  | .key key :: rest, value, root => do
    let key := Text.lower key
    let below ← putAt rest value ((root.fields.lookup key).getD nothing)
    pure (root.setKey key below)
  | .index n :: rest, value, root => do
    let i ← position n root.items.length
    let below ← putAt rest value (root.items.getD i nothing)
    pure (root.setIndex i below)

/-! ## Scalars -/

/-- What a node of the wrong kind is called. -/
def found : Node → String
  | .scalar _ value => value.found
  | .table _ _ => "map"
  | .list _ _ => "sequence"

/-- The fault of a node of the wrong kind. -/
def unfit (node : Node) (expected : String) : Fault := .kind node.found expected none node.origin

/-- Reads a flag: numbers other than zero and the words `1`, `true`, `on` and `yes` are set. -/
def flag (node : Node) : Except Fault Bool :=
  match node with
  | .scalar origin value =>
    match value with
    | .flag b => .ok b
    | .integer n => .ok (n ≠ 0)
    | .natural n => .ok (n ≠ 0)
    | .float x => .ok (x != 0)
    | .text s =>
      let word := Text.lower s
      if word ∈ ["1", "true", "on", "yes"] then .ok true
      else if word ∈ ["0", "false", "off", "no"] then .ok false
      else .error (.kind (Scalar.found (.text word)) "a boolean" none origin)
    | .absent => .error (node.unfit "a boolean")
  | _ => .error (node.unfit "a boolean")

/-- Reads a number below `2 ^ 64`: floating point numbers are rounded, words for flags are 0 and
1. -/
def natural (node : Node) : Except Fault Nat :=
  match node with
  | .scalar _ value =>
    match value with
    | .natural n => .ok n
    | .integer n =>
      if 0 ≤ n then .ok n.toNat else .error (node.unfit "an unsigned 64 bit or less integer")
    | .text s =>
      let word := Text.lower s
      if word ∈ ["true", "on", "yes"] then .ok 1
      else if word ∈ ["false", "off", "no"] then .ok 0
      else
        match Decimal.unsigned? 64 s.toList with
        | some n => .ok n
        | none => .error (node.unfit "an integer")
    | .flag b => .ok b.toNat
    | .float x => .ok x.round.toUInt64.toNat
    | .absent => .error (node.unfit "an integer")
  | _ => .error (node.unfit "an integer")

/-- Reads a number of a word of the given width. A number beyond it has lost its source. -/
def word (bits : Nat) (node : Node) : Except Fault Nat := do
  let n ← node.natural
  if n < Nat.pow 2 bits then pure n
  else
    .error (.kind (Scalar.found (.natural n)) s!"an unsigned {bits} bit integer" none none)

/-- Reads a text: numbers and flags are written out. -/
def text (node : Node) : Except Fault String :=
  match node with
  | .scalar _ value =>
    match value with
    | .text s => .ok s
    | .flag b => .ok (toString b)
    | .integer n => .ok (toString n)
    | .natural n => .ok (toString n)
    | .float x => .ok (floatStyle.render x)
    | .absent => .error (node.unfit "a string")
  | _ => .error (node.unfit "a string")

end Node

/-- The fault with a step put in front of the name of the value at fault. -/
def Fault.under (step : Node.Step) : Fault → Fault
  | .kind found expected key origin =>
    let inner := key.getD ""
    let name := match step with
      | .key k => k ++ (if inner.toList.headD '[' = '[' then "" else ".") ++ inner
      | .index n => "[" ++ toString n ++ "]" ++ inner
    .kind found expected (some name) origin
  | .missing key =>
    match step with
    | .key k => .missing (k ++ (if key.toList.headD '[' = '[' then "" else ".") ++ key)
    | .index n => .missing ("[" ++ toString n ++ "]" ++ key)
  | fault => fault

/-- Settings in memory as a layer. A whole number beyond a signed word of 64 bits does not fit. -/
def Node.ofJson : Json → Except Fault Node
  | .null => .ok .nothing
  | .bool b => .ok (.scalar none (.flag b))
  | .number (.natural n) =>
    if n < Nat.pow 2 63 then .ok (.scalar none (.integer n))
    else .error (.other s!"value {n} is greater than the max 9223372036854775807")
  | .number (.negative n) => .ok (.scalar none (.integer n))
  | .number (.float x) => .ok (.scalar none (.float x))
  | .string s => .ok (.scalar none (.text s))
  | .array xs => (items xs).map (.list none)
  | .object fs => (fields fs).map (.table none)
where
  items : List Json → Except Fault (List Node)
    | [] => .ok []
    | x :: xs => do
      let node ← Node.ofJson x
      let rest ← items xs
      pure (node :: rest)
  fields : List (String × Json) → Except Fault (List (String × Node))
    | [] => .ok []
    | (key, x) :: rest => do
      let node ← Node.ofJson x
      let more ← fields rest
      pure ((key, node) :: more)

end ChangeFeed.Settings
