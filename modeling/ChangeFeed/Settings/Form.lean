import ChangeFeed.Settings.Node
import ChangeFeed.Json.Selective
import ChangeFeed.Net.Address

/-!
# Forms of settings

A form says how one kind of setting is written and read. Each form reads both JSON text, where every
value must be of its kind, and merged layers, where values are read leniently; and it writes JSON.

A record is put together field by field: `Fields.field` names one field with its form and says where
it stands in the record, and `Fields.and` joins one to those before it. A field that is left out has
the value that it has in a standard record. A record may also be given as the list of its values in
the order of its fields, of which those at the end may be left out.
-/

namespace ChangeFeed.Settings

/-- How one kind of setting is written and read. -/
structure Form (α : Type) where
  shape : Json.Shape
  /-- Reads a JSON document as written. -/
  ofJson? : Json → Option α
  ofNode : Node → Except Fault α
  toJson : α → Json

namespace Form

def text : Form String := ⟨.whole, Json.string?, Node.text, .string⟩

/-- Numbers of a word of the given width. -/
def word (bits : Nat) : Form Nat where
  shape := .whole
  ofJson? j := j.natural?.filter (· < Nat.pow 2 bits)
  ofNode := Node.word bits
  toJson := .natural

def flag : Form Bool where
  shape := .whole
  ofJson?
    | .bool b => some b
    | _ => none
  ofNode := Node.flag
  toJson := .bool

def address : Form Net.Address where
  shape := .whole
  ofJson? j := j.string?.bind Net.Address.read?
  ofNode node := do
    match Net.Address.read? (← node.text) with
    | some a => pure a
    | none => .error (.other "invalid IP address syntax")
  toJson a := .string a.text

/-- Settings that may be left out. -/
def optional {α : Type} (form : Form α) : Form (Option α) where
  shape := form.shape
  ofJson?
    | .null => some none
    | j => (form.ofJson? j).map some
  ofNode
    | .scalar _ .absent => .ok none
    | node => (form.ofNode node).map some
  toJson
    | some a => form.toJson a
    | none => .null

/-- One of several named values: the name, or an object whose only key is the name. In layers the
case of letters does not matter. -/
def choice {α : Type} (type : String) (values : List α) (name : α → String) : Form α where
  shape := .whole
  ofJson?
    | .string s => values.find? (name · = s)
    | .object [(s, .null)] => values.find? (name · = s)
    | _ => none
  ofNode node :=
    let named (s : String) : Except Fault α :=
      match values.find? (name · = Text.lower s) with
      | some a => .ok a
      | none => .error (.other ("enum " ++ type ++ " does not have variant constructor " ++ s))
    match node with
    | .scalar _ (.text s) => named s
    | .table _ [(s, _)] => named s
    | _ =>
      .error (.other ("value of enum " ++ type ++
        " should be represented by either string or table with exactly one key"))
  toJson a := .string (name a)

end Form

/-! ## Records -/

/-- Part of the fields of a record `ρ`, which together give an `α`. To read them takes a record from
which the fields that are left out have their values. -/
structure Fields (ρ α : Type) where
  names : List (String × Json.Shape)
  /-- Reads the fields from the values of their names in JSON. -/
  ofJson? : ρ → (String → Option Json) → Option α
  ofNodes : ρ → (String → Option (Node.Step × Node)) → Except Fault α
  toJson : ρ → List (String × Json)

namespace Fields

variable {ρ α β : Type}

/-- A field with its form, and where it stands in the record. -/
def field (name : String) (form : Form α) (get : ρ → α) : Fields ρ α where
  names := [(name, form.shape)]
  ofJson? standard values :=
    match values name with
    | some j => form.ofJson? j
    | none => some (get standard)
  ofNodes standard nodes :=
    match nodes name with
    | some (step, node) => (form.ofNode node).mapError (·.under step)
    | none => .ok (get standard)
  toJson r := [(name, form.toJson (get r))]

/-- The fields of one part, and then those of another. -/
def seq (f : Fields ρ (α → β)) (x : Fields ρ α) : Fields ρ β where
  names := f.names ++ x.names
  ofJson? standard values := do
    let g ← f.ofJson? standard values
    let a ← x.ofJson? standard values
    pure (g a)
  ofNodes standard nodes := do
    let g ← f.ofNodes standard nodes
    let a ← x.ofNodes standard nodes
    pure (g a)
  toJson r := f.toJson r ++ x.toJson r

def none (a : α) : Fields ρ α := ⟨[], fun _ _ => some a, fun _ _ => .ok a, fun _ => []⟩

/-- One more field of a record that is put together. -/
def and (f : Fields ρ (α → β)) (name : String) (form : Form α) (get : ρ → α) : Fields ρ β :=
  f.seq (field name form get)

end Fields

/-- What a value is called where a record was expected. -/
def Scalar.insteadOfRecord : Scalar → String
  | .absent => "unit value"
  | .flag b => "boolean `" ++ toString b ++ "`"
  | .integer n => "integer `" ++ toString n ++ "`"
  | .natural n => "integer `" ++ toString n ++ "`"
  | .float x =>
    "floating point `" ++ Decimal.Style.render { floatStyle with point := true } x ++ "`"
  | .text s => "string " ++ Text.quoted s

/-- Records: objects, of which unknown fields are left out and known ones may not be repeated, or
lists of the values of the fields. What is left out is as in the standard record. -/
def Form.record {ρ : Type} (type : String) (standard : ρ) (fields : Fields ρ ρ) : Form ρ where
  shape := .record fields.names
  ofJson?
    | .object given =>
      let known := given.filter fun entry => fields.names.any (·.1 = entry.1)
      let keys := known.map Prod.fst
      if keys.eraseDups.length = keys.length then
        fields.ofJson? standard fun name => known.lookup name
      else Option.none
    | .array given =>
      if given.length ≤ fields.names.length then
        let placed := (fields.names.map Prod.fst).zip given
        fields.ofJson? standard fun name => placed.lookup name
      else Option.none
    | _ => Option.none
  ofNode
    | .table _ given =>
      fields.ofNodes standard fun name => (given.lookup name).map fun node => (.key name, node)
    | .list _ given =>
      let placed := ((fields.names.map Prod.fst).zip given).zipIdx
      fields.ofNodes standard fun name =>
        (placed.find? (·.1.1 = name)).map fun entry => (.index entry.2, entry.1.2)
    | .scalar _ value =>
      .error (.other ("invalid type: " ++ value.insteadOfRecord ++ ", expected struct " ++ type))
  toJson r := .object (fields.toJson r)

/-- Reads a JSON text in a form. -/
def Form.read? {α : Type} (form : Form α) (source : String) : Option α :=
  (Json.readPart? form.shape source).bind form.ofJson?

end ChangeFeed.Settings
