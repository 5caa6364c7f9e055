/-!
# TOML documents

A document as a tree. A table knows how it came about, because that decides what may still be added
to it: a table under its own header, one implied by the header of a table inside it, one made by a
dotted key, and one written inline, to which nothing is added.

`Item.insert?` adds a value at a dotted key, `Item.open?` and `Item.append?` put a table at the path
of a header. Each refuses what would define a key twice.
-/

namespace ChangeFeed.Toml

/-- How a table came about. -/
inductive Making where
  | header | implied | dotted | inline
  deriving DecidableEq, Inhabited

/-- A value of a document. -/
inductive Item where
  | text (s : String)
  | integer (n : Int)
  | float (x : Float)
  | flag (b : Bool)
  /-- A date, a time of day, or both, in its normal text. -/
  | moment (s : String)
  | list (items : List Item)
  | table (making : Making) (fields : List (String × Item))
  /-- Tables under headers of their own that share a name. -/
  | tables (items : List Item)
  deriving Inhabited

namespace Item

/-- Replaces the value of a key, or adds it. -/
def setField (key : String) (item : Item) : List (String × Item) → List (String × Item)
  | [] => [(key, item)]
  | (k, v) :: rest => if k = key then (key, item) :: rest else (k, v) :: setField key item rest

/-- Changes the last of several items. -/
def changeLast? (change : Item → Option Item) : List Item → Option (List Item)
  | [] => none
  | [x] => (change x).map fun y => [y]
  | x :: xs => (changeLast? change xs).map (x :: ·)

/-- Changes the table at a path. A table that is missing on the way is made, by a dotted key or by
implication. A dotted key does not enter a table with a header, and nothing enters other values. -/
def change? (dotted : Bool) (change : Item → Option Item) : List String → Item → Option Item
  | [], item => change item
  | key :: path, .table making fields =>
    let inner : Item → Option Item := change? dotted change path
    let next? : Option Item := match fields.lookup key with
      | none => inner (.table (if dotted then .dotted else .implied) [])
      | some (.tables items) => (changeLast? inner items).map .tables
      | some (.table made fields) =>
        if made = .inline ∨ (dotted ∧ made = .header) then none else inner (.table made fields)
      | some _ => none
    next?.map fun next => .table making (setField key next fields)
  | _, _ => none

/-- Adds a value to a table. -/
def add? (key : String) (value : Item) : Item → Option Item
  | .table making fields =>
    if (fields.lookup key).isSome then none else some (.table making (fields ++ [(key, value)]))
  | _ => none

/-- Adds a value at a dotted key, whose last part is the name of the value. -/
def insert? (path : List String) (key : String) (value : Item) (table : Item) : Option Item :=
  match path with
  | [] => add? key value table
  | _ =>
    change? true
      (fun item => match item with
        | .table .dotted _ => add? key value item
        | _ => none)
      path table

/-- Puts a finished table under its header. -/
def open? (path : List String) (key : String) (fields : List (String × Item)) (root : Item) :
    Option Item :=
  change? false
    (fun parent => match parent with
      | .table making known => some (.table making (setField key (.table .header fields) known))
      | _ => none)
    path root

/-- The fields that a table has when its header is met: none, or those that headers of inner tables
implied. Any other table of that name would be defined twice. -/
def implied? (path : List String) (key : String) (root : Item) :
    Option (List (String × Item)) :=
  match follow path root with
  | none => none
  | some fields =>
    match fields.lookup key with
    | none => some []
    | some (.table .implied fields) => some fields
    | some _ => none
where
  follow : List String → Item → Option (List (String × Item))
    | [], .table _ fields => some fields
    | key :: path, .table _ fields =>
      match fields.lookup key with
      | none => some []
      | some (.tables items) =>
        match items.getLast? with
        | some last => follow path last
        | none => none
      | some (.table .inline _) => none
      | some item => follow path item
    | _, _ => none

/-- Takes the table of a header out, if it is there already; it comes back as the last of the table
that it is in. -/
def take? (path : List String) (key : String) (root : Item) : Option Item :=
  change? false
    (fun parent => match parent with
      | .table making known => some (.table making (known.filter fun field => field.1 ≠ key))
      | _ => none)
    path root

/-- Adds a table to those of its name. -/
def append? (path : List String) (key : String) (fields : List (String × Item)) (root : Item) :
    Option Item :=
  change? false
    (fun parent => match parent with
      | .table making known =>
        match known.lookup key with
        | none => some (.table making (setField key (.tables [.table .header fields]) known))
        | some (.tables items) =>
          some (.table making (setField key (.tables (items ++ [.table .header fields])) known))
        | some _ => none
      | _ => none)
    path root

end Item

end ChangeFeed.Toml
