import ChangeFeed.Settings.All
import ChangeFeed.Toml.Reader

/-!
# Sources of settings

Settings come from three layers: the defaults or settings at hand, a TOML file, and the environment.
A later layer wins. A variable of the environment names a setting by its path, and its text is taken
for a flag or a number if it reads as one; `Settings.load` and `Settings.override` build the layers
and read them.
-/

namespace ChangeFeed.Settings

/-! ## Paths -/

/-- Whether a character may stand in a part of a path. -/
def isPathCharacter (c : Char) : Bool := c.isAlphanum || c = ' ' || c = '_' || c = '-'

/-- Reads an index between brackets, after the first. -/
def index? (cs : List Char) : Option (Int × List Char) :=
  let isGap (c : Char) : Bool := c = ' ' || c = '\t'
  let cs := cs.dropWhile isGap
  let word := cs.takeWhile fun c => Decimal.isDigit c || c = '-'
  match (cs.drop word.length).dropWhile isGap with
  | ']' :: rest => (Decimal.signed? 64 word).map fun n => (n, rest)
  | _ => none

/-- Reads the steps that follow the first part of a path; the fuel is the number of characters. -/
def laterSteps? : Nat → List Char → Option (List Node.Step)
  | _, [] => some []
  | 0, _ => none
  | fuel + 1, '.' :: cs =>
    let name := cs.takeWhile isPathCharacter
    if name.isEmpty then none
    else (laterSteps? fuel (cs.drop name.length)).map (.key (String.ofList name) :: ·)
  | fuel + 1, '[' :: cs =>
    (index? cs).bind fun (n, rest) => (laterSteps? fuel rest).map (.index n :: ·)
  | _, _ => none

/-- The steps of a path; a text that is no path is a single name. -/
def steps (path : String) : List Node.Step :=
  let cs := path.toList
  let name := cs.takeWhile isPathCharacter
  let later? := if name.isEmpty then none else laterSteps? cs.length (cs.drop name.length)
  match later? with
  | some later => .key (String.ofList name) :: later
  | none => [.key path]

/-! ## The environment -/

/-- What the names of settings start with, in small letters. -/
def environmentPrefix : String := "firehose__"

/-- What a text of the environment stands for. -/
def guess (s : String) : Scalar :=
  match Text.lower s with
  | "true" => .flag true
  | "false" => .flag false
  | _ =>
    match Decimal.signed? 64 s.toList with
    | some n => .integer n
    | none =>
      match Decimal.Binary64.read? s.toList with
      | some x => .float x
      | none => .text s

/-- The path that a name of the environment stands for: two underscores separate its parts. -/
def environmentPath? (name : String) : Option String :=
  let low := (Text.lower name).toList
  let start := environmentPrefix.toList
  if start.isPrefixOf low then some (String.ofList (separate (low.drop start.length))) else none
where
  separate : List Char → List Char
    | '_' :: '_' :: cs => '.' :: separate cs
    | c :: cs => c :: separate cs
    | [] => []

/-- One layer: values with their paths. -/
abbrev Layer := List (String × Node)

/-- The layer of an environment. Empty variables count as unset. -/
def environmentLayer (environment : List (String × String)) : Layer :=
  environment.filterMap fun (name, value) =>
    if value = "" then none
    else (environmentPath? name).map fun path =>
      (path, .scalar (some "the environment") (guess value))

/-! ## Files -/

/-- A value of a file as a node. -/
def ofToml (origin : String) : Toml.Item → Node
  | .text s => .scalar (some origin) (.text s)
  | .integer n => .scalar (some origin) (.integer n)
  | .float x => .scalar (some origin) (.float x)
  | .flag b => .scalar (some origin) (.flag b)
  | .moment s => .scalar (some origin) (.text s)
  | .list xs => .list (some origin) (items xs)
  | .tables xs => .list (some origin) (items xs)
  | .table _ fs => .table (some origin) (fields fs)
where
  items : List Toml.Item → List Node
    | [] => []
    | x :: xs => ofToml origin x :: items xs
  fields : List (String × Toml.Item) → List (String × Node)
    | [] => []
    | (key, x) :: rest => (key, ofToml origin x) :: fields rest

/-- The files that can be read, by their paths, and the directory where paths start that do not
start at the root. -/
structure Files where
  directory : String
  texts : List (String × String)
  /-- The paths of what is neither a file nor a directory. -/
  devices : List String
  deriving Inhabited

namespace Files

/-- The parts of a path, without those that stand for the place itself. -/
def parts (path : String) : List String :=
  (Text.splitOn '/' path).filter fun part => part ≠ "" && part ≠ "."

/-- A path as it is from the root. -/
def absolute (files : Files) (path : String) : String :=
  if path.startsWith "/" then path else files.directory ++ "/" ++ path

/-- The place of a path that is known to exist. -/
def place (files : Files) (path : String) : List String := parts (files.absolute path)

/-- The path from the working directory to a place. -/
def relative (files : Files) (full : List String) : String :=
  let base := parts files.directory
  let shared := ((full.zip base).takeWhile fun (a, b) => a = b).length
  "/".intercalate (List.replicate (base.length - shared) ".." ++ full.drop shared)

/-- Whether a place is a directory: the working directory, or one above it or above a file. -/
def isDirectory (files : Files) (here : List String) : Bool :=
  here.isPrefixOf (parts files.directory) || files.texts.any fun file =>
    here.isPrefixOf (files.place file.1) && here ≠ files.place file.1

/-- The place that the parts of a path lead to, from one place to the next. -/
def follow? (files : Files) (here : List String) : List String → Option (List String)
  | [] => some here
  | part :: rest =>
    if !files.isDirectory here then none
    else files.follow? (if part = ".." then here.dropLast else here ++ [part]) rest

/-- The text of the file at a place. -/
def text? (files : Files) (full : List String) : Option String :=
  (files.follow? [] full).bind fun here =>
    (files.texts.find? fun file => files.place file.1 = here).map Prod.snd

/-- Whether a path can only be that of a directory. -/
def namesDirectory (path : String) : Bool :=
  ["", ".", ".."].contains ((Text.splitOn '/' path).getLast?.getD "")

/-- What follows the last point of a file's name, if something stands before that point. -/
def extension (name : String) : String :=
  let after := name.toList.reverse.takeWhile (· ≠ '.')
  if after.length + 1 < name.length then String.ofList after.reverse else ""

/-- The place of a file's name with the ending `.toml`. What leads to the parent directory is no
name. -/
def withEnding? (full : List String) : Option (List String) :=
  match full.getLast? with
  | none | some ".." => none
  | some name => some (full.dropLast ++ [name ++ ".toml"])

/-- The file of a name: the file itself, which must be TOML by its name, or the one with the ending
`.toml`. Answers its path from the working directory and its text. -/
def find (files : Files) (name : String) : Except Fault (String × String) :=
  let full := parts (files.absolute name)
  match if namesDirectory name then none else files.text? full with
  | some source =>
    if extension (full.getLast?.getD "") = "toml" then .ok (files.relative full, source)
    else
      .error (.source ("configuration file \"" ++ files.absolute name ++
        "\" is not of a registered file format"))
  | none =>
    match (withEnding? full).bind fun full => (files.text? full).map (full, ·) with
    | some (full, source) => .ok (files.relative full, source)
    | none => .error (.source ("configuration file \"" ++ name ++ "\" not found"))

end Files

def fileLayer (files : Files) (name : String) : Except Fault Layer := do
  let (origin, source) ← files.find name
  match (Toml.read? source).map (ofToml origin) with
  | some (.table _ fields) => pure fields
  | _ => .error (.file origin)

/-! ## Layers together -/

/-- A tree with the values of one more layer. -/
def addLayer (root : Node) (layer : Layer) : Except Fault Node :=
  layer.foldlM (fun root (path, value) => Node.putAt (steps path) value root) root

/-- Reads settings from layers, of which later ones win. -/
def ofLayers (layers : List Layer) : Except Fault Settings := do
  Settings.form.ofNode (← layers.foldlM addLayer .emptyTable)

/-- Settings at hand as a layer. -/
def layer (s : Settings) : Except Fault Layer :=
  (Node.ofJson (Settings.form.toJson s)).map Node.fields

/-- The name of the variable that names a file of settings. -/
def fileVariable : String := "CONFIG_PATH"

/-- The settings of an environment: the defaults, the file that it names, and its variables. -/
def load (environment : List (String × String)) (files : Files) : Except Fault Settings := do
  let defaults ← standard.layer
  let file ← match environment.lookup fileVariable with
    | some name => fileLayer files name
    | none => pure []
  ofLayers [defaults, file, environmentLayer environment]

/-- Settings with those of one more file, and once more with the environment. -/
def override (s : Settings) (environment : List (String × String)) (files : Files)
    (name : String) : Except Fault Settings := do
  let present ← s.layer
  let file ← fileLayer files name
  ofLayers [present, file, environmentLayer environment]

end ChangeFeed.Settings
