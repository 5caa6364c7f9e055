import ChangeFeed.Role

/-!
# Command lines

A command line names what to watch, as a command, and may set options before and after it. An option
that is set nowhere is taken from the environment, else it has its default. Options before the
command and those after it are read apart: each may be set once, and the one after the command wins.

Words are read from the left and the first fault wins, with one exception: the value of an option
that is a word of its own is looked at only when the next option, the end of the command or the end
of the line is reached. What the words after a command amount to is known before a value that stands
last before it is looked at.

* `Line.read` reads a command line.
-/

namespace ChangeFeed.Console

/-- A fault of a command line. -/
inductive Mistake where
  /-- An option has no value, or one that it cannot have. -/
  | value
  /-- There is no such argument. -/
  | argument
  /-- There is no such command. -/
  | command
  /-- An option without a value has one. -/
  | attached
  /-- An option is set twice. -/
  | repeated
  /-- No command is given. -/
  | nothing
  deriving DecidableEq, Inhabited

def Mistake.text : Mistake → String
  | .value => "error: one of the values isn't valid for an argument"
  | .argument => "error: unexpected argument found"
  | .command => "error: unrecognized subcommand"
  | .attached => "error: unexpected value for an argument found"
  | .repeated =>
    "error: an argument cannot be used with one or more of the other specified arguments"
  | .nothing => "error: a subcommand is required but one was not provided"

/-- An option. -/
inductive Flag where
  /-- The filter of log records. -/
  | logLevel
  /-- The form of log records. -/
  | logFormat
  /-- One more file of settings. -/
  | config
  deriving DecidableEq, Inhabited

namespace Flag

def all : List Flag := [.logLevel, .logFormat, .config]

def name : Flag → String
  | .logLevel => "log-level"
  | .logFormat => "log-format"
  | .config => "config"

/-- The variable of the environment with the value of an option that is not set. -/
def environmentName? : Flag → Option String
  | .logLevel => some "LOG_LEVEL"
  | .logFormat => some "LOG_FORMAT"
  | .config => none

/-- The value that the environment has for an option. -/
def outer? (o : Flag) (environment : List (String × String)) : Option String :=
  o.environmentName?.bind fun name => environment.lookup name

/-- Whether an option may have a value. -/
def takes (o : Flag) (value : String) : Bool :=
  match o with
  | .logFormat => value = "text" || value = "json"
  | .logLevel | .config => true

end Flag

/-- Why reading ends before the end of the line. -/
inductive Stop where
  /-- Help is asked for. -/
  | help
  | version
  /-- Nothing is given, which is answered with help. -/
  | usage
  | mistake (m : Mistake)
  deriving DecidableEq, Inhabited

/-- The options on one side of the command. -/
structure Level where
  values : List (Flag × String)
  /-- The option whose value is still to be looked at, or even to come. -/
  pending : Option (Flag × Option String)
  deriving DecidableEq, Inhabited

namespace Level

def empty : Level := ⟨[], none⟩

def put (l : Level) (o : Flag) (value : String) : Except Stop Level :=
  if (l.values.lookup o).isSome then .error (.mistake .repeated)
  else if !o.takes value then .error (.mistake .value)
  else .ok { l with values := l.values ++ [(o, value)] }

/-- Looks at the value that was put off. -/
def settle (l : Level) : Except Stop Level :=
  match l.pending with
  | none => .ok l
  | some (_, none) => .error (.mistake .value)
  | some (o, some value) => { l with pending := none }.put o value

/-- Whether the next word is the value of an option. -/
def awaits (l : Level) : Bool := (l.pending.map fun p => p.2.isNone).getD false

/-- Ends the reading after what was put off. -/
def stop (l : Level) (s : Stop) : Except Stop Level := do
  let _ ← l.settle
  .error s

/-- Reads an option by its name, perhaps with a value attached. -/
def long (l : Level) (isOutside : Bool) (name : String) (value : Option String) :
    Except Stop Level :=
  if name = "help" ∨ (isOutside ∧ name = "version") then
    if value.isSome then .error (.mistake .attached)
    else l.stop (if name = "help" then .help else .version)
  else
    match Flag.all.find? (·.name = name), value with
    | none, _ => .error (.mistake .argument)
    | some o, some value => do (← l.settle).put o value
    | some o, none => do pure { ← l.settle with pending := some (o, none) }

/-- Reads an option by its letter. -/
def short (l : Level) (isOutside : Bool) (letter : Char) : Except Stop Level :=
  if letter = 'h' then l.stop .help
  else if isOutside ∧ letter = 'V' then l.stop .version
  else .error (.mistake .argument)

/-- Reads a word that is no command; a word that is neither an option nor a value is the fault. -/
def word (l : Level) (isOutside : Bool) (w : String) (fault : Mistake) : Except Stop Level :=
  match w.toList with
  | '-' :: '-' :: cs =>
    let name := cs.takeWhile (· ≠ '=')
    let value := match cs.drop name.length with
      | [] => none
      | _ :: cs => some (String.ofList cs)
    l.long isOutside (String.ofList name) value
  | '-' :: c :: _ => l.short isOutside c
  | _ =>
    match l.pending with
    | some (o, none) => .ok { l with pending := some (o, some w) }
    | _ => .error (.mistake fault)

/-- Looks at what was put off, and at the values of the environment for what is not set. -/
def close (l : Level) (environment : List (String × String)) : Except Stop Level := do
  let l ← l.settle
  let fromOutside : List (Flag × String) := Flag.all.filterMap fun o =>
    if (l.values.lookup o).isSome then none
    else (o.outer? environment).map (o, ·)
  if fromOutside.all fun (o, value) => o.takes value then pure l
  else .error (.mistake .value)

end Level

/-- The form of log records. -/
inductive LogFormat where
  | text | json
  deriving DecidableEq, Inhabited

/-- A command line with all its options. -/
structure Line where
  role : Role
  logLevel : String
  logFormat : LogFormat
  config : Option String
  deriving DecidableEq, Inhabited

namespace Line

/-- The commands and what they watch. -/
def commands : List (String × Role) := [
  ("allocations", .allocations), ("nodes", .nodes), ("nodeliststubs", .nodeStubs),
  ("evaluations", .evaluations), ("jobs", .jobs), ("jobliststubs", .jobStubs),
  ("deployments", .deployments)]

/-- Whether a word is a command. -/
def isCommand (w : String) : Bool := w = "help" || (commands.lookup w).isSome

/-- Reads the words after a command. After two hyphens nothing may follow. -/
def inside (l : Level) : List String → Except Stop Level
  | [] => .ok l
  | "--" :: [] => .ok l
  | "--" :: _ => .error (.mistake .argument)
  | w :: ws => do inside (← l.word false w .argument) ws

/-- What the words after the command for help amount to. -/
def helpOf : List String → Stop
  | [] => .help
  | [w] => if isCommand w then .help else .mistake .command
  | _ :: _ :: _ => .mistake .command

/-- What a word after two hyphens amounts to. -/
def afterHyphens (w : String) : Stop :=
  .mistake (if isCommand w then .argument else .command)

/-- Reads the words up to a command; answers the options before it, its role, and the words after
it. -/
def outside (l : Level) : List String → Except Stop (Level × Option (Role × List String))
  | [] => .ok (l, none)
  | w :: ws =>
    if !l.awaits && w = "help" then .error (helpOf ws)
    else
      match if l.awaits then none else commands.lookup w with
      | some role => .ok (l, some (role, ws))
      | none =>
        if w = "--" then
          match ws with
          | [] => .ok (l, none)
          | next :: _ => .error (afterHyphens next)
        else do outside (← l.word true w .command) ws

def read (environment : List (String × String)) (words : List String) : Except Stop Line := do
  match ← outside .empty words with
  | (before, none) =>
    let before ← before.close environment
    let isSet (o : Flag) : Bool := (o.outer? environment).isSome
    if before.values.isEmpty && !Flag.all.any isSet then .error .usage
    else .error (.mistake .nothing)
  | (before, some (role, words)) =>
    let after ← (← inside .empty words).close environment
    let before ← before.close environment
    let value (o : Flag) : Option String :=
      after.values.lookup o <|> before.values.lookup o <|> o.outer? environment
    pure {
      role
      logLevel := (value .logLevel).getD "info"
      logFormat := if value .logFormat = some "json" then .json else .text
      config := value .config }

end Line

end ChangeFeed.Console
