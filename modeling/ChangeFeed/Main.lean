import ChangeFeed.Console.Program
import ChangeFeed.Json.Printer

/-!
# The command

The outer layer of the program: it collects the environment and the files of settings, asks
`Console.Program.outcome` how the run ends, and prints. This build comes with no network, so every
request is lost, and a run that goes on has nothing to publish until it is stopped.
-/

namespace ChangeFeed.Console

/-- The names of the variables for the settings below a path. -/
def namesBelow (path : String) : Json → List String
  | .object fs => ofFields path fs
  | _ => [path.toUpper]
where
  ofFields (path : String) : List (String × Json) → List String
    | [] => []
    | (name, x) :: rest => namesBelow (path ++ "__" ++ name) x ++ ofFields path rest

/-- The names of all variables that the program looks at. -/
def allNames : List String :=
  "RUST_LOG" :: Settings.fileVariable :: Flag.all.filterMap Flag.environmentName? ++
    namesBelow "firehose" (Settings.form.toJson Settings.standard)

def readEnvironment : IO (List (String × String)) :=
  allNames.filterMapM fun name => do
    match ← IO.getEnv name with
    | some value => pure (some (name, value))
    | none => pure none

/-- The files of the given names, and those with the ending that may be left out. -/
def readFiles (names : List String) : IO Settings.Files := do
  let directory := (← IO.currentDir).toString
  let candidates := names.flatMap fun name =>
    let full := Settings.Files.parts (Settings.Files.absolute ⟨directory, [], []⟩ name)
    name :: (Settings.Files.withEnding? full).toList.map fun full => "/" ++ "/".intercalate full
  let texts ← candidates.filterMapM fun (name : String) => do
    try pure (some (name, ← IO.FS.readFile name))
    catch _ => pure none
  pure ⟨directory, texts, []⟩

/-- A log record about a failure. -/
def failureRecord (format : LogFormat) (message : String) : String :=
  match format with
  | .text => "ERROR " ++ logTarget ++ ": " ++ message
  | .json =>
    (Json.object [("level", .string "ERROR"), ("fields", .object [("message", .string message)]),
      ("target", .string logTarget)]).compact

/-- Waits until the program is stopped. -/
partial def wait : IO UInt32 := do
  IO.sleep 60000
  wait

def run (words : List String) : IO UInt32 := do
  let environment ← readEnvironment
  let config := match Line.read environment words with
    | .ok line => line.config.toList
    | .error _ => []
  let files ← readFiles ((environment.lookup Settings.fileVariable).toList ++ config)
  match Program.outcome environment files words .lost with
  | .answered text =>
    IO.println text
    pure 0
  | .misused text =>
    IO.eprintln text
    pure 2
  | .failed e isLogged format =>
    if isLogged then IO.println (failureRecord format (Program.farewell e))
    pure 1
  | .broken cause =>
    IO.eprintln cause.message
    pure 101
  | .goesOn => wait

end ChangeFeed.Console

def main (words : List String) : IO UInt32 := ChangeFeed.Console.run words
