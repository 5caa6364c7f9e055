import ChangeFeed.Console.Arguments
import ChangeFeed.Console.Filter
import ChangeFeed.Consul.Tenure
import ChangeFeed.Orchestrator.Queries
import ChangeFeed.Settings.Sources
import ChangeFeed.Sink.Build
import ChangeFeed.Watch.Reports

/-!
# The program

From a command line to the run of a role. Before the run come the settings and their validation, the
clients, the store of checkpoints and the sink, in this order, and the first fault ends the program.
Then the role's lock is acquired: the embedded backend grants it at once, and Consul is asked for a
session. Whoever has the lock makes the channel for the reports of its watcher.

* `Program.outcome` says how a run ends, or that it goes on, for one delivery of all requests that
  are made on the way to the lock.
-/

namespace ChangeFeed.Console

/-- The target of the program's log records. -/
def logTarget : String := "nomad_firehose"

/-- What the program says about itself. -/
def about : String := "Stream Nomad changes to a sink"

/-- The name and the version of the program. -/
def versionText : String := "nomad-firehose 0.1.0"

/-- What is said when help is asked for. -/
def helpText : String :=
  about ++ "\n\nUsage: nomad-firehose [OPTIONS] <COMMAND>\n\nCommands:\n" ++
    String.join (Line.commands.map fun c => "  " ++ c.1 ++ "\n") ++
    "  help\n\nOptions:\n" ++
    String.join (Flag.all.map fun o => "      --" ++ o.name ++ " <VALUE>\n") ++
    "  -h, --help\n  -V, --version\n"

/-- How a run of the program ends. -/
inductive Outcome where
  /-- With a text that was asked for. -/
  | answered (text : String)
  /-- With a text about the command line. -/
  | misused (text : String)
  /-- With an error, which the filter lets through to the log or not. -/
  | failed (error : Error) (isLogged : Bool) (format : LogFormat)
  /-- At once, without a log record. -/
  | broken (cause : Breakdown)
  /-- Not by itself. -/
  | goesOn
  deriving Inhabited

namespace Program

/-- Opens the store of checkpoints in a directory, which is made if it is missing: no part of its
path may be anything but a directory. -/
def openStore (files : Settings.Files) (s : Settings.Embedded) : Except Error Unit :=
  let full := files.place s.path
  let taken := (files.texts.map Prod.fst ++ files.devices).map files.place
  if taken.any (·.isPrefixOf full) then
    .error (.embedded "IO error: Not a directory (os error 20)")
  else .ok ()

def settings (environment : List (String × String)) (files : Settings.Files)
    (config : Option String) : Except Error Settings := do
  let s ← (Settings.load environment files).mapError Error.settings
  let s ← match config with
    | none => pure s
    | some path => (s.override environment files path).mapError Error.settings
  s.check
  pure s

/-- Asks for the lock of a role; there is no lease as long as it has to wait. -/
def acquire (s : Settings) (files : Settings.Files) (role : Role) (d : Http.Delivery) :
    Except Error (Option Lock.Lease) := do
  let session := Settings.Coordination.sessionName role.name
  let key := s.coordination.lockKey role.name
  match s.coordination.backend with
  | .consul =>
    let service ← Consul.Service.create s.coordination
    let _ ← Sink.build s.output
    let tenure := Consul.Tenure.start service key session s.coordination.sessionTtl
    match (tenure.step service (.answered d)).acquired? with
    | some result => result.map some
    | none => pure none
  | .embedded =>
    openStore files s.coordination.embedded
    let _ ← Sink.build s.output
    pure ((Lock.Table.empty.grant? key session).map Prod.fst)

/-- What a run does until its watcher begins. -/
def start (environment : List (String × String)) (files : Settings.Files) (line : Line)
    (d : Http.Delivery) : Except Error (Option Lock.Lease) := do
  let s ← settings environment files line.config
  let _ ← Orchestrator.Service.create s.orchestrator
  s.leadership.acquireInterval.checkPeriod.mapError Error.broken
  let lease? ← acquire s files line.role d
  if lease?.isSome then Watch.Channel.checkRoom (max s.watching.updateChannelCapacity 1)
  pure lease?

/-- The filter of log records: that of the environment, if it is well formed, else that of the
command line. -/
def filter (environment : List (String × String)) (line : Line) : Except Breakdown Filter :=
  match (environment.lookup "RUST_LOG").map Filter.strict with
  | some (.ok f) => .ok f
  | some (.error (.broken cause)) => .error cause
  | _ => Filter.lenient line.logLevel

/-- How a run ends, or that it goes on. -/
def outcome (environment : List (String × String)) (files : Settings.Files) (words : List String)
    (d : Http.Delivery) : Outcome :=
  match Line.read environment words with
  | .error .help => .answered helpText
  | .error .version => .answered versionText
  | .error .usage => .misused helpText
  | .error (.mistake m) => .misused m.text
  | .ok line =>
    match filter environment line, start environment files line d with
    | .error cause, _ => .broken cause
    | .ok _, .error (.broken cause) => .broken cause
    | .ok _, .error (.settings (.broken cause)) => .broken cause
    | .ok f, .error e => .failed e (f.shows logTarget ["message"] .error) line.logFormat
    | .ok _, .ok _ => .goesOn

/-- What the log says when a run fails. -/
def farewell (e : Error) : String := "firehose stopped: " ++ e.message

end Program

namespace Outcome

def code? : Outcome → Option Nat
  | .answered _ => some 0
  | .failed .. => some 1
  | .misused _ => some 2
  | .broken _ => some 101
  | .goesOn => none

def logged? : Outcome → Option String
  | .failed e true _ => some e.message
  | _ => none

/-- The first line that is said about the command line. -/
def complaint? : Outcome → Option String
  | .misused text => some ((Text.splitOn '\n' text).headD "")
  | _ => none

end Outcome

end ChangeFeed.Console
