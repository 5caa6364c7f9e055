import ChangeFeed.Engine.Outlet
import ChangeFeed.Allocation.Claims
import ChangeFeed.Watch.Progress
import ChangeFeed.Watch.Reports
import ChangeFeed.Checkpoint.Store
import ChangeFeed.Lock.Table
import ChangeFeed.Role
import ChangeFeed.Settings.All
import ChangeFeed.Json.Reader

/-!
# The state of a system

Everything that watchers and managers of one role share, and what each of them is doing. What the
orchestrator answers is laid down: list queries by a script, records by id.

A task is always between two steps. Its phase says what it waits for; a phase that waits for a time
holds that time.
-/

namespace ChangeFeed.Engine

/-! ## The orchestrator -/

/-- What a list query is answered after a while: a page, or a status that is no success. -/
structure ListAnswer where
  delay : Nat
  outcome : Except Nat Page
  deriving Inhabited

/-- What a record query is answered after a while: a text, or a status that is no success. -/
structure RecordAnswer where
  delay : Nat
  outcome : Except Nat String
  deriving Inhabited

/-- The orchestrator. -/
structure Orchestrator where
  /-- The answers to the next list queries; past them a query is never answered. -/
  lists : List ListAnswer
  records : List (String × RecordAnswer)
  deriving Inhabited

namespace Orchestrator

/-- The answer to a list query. -/
def listOutcome (resource : Resource) (answer : ListAnswer) : Except Error Page :=
  match answer.outcome with
  | .ok page => .ok page
  | .error status => .error (.status resource.listPath status)

/-- The delay and the answer of a record query. -/
def lookUp (o : Orchestrator) (resource : Resource) (id : String) : Nat × Except Error Json :=
  let endpoint := resource.recordPath id
  match o.records.lookup id with
  | none => (0, .error (.status endpoint 404))
  | some answer =>
    (answer.delay, match answer.outcome with
      | .error status => .error (.status endpoint status)
      | .ok text =>
        match Json.parse text with
        | .ok record => .ok record
        | .error fault => .error (.malformed endpoint fault.message))

end Orchestrator

/-! ## Watchers -/

/-- How far the work on one change has come. -/
inductive Publication.Phase where
  | begun
  /-- Waits for the record until the given time. -/
  | lookingUp (due : Nat) (answer : Except Error Json)
  /-- Puts messages, the first of them perhaps begun; then the clock moves to the given time. -/
  | putting (current : Option Put) (left : List Message) (newest : Option Int)
  | ended (result : Except Error Unit)
  deriving Inhabited

/-- The work on one change. -/
structure Publication where
  watcher : Nat
  change : Change
  phase : Publication.Phase
  deriving Inhabited

/-- What a watch loop does. -/
inductive Loop where
  | ready
  /-- Waits for the answer to a query, which comes at the given time. -/
  | asking (due : Nat) (answer : Except Error Page)
  /-- Waits for an answer that never comes. -/
  | stuck
  /-- Waits after a failed query. -/
  | pausing (due : Nat)
  | ended
  deriving Inhabited

/-- How far a call that stops a watcher has come. -/
inductive Halt where
  | begun
  /-- Waits for the loop to end. -/
  | joiningLoop
  /-- Waits for the reporter to end. -/
  | joiningReporter
  /-- Waits for the publications under way, at most until the given time. -/
  | graceUntil (due : Nat)
  | stoppingSink (phase : Sink.Stopping)
  /-- Stopped, with the final watermark. -/
  | ended (result : Except Error Nat)
  deriving Inhabited

/-- A watch loop with its reporter, its publications and its sink. -/
structure Watcher where
  role : Role
  settings : Settings.Watching
  /-- The number of the sink. -/
  outlet : Nat
  /-- Whether the loop and the reporter are to end. -/
  cancelled : Bool
  progress : Watch.Progress
  loop : Loop
  reporter : Watch.Reporter
  channel : Watch.Channel
  claims : Allocation.Claims
  /-- The time of the newest published task event. -/
  clock : Int
  /-- The call that stops the watcher, if it was made. -/
  halt : Option Halt
  deriving Inhabited

def Watcher.text (role : Role) (sink : String) : String :=
  "Watcher \x7b kind: " ++ role.label ++ ", sink: " ++ Text.quoted sink ++ " \x7d"

def Watcher.handleText (w : Watcher) : String :=
  "WatcherHandle \x7b kind: " ++ w.role.label ++ ", watermark: " ++
    toString w.progress.watermark ++ " \x7d"

/-! ## Locks -/

/-- What a scripted lock service answers to an acquisition. -/
structure Grant where
  delay : Nat
  /-- The session of the lease, or why there is none. -/
  outcome : Except String String
  releaseFails : Bool
  deriving Inhabited

/-- The monitor of a lease of a scripted lock service. -/
structure Monitor where
  /-- Whether the lock service has not closed it. -/
  isOpen : Bool
  /-- Whether the lease was not given back. -/
  isRead : Bool
  /-- The number of notices that wait to be read. -/
  notices : Nat
  deriving DecidableEq, Inhabited

namespace Monitor

/-- The monitor of a new lease. -/
def opened : Monitor := ⟨true, true, 0⟩

/-- The greatest number of notices that wait to be read. -/
def capacity : Nat := 16

/-- Nothing more comes from a closed monitor; what waits can still be read. -/
def close (m : Monitor) : Monitor := { m with isOpen := false }

/-- Nobody reads the monitor of a lease that was given back. -/
def leave (m : Monitor) : Monitor := { m with isRead := false }

/-- Sends a notice, if someone reads the monitor and there is a place for it. -/
def send? (m : Monitor) : Option Monitor :=
  if m.isRead && m.notices < capacity then some { m with notices := m.notices + 1 } else none

theorem send?_isSome_iff {m : Monitor} :
    m.send?.isSome ↔ m.isRead = true ∧ m.notices < capacity := by
  simp [send?]

end Monitor

/-- A lock service. -/
inductive Locks where
  | table (service : Lock.Service)
  /-- Acquisitions take the next answer of a script; past its end they wait forever. Each lease has
  a monitor of its own, which closes when the next lease is granted. -/
  | script (grants : List Grant) (monitors : Array Monitor)
  deriving Inhabited

/-! ## Managers -/

/-- A lease that a manager holds. -/
structure Held where
  lease : Lock.Lease
  /-- The monitor of a lease of a scripted service. -/
  monitor : Nat
  releaseFails : Bool
  deriving DecidableEq, Inhabited

/-- What a manager knows while it leads. -/
structure Term where
  held : Held
  /-- The number of the watcher. -/
  watcher : Nat
  /-- The last watermark that was restored or written. -/
  persisted : Nat
  /-- The last event time that was restored or written. -/
  persistedTime : Int
  deriving DecidableEq, Inhabited

/-- How a term ends. -/
inductive Outcome where
  | lockLost
  | shutdown
  | failed (e : Error)
  deriving DecidableEq, Inhabited

/-- What a manager does. -/
inductive Manager.Phase where
  /-- Not started. -/
  | begun
  /-- Waits for the next attempt. -/
  | ticking
  /-- Waits in a lock table. -/
  | queueing
  /-- Waits for a scripted answer. -/
  | asking (due : Nat) (grant : Grant)
  /-- Waits for an answer that never comes. -/
  | stuck
  /-- About to read the watermark, or the event time after the given watermark; a failure is followed
  by the given pause. -/
  | restoring (held : Held) (delay : Nat) (watermark? : Option Nat)
  /-- Waits after a failed read. -/
  | backingOff (held : Held) (delay due : Nat)
  /-- About to start the watcher. -/
  | starting (held : Held) (watermark : Nat) (eventTime : Int)
  | leading (term : Term)
  /-- About to write a watermark; the last write of a term is not compared. -/
  | saving (term : Term) (watermark : Nat) (last : Bool)
  /-- About to write the event time. -/
  | savingTime (term : Term) (last : Bool)
  /-- Waits for the watcher to stop; it had the given watermark when that began. -/
  | stopping (term : Term) (outcome : Outcome) (seen : Nat)
  | releasing (held : Held) (outcome : Outcome)
  | ended (result : Except Error Unit)
  deriving Inhabited

/-- One candidate for leadership. -/
structure Manager where
  role : Role
  settings : Settings
  isShutdown : Bool
  /-- The time of the next attempt. -/
  nextTick : Nat
  phase : Manager.Phase
  deriving Inhabited

def Manager.text (role : Role) (settings : Settings) : String :=
  "Manager \x7b kind: " ++ role.label ++ ", checkpoint: " ++
    Text.quoted (settings.coordination.checkpointKey role.name) ++ " \x7d"

/-! ## Clients -/

/-- What a client of a sink waits for. -/
inductive Call.Phase where
  | putting (m : Message)
  | waiting (p : Put)
  | stopping (phase : Sink.Stopping)
  | ended
  deriving DecidableEq, Inhabited

/-- A call of a client of a sink. -/
structure Call where
  outlet : Nat
  phase : Call.Phase
  deriving DecidableEq, Inhabited

/-! ## The whole -/

/-- The state of a system. -/
structure World where
  orchestrator : Orchestrator
  outlets : Array Outlet
  /-- The sinks that the next terms get, or why they get none; past them sinks record. -/
  plans : List (Except Error Outlet)
  /-- The number of terms that asked for a sink. -/
  terms : Nat
  calls : Array Call
  publications : Array Publication
  watchers : Array Watcher
  managers : Array Manager
  locks : Locks
  store : Checkpoint.Flaky
  metrics : Metrics
  /-- What was seen, the last entry first. -/
  log : List Logged
  deriving Inhabited

/-- A task. -/
inductive Task where
  | writer (outlet i : Nat)
  | loop (watcher : Nat)
  | reporter (watcher : Nat)
  | publication (i : Nat)
  | halt (watcher : Nat)
  | manager (i : Nat)
  | call (i : Nat)
  deriving DecidableEq, Inhabited

/-- A sink that records and never fails. -/
def recordingOutlet : Outlet := .recording ⟨false, false, [], 0, 0, false⟩

namespace World

def empty : World :=
  ⟨⟨[], []⟩, #[], [], 0, #[], #[], #[], #[], .table .empty, ⟨.empty, false, false⟩, .empty, []⟩

def note (w : World) (now : Nat) (entries : List Entry) : World :=
  { w with log := entries.foldl (fun log e => ⟨now, e⟩ :: log) w.log }

def setOutlet (w : World) (i : Nat) (o : Outlet) : World :=
  { w with outlets := w.outlets.setIfInBounds i o }

def setWatcher (w : World) (i : Nat) (x : Watcher) : World :=
  { w with watchers := w.watchers.setIfInBounds i x }

def setPublication (w : World) (i : Nat) (p : Publication) : World :=
  { w with publications := w.publications.setIfInBounds i p }

def setManager (w : World) (i : Nat) (m : Manager) : World :=
  { w with managers := w.managers.setIfInBounds i m }

def setCall (w : World) (i : Nat) (c : Call) : World :=
  { w with calls := w.calls.setIfInBounds i c }

/-- The metrics of everything, those of the sinks included. -/
def measured (w : World) : Metrics := w.outlets.foldl (fun m o => o.measure m) w.metrics

/-- What was seen since the log was last emptied, oldest first. -/
def seen (w : World) : List Logged := w.log.reverse

end World

end ChangeFeed.Engine
