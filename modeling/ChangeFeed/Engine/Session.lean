import ChangeFeed.Engine.Acts

/-!
# Sessions

What someone outside of a system can do while it runs. After each act all tasks go on until they
wait; `Run.look` answers what was seen since the last look.
-/

namespace ChangeFeed.Engine

/-- A publisher of a role that watches nothing by itself. -/
def Watcher.publisher (role : Role) (outlet : Nat) (clock : Int) : Watcher := {
  role, outlet, clock
  settings := .standard
  cancelled := false
  progress := .startingAt 0
  loop := .ended
  reporter := .ended
  channel := .empty 1
  claims := .startingAt clock
  halt := none }

namespace Run

/-- How long someone waits for an end. -/
def patience : Nat := 3600000

/-- Lets all tasks go on until they wait. -/
def settle (r : Run) : Run := Simulation.Run.settle system Simulation.Run.settleLimit r

/-- An act, and what follows from it. -/
def act (r : Run) (f : World → World) : Run := settle (r.change f)

def advance (r : Run) (millis : Nat) : Run := Simulation.Run.advance system r millis

/-- Lets time pass until a condition holds. -/
def await (r : Run) (holds : World → Bool) : Run :=
  settle (Simulation.Run.await system holds (r.now + patience) Simulation.Run.advanceLimit r)

/-- What was seen since the last look, oldest first. -/
def look (r : Run) : List Logged × Run :=
  (r.state.seen, r.change fun w => { w with log := [] })

/-- Begins calls of clients; answers the number of the first one. -/
def call (r : Run) (calls : List Call) : Nat × Run :=
  (r.state.calls.size, r.act fun w => { w with calls := w.calls ++ calls.toArray })

/-- What a call returned, if it did. -/
def returned? (seen : List Logged) (call : Nat) : Option (Except Error Unit × Nat) :=
  seen.findSome? fun l =>
    match l.entry with
    | .returned i result => if i = call then some (result, l.time) else none
    | _ => none

def hasEnded (w : World) (call : Nat) : Bool := w.calls[call]?.all (·.phase = .ended)

def startSink (r : Run) (outlet : Nat) : Except Error Unit × Run :=
  match r.state.outlets[outlet]? with
  | none => (.error (.fatal "no sink"), r)
  | some o =>
    let (result, o, entries) := o.start
    (result, r.act fun w => (w.setOutlet outlet o).note r.now entries)

/-- Stops a sink and waits for that. -/
def stopSink (r : Run) (outlet : Nat) : Nat × Run :=
  let (call, r) := r.call [⟨outlet, .stopping .closing⟩]
  (call, r.await fun w => hasEnded w call)

/-- Publishes changes and waits for that. -/
def publish (r : Run) (watcher : Nat) (changes : List Change) : List (Except Error Unit) × Run :=
  let first := r.state.publications.size
  let r := (r.act fun w => changes.foldl (fun w c => w.publish watcher c) w).await fun w =>
    w.isQuiet watcher
  let results := (r.state.publications.toList.drop first).map fun p =>
    match p.phase with
    | .ended result => result
    | _ => .error (.fatal "unfinished")
  (results, r)

/-- What the call that stops a watcher returned. -/
def halted? (w : World) (watcher : Nat) : Option (Except Error Nat) :=
  match w.watchers[watcher]? with
  | some { halt := some (.ended result), .. } => some result
  | _ => none

/-- Stops a watcher and waits for that. -/
def stopWatcher (r : Run) (watcher : Nat) : Option (Except Error Nat) × Run :=
  let r := (r.act (·.perform (.halt watcher))).await fun w => (halted? w watcher).isSome
  (halted? r.state watcher, r)

/-- Tries to receive a report of a watcher. -/
def receive (r : Run) (watcher : Nat) : Watch.Received × Run :=
  match r.state.watchers[watcher]? with
  | none => (.closed, r)
  | some x =>
    let (received, _) := x.channel.take
    (received, r.act (·.perform (.receive watcher)))

/-- Nobody receives the reports of a watcher any more. -/
def abandon (r : Run) (watcher : Nat) : Run :=
  r.act (·.perform (.abandon watcher))

/-- Adds an answer to the script of list queries. -/
def addList (r : Run) (answer : ListAnswer) : Run :=
  r.act (·.perform (.addList answer))

def setRecord (r : Run) (id : String) (answer : RecordAnswer) : Run :=
  r.act (·.perform (.setRecord id answer))

/-! ## Managers -/

def spawn (r : Run) (role : Role) (settings : Settings) : Run :=
  r.act (·.perform (.spawn role settings))

/-- Takes a lock from its holder; answers whether there was one. -/
def revoke (r : Run) (key : String) : Bool × Run :=
  ((r.state.revoke key).1, r.act (·.perform (.revoke key)))

/-- Gets a lock for someone who is no manager, if it is free. -/
def hold (r : Run) (key session : String) : Option Lock.Lease × Run :=
  ((r.state.hold key session).1, r.act (·.perform (.hold key session)))

/-- Gives back a lock of someone who is no manager. -/
def unhold (r : Run) (lease : Lock.Lease) : Except Error Unit × Run :=
  ((r.state.unhold lease).1, r.act (·.perform (.unhold lease)))

/-- Sends a notice to the open monitor; answers whether it was sent, if there is a monitor. -/
def notify (r : Run) : Option Bool × Run := (r.state.notify.1, r.act (·.perform .notify))

/-- Closes the open monitor; answers whether there was one. -/
def lose (r : Run) : Bool × Run := (r.state.lose.1, r.act (·.perform .lose))

/-- The session that holds a lock. -/
def holder? (r : Run) (key : String) : Option String :=
  match r.state.locks with
  | .table service => service.table.holder? key
  | .script .. => none

end Run

end ChangeFeed.Engine
