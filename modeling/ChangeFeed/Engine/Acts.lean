import ChangeFeed.Engine.Tasks

/-!
# Acts

What someone outside of a system can do to it while it runs. An act changes the state at once and
lets no task go on; the tasks do that by themselves afterwards.

* `Act` lists the acts, and `World.perform` is what each of them does.
* `Event` is an act or a step of a task at a time. `World.after` is the state that any sequence of
  events leads to, so that every order in which the tasks may take their turns is one of these.
-/

namespace ChangeFeed.Engine

/-- What someone outside of a system does. -/
inductive Act where
  /-- A manager is started. -/
  | spawn (role : Role) (settings : Settings)
  | shutDown (manager : Nat)
  /-- A lock is taken from its holder. -/
  | revoke (key : String)
  /-- Someone who is no manager gets a lock, if it is free. -/
  | hold (key session : String)
  /-- Someone who is no manager gives a lock back. -/
  | unhold (lease : Lock.Lease)
  /-- A notice is sent to the open monitor of a scripted lock service. -/
  | notify
  /-- The open monitor of a scripted lock service is closed. -/
  | lose
  /-- Whether the store answers is set anew. -/
  | failStore (reads writes : Bool)
  /-- Someone who is no manager writes to the store. -/
  | putValue (key : String) (value : Bytes)
  | addList (answer : ListAnswer)
  | setRecord (id : String) (answer : RecordAnswer)
  /-- A watcher is to end. -/
  | cancel (watcher : Nat)
  /-- A watcher is stopped, which goes on in steps. -/
  | halt (watcher : Nat)
  /-- The oldest report of a watcher is received, if there is one. -/
  | receive (watcher : Nat)
  /-- Nobody receives the reports of a watcher any more. -/
  | abandon (watcher : Nat)
  deriving Inhabited

namespace World

def spawn (w : World) (role : Role) (settings : Settings) : World :=
  { w with managers := w.managers.push ⟨role, settings, false, 0, .begun⟩ }

def onWatcher (w : World) (watcher : Nat) (f : Watcher → Watcher) : World :=
  match w.watchers[watcher]? with
  | some x => w.setWatcher watcher (f x)
  | none => w

/-- Takes a lock from its holder; answers whether there was one. -/
def revoke (w : World) (key : String) : Bool × World :=
  match w.locks with
  | .script .. => (false, w)
  | .table service =>
    let (found, service) := service.revoke key
    (found, { w with locks := .table service })

/-- Gets a lock for someone who is no manager, if it is free. -/
def hold (w : World) (key session : String) : Option Lock.Lease × World :=
  match w.locks with
  | .script .. => (none, w)
  | .table service =>
    match service.table.grant? key session with
    | some (lease, table) => (some lease, { w with locks := .table { service with table } })
    | none => (none, w)

/-- Gives back a lock of someone who is no manager. -/
def unhold (w : World) (lease : Lock.Lease) : Except Error Unit × World :=
  match w.locks with
  | .script .. => (.error (.release lease.key "no table"), w)
  | .table service =>
    let (result, service) := service.release lease
    (result, { w with locks := .table service })

/-- The newest monitor of a scripted lock service, if it is open. -/
def openMonitor? (w : World) : Option Monitor :=
  match w.locks with
  | .table _ => none
  | .script _ monitors => monitors.back?.filter (·.isOpen)

/-- Replaces the newest monitor of a scripted lock service. -/
def setMonitor (w : World) (m : Monitor) : World :=
  match w.locks with
  | .table _ => w
  | .script grants monitors => { w with locks := .script grants (monitors.pop.push m) }

/-- Sends a notice to the open monitor; answers whether it was sent, if there is a monitor. -/
def notify (w : World) : Option Bool × World :=
  match w.openMonitor? with
  | none => (none, w)
  | some m =>
    match m.send? with
    | none => (some false, w)
    | some m => (some true, w.setMonitor m)

/-- Closes the open monitor; answers whether there was one. -/
def lose (w : World) : Bool × World :=
  match w.openMonitor? with
  | none => (false, w)
  | some m => (true, w.setMonitor m.close)

/-- Sets whether reads and writes of the store fail. -/
def failStore (w : World) (reads writes : Bool) : World :=
  { w with store := { w.store with readsFail := reads, writesFail := writes } }

/-- Writes to the store, whether or not its writes fail. -/
def putValue (w : World) (key : String) (value : Bytes) : World :=
  { w with store := { w.store with store := w.store.store.put key value } }

/-- Adds an answer to the script of list queries. -/
def addList (w : World) (answer : ListAnswer) : World :=
  { w with orchestrator := { w.orchestrator with lists := w.orchestrator.lists ++ [answer] } }

def setRecord (w : World) (id : String) (answer : RecordAnswer) : World :=
  let records := (id, answer) :: w.orchestrator.records.filter (·.1 ≠ id)
  { w with orchestrator := { w.orchestrator with records } }

def perform (w : World) : Act → World
  | .spawn role settings => w.spawn role settings
  | .shutDown manager => w.shutDown manager
  | .revoke key => (w.revoke key).2
  | .hold key session => (w.hold key session).2
  | .unhold lease => (w.unhold lease).2
  | .notify => w.notify.2
  | .lose => w.lose.2
  | .failStore reads writes => w.failStore reads writes
  | .putValue key value => w.putValue key value
  | .addList answer => w.addList answer
  | .setRecord id answer => w.setRecord id answer
  | .cancel watcher => w.cancelWatcher watcher
  | .halt watcher => w.haltWatcher watcher
  | .receive watcher => w.onWatcher watcher fun x => { x with channel := x.channel.take.2 }
  | .abandon watcher =>
    w.onWatcher watcher fun x => { x with channel := { x.channel with abandoned := true } }

end World

/-! ## Events -/

/-- What happens to a system. -/
inductive Event where
  /-- A task takes a step at a time, unless it has to wait. -/
  | step (now : Nat) (task : Task)
  | act (act : Act)
  deriving Inhabited

namespace World

def next (w : World) : Event → World
  | .step now task => (w.step? now task).getD w
  | .act act => w.perform act

def after (w : World) (events : List Event) : World := events.foldl next w

@[simp] theorem after_nil (w : World) : w.after [] = w := rfl

@[simp] theorem after_cons (w : World) (e : Event) (events : List Event) :
    w.after (e :: events) = (w.next e).after events := rfl

theorem after_append (w : World) (events more : List Event) :
    w.after (events ++ more) = (w.after events).after more :=
  List.foldl_append

/-- What every event keeps is kept by every run. -/
theorem after_of_next {P : World → Prop} (hP : ∀ w e, P w → P (w.next e)) {w : World} (h : P w)
    (events : List Event) : P (w.after events) := by
  induction events generalizing w with
  | nil => exact h
  | cons e rest ih => exact ih (hP w e h)

end World

end ChangeFeed.Engine
