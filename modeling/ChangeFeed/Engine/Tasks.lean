import ChangeFeed.Engine.Leading
import ChangeFeed.Simulation.Schedule

/-!
# The tasks of a system

`World.step?` is one step of any task. `system` lists the tasks in the order in which one cause
makes them ready: writers first, then watch loops and reporters, publications in the order of their
changes, and managers that wait for a lock in the order in which they began to wait.
-/

namespace ChangeFeed.Engine

namespace World

def step? (w : World) (now : Nat) : Task → Option World
  | .writer outlet i => w.stepWriter? now outlet i
  | .loop watcher => w.stepLoop? now watcher
  | .reporter watcher => w.stepReporter? now watcher
  | .publication i => w.stepPublication? now i
  | .halt watcher => w.stepHalt? now watcher
  | .manager i => w.stepManager? now i
  | .call i => w.stepCall? now i

/-- The numbers of the elements of an array that satisfy a condition. -/
def indices {α : Type} (xs : Array α) (p : α → Bool) : List Nat :=
  (List.range xs.size).filter fun i => xs[i]?.any p

/-- The managers that wait in a lock table, in the order in which they began to wait. -/
def queueingManagers (w : World) : List Nat :=
  match w.locks with
  | .table service => service.waiters.map Lock.Waiter.ticket
  | .script .. => []

/-- The tasks that may still take steps. -/
def tasks (w : World) : List Task :=
  let writers := (List.range w.outlets.size).flatMap fun outlet =>
    (List.range ((w.outlets[outlet]?.map Outlet.writers).getD 0)).map (Task.writer outlet)
  let calls := indices w.calls fun c => c.phase ≠ .ended
  let loops := indices w.watchers fun x => !Loop.isEnded x.loop
  let reporters := indices w.watchers fun x => x.reporter ≠ .ended
  let publications := indices w.publications fun p => !Publication.isEnded p
  let halts := indices w.watchers fun x => x.halt.isSome
  let others := indices w.managers fun m => !m.isQueueing
  writers ++ calls.map .call ++ loops.map .loop ++ reporters.map .reporter ++
    publications.map .publication ++ halts.map .halt ++ others.map .manager ++
    w.queueingManagers.map .manager

/-- The time that a publication waits for. -/
def publicationAlarms (w : World) (p : Publication) : List Nat :=
  match p.phase with
  | .lookingUp due _ => [due]
  | .putting (some put) _ _ =>
    match w.watchers[p.watcher]? with
    | some x => ((w.outlets[x.outlet]?).map (·.putAlarms put)).getD []
    | none => []
  | _ => []

/-- The time that a call waits for. -/
def callAlarms (w : World) (c : Call) : List Nat :=
  match c.phase with
  | .waiting put => ((w.outlets[c.outlet]?).map (·.putAlarms put)).getD []
  | .stopping (.draining next) => [next]
  | _ => []

/-- The times that a watcher waits for. -/
def watcherAlarms (x : Watcher) : List Nat :=
  (match x.loop with
    | .asking due _ => [due]
    | .pausing due => [due]
    | _ => []) ++
  (match x.reporter with
    | .waiting next => [next]
    | _ => []) ++
  (match x.halt with
    | some (.graceUntil due) => [due]
    | some (.stoppingSink (.draining next)) => [next]
    | _ => [])

/-- The time that a manager waits for. -/
def managerAlarms (m : Manager) : List Nat :=
  match m.phase with
  | .ticking => [m.nextTick]
  | .asking due _ => [due]
  | .backingOff _ _ due => [due]
  | _ => []

/-- The times that tasks wait for. -/
def alarms (w : World) : List Nat :=
  w.outlets.toList.flatMap Outlet.alarms ++ w.publications.toList.flatMap w.publicationAlarms ++
    w.calls.toList.flatMap w.callAlarms ++ w.watchers.toList.flatMap watcherAlarms ++
    w.managers.toList.flatMap managerAlarms

end World

/-- The tasks and their steps as a system. -/
def system : Simulation.System World Task := ⟨World.tasks, World.step?, World.alarms⟩

abbrev Run := Simulation.Run World Task

end ChangeFeed.Engine
