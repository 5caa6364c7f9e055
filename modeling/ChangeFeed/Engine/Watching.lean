import ChangeFeed.Engine.Publishing

/-!
# Watching

The loop that asks for changes, the reporter beside it, and the call that stops both.

* `stepLoop?`: a query is sent, and its answer is handed on change by change. A cancelled loop ends
  where it waits; it never ends inside a page.
* `stepReporter?`: the watermark is reported at regular times.
* `stepHalt?`: the loop ends, then the reporter; the publications under way get some time, the sink
  is stopped, and the final watermark is reported if there is room for it.
-/

namespace ChangeFeed.Engine

/-- The watermark as a gauge, which is a signed word of 64 bits. -/
def gauge (watermark : Nat) : Int := Int.bmod watermark UInt64.size

namespace World

/-- Starts a watcher over a sink. Its number is the number of watchers before it. -/
def startWatcher (w : World) (now : Nat) (role : Role) (settings : Settings.Watching)
    (outlet : Nat) (watermark : Nat) (clock : Int) (capacity : Nat) :
    Except Error Unit × World :=
  match w.outlets[outlet]? with
  | none => (.error (.fatal "no sink"), w)
  | some o =>
    let (result, o, entries) := o.start
    let w := (w.setOutlet outlet o).note now entries
    match result with
    | .error e => (.error e, w)
    | .ok () =>
      let x : Watcher := {
        role, settings, outlet
        cancelled := false
        progress := .startingAt watermark
        loop := .ready
        reporter := .waiting (now + settings.reportInterval.millis)
        channel := .empty capacity
        claims := .startingAt clock
        clock
        halt := none }
      (.ok (), { w with
        watchers := w.watchers.push x
        metrics := w.metrics.set .watermark role.name (gauge watermark) })

/-- Hands on the fresh changes of a page. -/
def absorb (w : World) (i : Nat) (x : Watcher) (page : Page) : World :=
  let progress := x.progress.after page
  let w := (x.progress.fresh page).foldl (fun w change => w.publish i change) w
  let w := w.setWatcher i { x with progress, loop := .ready }
  if x.progress.watermark < progress.watermark then
    { w with metrics := w.metrics.set .watermark x.role.name (gauge progress.watermark) }
  else w

/-- One step of a watch loop. -/
def stepLoop? (w : World) (now i : Nat) : Option World := do
  let x ← w.watchers[i]?
  let go (w : World) (loop : Loop) : World := w.setWatcher i { x with loop }
  match x.loop with
  | .ended => none
  | .ready =>
    if x.cancelled then pure (go w .ended)
    else
      let resource := x.role.resource
      let cursor : Cursor := ⟨x.progress.index, x.settings.waitTime, x.settings.allowStale⟩
      let w := w.note now [.listed resource cursor]
      match w.orchestrator.lists with
      | [] => pure (go w .stuck)
      | answer :: lists =>
        let w := { w with orchestrator := { w.orchestrator with lists } }
        pure (go w (.asking (now + answer.delay) (Orchestrator.listOutcome resource answer)))
  | .stuck => if x.cancelled then pure (go w .ended) else none
  | .asking due answer =>
    if x.cancelled then pure (go w .ended)
    else if now < due then none
    else
      match answer with
      | .ok page => pure (w.absorb i x page)
      | .error _ =>
        let w := { w with metrics := w.metrics.add .listErrors x.role.name 1 }
        pure (go w (.pausing (now + x.settings.errorBackoff.millis)))
  | .pausing due =>
    if x.cancelled then pure (go w .ended)
    else if now < due then none
    else pure (go w .ready)

def stepReporter? (w : World) (now i : Nat) : Option World := do
  let x ← w.watchers[i]?
  let (reporter, channel) ← x.reporter.step? x.channel x.cancelled now
    x.settings.reportInterval.millis x.progress.watermark
  pure (w.setWatcher i { x with reporter, channel })

/-- Whether a watch loop has ended. -/
def Loop.isEnded : Loop → Bool
  | .ended => true
  | _ => false

/-- Whether the work on a change has ended. -/
def Publication.isEnded (p : Publication) : Bool :=
  match p.phase with
  | .ended _ => true
  | _ => false

/-- Whether no publication of a watcher is under way. -/
def isQuiet (w : World) (watcher : Nat) : Bool :=
  w.publications.toList.all fun p => p.watcher ≠ watcher || Publication.isEnded p

def cancelWatcher (w : World) (i : Nat) : World :=
  match w.watchers[i]? with
  | some x => w.setWatcher i { x with cancelled := true }
  | none => w

/-- Begins the call that stops a watcher. -/
def haltWatcher (w : World) (i : Nat) : World :=
  match w.watchers[i]? with
  | some x => if x.halt.isSome then w else w.setWatcher i { x with halt := some .begun }
  | none => w

/-- One step of the call that stops a watcher. -/
def stepHalt? (w : World) (now i : Nat) : Option World := do
  let x ← w.watchers[i]?
  let go (w : World) (x : Watcher) (halt : Halt) : World :=
    w.setWatcher i { x with halt := some halt }
  match ← x.halt with
  | .begun => pure (go w { x with cancelled := true } .joiningLoop)
  | .joiningLoop => if Loop.isEnded x.loop then pure (go w x .joiningReporter) else none
  | .joiningReporter =>
    if x.reporter = .ended then
      pure (go w x (.graceUntil (now + x.settings.inflightGrace.millis)))
    else none
  | .graceUntil due =>
    if w.isQuiet i || due ≤ now then pure (go w x (.stoppingSink .closing)) else none
  | .stoppingSink phase =>
    match ← w.stepStop? now x.outlet phase with
    | (.inl phase, w) => pure (go w x (.stoppingSink phase))
    | (.inr (.error e), w) =>
      pure (go w { x with channel := { x.channel with closed := true } } (.ended (.error e)))
    | (.inr (.ok ()), w) =>
      let watermark := x.progress.watermark
      let channel := { x.channel.offer watermark with closed := true }
      pure (go w { x with channel } (.ended (.ok watermark)))
  | .ended _ => none

end World

end ChangeFeed.Engine
