import ChangeFeed.Engine.Watching

/-!
# Leading

Managers compete for the lock of their role. The holder restores the checkpoints, runs a watcher,
writes what it reports, and gives the lock back on every way out.

* The checkpoints of a role are read one after the other, and the store may stop answering in
  between. If one of them is not answered for, they are all read again after a pause that doubles up
  to a bound; nothing starts before all are read.
* A watermark is written when it is above the last one; a failed write is repeated with the next
  report. The last write of a shutdown is made in any case.
* Shutdown comes before the loss of the lock, and that before reports.
-/

namespace ChangeFeed.Engine

namespace Manager

def lockKey (m : Manager) : String := m.settings.coordination.lockKey m.role.name

def checkpointKey (m : Manager) : String := m.settings.coordination.checkpointKey m.role.name

/-- The key of the event time, for a role that has one. -/
def eventTimeKey? (m : Manager) : Option String :=
  if m.role.tracksEventTime then some (m.settings.coordination.eventTimeKey m.role.name) else none

def sessionName (m : Manager) : String := Settings.Coordination.sessionName m.role.name

/-- Whether a manager waits in a lock table. -/
def isQueueing (m : Manager) : Bool :=
  match m.phase with
  | .queueing => true
  | _ => false

end Manager

namespace World

/-! ## Locks -/

/-- Whether the monitor of a lease says that it is lost. -/
def isLost (w : World) (held : Held) : Bool :=
  match w.locks with
  | .table service => !service.table.holds held.lease
  | .script _ monitors =>
    match monitors[held.monitor]? with
    | some monitor => !monitor.isOpen && monitor.notices = 0
    | none => true

/-- Reads a notice of a monitor, if there is one. -/
def readNotice? (w : World) (held : Held) : Option World :=
  match w.locks with
  | .table _ => none
  | .script grants monitors =>
    match monitors[held.monitor]? with
    | some monitor =>
      if monitor.notices = 0 then none
      else
        let monitor := { monitor with notices := monitor.notices - 1 }
        some { w with locks := .script grants (monitors.setIfInBounds held.monitor monitor) }
    | none => none

def askForLock (w : World) (now i : Nat) (m : Manager) : World :=
  let go (w : World) (phase : Manager.Phase) : World := w.setManager i { m with phase }
  match w.locks with
  | .table service =>
    let (lease?, service) := service.acquire i m.lockKey m.sessionName
    let w := { w with locks := .table service }
    match lease? with
    | some lease =>
      go w (.restoring ⟨lease, 0, false⟩ m.settings.coordination.restoreRetry.millis none)
    | none => go w .queueing
  | .script grants monitors =>
    let w := w.note now
      [.asked m.lockKey m.sessionName m.settings.coordination.sessionTtl]
    match grants with
    | [] => go w .stuck
    | grant :: grants =>
      go { w with locks := .script grants monitors } (.asking (now + grant.delay) grant)

def releaseLock (w : World) (now : Nat) (held : Held) : World :=
  match w.locks with
  | .table service =>
    let (_, service) := service.release held.lease
    { w with locks := .table service }
  | .script grants monitors =>
    let monitors := monitors.modify held.monitor Monitor.leave
    { w with locks := .script grants monitors }.note now
      [.released held.lease.key !held.releaseFails]

/-! ## Checkpoints -/

def load (w : World) (now : Nat) (key : String) : Except Error Nat × World :=
  let result := w.store.restore key
  let ok := match result with
    | .ok _ => true
    | .error _ => false
  (result, w.note now [.loaded key ok])

def save (w : World) (now : Nat) (key : String) (value : Nat) : Bool × World :=
  let (result, store) := w.store.persist key value
  let ok := Outlet.succeeded result
  (ok, { w with store }.note now [.saved key (Watermark.encode value) ok])

/-- The event time of a checkpoint: what is no signed word of 64 bits counts as none. -/
def timeOf (restored : Nat) : Int := if restored < Nat.pow 2 63 then restored else 0

/-- Reads the event time of a role, if it has one. -/
def loadTime (w : World) (now : Nat) (m : Manager) : Except Error Int × World :=
  match m.eventTimeKey? with
  | none => (.ok 0, w)
  | some key =>
    let (result, w) := w.load now key
    (result.map timeOf, w)

/-- Counts a failed attempt to read the checkpoints, and waits. -/
def failRead (w : World) (now : Nat) (m : Manager) (held : Held) (delay : Nat) :
    Manager.Phase × World :=
  (.backingOff held delay (now + delay),
    { w with metrics := w.metrics.add .readFailures m.role.name 1 })

/-- Reads the next checkpoint of a role. -/
def restoreNext (w : World) (now : Nat) (m : Manager) (held : Held) (delay : Nat) :
    Option Nat → Manager.Phase × World
  | none =>
    match w.load now m.checkpointKey with
    | (.error _, w) => w.failRead now m held delay
    | (.ok watermark, w) =>
      if m.role.tracksEventTime then (.restoring held delay (some watermark), w)
      else (.starting held watermark 0, w)
  | some watermark =>
    match w.loadTime now m with
    | (.error _, w) => w.failRead now m held delay
    | (.ok time, w) => (.starting held watermark time, w)

/-! ## Terms -/

/-- The sink of the next term. -/
def buildOutlet (w : World) : Except Error Nat × World :=
  let plan := w.plans.headD (.ok recordingOutlet)
  let w := { w with plans := w.plans.drop 1, terms := w.terms + 1 }
  match plan with
  | .error e => (.error e, w)
  | .ok o => (.ok w.outlets.size, { w with outlets := w.outlets.push o })

def markLeader (w : World) (m : Manager) (leads : Bool) : World :=
  { w with metrics := w.metrics.set .leader m.role.name (if leads then 1 else 0) }

/-- Starts the watcher of a term. -/
def beginTerm (w : World) (now : Nat) (m : Manager) (held : Held) (watermark : Nat)
    (eventTime : Int) : Manager.Phase × World :=
  match w.buildOutlet with
  | (.error e, w) => (.releasing held (.failed e), w)
  | (.ok outlet, w) =>
    let watcher := w.watchers.size
    let capacity := max m.settings.watching.updateChannelCapacity 1
    match w.startWatcher now m.role m.settings.watching outlet watermark eventTime capacity with
    | (.error e, w) => (.releasing held (.failed e), w)
    | (.ok (), w) =>
      (.leading ⟨held, watcher, watermark, eventTime⟩,
        if m.isShutdown then w.cancelWatcher watcher else w)

/-- The next step of a leading manager. -/
def lead? (w : World) (m : Manager) (term : Term) : Option (Manager.Phase × World) := do
  let x ← w.watchers[term.watcher]?
  let stop (outcome : Outcome) : Manager.Phase × World :=
    (.stopping term outcome x.progress.watermark, w.haltWatcher term.watcher)
  if m.isShutdown then pure (stop .shutdown)
  else if w.isLost term.held then pure (stop .lockLost)
  else
    match w.readNotice? term.held with
    | some w => pure (.leading term, w)
    | none =>
      match x.channel.take with
      | (.report watermark, channel) =>
        let w := w.setWatcher term.watcher { x with channel }
        if term.persisted < watermark then pure (.saving term watermark false, w)
        else pure (.savingTime term false, w)
      | _ => none

def saveWatermark (w : World) (now : Nat) (m : Manager) (term : Term) (watermark : Nat)
    (last : Bool) : Manager.Phase × World :=
  match w.save now m.checkpointKey watermark with
  | (true, w) => (.savingTime { term with persisted := watermark } last, w)
  | (false, w) =>
    (.savingTime term last, { w with metrics := w.metrics.add .writeFailures m.role.name 1 })

/-- Writes the event time if it moved. -/
def saveEventTime (w : World) (now : Nat) (m : Manager) (term : Term) (last : Bool) :
    Manager.Phase × World :=
  let next (term : Term) : Manager.Phase :=
    if last then .releasing term.held .shutdown else .leading term
  match m.eventTimeKey?, w.watchers[term.watcher]? with
  | some key, some x =>
    if x.clock ≤ term.persistedTime then (next term, w)
    else
      match w.save now key x.clock.toNat with
      | (true, w) => (next { term with persistedTime := x.clock }, w)
      | (false, w) =>
        (next term, { w with metrics := w.metrics.add .writeFailures m.role.name 1 })
  | _, _ => (next term, w)

def afterHalt (term : Term) (outcome : Outcome) (seen : Nat) (result : Except Error Nat) :
    Manager.Phase :=
  match outcome with
  | .shutdown =>
    let final := match result with
      | .ok watermark => watermark
      | .error _ => seen
    .saving term (max final term.persisted) true
  | outcome => .releasing term.held outcome

/-- The manager's way on from a released lock. -/
def afterRelease : Outcome → Manager.Phase
  | .lockLost => .ticking
  | .shutdown => .ended (.ok ())
  | .failed e => .ended (.error e)

/-- Enters a phase; the end of a manager is logged. -/
def enter (w : World) (now i : Nat) (m : Manager) (phase : Manager.Phase) : World :=
  let w := w.setManager i { m with phase }
  match phase with
  | .ended result => w.note now [.retired i result]
  | _ => w

def stepManager? (w : World) (now i : Nat) : Option World := do
  let m ← w.managers[i]?
  let go (p : Manager.Phase × World) : World := p.2.enter now i m p.1
  match m.phase with
  | .begun => pure ((w.setManager i { m with nextTick := now, phase := .ticking }))
  | .ticking =>
    if m.isShutdown then pure (go (.ended (.ok ()), w))
    else if now < m.nextTick then none
    else
      let interval := m.settings.leadership.acquireInterval.millis
      pure (w.askForLock now i { m with nextTick := m.nextTick + interval })
  | .queueing =>
    match w.locks with
    | .script .. => none
    | .table service =>
      if m.isShutdown then
        pure (go (.ended (.ok ()), { w with locks := .table (service.cancel i) }))
      else if i ∈ service.marked then
        let (lease?, service) := service.retry i
        let w := { w with locks := .table service }
        match lease? with
        | none => pure w
        | some lease =>
          pure
            (go (.restoring ⟨lease, 0, false⟩ m.settings.coordination.restoreRetry.millis none, w))
      else none
  | .stuck => if m.isShutdown then pure (go (.ended (.ok ()), w)) else none
  | .asking due grant =>
    if m.isShutdown then pure (go (.ended (.ok ()), w))
    else if now < due then none
    else
      match w.locks, grant.outcome with
      | .table _, _ => none
      | .script .., .error reason => pure (go (.ended (.error (.acquire m.lockKey reason)), w))
      | .script grants monitors, .ok session =>
        let held : Held := ⟨⟨m.lockKey, session⟩, monitors.size, grant.releaseFails⟩
        let w := { w with locks := .script grants ((monitors.map Monitor.close).push .opened) }
        pure (go (.restoring held m.settings.coordination.restoreRetry.millis none, w))
  | .restoring held delay watermark? =>
    let w := w.markLeader m true
    if m.isShutdown then pure (go (.releasing held .shutdown, w))
    else pure (go (w.restoreNext now m held delay watermark?))
  | .backingOff held delay due =>
    if m.isShutdown then pure (go (.releasing held .shutdown, w))
    else if w.isLost held then pure (go (.releasing held .lockLost, w))
    else
      match w.readNotice? held with
      | some w => pure w
      | none =>
        if now < due then none
        else
          let delay := min (2 * delay) m.settings.coordination.restoreRetryMax.millis
          pure (go (.restoring held delay none, w))
  | .starting held watermark time => pure (go (w.beginTerm now m held watermark time))
  | .leading term => pure (go (← w.lead? m term))
  | .saving term watermark last => pure (go (w.saveWatermark now m term watermark last))
  | .savingTime term last => pure (go (w.saveEventTime now m term last))
  | .stopping term outcome seen =>
    match (← w.watchers[term.watcher]?).halt with
    | some (.ended result) => pure (go (afterHalt term outcome seen result, w))
    | _ => none
  | .releasing held outcome =>
    pure (go (afterRelease outcome, (w.markLeader m false).releaseLock now held))
  | .ended _ => none

/-- Shuts a manager down; its watchers are cancelled with it. -/
def shutDown (w : World) (i : Nat) : World :=
  match w.managers[i]? with
  | none => w
  | some m =>
    let w := w.setManager i { m with isShutdown := true }
    match m.phase with
    | .leading term | .saving term _ _ | .savingTime term _ | .stopping term _ _ =>
      w.cancelWatcher term.watcher
    | _ => w

end World

end ChangeFeed.Engine
