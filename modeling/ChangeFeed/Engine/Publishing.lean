import ChangeFeed.Engine.World
import ChangeFeed.Json.Printer

/-!
# Publishing a change

The work on one change. Roles of stubs publish the list entry as it is. The other roles ask for the
record first: allocations are claimed and split into updates, and any other record is published as a
whole. All messages have the id of the change as their key. The clock of the watcher moves once all
updates of an allocation were accepted, and not if one was refused.

`stepCall?`, `stepWriter?` and `stepPublication?` are the steps of the tasks around a sink.
-/

namespace ChangeFeed.Engine

namespace World

/-- One step of a writer of a sink. -/
def stepWriter? (w : World) (now outlet i : Nat) : Option World := do
  let o ← w.outlets[outlet]?
  let (o, entries) ← o.step? i now
  pure ((w.setOutlet outlet o).note now entries)

/-- One step of a put: it ends or goes on. -/
def stepPut? (w : World) (now outlet : Nat) (m : Message) :
    Option Put → Option ((Put ⊕ Except Error Unit) × World)
  | none => do
    let o ← w.outlets[outlet]?
    let (next, o) := o.begin m now
    pure (next, w.setOutlet outlet o)
  | some p => do
    let o ← w.outlets[outlet]?
    let (result, o, entries) ← o.proceed? p now
    pure (.inr result, (w.setOutlet outlet o).note now entries)

/-- One step of a call that stops a sink: it ends or goes on. -/
def stepStop? (w : World) (now outlet : Nat) (phase : Sink.Stopping) :
    Option ((Sink.Stopping ⊕ Except Error Unit) × World) := do
  let o ← w.outlets[outlet]?
  let (next, o, entries) ← o.stop? phase now
  pure (next, (w.setOutlet outlet o).note now entries)

/-- One step of a client's call. -/
def stepCall? (w : World) (now i : Nat) : Option World := do
  let c ← w.calls[i]?
  let finish (w : World) (result : Except Error Unit) : World :=
    (w.setCall i { c with phase := .ended }).note now [.returned i result]
  match c.phase with
  | .putting m =>
    match ← w.stepPut? now c.outlet m none with
    | (.inl p, w) => pure (w.setCall i { c with phase := .waiting p })
    | (.inr result, w) => pure (finish w result)
  | .waiting p =>
    match ← w.stepPut? now c.outlet default (some p) with
    | (.inl p, w) => pure (w.setCall i { c with phase := .waiting p })
    | (.inr result, w) => pure (finish w result)
  | .stopping phase =>
    match ← w.stepStop? now c.outlet phase with
    | (.inl phase, w) => pure (w.setCall i { c with phase := .stopping phase })
    | (.inr result, w) => pure (finish w result)
  | .ended => none

/-- Begins the work on a change. -/
def publish (w : World) (watcher : Nat) (change : Change) : World :=
  { w with publications := w.publications.push ⟨watcher, change, .begun⟩ }

/-- Ends the work on a change; a failure is counted. -/
def endPublication (w : World) (i : Nat) (p : Publication) (role : Role)
    (result : Except Error Unit) : World :=
  let w := w.setPublication i { p with phase := .ended result }
  match result with
  | .ok () => w
  | .error _ => { w with metrics := w.metrics.add .fetchErrors role.name 1 }

/-- The messages for a record, and the time to which the clock moves once they are accepted. -/
def messages (x : Watcher) (id : String) (record : Json) :
    Except Error (List Message × Option Int) × Watcher :=
  if x.role = .allocations then
    let (result, claims) := x.claims.claim id record
    let publish (d : Allocation.Decomposition) : List Message × Option Int :=
      (d.updates.map fun u => ⟨some id, u.document.payload⟩, d.newest)
    (result.map publish, { x with claims })
  else (.ok ([⟨some id, record.payload⟩], none), x)

/-- One step of the work on a change. -/
def stepPublication? (w : World) (now i : Nat) : Option World := do
  let p ← w.publications[i]?
  let x ← w.watchers[p.watcher]?
  let id := p.change.id
  let go (w : World) (phase : Publication.Phase) : World := w.setPublication i { p with phase }
  match p.phase with
  | .begun =>
    if x.role.publishesStubs then
      pure (go w (.putting none [⟨some id, p.change.stub.payload⟩] none))
    else
      let resource := x.role.resource
      let (delay, answer) := w.orchestrator.lookUp resource id
      pure ((go w (.lookingUp (now + delay) answer)).note now [.looked resource id])
  | .lookingUp due answer =>
    if now < due then none
    else
      match answer with
      | .error e => pure (w.endPublication i p x.role (.error e))
      | .ok record =>
        match messages x id record with
        | (.error e, x) => pure ((w.setWatcher p.watcher x).endPublication i p x.role (.error e))
        | (.ok (ms, newest), x) => pure (go (w.setWatcher p.watcher x) (.putting none ms newest))
  | .putting current left newest =>
    match left with
    | [] =>
      let x := { x with clock := (newest.map (max x.clock)).getD x.clock }
      pure ((w.setWatcher p.watcher x).endPublication i p x.role (.ok ()))
    | m :: rest =>
      match ← w.stepPut? now x.outlet m current with
      | (.inl put, w) => pure (go w (.putting (some put) left newest))
      | (.inr (.ok ()), w) => pure (go w (.putting none rest newest))
      | (.inr (.error e), w) => pure (w.endPublication i p x.role (.error e))
  | .ended _ => none

end World

end ChangeFeed.Engine
