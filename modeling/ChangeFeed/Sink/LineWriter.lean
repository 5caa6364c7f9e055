import ChangeFeed.Sink.Lines

/-!
# Lines of concurrent calls

Any number of calls write to one device, each a payload and a line feed. A call first gets the lock;
then it writes its payload piece by piece, the line feed, and flushes, and only then gives the lock
back. It may have to wait before every one of these steps, while other calls begin.
`LineWriter.next` is one step of one call.
-/

namespace ChangeFeed.Sink

/-- How far a call is. -/
inductive LineStage where
  /-- It waits for the lock. -/
  | waiting
  | payload (left : Bytes)
  | lineFeed (left : Bytes)
  | flushing
  | ended (result : Except LineFault Unit)
  deriving Inhabited

namespace LineStage

/-- The stage in which some bytes of the payload are left. -/
def ofPayload (left : Bytes) : LineStage :=
  if left.isEmpty then .lineFeed [0x0a] else .payload left

def ofLineFeed (left : Bytes) : LineStage := if left.isEmpty then .flushing else .lineFeed left

def isEnded : LineStage → Bool
  | .ended _ => true
  | _ => false

/-- One step of a call that has the lock. -/
def advance? (d : Device) : LineStage → Option (LineStage × Device)
  | .payload left =>
    match d.take left with
    | (.ok rest, d) => some (.ofPayload rest, d)
    | (.error e, d) => some (.ended (.error e), d)
  | .lineFeed left =>
    match d.take left with
    | (.ok rest, d) => some (.ofLineFeed rest, d)
    | (.error e, d) => some (.ended (.error e), d)
  | .flushing => some (.ended (if d.flushFails then .error .flush else .ok ()), d)
  | .waiting => none
  | .ended _ => none

end LineStage

/-- A call that writes a line. -/
structure LineCall where
  payload : Bytes
  stage : LineStage
  deriving Inhabited

/-- A device with the calls that write to it. -/
structure LineWriter where
  device : Device
  calls : List LineCall
  /-- The call that has the lock. -/
  holder : Option Nat
  /-- The calls that got the lock so far, the first one first. -/
  order : List Nat
  deriving Inhabited

/-- What may happen next. -/
inductive LineEvent where
  | call (payload : Bytes)
  | lock (i : Nat)
  /-- A step of the call that has the lock. -/
  | proceed
  /-- From now on the device takes pieces of another size. -/
  | piece (limit : Option Nat)
  deriving Inhabited

namespace LineWriter

/-- A device that no call writes to. -/
def fresh (d : Device) : LineWriter := ⟨d, [], none, []⟩

def step? (w : LineWriter) : LineEvent → Option LineWriter
  | .call payload => some { w with calls := w.calls ++ [⟨payload, .waiting⟩] }
  | .lock i =>
    match w.holder, w.calls[i]? with
    | none, some ⟨payload, .waiting⟩ => some { w with
        calls := w.calls.set i ⟨payload, .ofPayload payload⟩
        holder := some i
        order := w.order ++ [i] }
    | _, _ => none
  | .proceed => do
    let i ← w.holder
    let call ← w.calls[i]?
    let (stage, device) ← call.stage.advance? w.device
    some { w with
      device
      calls := w.calls.set i { call with stage }
      holder := if stage.isEnded then none else some i }
  | .piece limit => some { w with device := { w.device with piece := limit } }

/-- What an event leaves; what cannot happen changes nothing. -/
def next (w : LineWriter) (event : LineEvent) : LineWriter := (w.step? event).getD w

def after (w : LineWriter) (events : List LineEvent) : LineWriter := events.foldl next w

end LineWriter

end ChangeFeed.Sink
