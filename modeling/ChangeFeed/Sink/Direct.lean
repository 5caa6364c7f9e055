import ChangeFeed.Sink.Queue
import ChangeFeed.Settings.Output

/-!
# Direct sinks

Several writers empty one queue, one call for each message. A message that a writer received is always
written; the end of the writers applies between two messages only. One writer at a time receives, but
it lets the next one receive before it writes, so writers with a message in hand go on in any order.

* `Direct.take?`, `Direct.call?`, `Direct.finish?` and `Direct.leave?` are the steps of a writer.
* `Direct.stop?` is one step of a call that stops the sink: it refuses further puts, waits until no
  place of the queue is taken, lets the writers end, and waits for that. A sink that was never
  started does not wait.
-/

namespace ChangeFeed.Sink

/-- What a writer does. -/
inductive Worker where
  | idle
  /-- Has received a message and not called the destination with it yet. -/
  | holding (m : Message)
  /-- Writes a message since the given time. -/
  | writing (m : Message) (since : Nat)
  | ended
  deriving DecidableEq, Inhabited

/-- A queue with its writers. -/
structure Direct where
  queue : Queue
  /-- The number of writers of a started sink. -/
  size : Nat
  /-- The pause between two looks at a queue that is to become empty. -/
  pollInterval : Nat
  started : Bool
  /-- Whether the writers are to end. -/
  cancelled : Bool
  workers : List Worker
  published : Nat
  dropped : Nat
  deriving DecidableEq, Inhabited

namespace Direct

/-- A sink that is not started. -/
def create (s : Settings.Output) : Direct :=
  ⟨.empty s.queueCapacity, max s.workerCount 1, s.drainPollInterval.millis, false, false, [], 0, 0⟩

/-- Starts the writers; a second start does nothing. -/
def start (d : Direct) : Direct :=
  if d.started then d
  else { d with started := true, workers := List.replicate d.size .idle }

/-- An idle writer receives the oldest message. -/
def take? (d : Direct) (i : Nat) : Option Direct :=
  if d.workers[i]? = some .idle ∧ !d.cancelled then
    d.queue.take?.map fun (m, queue) => { d with queue, workers := d.workers.set i (.holding m) }
  else none

/-- A writer calls the destination with the message that it received. -/
def call? (d : Direct) (i : Nat) (now : Nat) : Option Direct :=
  match d.workers[i]? with
  | some (.holding m) => some { d with workers := d.workers.set i (.writing m now) }
  | _ => none

/-- The destination has answered. -/
def finish? (d : Direct) (i : Nat) (ok : Bool) : Option Direct :=
  match d.workers[i]? with
  | some (.writing _ _) =>
    some { d with
      workers := d.workers.set i .idle
      published := d.published + if ok then 1 else 0
      dropped := d.dropped + if ok then 0 else 1 }
  | _ => none

/-- An idle writer ends once it is to. -/
def leave? (d : Direct) (i : Nat) : Option Direct :=
  if d.workers[i]? = some .idle ∧ d.cancelled then
    some { d with workers := d.workers.set i .ended }
  else none

def cancel (d : Direct) : Direct := { d with cancelled := true }

def quiet (d : Direct) : Bool := d.workers.all (· = .ended)

/-- Ends the writers of an empty queue, or looks again later. -/
def drain (d : Direct) (now : Nat) : Direct × Option Stopping :=
  if d.started ∧ 0 < d.queue.length then (d, some (.draining (now + d.pollInterval)))
  else (d.cancel, some .joining)

/-- One step of a call that stops the sink; no further phase means that it returns. -/
def stop? (d : Direct) (now : Nat) : Stopping → Option (Direct × Option Stopping)
  | .closing => some (drain { d with queue := d.queue.close } now)
  | .draining next => if next ≤ now then some (d.drain now) else none
  | .joining => if d.quiet then some (d, none) else none

def text (d : Direct) (name destination : String) : String :=
  "DirectSink \x7b name: " ++ Text.quoted name ++ ", destination: " ++ Text.quoted destination ++
    ", worker_count: " ++ toString d.size ++ " \x7d"

end Direct

end ChangeFeed.Sink
