import ChangeFeed.Sink.Queue
import ChangeFeed.Sink.Buffer
import ChangeFeed.Settings.Output

/-!
# Batched sinks

One batcher empties the queue into a buffer and sends the buffer when it is full, when its oldest
message has waited long enough, or when the batcher ends. A refused batch is sent again, message by
message.

* `Batched.take?`, `Batched.flush?` and `Batched.leave?` are the steps of a batcher that collects;
  `Batched.finish?` is the answer of the destination.
* `Batched.stop?` is one step of a call that stops the sink.
-/

namespace ChangeFeed.Sink

/-- What the batcher does. -/
inductive Batcher where
  /-- It was never started. -/
  | absent
  | collecting (buffer : Buffer Message)
  /-- Sends a batch since the given time; `last` tells whether the batcher ends after it. -/
  | sending (batch : List Message) (last : Bool) (since : Nat)
  /-- Sends what is left of a refused batch, one message at a time. -/
  | resending (left : List Message) (last : Bool) (since : Nat)
  | ended
  deriving Inhabited

/-- A queue with its batcher. -/
structure Batched where
  queue : Queue
  batchSize : Nat
  /-- How long a message waits in the buffer. -/
  patience : Duration
  pollInterval : Nat
  started : Bool
  cancelled : Bool
  batcher : Batcher
  published : Nat
  dropped : Nat
  /-- The sizes of all batches, the first one first. -/
  sizes : List Nat
  deriving Inhabited

namespace Batched

/-- A sink that is not started. -/
def create (s : Settings.Output) : Batched :=
  ⟨.empty s.queueCapacity, max s.batchSize 1, s.flushInterval, s.drainPollInterval.millis, false,
    false, .absent, 0, 0, []⟩

def fresh (b : Batched) : Batcher := .collecting (.empty b.batchSize b.patience.millis)

/-- Starts the batcher; a second start does nothing. -/
def start (b : Batched) : Batched :=
  if b.started then b else { b with started := true, batcher := b.fresh }

def send (b : Batched) (batch : List Message) (last : Bool) (now : Nat) : Batched :=
  { b with batcher := .sending batch last now, sizes := b.sizes ++ [batch.length] }

/-- Whether the oldest message of a buffer has waited long enough. -/
def isDue (buffer : Buffer Message) (now : Nat) : Bool := buffer.deadline.any (· ≤ now)

/-- Takes the oldest message of the queue, and sends the buffer if that fills it. -/
def take? (b : Batched) (now : Nat) : Option Batched :=
  match b.batcher with
  | .collecting buffer =>
    if b.cancelled || isDue buffer now then none
    else
      b.queue.take?.map fun (m, queue) =>
        let buffer := buffer.push now m
        let b := { b with queue }
        match buffer.full? with
        | some _ => b.send buffer.items false now
        | none => { b with batcher := .collecting buffer }
  | _ => none

/-- Sends a buffer whose oldest message has waited long enough. -/
def flush? (b : Batched) (now : Nat) : Option Batched :=
  match b.batcher with
  | .collecting buffer =>
    if !b.cancelled && isDue buffer now then some (b.send buffer.items false now) else none
  | _ => none

/-- Ends once that is due; what is in the buffer is sent before. -/
def leave? (b : Batched) (now : Nat) : Option Batched :=
  match b.batcher with
  | .collecting buffer =>
    if !b.cancelled then none
    else if buffer.items.isEmpty then some { b with batcher := .ended }
    else some (b.send buffer.items true now)
  | _ => none

def proceed (b : Batched) (last : Bool) : Batched :=
  { b with batcher := if last then .ended else b.fresh }

def finish? (b : Batched) (ok : Bool) (now : Nat) : Option Batched :=
  match b.batcher with
  | .sending batch last _ =>
    if ok then some ({ b with published := b.published + batch.length }.proceed last)
    else some { b with batcher := .resending batch last now }
  | .resending (_ :: rest) last _ =>
    let b := { b with
      published := b.published + if ok then 1 else 0
      dropped := b.dropped + if ok then 0 else 1 }
    match rest with
    | [] => some (b.proceed last)
    | _ :: _ => some { b with batcher := .resending rest last now }
  | _ => none

def cancel (b : Batched) : Batched := { b with cancelled := true }

def quiet (b : Batched) : Bool :=
  match b.batcher with
  | .absent | .ended => true
  | _ => false

/-- Ends the batcher of an empty queue, or looks again later. -/
def drain (b : Batched) (now : Nat) : Batched × Option Stopping :=
  if b.started ∧ 0 < b.queue.length then (b, some (.draining (now + b.pollInterval)))
  else (b.cancel, some .joining)

/-- One step of a call that stops the sink; no further phase means that it returns. -/
def stop? (b : Batched) (now : Nat) : Stopping → Option (Batched × Option Stopping)
  | .closing => some (drain { b with queue := b.queue.close } now)
  | .draining next => if next ≤ now then some (b.drain now) else none
  | .joining => if b.quiet then some (b, none) else none

def text (b : Batched) (name destination : String) : String :=
  "BatchedSink \x7b name: " ++ Text.quoted name ++ ", destination: " ++ Text.quoted destination ++
    ", batch_size: " ++ toString b.batchSize ++ ", flush_interval: " ++ b.patience.text ++ " \x7d"

end Batched

end ChangeFeed.Sink
