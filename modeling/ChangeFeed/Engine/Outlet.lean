import ChangeFeed.Sink.Direct
import ChangeFeed.Sink.Batched
import ChangeFeed.Sink.Sqs
import ChangeFeed.Sink.Web
import ChangeFeed.Sink.Build
import ChangeFeed.Metrics.Registry
import ChangeFeed.Engine.Log

/-!
# Outlets

A sink together with a destination whose answers are laid down. An outlet is a direct or a batched
sink, one that throws everything away, or one that only records what it is given and fails as it is
told.

* `Outlet.start`, `Outlet.begin`, `Outlet.proceed?` and `Outlet.stop?` are the calls of its users; a
  put and a stop may need several steps.
* `Outlet.step?` is one step of one of its writers.
-/

namespace ChangeFeed.Engine

open Sink

/-- A destination whose answers are laid down. -/
inductive Destination where
  /-- Refuses single messages by key, where no key is the empty one, and batches by number. -/
  | memory (refusedKeys : List String) (refusedBatches : List Nat) (refusesBatches : Bool)
      (batches : Nat)
  /-- A topic that refuses messages by key. -/
  | topic (name : String) (refusedKeys : List String)
  /-- A message queue of a cloud service. -/
  | queue (writer : Sqs.Writer) (client : Sqs.Client)
  /-- A web service whose requests all fare alike. -/
  | web (writer : Web.Writer) (delivery : Http.Delivery)
  deriving Inhabited

namespace Destination

def name : Destination → String
  | .memory .. => "memory"
  | .topic name _ => "kafka://" ++ name
  | .queue writer _ => writer.queueUrl
  | .web writer _ => writer.address

/-- Whether a message has one of the given keys. -/
def hasKey (keys : List String) (m : Message) : Bool := m.key.getD "" ∈ keys

/-- The answer to a single message. -/
def write (d : Destination) (m : Message) : Except Error Unit × Destination :=
  match d with
  | .memory keys _ _ _ =>
    (if hasKey keys m then .error (.publish d.name "scripted") else .ok (), d)
  | .topic _ keys =>
    (if hasKey keys m then .error (.publish d.name "Message production error: MessageTimedOut")
      else .ok (), d)
  | .queue writer client =>
    let (result, writer, client) := writer.writeOne client m
    (result, .queue writer client)
  | .web writer delivery => (writer.write m delivery, d)

/-- The answer to a message of a refused batch. -/
def writeOne (d : Destination) (m : Message) : Except Error Unit × Destination :=
  match d with
  | .web writer delivery => (writer.writeOne m delivery, d)
  | d => d.write m

def writeBatch (d : Destination) (batch : List Message) : Except Error Unit × Destination :=
  match d with
  | .memory keys refused all batches =>
    (if all || batches ∈ refused then .error (.publish d.name "scripted") else .ok (),
      .memory keys refused all (batches + 1))
  | .queue writer client =>
    let (result, writer, client) := writer.writeBatch client batch
    (result, .queue writer client)
  | .topic name _ => (.error (.publish ("kafka://" ++ name) "no batches"), d)
  | .web writer delivery => (writer.writeBatch batch delivery, d)

end Destination

/-- A sink that only records. -/
structure Recorder where
  failsStart : Bool
  failsStop : Bool
  /-- The numbers of the puts that fail. -/
  failingPuts : List Nat
  putDelay : Nat
  /-- The number of puts so far. -/
  puts : Nat
  isStopped : Bool
  deriving DecidableEq, Inhabited

namespace Recorder

def failure (call : String) : Error := .publish "recording" call

end Recorder

/-- A sink with its destination. -/
inductive Outlet where
  /-- Every call of the destination takes the given time. -/
  | direct (name : String) (sink : Direct) (destination : Destination) (delay : Nat)
  | batched (name : String) (sink : Batched) (destination : Destination) (delay : Nat)
  | discarding (isStopped : Bool) (count : Nat)
  | recording (recorder : Recorder)
  deriving Inhabited

/-- How far a put has come. -/
inductive Put where
  /-- Waits for a place in the queue. -/
  | waiting (ticket : Nat)
  /-- Is being recorded since the given time. -/
  | recording (m : Message) (number since : Nat)
  deriving DecidableEq, Inhabited

namespace Outlet

def name : Outlet → String
  | .direct name .. => name
  | .batched name .. => name
  | .discarding .. => "noop"
  | .recording _ => "recording"

def text : Outlet → String
  | .direct name sink destination _ => sink.text name destination.name
  | .batched name sink destination _ => sink.text name destination.name
  | .discarding isStopped count =>
    "NoopSink \x7b stopped: " ++ (if isStopped then "true" else "false") ++ ", discarded: " ++
      toString count ++ " \x7d"
  | .recording _ => "recording"

/-- The sink of settings. Requests of a web service all get the given delivery, and lines are taken
without fail. -/
def ofSettings (s : Settings.Output) (delivery : Http.Delivery) : Except Error Outlet := do
  let name ← Sink.build s
  match s.destination with
  | some .web =>
    let writer ← Web.Writer.create s.web
    pure (.direct name (.create s) (.web writer delivery) 0)
  | some .webBatch =>
    let writer ← Web.Writer.create s.web
    pure (.batched name (.create s) (.web writer delivery) 0)
  | some .nowhere => pure (.discarding false 0)
  | _ => pure (.direct name (.create s) (.memory [] [] false 0) 0)

/-- Whether there is room for the queue of a sink and, if it is to start, for its batches. -/
def checkRoom (starts : Bool) : Outlet → Except Error Unit
  | .direct _ sink .. => Queue.checkRoom sink.queue.capacity
  | .batched _ sink .. => do
    Queue.checkRoom sink.queue.capacity
    if starts then Buffer.checkRoom sink.batchSize
  | _ => .ok ()

def start : Outlet → Except Error Unit × Outlet × List Entry
  | .direct name sink destination delay =>
    (.ok (), .direct name sink.start destination delay, [])
  | .batched name sink destination delay =>
    (.ok (), .batched name sink.start destination delay, [])
  | .discarding isStopped count => (.ok (), .discarding isStopped count, [])
  | .recording r =>
    (if r.failsStart then .error (Recorder.failure "start") else .ok (), .recording r, [.started])

/-- What a queue says to a put. -/
def admission (name : String) : Admission → Put ⊕ Except Error Unit
  | .refused => .inr (.error (.stopped name))
  | .accepted => .inr (.ok ())
  | .waits ticket => .inl (.waiting ticket)

/-- Begins a put: it ends at once or goes on. -/
def begin (o : Outlet) (m : Message) (now : Nat) : (Put ⊕ Except Error Unit) × Outlet :=
  match o with
  | .direct name sink destination delay =>
    let (a, queue) := sink.queue.put m
    (admission name a, .direct name { sink with queue } destination delay)
  | .batched name sink destination delay =>
    let (a, queue) := sink.queue.put m
    (admission name a, .batched name { sink with queue } destination delay)
  | .discarding isStopped count =>
    if isStopped then (.inr (.error (.stopped "noop")), o)
    else (.inr (.ok ()), .discarding isStopped (count + 1))
  | .recording r =>
    if r.isStopped then (.inr (.error (.stopped "recording")), o)
    else (.inl (.recording m r.puts now), .recording { r with puts := r.puts + 1 })

/-- Ends a put that went on. -/
def proceed? (o : Outlet) (p : Put) (now : Nat) :
    Option (Except Error Unit × Outlet × List Entry) :=
  match o, p with
  | .direct name sink destination delay, .waiting ticket =>
    (sink.queue.enter? ticket).map fun queue =>
      (.ok (), .direct name { sink with queue } destination delay, [])
  | .batched name sink destination delay, .waiting ticket =>
    (sink.queue.enter? ticket).map fun queue =>
      (.ok (), .batched name { sink with queue } destination delay, [])
  | .recording r, .recording m number since =>
    if now < since + r.putDelay then none
    else if number ∈ r.failingPuts then some (.error (Recorder.failure "put"), o, [])
    else some (.ok (), o, [.recorded m])
  | _, _ => none

/-- What a phase of stopping goes on with: the next phase, or the return of the call. -/
def phaseOrDone : Option Stopping → Stopping ⊕ Except Error Unit
  | some phase => .inl phase
  | none => .inr (.ok ())

/-- One step of a call that stops the sink. -/
def stop? (o : Outlet) (phase : Stopping) (now : Nat) :
    Option ((Stopping ⊕ Except Error Unit) × Outlet × List Entry) :=
  match o with
  | .direct name sink destination delay =>
    (sink.stop? now phase).map fun (sink, next) =>
      (phaseOrDone next, .direct name sink destination delay, [])
  | .batched name sink destination delay =>
    (sink.stop? now phase).map fun (sink, next) =>
      (phaseOrDone next, .batched name sink destination delay, [])
  | .discarding _ count => some (.inr (.ok ()), .discarding true count, [])
  | .recording r =>
    some (.inr (if r.failsStop then .error (Recorder.failure "stop") else .ok ()),
      .recording { r with isStopped := true }, [.stopped])

def succeeded : Except Error Unit → Bool
  | .ok () => true
  | .error _ => false

/-- One step of a writer of a direct sink. -/
def stepDirect? (name : String) (sink : Direct) (destination : Destination) (delay i now : Nat) :
    Option (Outlet × List Entry) :=
  match sink.workers[i]? with
  | some (.writing m since) =>
    if now < since + delay then none
    else
      let (result, destination) := destination.write m
      let ok := succeeded result
      (sink.finish? i ok).map fun sink =>
        (.direct name sink destination delay, [.wrote m ok])
  | some (.holding _) =>
    (sink.call? i now).map fun sink => (.direct name sink destination delay, [])
  | some .idle =>
    (sink.leave? i <|> sink.take? i).map fun sink => (.direct name sink destination delay, [])
  | _ => none

/-- One step of the batcher of a batched sink. -/
def stepBatched? (name : String) (sink : Batched) (destination : Destination) (delay now : Nat) :
    Option (Outlet × List Entry) :=
  match sink.batcher with
  | .collecting _ =>
    (sink.leave? now <|> sink.flush? now <|> sink.take? now).map fun sink =>
      (.batched name sink destination delay, [])
  | .sending batch _ since =>
    if now < since + delay then none
    else
      let (result, destination) := destination.writeBatch batch
      let ok := succeeded result
      (sink.finish? ok now).map fun sink =>
        (.batched name sink destination delay, [.wroteBatch batch ok])
  | .resending (m :: _) _ since =>
    if now < since + delay then none
    else
      let (result, destination) := destination.writeOne m
      let ok := succeeded result
      (sink.finish? ok now).map fun sink =>
        (.batched name sink destination delay, [.wroteOne m ok])
  | _ => none

def step? (o : Outlet) (i now : Nat) : Option (Outlet × List Entry) :=
  match o with
  | .direct name sink destination delay => stepDirect? name sink destination delay i now
  | .batched name sink destination delay => stepBatched? name sink destination delay now
  | .discarding .. | .recording _ => none

def writers : Outlet → Nat
  | .direct _ sink _ _ => sink.workers.length
  | .batched _ sink _ _ => if sink.started then 1 else 0
  | .discarding .. | .recording _ => 0

/-- The times that writers wait for. -/
def alarms : Outlet → List Nat
  | .direct _ sink _ delay =>
    sink.workers.filterMap fun
      | .writing _ since => some (since + delay)
      | _ => none
  | .batched _ sink _ delay =>
    match sink.batcher with
    | .collecting buffer => buffer.deadline.toList
    | .sending _ _ since => [since + delay]
    | .resending _ _ since => [since + delay]
    | _ => []
  | .discarding .. | .recording _ => []

/-- The time that a put waits for. -/
def putAlarms (o : Outlet) : Put → List Nat
  | .waiting _ => []
  | .recording _ _ since =>
    match o with
    | .recording r => [since + r.putDelay]
    | _ => []

/-- The number of messages that wait for a writer, or of those that were thrown away. -/
def queued? : Outlet → Option Nat
  | .direct _ sink _ _ => some sink.queue.length
  | .discarding _ count => some count
  | .batched .. | .recording _ => none

/-- Adds what a sink has counted to the metrics. -/
def measure (o : Outlet) (m : Metrics) : Metrics :=
  let count (m : Metrics) (metric : Metric) (n : Nat) : Metrics :=
    if n = 0 then m else m.add metric o.name n
  match o with
  | .direct _ sink _ _ => count (count m .published sink.published) .dropped sink.dropped
  | .batched _ sink _ _ =>
    sink.sizes.foldl (fun m size => m.observe o.name size)
      (count (count m .published sink.published) .dropped sink.dropped)
  | .discarding _ n => count m .published n
  | .recording _ => m

end Outlet

end ChangeFeed.Engine
