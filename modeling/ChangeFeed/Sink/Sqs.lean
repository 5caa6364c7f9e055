import ChangeFeed.Sink.Message
import ChangeFeed.Settings.Output
import ChangeFeed.Text.Replaced

/-!
# Message queues of a cloud service

A batch is one request with an entry for each message. Entries that the queue rejects are sent again
one at a time, unchanged; the batch fails when a request fails or a second attempt is rejected.

A queue that keeps order gets a group for each entry, the key of its message or the group of the
settings, and a deduplication id of the writer's start time and a running number. Other queues get
neither.

* `Writer.entries` makes the entries of a request.
* `Writer.writeBatch` and `Writer.writeOne` send messages through a `Client`, whose answers are a
  script; past its end nothing is rejected.
-/

namespace ChangeFeed.Sink.Sqs

/-- One message of a request. -/
structure Entry where
  /-- Tells the entry from the others of its request. -/
  id : String
  body : String
  group : Option String
  /-- Two entries with one such id are one message to the queue. -/
  deduplication : Option String
  deriving DecidableEq, Inhabited

/-- What a request is answered. -/
inductive Answer where
  | rejected (ids : List String)
  | failed (reason : String)
  deriving DecidableEq, Inhabited

/-- A scripted queue service. -/
structure Client where
  script : List Answer
  /-- All requests, the last one first. -/
  requests : List (List Entry)
  deriving DecidableEq, Inhabited

def Client.send (client : Client) (entries : List Entry) : Answer × Client :=
  let requests := entries :: client.requests
  match client.script with
  | [] => (.rejected [], { client with requests })
  | answer :: script => (answer, ⟨script, requests⟩)

/-- Makes requests of messages. -/
structure Writer where
  queueUrl : String
  /-- The group of messages without a key, for a queue that keeps order. -/
  group : Option String
  /-- When the writer was made, in milliseconds. -/
  started : Nat
  /-- The number of deduplication ids so far, as a word. -/
  sequence : UInt64
  deriving DecidableEq, Inhabited

namespace Writer

def create (s : Settings.Sqs) (started : Nat) : Except Error Writer :=
  match s.queueUrl with
  | none => .error (.invalidSettings "Missing sink.sqs.queue_url")
  | some url => .ok ⟨url, if s.isFifo then some s.groupId else none, started, 0⟩

def decimal (n : Nat) : String := String.ofList (Decimal.digits n)

/-- The entry of the message at a position of a request. -/
def entry (w : Writer) (position : Nat) (m : Message) : Entry × Writer :=
  let body := Text.replaced m.payload
  match w.group with
  | none => (⟨decimal position, body, none, none⟩, w)
  | some group =>
    (⟨decimal position, body, some (m.key.getD group),
      some (decimal w.started ++ "-" ++ decimal w.sequence.toNat)⟩,
      { w with sequence := w.sequence + 1 })

/-- The entries of messages from a position on. -/
def entries (w : Writer) (position : Nat) : List Message → List Entry × Writer
  | [] => ([], w)
  | m :: rest =>
    let (e, w) := w.entry position m
    let (es, w) := w.entries (position + 1) rest
    (e :: es, w)

def failure (w : Writer) (reason : String) : Error := .publish w.queueUrl reason

/-- What is said of entries that were rejected for good. -/
def rejection (ids : List String) : String :=
  "entries [" ++ String.intercalate ", " (ids.map Text.quoted) ++ "] rejected"

def sendOne (w : Writer) (client : Client) (e : Entry) : Except Error Unit × Client :=
  match client.send [e] with
  | (.failed reason, client) => (.error (w.failure reason), client)
  | (.rejected [], client) => (.ok (), client)
  | (.rejected ids, client) => (.error (w.failure (rejection ids)), client)

/-- Sends the rejected entries again, until one fails; ids of no entry are passed over. -/
def resend (w : Writer) (entries : List Entry) :
    Client → List String → Except Error Unit × Client
  | client, [] => (.ok (), client)
  | client, id :: ids =>
    match entries.find? (·.id = id) with
    | none => w.resend entries client ids
    | some e =>
      match w.sendOne client e with
      | (.ok (), client) => w.resend entries client ids
      | (.error e, client) => (.error e, client)

def writeBatch (w : Writer) (client : Client) (batch : List Message) :
    Except Error Unit × Writer × Client :=
  let (entries, w) := w.entries 0 batch
  match client.send entries with
  | (.failed reason, client) => (.error (w.failure reason), w, client)
  | (.rejected ids, client) =>
    let (result, client) := w.resend entries client ids
    (result, w, client)

def writeOne (w : Writer) (client : Client) (m : Message) :
    Except Error Unit × Writer × Client :=
  let (e, w) := w.entry 0 m
  let (result, client) := w.sendOne client e
  (result, w, client)

def text (w : Writer) : String :=
  "SqsWriter \x7b queue_url: " ++ Text.quoted w.queueUrl ++ ", fifo: " ++
    (if w.group.isSome then "true" else "false") ++ " \x7d"

end Writer

end ChangeFeed.Sink.Sqs
