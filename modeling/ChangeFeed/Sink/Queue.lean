import ChangeFeed.Error
import ChangeFeed.Sink.Message

/-!
# Message queues

A queue of bounded size between those who put messages and those who write them. A put into a full
queue waits; the places that writers free go to the waiting puts in the order in which they came.
A put that was granted a place fills it in a step of its own.

* `Queue.put`, `Queue.enter?` and `Queue.take?` are the steps of a message on its way.
* `Queue.length` counts the places that are taken, also those that are granted and not yet filled.
* `Queue.close` refuses the puts that come later; waiting puts are still served.
-/

namespace ChangeFeed.Sink

/-- A put that waits. -/
structure Pending where
  ticket : Nat
  message : Message
  deriving DecidableEq, Inhabited

/-- Messages on their way to the writers. -/
structure Queue where
  /-- The number of places. -/
  capacity : Nat
  /-- The accepted messages, the oldest first. -/
  items : List Message
  /-- Puts that were granted a place which they have not filled. -/
  granted : List Pending
  /-- Puts that wait for a place. -/
  waiting : List Pending
  /-- The number of puts that had to wait so far. -/
  tickets : Nat
  closed : Bool
  deriving DecidableEq, Inhabited

/-- What becomes of a put at once. -/
inductive Admission where
  | refused
  | accepted
  | waits (ticket : Nat)
  deriving DecidableEq, Inhabited

namespace Queue

/-- An open queue with at least one place. -/
def empty (capacity : Nat) : Queue := ⟨max capacity 1, [], [], [], 0, false⟩

/-- The places of a queue are counted. -/
def checkRoom (capacity : Nat) : Except Error Unit :=
  if capacity ≤ greatestPlaces then .ok () else .error (.broken .tooManyPlaces)

def length (q : Queue) : Nat := q.items.length + q.granted.length

/-- Puts a message, or waits for a place. -/
def put (q : Queue) (m : Message) : Admission × Queue :=
  if q.closed then (.refused, q)
  else if q.length < q.capacity then (.accepted, { q with items := q.items ++ [m] })
  else
    (.waits q.tickets,
      { q with waiting := q.waiting ++ [⟨q.tickets, m⟩], tickets := q.tickets + 1 })

def enter? (q : Queue) (ticket : Nat) : Option Queue :=
  match q.granted.find? (·.ticket = ticket) with
  | none => none
  | some p =>
    some { q with
      items := q.items ++ [p.message]
      granted := q.granted.filter (·.ticket ≠ ticket) }

/-- Takes the oldest message; its place goes to the put that waited longest. -/
def take? (q : Queue) : Option (Message × Queue) :=
  match q.items with
  | [] => none
  | m :: rest =>
    match q.waiting with
    | [] => some (m, { q with items := rest })
    | p :: ps => some (m, { q with items := rest, granted := q.granted ++ [p], waiting := ps })

/-- Refuses the puts that come later. -/
def close (q : Queue) : Queue := { q with closed := true }

end Queue

/-- How far a call that stops a sink has come. -/
inductive Stopping where
  /-- About to refuse further puts. -/
  | closing
  /-- Waits for the queue to be empty; looks again at the given time. -/
  | draining (next : Nat)
  /-- Waits for the writers to end. -/
  | joining
  deriving DecidableEq, Inhabited

end ChangeFeed.Sink
