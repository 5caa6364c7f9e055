import ChangeFeed.Allocation.Record
import ChangeFeed.Json.Printer
import ChangeFeed.Error
import ChangeFeed.Resource

/-!
# Allocation updates

A changed allocation is published as one update for each task event that is newer than a cutoff, and
as a single update without an event if there is no such event. `Allocation.decompose` makes the
updates; the newest time it answers is the cutoff that leaves none of these events.
-/

namespace ChangeFeed.Allocation

/-- What is published of an allocation: its own fields, and one event with the task it happened
to. -/
structure Update where
  allocation : Allocation
  event : Option ((String × Task) × Json)
  deriving Inhabited

def textOrNull : Option String → Json
  | some s => .string s
  | none => .null

/-- The document of an update, in the order in which its fields are published. -/
def Update.document (u : Update) : Json :=
  let a := u.allocation
  let name := (u.event.map fun e => e.1.1).getD ""
  let task := (u.event.map fun e => e.1.2).getD .blank
  .object [
    ("Name", .string a.name),
    ("NodeID", .string a.nodeId),
    ("AllocationID", .string a.id),
    ("DesiredStatus", .string a.desiredStatus),
    ("DesiredDescription", .string a.desiredDescription),
    ("ClientStatus", .string a.clientStatus),
    ("ClientDescription", .string a.clientDescription),
    ("JobID", .string a.jobId),
    ("GroupName", .string a.taskGroup),
    ("TaskName", .string name),
    ("EvalID", .string a.evalId),
    ("TaskState", .string task.state),
    ("TaskFailed", .bool task.failed),
    ("TaskStartedAt", textOrNull task.startedAt),
    ("TaskFinishedAt", textOrNull task.finishedAt),
    ("TaskEvent", (u.event.map fun e => e.2).getD .null),
    ("ModifyTime", .integer a.modifyTime)]

/-- When an event happened: its `Time` if that is a whole number of 64 bits, else 0. -/
def eventTime (event : Json) : Int :=
  match event.field? "Time" with
  | some document => (Json.Typed.signed document).toOption.getD 0
  | none => 0

/-- Whether a time is past a cutoff; everything is past none. -/
def isPast (cutoff : Option Int) (time : Int) : Bool := cutoff.all (· < time)

/-- The later of a time and an optional one. -/
def later (newest : Option Int) (time : Int) : Option Int :=
  some ((newest.map (max · time)).getD time)

/-- What is made of an allocation. -/
structure Decomposition where
  updates : List Update
  /-- The time of the newest event, or the cutoff if that is later. -/
  newest : Option Int
  /-- Whether the allocation never changes again. -/
  terminal : Bool
  deriving Inhabited

/-- Splits an allocation into the updates for the events past a cutoff. -/
def split (a : Allocation) (cutoff : Option Int) : Decomposition :=
  let fresh := a.events.filter fun e => isPast cutoff (eventTime e.2)
  let updates := fresh.map fun e => Update.mk a (some e)
  ⟨if updates.isEmpty then [⟨a, none⟩] else updates,
    (fresh.map fun e => eventTime e.2).foldl later cutoff, a.isTerminal⟩

/-- Splits the record of an allocation; a record of another form is malformed. -/
def decompose (record : Json) (cutoff : Option Int) : Except Error Decomposition :=
  match read record with
  | .error reason => .error (.malformed Resource.allocations.listPath reason)
  | .ok a => .ok (a.split cutoff)

end ChangeFeed.Allocation
