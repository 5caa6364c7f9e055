import ChangeFeed.Json.Typed

/-!
# Allocation records

What is read of the record of an allocation: who it belongs to, its status, and for each of its
tasks the state and the events. Everything may be missing.
-/

namespace ChangeFeed

/-- A task of an allocation. -/
structure Allocation.Task where
  state : String
  failed : Bool
  startedAt : Option String
  finishedAt : Option String
  events : Option (List Json)
  deriving Inhabited

/-- The record of an allocation. -/
structure Allocation where
  id : String
  name : String
  nodeId : String
  evalId : String
  jobId : String
  taskGroup : String
  desiredStatus : String
  desiredDescription : String
  clientStatus : String
  clientDescription : String
  modifyTime : Int
  /-- The tasks by name, in the order of the names. -/
  tasks : Option (List (String × Allocation.Task))
  deriving Inhabited

namespace Allocation

open Json.Typed

def Task.fields : List (RecordField Task) := [
  field "State" text fun s v => { s with state := v },
  field "Failed" flag fun s v => { s with failed := v },
  field "StartedAt" (optional text) fun s v => { s with startedAt := v },
  field "FinishedAt" (optional text) fun s v => { s with finishedAt := v },
  field "Events" (optional items) fun s v => { s with events := v }]

/-- A task of which nothing is said. -/
def Task.blank : Task := ⟨"", false, none, none, none⟩

def Task.read (document : Json) : Except String Task :=
  record "TaskState" Task.fields .blank document

def fields : List (RecordField Allocation) := [
  field "ID" text fun a v => { a with id := v },
  field "Name" text fun a v => { a with name := v },
  field "NodeID" text fun a v => { a with nodeId := v },
  field "EvalID" text fun a v => { a with evalId := v },
  field "JobID" text fun a v => { a with jobId := v },
  field "TaskGroup" text fun a v => { a with taskGroup := v },
  field "DesiredStatus" text fun a v => { a with desiredStatus := v },
  field "DesiredDescription" text fun a v => { a with desiredDescription := v },
  field "ClientStatus" text fun a v => { a with clientStatus := v },
  field "ClientDescription" text fun a v => { a with clientDescription := v },
  field "ModifyTime" signed fun a v => { a with modifyTime := v },
  field "TaskStates" (optional (entries Task.read)) fun a v => { a with tasks := v }]

/-- An allocation of which nothing is said. -/
def blank : Allocation := ⟨"", "", "", "", "", "", "", "", "", "", 0, none⟩

def read (document : Json) : Except String Allocation :=
  record "Allocation" fields .blank document

/-- Whether the allocation never changes again. -/
def isTerminal (a : Allocation) : Bool := a.clientStatus ∈ ["complete", "failed", "lost"]

/-- The events of all tasks, in the order of the task names. -/
def events (a : Allocation) : List ((String × Task) × Json) :=
  (a.tasks.getD []).flatMap fun task => (task.2.events.getD []).map fun event => (task, event)

end Allocation

end ChangeFeed
