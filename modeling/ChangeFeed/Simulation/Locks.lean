import ChangeFeed.Lock.Office

/-!
# Runs of a lock service

Clients of one lock service, each in a named slot: a slot waits for a lock or holds a lease. A step
is one call of a client, which goes on until it has to wait; after it every wait that was told of a
freed lock tries again.
-/

namespace ChangeFeed.Simulation.Locks

open Lock

/-- What a client has. -/
inductive Slot where
  | waiting (ticket : Nat)
  /-- The number of a lease. -/
  | held (lease : Nat)
  deriving DecidableEq, Inhabited

/-- A service and its clients. -/
structure State where
  office : Office
  slots : List (String × Slot)
  deriving Inhabited

/-- A call. -/
inductive Call where
  | acquire (slot key name : String)
  | cancel (slot : String)
  | release (slot : String)
  | drop (slot : String)
  | notice (slot : String)
  | revoke (key : String)
  | holder (key : String)
  | show (slot : String)
  deriving DecidableEq, Inhabited

/-- What a call answers. -/
inductive Answer where
  | done
  | text (s : String)
  | flag (b : Bool)
  | session (holder : Option String)
  | failed (e : Error)
  deriving DecidableEq, Inhabited

/-- The answer of a call, the leases that were granted since the last one, and the slots that wait,
both by slot name. -/
structure Report where
  answer : Answer
  granted : List (String × Lease)
  waiting : List String
  deriving Inhabited

namespace State

def start : State := ⟨.empty, []⟩

/-- Empties a slot: a lease is kept without an owner, and a wait goes on unobserved. -/
def forget (s : State) (slot : String) : State :=
  { s with slots := s.slots.filter (·.1 ≠ slot) }

def put (s : State) (slot : String) (content : Slot) : State :=
  { s.forget slot with slots := (s.forget slot).slots ++ [(slot, content)] }

/-- The lease that a slot holds. -/
def lease? (s : State) (slot : String) : Option (Nat × Lease) :=
  match s.slots.lookup slot with
  | some (.held n) => (s.office.leases[n]?).map (n, ·)
  | _ => none

def call (s : State) : Call → Answer × State
  | .acquire slot key name =>
    let ticket := s.office.tickets
    let (n?, office) := (s.office.arrive key name).look ticket
    let content := match n? with
      | some n => Slot.held n
      | none => .waiting ticket
    (.done, { s.put slot content with office })
  | .cancel slot =>
    match s.slots.lookup slot with
    | some (.waiting ticket) =>
      (.done, { s.forget slot with office := s.office.cancel ticket })
    | _ => (.text "not waiting", s)
  | .release slot =>
    match s.lease? slot with
    | some (n, lease) =>
      let answer := match (s.office.release lease).1 with
        | .ok () => Answer.done
        | .error e => .failed e
      (answer, { s.forget slot with office := s.office.next (.release n) })
    | none => (.text "not held", s)
  | .drop slot => (.done, s.forget slot)
  | .notice slot =>
    match s.lease? slot with
    | some (n, _) => (.text (if s.office.isOpen n then "quiet" else "lost"), s)
    | none => (.text "not held", s)
  | .revoke key =>
    let (found, office) := s.office.revoke key
    (.flag found, { s with office })
  | .holder key => (.session (s.office.service.table.holder? key), s)
  | .show slot =>
    match s.lease? slot with
    | some (_, lease) => (.text lease.text, s)
    | none => (.text s.office.service.text, s)

/-- Hands a lease to the slot that waits with a ticket, if there still is one. -/
def hand (s : State) (ticket n : Nat) : State :=
  { s with slots := s.slots.map fun (name, content) =>
      (name, if content = .waiting ticket then .held n else content) }

/-- Lets those who wait try again. -/
def settle (s : State) : State :=
  let (granted, office) := s.office.settle
  granted.foldl (fun s (ticket, n) => s.hand ticket n) { s with office }

def leases (s : State) : List (String × Lease) :=
  (s.slots.filterMap fun (name, content) =>
    match content with
    | .held n => (s.office.leases[n]?).map (name, ·)
    | .waiting _ => none).mergeSort fun a b => a.1 ≤ b.1

def waiting (s : State) : List String :=
  (s.slots.filterMap fun (name, content) =>
    match content with
    | .waiting _ => some name
    | .held _ => none).mergeSort (· ≤ ·)

/-- One call and what follows from it. -/
def step (s : State) (call : Call) : Report × State :=
  let (answer, next) := s.call call
  let next := next.settle
  let granted := next.leases.filter fun entry => entry ∉ s.leases
  (⟨answer, granted, next.waiting⟩, next)

def run : State → List Call → List Report
  | _, [] => []
  | s, call :: rest =>
    let (report, s) := s.step call
    report :: run s rest

end State

end ChangeFeed.Simulation.Locks
