import ChangeFeed.Lock.Table

/-!
# A lock service and its clients

Clients come to a lock service, wait, give up, release what they hold or forget it, and locks are
revoked, in any order. What a client does on its way to a lock are several steps, and anything may
happen between them:

* it puts itself on the list of those who wait (`arrive`), and only then looks at the table
  (`look`);
* if the lock is held it waits until it is told of a freed one; then it puts itself on the list anew
  (`wake`) and looks again.

A held lock is kept together with the sending end of a monitor, whose other end goes with the lease.
The monitor is open while the sending end is kept.
-/

namespace ChangeFeed.Lock

/-- A lock service with its clients. -/
structure Office where
  service : Service
  /-- The tickets of those who are on the list and have not looked at the table since. -/
  looking : List Nat
  /-- The number of clients so far. -/
  tickets : Nat
  /-- All leases that were granted, oldest first. -/
  leases : List Lease
  /-- The sending ends of monitors, each with its lock and the number of its lease. -/
  senders : List (String × Nat)
  deriving Inhabited

namespace Office

def empty : Office := ⟨.empty, [], 0, [], []⟩

/-- Whether the monitor of a lease is open. -/
def isOpen (s : Office) (n : Nat) : Bool := s.senders.any (·.2 = n)

/-- A client comes with a ticket of its own, and puts itself on the list. -/
def arrive (s : Office) (key name : String) : Office :=
  { s with
    service := { s.service with waiters := s.service.waiters ++ [⟨s.tickets, key, name, false⟩] }
    looking := s.looking ++ [s.tickets]
    tickets := s.tickets + 1 }

/-- A client on the list looks at the table, and either is granted the lock or goes on to wait.
Answers the number of the lease. -/
def look (s : Office) (ticket : Nat) : Option Nat × Office :=
  match s.service.waiters.find? fun w => w.ticket = ticket && ticket ∈ s.looking with
  | none => (none, s)
  | some w =>
    let looking := s.looking.filter (· ≠ ticket)
    match s.service.table.grant? w.key w.name with
    | none => (none, { s with looking })
    | some (lease, table) =>
      (some s.leases.length, { s with
        service := { s.service.cancel ticket with table }
        looking
        leases := s.leases ++ [lease]
        senders := s.senders ++ [(w.key, s.leases.length)] })

/-- A client that waits and was told of a freed lock puts itself on the list anew. -/
def wake (s : Office) (ticket : Nat) : Office :=
  match s.service.waiters.find? fun w => w.ticket = ticket && w.marked && ticket ∉ s.looking with
  | none => s
  | some w =>
    let others := (s.service.cancel ticket).waiters
    { s with
      service := { s.service with waiters := others ++ [⟨ticket, w.key, w.name, false⟩] }
      looking := s.looking ++ [ticket] }

/-- A client gives up, wherever it is on its way. -/
def cancel (s : Office) (ticket : Nat) : Office :=
  { s with service := s.service.cancel ticket, looking := s.looking.filter (· ≠ ticket) }

/-- The sending ends that are left when a lock is free. -/
def sendersWithout (s : Office) (key : String) : List (String × Nat) :=
  s.senders.filter (·.1 ≠ key)

def release (s : Office) (lease : Lease) : Except Error Unit × Office :=
  match s.service.release lease with
  | (.ok (), service) => (.ok (), { s with service, senders := s.sendersWithout lease.key })
  | (.error e, _) => (.error e, s)

/-- Takes a lock from its holder; answers whether there was one. -/
def revoke (s : Office) (key : String) : Bool × Office :=
  match s.service.revoke key with
  | (true, service) => (true, { s with service, senders := s.sendersWithout key })
  | (false, _) => (false, s)

/-- Lets all who wait and were told of a freed lock try once, in order; answers the numbers of the
leases by ticket. -/
def settle (s : Office) : List (Nat × Nat) × Office :=
  s.service.marked.foldl
    (fun (granted, s) ticket =>
      match (s.wake ticket).look ticket with
      | (some n, s) => (granted ++ [(ticket, n)], s)
      | (none, s) => (granted, s))
    ([], s)

/-! ## Events -/

/-- What happens at a lock service. Clients are named by their tickets, and leases by their
numbers. -/
inductive Event where
  | arrive (key name : String)
  | look (ticket : Nat)
  | wake (ticket : Nat)
  | cancel (ticket : Nat)
  | release (lease : Nat)
  /-- The owner of a lease forgets it. -/
  | drop (lease : Nat)
  | revoke (key : String)
  deriving DecidableEq, Inhabited

def next (s : Office) : Event → Office
  | .arrive key name => s.arrive key name
  | .look ticket => (s.look ticket).2
  | .wake ticket => s.wake ticket
  | .cancel ticket => s.cancel ticket
  | .release n =>
    match s.leases[n]? with
    | some lease => (s.release lease).2
    | none => s
  | .drop _ => s
  | .revoke key => (s.revoke key).2

def after (s : Office) (events : List Event) : Office := events.foldl next s

theorem after_append (s : Office) (events more : List Event) :
    s.after (events ++ more) = (s.after events).after more :=
  List.foldl_append

/-- What every event keeps is kept by every run. -/
theorem after_of_next {P : Office → Prop} (hP : ∀ s e, P s → P (s.next e)) {s : Office} (h : P s)
    (events : List Event) : P (s.after events) := by
  induction events generalizing s with
  | nil => exact h
  | cons e rest ih => exact ih (hP s e h)

end Office

end ChangeFeed.Lock
