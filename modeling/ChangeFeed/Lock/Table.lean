import ChangeFeed.Error
import ChangeFeed.Decimal.Digits

/-!
# Lock tables

Locks inside one process, by key. A grant names a session: the name that was asked for and the
number of the grant, so that no two grants share a session. Whoever does not get a lock waits until
some lock becomes free and then tries again, in the order in which the waits began.

* `Table.grant?` gives a free lock, `Table.release` takes it back from its holder only, and
  `Table.revoke` takes it from whoever holds it.
* `Service` adds those who wait. A wait is told of a freed lock by a mark; `Service.retry` lets a
  marked wait try once more.
-/

namespace ChangeFeed.Lock

/-- A granted lock. -/
structure Lease where
  key : String
  session : String
  deriving DecidableEq, Inhabited

def Lease.text (lease : Lease) : String :=
  "LockLease \x7b key: " ++ Text.quoted lease.key ++
    ", session_id: " ++ Text.quoted lease.session ++ " \x7d"

/-- Who holds which lock, and how many locks were granted. -/
structure Table where
  holders : List Lease
  grants : Nat
  deriving Inhabited

namespace Table

def empty : Table := ⟨[], 0⟩

/-- The session that holds a lock. -/
def holder? (table : Table) (key : String) : Option String :=
  (table.holders.find? (·.key = key)).map Lease.session

/-- Whether a session still holds a lock. -/
def holds (table : Table) (lease : Lease) : Bool := table.holder? lease.key = some lease.session

/-- The session of the `n`-th grant to a name. -/
def sessionId (name : String) (n : Nat) : String :=
  name ++ "-" ++ String.ofList (Decimal.digits n)

/-- Grants a lock unless it is held. -/
def grant? (table : Table) (key name : String) : Option (Lease × Table) :=
  match table.holder? key with
  | some _ => none
  | none =>
    let lease := ⟨key, sessionId name (table.grants + 1)⟩
    some (lease, ⟨table.holders ++ [lease], table.grants + 1⟩)

/-- A lock is granted exactly when nobody holds it. -/
theorem grant?_isSome_iff {table : Table} {key name : String} :
    (table.grant? key name).isSome ↔ table.holder? key = none := by
  cases h : table.holder? key <;> simp [grant?, h]

/-- The table without the holder of a lock. -/
def free (table : Table) (key : String) : Table :=
  { table with holders := table.holders.filter (·.key ≠ key) }

@[simp] theorem holder?_free_self (table : Table) (key : String) :
    (table.free key).holder? key = none := by
  simp [free, holder?]

theorem holder?_free_of_ne {key other : String} (h : other ≠ key) (table : Table) :
    (table.free key).holder? other = table.holder? other := by
  simp only [free, holder?, List.find?_filter]
  congr 2
  funext lease
  by_cases h' : lease.key = other <;> simp [h', h]

def release (table : Table) (lease : Lease) : Except Error Table :=
  if table.holds lease then .ok (table.free lease.key)
  else
    .error (.release lease.key ("session " ++ lease.session ++ " no longer holds the lock"))

/-- Takes a lock from its holder, if there is one. -/
def revoke (table : Table) (key : String) : Option Table :=
  match table.holder? key with
  | some _ => some (table.free key)
  | none => none

end Table

/-- Someone who waits for a lock. -/
structure Waiter where
  ticket : Nat
  key : String
  name : String
  /-- Whether a lock was freed since the last attempt. -/
  marked : Bool
  deriving DecidableEq, Inhabited

/-- A lock table with those who wait, in the order in which their waits began. -/
structure Service where
  table : Table
  waiters : List Waiter
  deriving Inhabited

namespace Service

def empty : Service := ⟨.empty, []⟩

/-- Tries to get a lock, and waits for it if it is held. -/
def acquire (s : Service) (ticket : Nat) (key name : String) : Option Lease × Service :=
  match s.table.grant? key name with
  | some (lease, table) => (some lease, { s with table })
  | none => (none, { s with waiters := s.waiters ++ [⟨ticket, key, name, false⟩] })

def cancel (s : Service) (ticket : Nat) : Service :=
  { s with waiters := s.waiters.filter (·.ticket ≠ ticket) }

/-- Tells all who wait that a lock was freed. -/
def markAll (s : Service) : Service :=
  { s with waiters := s.waiters.map fun w => { w with marked := true } }

def release (s : Service) (lease : Lease) : Except Error Unit × Service :=
  match s.table.release lease with
  | .ok table => (.ok (), markAll { s with table })
  | .error e => (.error e, s)

/-- Takes a lock from its holder; answers whether there was one. -/
def revoke (s : Service) (key : String) : Bool × Service :=
  match s.table.revoke key with
  | some table => (true, markAll { s with table })
  | none => (false, s)

/-- Lets a marked wait try once more. If the lock is held the wait begins anew, behind the
others. -/
def retry (s : Service) (ticket : Nat) : Option Lease × Service :=
  match s.waiters.find? fun w => w.ticket = ticket && w.marked with
  | none => (none, s)
  | some w => (s.cancel ticket).acquire ticket w.key w.name

def marked (s : Service) : List Nat := (s.waiters.filter Waiter.marked).map Waiter.ticket

/-- Shows the number of held locks. -/
def text (s : Service) : String :=
  "InProcessLockService \x7b held: " ++ toString s.table.holders.length ++ " \x7d"

end Service

end ChangeFeed.Lock
