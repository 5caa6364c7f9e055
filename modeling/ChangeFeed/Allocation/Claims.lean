import ChangeFeed.Allocation.Update

/-!
# Claims on task events

Whoever publishes the events of an allocation claims them first, so that two who do so at one time
never publish one event twice. `Claims` knows for each allocation the newest claimed time; an
allocation it does not know begins at the floor, which is what was published before the claims
began. An allocation that never changes again is forgotten.
-/

namespace ChangeFeed.Allocation

/-- The newest claimed times. -/
structure Claims where
  floor : Option Int
  newest : List (String × Int)
  deriving DecidableEq, Inhabited

namespace Claims

/-- Claims that begin after the given time; a time that is not positive says nothing. -/
def startingAt (time : Int) : Claims := ⟨if 0 < time then some time else none, []⟩

/-- The time past which the events of an allocation are unclaimed. -/
def cutoff (c : Claims) (id : String) : Option Int :=
  match c.newest.lookup id with
  | some time => some time
  | none => c.floor

def forget (c : Claims) (id : String) : Claims :=
  { c with newest := c.newest.filter (·.1 ≠ id) }

/-- Notes the newest claimed time of an allocation. -/
def note (c : Claims) (id : String) (time : Int) : Claims :=
  { c with newest := (id, time) :: (c.forget id).newest }

/-- Claims the events of a record. -/
def claim (c : Claims) (id : String) (record : Json) : Except Error Decomposition × Claims :=
  match decompose record (c.cutoff id) with
  | .error e => (.error e, c)
  | .ok d =>
    if d.terminal then (.ok d, c.forget id)
    else
      match d.newest with
      | some time => (.ok d, c.note id time)
      | none => (.ok d, c)

end Claims

end ChangeFeed.Allocation
