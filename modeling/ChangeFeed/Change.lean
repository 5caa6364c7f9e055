import ChangeFeed.Json.Value
import ChangeFeed.Resource
import ChangeFeed.Duration

/-!
# Changes

One entry of a list answer, reduced to what detecting a change needs: the record's id and the index
of its last modification. The entry itself is kept as it came.
-/

namespace ChangeFeed

/-- A listed record. -/
structure Change where
  id : String
  index : Nat
  stub : Json
  deriving Inhabited

/-- Reads a list entry. An entry without a text `ID` and a natural `ModifyIndex` is no change. -/
def Change.ofStub? (stub : Json) : Option Change := do
  let id ← (← stub.field? "ID").string?
  let index ← (← stub.field? "ModifyIndex").natural?
  pure ⟨id, index, stub⟩

/-- What a blocking list query waits for. -/
structure Cursor where
  /-- The answer comes once the index of the server exceeds this one, or the wait ends. -/
  waitIndex : Nat
  waitTime : Duration
  /-- Whether any server may answer. -/
  allowStale : Bool
  deriving DecidableEq, Inhabited

/-- The answer to a list query. -/
structure Page where
  changes : List Change
  /-- The index of the server for this query. -/
  lastIndex : Nat
  deriving Inhabited

end ChangeFeed
