import ChangeFeed.Sink.Message
import ChangeFeed.Change
import ChangeFeed.Error

/-!
# Logs

Everything that the outside world sees of a system, with the time at which it happened.
-/

namespace ChangeFeed.Engine

/-- Something that was seen. -/
inductive Entry where
  /-- A list query was sent. -/
  | listed (resource : Resource) (cursor : Cursor)
  /-- A record was asked for. -/
  | looked (resource : Resource) (id : String)
  /-- A recording sink was started. -/
  | started
  /-- A recording sink was stopped. -/
  | stopped
  /-- A recording sink accepted a message. -/
  | recorded (m : Message)
  /-- A destination answered a message of a direct sink. -/
  | wrote (m : Message) (ok : Bool)
  /-- A destination answered a batch. -/
  | wroteBatch (batch : List Message) (ok : Bool)
  /-- A destination answered a message of a refused batch. -/
  | wroteOne (m : Message) (ok : Bool)
  /-- A checkpoint was read. -/
  | loaded (key : String) (ok : Bool)
  /-- A checkpoint was written. -/
  | saved (key : String) (value : Bytes) (ok : Bool)
  /-- A lock service was asked for a lock. -/
  | asked (key session : String) (ttl : Duration)
  /-- A lease was given back to a lock service. -/
  | released (key : String) (ok : Bool)
  /-- A call of a client came to its end. -/
  | returned (call : Nat) (result : Except Error Unit)
  /-- A manager came to its end. -/
  | retired (manager : Nat) (result : Except Error Unit)
  deriving Inhabited

/-- An entry with its time. -/
structure Logged where
  time : Nat
  entry : Entry
  deriving Inhabited

end ChangeFeed.Engine
