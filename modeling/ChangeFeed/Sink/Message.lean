import ChangeFeed.Text.Bytes

/-!
# Messages

What a sink publishes: a payload, and a key that says which record it is about.
`joinArray` makes one JSON array of payloads that are JSON texts. A destination of batches is called
with a batch, or with one of its messages alone.
-/

namespace ChangeFeed

/-- A message for a destination. -/
structure Message where
  key : Option String
  payload : Bytes
  deriving DecidableEq, Inhabited

namespace Message

/-- Byte strings one after the other, a comma between two. -/
def joinCommas : List Bytes → Bytes
  | [] => []
  | [p] => p
  | p :: q :: rest => p ++ 0x2c :: joinCommas (q :: rest)

/-- The payloads between brackets, a comma between two. -/
def joinArray (batch : List Message) : Bytes :=
  0x5b :: (joinCommas (batch.map Message.payload) ++ [0x5d])

end Message

/-- A call of a destination of batches. -/
inductive Sink.Call where
  | batch (messages : List Message)
  /-- A message of a batch that was refused. -/
  | one (m : Message)
  deriving DecidableEq, Inhabited

end ChangeFeed
