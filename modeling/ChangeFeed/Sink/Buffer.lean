import ChangeFeed.Error

/-!
# Batch buffers

Messages that wait until there are enough of them or the oldest has waited long enough. A buffer
knows when its oldest item came exactly while it holds one.
-/

namespace ChangeFeed.Sink

/-- Items that wait to be sent together. -/
structure Buffer (α : Type) where
  /-- The number of items that fill the buffer. -/
  limit : Nat
  /-- How long the oldest item waits. -/
  patience : Nat
  items : List α
  /-- When the oldest item came. -/
  oldest : Option Nat
  deriving Inhabited

namespace Buffer

variable {α : Type}

/-- An empty buffer; at least one item fills it. -/
def empty (limit patience : Nat) : Buffer α := ⟨max limit 1, patience, [], none⟩

/-- Room for all items of a full buffer is made in advance. -/
def checkRoom (limit : Nat) : Except Error Unit :=
  if limit ≤ greatestRoom then .ok () else .error (.broken .tooLong)

/-- The buffer after an item came at the given time. -/
def push (b : Buffer α) (now : Nat) (item : α) : Buffer α :=
  { b with items := b.items ++ [item], oldest := if b.items.isEmpty then some now else b.oldest }

@[simp] theorem items_push (b : Buffer α) (now : Nat) (item : α) :
    (b.push now item).items = b.items ++ [item] := rfl

/-- The number of items of a full buffer. -/
def full? (b : Buffer α) : Option Nat :=
  if b.limit ≤ b.items.length then some b.items.length else none

/-- When the items must be sent. -/
def deadline (b : Buffer α) : Option Nat := b.oldest.map (· + b.patience)

/-- The buffer after its items were taken. -/
def clear (b : Buffer α) : Buffer α := { b with items := [], oldest := none }

@[simp] theorem items_clear (b : Buffer α) : b.clear.items = [] := rfl

end Buffer

end ChangeFeed.Sink
