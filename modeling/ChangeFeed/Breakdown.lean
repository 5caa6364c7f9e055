/-!
# Breakdowns

What ends a run at once, because no error covers it. Whatever else stops a step is an error, and the
steps of a run follow each other as long as none of them fails.
-/

namespace ChangeFeed

/-- Why a run broke down. -/
inductive Breakdown where
  /-- An index counts from the end of a list to a place before its start. -/
  | beforeStart
  /-- A list is to be longer than memory can be. -/
  | tooLong
  /-- A channel is to have no places. -/
  | noPlaces
  /-- A queue is to have more places than can be counted. -/
  | tooManyPlaces
  /-- A text is to be cut inside of a character. -/
  | insideCharacter
  /-- The sum of two durations is too long for one. -/
  | longSum
  /-- The multiple of a duration is too long for one. -/
  | longMultiple
  /-- A timer is to tick without a pause. -/
  | noPeriod
  deriving DecidableEq, Inhabited

/-- The greatest number of places of a queue. -/
def greatestPlaces : Nat := Nat.pow 2 61 - 1

/-- The greatest number of items that room can be made for at once. -/
def greatestRoom : Nat := Nat.pow 2 57

def Breakdown.message : Breakdown → String
  | .beforeStart => "attempt to subtract with overflow"
  | .tooLong => "capacity overflow"
  | .noPlaces => "mpsc bounded channel requires buffer > 0"
  | .tooManyPlaces =>
    "a semaphore may not have more than MAX_PERMITS permits (" ++
      toString greatestPlaces ++ ")"
  | .insideCharacter => "a cut is not at a char boundary"
  | .longSum => "overflow when adding durations"
  | .longMultiple => "overflow when multiplying duration by scalar"
  | .noPeriod => "`period` must be non-zero."

/-- Two steps in a row succeed if the first does, and the second with what the first gave. -/
theorem bind_eq_ok_iff {ε α β : Type} {x : Except ε α} {f : α → Except ε β} {b : β} :
    (x >>= f) = .ok b ↔ ∃ a, x = .ok a ∧ f a = .ok b := by
  cases x <;> simp [bind, Except.bind]

/-- Two steps in a row fail if the first does, or if it succeeds and the second fails. -/
theorem bind_eq_error_iff {ε α β : Type} {x : Except ε α} {f : α → Except ε β} {e : ε} :
    (x >>= f) = .error e ↔ x = .error e ∨ ∃ a, x = .ok a ∧ f a = .error e := by
  cases x <;> simp [bind, Except.bind]

end ChangeFeed
