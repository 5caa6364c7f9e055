import ChangeFeed.Sink.LineWriter

/-!
# Devices that take lines

What one step of a call that writes a line does to the device.

* `Device.IsWilling` is a device that takes pieces of any size but does not fail, and
  `LineStage.advance?_of_isActive` one step over it: what is taken away from the rest is written.
* `LineStage.outcome` is what a call comes to if it goes on undisturbed; `exists_advance?` says that
  every step leaves it, over all devices, and `outcome_ofPayload` that it is `Device.writeLine`.
-/

namespace ChangeFeed.Sink

/-! ## Devices -/

namespace Device

variable {d : Device} {bytes rest : Bytes}

/-- Whether a device never fails, though it may take short pieces. -/
structure IsWilling (d : Device) : Prop where
  room : d.room = none
  flushes : d.flushFails = false
  piece : d.piece ≠ some 0

theorem take_of_isWilling (h : d.IsWilling) (hne : bytes ≠ []) : ∃ rest d',
    d.take bytes = (.ok rest, d') ∧ d'.IsWilling ∧ rest <:+ bytes ∧
      d'.written ++ rest = d.written ++ bytes := by
  obtain ⟨piece, room, flushFails, pieces⟩ := d
  obtain ⟨hroom, hflushes, hpiece⟩ := h
  simp only at hroom hflushes hpiece
  subst hroom hflushes
  have hlength : 0 < bytes.length := List.length_pos_iff.mpr hne
  have hcount : min bytes.length (min (piece.getD bytes.length) bytes.length) ≠ 0 := by
    cases piece with
    | none => simp only [Option.getD_none]; omega
    | some limit =>
      have hlimit : limit ≠ 0 := fun heq => hpiece (congrArg some heq)
      simp only [Option.getD_some]
      omega
  refine ⟨_, _, by simp only [take, reduceCtorEq, if_false, Option.getD_none, hcount]; rfl,
    ⟨rfl, rfl, hpiece⟩, List.drop_suffix _ _, ?_⟩
  simp [written]

theorem length_lt_of_take {d' : Device} (h : d.take bytes = (.ok rest, d')) :
    rest.length < bytes.length := by
  unfold take at h
  split at h
  · cases h
  · simp only at h
    split at h
    · cases h
    · cases h
      simp only [List.length_drop]
      omega

/-- More fuel than bytes changes nothing. -/
theorem takeAll_of_le {fuel : Nat} (h : bytes.length ≤ fuel) :
    d.takeAll fuel bytes = d.takeAll bytes.length bytes := by
  induction fuel using Nat.strongRecOn generalizing d bytes with
  | _ fuel ih =>
    cases bytes with
    | nil => cases fuel <;> rfl
    | cons b more =>
      cases fuel with
      | zero => cases h
      | succ fuel =>
        simp only [List.length_cons, takeAll]
        split
        · rename_i rest d' htake
          have hlt := length_lt_of_take htake
          simp only [List.length_cons] at h hlt
          rw [ih fuel (by omega) (by omega), ih more.length (by omega) (by omega)]
        · rfl

theorem takeAll_of_ne_nil (h : bytes ≠ []) : d.takeAll bytes.length bytes =
    match d.take bytes with
    | (.ok rest, d') => d'.takeAll rest.length rest
    | (.error e, d') => (.error e, d') := by
  obtain ⟨b, more, rfl⟩ := List.exists_cons_of_ne_nil h
  simp only [List.length_cons, takeAll]
  rcases htake : d.take (b :: more) with ⟨e | rest, d'⟩
  · rfl
  · have hlt := length_lt_of_take htake
    simp only [List.length_cons] at hlt
    have hle : rest.length ≤ more.length := by omega
    exact takeAll_of_le hle

end Device

/-! ## Stages -/

namespace LineStage

variable {d d' : Device} {stage stage' : LineStage} {left : Bytes}

/-- What a call that has the lock still has to write. -/
def rest : LineStage → Bytes
  | .payload left => left ++ [0x0a]
  | .lineFeed left => left
  | _ => []

/-- Whether a call is writing. -/
def IsActive : LineStage → Prop
  | .payload left => left ≠ []
  | .lineFeed left => left ≠ []
  | .flushing => True
  | _ => False

/-- The number of steps that a call may still take. -/
def steps : LineStage → Nat
  | .waiting => 0
  | .payload left => left.length + 2
  | .lineFeed left => left.length + 1
  | .flushing => 1
  | .ended _ => 0

theorem rest_ofPayload (left : Bytes) : (ofPayload left).rest = left ++ [0x0a] := by
  cases left <;> rfl

theorem rest_ofLineFeed (left : Bytes) : (ofLineFeed left).rest = left := by
  cases left <;> rfl

theorem isEnded_of_isActive (h : stage.IsActive) : stage.isEnded = false := by
  cases stage with
  | ended r => exact absurd h id
  | _ => rfl

theorem ne_waiting_of_isActive (h : stage.IsActive) : stage ≠ .waiting := by
  rintro rfl
  exact h

theorem isActive_ofPayload (left : Bytes) : (ofPayload left).IsActive := by
  cases left <;> simp [ofPayload, IsActive]

theorem isActive_ofLineFeed (left : Bytes) : (ofLineFeed left).IsActive := by
  cases left <;> simp [ofLineFeed, IsActive]

theorem steps_ofPayload_le (left : Bytes) : (ofPayload left).steps ≤ left.length + 2 := by
  cases left <;> simp [ofPayload, steps]

theorem steps_ofLineFeed_le (left : Bytes) : (ofLineFeed left).steps ≤ left.length + 1 := by
  cases left <;> simp [ofLineFeed, steps]

theorem steps_advance? (h : stage.advance? d = some (stage', d')) :
    stage'.steps < stage.steps := by
  cases stage with
  | waiting => cases h
  | ended r => cases h
  | flushing =>
    cases h
    exact Nat.zero_lt_one
  | payload left =>
    simp only [advance?] at h
    split at h
    · rename_i rest _ htake
      cases h
      have hlt := Device.length_lt_of_take htake
      have hle := steps_ofPayload_le rest
      show (ofPayload rest).steps < left.length + 2
      omega
    · cases h
      exact Nat.succ_pos _
  | lineFeed left =>
    simp only [advance?] at h
    split at h
    · rename_i rest _ htake
      cases h
      have hlt := Device.length_lt_of_take htake
      have hle := steps_ofLineFeed_le rest
      show (ofLineFeed rest).steps < left.length + 1
      omega
    · cases h
      exact Nat.succ_pos _

/-- A step over a willing device writes what it takes away from the rest. -/
theorem advance?_of_isActive (hd : d.IsWilling) (h : stage.IsActive) : ∃ stage' d',
    stage.advance? d = some (stage', d') ∧ d'.IsWilling ∧ stage'.rest <:+ stage.rest ∧
      d'.written ++ stage'.rest = d.written ++ stage.rest ∧
      (stage'.IsActive ∨ stage' = .ended (.ok ())) := by
  cases stage with
  | waiting => exact absurd h id
  | ended r => exact absurd h id
  | flushing => exact ⟨_, _, rfl, hd, List.suffix_rfl, rfl, Or.inr (by rw [hd.flushes]; rfl)⟩
  | payload left =>
    obtain ⟨rest, d', htake, hd', ⟨taken, rfl⟩, hwritten⟩ := Device.take_of_isWilling hd h
    refine ⟨_, _, by simp only [advance?, htake], hd', ?_, ?_, Or.inl (isActive_ofPayload rest)⟩
    · rw [rest_ofPayload]
      exact ⟨taken, (List.append_assoc _ _ _).symm⟩
    · rw [rest_ofPayload, ← List.append_assoc, hwritten, List.append_assoc]
      rfl
  | lineFeed left =>
    obtain ⟨rest, d', htake, hd', hsuffix, hwritten⟩ := Device.take_of_isWilling hd h
    refine ⟨_, _, by simp only [advance?, htake], hd', ?_, ?_, Or.inl (isActive_ofLineFeed rest)⟩
    · rw [rest_ofLineFeed]
      exact hsuffix
    · rw [rest_ofLineFeed, hwritten]
      rfl

/-! ### Undisturbed calls -/

/-- What a call in a stage comes to, if the device does not change by itself. -/
def outcome (d : Device) : LineStage → Except LineFault Unit × Device
  | .payload left =>
    match d.takeAll left.length left with
    | (.error e, d) => (.error e, d)
    | (.ok (), d) => lineFeedOutcome d [0x0a]
  | .lineFeed left => lineFeedOutcome d left
  | .flushing => (if d.flushFails then .error .flush else .ok (), d)
  | .ended result => (result, d)
  | .waiting => (.ok (), d)
where
  lineFeedOutcome (d : Device) (left : Bytes) : Except LineFault Unit × Device :=
    match d.takeAll left.length left with
    | (.error e, d) => (.error e, d)
    | (.ok (), d) => (if d.flushFails then .error .flush else .ok (), d)

theorem outcome_ofPayload (d : Device) (payload : Bytes) :
    outcome d (ofPayload payload) = d.writeLine payload := by
  cases payload <;> rfl

theorem outcome_ofLineFeed (d : Device) (left : Bytes) :
    outcome d (ofLineFeed left) = outcome.lineFeedOutcome d left := by
  cases left <;> rfl

theorem outcome_payload (h : left ≠ []) : outcome d (.payload left) =
    match d.take left with
    | (.ok rest, d') => outcome d' (.ofPayload rest)
    | (.error e, d') => (.error e, d') := by
  rw [outcome, Device.takeAll_of_ne_nil h]
  rcases d.take left with ⟨e | rest, d'⟩
  · rfl
  · simp only [outcome_ofPayload]
    rfl

theorem outcome_lineFeed (h : left ≠ []) : outcome d (.lineFeed left) =
    match d.take left with
    | (.ok rest, d') => outcome d' (.ofLineFeed rest)
    | (.error e, d') => (.error e, d') := by
  rw [outcome, outcome.lineFeedOutcome, Device.takeAll_of_ne_nil h]
  rcases d.take left with ⟨e | rest, d'⟩
  · rfl
  · simp only [outcome_ofLineFeed]
    rfl

/-- An active call has a step, which leaves what it comes to. -/
theorem exists_advance? (d : Device) (h : stage.IsActive) : ∃ stage' d',
    stage.advance? d = some (stage', d') ∧ outcome d' stage' = outcome d stage ∧
      (stage'.IsActive ∨ ∃ result, stage' = .ended result) := by
  cases stage with
  | waiting => exact absurd h id
  | ended r => exact absurd h id
  | flushing => exact ⟨_, _, rfl, rfl, Or.inr ⟨_, rfl⟩⟩
  | payload left =>
    rw [outcome_payload h, advance?]
    rcases d.take left with ⟨e | rest, d'⟩
    · exact ⟨_, _, rfl, rfl, Or.inr ⟨_, rfl⟩⟩
    · exact ⟨_, _, rfl, rfl, Or.inl (isActive_ofPayload rest)⟩
  | lineFeed left =>
    rw [outcome_lineFeed h, advance?]
    rcases d.take left with ⟨e | rest, d'⟩
    · exact ⟨_, _, rfl, rfl, Or.inr ⟨_, rfl⟩⟩
    · exact ⟨_, _, rfl, rfl, Or.inl (isActive_ofLineFeed rest)⟩

end LineStage

end ChangeFeed.Sink
