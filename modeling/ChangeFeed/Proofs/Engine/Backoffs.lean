import ChangeFeed.Proofs.Engine.Readings
import ChangeFeed.Proofs.Engine.Tenures

/-!
# Pauses between attempts

A manager that has a lease reads the checkpoints of its role until the store answers for all of them.
Between two attempts it waits, twice as long each time, up to a bound. A notice that comes while it
waits is read, and the wait goes on to the same time.

* `starts` and `failedReads` are the times at which the attempts of a manager begin and fail in a
  run. `Spaced` is the distance between them, and `isOnTime` says that the clock passes the end of no
  wait.
* `Phase.Awaits` is where such a manager is, by these times. `Awaiting.next` is an event and
  `Awaiting.after` a run in which no attempt is successful.
-/

namespace ChangeFeed

/-! ## Pauses -/

namespace Settings.Coordination

/-- The pause after a failed read that follows a number of others: it doubles up to a bound. -/
def pause (s : Coordination) (n : Nat) : Nat :=
  min (s.restoreRetryMs * Nat.pow 2 n) s.restoreRetryMaxMs

variable {s : Coordination}

theorem restoreRetry_le_max (h : s.check = .ok ()) : s.restoreRetryMs ≤ s.restoreRetryMaxMs := by
  simp only [check, bind, Except.bind] at h
  split at h
  · cases h
  · split at h
    · cases h
    · split at h
      · cases h
      · rename_i hretry
        exact (of_decide_eq_true (require_eq_ok.mp hretry)).2

theorem restoreRetry_millis (s : Coordination) : s.restoreRetry.millis = s.restoreRetryMs := by
  simp [restoreRetry, Duration.ofMillis, Duration.millis]

theorem restoreRetryMax_millis (s : Coordination) :
    s.restoreRetryMax.millis = s.restoreRetryMaxMs := by
  simp [restoreRetryMax, Duration.ofMillis, Duration.millis]

theorem pause_zero (h : s.check = .ok ()) : s.pause 0 = s.restoreRetry.millis := by
  rw [restoreRetry_millis]
  simp [pause, restoreRetry_le_max h]

theorem pause_succ (s : Coordination) (n : Nat) :
    s.pause (n + 1) = min (2 * s.pause n) s.restoreRetryMax.millis := by
  rw [restoreRetryMax_millis]
  have hpow : s.restoreRetryMs * Nat.pow 2 (n + 1) = 2 * (s.restoreRetryMs * Nat.pow 2 n) := by
    simp only [Nat.pow_eq, Nat.pow_succ]
    rw [← Nat.mul_assoc, Nat.mul_comm]
  simp only [pause, hpow]
  omega

/-- Whether attempts begin no earlier than the pause demands that follows the failure before. If the
clock is `sharp`, they begin at that time. -/
def Spaced (s : Coordination) (sharp : Prop) (starts failures : List Nat) : Prop :=
  ∀ n t t', failures[n]? = some t → starts[n + 1]? = some t' →
    t + s.pause n ≤ t' ∧ (sharp → t' = t + s.pause n)

variable {sharp : Prop} {starts failures : List Nat}

theorem Spaced.nil (s : Coordination) (sharp : Prop) (starts : List Nat) :
    s.Spaced sharp starts [] := by
  intro n t t' ht
  cases ht

/-- A failure after the last start. -/
theorem Spaced.fail (h : s.Spaced sharp starts failures)
    (hl : starts.length = failures.length + 1) (t : Nat) :
    s.Spaced sharp starts (failures ++ [t]) := by
  intro n t₁ t' ht ht'
  have hn : n + 1 < starts.length := (List.getElem?_eq_some_iff.mp ht').1
  rw [List.getElem?_append_left (by omega)] at ht
  exact h n t₁ t' ht ht'

/-- A start after the last failure. -/
theorem Spaced.start {t t' : Nat} (h : s.Spaced sharp starts (failures ++ [t]))
    (hl : starts.length = failures.length + 1) (hle : t + s.pause failures.length ≤ t')
    (hs : sharp → t' ≤ t + s.pause failures.length) :
    s.Spaced sharp (starts ++ [t']) (failures ++ [t]) := by
  intro n t₁ t₂ ht ht'
  by_cases hn : n + 1 < starts.length
  · rw [List.getElem?_append_left hn] at ht'
    exact h n t₁ t₂ ht ht'
  · have hlt : n < (failures ++ [t]).length := (List.getElem?_eq_some_iff.mp ht).1
    have hn' : n = failures.length := by
      simp only [List.length_append, List.length_singleton] at hlt
      omega
    subst hn'
    rw [List.getElem?_append_right (Nat.le_refl _)] at ht
    rw [List.getElem?_append_right (by omega)] at ht'
    simp only [Nat.sub_self, List.getElem?_cons_zero, Option.some.injEq] at ht
    simp only [hl, Nat.sub_self, List.getElem?_cons_zero, Option.some.injEq] at ht'
    subst ht ht'
    exact ⟨hle, fun h => Nat.le_antisymm (hs h) hle⟩

end Settings.Coordination

namespace Engine

/-! ## Phases -/

namespace Manager.Phase

/-- Whether a manager is about to read its checkpoints. -/
def isReading : Manager.Phase → Bool
  | .restoring _ _ _ => true
  | _ => false

/-- Where a manager is that has a lease and has not read its checkpoints, when attempts have begun
and failed at the given times. -/
inductive Awaits (s : Settings.Coordination) (held : Held) :
    Manager.Phase → List Nat → List Nat → Prop where
  | reads {starts failures : List Nat} (watermark? : Option Nat)
      (hl : starts.length = failures.length + 1) :
      Awaits s held (.restoring held (s.pause failures.length) watermark?) starts failures
  /-- The end of a wait depends on the last failure alone. -/
  | waits {starts earlier : List Nat} (t : Nat) (hl : starts.length = earlier.length + 1) :
      Awaits s held (.backingOff held (s.pause earlier.length) (t + s.pause earlier.length)) starts
        (earlier ++ [t])
  | leaves {starts failures : List Nat} (outcome : Outcome)
      (hl : failures.length ≤ starts.length ∧ starts.length ≤ failures.length + 1) :
      Awaits s held (.releasing held outcome) starts failures

variable {s : Settings.Coordination} {held : Held} {phase : Manager.Phase}
  {starts failures : List Nat}

theorem Awaits.term? (h : phase.Awaits s held starts failures) : phase.term? = none := by
  cases h <;> rfl

end Manager.Phase

namespace World

variable {w : World} {e : Event} {i : Nat} {m : Manager} {held : Held} {s : Settings.Coordination}
  {sharp : Prop}

/-! ## Starts -/

/-- What a manager does. -/
def phaseOf? (w : World) (i : Nat) : Option Manager.Phase := (w.managers[i]?).map (·.phase)

theorem phaseOf?_eq (hm : w.managers[i]? = some m) : w.phaseOf? i = some m.phase := by
  rw [phaseOf?, hm, Option.map_some]

def isReading (w : World) (i : Nat) : Bool := (w.phaseOf? i).any Manager.Phase.isReading

/-- The time of an event with which a manager begins an attempt to read its checkpoints. -/
def startAt? (w : World) (i : Nat) : Event → Option Nat
  | .step now (.manager j) =>
    if j = i ∧ w.isReading i = false ∧ (w.next (.step now (.manager j))).isReading i = true then
      some now
    else none
  | _ => none

/-- The times at which a manager begins attempts during some events. -/
def starts (w : World) (i : Nat) : List Event → List Nat
  | [] => []
  | e :: events => (w.startAt? i e).toList ++ (w.next e).starts i events

/-- The time until which a manager waits after a failed read. -/
def waitsUntil? (w : World) (i : Nat) : Option Nat :=
  match w.phaseOf? i with
  | some (.backingOff _ _ due) => some due
  | _ => none

/-- Whether the clock never passes the end of a wait of a manager: its timer is not late. -/
def isOnTime (w : World) (i : Nat) : List Event → Bool
  | [] => true
  | e :: events =>
    (e.time?.all fun now => (w.waitsUntil? i).all (now ≤ ·)) && (w.next e).isOnTime i events

theorem starts_cons (w : World) (i : Nat) (e : Event) (events : List Event) :
    w.starts i (e :: events) = w.starts i [e] ++ (w.next e).starts i events := by
  simp [starts]

theorem isReading_eq (hm : w.managers[i]? = some m) : w.isReading i = m.phase.isReading := by
  rw [isReading, phaseOf?_eq hm, Option.any_some]

theorem startAt?_of_ne (he : ∀ now, e ≠ .step now (.manager i)) : w.startAt? i e = none := by
  cases e with
  | act a => rfl
  | step now task =>
    cases task with
    | manager j =>
      have hj : j ≠ i := fun hj => he now (by rw [hj])
      simp [startAt?, hj]
    | _ => rfl

theorem startAt?_of_reading {now : Nat} (h : w.isReading i = true) :
    w.startAt? i (.step now (.manager i)) = none := by
  simp [startAt?, h]

theorem startAt?_of_not_reading {now : Nat}
    (h : (w.next (.step now (.manager i))).isReading i = false) :
    w.startAt? i (.step now (.manager i)) = none := by
  simp [startAt?, h]

theorem failedReads_of_none (h : ∀ r, w.readingAt? e = some r → r.manager ≠ i) :
    w.failedReads i [e] = [] := by
  simp only [failedReads, readings, List.append_nil, List.map_eq_nil_iff, List.filter_eq_nil_iff]
  intro r hr
  simp [h r (Option.mem_toList.mp hr)]

/-! ## One event -/

/-- Nothing but a step of a manager changes its phase. -/
theorem next_manager_of_ne (he : ∀ now, e ≠ .step now (.manager i))
    (hm : w.managers[i]? = some m) :
    ∃ m', (w.next e).managers[i]? = some m' ∧ m'.phase = m.phase ∧ m'.settings = m.settings := by
  obtain ⟨m', hm', -, hcases⟩ := next_manager_cases e hm
  obtain ⟨m₁, hm₁, -, hsettings⟩ := next_manager e hm
  rw [hm'] at hm₁
  cases hm₁
  rcases hcases with ⟨now, hnow, -⟩ | ⟨hph, -⟩
  · exact absurd hnow (he now)
  · exact ⟨m', hm', hph, hsettings⟩

/-- Whether a manager neither reads all its checkpoints during some events nor gives a lease back. -/
structure Fruitless (w : World) (i : Nat) (held : Held) (events : List Event) : Prop where
  fails : ∀ r ∈ w.readings events, r.manager = i → r.ok = false
  keeps : ⟨i, held, true⟩ ∉ w.leaseCalls events

theorem Fruitless.append {events more : List Event} (h : w.Fruitless i held (events ++ more)) :
    w.Fruitless i held events ∧ (w.after events).Fruitless i held more := by
  obtain ⟨hfails, hkeeps⟩ := h
  simp only [readings_append, List.mem_append] at hfails
  simp only [leaseCalls_append, List.mem_append, not_or] at hkeeps
  exact ⟨⟨fun r hr => hfails r (Or.inl hr), hkeeps.1⟩,
    ⟨fun r hr => hfails r (Or.inr hr), hkeeps.2⟩⟩

theorem Fruitless.cons {events : List Event} (h : w.Fruitless i held (e :: events)) :
    w.Fruitless i held [e] ∧ (w.next e).Fruitless i held events :=
  (show w.Fruitless i held ([e] ++ events) from h).append

theorem Fruitless.reading (h : w.Fruitless i held [e]) {r : Reading} (hr : w.readingAt? e = some r)
    (hi : r.manager = i) : r.ok = false :=
  h.fails r (by simp [readings, hr]) hi

theorem Fruitless.leaseCall (h : w.Fruitless i held [e]) :
    w.leaseCallAt? e ≠ some ⟨i, held, true⟩ := by
  intro hcall
  exact h.keeps (by simp [leaseCalls, hcall])

theorem startAt?_of_retry {now delay due next : Nat} (hm : w.managers[i]? = some m)
    (hph : m.phase = .backingOff held delay due)
    (hnext : w.next (.step now (.manager i)) =
      w.setManager i { m with phase := .restoring held next none }) :
    w.startAt? i (.step now (.manager i)) = some now := by
  have hbefore : w.isReading i = false := by
    rw [isReading_eq hm, hph]
    rfl
  have hafter : (w.next (.step now (.manager i))).isReading i = true := by
    rw [hnext, isReading_eq (managers_set_self hm _)]
    rfl
  simp [startAt?, hbefore, hafter]

/-- A manager has a lease and has not read its checkpoints; its attempts have begun and failed at the
given times. -/
structure Awaiting (w : World) (i : Nat) (held : Held) (s : Settings.Coordination) (sharp : Prop)
    (starts failures : List Nat) : Prop where
  manager : ∃ m, w.managers[i]? = some m ∧ m.settings.coordination = s ∧
    m.phase.Awaits s held starts failures
  spaced : s.Spaced sharp starts failures

variable {starts failures : List Nat}

/-- A manager that is about to read a checkpoint, and does not read the last one. -/
theorem Awaiting.next_of_reads (h : w.Awaiting i held s sharp starts failures) (now : Nat)
    {delay : Nat} {watermark? : Option Nat} (hm : w.managers[i]? = some m)
    (hph : m.phase = .restoring held delay watermark?)
    (hfail : m.isShutdown = true ∨ w.decides? m watermark? ≠ some true) :
    (w.next (.step now (.manager i))).Awaiting i held s sharp
      (starts ++ (w.startAt? i (.step now (.manager i))).toList)
      (failures ++ w.failedReads i [.step now (.manager i)]) := by
  obtain ⟨⟨m₁, hm₁, hs, hphase⟩, hspaced⟩ := h
  rw [hm] at hm₁
  cases hm₁
  rw [hph] at hphase
  cases hphase with
  | reads _ hl =>
    have hstart : w.startAt? i (.step now (.manager i)) = none :=
      startAt?_of_reading (by rw [isReading_eq hm, hph]; rfl)
    obtain ⟨phase, metrics, log, hread, hnext⟩ := next_of_restoring now hm hph
    have hreading := readingAt?_of_restoring now hm hph
    have here : (w.managers.setIfInBounds i { m with phase })[i]? = some { m with phase } :=
      managers_set_self hm _
    rw [hstart, hnext, Option.toList_none, List.append_nil]
    cases hread with
    | quits hq =>
      rw [failedReads_of_none (by simp [hreading, hq]), List.append_nil]
      exact ⟨⟨_, here, hs, .leaves .shutdown (by omega)⟩, hspaced⟩
    | goesOn watermark hq hw hr hd =>
      rw [failedReads_of_none (by simp [hreading, hq, hd]), List.append_nil]
      exact ⟨⟨_, here, hs, .reads (some watermark) hl⟩, hspaced⟩
    | succeeds watermark time hq hd => simp [hq, hd] at hfail
    | fails hq hd =>
      have hfailed : w.failedReads i [.step now (.manager i)] = [now] := by
        simp [failedReads, readings, hreading, hq, hd]
      rw [hfailed]
      exact ⟨⟨_, here, hs, .waits now hl⟩, hspaced.fail hl now⟩

/-- A manager that waits goes on to wait, whatever notices come, until the wait is over. -/
theorem Awaiting.next_of_waits (h : w.Awaiting i held s sharp starts failures) (now : Nat)
    {delay due : Nat} (hm : w.managers[i]? = some m) (hph : m.phase = .backingOff held delay due)
    (hsharp : sharp → w.isOnTime i [.step now (.manager i)] = true) :
    (w.next (.step now (.manager i))).Awaiting i held s sharp
      (starts ++ (w.startAt? i (.step now (.manager i))).toList)
      (failures ++ w.failedReads i [.step now (.manager i)]) := by
  obtain ⟨⟨m₁, hm₁, hs, hphase⟩, hspaced⟩ := h
  rw [hm] at hm₁
  cases hm₁
  have hphase' := hphase
  rw [hph] at hphase'
  cases hphase' with
  | @waits _ earlier t hl =>
    have here (phase : Manager.Phase) :
        (w.managers.setIfInBounds i { m with phase })[i]? = some { m with phase } :=
      managers_set_self hm _
    have hnone : w.failedReads i [.step now (.manager i)] = [] := by
      refine failedReads_of_none fun r hr => ?_
      simp [readingAt?, hm, hph] at hr
    have hwait := next_of_backingOff now hm hph
    have still {w' : World} (hnext : w.next (.step now (.manager i)) = w') (m' : Manager)
        (hm' : w'.managers[i]? = some m') (hr : m'.phase.isReading = false) :
        w.startAt? i (.step now (.manager i)) = none :=
      startAt?_of_not_reading (by rw [hnext, isReading_eq hm', hr])
    have hwaits : m.phase.isReading = false := by rw [hph]; rfl
    rw [hnone, List.append_nil]
    generalize hnext : w.next (.step now (.manager i)) = w' at hwait ⊢
    cases hwait with
    | quits hq =>
      rw [still hnext _ (here _) rfl, Option.toList_none, List.append_nil]
      exact ⟨⟨_, here _, hs, .leaves .shutdown (by simp [hl])⟩, hspaced⟩
    | loses hq hlost =>
      rw [still hnext _ (here _) rfl, Option.toList_none, List.append_nil]
      exact ⟨⟨_, here _, hs, .leaves .lockLost (by simp [hl])⟩, hspaced⟩
    | hears locks hq hlost hn =>
      rw [still hnext m hm hwaits, Option.toList_none, List.append_nil]
      exact ⟨⟨m, hm, hs, hphase⟩, hspaced⟩
    | waits hq hlost hn ht =>
      rw [still hnext m hm hwaits, Option.toList_none, List.append_nil]
      exact ⟨⟨m, hm, hs, hphase⟩, hspaced⟩
    | retries hq hlost hn ht =>
      have hstart : w.startAt? i (.step now (.manager i)) = some now :=
        startAt?_of_retry hm hph hnext
      have hpause : min (2 * s.pause earlier.length)
          m.settings.coordination.restoreRetryMax.millis = s.pause (earlier ++ [t]).length := by
        rw [hs, List.length_append, List.length_singleton, ← s.pause_succ]
      rw [hstart, Option.toList_some]
      refine ⟨⟨_, here _, hs, ?_⟩, hspaced.start hl ht fun hp => ?_⟩
      · rw [hpause]
        exact .reads none (by simp [hl])
      · have hclock := hsharp hp
        simpa [isOnTime, Event.time?, waitsUntil?, phaseOf?_eq hm, hph] using hclock

theorem Awaiting.next_of_ne (h : w.Awaiting i held s sharp starts failures)
    (he : ∀ now, e ≠ .step now (.manager i)) :
    (w.next e).Awaiting i held s sharp (starts ++ (w.startAt? i e).toList)
      (failures ++ w.failedReads i [e]) := by
  obtain ⟨⟨m, hm, hs, hphase⟩, hspaced⟩ := h
  obtain ⟨m', hm', hph', hsettings⟩ := next_manager_of_ne he hm
  have hnone : w.failedReads i [e] = [] := by
    refine failedReads_of_none fun r hr hi => ?_
    obtain ⟨m, held, delay, watermark?, hstep, -⟩ := readingAt?_cases hr
    exact he r.time (by rw [hstep, hi])
  rw [startAt?_of_ne he, hnone, Option.toList_none, List.append_nil, List.append_nil]
  exact ⟨⟨m', hm', by rw [hsettings, hs], hph' ▸ hphase⟩, hspaced⟩

/-- A manager that does not read its checkpoints with an event. -/
theorem Awaiting.next (h : w.Awaiting i held s sharp starts failures)
    (hf : w.Fruitless i held [e]) (hsharp : sharp → w.isOnTime i [e] = true) :
    (w.next e).Awaiting i held s sharp (starts ++ (w.startAt? i e).toList)
      (failures ++ w.failedReads i [e]) := by
  by_cases hown : ∃ now, e = .step now (.manager i)
  · obtain ⟨now, rfl⟩ := hown
    obtain ⟨m, hm, -, hphase⟩ := h.manager
    generalize hph : m.phase = phase at hphase
    cases hphase with
    | reads watermark? hl =>
      refine h.next_of_reads now hm hph ?_
      cases hq : m.isShutdown with
      | true => exact Or.inl rfl
      | false =>
        refine Or.inr fun hd => ?_
        have hreading : w.readingAt? (.step now (.manager i)) = some ⟨i, m.role, now, true⟩ := by
          simp [readingAt?_of_restoring now hm hph, hq, hd]
        cases hf.reading hreading rfl
    | waits t hl => exact h.next_of_waits now hm hph hsharp
    | leaves outcome hl => exact absurd (by simp [leaseCallAt?, hm, hph]) hf.leaseCall
  · exact h.next_of_ne fun now heq => hown ⟨now, heq⟩

theorem isOnTime_cons {events : List Event} (h : w.isOnTime i (e :: events) = true) :
    w.isOnTime i [e] = true ∧ (w.next e).isOnTime i events = true := by
  simp only [isOnTime, Bool.and_eq_true, Bool.and_true] at h ⊢
  exact h

/-- A manager that does not read its checkpoints in a run. -/
theorem Awaiting.after {events : List Event} (h : w.Awaiting i held s sharp starts failures)
    (hf : w.Fruitless i held events) (hsharp : sharp → w.isOnTime i events = true) :
    (w.after events).Awaiting i held s sharp (starts ++ w.starts i events)
      (failures ++ w.failedReads i events) := by
  induction events generalizing w starts failures with
  | nil => simpa [World.starts, failedReads, readings] using h
  | cons e rest ih =>
    obtain ⟨hone, hrest⟩ := hf.cons
    rw [failedReads_cons, World.starts, ← List.append_assoc, ← List.append_assoc]
    exact ih (h.next hone fun hp => (isOnTime_cons (hsharp hp)).1) hrest fun hp =>
      (isOnTime_cons (hsharp hp)).2

end World

end Engine

end ChangeFeed
