import ChangeFeed.Proofs.Engine.EventTimes
import ChangeFeed.Proofs.Engine.Graces

/-!
# Reading the checkpoints of a role

A manager that has a lease reads the watermark of its role, and the event time after it if the role
has one. Both reads belong to one attempt. The store may answer the first one and not the second;
then the attempt fails, and what was read is dropped.

* `decides?` is what an attempt comes to with its next read, and `readings` are the attempts of a run
  that are decided.
* `next_of_restoring` and `next_of_backingOff` are the steps of a manager before it has read its
  checkpoints.
-/

namespace ChangeFeed.Engine

/-- An attempt of a manager to read its checkpoints, at the time at which it is decided. -/
structure Reading where
  manager : Nat
  role : Role
  time : Nat
  /-- Whether all checkpoints were read. -/
  ok : Bool
  deriving DecidableEq, Inhabited

namespace World

variable {w w' : World} {e : Event} {now i : Nat} {m : Manager} {held : Held} {delay due : Nat}
  {watermark? : Option Nat}

/-! ## Attempts -/

/-- Whether an attempt is successful, if the next read decides it. An attempt that has the watermark is
not decided as long as an event time is to be read. -/
def decides? (w : World) (m : Manager) : Option Nat → Option Bool
  | none =>
    if (w.store.restore m.checkpointKey).isOk then
      if m.role.tracksEventTime then none else some true
    else some false
  | some _ => some (m.eventTimeKey?.all fun key => (w.store.restore key).isOk)

/-- The attempt of a manager to read its checkpoints that an event decides. -/
def readingAt? (w : World) : Event → Option Reading
  | .step now (.manager i) =>
    match w.managers[i]? with
    | none => none
    | some m =>
      match m.phase, m.isShutdown with
      | .restoring _ _ watermark?, false =>
        (w.decides? m watermark?).map fun ok => ⟨i, m.role, now, ok⟩
      | _, _ => none
  | _ => none

/-- The attempts of all managers that some events decide, in order. -/
def readings (w : World) : List Event → List Reading
  | [] => []
  | e :: events => (w.readingAt? e).toList ++ (w.next e).readings events

/-- The times at which attempts of a manager fail during some events. -/
def failedReads (w : World) (i : Nat) (events : List Event) : List Nat :=
  ((w.readings events).filter fun r => r.manager = i && !r.ok).map Reading.time

theorem readings_append (w : World) (events more : List Event) :
    w.readings (events ++ more) = w.readings events ++ (w.after events).readings more := by
  induction events generalizing w with
  | nil => rfl
  | cons e rest ih => simp only [List.cons_append, readings, ih, after_cons, List.append_assoc]

theorem failedReads_cons (w : World) (i : Nat) (e : Event) (events : List Event) :
    w.failedReads i (e :: events) = w.failedReads i [e] ++ (w.next e).failedReads i events := by
  simp [failedReads, readings]

theorem readingAt?_cases {r : Reading} (h : w.readingAt? e = some r) :
    ∃ m held delay watermark?, e = .step r.time (.manager r.manager) ∧
      w.managers[r.manager]? = some m ∧ m.phase = .restoring held delay watermark? ∧
      m.isShutdown = false ∧ r.role = m.role ∧ w.decides? m watermark? = some r.ok := by
  unfold readingAt? at h
  split at h
  · split at h
    · cases h
    · rename_i m hm
      split at h
      · rename_i held delay watermark? hph hs
        obtain ⟨ok, hd, rfl⟩ := Option.map_eq_some_iff.mp h
        exact ⟨m, held, delay, watermark?, rfl, hm, hph, hs, rfl, hd⟩
      · cases h
  · cases h

theorem readingAt?_of_restoring (now : Nat) (hm : w.managers[i]? = some m)
    (hph : m.phase = .restoring held delay watermark?) :
    w.readingAt? (.step now (.manager i)) =
      if m.isShutdown then none
      else (w.decides? m watermark?).map fun ok => ⟨i, m.role, now, ok⟩ := by
  cases hs : m.isShutdown <;> simp [readingAt?, hm, hph, hs]

/-! ## Steps before a read -/

theorem managers_set_self (hm : w.managers[i]? = some m) (m' : Manager) :
    (w.managers.setIfInBounds i m')[i]? = some m' :=
  Array.getElem?_setIfInBounds_self_of_lt (Array.getElem?_eq_some_iff.mp hm).1

/-- Where a manager goes on that is about to read a checkpoint, and the metrics after that. -/
inductive ReadStep (w : World) (now : Nat) (m : Manager) (held : Held) (delay : Nat)
    (watermark? : Option Nat) : Manager.Phase → Metrics → Prop where
  | quits (hs : m.isShutdown = true) :
      ReadStep w now m held delay watermark? (.releasing held .shutdown)
        (w.markLeader m true).metrics
  /-- The watermark is read, and the event time is still to be read. -/
  | goesOn (watermark : Nat) (hs : m.isShutdown = false) (hw : watermark? = none)
      (hr : w.store.restore m.checkpointKey = .ok watermark)
      (hd : w.decides? m watermark? = none) :
      ReadStep w now m held delay watermark? (.restoring held delay (some watermark))
        (w.markLeader m true).metrics
  | succeeds (watermark : Nat) (time : Int) (hs : m.isShutdown = false)
      (hd : w.decides? m watermark? = some true) :
      ReadStep w now m held delay watermark? (.starting held watermark time)
        (w.markLeader m true).metrics
  | fails (hs : m.isShutdown = false) (hd : w.decides? m watermark? = some false) :
      ReadStep w now m held delay watermark? (.backingOff held delay (now + delay))
        ((w.markLeader m true).metrics.add .readFailures m.role.name 1)

/-- What reading the next checkpoint comes to, for a manager that is not shut down. -/
theorem restoreNext_cases (now : Nat) (held : Held) (delay : Nat) (watermark? : Option Nat)
    (hs : m.isShutdown = false) :
    ∃ phase metrics log, ReadStep w now m held delay watermark? phase metrics ∧
      (w.markLeader m true).restoreNext now m held delay watermark? =
        (phase, { w with metrics, log }) := by
  cases watermark? with
  | none =>
    obtain ⟨log, hload⟩ := load_spec (w.markLeader m true) now m.checkpointKey
    cases hr : w.store.restore m.checkpointKey with
    | error e =>
      have hread : (w.markLeader m true).store.restore m.checkpointKey = .error e := hr
      rw [hread] at hload
      exact ⟨_, _, log, .fails hs (by simp [decides?, hr, Except.isOk, Except.toBool]),
        by simp only [restoreNext, hload]; rfl⟩
    | ok watermark =>
      have hread : (w.markLeader m true).store.restore m.checkpointKey = .ok watermark := hr
      rw [hread] at hload
      cases ht : m.role.tracksEventTime with
      | true =>
        exact ⟨_, _, log,
          .goesOn watermark hs rfl hr (by simp [decides?, hr, ht, Except.isOk, Except.toBool]),
          by simp only [restoreNext, hload, ht]; rfl⟩
      | false =>
        exact ⟨_, _, log,
          .succeeds watermark 0 hs (by simp [decides?, hr, ht, Except.isOk, Except.toBool]),
          by simp only [restoreNext, hload, ht]; rfl⟩
  | some watermark =>
    rcases hr : (w.markLeader m true).loadTime now m with ⟨e | time, w₁⟩
    · obtain ⟨⟨log, rfl⟩, hok, -⟩ := loadTime_spec hr
      exact ⟨_, _, log, .fails hs (congrArg some hok.symm), by simp only [restoreNext, hr]; rfl⟩
    · obtain ⟨⟨log, rfl⟩, hok, -⟩ := loadTime_spec hr
      exact ⟨_, _, log, .succeeds watermark time hs (congrArg some hok.symm),
        by simp only [restoreNext, hr]; rfl⟩

theorem next_of_restoring (now : Nat) (hm : w.managers[i]? = some m)
    (hph : m.phase = .restoring held delay watermark?) :
    ∃ phase metrics log, ReadStep w now m held delay watermark? phase metrics ∧
      w.next (.step now (.manager i)) = { w.setManager i { m with phase } with metrics, log } := by
  simp only [World.next, step?, stepManager?, hm, hph, Option.bind_eq_bind, Option.bind_some,
    Option.pure_def]
  by_cases hs : m.isShutdown = true
  · simp only [if_pos hs]
    exact ⟨_, _, w.log, .quits hs, rfl⟩
  · obtain ⟨phase, metrics, log, hstep, heq⟩ :=
      restoreNext_cases (w := w) now held delay watermark? (Bool.eq_false_iff.mpr hs)
    refine ⟨phase, metrics, log, hstep, ?_⟩
    simp only [if_neg hs, heq, Option.getD_some]
    cases hstep <;> rfl

/-- The step of a manager that waits after a failed read. -/
inductive WaitStep (w : World) (now i : Nat) (m : Manager) (held : Held) (delay due : Nat) :
    World → Prop where
  | quits (hs : m.isShutdown = true) :
      WaitStep w now i m held delay due (w.setManager i { m with phase := .releasing held .shutdown })
  | loses (hs : m.isShutdown = false) (hl : w.isLost held = true) :
      WaitStep w now i m held delay due (w.setManager i { m with phase := .releasing held .lockLost })
  | hears (locks : Locks) (hs : m.isShutdown = false) (hl : w.isLost held = false)
      (hn : w.readNotice? held = some { w with locks }) :
      WaitStep w now i m held delay due { w with locks }
  | waits (hs : m.isShutdown = false) (hl : w.isLost held = false) (hn : w.readNotice? held = none)
      (ht : now < due) : WaitStep w now i m held delay due w
  | retries (hs : m.isShutdown = false) (hl : w.isLost held = false)
      (hn : w.readNotice? held = none) (ht : due ≤ now) :
      WaitStep w now i m held delay due (w.setManager i { m with
        phase := .restoring held (min (2 * delay) m.settings.coordination.restoreRetryMax.millis)
          none })

theorem next_of_backingOff (now : Nat) (hm : w.managers[i]? = some m)
    (hph : m.phase = .backingOff held delay due) :
    WaitStep w now i m held delay due (w.next (.step now (.manager i))) := by
  simp only [World.next, step?, stepManager?, hm, hph, Option.bind_eq_bind, Option.bind_some,
    Option.pure_def]
  cases hs : m.isShutdown with
  | true => exact .quits hs
  | false =>
    cases hl : w.isLost held with
    | true => exact .loses hs hl
    | false =>
      cases hn : w.readNotice? held with
      | some w₁ =>
        obtain ⟨locks, rfl, -⟩ := readNotice?_spec hn
        exact .hears locks hs hl hn
      | none =>
        by_cases ht : now < due
        · simp only [if_pos ht]
          exact .waits hs hl hn ht
        · simp only [if_neg ht]
          exact .retries hs hl hn (Nat.not_lt.mp ht)

end World

end ChangeFeed.Engine
