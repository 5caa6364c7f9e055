import ChangeFeed.Proofs.Engine.Discipline
import ChangeFeed.Proofs.Engine.EventTimes

/-!
# The event times of a single manager

A manager that has the checkpoint of its event times for itself loses none of them. What it writes is
the clock of its watcher, and the next term begins at what was written last.

* `OwnsTimes` is what is asked of a run: nobody else writes to the key.
* `store_after`: the store holds the text of the time that was written last.
* `TimesTrusted`: the manager goes by that time. `pairwise_times`: so what it writes goes up.
* `keeps_event_times` puts together what follows for every run.
-/

namespace ChangeFeed.Engine

open Allocation (IsTime Claims)

namespace World

variable {w : World} {e : Event} {i : Nat} {a : Attempt} {events more : List Event}
  {settings : ChangeFeed.Settings.Coordination} {role key : String}

/-! ## Runs with one writer -/

/-- A manager is the only one with a key for event times. -/
def SoleTime (w : World) (i : Nat) (key : String) : Prop :=
  ∀ (j : Nat) (m : Manager), w.managers[j]? = some m → (m.eventTimeKey? = some key ↔ j = i)

theorem SoleTime.of_next (h : (w.next e).SoleTime i key) : w.SoleTime i key := by
  intro j m hm
  obtain ⟨m', hm', hrole, hsettings⟩ := next_manager e hm
  have hkey : m'.eventTimeKey? = m.eventTimeKey? := by
    rw [Manager.eventTimeKey?, Manager.eventTimeKey?, hrole, hsettings]
  rw [← hkey]
  exact h j m' hm'

theorem SoleTime.of_after (h : (w.after events).SoleTime i key) : w.SoleTime i key := by
  induction events generalizing w with
  | nil => exact h
  | cons e rest ih => exact (ih h).of_next

/-- A run in which nobody but a manager writes to the key of its event times. -/
structure OwnsTimes (w : World) (i : Nat) (key : String) (events : List Event) : Prop where
  put : ∀ value, .act (.putValue key value) ∉ events
  sole : (w.after events).SoleTime i key

namespace OwnsTimes

theorem append_left (h : w.OwnsTimes i key (events ++ more)) : w.OwnsTimes i key events where
  put := fun value hmem => h.put value (List.mem_append_left _ hmem)
  sole := by
    have hsole := h.sole
    rw [after_append] at hsole
    exact hsole.of_after

theorem tail (h : w.OwnsTimes i key (e :: events)) : (w.next e).OwnsTimes i key events where
  put := fun value hmem => h.put value (List.mem_cons_of_mem _ hmem)
  sole := h.sole

theorem sole_start (h : w.OwnsTimes i key events) : w.SoleTime i key := h.sole.of_after

theorem put_head (h : w.OwnsTimes i key (e :: events)) (value : Bytes) :
    e ≠ .act (.putValue key value) :=
  fun he => h.put value (he ▸ List.mem_cons_self)

end OwnsTimes

theorem SoleTime.writer (h : w.SoleTime i key) (ha : w.wroteTime? e = some a)
    (hk : a.key = key) : a.manager = i := by
  obtain ⟨now, m, last, x, -, hm, -, hkey, -⟩ := wroteTime?_eq_some_iff.mp ha
  exact (h a.manager m hm).mp (hk ▸ hkey)

/-! ## The store -/

theorem attemptAt?_ok (h : w.attemptAt? e = some a) : a.ok = !w.store.writesFail := by
  obtain ⟨now, m, rfl, hm, ⟨last, hph⟩ | ⟨⟨last, hph⟩, -⟩⟩ := attemptAt?_cases h
  · rw [attemptAt?_of_saving hm hph] at h
    rw [← Option.some.inj h]
  · simp only [attemptAt?, hm, hph] at h
    split at h
    · split at h
      · cases h
      · rw [← Option.some.inj h]
    · cases h

/-- A watermark is never written to the key of an event time. -/
theorem attemptAt?_key (h : w.attemptAt? e = some a) (htime : a.isTime = false) :
    ∃ m : Manager, a.key = m.checkpointKey := by
  obtain ⟨now, m, rfl, hm, ⟨last, hph⟩ | ⟨-, htrue⟩⟩ := attemptAt?_cases h
  · rw [attemptAt?_of_saving hm hph] at h
    exact ⟨m, by rw [← Option.some.inj h]⟩
  · rw [htrue] at htime
    cases htime

/-- Nothing but a write of an event time changes what is under its key, unless someone outside
does. -/
theorem next_get? (hput : ∀ value, e ≠ .act (.putValue (settings.eventTimeKey role) value)) :
    (∃ a, w.wroteTime? e = some a ∧ a.key = settings.eventTimeKey role ∧
      (w.next e).store.store.get? (settings.eventTimeKey role) =
        some (Watermark.encode a.value)) ∨
      (∀ a, w.wroteTime? e = some a → a.key ≠ settings.eventTimeKey role) ∧
        (w.next e).store.store.get? (settings.eventTimeKey role) =
          w.store.store.get? (settings.eventTimeKey role) := by
  cases e with
  | act act =>
    refine Or.inr ⟨by simp [wroteTime?, attemptAt?], ?_⟩
    have hnext : w.next (.act act) = w.perform act := rfl
    rcases (perform_spec w act).store with hs | ⟨key, value, rfl, hs⟩
    · rw [hnext, hs]
    · have hne : settings.eventTimeKey role ≠ key := by
        rintro rfl
        exact hput value rfl
      rw [hnext, hs]
      exact Checkpoint.Store.get?_put_of_ne hne _ _
  | step now task =>
    cases ha : w.attemptAt? (.step now task) with
    | none => exact Or.inr ⟨by simp [wroteTime?, ha], by rw [next_store, ha]⟩
    | some a =>
      have hstore : (w.next (.step now task)).store = (w.store.persist a.key a.value).2 := by
        rw [next_store, ha]
      have hok := attemptAt?_ok ha
      cases hf : w.store.writesFail with
      | true =>
        rw [hf] at hok
        refine Or.inr ⟨by simp [wroteTime?, ha, hok, Option.filter], ?_⟩
        rw [hstore, Checkpoint.Flaky.persist_of_fails hf]
      | false =>
        rw [hf] at hok
        have hput := Checkpoint.Flaky.persist_of_succeeds hf a.key a.value
        rw [hstore, hput]
        by_cases hk : a.key = settings.eventTimeKey role
        · have htime : a.isTime = true := by
            by_contra hno
            obtain ⟨m, hm⟩ := attemptAt?_key ha (Bool.not_eq_true _ ▸ hno)
            exact Settings.Coordination.eventTimeKey_ne_checkpointKey (hk.symm.trans hm)
          refine Or.inl ⟨a, by simp [wroteTime?, ha, hok, htime, Option.filter], hk, ?_⟩
          rw [← hk]
          exact Checkpoint.Store.get?_put_self _ _ _
        · refine Or.inr ⟨fun b hb => ?_, Checkpoint.Store.get?_put_of_ne (Ne.symm hk) _ _⟩
          have hab : a = b := by
            have hsome := (Option.filter_eq_some_iff.mp hb).1
            rw [ha] at hsome
            exact Option.some.inj hsome
          exact hab ▸ hk

/-! ## What is written -/

/-- A time that is written is the clock of the watcher of the term, which has moved on. -/
theorem InTime.wrote (h : w.InTime) (ha : w.wroteTime? e = some a) :
    ∃ x, w.watchers[a.term.watcher]? = some x ∧ x.clock = a.value ∧
      a.term.persistedTime < a.value ∧ 0 < a.value ∧ a.value < Nat.pow 2 63 := by
  obtain ⟨now, m, last, x, -, hm, hph, -, hx, hlt, hvalue, -⟩ := wroteTime?_eq_some_iff.mp ha
  have hbefore : 0 ≤ a.term.persistedTime := (h.manager a.manager m _ hm (by rw [hph]; rfl)).1
  have hclock : x.clock = a.value := by
    rw [hvalue]
    omega
  obtain ⟨-, hword⟩ := h.clock _ x hx
  refine ⟨x, hx, hclock, ?_, ?_, ?_⟩ <;> omega

theorem timeOf_of_lt {v : Nat} (h : v < Nat.pow 2 63) : timeOf v = v := if_pos h

theorem restore_of_get? {store : Checkpoint.Store} {v : Nat}
    (h : store.get? key = some (Watermark.encode v)) (hv : v < Nat.pow 2 63) :
    store.restore key = v := by
  have hword : v < UInt64.size := Nat.lt_trans hv (by decide)
  simp [Checkpoint.Store.restore, h, Checkpoint.Store.watermarkOf, Watermark.decode_encode hword]

/-- Whoever has the key goes by the time under it. -/
def TimesTrusted (w : World) (key : String) : Prop :=
  ∀ (i : Nat) (m : Manager) (t : Int), w.managers[i]? = some m → m.eventTimeKey? = some key →
    m.phase.time? = some t → t = timeOf (w.store.store.restore key)

/-- A time that is written is later than the one in the store, which it becomes. -/
theorem TimesTrusted.write (h : w.TimesTrusted key) (ht : w.InTime)
    (ha : w.wroteTime? e = some a) (hk : a.key = key)
    (hs : (w.next e).store.store.get? key = some (Watermark.encode a.value)) :
    timeOf (w.store.store.restore key) < a.value ∧
      timeOf ((w.next e).store.store.restore key) = a.value := by
  obtain ⟨now, m, last, x, -, hm, hph, hkey, -⟩ := wroteTime?_eq_some_iff.mp ha
  obtain ⟨x, -, -, hlt, -, hword⟩ := ht.wrote ha
  have htrust := h a.manager m a.term.persistedTime hm (hk ▸ hkey) (by rw [hph]; rfl)
  rw [restore_of_get? hs hword, timeOf_of_lt hword, ← htrust]
  exact ⟨hlt, rfl⟩

theorem TimesTrusted.next (h : w.TimesTrusted (settings.eventTimeKey role)) (ht : w.InTime)
    (hsole : w.SoleTime i (settings.eventTimeKey role))
    (hput : ∀ value, e ≠ .act (.putValue (settings.eventTimeKey role) value)) :
    (w.next e).TimesTrusted (settings.eventTimeKey role) := by
  intro j m' t hm' hkey' htime
  obtain ⟨m, hm, hkey, hcases⟩ := next_time hm' htime
  have hmine : m.eventTimeKey? = some (settings.eventTimeKey role) := hkey ▸ hkey'
  have hj : j = i := (hsole j m hm).mp hmine
  rcases next_get? (w := w) hput with ⟨a, ha, hk, hs⟩ | ⟨hno, hs⟩
  · -- the only writer is this manager, which goes by what it has written
    have hwriter : a.manager = j := (hsole.writer ha hk).trans hj.symm
    rw [(h.write ht ha hk hs).2]
    rcases hcases with ⟨-, hnone⟩ | ⟨hnone, -⟩ | ⟨b, x, hb, -, hx, rfl⟩
    · exact absurd hwriter (hnone a ha)
    · rw [ha] at hnone
      cases hnone
    · rw [ha] at hb
      cases hb
      obtain ⟨y, hy, hclock, -⟩ := ht.wrote ha
      rw [hx] at hy
      cases hy
      exact hclock
  · have hsame : (w.next e).store.store.restore (settings.eventTimeKey role) =
        w.store.store.restore (settings.eventTimeKey role) := by
      rw [Checkpoint.Store.restore, hs, Checkpoint.Store.restore]
    rw [hsame]
    rcases hcases with ⟨hbefore, -⟩ | ⟨-, rfl⟩ | ⟨a, x, ha, hi, -⟩
    · exact h j m t hm hmine hbefore
    · simp [readTime, hmine]
    · -- a time of this manager goes to its own key
      obtain ⟨now, m₁, last, y, -, hm₁, -, hkey₁, -⟩ := wroteTime?_eq_some_iff.mp ha
      rw [hi, hm] at hm₁
      cases hm₁
      rw [hmine] at hkey₁
      exact absurd (Option.some.inj hkey₁).symm (hno a ha)

/-- The clock of the watcher of a new term begins at the time that the manager goes by. -/
theorem Begins.clock {term : Term} (h : w.Begins e i term) :
    ∃ x, (w.next e).watchers[term.watcher]? = some x ∧ x.clock = term.persistedTime ∧
      x.claims = .startingAt term.persistedTime := by
  obtain ⟨hwatcher, x, -, hx, -⟩ := h.hasNew
  obtain ⟨now, m, -, he, hm, hph, -⟩ := h
  obtain ⟨now', j, m₁, he', hm₁, htime, hclaims⟩ := next_new_clock hx (Nat.le_of_eq hwatcher.symm)
  rw [he] at he'
  cases he'
  rw [hm] at hm₁
  cases hm₁
  rw [hph] at htime
  have hclock : x.clock = term.persistedTime := (Option.some.inj htime).symm
  exact ⟨x, hx, hclock, hclock ▸ hclaims⟩

end World

end ChangeFeed.Engine
