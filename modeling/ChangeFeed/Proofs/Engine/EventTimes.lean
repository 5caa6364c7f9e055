import ChangeFeed.Proofs.Allocation.Times
import ChangeFeed.Proofs.Engine.Attempts
import ChangeFeed.Proofs.Engine.Clock

/-!
# Where event times go

The event time of a term comes out of the store, is the clock of its watcher from then on, and is
written from there. In between, the clock follows the times of task events.

* `wroteTime?` is the event time that is written with an event.
* `next_time`: the time that a manager goes by is the one that it went by before, or was read or
  written with the event. `next_new_clock`: the clock of a new watcher begins at it.
* `InTime`: every time in a system is a signed word of 64 bits, and those of managers are not
  negative. `InTime.next` is a step and `inTime_after` a run.
-/

namespace ChangeFeed.Engine

open Allocation (IsTime Claims)

/-! ## Steps of a manager -/

/-- The event time that a manager goes by. -/
def Manager.Phase.time? : Manager.Phase → Option Int
  | .starting _ _ time => some time
  | .leading term | .saving term _ _ | .savingTime term _ | .stopping term _ _ =>
    some term.persistedTime
  | _ => none

namespace Manager

variable {w : World} {i : Nat} {m : Manager} {phase : Manager.Phase} {locks : Locks}
  {store : Checkpoint.Flaky} {watchers : Array Watcher}

/-- Only reading the checkpoints and writing the event time change what a manager goes by. -/
theorem Move.time_cases (hm : Move w i m phase locks store watchers) {t : Int}
    (ht : phase.time? = some t) :
    (m.phase.time? = some t ∧ ∀ term last, m.phase ≠ .savingTime term last) ∨
      ((∃ held delay watermark?, m.phase = .restoring held delay watermark?) ∧ t = w.readTime m) ∨
      ∃ term last, m.phase = .savingTime term last := by
  cases hm with
  | idles _ _ h h' hl => cases phase <;> simp_all [Phase.time?, Phase.held?]
  | obtains held _ h hs hk hg => cases ht
  | restores held delay watermark hph hr => cases ht
  | completes held delay watermark watermark? hph hr =>
    cases ht
    exact Or.inr (Or.inl ⟨⟨held, delay, watermark?, hph⟩, rfl⟩)
  | backsOff held delay due watermark? hph => cases ht
  | triesAgain held delay due next hph => cases ht
  | gives held outcome h ht' => cases ht
  | leads held watermark time x hph hx =>
    rw [hph]
    exact Or.inl ⟨ht, by simp⟩
  | reads _ hs hl hscript hn =>
    refine Or.inl ⟨ht, fun term last hph => ?_⟩
    rcases hn with ⟨term', hph'⟩ | ⟨held, delay, due, hph'⟩
    · rw [hph] at hph'
      cases hph'
    · rw [hph] at hph'
      cases hph'
  | hears term x watermark rest _ hph hx hq hp =>
    rw [hph]
    rcases hp with ⟨rfl, -⟩ | rfl
    · exact Or.inl ⟨ht, by simp⟩
    · exact Or.inl ⟨ht, by simp⟩
  | halts term outcome x hph hx =>
    rw [hph]
    exact Or.inl ⟨ht, by simp⟩
  | saves term watermark last hph hs =>
    rw [hph]
    exact Or.inl ⟨ht, by simp⟩
  | savesNot term watermark last hph hs =>
    rw [hph]
    exact Or.inl ⟨ht, by simp⟩
  | savesTime term last time _ hph hs => exact Or.inr (Or.inr ⟨term, last, hph⟩)
  | finishes term outcome seen x result hph hx hh =>
    rw [hph]
    cases outcome with
    | shutdown => exact Or.inl ⟨ht, by simp⟩
    | lockLost => cases ht
    | failed e => cases ht
  | releases held outcome _ hph hl => cases outcome <;> cases ht

end Manager

namespace World

variable {w w' : World} {e : Event} {i k : Nat} {m : Manager} {a : Attempt}

theorem enter_managers (w : World) (now i : Nat) (m : Manager) (phase : Manager.Phase) :
    (w.enter now i m phase).managers = w.managers.setIfInBounds i { m with phase } := by
  unfold enter
  split <;> rfl

/-- A manager is in the phase that it has entered. -/
theorem phase_of_enter {now : Nat} {m₀ m' : Manager} {phase : Manager.Phase}
    (hm' : (w.enter now i m phase).managers[i]? = some m') (hm : w.managers[i]? = some m₀) :
    m'.phase = phase := by
  have hi : i < w.managers.size := (Array.getElem?_eq_some_iff.mp hm).1
  rw [enter_managers, Array.getElem?_setIfInBounds_self_of_lt hi] at hm'
  cases hm'
  rfl

/-! ## Reading event times -/

theorem timeOf_range (restored : Nat) : 0 ≤ timeOf restored ∧ IsTime (timeOf restored) := by
  unfold timeOf
  split
  · rename_i hword
    exact ⟨Int.natCast_nonneg restored, by omega, by omega⟩
  · exact ⟨Int.le_refl 0, Allocation.isTime_zero⟩

theorem readTime_range (w : World) (m : Manager) : 0 ≤ w.readTime m ∧ IsTime (w.readTime m) := by
  unfold readTime
  cases m.eventTimeKey? with
  | none => exact ⟨Int.le_refl 0, Allocation.isTime_zero⟩
  | some key => exact timeOf_range _

/-! ## Writing event times -/

/-- The event time that is written with an event. -/
def wroteTime? (w : World) (e : Event) : Option Attempt :=
  (w.attemptAt? e).filter fun a => a.isTime && a.ok

theorem wroteTime?_eq_some_iff :
    w.wroteTime? e = some a ↔
      ∃ now m last x, e = .step now (.manager a.manager) ∧
        w.managers[a.manager]? = some m ∧ m.phase = .savingTime a.term last ∧
        m.eventTimeKey? = some a.key ∧ w.watchers[a.term.watcher]? = some x ∧
        a.term.persistedTime < x.clock ∧ a.value = x.clock.toNat ∧ a.isTime = true ∧
        w.store.writesFail = false ∧ a.ok = true := by
  simp only [wroteTime?, Option.filter_eq_some_iff, Bool.and_eq_true]
  constructor
  · rintro ⟨h, htime, hok⟩
    unfold attemptAt? at h
    split at h
    · rename_i now i
      split at h
      · cases h
      · rename_i m hm
        split at h
        · cases h
          cases htime
        · rename_i term last hph
          split at h
          · rename_i key x hk hx
            split at h
            · cases h
            · rename_i hc
              cases h
              exact ⟨now, m, last, x, rfl, hm, hph, hk, hx, Int.not_le.mp hc, rfl, rfl,
                by simpa using hok, hok⟩
          · cases h
        · cases h
    · cases h
  · rintro ⟨now, m, last, x, he, hm, hph, hk, hx, hc, hv, htime, hf, hok⟩
    refine ⟨?_, htime, hok⟩
    obtain ⟨manager, term, key, value, isTime, ok⟩ := a
    simp only at he hm hph hk hx hc hv htime hok
    subst he hv htime hok
    simp [attemptAt?, hm, hph, hk, hx, Int.not_le.mpr hc, hf]

/-- Where a manager goes on after it has written an event time, or had none to write. -/
def afterTime (term : Term) (last : Bool) : Manager.Phase :=
  if last then .releasing term.held .shutdown else .leading term

/-- Once its clock was written a manager goes by it, and else by what it went by before. -/
theorem saveEventTime_cases (now : Nat) {term : Term} {last : Bool}
    (hm : w.managers[i]? = some m) (hph : m.phase = .savingTime term last) :
    (w.saveEventTime now m term last).2.managers = w.managers ∧
      ((w.wroteTime? (.step now (.manager i)) = none ∧
          (w.saveEventTime now m term last).1 = afterTime term last) ∨
        ∃ a x, w.wroteTime? (.step now (.manager i)) = some a ∧ a.manager = i ∧
          w.watchers[a.term.watcher]? = some x ∧
          (w.saveEventTime now m term last).1 =
            afterTime { term with persistedTime := x.clock } last) := by
  cases hk : m.eventTimeKey? with
  | none => simp [saveEventTime, hk, wroteTime?, attemptAt?, hm, hph, afterTime]
  | some key =>
    cases hx : w.watchers[term.watcher]? with
    | none => simp [saveEventTime, hk, hx, wroteTime?, attemptAt?, hm, hph, afterTime]
    | some x =>
      by_cases hc : x.clock ≤ term.persistedTime
      · simp [saveEventTime, hk, hx, hc, wroteTime?, attemptAt?, hm, hph, afterTime]
      · rcases hs : w.save now key x.clock.toNat with ⟨ok, w₁⟩
        obtain ⟨⟨log, rfl⟩, hok⟩ := save_spec hs
        cases ok with
        | true =>
          refine ⟨by simp [saveEventTime, hk, hx, hc, hs],
            Or.inr ⟨⟨i, term, key, x.clock.toNat, true, true⟩, x, ?_⟩⟩
          simp [saveEventTime, hk, hx, hc, hs, wroteTime?, attemptAt?, hm, hph, afterTime, ← hok]
        | false =>
          refine ⟨by simp [saveEventTime, hk, hx, hc, hs], Or.inl ?_⟩
          simp [saveEventTime, hk, hx, hc, hs, wroteTime?, attemptAt?, hm, hph, afterTime, ← hok]

theorem time_of_savingTime {now : Nat} {m' : Manager} {term : Term} {last : Bool} {t : Int}
    (hm : w.managers[i]? = some m) (hph : m.phase = .savingTime term last)
    (hm' : (w.next (.step now (.manager i))).managers[i]? = some m')
    (ht : m'.phase.time? = some t) :
    (w.wroteTime? (.step now (.manager i)) = none ∧ t = term.persistedTime) ∨
      ∃ a x, w.wroteTime? (.step now (.manager i)) = some a ∧ a.manager = i ∧
        w.watchers[a.term.watcher]? = some x ∧ t = x.clock := by
  obtain ⟨hmanagers, hcases⟩ := saveEventTime_cases now hm hph
  simp only [World.next, step?, stepManager?, hm, hph, Option.bind_eq_bind, Option.bind_some,
    Option.pure_def, Option.getD_some] at hm'
  rw [phase_of_enter hm' (hmanagers ▸ hm)] at ht
  have after {term' : Term} (h : (afterTime term' last).time? = some t) :
      t = term'.persistedTime := by
    cases last with
    | true => cases h
    | false =>
      cases h
      rfl
  rcases hcases with ⟨hno, hph'⟩ | ⟨a, x, ha, hi, hx, hph'⟩
  · rw [hph'] at ht
    exact Or.inl ⟨hno, after ht⟩
  · rw [hph'] at ht
    exact Or.inr ⟨a, x, ha, hi, hx, after ht⟩

/-! ## One event -/

/-- What a manager goes by after an event. -/
theorem next_time {m' : Manager} {t : Int} (hm' : (w.next e).managers[i]? = some m')
    (ht : m'.phase.time? = some t) :
    ∃ m, w.managers[i]? = some m ∧ m'.eventTimeKey? = m.eventTimeKey? ∧
      ((m.phase.time? = some t ∧ ∀ a, w.wroteTime? e = some a → a.manager ≠ i) ∨
        (w.wroteTime? e = none ∧ t = w.readTime m) ∨
        ∃ a x, w.wroteTime? e = some a ∧ a.manager = i ∧
          w.watchers[a.term.watcher]? = some x ∧ t = x.clock) := by
  cases before hm' with
  | new hph =>
    rw [hph] at ht
    cases ht
  | same m isShutdown hm heq he =>
    subst heq
    refine ⟨m, hm, rfl, Or.inl ⟨ht, fun a ha hi => ?_⟩⟩
    obtain ⟨now, m₁, last, x, hstep, hm₁, hph, -⟩ := wroteTime?_eq_some_iff.mp ha
    subst hi
    exact absurd (he now hstep) (stepManager?_of_savingTime hm₁ hph)
  | stepped now m nextTick phase he hm hstep heq =>
    subst he
    refine ⟨m, hm, by rw [heq]; rfl, ?_⟩
    have hph' : phase.time? = some t := by
      rw [heq] at ht
      exact ht
    rcases hstep.move.time_cases hph' with
      ⟨htime, hno⟩ | ⟨⟨held, delay, watermark?, hph⟩, hread⟩ | ⟨term, last, hph⟩
    · refine Or.inl ⟨htime, fun a ha hi => ?_⟩
      obtain ⟨now', m₁, last, x, -, hm₁, hph, -⟩ := wroteTime?_eq_some_iff.mp ha
      rw [hi, hm] at hm₁
      cases hm₁
      exact hno a.term last hph
    · refine Or.inr (Or.inl ⟨?_, hread⟩)
      refine Option.eq_none_iff_forall_ne_some.mpr fun a ha => ?_
      obtain ⟨now', m₁, last, x, he, hm₁, hph₁, -⟩ := wroteTime?_eq_some_iff.mp ha
      cases he
      rw [hm] at hm₁
      cases hm₁
      rw [hph] at hph₁
      cases hph₁
    · rcases time_of_savingTime hm hph hm' ht with ⟨hno, rfl⟩ | ⟨a, x, ha, hi, hx, rfl⟩
      · exact Or.inl ⟨by rw [hph]; rfl, by simp [hno]⟩
      · exact Or.inr (Or.inr ⟨a, x, ha, hi, hx, rfl⟩)

/-! ## New watchers -/

theorem startWatcher_times {now outlet watermark capacity : Nat} {role : Role} {clock : Int}
    {settings : Settings.Watching} {result : Except Error Unit}
    (h : w.startWatcher now role settings outlet watermark clock capacity = (result, w')) :
    w'.watchers = w.watchers ∨ ∃ x : Watcher, w'.watchers = w.watchers.push x ∧
      x.clock = clock ∧ x.claims = .startingAt clock := by
  unfold startWatcher at h
  cases ho : w.outlets[outlet]? with
  | none =>
    simp only [ho] at h
    cases h
    exact Or.inl rfl
  | some o =>
    simp only [ho] at h
    rcases hs : o.start with ⟨e | ⟨⟩, o', entries⟩
    · simp only [hs] at h
      cases h
      exact Or.inl rfl
    · simp only [hs] at h
      cases h
      exact Or.inr ⟨_, rfl, rfl, rfl⟩

theorem beginTerm_times {now watermark : Nat} {held : Held} {time : Int} {phase : Manager.Phase}
    (h : w.beginTerm now m held watermark time = (phase, w')) :
    w'.watchers = w.watchers ∨ ∃ x : Watcher, w'.watchers = w.watchers.push x ∧
      x.clock = time ∧ x.claims = .startingAt time := by
  unfold beginTerm buildOutlet at h
  cases hplan : w.plans.headD (.ok recordingOutlet) with
  | error e =>
    simp only [hplan] at h
    cases h
    exact Or.inl rfl
  | ok o =>
    simp only [hplan] at h
    split at h
    · rename_i e w₂ hs
      cases h
      exact (startWatcher_times hs :)
    · rename_i w₂ hs
      cases h
      rcases startWatcher_times hs with hsame | ⟨x, hx, hclock, hclaims⟩
      · obtain ⟨-, -, -, -, x, hx, -⟩ := startWatcher_spec hs
        rw [hsame] at hx
        have hsize := congrArg Array.size hx
        simp at hsize
      · split
        · exact Or.inr ⟨_, cancelWatcher_push hx, hclock, hclaims⟩
        · exact Or.inr ⟨x, hx, hclock, hclaims⟩

/-- The clock and the claims of a new watcher begin at the time that its manager goes by. -/
theorem next_new_clock {x : Watcher} (hx : (w.next e).watchers[k]? = some x)
    (hk : w.watchers.size ≤ k) :
    ∃ (now i : Nat) (m : Manager), e = .step now (.manager i) ∧ w.managers[i]? = some m ∧
      m.phase.time? = some x.clock ∧ x.claims = .startingAt x.clock := by
  obtain ⟨now, i, m, held, watermark, time, rfl, hm, hph, hsize, -⟩ := next_new_watcher hx hk
  refine ⟨now, i, m, rfl, hm, ?_⟩
  simp only [World.next, step?, stepManager?, hm, hph, Option.bind_eq_bind, Option.bind_some,
    Option.pure_def, Option.getD_some] at hx
  rcases hb : w.beginTerm now m held watermark time with ⟨phase, w₁⟩
  have hwatchers : (w₁.enter now i m phase).watchers = w₁.watchers := by
    unfold enter
    split <;> rfl
  rw [hb, hwatchers] at hx
  rcases beginTerm_times hb with hsame | ⟨y, hpush, hclock, hclaims⟩
  · rw [hsame] at hx
    exact absurd (Array.getElem?_eq_some_iff.mp hx).1 (Nat.not_lt.mpr hk)
  · rw [hpush, hsize, Array.getElem?_push_size] at hx
    cases hx
    rw [hph, hclock]
    exact ⟨rfl, hclaims⟩

end World

/-! ## All times are words -/

/-- Whether the record of some work, and the time that it has claimed, are words. -/
def Publication.Phase.InTime : Publication.Phase → Prop
  | .lookingUp _ (.ok record) => record.InWords
  | .putting _ _ (some time) => IsTime time
  | _ => True

/-- The orchestrator answers with documents that it has read from texts. -/
theorem Orchestrator.inWords_of_lookUp {o : Orchestrator} {resource : Resource} {id : String} :
    Json.Yields (o.lookUp resource id).2 Json.InWords := by
  unfold lookUp
  split
  · exact Json.yields_error
  · simp only
    split
    · exact Json.yields_error
    · split
      · rename_i record hparse
        exact Json.yields_ok (Json.yields_parse _ record hparse)
      · exact Json.yields_error

namespace World

variable {w w' : World} {e : Event} {i k : Nat} {m : Manager} {a : Attempt}

theorem inTime_lookingUp {due : Nat} {answer : Except Error Json}
    (h : Json.Yields answer Json.InWords) : (Publication.Phase.lookingUp due answer).InTime := by
  cases answer with
  | error e => trivial
  | ok record => exact h record rfl

theorem messages_inTime {x : Watcher} {id : String} {record : Json} (hx : x.claims.InTime)
    (hr : record.InWords) {ms : List Message} {newest : Option Int} {current : Option Put}
    (h : (messages x id record).1 = .ok (ms, newest)) :
    (Publication.Phase.putting current ms newest).InTime := by
  unfold messages at h
  split at h
  · cases hd : (x.claims.claim id record).1 with
    | error e =>
      simp only [hd] at h
      cases h
    | ok d =>
      simp only [hd] at h
      cases h
      cases ht : d.newest with
      | none => trivial
      | some time => exact (Claims.inTime_claim hx hr).2 d hd time ht
  · cases h
    trivial

theorem stepPublication?_inTime {now j : Nat} {p : Publication} {x : Watcher}
    (hp : w.publications[j]? = some p) (hx : w.watchers[p.watcher]? = some x)
    (hclaims : x.claims.InTime) (hphase : p.phase.InTime)
    (h : w.stepPublication? now j = some w') :
    ∃ p', w'.publications = w.publications.setIfInBounds j p' ∧ p'.phase.InTime := by
  simp only [stepPublication?, hp, hx, Option.bind_eq_bind, Option.bind_some] at h
  cases hph : p.phase with
  | begun =>
    simp only [hph] at h
    split at h
    · cases h
      exact ⟨_, rfl, trivial⟩
    · cases h
      exact ⟨_, rfl, inTime_lookingUp Orchestrator.inWords_of_lookUp⟩
  | lookingUp due answer =>
    simp only [hph] at h
    split at h
    · cases h
    · cases answer with
      | error e =>
        cases h
        exact ⟨_, rfl, trivial⟩
      | ok record =>
        rw [hph] at hphase
        simp only at h
        rcases hm : messages x p.change.id record with ⟨e | ⟨ms, newest⟩, x'⟩
        · simp only [hm] at h
          cases h
          exact ⟨_, rfl, trivial⟩
        · simp only [hm] at h
          cases h
          exact ⟨_, rfl, messages_inTime hclaims hphase (by rw [hm])⟩
  | putting current left newest =>
    rw [hph] at hphase
    simp only [hph] at h
    cases left with
    | nil =>
      cases h
      exact ⟨_, rfl, trivial⟩
    | cons message rest =>
      simp only [Option.bind_eq_some_iff] at h
      obtain ⟨⟨next, w₁⟩, hput, h⟩ := h
      obtain ⟨outlets, log, rfl⟩ := stepPut?_eq hput
      have hsame (current : Option Put) (left : List Message) :
          (Publication.Phase.putting current left newest).InTime := by
        cases newest with
        | none => trivial
        | some time => exact hphase
      rcases next with put | e | ⟨⟩
      · cases h
        exact ⟨_, rfl, hsame _ _⟩
      · cases h
        exact ⟨_, rfl, trivial⟩
      · cases h
        exact ⟨_, rfl, hsame _ _⟩
  | ended result => simp [hph] at h

/-- Whether all times in a system are words, and those of managers are not negative. -/
structure InTime (w : World) : Prop where
  clock : ∀ (k : Nat) (x : Watcher), w.watchers[k]? = some x → IsTime x.clock
  claims : ∀ (k : Nat) (x : Watcher), w.watchers[k]? = some x → x.claims.InTime
  publication : ∀ (j : Nat) (p : Publication), w.publications[j]? = some p → p.phase.InTime
  manager : ∀ (i : Nat) (m : Manager) (t : Int), w.managers[i]? = some m →
    m.phase.time? = some t → 0 ≤ t ∧ IsTime t

theorem IsFresh.inTime (h : w.IsFresh) : w.InTime where
  clock := fun k x hx => by simp [h.watchers] at hx
  claims := fun k x hx => by simp [h.watchers] at hx
  publication := fun j p hp => by simp [h.publications] at hp
  manager := fun i m t hm => by simp [h.managers] at hm

namespace InTime

theorem next_clock (h : w.InTime) (e : Event) {x' : Watcher}
    (hx' : (w.next e).watchers[k]? = some x') : IsTime x'.clock ∧ x'.claims.InTime := by
  by_cases hk : k < w.watchers.size
  · have hx : w.watchers[k]? = some w.watchers[k] := Array.getElem?_eq_getElem hk
    obtain ⟨x₁, hx₁, hstep⟩ := next_ledger e hx
    rw [hx'] at hx₁
    cases hx₁
    rw [hstep.clock, hstep.claims]
    constructor
    · cases hended : w.endedAt? k e with
      | none => exact h.clock k _ hx
      | some ended =>
        obtain ⟨j, newest⟩ := ended
        obtain ⟨p, current, hp, -, hph⟩ := endedAt?_spec hended
        have hphase := h.publication j p hp
        rw [hph] at hphase
        cases newest with
        | none => exact h.clock k _ hx
        | some time => exact (h.clock k _ hx).max hphase
    · cases hclaim : w.claimAt? k e with
      | none => exact h.claims k _ hx
      | some claim =>
        obtain ⟨j, id, record⟩ := claim
        obtain ⟨-, p, -, due, -, hp, -, -, -, hph, -⟩ := claimAt?_spec hclaim
        have hphase := h.publication j p hp
        rw [hph] at hphase
        exact (Claims.inTime_claim (h.claims k _ hx) hphase).1
  · obtain ⟨-, i, m, -, hm, ht, hclaims⟩ := next_new_clock hx' (Nat.le_of_not_lt hk)
    have htime := (h.manager i m _ hm ht).2
    rw [hclaims]
    exact ⟨htime, Claims.inTime_startingAt htime⟩

theorem next_publication (h : w.InTime) (e : Event) {j : Nat} {p' : Publication}
    (hp' : (w.next e).publications[j]? = some p') : p'.phase.InTime := by
  have hspec := next_spec w e
  generalize hw' : w.next e = w' at hspec hp'
  -- only the steps of loops and of the work itself change anything here
  have rests (hsame : w'.publications = w.publications) : p'.phase.InTime :=
    h.publication j p' (hsame ▸ hp')
  cases hspec with
  | rests e w' hw => exact rests (publications_eq_of_work hw)
  | watcher now i task htask x x' w' hx hw =>
    have hsame : w'.publications = (w.setWatcher i x').publications := publications_eq_of_work hw
    exact rests hsame
  | manager now i m phase w' hm hstep => exact rests hstep.publications
  | act a w' hstep => exact rests hstep.publications
  | loop now i x x' w' hx hstep =>
    rw [hstep.publications, Array.getElem?_append] at hp'
    split at hp'
    · exact h.publication j p' hp'
    · have hmem := Array.mem_of_getElem? hp'
      simp only [List.mem_toArray, List.mem_map] at hmem
      obtain ⟨⟨k, c⟩, -, rfl⟩ := hmem
      trivial
  | publication now i p p₁ x w' hp hx hstep =>
    have hnext : w.next (.step now (.publication i)) = (w.stepPublication? now i).getD w := rfl
    cases hs : w.stepPublication? now i with
    | none =>
      refine rests ?_
      rw [← hw', hnext, hs, Option.getD_none]
    | some w₁ =>
      rw [hnext, hs, Option.getD_some] at hw'
      subst hw'
      obtain ⟨p₂, hpublications, hphase⟩ :=
        stepPublication?_inTime hp hx (h.claims _ x hx) (h.publication i p hp) hs
      rw [hpublications] at hp'
      by_cases hij : i = j
      · subst hij
        have hi : i < w.publications.size := (Array.getElem?_eq_some_iff.mp hp).1
        rw [Array.getElem?_setIfInBounds_self_of_lt hi] at hp'
        cases hp'
        exact hphase
      · rw [Array.getElem?_setIfInBounds_ne hij] at hp'
        exact h.publication j p' hp'

theorem next (h : w.InTime) (e : Event) : (w.next e).InTime where
  clock := fun k x' hx' => (h.next_clock e hx').1
  claims := fun k x' hx' => (h.next_clock e hx').2
  publication := fun j p' hp' => h.next_publication e hp'
  manager := fun i m' t hm' ht => by
    obtain ⟨m, hm, -, ⟨hsame, -⟩ | ⟨-, rfl⟩ | ⟨a, x, ha, rfl, hx, rfl⟩⟩ := next_time hm' ht
    · exact h.manager i m t hm hsame
    · exact readTime_range w m
    · obtain ⟨now, m₁, last, y, -, hm₁, hph, -, hy, hlt, -⟩ := wroteTime?_eq_some_iff.mp ha
      rw [hx] at hy
      cases hy
      have hbefore := (h.manager a.manager m₁ _ hm₁ (by rw [hph]; rfl)).1
      exact ⟨by omega, h.clock _ x hx⟩

end InTime

end World

end ChangeFeed.Engine
