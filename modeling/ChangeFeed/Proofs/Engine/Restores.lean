import ChangeFeed.Proofs.Engine.ReadFailures
import ChangeFeed.Proofs.Engine.Resignations

/-!
# Restores that back off

From the grant of its lease on, a manager tries to read the checkpoints of its role. As long as it
has not read all of them, it starts nothing and writes nothing.

* `next_of_grant`: a manager that is granted a lease goes on to read its checkpoints.
* `exists_read`: the watermark that an attempt goes on with was read in this attempt.
* `Awaiting.quiet`: its steps reach no sink, no watcher and no store until it has read them.
* `BacksOff` is what holds of a run from a grant on in which no attempt is successful, and
  `restore_backs_off` shows it of every such run.
-/

namespace ChangeFeed.Engine

/-! ## Steps of a manager -/

namespace Manager

variable {w : World} {i : Nat} {m : Manager} {phase : Manager.Phase} {locks : Locks}
  {store : Checkpoint.Flaky} {watchers : Array Watcher}

/-- A step of a manager without a lease reaches no store and no watcher. With a lease after it, the
manager was not shut down and goes on to read its checkpoints. -/
theorem Move.of_free (hmove : Move w i m phase locks store watchers)
    (hfree : m.phase.held? = none) :
    store = w.store ∧ watchers = w.watchers ∧
      (phase.held? = none ∨ ∃ held, m.isShutdown = false ∧
        phase = .restoring held m.settings.coordination.restoreRetry.millis none) := by
  have leased {before : Manager.Phase} {P : Prop} (hph : m.phase = before)
      (hheld : before.held? ≠ none) : P := absurd (hph ▸ hfree) hheld
  cases hmove with
  | idles _ _ h h' hl => exact ⟨rfl, rfl, Or.inl h'⟩
  | obtains held _ h hs hk hg => exact ⟨rfl, rfl, Or.inr ⟨held, hs, rfl⟩⟩
  | gives held outcome h ht =>
    rw [hfree] at h
    cases h
  | reads _ hs hl ht hn =>
    rcases hn with ⟨term, hph⟩ | ⟨held, delay, due, hph⟩
    · exact leased hph nofun
    · exact leased hph nofun
  | restores held delay watermark hph hr => exact leased hph nofun
  | completes held delay watermark watermark? hph hr => exact leased hph nofun
  | backsOff held delay due watermark? hph => exact leased hph nofun
  | triesAgain held delay due next hph => exact leased hph nofun
  | leads held watermark time x hph hx => exact leased hph nofun
  | hears term x watermark rest _ hph hx hq hp => exact leased hph nofun
  | halts term outcome x hph hx => exact leased hph nofun
  | saves term watermark last hph hs => exact leased hph nofun
  | savesNot term watermark last hph hs => exact leased hph nofun
  | savesTime term last time _ hph hs => exact leased hph nofun
  | finishes term outcome seen x result hph hx hh => exact leased hph nofun
  | releases held outcome _ hph hl => exact leased hph nofun

/-- A manager that has a watermark to go on with has just read it. -/
theorem Move.read_of_restoring (hmove : Move w i m phase locks store watchers) {held : Held}
    {delay watermark : Nat} (hph : phase = .restoring held delay (some watermark)) :
    m.phase = .restoring held delay none ∧ w.store.restore m.checkpointKey = .ok watermark := by
  cases hmove with
  | idles _ _ h h' hl =>
    rw [hph] at h'
    cases h'
  | restores held' delay' watermark' h hr =>
    cases hph
    exact ⟨h, hr⟩
  | reads _ hs hl ht hn =>
    rw [hph] at hn
    rcases hn with ⟨term, hno⟩ | ⟨held', delay', due, hno⟩
    · cases hno
    · cases hno
  | hears term x watermark' rest _ h hx hq hp => rcases hp with ⟨rfl, -⟩ | rfl <;> cases hph
  | savesTime term last time _ h hs => cases last <;> cases hph
  | finishes term outcome seen x result h hx hh => cases outcome <;> cases hph
  | releases held' outcome _ h hl => cases outcome <;> cases hph
  | _ => cases hph

end Manager

namespace World

variable {w w' : World} {e : Event} {i : Nat} {m : Manager} {held : Held}
  {s : Settings.Coordination} {sharp : Prop} {starts failures : List Nat}

/-! ## The grant -/

/-- A manager that is granted a lease is not shut down, and goes on to read its checkpoints; the
first pause is the one of its settings. -/
theorem next_of_grant (h : w.leaseCallAt? e = some ⟨i, held, false⟩) :
    ∃ now m nextTick locks metrics log, e = .step now (.manager i) ∧ w.managers[i]? = some m ∧
      m.phase.held? = none ∧ m.isShutdown = false ∧
      w.next e = { w with
        managers := w.managers.setIfInBounds i { m with
          nextTick, phase := .restoring held m.settings.coordination.restoreRetry.millis none }
        locks, metrics, log } := by
  obtain ⟨now, m, rfl, hm, ⟨hrel, -⟩ | ⟨-, hn, hs⟩⟩ := leaseCallAt?_cases h
  · cases hrel
  simp only at hm hn hs
  have hfree : m.phase.held? = none := by simpa [heldBy, hm] using hn
  cases hstep : w.stepManager? now i with
  | none =>
    rw [World.next, step?, hstep, Option.getD_none, hn] at hs
    cases hs
  | some w' =>
    have hnext : w.next (.step now (.manager i)) = w' := by
      rw [World.next, step?, hstep, Option.getD_some]
    obtain ⟨m₁, phase, hm₁, ⟨nextTick, hmanagers⟩, hmove, -, hbeside⟩ := stepManager?_spec hstep
    rw [hm] at hm₁
    cases hm₁
    have hmine : w'.heldBy i = phase.held? := by
      rw [heldBy, hmanagers, managers_set_self hm]
      rfl
    have hstarts : ∀ held watermark time, m.phase ≠ .starting held watermark time := by
      intro held watermark time hph
      rw [hph] at hfree
      cases hfree
    obtain ⟨managers, locks, store, watchers, metrics, log, rfl⟩ := hbeside.frame hstarts
    obtain ⟨hstore, hwatchers, hcases⟩ := hmove.of_free hfree
    simp only at hmanagers hstore hwatchers
    subst hmanagers hstore hwatchers
    rw [hnext, hmine] at hs
    rcases hcases with hnone | ⟨held', hq, rfl⟩
    · rw [hnone] at hs
      cases hs
    · cases hs
      exact ⟨now, m, nextTick, locks, metrics, log, rfl, hm, hfree, hq, hnext⟩

/-! ## Half an attempt -/

theorem stepManager?_of_restoring_ne {now delay : Nat} {watermark? : Option Nat}
    (hm : w.managers[i]? = some m) (hph : m.phase = .restoring held delay watermark?) :
    w.stepManager? now i ≠ none := by
  simp only [stepManager?, hm, hph, Option.bind_eq_bind, Option.bind_some, Option.pure_def]
  split <;> exact Option.some_ne_none _

/-- The watermark that a manager goes on with was read with its last step. -/
theorem exists_read {events : List Event} {delay watermark : Nat}
    (hbefore : ∀ m, w.managers[i]? = some m → m.phase ≠ .restoring held delay (some watermark))
    (hm : (w.after events).managers[i]? = some m)
    (hph : m.phase = .restoring held delay (some watermark)) :
    ∃ earlier now later m₁, events = earlier ++ .step now (.manager i) :: later ∧
      (∀ now', .step now' (.manager i) ∉ later) ∧ (w.after earlier).managers[i]? = some m₁ ∧
      m₁.phase = .restoring held delay none ∧
      (w.after earlier).store.restore m₁.checkpointKey = .ok watermark := by
  induction events using List.reverseRecOn generalizing m with
  | nil => exact absurd hph (hbefore m hm)
  | append_singleton events e ih =>
    rw [after_append] at hm
    cases before hm with
    | stepped now m₁ nextTick phase he hm₁ hstep heq =>
      subst heq he
      exact ⟨events, now, [], m₁, rfl, by simp, hm₁, hstep.move.read_of_restoring hph⟩
    | same m₁ isShutdown hm₁ heq hno =>
      subst heq
      obtain ⟨earlier, now, later, m₂, rfl, hlast, hread⟩ := ih hm₁ hph
      refine ⟨earlier, now, later ++ [e], m₂, by simp, fun now' hmem => ?_, hread⟩
      rcases List.mem_append.mp hmem with hmem | hmem
      · exact hlast now' hmem
      · exact stepManager?_of_restoring_ne hm₁ hph (hno now' (List.mem_singleton.mp hmem).symm)
    | new hbegun =>
      rw [hbegun] at hph
      cases hph

/-! ## Silence -/

/-- A step of a manager that does not read its checkpoints reaches no sink, no watcher, no work on a
change, no orchestrator and no store. -/
theorem Awaiting.quiet {now : Nat} (h : w.Awaiting i held s sharp starts failures)
    (hf : w.Fruitless i held [.step now (.manager i)]) :
    ∃ managers locks metrics log,
      w.next (.step now (.manager i)) = { w with managers, locks, metrics, log } := by
  obtain ⟨m, hm, -, hphase⟩ := h.manager
  generalize hph : m.phase = phase at hphase
  cases hphase with
  | reads watermark? hl =>
    obtain ⟨phase, metrics, log, -, hnext⟩ := next_of_restoring now hm hph
    exact ⟨_, w.locks, metrics, log, hnext⟩
  | waits t hl =>
    have hwait := next_of_backingOff now hm hph
    generalize w.next (.step now (.manager i)) = w' at hwait ⊢
    cases hwait with
    | hears locks hq hlost hn => exact ⟨w.managers, locks, w.metrics, w.log, rfl⟩
    | waits hq hlost hn ht => exact ⟨w.managers, w.locks, w.metrics, w.log, rfl⟩
    | _ => exact ⟨_, w.locks, w.metrics, w.log, rfl⟩
  | leaves outcome hl => exact absurd (by simp [leaseCallAt?, hm, hph]) hf.leaseCall

theorem attemptAt?_manager_ne (hm : w.managers[i]? = some m) (ht : m.phase.term? = none)
    {a : Attempt} (ha : w.attemptAt? e = some a) : a.manager ≠ i := by
  rintro rfl
  obtain ⟨now, m', -, hm', hcases⟩ := attemptAt?_cases ha
  rw [hm] at hm'
  cases hm'
  rcases hcases with ⟨last, hph⟩ | ⟨⟨last, hph⟩, -⟩
  · rw [hph] at ht
    cases ht
  · rw [hph] at ht
    cases ht

theorem Awaiting.attempts {events : List Event} (h : w.Awaiting i held s sharp starts failures)
    (hf : w.Fruitless i held events) (hsharp : sharp → w.isOnTime i events = true) {a : Attempt}
    (ha : a ∈ w.attempts events) : a.manager ≠ i := by
  induction events generalizing w starts failures with
  | nil => cases ha
  | cons e rest ih =>
    obtain ⟨hone, hrest⟩ := hf.cons
    rcases List.mem_append.mp ha with ha | ha
    · obtain ⟨m, hm, -, hphase⟩ := h.manager
      exact attemptAt?_manager_ne hm hphase.term? (Option.mem_toList.mp ha)
    · exact ih (h.next hone fun hp => (isOnTime_cons (hsharp hp)).1) hrest
        (fun hp => (isOnTime_cons (hsharp hp)).2) ha

/-- The watchers of a manager that is in no term have ended, and ask for nothing. -/
theorem HasBegun.stepLoop?_eq_none {events : List Event} {term : Term}
    (h : w.HasBegun events i term) (hm : (w.after events).managers[i]? = some m)
    (ht : m.phase.term? = none) (now : Nat) :
    (w.after events).stepLoop? now term.watcher = none := by
  obtain ⟨before, e, later, rfl, hbegins⟩ := h
  rw [after_append, after_cons] at hm ⊢
  obtain ⟨-, x₀, role, hx₀, hnew⟩ := hbegins.hasNew
  rcases hbegins.tended.after later with ⟨result, x, hx, hhalt⟩ | ⟨m', term', hm', ht', -⟩
  · obtain ⟨x', hx', hordered⟩ := ordered_after hx₀ hnew.ordered later
    rw [hx] at hx'
    cases hx'
    have hended : Loop.isEnded x.loop = true := hordered.joined _ hhalt rfl
    cases hl : x.loop with
    | ended => simp [stepLoop?, hx, hl]
    | _ =>
      rw [hl] at hended
      cases hended
  · rw [hm] at hm'
    cases hm'
    rw [ht] at ht'
    cases ht'

/-! ## What is counted -/

theorem readings_role {events : List Event} (hm : w.managers[i]? = some m) {r : Reading}
    (hr : r ∈ w.readings events) (hi : r.manager = i) : r.role = m.role := by
  induction events generalizing w m with
  | nil => cases hr
  | cons e rest ih =>
    rcases List.mem_append.mp hr with hr | hr
    · obtain ⟨m', held, delay, watermark?, -, hm', -, -, hrole, -⟩ :=
        readingAt?_cases (Option.mem_toList.mp hr)
      rw [hi, hm] at hm'
      cases hm'
      exact hrole
    · obtain ⟨m', hm', hrole, -⟩ := next_manager e hm
      exact (ih hm' hr).trans hrole

/-- How many attempts for a role fail during some events that are not those of the given manager. -/
def failedReadsBeside (w : World) (role : Role) (i : Nat) (events : List Event) : Nat :=
  (w.readings events).countP fun r => decide (r.manager ≠ i) && r.failsFor role

/-- The failures for a role during some events are those of one of its managers and those of the
others. -/
theorem countP_failsFor {events : List Event} (hm : w.managers[i]? = some m) :
    (w.readings events).countP (Reading.failsFor m.role) =
      (w.failedReads i events).length + w.failedReadsBeside m.role i events := by
  rw [List.countP_eq_countP_filter_add _ _ fun r : Reading => decide (r.manager = i), failedReads,
    failedReadsBeside,
    List.length_map, ← List.countP_eq_length_filter, List.countP_filter, List.countP_filter]
  congr 1
  · refine List.countP_congr fun r hr => ?_
    by_cases hi : r.manager = i
    · simp [hi, Reading.failsFor, readings_role hm hr hi]
    · simp [hi]
  · refine List.countP_congr fun r hr => ?_
    simp [and_comm]

/-! ## All of it -/

/-- What holds of a manager during some events that begin with the grant of a lease to it, if it
reads all its checkpoints with none of them. -/
structure BacksOff (w : World) (i : Nat) (held : Held) (m : Manager) (events : List Event) :
    Prop where
  /-- The first attempt begins with the grant. -/
  first : (w.starts i events).head? = events.head?.bind Event.time?
  /-- The manager is about to read its checkpoints, or waits for the end of the pause after the last
  failure, or has given up. -/
  awaits : ∃ phase, (w.after events).phaseOf? i = some phase ∧
    phase.Awaits m.settings.coordination held (w.starts i events) (w.failedReads i events)
  /-- Each further attempt begins after the pause that follows the failure before. -/
  spaced : m.settings.coordination.Spaced (w.isOnTime i events = true) (w.starts i events)
    (w.failedReads i events)
  /-- A watermark that the manager goes on with is the one that it read in the same attempt. -/
  partly : ∀ delay watermark,
    (w.after events).phaseOf? i = some (.restoring held delay (some watermark)) →
      ∃ earlier now later m', events = earlier ++ .step now (.manager i) :: later ∧
        (∀ now', .step now' (.manager i) ∉ later) ∧ (w.after earlier).managers[i]? = some m' ∧
        m'.phase = .restoring held delay none ∧
        (w.after earlier).store.restore m'.checkpointKey = .ok watermark
  /-- Once a wait is over, the manager begins the next attempt or gives up, after as many steps as
  notices wait at most. -/
  wakes : ∀ delay due now, (w.after events).phaseOf? i = some (.backingOff held delay due) →
    due ≤ now → ∃ n, n ≤ (w.after events).noticesFor held ∧
      let w' := (w.after events).after (List.replicate n (.step now (.manager i)))
      w'.startAt? i (.step now (.manager i)) = some now ∨ ∃ outcome, w'.Resigns i held outcome
  /-- Every failure is counted once, with those of other managers of the role. -/
  counted : (w.after events).readFailures m.role % UInt64.size =
    (w.readFailures m.role + (w.failedReads i events).length +
      w.failedReadsBeside m.role i events) % UInt64.size
  /-- The manager builds no sink, starts no watcher and writes nothing. -/
  quiet : ∀ earlier now later, events = earlier ++ .step now (.manager i) :: later →
    ∃ managers locks metrics log, (w.after earlier).next (.step now (.manager i)) =
      { w.after earlier with managers, locks, metrics, log }
  unwritten : ∀ a ∈ w.attempts events, a.manager ≠ i
  /-- It goes on to a term with an attempt that reads all checkpoints. -/
  succeeds : ∀ e, (∃ watermark time,
      (w.after (events ++ [e])).phaseOf? i = some (.starting held watermark time)) ↔
    ∃ r, (w.after events).readingAt? e = some r ∧ r.manager = i ∧ r.ok = true
  /-- It gives up if it takes a step after it was shut down, or in a wait after it has lost its
  lock. -/
  resigns : ∀ outcome, (w.after events).phaseOf? i = some (.releasing held outcome) ↔
    ∃ earlier now later, events = earlier ++ .step now (.manager i) :: later ∧
      (w.after earlier).Resigns i held outcome
  shutDown : ∃ m', (w.after events).managers[i]? = some m' ∧
    (m'.isShutdown = true ↔ .act (.shutDown i) ∈ events)
  /-- It gives its lease back with the first step after it gave up, and with no other one. -/
  releases : ∀ e, (w.after events).leaseCallAt? e = some ⟨i, held, true⟩ ↔
    (∃ now, e = .step now (.manager i)) ∧
      ∃ outcome, (w.after events).phaseOf? i = some (.releasing held outcome)

/-- Right after the grant no attempt has failed. -/
theorem awaiting_of_grant (hm : w.managers[i]? = some m)
    (hcheck : m.settings.coordination.check = .ok ())
    (hgrant : w.leaseCallAt? e = some ⟨i, held, false⟩) (sharp : Prop) :
    ∃ now, e = .step now (.manager i) ∧ w.starts i [e] = [now] ∧ w.failedReads i [e] = [] ∧
      m.phase.held? = none ∧ m.isShutdown = false ∧
      (w.next e).Awaiting i held m.settings.coordination sharp [now] [] ∧
      (w.next e).isReading i = true ∧
      ∃ managers locks metrics log, w.next e = { w with managers, locks, metrics, log } := by
  obtain ⟨now, m₁, nextTick, locks, metrics, log, rfl, hm₁, hfree, hq, hnext⟩ :=
    next_of_grant hgrant
  rw [hm] at hm₁
  cases hm₁
  have hnew : (w.next (.step now (.manager i))).managers[i]? = some { m with
      nextTick, phase := .restoring held m.settings.coordination.restoreRetry.millis none } := by
    rw [hnext]
    exact managers_set_self hm _
  have hbefore : w.isReading i = false := by
    rw [isReading_eq hm]
    cases hph : m.phase with
    | restoring held' delay watermark? =>
      rw [hph] at hfree
      cases hfree
    | _ => rfl
  have hreads : (w.next (.step now (.manager i))).isReading i = true := by
    rw [isReading_eq hnew]
    rfl
  have hstart : w.startAt? i (.step now (.manager i)) = some now := by
    simp [startAt?, hbefore, hreads]
  refine ⟨now, rfl, by simp [World.starts, hstart], failedReads_of_none fun r hr hi => ?_, hfree, hq,
    ⟨⟨_, hnew, rfl, ?_⟩, .nil _ _ _⟩, hreads, _, locks, metrics, log, hnext⟩
  · obtain ⟨m', held', delay, watermark?, -, hm', hph, -⟩ := readingAt?_cases hr
    rw [hi, hm] at hm'
    cases hm'
    rw [hph] at hfree
    cases hfree
  · rw [← Settings.Coordination.pause_zero hcheck]
    exact @Manager.Phase.Awaits.reads m.settings.coordination held [now] [] none rfl

/-- After the grant the manager awaits its checkpoints in every state of the run. -/
theorem awaiting_of_append {during earlier later : List Event} (hm : w.managers[i]? = some m)
    (hcheck : m.settings.coordination.check = .ok ())
    (hgrant : w.leaseCallAt? e = some ⟨i, held, false⟩) (hf : w.Fruitless i held (e :: during))
    (hsplit : during = earlier ++ later) :
    (w.after (e :: earlier)).Awaiting i held m.settings.coordination
      (w.isOnTime i (e :: earlier) = true) (w.starts i (e :: earlier))
      (w.failedReads i (e :: earlier)) := by
  subst hsplit
  obtain ⟨now, -, hstarts, hfailed, -, -, haw, -⟩ :=
    awaiting_of_grant hm hcheck hgrant (w.isOnTime i (e :: earlier) = true)
  rw [starts_cons, failedReads_cons, hstarts, hfailed]
  exact haw.after hf.cons.2.append.1 fun hp => (isOnTime_cons hp).2

theorem backsOff_of_grant {during : List Event} (hm : w.managers[i]? = some m)
    (hcheck : m.settings.coordination.check = .ok ())
    (hgrant : w.leaseCallAt? e = some ⟨i, held, false⟩) (hf : w.Fruitless i held (e :: during)) :
    w.BacksOff i held m (e :: during) := by
  obtain ⟨now, rfl, hstarts, -, hfree, hq, haw, hreads, managers, locks, metrics, log, hnext⟩ :=
    awaiting_of_grant hm hcheck hgrant False
  have hend := awaiting_of_append hm hcheck hgrant hf (List.append_nil during).symm
  obtain ⟨m', hm', hsettings, hphase⟩ := hend.manager
  -- an event of the run is the grant, or comes when the manager awaits its checkpoints
  have cases_of {earlier later : List Event} {e' : Event}
      (h : .step now (.manager i) :: during = earlier ++ e' :: later) :
      earlier = [] ∧ e' = .step now (.manager i) ∨
        ∃ rest, earlier = .step now (.manager i) :: rest ∧ during = rest ++ e' :: later := by
    rcases List.cons_eq_append_iff.mp h with ⟨rfl, hcons⟩ | ⟨rest, rfl, hrest⟩
    · cases hcons
      exact Or.inl ⟨rfl, rfl⟩
    · exact Or.inr ⟨rest, rfl, hrest⟩
  refine
    { first := ?first, awaits := ⟨_, phaseOf?_eq hm', hphase⟩, spaced := hend.spaced
      partly := ?partly, wakes := ?wakes, counted := ?counted, quiet := ?quiet, unwritten := ?unwritten
      succeeds := ?succeeds, resigns := ?resigns, shutDown := ?shutDown
      releases := fun e => leaseCallAt?_release_iff }
  case first => simp [starts_cons, hstarts, Event.time?]
  case partly =>
    intro delay watermark hreads
    rw [phaseOf?_eq hm', Option.some.injEq] at hreads
    refine exists_read (fun m₁ hm₁ hph => ?_) hm' hreads
    rw [hm] at hm₁
    cases hm₁
    rw [hph] at hfree
    cases hfree
  case wakes =>
    intro delay due later hwaits hdue
    rw [phaseOf?_eq hm', Option.some.injEq] at hwaits
    exact exists_turn hm' hwaits hdue
  case counted =>
    rw [readFailures_after, countP_failsFor hm, Int.natCast_add, Int.add_assoc]
  case quiet =>
    intro earlier now' later hsplit
    rcases cases_of hsplit with ⟨rfl, heq⟩ | ⟨rest, rfl, hrest⟩
    · cases heq
      exact ⟨managers, locks, metrics, log, hnext⟩
    · refine (awaiting_of_append hm hcheck hgrant hf hrest).quiet ?_
      rw [hrest] at hf
      exact hf.cons.2.append.2.cons.1
  case unwritten =>
    intro a ha
    rcases List.mem_append.mp ha with ha | ha
    · refine attemptAt?_manager_ne hm ?_ (Option.mem_toList.mp ha)
      cases hterm : m.phase.term? with
      | none => rfl
      | some term =>
        rw [Manager.Phase.held?_of_term? hterm] at hfree
        cases hfree
    · exact haw.attempts hf.cons.2 False.elim ha
  case succeeds =>
    intro e'
    rw [after_append]
    exact hend.starting_next_iff
  case resigns =>
    intro outcome
    have hbefore : ¬ w.Resigns i held outcome := by
      intro hr
      rw [hr.held? hm] at hfree
      cases hfree
    have hstays : (w.next (.step now (.manager i))).phaseOf? i ≠ some (.releasing held outcome) := by
      intro hph
      rw [isReading, hph] at hreads
      cases hreads
    rw [after_cons, haw.releasing_after_iff hf.cons.2 False.elim, or_iff_right hstays]
    constructor
    · rintro ⟨earlier, now', later, rfl, hr⟩
      exact ⟨_ :: earlier, now', later, rfl, hr⟩
    · rintro ⟨earlier, now', later, hsplit, hr⟩
      rcases cases_of hsplit with ⟨rfl, -⟩ | ⟨rest, rfl, hrest⟩
      · exact absurd hr hbefore
      · exact ⟨rest, now', later, hrest, hr⟩
  case shutDown =>
    obtain ⟨m₁, hm₁, hshut⟩ := isShutdown_after (.step now (.manager i) :: during) hm
    exact ⟨m₁, hm₁, by rw [hshut, hq]; simp⟩

/-- A manager that was granted a lease tries to read its checkpoints until it has read all of them:
the first time at once, and each further time after a pause that doubles up to a bound and does not
depend on the notices that come meanwhile. Until then every failure is counted, none of its watchers
asks for anything, it builds no sink and writes nothing. It gives up, and gives its lease back, if it
was shut down or finds in a wait that it has lost its lock, and for no other reason. -/
theorem restore_backs_off {w₀ : World} {before : List Event} {e : Event} {during : List Event}
    {i : Nat} {held : Held} {m : Manager} (hm : (w₀.after before).managers[i]? = some m)
    (hcheck : m.settings.coordination.check = .ok ())
    (hgrant : (w₀.after before).leaseCallAt? e = some ⟨i, held, false⟩)
    (hf : (w₀.after before).Fruitless i held (e :: during)) :
    (w₀.after before).BacksOff i held m (e :: during) ∧
      ∀ earlier later, during = earlier ++ later →
        ∀ term, w₀.HasBegun (before ++ e :: earlier) i term →
          ∀ now, (w₀.after (before ++ e :: earlier)).stepLoop? now term.watcher = none := by
  refine ⟨backsOff_of_grant hm hcheck hgrant hf, fun earlier later hsplit term hbegun now => ?_⟩
  obtain ⟨m', hm', -, hphase⟩ := (awaiting_of_append hm hcheck hgrant hf hsplit).manager
  rw [← after_append] at hm'
  exact hbegun.stepLoop?_eq_none hm' hphase.term? now

/-- A store that does not answer, and a lock service that grants one lease. -/
def unreachable : World := { World.empty with
  locks := .script [⟨0, .ok "session", false⟩] #[]
  store := ⟨.empty, true, false⟩ }

/-- A manager of the allocations is started and asks for its lock. -/
def upToGrant : List Event :=
  [.act (.spawn .allocations .standard), .step 0 (.manager 0), .step 0 (.manager 0)]

/-- The lock is granted. The first attempt fails, and a notice comes while the manager waits. The
store answers for the watermark of the second attempt. -/
def untilPartlyRead : List Event :=
  [.step 0 (.manager 0), .step 0 (.manager 0), .act .notify, .step 400 (.manager 0),
    .act (.failStore false false), .step 1000 (.manager 0), .step 1000 (.manager 0)]

/-- The store does not answer for the event time, nor for the third attempt, and the manager is shut
down while it waits. -/
def untilShutdown : List Event :=
  untilPartlyRead ++ [.act (.failStore true false), .step 1000 (.manager 0),
    .step 3000 (.manager 0), .step 3000 (.manager 0), .act (.shutDown 0), .step 4000 (.manager 0)]

/-- The second attempt has read the watermark and fails all the same. The attempts begin after one
second and after two more, the failures are counted, and the manager has given up and is about to give
its lease back. -/
theorem restore_backs_off_of_shutdown :
    let w := unreachable.after upToGrant
    let held : Held :=
      ⟨⟨Settings.Coordination.standard.lockKey Role.allocations.name, "session"⟩, 0, false⟩
    (w.after untilPartlyRead).isReading 0 = true ∧
      ((w.after untilPartlyRead).phaseOf? 0).bind Manager.Phase.restored? = some (held, 0) ∧
      w.starts 0 untilShutdown = [0, 1000, 3000] ∧
      w.failedReads 0 untilShutdown = [0, 1000, 3000] ∧
      (w.after untilShutdown).readFailures .allocations % UInt64.size = 3 ∧
      (w.after untilShutdown).leaseCallAt? (.step 4000 (.manager 0)) = some ⟨0, held, true⟩ ∧
      ∃ outcome earlier now later, untilShutdown = earlier ++ .step now (.manager 0) :: later ∧
        (w.after earlier).Resigns 0 held outcome := by
  intro w held
  have hm : w.managers[0]? =
      some ⟨.allocations, .standard, false, 250, .asking 0 ⟨0, .ok "session", false⟩⟩ := rfl
  have hcheck : Settings.standard.coordination.check = .ok () := by decide +kernel
  have hgrant : w.leaseCallAt? (.step 0 (.manager 0)) = some ⟨0, held, false⟩ := by decide +kernel
  have hf : w.Fruitless 0 held untilShutdown := ⟨by decide +kernel, by decide +kernel⟩
  obtain ⟨hbacksOff, -⟩ := restore_backs_off hm hcheck hgrant hf
  have hfailed : w.failedReads 0 untilShutdown = [0, 1000, 3000] := by decide +kernel
  have hcounted : (w.after untilShutdown).readFailures .allocations % UInt64.size =
      (w.readFailures .allocations + (w.failedReads 0 untilShutdown).length +
        w.failedReadsBeside .allocations 0 untilShutdown) % UInt64.size := hbacksOff.counted
  rw [hfailed, show w.failedReadsBeside .allocations 0 untilShutdown = 0 by decide +kernel]
    at hcounted
  have hrelease : (w.after untilShutdown).leaseCallAt? (.step 4000 (.manager 0)) =
      some ⟨0, held, true⟩ := by decide +kernel
  obtain ⟨-, outcome, hgivenUp⟩ := (hbacksOff.releases _).mp hrelease
  exact ⟨by decide +kernel, by decide +kernel, by decide +kernel, hfailed, hcounted, hrelease, outcome,
    (hbacksOff.resigns outcome).mp hgivenUp⟩

end World

end ChangeFeed.Engine
