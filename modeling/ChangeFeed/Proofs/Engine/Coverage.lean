import ChangeFeed.Proofs.Engine.Dispatch
import ChangeFeed.Proofs.Engine.Writes

/-!
# What a written watermark stands for

A watermark moves when changes are handed on, and is reported and written while the work on them
goes on.

* `FinishedBeforeWritten` says that the work on every change up to a written watermark is over.
  `not_finishedBeforeWritten`: that is not so.
* `covered_of_written` is what holds instead. Every change up to the watermark was handed on once,
  also one that only the next leader would look at. Its work has ended with all its messages
  accepted, or has ended with a failure that was counted, or is still under way; after the last
  write of a term none is, unless the call that stops the watcher gave up on it.
-/

namespace ChangeFeed.Engine

/-! ## Steps of a manager -/

namespace Manager

/-- The watermark that a manager has read for a term that it has not begun yet. -/
def Phase.restored? : Manager.Phase → Option (Held × Nat)
  | .restoring held _ (some watermark) | .starting held watermark _ => some (held, watermark)
  | _ => none

variable {w : World} {i : Nat} {m : Manager} {phase : Manager.Phase} {locks : Locks}
  {store : Checkpoint.Flaky} {watchers : Array Watcher}

/-- The watermark that a manager goes on with is the one in the checkpoint, or the one that it went
on with before. -/
theorem Move.restored_of_restored (hm : Move w i m phase locks store watchers) {held : Held}
    {watermark : Nat} (hph : phase.restored? = some (held, watermark)) :
    ∃ delay, m.phase = .restoring held delay (some watermark) ∨
      m.phase = .restoring held delay none ∧ w.store.restore m.checkpointKey = .ok watermark := by
  cases hm with
  | idles _ _ h h' hl => cases phase <;> simp_all [Phase.restored?, Phase.held?]
  | restores held' delay watermark' h hr =>
    cases hph
    exact ⟨delay, Or.inr ⟨h, hr⟩⟩
  | completes held' delay watermark' watermark? h hr =>
    cases hph
    rcases hr with rfl | ⟨rfl, hr⟩
    · exact ⟨delay, Or.inl h⟩
    · exact ⟨delay, Or.inr ⟨h, hr⟩⟩
  | reads _ hs hl ht hn =>
    rcases hn with ⟨term, h⟩ | ⟨held', delay, due, h⟩
    · rw [h] at hph
      cases hph
    · rw [h] at hph
      cases hph
  | hears term x watermark' rest _ h hx hq hp => rcases hp with ⟨rfl, -⟩ | rfl <;> cases hph
  | savesTime term last time' _ h hs => cases last <;> cases hph
  | finishes term outcome seen x result h hx hh => cases outcome <;> cases hph
  | releases held' outcome _ h hl => cases outcome <;> cases hph
  | _ => cases hph

/-- Before the last write of a term its watcher is stopped. -/
theorem Move.halted_of_last (hm : Move w i m phase locks store watchers) {term : Term} {v : Nat}
    (hph : phase = .saving term v true) :
    ∃ x result, w.watchers[term.watcher]? = some x ∧ x.halt = some (.ended result) := by
  cases hm with
  | idles _ _ h h' hl =>
    rw [hph] at h'
    cases h'
  | reads _ hs hl =>
    rw [hph] at hs
    cases hs
  | hears term' x watermark rest _ h hx hq hp => rcases hp with ⟨rfl, -⟩ | rfl <;> cases hph
  | savesTime term' last time _ h hs => cases last <;> cases hph
  | finishes term' outcome seen x result h hx hh =>
    cases outcome with
    | shutdown =>
      cases hph
      exact ⟨x, result, hx, hh⟩
    | lockLost => cases hph
    | failed e => cases hph
  | releases held outcome _ h hl => cases outcome <;> cases hph
  | _ => cases hph

end Manager

namespace World

variable {w : World} {e : Event}

/-! ## Terms -/

/-- A manager begins a term with an event: it starts a watcher at the watermark that it
restored. -/
def Begins (w : World) (e : Event) (i : Nat) (term : Term) : Prop :=
  ∃ now m m', e = .step now (.manager i) ∧ w.managers[i]? = some m ∧
    m.phase = .starting term.held term.persisted term.persistedTime ∧
    (w.next e).managers[i]? = some m' ∧ m'.phase = .leading term

/-- Whether a manager has begun a term during some events. -/
def HasBegun (w : World) (events : List Event) (i : Nat) (term : Term) : Prop :=
  ∃ before e later, events = before ++ e :: later ∧ (w.after before).Begins e i term

/-- Every watcher was started by a manager that began a term. -/
theorem hasBegun_of_lt {k : Nat} (h : w.watchers.size ≤ k) {events : List Event}
    (hk : k < (w.after events).watchers.size) :
    ∃ i term, w.HasBegun events i term ∧ term.watcher = k := by
  induction events generalizing w with
  | nil => exact absurd hk (Nat.not_lt.mpr h)
  | cons e rest ih =>
    by_cases hnext : k < (w.next e).watchers.size
    · obtain ⟨now, i, m, held, watermark, time, he, hm, hph, -, -, m', hm', hph'⟩ :=
        next_new_watcher (Array.getElem?_eq_getElem hnext) h
      exact ⟨i, ⟨held, k, watermark, time⟩,
        ⟨[], e, rest, rfl, now, m, m', he, hm, hph, hm', hph'⟩, rfl⟩
    · obtain ⟨i, term, ⟨before, e', later, heq, hbegins⟩, hw⟩ := ih (Nat.le_of_not_lt hnext) hk
      exact ⟨i, term, ⟨e :: before, e', later, by rw [heq]; rfl, hbegins⟩, hw⟩

theorem Begins.hasNew {i : Nat} {term : Term} (h : w.Begins e i term) :
    term.watcher = w.watchers.size ∧ (w.next e).HasNew term.watcher term.persisted := by
  obtain ⟨now, m, m', he, hm, hph, hm', hph'⟩ := h
  cases before hm' with
  | stepped now m₁ nextTick phase he' hm₁ hstep heq =>
    subst heq
    rw [hm] at hm₁
    cases hm₁
    have ht : phase.term? = some term := congrArg Manager.Phase.term? hph'
    rcases hstep.move.term_of_term ht with
      ⟨term', ht', -⟩ | ⟨held, watermark, time, x, hph₁, hterm, hw, hnew⟩
    · rw [hph] at ht'
      cases ht'
    · rw [hph] at hph₁
      cases hph₁
      have hk : term.watcher = w.watchers.size := by rw [hterm]
      exact ⟨hk, x, m.role, by rw [hw, hk, Array.getElem?_push_size], hnew⟩
  | same m₁ isShutdown hm₁ heq hno =>
    subst heq
    rw [hm] at hm₁
    cases hm₁
    rw [hph] at hph'
    cases hph'
  | new hbegun =>
    rw [hbegun] at hph'
    cases hph'

/-- What a manager is about to begin at was read from its checkpoint, unless it was about to begin
all along. -/
theorem restored_of_restored {i : Nat} {m : Manager} {held : Held} {watermark : Nat}
    {events : List Event} (hm : (w.after events).managers[i]? = some m)
    (hph : m.phase.restored? = some (held, watermark)) :
    (∃ m₀, w.managers[i]? = some m₀ ∧ m₀.phase.restored? = some (held, watermark)) ∨
      ∃ earlier later m₀ delay, events = earlier ++ later ∧
        (w.after earlier).managers[i]? = some m₀ ∧ m₀.phase = .restoring held delay none ∧
        (w.after earlier).store.restore m₀.checkpointKey = .ok watermark := by
  induction events generalizing w with
  | nil => exact Or.inl ⟨m, hm, hph⟩
  | cons e rest ih =>
    rcases ih hm with ⟨m₁, hm₁, hph₁⟩ | ⟨earlier, later, m₀, delay, rfl, hm₀, hph₀, hr⟩
    · cases before hm₁ with
      | stepped now m₀ nextTick phase he hm₀ hstep heq =>
        subst heq
        obtain ⟨delay, hph₀ | ⟨hph₀, hr⟩⟩ := hstep.move.restored_of_restored hph₁
        · exact Or.inl ⟨m₀, hm₀, by rw [hph₀]; rfl⟩
        · exact Or.inr ⟨[], e :: rest, m₀, delay, rfl, hm₀, hph₀, hr⟩
      | same m₀ isShutdown hm₀ heq hno =>
        subst heq
        exact Or.inl ⟨m₀, hm₀, hph₁⟩
      | new hbegun =>
        rw [hbegun] at hph₁
        cases hph₁
    · exact Or.inr ⟨e :: earlier, later, m₀, delay, rfl, hm₀, hph₀, hr⟩

def Staffed (w : World) : Prop :=
  ∀ (i : Nat) (m : Manager) (term : Term), w.managers[i]? = some m →
    m.phase.term? = some term → term.watcher < w.watchers.size

theorem Staffed.next (h : w.Staffed) (e : Event) : (w.next e).Staffed := by
  intro i m' term hm' ht
  have hsize := size_watchers_le_next w e
  cases before hm' with
  | stepped now m nextTick phase he hm hstep heq =>
    subst heq
    rcases hstep.move.term_of_term ht with
      ⟨term', ht', hw, -⟩ | ⟨held, watermark, time, x, -, hterm, hw, -⟩
    · rw [← hw]
      exact Nat.lt_of_lt_of_le (h i m term' hm ht') hsize
    · rw [hterm, hw, Array.size_push]
      exact Nat.lt_succ_self _
  | same m isShutdown hm heq hno =>
    subst heq
    exact Nat.lt_of_lt_of_le (h i m term hm ht) hsize
  | new hbegun =>
    rw [hbegun] at ht
    cases ht

theorem Staffed.after (h : w.Staffed) (events : List Event) : (w.after events).Staffed :=
  after_of_next (fun _ e h => h.next e) h events

theorem IsFresh.staffed (h : w.IsFresh) : w.Staffed :=
  fun i m term hm => by simp [h.managers] at hm

theorem IsFresh.owned (h : w.IsFresh) : w.Owned :=
  fun j p hp => by simp [h.publications] at hp

theorem Owned.handed_eq_nil (h : w.Owned) {k : Nat} (hk : w.watchers.size ≤ k) :
    w.handed k = [] := by
  refine List.map_eq_nil_iff.mpr (List.filter_eq_nil_iff.mpr fun p hp => ?_)
  have hlt : p.watcher < w.watchers.size := h.mem hp
  simpa using Nat.ne_of_lt (Nat.lt_of_lt_of_le hlt hk)

/-! ## Where the watermarks of a term come from -/

/-- Whether all watermarks that are kept in a term have a property. The term is the one of a
watcher. -/
structure Sourced (w : World) (k : Nat) (P : Nat → Prop) : Prop where
  lt : k < w.watchers.size
  watcher : ∀ x, w.watchers[k]? = some x → x.Carries P
  manager : ∀ (i : Nat) (m : Manager) (term : Term), w.managers[i]? = some m →
    m.phase.term? = some term → term.watcher = k → ∀ v ∈ m.phase.values, P v

/-- The manager that has just begun a term is the only one with its watcher. -/
theorem Begins.eq_leading {i j : Nat} {m : Manager} {term term' : Term} (h : w.Begins e i term)
    (hs : w.Staffed) (hm : (w.next e).managers[j]? = some m) (ht : m.phase.term? = some term')
    (hw : term'.watcher = term.watcher) : m.phase = .leading term := by
  obtain ⟨hk, -⟩ := h.hasNew
  obtain ⟨now, m₀, m', he, hm₀, hph, hm', hph'⟩ := h
  by_cases hij : j = i
  · subst hij
    rw [hm] at hm'
    cases hm'
    exact hph'
  · exfalso
    cases before hm with
    | stepped now' m₁ nextTick phase he' hm₁ hstep heq =>
      rw [he] at he'
      cases he'
      exact hij rfl
    | same m₁ isShutdown hm₁ heq hno =>
      subst heq
      have hlt : term'.watcher < w.watchers.size := hs j m₁ term' hm₁ ht
      omega
    | new hbegun =>
      rw [hbegun] at ht
      cases ht

theorem Begins.sourced {i : Nat} {term : Term} {P : Nat → Prop} (h : w.Begins e i term)
    (hs : w.Staffed) (hp : P term.persisted) : (w.next e).Sourced term.watcher P := by
  obtain ⟨-, x, role, hx, hnew⟩ := h.hasNew
  refine ⟨(Array.getElem?_eq_some_iff.mp hx).1, fun x' hx' => ?_, fun j m term' hm ht hw v hv => ?_⟩
  · rw [hx] at hx'
    cases hx'
    exact hnew.carries hp
  · rw [h.eq_leading hs hm ht hw] at hv
    rw [List.mem_singleton.mp hv]
    exact hp

/-- An event carries on a property that the watermark of the loop has after it. -/
theorem Sourced.next {k : Nat} {P Q : Nat → Prop} (h : w.Sourced k P) (hPQ : ∀ v, P v → Q v)
    (hq : ∀ x, (w.next e).watchers[k]? = some x → Q x.progress.watermark) :
    (w.next e).Sourced k Q := by
  have hlt := h.lt
  obtain ⟨x, hx⟩ : ∃ x, w.watchers[k]? = some x := ⟨_, Array.getElem?_eq_getElem hlt⟩
  obtain ⟨x', hx', hm⟩ := next_watcher e hx
  refine ⟨(Array.getElem?_eq_some_iff.mp hx').1, fun x₁ hx₁ => ?_, ?_⟩
  · rw [hx'] at hx₁
    cases hx₁
    exact hm.carries ((h.watcher x hx).mono hPQ) (hq x' hx')
  · intro i m' term hm' ht hk v hv
    cases before hm' with
    | stepped now m nextTick phase he hm hstep heq =>
      subst heq
      rcases hstep.move.term_of_term ht with
        ⟨term', ht', hw, -⟩ | ⟨held, r, time, x₁, -, hterm, -⟩
      · have hk' : term'.watcher = k := hw.trans hk
        refine hstep.move.values (fun v hv => hPQ v (h.manager i m term' hm ht' hk' v hv))
          (fun t y htt hy => ?_) (fun held delay v hph => ?_) v hv
        · rw [ht'] at htt
          cases htt
          rw [hk'] at hy
          exact (h.watcher y hy).mono hPQ
        · rw [hph] at ht'
          cases ht'
      · -- another term has another watcher
        rw [hterm] at hk
        exact absurd hk (Nat.ne_of_gt hlt)
    | same m isShutdown hm heq hno =>
      subst heq
      exact hPQ v (h.manager i m term hm ht hk v hv)
    | new hbegun =>
      rw [hbegun] at ht
      cases ht

/-- A watermark of a term is the one that it began at, or the index of a change that was handed
on. -/
def Reached (w : World) (k watermark v : Nat) : Prop :=
  v = watermark ∨ ∃ c ∈ w.handed k, c.index = v

theorem Reached.next {k watermark v : Nat} (h : w.Reached k watermark v) (e : Event) :
    (w.next e).Reached k watermark v := by
  rcases h with rfl | ⟨c, hc, hv⟩
  · exact Or.inl rfl
  · exact Or.inr ⟨c, by rw [handed_next]; exact List.mem_append_left _ hc, hv⟩

theorem Reached.after {k watermark v : Nat} (h : w.Reached k watermark v) (events : List Event) :
    (w.after events).Reached k watermark v :=
  after_of_next (P := fun w => w.Reached k watermark v) (fun _ e h => h.next e) h events

/-- What is kept in a term whose watcher has a number. -/
structure Grounded (w : World) (k watermark : Nat) : Prop where
  lt : k < w.watchers.size
  watcher : ∀ x, w.watchers[k]? = some x → x.Carries (w.Reached k watermark)
  manager : ∀ (i : Nat) (m : Manager) (term : Term), w.managers[i]? = some m →
    m.phase.term? = some term → term.watcher = k →
    ∀ v ∈ m.phase.values, w.Reached k watermark v
  last : ∀ (i : Nat) (m : Manager) (term : Term) (v : Nat), w.managers[i]? = some m →
    m.phase = .saving term v true → term.watcher = k →
    ∃ x result, w.watchers[k]? = some x ∧ x.halt = some (.ended result)

theorem Begins.grounded {i : Nat} {term : Term} (h : w.Begins e i term) (hs : w.Staffed) :
    (w.next e).Grounded term.watcher term.persisted := by
  have hsourced := h.sourced (P := (w.next e).Reached term.watcher term.persisted) hs (Or.inl rfl)
  refine ⟨hsourced.lt, hsourced.watcher, hsourced.manager, fun j m term' v hm hph hw => ?_⟩
  have hlead := h.eq_leading hs hm (by rw [hph]; rfl) hw
  rw [hph] at hlead
  cases hlead

theorem Grounded.next {k watermark : Nat} (h : w.Grounded k watermark) (e : Event) :
    (w.next e).Grounded k watermark := by
  obtain ⟨x, hx⟩ : ∃ x, w.watchers[k]? = some x := ⟨_, Array.getElem?_eq_getElem h.lt⟩
  have keep : ∀ v, w.Reached k watermark v → (w.next e).Reached k watermark v :=
    fun v hv => hv.next e
  have hsourced : (w.next e).Sourced k ((w.next e).Reached k watermark) := by
    refine Sourced.next ⟨h.lt, h.watcher, h.manager⟩ keep fun x₁ hx₁ => ?_
    have hprogress := keep _ (h.watcher x hx).progress
    obtain ⟨x₂, hx₂, hturn⟩ := next_turn hx e
    rw [hx₁] at hx₂
    cases hx₂
    cases ha : w.answerAt? k e with
    | none =>
      rw [ha] at hturn
      rw [hturn.1]
      exact hprogress
    | some answer =>
      rw [ha] at hturn
      obtain ⟨hp, hh⟩ := hturn
      rw [hp]
      cases answer with
      | error error => exact hprogress
      | ok page =>
        rcases Watch.Progress.after_watermark_eq x.progress page with heq | ⟨c, hc, heq⟩
        · rw [Watch.Progress.turn_ok, heq]
          exact hprogress
        · exact Or.inr ⟨c, by rw [hh]; exact List.mem_append_right _ hc, heq⟩
  have halted (hh : ∃ x result, w.watchers[k]? = some x ∧ x.halt = some (.ended result)) :
      ∃ x result, (w.next e).watchers[k]? = some x ∧ x.halt = some (.ended result) := by
    obtain ⟨x, result, hx, hh⟩ := hh
    obtain ⟨x', hx', hh'⟩ := HasStopped.next ⟨x, hx, hh⟩ e
    exact ⟨x', result, hx', hh'⟩
  refine ⟨hsourced.lt, hsourced.watcher, hsourced.manager, fun i m' term v hm' hph hk => ?_⟩
  cases before hm' with
  | stepped now m nextTick phase he hm hstep heq =>
    subst heq
    exact halted (hk ▸ hstep.move.halted_of_last hph)
  | same m isShutdown hm heq hno =>
    subst heq
    exact halted (h.last i m term v hm hph hk)
  | new hbegun =>
    rw [hbegun] at hph
    cases hph

theorem Grounded.after {k watermark : Nat} (h : w.Grounded k watermark) (events : List Event) :
    (w.after events).Grounded k watermark :=
  after_of_next (P := fun w => w.Grounded k watermark) (fun _ e h => h.next e) h events

/-! ## Changes up to a written watermark -/

/-- What a watermark covers that was written in a term. The term began at `start` with the watcher
`k`, and `later` are the events since then. -/
structure Covers (w : World) (k start : Nat) (later : List Event) (v : Nat) : Prop where
  /-- It is no other number than the index of a change that was handed on. -/
  reached : (w.after later).Reached k start v
  /-- A version up to it was handed on once, whether it was on a page that was read or will be on
  one that the next leader reads. -/
  once : ∀ more, Snapshots (Watch.pages (w.heard k later) ++ more) →
    (∀ page ∈ Watch.pages (w.heard k later), page.versions.Nodup) →
    ∀ page ∈ Watch.pages (w.heard k later) ++ more, ∀ version ∈ page.versions,
      start < version.2 → version.2 ≤ v →
        (((w.after later).handed k).map Change.version).count version = 1

/-- What was handed on in a term that has just begun is what a loop by itself hands on. -/
theorem handed_eq_run {k start : Nat} (hnew : w.HasNew k start) (hh : w.handed k = [])
    (later : List Event) :
    (w.after later).handed k =
      ((Watch.Progress.startingAt start).run (w.heard k later)).1.flatten := by
  obtain ⟨x, role, hx, hnew⟩ := hnew
  obtain ⟨x', -, hrun, hhanded⟩ := run_heard hx later
  rw [hnew.progress] at hrun
  rw [hhanded, hh, hrun, List.nil_append]

theorem Grounded.covers {k start : Nat} (h : w.Grounded k start) (hnew : w.HasNew k start)
    (hh : w.handed k = []) {later : List Event} {write : Write} (hw : write ∈ w.writes later)
    (hk : write.watcher = k) : w.Covers k start later write.value := by
  obtain ⟨earlier, e, rest, rfl, hwrite⟩ := mem_writes hw
  obtain ⟨now, i, m, term, -, hm, hph, -, -, hwatcher, -⟩ := writeAt?_eq_some_iff.mp hwrite
  have hvalue : write.value ∈ m.phase.values := by
    rw [hph]
    exact List.mem_cons_of_mem _ List.mem_cons_self
  have ht : m.phase.term? = some term := by rw [hph]; rfl
  have hreached := (h.after earlier).manager i m term hm ht (hwatcher ▸ hk) _ hvalue
  have hreached' := hreached.after (e :: rest)
  rw [← after_append] at hreached'
  refine ⟨hreached', fun more hs hn page hpage version hversion hlt hle => ?_⟩
  rcases hreached' with heq | ⟨c, hc, heq⟩
  · omega
  · rw [handed_eq_run hnew hh] at hc ⊢
    exact Watch.Progress.count_run_of_le hs hn hc hpage hversion hlt (heq ▸ hle)

/-- After the last write of a term no work of its watcher is under way, unless the call that stops
the watcher gave up on some. -/
theorem Grounded.quiet_of_last {k start : Nat} (h : w.Grounded k start) (hnew : w.HasNew k start)
    {later : List Event} {write : Write} (hw : write ∈ w.writes later) (hk : write.watcher = k)
    (hlast : write.last = true) :
    (w.after later).isQuiet k = true ∨ w.givesUp k later = true := by
  obtain ⟨earlier, e, rest, rfl, hwrite⟩ := mem_writes hw
  obtain ⟨now, i, m, term, -, hm, hph, -, -, hwatcher, -⟩ := writeAt?_eq_some_iff.mp hwrite
  rw [hlast] at hph
  obtain ⟨x, result, hx, hhalt⟩ := (h.after earlier).last i m term _ hm hph (hwatcher ▸ hk)
  obtain ⟨x', hx', hhalt'⟩ := after_watcher
    (P := fun x => x.halt = some (.ended result)) (fun _ _ _ _ _ _ hm hh => hm.halt_of_ended hh)
    hx hhalt (e :: rest)
  rw [← after_append] at hx'
  obtain ⟨x₀, role, hx₀, hnew⟩ := hnew
  have hsettled : w.Settled k x₀ := by
    refine ⟨hnew.ordered, fun halt hh => ?_⟩
    rw [hnew.halt] at hh
    cases hh
  obtain ⟨x'', hx'', hs | hg⟩ := hsettled.after hx₀ (earlier ++ e :: rest)
  · rw [hx'] at hx''
    cases hx''
    exact Or.inl (hs.quiet _ hhalt' rfl)
  · exact Or.inr hg

/-- What a written watermark stands for, at any time of a term and in any order of events: every
change from the start of the term up to it was handed on, and the work on it either has ended, with
all its messages accepted or with a failure that was counted, or is still under way. -/
theorem covered_of_written {w₀ : World} (hfresh : w₀.IsFresh) {before : List Event} {e : Event}
    {i : Nat} {term : Term} (hbegins : (w₀.after before).Begins e i term) (later : List Event) :
    let w₁ := (w₀.after before).next e
    let w := w₁.after later
    (∃ earlier between m delay, before = earlier ++ between ∧
      (w₀.after earlier).managers[i]? = some m ∧ m.phase = .restoring term.held delay none ∧
      (w₀.after earlier).store.restore m.checkpointKey = .ok term.persisted) ∧
    w.handed term.watcher =
      ((Watch.Progress.startingAt term.persisted).run (w₁.heard term.watcher later)).1.flatten ∧
    (∀ write ∈ w₁.writes later, write.watcher = term.watcher →
      w₁.Covers term.watcher term.persisted later write.value ∧
        (write.last = true →
          w.isQuiet term.watcher = true ∨ w₁.givesUp term.watcher later = true)) ∧
    (∀ (j : Nat) (p : Publication), w.publications[j]? = some p →
      p.Accounts (w₀.due j (before ++ e :: later)) (w₀.accepted j (before ++ e :: later))) ∧
    ∀ role, w.failures role % UInt64.size =
      (w₀.failures role + w.failed role) % UInt64.size := by
  intro w₁ w
  have howned := hfresh.owned.after before
  have hg := hbegins.grounded (hfresh.staffed.after before)
  obtain ⟨hk, hnew⟩ := hbegins.hasNew
  have hw : w = w₀.after (before ++ e :: later) := by rw [after_append, after_cons]
  have hh : w₁.handed term.watcher = [] := by
    obtain ⟨now, m, m', rfl, -⟩ := hbegins
    rw [handed_next, howned.handed_eq_nil (Nat.le_of_eq hk.symm)]
    rfl
  refine ⟨?_, handed_eq_run hnew hh later, fun write hwrite hwatcher => ?_, fun j p hp => ?_,
    fun role => ?_⟩
  · obtain ⟨now, m, m', -, hm, hph, -⟩ := hbegins
    rcases restored_of_restored hm (by rw [hph]; rfl) with ⟨m₀, hm₀, -⟩ | ⟨earlier, between, m₀, delay, h⟩
    · rw [hfresh.managers] at hm₀
      cases hm₀
    · exact ⟨earlier, between, m₀, delay, h⟩
  · exact ⟨hg.covers hnew hh hwrite hwatcher, hg.quiet_of_last hnew hwrite hwatcher⟩
  · rw [hw] at hp
    exact accounts_after (by rw [hfresh.publications]; rfl) hp
  · have hcount := hfresh.owned.failures_after (before ++ e :: later) role
    have hzero : w₀.failed role = 0 := by
      rw [failed, hfresh.publications]
      rfl
    rw [← hw, hzero] at hcount
    simpa using hcount

/-! ## A slow record -/

/-- Whether the work on every change that was handed on in a term and is not beyond a watermark
written in it has ended. -/
def FinishedBeforeWritten : Prop :=
  ∀ (w₀ : World) (before : List Event) (e : Event) (i : Nat) (term : Term) (later : List Event),
    w₀.IsFresh → (w₀.after before).Begins e i term →
    ∀ write ∈ ((w₀.after before).next e).writes later, write.watcher = term.watcher →
      ∀ p ∈ (w₀.after (before ++ e :: later)).publications.toList, p.watcher = term.watcher →
        term.persisted < p.change.index → p.change.index ≤ write.value →
          Publication.isEnded p = true

/-- A system with one change, whose record is answered after a minute. -/
def slowRecord : World :=
  { World.empty with
    outlets := #[recordingOutlet]
    orchestrator := ⟨[⟨0, .ok ⟨[⟨"a", 7, .null⟩], 7⟩⟩], [("a", ⟨60000, .ok "1"⟩)]⟩ }

/-- A manager gets the lock and restores the checkpoint. -/
def restoring : List Event := .act (.spawn .jobs .standard) :: managerTurns 0 0 3

def slowTerm : Term :=
  ⟨⟨⟨Settings.Coordination.standard.lockKey Role.jobs.name, "nomad-firehose-jobs-1"⟩, 0, false⟩,
    0, 0, 0⟩

/-- The change is read and handed on, and its record is asked for. The watermark is reported and
written long before the record comes. -/
def reporting : List Event :=
  [.step 0 (.loop 0), .step 0 (.loop 0), .step 0 (.publication 0), .step 5000 (.reporter 0),
    .step 5000 (.reporter 0)] ++ managerTurns 5000 0 2

theorem begins_slowTerm :
    (slowRecord.after restoring).Begins (.step 0 (.manager 0)) 0 slowTerm :=
  ⟨0, _, _, rfl, rfl, rfl, rfl, rfl⟩

theorem writes_reporting :
    ((slowRecord.after restoring).next (.step 0 (.manager 0))).writes reporting =
      [⟨Settings.Coordination.standard.checkpointKey Role.jobs.name, 7, 0, false, true⟩] := by
  decide +kernel

/-- When the watermark is written, the work on the change up to it is still under way. -/
theorem not_finishedBeforeWritten : ¬ FinishedBeforeWritten := by
  intro h
  have hfresh : slowRecord.IsFresh := ⟨rfl, rfl, rfl, Or.inl rfl⟩
  have hwork : ∃ p ∈ (slowRecord.after
      (restoring ++ .step 0 (.manager 0) :: reporting)).publications.toList,
      p.watcher = 0 ∧ p.change.index = 7 ∧ Publication.isEnded p = false := by
    decide +kernel
  obtain ⟨p, hp, hwatcher, hindex, hended⟩ := hwork
  have hwrite : (⟨Settings.Coordination.standard.checkpointKey Role.jobs.name, 7, 0, false, true⟩ :
      Write) ∈ ((slowRecord.after restoring).next (.step 0 (.manager 0))).writes reporting := by
    rw [writes_reporting]
    exact List.mem_singleton_self _
  have hdone := h slowRecord restoring (.step 0 (.manager 0)) 0 slowTerm reporting hfresh
    begins_slowTerm _ hwrite rfl p hp hwatcher (by rw [hindex]; decide) (by rw [hindex])
  rw [hended] at hdone
  cases hdone

/-- The watermark covers the change while its record is asked for. -/
theorem covered_of_written_of_slow_record :
    let w₁ := (slowRecord.after restoring).next (.step 0 (.manager 0))
    w₁.Covers 0 0 reporting 7 ∧
      (((w₁.after reporting).handed 0).map Change.version).count ("a", 7) = 1 := by
  have hfresh : slowRecord.IsFresh := ⟨rfl, rfl, rfl, Or.inl rfl⟩
  obtain ⟨-, -, hcovers, -⟩ := covered_of_written hfresh begins_slowTerm reporting
  have hc := (hcovers _ (by rw [writes_reporting]; exact List.mem_singleton_self _) rfl).1
  have hpages : Watch.pages (((slowRecord.after restoring).next (.step 0 (.manager 0))).heard 0
      reporting) = [⟨[⟨"a", 7, .null⟩], 7⟩] := rfl
  have hs : Snapshots [(⟨[⟨"a", 7, .null⟩], 7⟩ : Page)] := ⟨by decide, List.isChain_singleton _⟩
  refine ⟨hc, hc.once [] ?_ ?_ ⟨[⟨"a", 7, .null⟩], 7⟩ ?_ ("a", 7) ?_ ?_ ?_⟩
  · rw [List.append_nil]
    exact hpages ▸ hs
  · exact hpages ▸ by decide
  · exact hpages ▸ by simp
  · decide
  · decide
  · decide

end World

end ChangeFeed.Engine
