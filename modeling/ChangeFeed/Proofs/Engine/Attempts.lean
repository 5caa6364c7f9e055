import ChangeFeed.Proofs.Engine.Coverage

/-!
# What a manager tries to write

A manager writes watermarks and event times, each under a term, and a write may fail.

* `attempts` are the writes that managers try in a run. `next_store`: no task does anything else to
  the store.
* `Leaves`: a manager leaves the event loop of a term. `attemptsIn_eq_nil`: if it has lost its lock,
  it tries to write nothing more under that term.
* `Closing`: if it is shut down, it waits for its watcher to stop, tries to write a watermark, tries
  to write an event time at most, and is done. `closing_after` is a whole run of that, in which the
  watermark is tried after two turns of the manager.
-/

namespace ChangeFeed.Engine

/-! ## Steps of a manager -/

namespace Manager

variable {w : World} {i : Nat} {m : Manager} {phase : Manager.Phase} {locks : Locks}
  {store : Checkpoint.Flaky} {watchers : Array Watcher} {term : Term} {outcome : Outcome}
  {seen v : Nat} {last : Bool}

theorem Move.of_stopping (hm : Move w i m phase locks store watchers)
    (hph : m.phase = .stopping term outcome seen) :
    ∃ result, w.HasStopped term.watcher result ∧
      phase = World.afterHalt term outcome seen result := by
  cases hm with
  | finishes term' outcome' seen' x result hph' hx hh =>
    rw [hph] at hph'
    cases hph'
    exact ⟨result, ⟨x, hx, hh⟩, rfl⟩
  | _ => simp_all [Phase.held?, Phase.term?]

theorem Move.seen_eq (hm : Move w i m phase locks store watchers) (hph : m.phase = .leading term)
    (hph' : phase = .stopping term outcome seen) :
    ∃ x, w.watchers[term.watcher]? = some x ∧ seen = x.progress.watermark := by
  cases hm with
  | halts term' outcome' x h hx =>
    cases hph'
    exact ⟨x, hx, rfl⟩
  | hears term' x watermark rest _ h hx hq hp => rcases hp with ⟨rfl, -⟩ | rfl <;> cases hph'
  | _ => simp_all [Phase.held?, Phase.term?]

theorem Move.of_saving (hm : Move w i m phase locks store watchers)
    (hph : m.phase = .saving term v last) :
    ∃ term', phase = .savingTime term' last ∧ term'.watcher = term.watcher := by
  cases hm with
  | saves term' watermark last' hph' hs =>
    rw [hph] at hph'
    cases hph'
    exact ⟨_, rfl, rfl⟩
  | savesNot term' watermark last' hph' hs =>
    rw [hph] at hph'
    cases hph'
    exact ⟨_, rfl, rfl⟩
  | _ => simp_all [Phase.held?, Phase.term?, Phase.isSaving]

theorem Move.store_eq (hm : Move w i m phase locks store watchers) (hs : m.phase.isSaving = false)
    (ht : ∀ term last, m.phase ≠ .savingTime term last) : store = w.store := by
  cases hm with
  | saves term watermark last hph hf =>
    rw [hph] at hs
    cases hs
  | savesTime term last time _ hph hs => exact absurd hph (ht term last)
  | _ => rfl

theorem Move.of_savingTime (hm : Move w i m phase locks store watchers)
    (hph : m.phase = .savingTime term true) : phase = .releasing term.held .shutdown := by
  cases hm with
  | savesTime term' last time store hph' hs =>
    rw [hph] at hph'
    cases hph'
    rfl
  | _ => simp_all [Phase.held?, Phase.term?]

end Manager

/-! ## Attempts -/

/-- A write that a manager tries. -/
structure Attempt where
  manager : Nat
  term : Term
  key : String
  value : Nat
  /-- Whether the value is an event time. -/
  isTime : Bool
  ok : Bool
  deriving DecidableEq, Inhabited

namespace World

/-- The write that a manager tries with an event. -/
def attemptAt? (w : World) : Event → Option Attempt
  | .step _ (.manager i) =>
    match w.managers[i]? with
    | none => none
    | some m =>
      match m.phase with
      | .saving term watermark _ =>
        some ⟨i, term, m.checkpointKey, watermark, false, !w.store.writesFail⟩
      | .savingTime term _ =>
        match m.eventTimeKey?, w.watchers[term.watcher]? with
        | some key, some x =>
          if x.clock ≤ term.persistedTime then none
          else some ⟨i, term, key, x.clock.toNat, true, !w.store.writesFail⟩
        | _, _ => none
      | _ => none
  | _ => none

/-- The writes that managers try during some events, in order. -/
def attempts (w : World) : List Event → List Attempt
  | [] => []
  | e :: events => (w.attemptAt? e).toList ++ (w.next e).attempts events

/-- The writes that a manager tries during some events under the term of a watcher. -/
def attemptsIn (w : World) (i k : Nat) (events : List Event) : List Attempt :=
  (w.attempts events).filter fun a => a.manager = i && a.term.watcher = k

variable {w w' : World} {e : Event} {a : Attempt} {i k : Nat}

theorem attemptAt?_cases (h : w.attemptAt? e = some a) :
    ∃ now m, e = .step now (.manager a.manager) ∧ w.managers[a.manager]? = some m ∧
      ((∃ last, m.phase = .saving a.term a.value last) ∨
        (∃ last, m.phase = .savingTime a.term last) ∧ a.isTime = true) := by
  unfold attemptAt? at h
  split at h
  · rename_i now i
    split at h
    · cases h
    · rename_i m hm
      split at h
      · rename_i term watermark last hph
        cases h
        exact ⟨now, m, rfl, hm, Or.inl ⟨last, hph⟩⟩
      · rename_i term last hph
        split at h
        · split at h
          · cases h
          · cases h
            exact ⟨now, m, rfl, hm, Or.inr ⟨⟨last, hph⟩, rfl⟩⟩
        · cases h
      · cases h
  · cases h

theorem attemptAt?_of_saving {now : Nat} {m : Manager} {term : Term} {v : Nat} {last : Bool}
    (hm : w.managers[i]? = some m) (hph : m.phase = .saving term v last) :
    w.attemptAt? (.step now (.manager i)) =
      some ⟨i, term, m.checkpointKey, v, false, !w.store.writesFail⟩ := by
  simp [attemptAt?, hm, hph]

/-! ## The store -/

@[simp] theorem enter_store (w : World) (now i : Nat) (m : Manager) (phase : Manager.Phase) :
    (w.enter now i m phase).store = w.store := by
  unfold enter
  split <;> rfl

theorem saveWatermark_store (w : World) (now : Nat) (m : Manager) (term : Term) (v : Nat)
    (last : Bool) :
    (w.saveWatermark now m term v last).2.store = (w.store.persist m.checkpointKey v).2 := by
  rcases hs : w.save now m.checkpointKey v with ⟨ok, w₁⟩
  obtain ⟨⟨log, rfl⟩, -⟩ := save_spec hs
  cases ok <;> simp [saveWatermark, hs]

theorem next_store_of_saving (now : Nat) {m : Manager} {term : Term} {v : Nat} {last : Bool}
    (hm : w.managers[i]? = some m) (hph : m.phase = .saving term v last) :
    (w.next (.step now (.manager i))).store = (w.store.persist m.checkpointKey v).2 := by
  simp only [World.next, step?, stepManager?, hm, hph, Option.bind_eq_bind, Option.bind_some,
    Option.pure_def, Option.getD_some, enter_store, saveWatermark_store]

theorem next_store_of_savingTime (now : Nat) {m : Manager} {term : Term} {last : Bool}
    (hm : w.managers[i]? = some m) (hph : m.phase = .savingTime term last) :
    (w.next (.step now (.manager i))).store =
      match w.attemptAt? (.step now (.manager i)) with
      | some a => (w.store.persist a.key a.value).2
      | none => w.store := by
  have hnext :
      (w.next (.step now (.manager i))).store = (w.saveEventTime now m term last).2.store := by
    simp only [World.next, step?, stepManager?, hm, hph, Option.bind_eq_bind, Option.bind_some,
      Option.pure_def, Option.getD_some, enter_store]
  rw [hnext]
  simp only [attemptAt?, hm, hph]
  cases hk : m.eventTimeKey? with
  | none => simp [saveEventTime, hk]
  | some key =>
    cases hx : w.watchers[term.watcher]? with
    | none => simp [saveEventTime, hk, hx]
    | some x =>
      by_cases hc : x.clock ≤ term.persistedTime
      · simp [saveEventTime, hk, hx, hc]
      · rcases hs : w.save now key x.clock.toNat with ⟨ok, w₁⟩
        obtain ⟨⟨log, rfl⟩, -⟩ := save_spec hs
        cases ok <;> simp [saveEventTime, hk, hx, hc, hs]

/-- No task changes the store but by the write that it tries. -/
theorem next_store (w : World) (now : Nat) (task : Task) :
    (w.next (.step now task)).store =
      match w.attemptAt? (.step now task) with
      | some a => (w.store.persist a.key a.value).2
      | none => w.store := by
  by_cases hman : ∃ i m, task = .manager i ∧ w.managers[i]? = some m
  · obtain ⟨i, m, rfl, hm⟩ := hman
    cases hph : m.phase with
    | saving term v last => rw [next_store_of_saving now hm hph, attemptAt?_of_saving hm hph]
    | savingTime term last => exact next_store_of_savingTime now hm hph
    | _ =>
      have hno : w.attemptAt? (.step now (.manager i)) = none := by simp [attemptAt?, hm, hph]
      rw [hno]
      obtain ⟨m', -, -, ⟨now', he, hstep⟩ | ⟨-, hstep⟩⟩ :=
        next_manager_cases (.step now (.manager i)) hm
      · exact hstep.move.store_eq (by rw [hph]; rfl) (by simp [hph])
      · have hrest : w.next (.step now (.manager i)) = w := by
          simp [World.next, step?, hstep now rfl]
        rw [hrest]
  · have hno : w.attemptAt? (.step now task) = none := by
      refine Option.eq_none_iff_forall_ne_some.mpr fun a ha => ?_
      obtain ⟨now', m, he, hm, -⟩ := attemptAt?_cases ha
      cases he
      exact hman ⟨_, m, rfl, hm⟩
    rw [hno]
    have h := next_spec w (.step now task)
    generalize w.next (.step now task) = w' at h ⊢
    cases h with
    | rests _ _ hw hr => exact store_eq_of_rule hr
    | loop _ k x x' _ hx h => exact store_eq_of_rule h.rule
    | watcher _ k _ htask x x' _ hx hw hr => exact store_eq_of_rule hr
    | publication _ j p p' x _ hp hx h => exact store_eq_of_rule h.rule
    | manager _ i m phase _ hm h => exact absurd ⟨i, m, rfl, hm⟩ hman

/-! ## After the event loop -/

/-- A manager leaves the event loop of a term with an event, for a reason, and notes a watermark. -/
def Leaves (w : World) (e : Event) (i : Nat) (term : Term) (outcome : Outcome) (seen : Nat) :
    Prop :=
  ∃ now m m', e = .step now (.manager i) ∧ w.managers[i]? = some m ∧ m.phase = .leading term ∧
    (w.next e).managers[i]? = some m' ∧ m'.phase = .stopping term outcome seen

/-- What a manager notes when it leaves the event loop is the watermark of the watcher. -/
theorem Leaves.seen_eq {term : Term} {outcome : Outcome} {seen : Nat}
    (h : w.Leaves e i term outcome seen) :
    ∃ x, w.watchers[term.watcher]? = some x ∧ seen = x.progress.watermark := by
  obtain ⟨now, m, m', -, hm, hph, hm', hph'⟩ := h
  obtain ⟨m₁, hm₁, -, ⟨now', -, hstep⟩ | ⟨hsame, -⟩⟩ := next_manager_cases e hm
  · rw [hm'] at hm₁
    cases hm₁
    exact hstep.move.seen_eq hph hph'
  · rw [hm'] at hm₁
    cases hm₁
    rw [hph, hph'] at hsame
    cases hsame

theorem attemptsIn_cons (i k : Nat) (e : Event) (events : List Event) :
    w.attemptsIn i k (e :: events) = w.attemptsIn i k [e] ++ (w.next e).attemptsIn i k events := by
  simp [attemptsIn, attempts]

theorem attemptsIn_append (i k : Nat) (events more : List Event) :
    w.attemptsIn i k (events ++ more) =
      w.attemptsIn i k events ++ (w.after events).attemptsIn i k more := by
  induction events generalizing w with
  | nil => rfl
  | cons e rest ih =>
    rw [List.cons_append, attemptsIn_cons, ih, ← List.append_assoc, ← attemptsIn_cons]
    rfl

/-- A manager that is not about to write under a term tries nothing under it. -/
theorem attemptsIn_singleton_eq_nil
    (h : ∀ m term, w.managers[i]? = some m → m.phase.term? = some term → term.watcher = k →
      ∃ outcome seen, m.phase = .stopping term outcome seen) :
    w.attemptsIn i k [e] = [] := by
  refine List.filter_eq_nil_iff.mpr fun a ha => ?_
  have ha' : w.attemptAt? e = some a := by simpa [attempts] using ha
  obtain ⟨now, m, -, hm, hcases⟩ := attemptAt?_cases ha'
  simp only [Bool.and_eq_true, decide_eq_true_eq, not_and]
  rintro rfl hk
  rcases hcases with ⟨last, hph⟩ | ⟨⟨last, hph⟩, -⟩
  · obtain ⟨outcome, seen, hph'⟩ := h m a.term hm (by rw [hph]; rfl) hk
    rw [hph] at hph'
    cases hph'
  · obtain ⟨outcome, seen, hph'⟩ := h m a.term hm (by rw [hph]; rfl) hk
    rw [hph] at hph'
    cases hph'

theorem attemptsIn_of_stopping {m : Manager} {term : Term} {outcome : Outcome} {seen : Nat}
    (hm : w.managers[i]? = some m) (hph : m.phase = .stopping term outcome seen) :
    w.attemptsIn i k [e] = [] := by
  refine attemptsIn_singleton_eq_nil fun m' term' hm' ht _ => ?_
  rw [hm] at hm'
  cases hm'
  rw [hph] at ht
  cases ht
  exact ⟨_, _, hph⟩

/-- A manager is in no term with a watcher. -/
def Gone (w : World) (i k : Nat) : Prop :=
  ∀ m term, w.managers[i]? = some m → m.phase.term? = some term → term.watcher ≠ k

theorem Gone.next (h : w.Gone i k) (hk : k < w.watchers.size) (e : Event) :
    (w.next e).Gone i k := by
  intro m' term hm' ht hw
  cases before hm' with
  | stepped now m nextTick phase he hm hstep heq =>
    subst heq
    rcases hstep.move.term_of_term ht with ⟨term', ht', hw', -⟩ | ⟨held, r, time, x, -, hterm, -⟩
    · exact h m term' hm ht' (hw'.trans hw)
    · -- a new term has a new watcher
      rw [hterm] at hw
      exact absurd hw (Nat.ne_of_gt hk)
  | same m isShutdown hm heq hno =>
    subst heq
    exact h m term hm ht hw
  | new hbegun =>
    rw [hbegun] at ht
    cases ht

theorem Gone.attemptsIn (h : w.Gone i k) : w.attemptsIn i k [e] = [] :=
  attemptsIn_singleton_eq_nil fun m term hm ht hw => absurd hw (h m term hm ht)

theorem gone_of_phase {m : Manager} (hm : w.managers[i]? = some m) (ht : m.phase.term? = none) :
    w.Gone i k := by
  intro m' term hm' ht'
  rw [hm] at hm'
  cases hm'
  rw [ht] at ht'
  cases ht'

/-! ## A lost lock -/

/-- A manager that has lost its lock waits for its watcher to stop, or has left the term. -/
def Losing (w : World) (i : Nat) (term : Term) (seen : Nat) : Prop :=
  term.watcher < w.watchers.size ∧
    ((∃ m, w.managers[i]? = some m ∧ m.phase = .stopping term .lockLost seen) ∨
      w.Gone i term.watcher)

theorem Losing.next {term : Term} {seen : Nat} (h : w.Losing i term seen) (e : Event) :
    (w.next e).Losing i term seen := by
  obtain ⟨hlt, ⟨m, hm, hph⟩ | hgone⟩ := h
  · refine ⟨Nat.lt_of_lt_of_le hlt (size_watchers_le_next w e), ?_⟩
    obtain ⟨m', hm', -, ⟨now, he, hstep⟩ | ⟨hsame, -⟩⟩ := next_manager_cases e hm
    · obtain ⟨result, -, hph'⟩ := hstep.move.of_stopping hph
      exact Or.inr (gone_of_phase hm' (by rw [hph']; rfl))
    · exact Or.inl ⟨m', hm', hsame.trans hph⟩
  · exact ⟨Nat.lt_of_lt_of_le hlt (size_watchers_le_next w e), Or.inr (hgone.next hlt e)⟩

theorem Losing.attemptsIn {term : Term} {seen : Nat} (h : w.Losing i term seen)
    (events : List Event) : w.attemptsIn i term.watcher events = [] := by
  induction events generalizing w with
  | nil => rfl
  | cons e rest ih =>
    have hnow : w.attemptsIn i term.watcher [e] = [] := by
      obtain ⟨-, ⟨m, hm, hph⟩ | hgone⟩ := h
      · exact attemptsIn_of_stopping hm hph
      · exact hgone.attemptsIn
    rw [attemptsIn_cons, hnow, ih (h.next e), List.nil_append]

/-- A term that ends because its lock was lost ends without a write. -/
theorem attemptsIn_eq_nil {term : Term} {seen : Nat} (h : w.Leaves e i term .lockLost seen)
    (events : List Event) : (w.next e).attemptsIn i term.watcher events = [] := by
  obtain ⟨x, hx, -⟩ := h.seen_eq
  obtain ⟨now, m, m', -, -, -, hm', hph'⟩ := h
  obtain ⟨x', hx', -⟩ := next_watcher e hx
  have hlosing : (w.next e).Losing i term seen :=
    ⟨(Array.getElem?_eq_some_iff.mp hx').1, Or.inl ⟨m', hm', hph'⟩⟩
  exact hlosing.attemptsIn events

/-! ## A shutdown -/

/-- The watermark that a watcher has come to: the one that the call that stopped it answers, or the
one that it had before if the call fails. -/
def finalWatermark (seen : Nat) : Except Error Nat → Nat
  | .ok watermark => watermark
  | .error _ => seen

/-- The watermark that a manager tries to write when it is shut down. -/
def lastAttempt (i : Nat) (term : Term) (seen : Nat) (key : String) (result : Except Error Nat)
    (ok : Bool) : Attempt :=
  ⟨i, term, key, max (finalWatermark seen result) term.persisted, false, ok⟩

theorem afterHalt_shutdown (term : Term) (seen : Nat) (result : Except Error Nat) :
    afterHalt term .shutdown seen result =
      .saving term (max (finalWatermark seen result) term.persisted) true := by
  cases result <;> rfl

/-- How far a manager that was shut down has come with a term, by the number of turns that it needs
at most before the last watermark was tried, and what it has tried to write. -/
inductive Closing (w : World) (i : Nat) (term : Term) (seen : Nat) (key : String) :
    Nat → List Attempt → Prop where
  | waits (m : Manager) (hm : w.managers[i]? = some m) (hkey : m.checkpointKey = key)
      (hph : m.phase = .stopping term .shutdown seen) : Closing w i term seen key 2 []
  | writes (m : Manager) (result : Except Error Nat) (hm : w.managers[i]? = some m)
      (hkey : m.checkpointKey = key) (hr : w.HasStopped term.watcher result)
      (hph : m.phase = .saving term (max (finalWatermark seen result) term.persisted) true) :
      Closing w i term seen key 1 []
  | writesTime (m : Manager) (result : Except Error Nat) (ok : Bool) (term' : Term)
      (hm : w.managers[i]? = some m) (hr : w.HasStopped term.watcher result)
      (hph : m.phase = .savingTime term' true) (hw : term'.watcher = term.watcher) :
      Closing w i term seen key 0 [lastAttempt i term seen key result ok]
  | ends (result : Except Error Nat) (ok : Bool) (times : List Attempt)
      (hr : w.HasStopped term.watcher result) (hgone : w.Gone i term.watcher)
      (hlength : times.length ≤ 1) (htimes : ∀ a ∈ times, a.isTime = true) :
      Closing w i term seen key 0 (lastAttempt i term seen key result ok :: times)

theorem attemptsIn_of_ne (he : ∀ now, e ≠ .step now (.manager i)) (k : Nat) :
    w.attemptsIn i k [e] = [] := by
  refine List.filter_eq_nil_iff.mpr fun a ha => ?_
  have ha' : w.attemptAt? e = some a := by simpa [attempts] using ha
  obtain ⟨now, m, hstep, -⟩ := attemptAt?_cases ha'
  simp only [Bool.and_eq_true, decide_eq_true_eq, not_and]
  rintro rfl
  exact absurd hstep (he now)

theorem attemptsIn_of_saving {now : Nat} {m : Manager} {term : Term} {v : Nat} {last : Bool}
    (hm : w.managers[i]? = some m) (hph : m.phase = .saving term v last) :
    w.attemptsIn i term.watcher [.step now (.manager i)] =
      [⟨i, term, m.checkpointKey, v, false, !w.store.writesFail⟩] := by
  simp [attemptsIn, attempts, attemptAt?_of_saving hm hph]

theorem length_attemptsIn_le (e : Event) : (w.attemptsIn i k [e]).length ≤ 1 := by
  have hone : (w.attempts [e]).length ≤ 1 := by
    cases ha : w.attemptAt? e <;> simp [attempts, ha]
  exact Nat.le_trans (List.length_filter_le ..) hone

theorem isTime_of_savingTime {m : Manager} {term : Term} {last : Bool}
    (hm : w.managers[i]? = some m) (hph : m.phase = .savingTime term last) :
    ∀ a ∈ w.attemptsIn i k [e], a.isTime = true := by
  intro a ha
  obtain ⟨ha, hcond⟩ := List.mem_filter.mp ha
  have hmine : a.manager = i ∧ a.term.watcher = k := by simpa using hcond
  have ha' : w.attemptAt? e = some a := by simpa [attempts] using ha
  obtain ⟨now, m', -, hm', ⟨last', hph'⟩ | ⟨-, htime⟩⟩ := attemptAt?_cases ha'
  · rw [hmine.1, hm] at hm'
    cases hm'
    rw [hph] at hph'
    cases hph'
  · exact htime

theorem stepManager?_of_stopping {now : Nat} {m : Manager} {term : Term} {outcome : Outcome}
    {seen : Nat} {result : Except Error Nat} (hm : w.managers[i]? = some m)
    (hph : m.phase = .stopping term outcome seen) (hr : w.HasStopped term.watcher result) :
    w.stepManager? now i ≠ none := by
  obtain ⟨x, hx, hh⟩ := hr
  simp [stepManager?, hm, hph, hx, hh]

theorem stepManager?_of_savingTime {now : Nat} {m : Manager} {term : Term} {last : Bool}
    (hm : w.managers[i]? = some m) (hph : m.phase = .savingTime term last) :
    w.stepManager? now i ≠ none := by
  simp [stepManager?, hm, hph]

section

variable {term : Term} {seen n : Nat} {key : String} {made : List Attempt}

theorem Leaves.closing (h : w.Leaves e i term .shutdown seen)
    (hkey : ∀ m, w.managers[i]? = some m → m.checkpointKey = key) :
    (w.next e).Closing i term seen key 2 [] := by
  obtain ⟨now, m, m', -, hm, -, hm', hph'⟩ := h
  obtain ⟨m₁, hm₁, hkey', -⟩ := next_manager_cases e hm
  rw [hm'] at hm₁
  cases hm₁
  exact .waits m' hm' (hkey'.trans (hkey m hm)) hph'

theorem Closing.le_two (h : w.Closing i term seen key n made) : n ≤ 2 := by
  cases h <;> omega

theorem Closing.ne_nil (h : w.Closing i term seen key 0 made) : made ≠ [] := by
  cases h <;> simp

/-- What a manager that was shut down has tried to write under the term. -/
theorem Closing.made_cases (h : w.Closing i term seen key n made) :
    made = [] ∧ (∃ m, w.managers[i]? = some m ∧
        (m.phase = .stopping term .shutdown seen ∨ ∃ v, m.phase = .saving term v true)) ∨
      ∃ result ok times, w.HasStopped term.watcher result ∧
        made = lastAttempt i term seen key result ok :: times ∧
        times.length ≤ 1 ∧ ∀ a ∈ times, a.isTime = true := by
  cases h with
  | waits m hm hkey hph => exact Or.inl ⟨rfl, m, hm, Or.inl hph⟩
  | writes m result hm hkey hr hph => exact Or.inl ⟨rfl, m, hm, Or.inr ⟨_, hph⟩⟩
  | writesTime m result ok term' hm hr hph hw =>
    exact Or.inr ⟨result, ok, [], hr, rfl, Nat.zero_le _, by simp⟩
  | ends result ok times hr hgone hlength htimes =>
    exact Or.inr ⟨result, ok, times, hr, rfl, hlength, htimes⟩

theorem Closing.next (h : w.Closing i term seen key n made) (e : Event) :
    ∃ n', (w.next e).Closing i term seen key n' (made ++ w.attemptsIn i term.watcher [e]) ∧ n' ≤ n ∧
      ((∃ result, w.HasStopped term.watcher result) → (∃ now, e = .step now (.manager i)) →
        n' ≤ n - 1) := by
  cases h with
  | waits m hm hkey hph =>
    rw [attemptsIn_of_stopping hm hph]
    obtain ⟨m', hm', hkey', ⟨now, he, hstep⟩ | ⟨hsame, hwaits⟩⟩ := next_manager_cases e hm
    · obtain ⟨result, hr, hph'⟩ := hstep.move.of_stopping hph
      rw [afterHalt_shutdown] at hph'
      exact ⟨1, .writes m' result hm' (hkey'.trans hkey) (hr.next e) hph', by omega, by omega⟩
    · refine ⟨2, .waits m' hm' (hkey'.trans hkey) (hsame.trans hph), Nat.le_refl _, ?_⟩
      rintro ⟨result, hr⟩ ⟨now, he⟩
      exact absurd (hwaits now he) (stepManager?_of_stopping hm hph hr)
  | writes m result hm hkey hr hph =>
    obtain ⟨m', hm', hkey', ⟨now, he, hstep⟩ | ⟨hsame, hwaits⟩⟩ := next_manager_cases e hm
    · obtain ⟨term', hph', hw⟩ := hstep.move.of_saving hph
      have hmade : w.attemptsIn i term.watcher [e] =
          [lastAttempt i term seen key result (!w.store.writesFail)] := by
        rw [he, attemptsIn_of_saving hm hph, hkey]
        rfl
      rw [hmade]
      exact ⟨0, .writesTime m' result _ term' hm' (hr.next e) hph' hw, by omega, by omega⟩
    · have he (now : Nat) : e ≠ .step now (.manager i) := fun he =>
        absurd (hwaits now he) (stepManager?_of_saving hm hph)
      rw [attemptsIn_of_ne he]
      refine ⟨1, .writes m' result hm' (hkey'.trans hkey) (hr.next e) (hsame.trans hph),
        Nat.le_refl _, ?_⟩
      rintro - ⟨now, hstep⟩
      exact absurd hstep (he now)
  | writesTime m result ok term' hm hr hph hw =>
    obtain ⟨m', hm', -, ⟨now, he, hstep⟩ | ⟨hsame, hwaits⟩⟩ := next_manager_cases e hm
    · have hgone : (w.next e).Gone i term.watcher :=
        gone_of_phase hm' (by rw [hstep.move.of_savingTime hph]; rfl)
      exact ⟨0, .ends result ok _ (hr.next e) hgone (length_attemptsIn_le e)
        (isTime_of_savingTime hm hph), by omega, by omega⟩
    · have he (now : Nat) : e ≠ .step now (.manager i) := fun he =>
        absurd (hwaits now he) (stepManager?_of_savingTime hm hph)
      rw [attemptsIn_of_ne he]
      exact ⟨0, .writesTime m' result ok term' hm' (hr.next e) (hsame.trans hph) hw,
        Nat.le_refl _, by omega⟩
  | ends result ok times hr hgone hlength htimes =>
    rw [hgone.attemptsIn, List.append_nil]
    exact ⟨0, .ends result ok times (hr.next e) (hgone.next hr.lt e) hlength htimes,
      Nat.le_refl _, by omega⟩

/-- Whether an event is a turn of a manager. -/
def isTurnOf (i : Nat) : Event → Bool
  | .step _ (.manager j) => j = i
  | _ => false

theorem isTurnOf_iff : isTurnOf i e = true ↔ ∃ now, e = .step now (.manager i) := by
  constructor
  · intro h
    unfold isTurnOf at h
    split at h
    · rename_i now j
      exact ⟨now, by rw [decide_eq_true_eq.mp h]⟩
    · cases h
  · rintro ⟨now, rfl⟩
    simp [isTurnOf]

/-- The number of turns that a manager is given. -/
def turnsOf (i : Nat) (events : List Event) : Nat := events.countP (isTurnOf i)

theorem closing_after (h : w.Closing i term seen key n made) (events : List Event) :
    ∃ n', (w.after events).Closing i term seen key n'
        (made ++ w.attemptsIn i term.watcher events) ∧
      ((∃ result, w.HasStopped term.watcher result) → n' ≤ n - turnsOf i events) := by
  induction events generalizing w n made with
  | nil => exact ⟨n, by simpa [attemptsIn, attempts] using h, fun _ => by simp [turnsOf]⟩
  | cons e rest ih =>
    obtain ⟨n₁, h₁, hle, hturn⟩ := h.next e
    obtain ⟨n₂, h₂, hrest⟩ := ih h₁
    rw [List.append_assoc, ← attemptsIn_cons] at h₂
    refine ⟨n₂, h₂, fun hr => ?_⟩
    have hrest' : n₂ ≤ n₁ - turnsOf i rest := by
      obtain ⟨result, hr⟩ := hr
      exact hrest ⟨result, hr.next e⟩
    have hcons : turnsOf i (e :: rest) = turnsOf i rest + if isTurnOf i e then 1 else 0 :=
      List.countP_cons
    by_cases he : isTurnOf i e = true
    · have hlt := hturn hr (isTurnOf_iff.mp he)
      rw [if_pos he] at hcons
      omega
    · rw [if_neg he] at hcons
      omega

end

end World

end ChangeFeed.Engine
