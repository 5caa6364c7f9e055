import ChangeFeed.Proofs.Engine.Values

/-!
# Who holds a lock

Managers compete for locks, lose them without notice, and may go on for a while as if they still
held them. What is never shared is a lease: every grant is one manager's, and of two managers with
leases of one lock at most one is honoured.

* `next_manager` and `next_leases` say what an event does to a manager and to the leases.
* `Governed` is the invariant, and `Governed.unique` what it is for.
-/

namespace ChangeFeed.Engine

/-! ## One step -/

namespace Manager

variable {w : World} {i : Nat} {m : Manager} {phase : Manager.Phase} {locks : Locks}
  {store : Checkpoint.Flaky} {watchers : Array Watcher}

/-- The lease that a manager has after a step is the one that it had, or was granted with the
step. -/
theorem Move.held_of_held (hm : Move w i m phase locks store watchers) {held : Held}
    (hh : phase.held? = some held) :
    m.phase.held? = some held ∧ Leases.Wanes w.locks.leases locks.leases ∨
      Leases.Grants w.locks.leases held locks.leases ∧
        (held.lease.key = m.lockKey ∨ (i, held.lease.key) ∈ w.locks.waits) := by
  have rests {held' : Held} (h : m.phase.held? = some held') (heq : held' = held) :
      m.phase.held? = some held ∧ Leases.Wanes w.locks.leases w.locks.leases ∨
        Leases.Grants w.locks.leases held w.locks.leases ∧
          (held.lease.key = m.lockKey ∨ (i, held.lease.key) ∈ w.locks.waits) :=
    Or.inl ⟨heq ▸ h, .refl _⟩
  cases hm with
  | idles _ _ h h' =>
    rw [h'] at hh
    cases hh
  | obtains held' _ h hs hk hg =>
    cases hh
    exact Or.inr ⟨hg, hk⟩
  | restores held' delay watermark hph hr => exact rests (by rw [hph]; rfl) (by cases hh; rfl)
  | completes held' delay watermark watermark? hph hr =>
    exact rests (by rw [hph]; rfl) (by cases hh; rfl)
  | backsOff held' delay due watermark? hph => exact rests (by rw [hph]; rfl) (by cases hh; rfl)
  | triesAgain held' delay due next hph => exact rests (by rw [hph]; rfl) (by cases hh; rfl)
  | gives held' outcome h ht => exact rests h (by cases hh; rfl)
  | leads held' watermark time x hph hx => exact rests (by rw [hph]; rfl) (by cases hh; rfl)
  | reads _ hs hl => exact Or.inl ⟨hh, hl⟩
  | hears term x watermark rest _ hph hx hq hp =>
    rcases hp with ⟨rfl, -⟩ | rfl <;> exact rests (by rw [hph]; rfl) (by cases hh; rfl)
  | halts term outcome x hph hx => exact rests (by rw [hph]; rfl) (by cases hh; rfl)
  | saves term watermark last hph hs => exact rests (by rw [hph]; rfl) (by cases hh; rfl)
  | savesNot term watermark last hph hs => exact rests (by rw [hph]; rfl) (by cases hh; rfl)
  | savesTime term last time _ hph hs =>
    cases last <;> exact rests (by rw [hph]; rfl) (by cases hh; rfl)
  | finishes term outcome seen x result hph hx hhalt =>
    cases outcome <;> exact rests (by rw [hph]; rfl) (by cases hh; rfl)
  | releases held' outcome _ hph hl => cases outcome <;> cases hh

theorem Move.leases (hm : Move w i m phase locks store watchers) :
    Leases.Wanes w.locks.leases locks.leases ∨
      ∃ held, Leases.Grants w.locks.leases held locks.leases := by
  cases hm with
  | idles _ _ h h' hl => exact Or.inl (.of_eq hl)
  | obtains held _ h hs hk hg => exact Or.inr ⟨held, hg⟩
  | reads _ hs hl => exact Or.inl hl
  | releases held outcome _ hph hl => exact Or.inl hl
  | _ => exact Or.inl (.refl _)

end Manager

namespace World

variable {w : World}

/-! ## One event -/

theorem next_leases (w : World) (e : Event) :
    Leases.Wanes w.locks.leases (w.next e).locks.leases ∨
      ∃ held, Leases.Grants w.locks.leases held (w.next e).locks.leases := by
  have h := next_spec w e
  generalize w.next e = w' at h ⊢
  have same (hr : w'.rule = w.rule) : Leases.Wanes w.locks.leases w'.locks.leases :=
    .of_eq (by rw [locks_eq_of_rule hr])
  cases h with
  | rests e w' hw hr => exact Or.inl (same hr)
  | loop now k x x' w' hx h => exact Or.inl (same h.rule)
  | watcher now k task htask x x' w' hx hw hr => exact Or.inl (same hr)
  | publication now j p p' x w' hp hx h => exact Or.inl (same h.rule)
  | manager now i m phase w' hm h => exact h.move.leases
  | act a w' h => exact h.locks.leases

/-- Where a manager comes from: it took a step, or it was as it is but for the wish that it ends, or
it was just started. -/
inductive Before (w : World) (e : Event) (i : Nat) (m' : Manager) : Prop where
  | stepped (now : Nat) (m : Manager) (nextTick : Nat) (phase : Manager.Phase)
      (he : e = .step now (.manager i)) (hm : w.managers[i]? = some m)
      (h : ManagerStep w i m phase (w.next e)) (hm' : m' = { m with nextTick, phase })
  | same (m : Manager) (isShutdown : Bool) (hm : w.managers[i]? = some m)
      (hm' : m' = { m with isShutdown })
      (he : ∀ now, e = .step now (.manager i) → w.stepManager? now i = none)
  | new (h : m'.phase = .begun) (hn : w.managers[i]? = none)

theorem before {e : Event} {i : Nat} {m' : Manager} (hm' : (w.next e).managers[i]? = some m') :
    Before w e i m' := by
  have h := next_spec w e
  have same {w' : World} (hr : w'.rule = w.rule) (hm' : w'.managers[i]? = some m')
      (he : ∀ now, e = .step now (.manager i) → w.stepManager? now i = none) :
      Before w e i m' := by
    rw [managers_eq_of_rule hr] at hm'
    exact .same m' m'.isShutdown hm' rfl he
  generalize heq : w.next e = w' at h hm'
  cases h with
  | rests e w' hw hr hf ht hh hd ha hm => exact same hr hm' fun now he => hm now i he
  | loop now k x x' w' hx h => exact same h.rule hm' (by simp)
  | watcher now k task htask x x' w' hx hw hr =>
    exact same hr hm' (by rcases htask with rfl | rfl <;> simp)
  | publication now j p p' x w' hp hx h => exact same h.rule hm' (by simp)
  | manager now j m phase w' hm h =>
    obtain ⟨nextTick, hms⟩ := h.managers
    by_cases hij : j = i
    · subst hij
      have hj : j < w.managers.size := (Array.getElem?_eq_some_iff.mp hm).1
      rw [hms, Array.getElem?_setIfInBounds_self_of_lt hj] at hm'
      exact .stepped now m nextTick phase rfl hm (heq ▸ h) (Option.some.inj hm').symm
    · rw [hms, Array.getElem?_setIfInBounds_ne hij] at hm'
      exact .same m' m'.isShutdown hm' rfl (by simp [hij])
  | act a w' h =>
    by_cases hi : i < w.managers.size
    · obtain ⟨isShutdown, hm, -⟩ := h.manager i _ (Array.getElem?_eq_getElem hi)
      rw [hm] at hm'
      exact .same _ isShutdown (Array.getElem?_eq_getElem hi) (Option.some.inj hm').symm (by simp)
    · have hsize := Nat.le_of_not_lt hi
      exact .new (h.newcomer i m' hm' hsize) (Array.getElem?_eq_none_iff.mpr hsize)

/-- A manager stays, with its role and its settings. -/
theorem next_manager (e : Event) {i : Nat} {m : Manager} (hm : w.managers[i]? = some m) :
    ∃ m', (w.next e).managers[i]? = some m' ∧ m'.role = m.role ∧ m'.settings = m.settings := by
  have h := next_spec w e
  generalize w.next e = w' at h ⊢
  have same (hr : w'.rule = w.rule) :
      ∃ m', w'.managers[i]? = some m' ∧ m'.role = m.role ∧ m'.settings = m.settings :=
    ⟨m, by rw [managers_eq_of_rule hr, hm], rfl, rfl⟩
  cases h with
  | rests e w' hw hr => exact same hr
  | loop now k x x' w' hx h => exact same h.rule
  | watcher now k task htask x x' w' hx hw hr => exact same hr
  | publication now j p p' x w' hp hx h => exact same h.rule
  | manager now j m₁ phase w' hm₁ h =>
    obtain ⟨nextTick, hms⟩ := h.managers
    by_cases hij : j = i
    · subst hij
      rw [hm] at hm₁
      cases hm₁
      have hj : j < w.managers.size := (Array.getElem?_eq_some_iff.mp hm).1
      exact ⟨{ m with nextTick, phase },
        by rw [hms, Array.getElem?_setIfInBounds_self_of_lt hj], rfl, rfl⟩
    · exact ⟨m, by rw [hms, Array.getElem?_setIfInBounds_ne hij, hm], rfl, rfl⟩
  | act a w' h =>
    obtain ⟨isShutdown, hm', -⟩ := h.manager i m hm
    exact ⟨_, hm', rfl, rfl⟩

/-- A manager takes a step with an event, or is in the phase in which it was. -/
theorem next_manager_cases (e : Event) {i : Nat} {m : Manager} (hm : w.managers[i]? = some m) :
    ∃ m', (w.next e).managers[i]? = some m' ∧ m'.checkpointKey = m.checkpointKey ∧
      ((∃ now, e = .step now (.manager i) ∧ ManagerStep w i m m'.phase (w.next e)) ∨
        m'.phase = m.phase ∧ ∀ now, e = .step now (.manager i) → w.stepManager? now i = none) := by
  obtain ⟨m', hm', hrole, hsettings⟩ := next_manager e hm
  refine ⟨m', hm', by rw [Manager.checkpointKey, Manager.checkpointKey, hrole, hsettings], ?_⟩
  cases before hm' with
  | stepped now m₁ nextTick phase he hm₁ h heq =>
    subst heq
    rw [hm] at hm₁
    cases hm₁
    exact Or.inl ⟨now, he, h⟩
  | same m₁ isShutdown hm₁ heq he =>
    subst heq
    rw [hm] at hm₁
    cases hm₁
    exact Or.inr ⟨rfl, he⟩
  | new hbegun hn =>
    rw [hm] at hn
    cases hn

/-- Who waits for a lock waited before, or asked for its own lock. -/
theorem next_waits {e : Event} {i : Nat} {key : String}
    (hq : (i, key) ∈ (w.next e).locks.waits) :
    (i, key) ∈ w.locks.waits ∨ ∃ m, w.managers[i]? = some m ∧ m.lockKey = key := by
  have h := next_spec w e
  generalize w.next e = w' at h hq
  have same (hr : w'.rule = w.rule) : (i, key) ∈ w.locks.waits := locks_eq_of_rule hr ▸ hq
  cases h with
  | rests e w' hw hr => exact Or.inl (same hr)
  | loop now k x x' w' hx h => exact Or.inl (same h.rule)
  | watcher now k task htask x x' w' hx hw hr => exact Or.inl (same hr)
  | publication now j p p' x w' hp hx h => exact Or.inl (same h.rule)
  | manager now j m phase w' hm h =>
    rcases h.waits _ hq with hq | hq
    · exact Or.inl hq
    · cases hq
      exact Or.inr ⟨m, hm, rfl⟩
  | act a w' h => exact Or.inl (h.locks.waits ▸ hq)

/-! ## Leases of all managers -/

/-- A system before anything happens: without tasks, and without leases. -/
structure IsFresh (w : World) : Prop where
  watchers : w.watchers = #[]
  publications : w.publications = #[]
  managers : w.managers = #[]
  locks : w.locks = .table .empty ∨ ∃ grants, w.locks = .script grants #[]

/-- Every lease of a manager is for its own lock and for nobody else. -/
structure Governed (w : World) : Prop where
  sound : w.locks.leases.Sound
  waits : ∀ i key, (i, key) ∈ w.locks.waits →
    ∃ m : Manager, w.managers[i]? = some m ∧ m.lockKey = key
  knows : ∀ (i : Nat) (m : Manager) (held : Held), w.managers[i]? = some m →
    m.phase.held? = some held → w.locks.leases.Knows held
  key : ∀ (i : Nat) (m : Manager) (held : Held), w.managers[i]? = some m →
    m.phase.held? = some held → held.lease.key = m.lockKey
  apart : ∀ (i j : Nat) (m m' : Manager) (held held' : Held), i ≠ j →
    w.managers[i]? = some m → w.managers[j]? = some m' → m.phase.held? = some held →
    m'.phase.held? = some held' → w.locks.leases.Apart held held'

theorem IsFresh.governed (h : w.IsFresh) : w.Governed where
  sound := by
    rcases h.locks with hl | ⟨grants, hl⟩
    · rw [hl]
      trivial
    · rw [hl]
      intro k hk
      obtain ⟨m, hm, -⟩ := Leases.isOpenAt_eq_true.mp hk
      cases hm
  waits := fun i key hq => by
    rcases h.locks with hl | ⟨grants, hl⟩ <;> rw [hl] at hq <;> cases hq
  knows := fun i m held hm => by simp [h.managers] at hm
  key := fun i m held hm => by simp [h.managers] at hm
  apart := fun i j m m' held held' _ hm => by simp [h.managers] at hm

namespace Governed

/-- Of the managers with leases of one lock at most one is honoured. -/
theorem unique (h : w.Governed) {i j : Nat} {m m' : Manager} {held held' : Held}
    (hm : w.managers[i]? = some m) (hm' : w.managers[j]? = some m')
    (hh : m.phase.held? = some held) (hh' : m'.phase.held? = some held')
    (hk : m.lockKey = m'.lockKey) (ho : w.locks.leases.honours held = true)
    (ho' : w.locks.leases.honours held' = true) : i = j := by
  refine Decidable.byContradiction fun hij => ?_
  have hkey : held.lease.key = held'.lease.key := by
    rw [h.key i m held hm hh, h.key j m' held' hm' hh', hk]
  have hapart := h.apart i j m m' held held' hij hm hm' hh hh'
  exact Leases.honours_unique h.sound ho ho' hkey hapart

/-- A lease that is honoured after an event and was known before was honoured before. -/
theorem honours_of_next {e : Event} {held : Held} (hk : w.locks.leases.Knows held)
    (ho : (w.next e).locks.leases.honours held = true) : w.locks.leases.honours held = true := by
  rcases next_leases w e with hw | ⟨held', hg⟩
  · exact hw.honours_of ho
  · exact hg.honours_of hk ho

theorem held_cases {e : Event} {i : Nat} {m' : Manager} {held : Held}
    (hm' : (w.next e).managers[i]? = some m') (hh : m'.phase.held? = some held) :
    ∃ m, w.managers[i]? = some m ∧ m'.lockKey = m.lockKey ∧
      (m.phase.held? = some held ∨
        (∃ now, e = .step now (.manager i)) ∧
          Leases.Grants w.locks.leases held (w.next e).locks.leases ∧
          (held.lease.key = m.lockKey ∨ (i, held.lease.key) ∈ w.locks.waits)) := by
  cases before hm' with
  | stepped now m nextTick phase he hm h hm' =>
    subst hm'
    refine ⟨m, hm, rfl, ?_⟩
    rcases h.move.held_of_held hh with ⟨hheld, -⟩ | hg
    · exact Or.inl hheld
    · exact Or.inr ⟨⟨now, he⟩, hg⟩
  | same m isShutdown hm hm' he =>
    subst hm'
    exact ⟨m, hm, rfl, Or.inl hh⟩
  | new hph =>
    rw [hph] at hh
    cases hh

theorem next (h : w.Governed) (e : Event) : (w.next e).Governed where
  sound := by
    rcases next_leases w e with hw | ⟨held, hg⟩
    · exact hw.sound h.sound
    · exact hg.sound
  waits := fun i key hq => by
    have hm : ∃ m, w.managers[i]? = some m ∧ m.lockKey = key := by
      rcases next_waits hq with hq | hm
      · exact h.waits i key hq
      · exact hm
    obtain ⟨m, hm, hk⟩ := hm
    obtain ⟨m', hm', hrole, hsettings⟩ := next_manager e hm
    exact ⟨m', hm', by rw [← hk, Manager.lockKey, Manager.lockKey, hrole, hsettings]⟩
  knows := fun i m' held hm' hh => by
    obtain ⟨m, hm, -, hold | ⟨-, hg, -⟩⟩ := held_cases hm' hh
    · have hk := h.knows i m held hm hold
      rcases next_leases w e with hw | ⟨held', hg⟩
      · exact hw.knows hk
      · exact hg.knows hk
    · exact hg.knows_self
  key := fun i m' held hm' hh => by
    obtain ⟨m, hm, hkey, hold | ⟨-, -, hk | hq⟩⟩ := held_cases hm' hh
    · rw [hkey]
      exact h.key i m held hm hold
    · rw [hkey, hk]
    · obtain ⟨m₁, hm₁, hk⟩ := h.waits i _ hq
      rw [hm] at hm₁
      cases hm₁
      rw [hkey, hk]
  apart := fun i j m₁ m₂ held₁ held₂ hij hm₁ hm₂ hh₁ hh₂ => by
    obtain ⟨m, hm, -, hi⟩ := held_cases hm₁ hh₁
    obtain ⟨m', hm', -, hj⟩ := held_cases hm₂ hh₂
    -- one event grants to one manager only, so at least one of the two leases is an old one
    rcases hi with hi | ⟨⟨now, he⟩, hg, -⟩
    · rcases hj with hj | ⟨-, hg, -⟩
      · have ha := h.apart i j m m' held₁ held₂ hij hm hm' hi hj
        rcases next_leases w e with hw | ⟨held, hg⟩
        · exact hw.apart ha
        · exact hg.apart ha
      · exact (hg.apart_self (h.knows i m held₁ hm hi)).symm
    · rcases hj with hj | ⟨⟨now', he'⟩, -⟩
      · exact hg.apart_self (h.knows j m' held₂ hm' hj)
      · rw [he] at he'
        cases he'
        exact absurd rfl hij

end Governed

end World

end ChangeFeed.Engine
