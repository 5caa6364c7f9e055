import ChangeFeed.Proofs.Engine.Dispatch
import ChangeFeed.Proofs.Engine.Writes

/-!
# The shared checkpoint

Several managers of one role write to one checkpoint. Each compares a watermark only with the last
one that it restored or wrote itself, and none looks at its lease when it writes.

* `checkpoint_decreases_iff`: as long as every write was made under a lease that the lock service
  still honoured, the checkpoint has not gone back, and the next event takes it back exactly if it
  writes less under a lease that is not honoured any more.
* `checkpoint_decreases_iff_of_late_write`: this happens. A manager that is shut down waits for its
  last publications, and then writes its watermark although it has lost the lock meanwhile, over the
  larger watermark of the new holder.
-/

namespace ChangeFeed.Engine

/-! ## Words -/

namespace World

variable {w : World} {e : Event}

/-- Whether all watermarks of a system are words of 64 bits. -/
structure InWords (w : World) : Prop where
  watcher : ∀ (k : Nat) (x : Watcher), w.watchers[k]? = some x → x.Carries (· < UInt64.size)
  manager : ∀ (i : Nat) (m : Manager), w.managers[i]? = some m →
    ∀ v ∈ m.phase.values, v < UInt64.size

/-- Whether all indices on the pages that loops take up with an event are words of 64 bits. -/
def ReadsWords (w : World) (e : Event) : Prop :=
  ∀ k page, w.answerAt? k e = some (.ok page) → ∀ c ∈ page.changes, c.index < UInt64.size

theorem IsFresh.inWords (h : w.IsFresh) : w.InWords where
  watcher := fun k x hx => by simp [h.watchers] at hx
  manager := fun i m hm => by simp [h.managers] at hm

/-- A watermark that moves does so to an index of a page. -/
theorem progress_lt {k : Nat} {x x' : Watcher} (hr : w.ReadsWords e)
    (hm : Watcher.Move w e k x (w.answerAt? k e) x') (h : x.progress.watermark < UInt64.size) :
    x'.progress.watermark < UInt64.size := by
  have hp := hm.progress_eq
  cases ha : w.answerAt? k e with
  | none =>
    rw [ha] at hp
    rw [hp]
    exact h
  | some answer =>
    rw [ha] at hp
    rw [hp]
    cases answer with
    | error error => exact h
    | ok page =>
      simp only [Option.map_some, Option.getD_some, Watch.Progress.turn_ok]
      rcases Watch.Progress.after_watermark_eq x.progress page with heq | ⟨c, hc, heq⟩
      · rw [heq]
        exact h
      · rw [← heq]
        exact hr k page ha c (Watch.Progress.mem_fresh.mp hc).2.1

theorem InWords.next (h : w.InWords) (hr : w.ReadsWords e) : (w.next e).InWords where
  watcher := fun k x' hx' => by
    by_cases hk : k < w.watchers.size
    · have hx : w.watchers[k]? = some w.watchers[k] := Array.getElem?_eq_getElem hk
      obtain ⟨x₁, hx₁, hm⟩ := next_watcher e hx
      rw [hx'] at hx₁
      cases hx₁
      have hcarries := h.watcher k _ hx
      exact hm.carries hcarries (progress_lt hr hm hcarries.progress)
    · obtain ⟨now, i, m, held, watermark, time, -, hm, hph, -, hnew, -⟩ :=
        next_new_watcher hx' (Nat.le_of_not_lt hk)
      refine hnew.carries (h.manager i m hm watermark ?_)
      rw [hph]
      exact List.mem_cons_self
  manager := fun i m' hm' => by
    cases before hm' with
    | stepped now m nextTick phase he hm hstep hm' =>
      subst hm'
      refine hstep.move.values (h.manager i m hm) (fun term x _ hx => h.watcher _ x hx) ?_
      intro held delay v _ hv
      rw [← Checkpoint.Flaky.restore_eq_ok hv]
      exact Checkpoint.Store.restore_lt _ _
    | same m isShutdown hm hm' he =>
      subst hm'
      exact h.manager i m hm
    | new hph =>
      intro v hv
      rw [hph] at hv
      cases hv

end World

/-! ## Beliefs -/

namespace Manager

/-- The watermark that a manager takes the checkpoint for. -/
def Phase.belief? : Manager.Phase → Option Nat
  | .restoring _ _ watermark? => watermark?
  | .starting _ watermark _ => some watermark
  | .leading term | .saving term _ _ | .savingTime term _ | .stopping term _ _ =>
    some term.persisted
  | _ => none

variable {w : World} {i : Nat} {m : Manager} {phase : Manager.Phase} {locks : Locks}
  {store : Checkpoint.Flaky} {watchers : Array Watcher}

/-- A manager believes what it believed before or what it has just restored, and then it has not
written; or it believes what it has just written. -/
theorem Move.belief_cases (hm : Move w i m phase locks store watchers) {v : Nat}
    (hb : phase.belief? = some v) :
    m.phase.held? = phase.held? ∧
      ((m.phase.isSaving = true → w.store.writesFail = true) ∧
        (m.phase.belief? = some v ∨ w.store.restore m.checkpointKey = .ok v) ∨
      ∃ term last, m.phase = .saving term v last ∧ w.store.writesFail = false) := by
  have keeps (hh : m.phase.held? = phase.held?) (hs : m.phase.isSaving = false)
      (hb : m.phase.belief? = some v ∨ w.store.restore m.checkpointKey = .ok v) :
      m.phase.held? = phase.held? ∧
        ((m.phase.isSaving = true → w.store.writesFail = true) ∧
          (m.phase.belief? = some v ∨ w.store.restore m.checkpointKey = .ok v) ∨
        ∃ term last, m.phase = .saving term v last ∧ w.store.writesFail = false) :=
    ⟨hh, Or.inl ⟨fun h => absurd h (by rw [hs]; decide), hb⟩⟩
  cases hm with
  | idles _ _ h h' hl => cases phase <;> simp_all [Phase.belief?, Phase.held?]
  | obtains held _ h hs hk hg => cases hb
  | restores held delay watermark hph hr =>
    cases hb
    exact keeps (by rw [hph]; rfl) (by rw [hph]; rfl) (Or.inr hr)
  | completes held delay watermark watermark? hph hr =>
    cases hb
    refine keeps (by rw [hph]; rfl) (by rw [hph]; rfl) ?_
    rw [hph]
    exact hr.imp id And.right
  | backsOff held delay due watermark? hph => cases hb
  | triesAgain held delay due next hph => cases hb
  | gives held outcome h ht => cases hb
  | leads held watermark time x hph hx =>
    exact keeps (by rw [hph]; rfl) (by rw [hph]; rfl) (Or.inl (by rw [hph]; exact hb))
  | reads _ hs hl => exact keeps rfl hs (Or.inl hb)
  | hears term x watermark rest _ hph hx hq hp =>
    rcases hp with ⟨rfl, -⟩ | rfl
    · exact keeps (by rw [hph]; rfl) (by rw [hph]; rfl) (Or.inl (by rw [hph]; exact hb))
    · exact keeps (by rw [hph]; rfl) (by rw [hph]; rfl) (Or.inl (by rw [hph]; exact hb))
  | halts term outcome x hph hx =>
    exact keeps (by rw [hph]; rfl) (by rw [hph]; rfl) (Or.inl (by rw [hph]; exact hb))
  | saves term watermark last hph hs =>
    cases hb
    exact ⟨by rw [hph]; rfl, Or.inr ⟨term, last, hph, hs⟩⟩
  | savesNot term watermark last hph hs =>
    exact ⟨by rw [hph]; rfl, Or.inl ⟨fun _ => hs, Or.inl (by rw [hph]; exact hb)⟩⟩
  | savesTime term last time _ hph hs =>
    cases last
    · exact keeps (by rw [hph]; rfl) (by rw [hph]; rfl) (Or.inl (by rw [hph]; exact hb))
    · cases hb
  | finishes term outcome seen x result hph hx hh =>
    cases outcome with
    | shutdown =>
      exact keeps (by rw [hph]; rfl) (by rw [hph]; rfl) (Or.inl (by rw [hph]; exact hb))
    | lockLost => cases hb
    | failed e => cases hb
  | releases held outcome _ hph hl => cases outcome <;> cases hb

theorem Move.persisted_le (hm : Move w i m phase locks store watchers)
    (h : ∀ term v last, m.phase = .saving term v last → term.persisted ≤ v) {term : Term} {v : Nat}
    {last : Bool} (hph : phase = .saving term v last) : term.persisted ≤ v := by
  cases hm with
  | idles _ _ h h' hl =>
    rw [hph] at h'
    cases h'
  | reads _ hs hl => exact h _ _ _ hph
  | hears term' x watermark rest _ hph' hx hq hp =>
    rcases hp with ⟨rfl, hlt⟩ | rfl
    · cases hph
      exact Nat.le_of_lt hlt
    · cases hph
  | savesTime term' last' time _ hph' hs => cases last' <;> cases hph
  | finishes term' outcome seen x result hph' hx hh =>
    cases outcome with
    | shutdown =>
      cases hph
      exact Nat.le_max_right _ _
    | lockLost => cases hph
    | failed e => cases hph
  | releases held outcome _ hph' hl => cases outcome <;> cases hph
  | _ => cases hph

end Manager

namespace World

variable {w : World} {e : Event} {settings : ChangeFeed.Settings.Coordination} {role : String}

/-- What managers with an honoured lease know about a checkpoint. -/
structure Believed (w : World) (key : String) : Prop where
  persisted_le : ∀ (i : Nat) (m : Manager) (term : Term) (v : Nat) (last : Bool),
    w.managers[i]? = some m → m.phase = .saving term v last → term.persisted ≤ v
  belief : ∀ (i : Nat) (m : Manager) (held : Held) (v : Nat), w.managers[i]? = some m →
    m.checkpointKey = key → m.phase.held? = some held → m.phase.belief? = some v →
    w.locks.leases.honours held = true → v = w.store.store.restore key

theorem IsFresh.believed (h : w.IsFresh) (key : String) : w.Believed key where
  persisted_le := fun i m term v last hm => by simp [h.managers] at hm
  belief := fun i m held v hm => by simp [h.managers] at hm

/-- What is asked of an event: no one outside writes to the checkpoint, indices are words, and a
watermark is written under an honoured lease only. -/
structure Orderly (w : World) (key : String) (e : Event) : Prop where
  put : ∀ value, e ≠ .act (.putValue key value)
  words : w.ReadsWords e
  leased : ∀ write, w.writeAt? e = some write → write.key = key → write.leased = true

/-- A write under an honoured lease makes the writer's belief the checkpoint again, and does not
lessen it. -/
theorem Believed.write (h : w.Believed (settings.checkpointKey role)) (hw : w.InWords)
    {write : Write} (hwrite : w.writeAt? e = some write)
    (hk : write.key = settings.checkpointKey role) (hl : write.leased = true) :
    write.value < UInt64.size ∧
      w.store.store.restore (settings.checkpointKey role) ≤ write.value := by
  obtain ⟨now, i, m, term, -, hm, hph, -, hkey, -, hleased⟩ := writeAt?_eq_some_iff.mp hwrite
  have hbelief : term.persisted = w.store.store.restore (settings.checkpointKey role) :=
    h.belief i m term.held term.persisted hm (hkey ▸ hk) (by rw [hph]; rfl) (by rw [hph]; rfl)
      (hleased ▸ hl)
  have hvalue : write.value ∈ m.phase.values := by
    rw [hph]
    exact List.mem_cons_of_mem _ List.mem_cons_self
  refine ⟨hw.manager i m hm _ hvalue, ?_⟩
  rw [← hbelief]
  exact h.persisted_le i m term _ _ hm hph

theorem Believed.restore_le_next (h : w.Believed (settings.checkpointKey role)) (hw : w.InWords)
    (ho : w.Orderly (settings.checkpointKey role) e) :
    w.store.store.restore (settings.checkpointKey role) ≤
      (w.next e).store.store.restore (settings.checkpointKey role) := by
  rcases next_restore ho.put with ⟨write, hwrite, hk, hs⟩ | ⟨-, hs⟩
  · obtain ⟨hlt, hle⟩ := h.write hw hwrite hk (ho.leased write hwrite hk)
    rw [hs, Checkpoint.Store.restore_persist _ hlt]
    exact hle
  · exact Nat.le_of_eq hs.symm

/-- Only the manager whose lease is honoured writes to its checkpoint, if all writes are made under
honoured leases. -/
theorem Orderly.writer (ho : w.Orderly (settings.checkpointKey role) e) (hg : w.Governed)
    {write : Write} (hwrite : w.writeAt? e = some write)
    (hk : write.key = settings.checkpointKey role) {j : Nat} {m : Manager} {held : Held}
    (hm : w.managers[j]? = some m) (hkey : m.checkpointKey = settings.checkpointKey role)
    (hh : m.phase.held? = some held) (hl : w.locks.leases.honours held = true) :
    ∃ now, e = .step now (.manager j) := by
  obtain ⟨now, i, m₁, term, he, hm₁, hph, hf, hkey₁, -, hleased⟩ :=
    writeAt?_eq_some_iff.mp hwrite
  have hlock : m₁.lockKey = m.lockKey :=
    Settings.Coordination.lockKey_eq_of_checkpointKey_eq
      ((hkey₁.symm.trans hk).trans hkey.symm)
  have hl₁ : w.locks.leases.honours term.held = true := by
    rw [← hleased]
    exact ho.leased write hwrite hk
  have hij : i = j := hg.unique hm₁ hm (by rw [hph]; rfl) hh hlock hl₁ hl
  subst hij
  exact ⟨now, he⟩

/-- A manager that nobody else gets in the way of believes what the checkpoint is, after an event as
before it. What is asked of the time before may rest on the lease that the manager has after the
event. -/
theorem belief_next (hput : ∀ value, e ≠ .act (.putValue (settings.checkpointKey role) value))
    {j : Nat} {m' : Manager} {v : Nat} (hm' : (w.next e).managers[j]? = some m')
    (hkey : m'.checkpointKey = settings.checkpointKey role) (hb : m'.phase.belief? = some v)
    (old : ∀ m v, w.managers[j]? = some m → m.checkpointKey = settings.checkpointKey role →
      m.phase.held? = m'.phase.held? → m.phase.belief? = some v →
        v = w.store.store.restore (settings.checkpointKey role))
    (writer : ∀ m write, w.managers[j]? = some m →
      m.checkpointKey = settings.checkpointKey role → m.phase.held? = m'.phase.held? →
        w.writeAt? e = some write → write.key = settings.checkpointKey role →
          write.value < UInt64.size ∧ ∃ now, e = .step now (.manager j)) :
    v = (w.next e).store.store.restore (settings.checkpointKey role) := by
  cases before hm' with
  | new hnew =>
    rw [hnew] at hb
    cases hb
  | same m isShutdown hm hm' he =>
    subst hm'
    rw [old m v hm hkey rfl hb]
    -- a write would be this manager's, and it has taken no step
    rcases next_restore hput with ⟨write, hwrite, hk, -⟩ | ⟨-, hs⟩
    · obtain ⟨-, now, he'⟩ := writer m write hm hkey rfl hwrite hk
      obtain ⟨now', i, m₁, term, he'', hm₁, hph, -⟩ := writeAt?_eq_some_iff.mp hwrite
      rw [he'] at he''
      cases he''
      exact absurd (he now he') (stepManager?_of_saving hm₁ hph)
    · exact hs.symm
  | stepped now m nextTick phase he hm hstep hm' =>
    subst hm'
    obtain ⟨hheld, hcases⟩ := hstep.move.belief_cases hb
    rcases hcases with ⟨hno, hv⟩ | ⟨term, last, hph, hf⟩
    · -- the checkpoint stays as it was read or believed
      have hv' : v = w.store.store.restore (settings.checkpointKey role) := by
        rcases hv with hv | hv
        · exact old m v hm hkey hheld hv
        · have hkey' : m.checkpointKey = settings.checkpointKey role := hkey
          rw [← hkey', Checkpoint.Flaky.restore_eq_ok hv]
      rcases next_restore hput with ⟨write, hwrite, hk, -⟩ | ⟨-, hs⟩
      · obtain ⟨now', i, m₁, term, he', hm₁, hph, hf, -⟩ := writeAt?_eq_some_iff.mp hwrite
        rw [he] at he'
        cases he'
        rw [hm] at hm₁
        cases hm₁
        rw [hno (by rw [hph]; rfl)] at hf
        cases hf
      · rw [hs, hv']
    · -- the checkpoint is what was written
      subst he
      have hwrite : w.writeAt? (.step now (.manager j)) = some
          ⟨m.checkpointKey, v, term.watcher, last, w.locks.leases.honours term.held⟩ :=
        writeAt?_eq_some_iff.mpr ⟨now, j, m, term, rfl, hm, hph, hf, rfl, rfl, rfl⟩
      have hlt : v < UInt64.size := (writer m _ hm hkey hheld hwrite hkey).1
      rcases next_restore hput with ⟨write, hwrite', hk, hs⟩ | ⟨hno, -⟩
      · rw [hwrite] at hwrite'
        cases hwrite'
        rw [hs, Checkpoint.Store.restore_persist _ hlt]
      · exact absurd hkey (hno _ hwrite)

theorem persisted_le_next {i : Nat} {m' : Manager} {term : Term} {v : Nat} {last : Bool}
    (h : ∀ m term v last, w.managers[i]? = some m → m.phase = .saving term v last →
      term.persisted ≤ v)
    (hm' : (w.next e).managers[i]? = some m') (hph : m'.phase = .saving term v last) :
    term.persisted ≤ v := by
  cases before hm' with
  | stepped now m nextTick phase he hm hstep hm' =>
    subst hm'
    exact hstep.move.persisted_le (fun term v last => h m term v last hm) hph
  | same m isShutdown hm hm' he =>
    subst hm'
    exact h m term v last hm hph
  | new hnew =>
    rw [hnew] at hph
    cases hph

theorem Believed.next (h : w.Believed (settings.checkpointKey role)) (hg : w.Governed)
    (hw : w.InWords) (ho : w.Orderly (settings.checkpointKey role) e) :
    (w.next e).Believed (settings.checkpointKey role) where
  persisted_le := fun i m' term v last hm' hph =>
    persisted_le_next (fun m term v last => h.persisted_le i m term v last) hm' hph
  belief := fun j m' held v hm' hkey hh hb hl => by
    have honours {m : Manager} (hm : w.managers[j]? = some m)
        (hheld : m.phase.held? = m'.phase.held?) : w.locks.leases.honours held = true :=
      Governed.honours_of_next (hg.knows j m held hm (hheld.trans hh)) hl
    refine belief_next ho.put hm' hkey hb (fun m v hm hkey' hheld hb => ?_)
      fun m write hm hkey' hheld hwrite hk => ?_
    · exact h.belief j m held v hm hkey' (hheld.trans hh) hb (honours hm hheld)
    · exact ⟨(h.write hw hwrite hk (ho.leased write hwrite hk)).1,
        ho.writer hg hwrite hk hm hkey' (hheld.trans hh) (honours hm hheld)⟩

/-! ## Runs -/

/-- Whether every event of a run is orderly. -/
def OrderlyRun (w : World) (key : String) : List Event → Prop
  | [] => True
  | e :: events => w.Orderly key e ∧ (w.next e).OrderlyRun key events

theorem OrderlyRun.of {key : String} {events : List Event}
    (hput : ∀ value, .act (.putValue key value) ∉ events)
    (hwords : ∀ k, ∀ page ∈ Watch.pages (w.heard k events),
      ∀ c ∈ page.changes, c.index < UInt64.size)
    (hleased : ∀ write ∈ w.writes events, write.key = key → write.leased = true) :
    w.OrderlyRun key events := by
  induction events generalizing w with
  | nil => trivial
  | cons e rest ih =>
    refine ⟨⟨fun value he => ?_, fun k page ha => ?_, fun write hwrite => ?_⟩, ih ?_ ?_ ?_⟩
    · exact hput value (he ▸ List.mem_cons_self)
    · exact hwords k page (by simp [heard, ha])
    · exact hleased write (by simp [writes, hwrite])
    · exact fun value hmem => hput value (List.mem_cons_of_mem _ hmem)
    · intro k page hpage
      refine hwords k page ?_
      rw [heard, Watch.pages_append]
      exact List.mem_append_right _ hpage
    · intro write hwrite
      exact hleased write (List.mem_append_right _ hwrite)

theorem OrderlyRun.believed_after {events : List Event}
    (ho : w.OrderlyRun (settings.checkpointKey role) events)
    (h : w.Believed (settings.checkpointKey role)) (hg : w.Governed) (hw : w.InWords) :
    (w.after events).Believed (settings.checkpointKey role) ∧ (w.after events).InWords := by
  induction events generalizing w with
  | nil => exact ⟨h, hw⟩
  | cons e rest ih => exact ih ho.2 (h.next hg hw ho.1) (hg.next e) (hw.next ho.1.words)

theorem OrderlyRun.restore_le_after {events more : List Event}
    (ho : w.OrderlyRun (settings.checkpointKey role) (events ++ more))
    (h : w.Believed (settings.checkpointKey role)) (hg : w.Governed) (hw : w.InWords) :
    (w.after events).store.store.restore (settings.checkpointKey role) ≤
      (w.after (events ++ more)).store.store.restore (settings.checkpointKey role) := by
  -- what is believed is carried over the earlier events; from there on it bounds every write
  induction events generalizing w with
  | cons e rest ih => exact ih ho.2 (h.next hg hw ho.1) (hg.next e) (hw.next ho.1.words)
  | nil =>
    induction more generalizing w with
    | nil => exact Nat.le_refl _
    | cons e rest ih =>
      have hrest := ih ho.2 (h.next hg hw ho.1) (hg.next e) (hw.next ho.1.words)
      exact Nat.le_trans (h.restore_le_next hw ho.1) hrest

/-- An event takes the checkpoint back if it writes less without a lease, and only then. -/
theorem Believed.restore_next_lt_iff (h : w.Believed (settings.checkpointKey role))
    (hw : w.InWords) (hput : ∀ value, e ≠ .act (.putValue (settings.checkpointKey role) value)) :
    (w.next e).store.store.restore (settings.checkpointKey role) <
        w.store.store.restore (settings.checkpointKey role) ↔
      ∃ write, w.writeAt? e = some write ∧ write.key = settings.checkpointKey role ∧
        write.leased = false ∧
        write.value < w.store.store.restore (settings.checkpointKey role) := by
  rcases next_restore hput with ⟨write, hwrite, hk, hs⟩ | ⟨hno, hs⟩
  · obtain ⟨now, i, m, term, -, hm, hph, -⟩ := writeAt?_eq_some_iff.mp hwrite
    have hlt : write.value < UInt64.size := by
      refine hw.manager i m hm _ ?_
      rw [hph]
      exact List.mem_cons_of_mem _ List.mem_cons_self
    rw [hs, Checkpoint.Store.restore_persist _ hlt]
    constructor
    · intro hless
      refine ⟨write, hwrite, hk, ?_, hless⟩
      cases hl : write.leased with
      | false => rfl
      | true => exact absurd (h.write hw hwrite hk hl).2 (Nat.not_le.mpr hless)
    · rintro ⟨write', hwrite', -, -, hless⟩
      rw [hwrite] at hwrite'
      cases hwrite'
      exact hless
  · rw [hs]
    constructor
    · intro hless
      exact absurd hless (Nat.lt_irrefl _)
    · rintro ⟨write, hwrite, hk, -⟩
      exact absurd hk (hno write hwrite)

/-- The checkpoint of a role in a system that began without tasks, where nobody else writes to its
key and indices are words of 64 bits. Whatever the order of grants, losses, reports, writes and
shutdowns is, it has not gone back as long as each watermark was written under a lease that the lock
service honoured at that time; and the next event takes it back exactly if it writes a smaller
watermark under a lease that is not honoured any more. -/
theorem checkpoint_decreases_iff (hfresh : w.IsFresh) {events : List Event}
    (hput : ∀ value, .act (.putValue (settings.checkpointKey role) value) ∉ events ++ [e])
    (hwords : ∀ k, ∀ page ∈ Watch.pages (w.heard k events),
      ∀ c ∈ page.changes, c.index < UInt64.size)
    (hleased : ∀ write ∈ w.writes events,
      write.key = settings.checkpointKey role → write.leased = true) :
    (∀ earlier later, events = earlier ++ later →
      (w.after earlier).store.store.restore (settings.checkpointKey role) ≤
        (w.after events).store.store.restore (settings.checkpointKey role)) ∧
      ((w.after (events ++ [e])).store.store.restore (settings.checkpointKey role) <
          (w.after events).store.store.restore (settings.checkpointKey role) ↔
        ∃ write, (w.after events).writeAt? e = some write ∧
          write.key = settings.checkpointKey role ∧ write.leased = false ∧
          write.value < (w.after events).store.store.restore (settings.checkpointKey role)) := by
  have ho : w.OrderlyRun (settings.checkpointKey role) events :=
    .of (fun value hmem => hput value (List.mem_append_left _ hmem)) hwords hleased
  refine ⟨fun earlier later heq => ?_, ?_⟩
  · subst heq
    exact ho.restore_le_after (hfresh.believed _) hfresh.governed hfresh.inWords
  · obtain ⟨hb, hw⟩ := ho.believed_after (hfresh.believed _) hfresh.governed hfresh.inWords
    rw [after_append]
    refine hb.restore_next_lt_iff hw fun value he => hput value ?_
    rw [he]
    exact List.mem_append_right _ List.mem_cons_self

/-! ## Two managers -/

/-- A system whose orchestrator answers with a page of one change, and then with one of another
change. -/
def twoChanges : World :=
  scripted [⟨0, .ok ⟨[⟨"a", 7, .null⟩], 7⟩⟩, ⟨0, .ok ⟨[⟨"b", 10, .null⟩], 10⟩⟩]

/-- A manager takes up a change and is shut down while the work on it goes on. It loses the lock,
and another manager gets it and writes its watermark. Then the time of the work under way is over,
and the first manager is about to write for the last time. -/
def takenOver : List Event :=
  [.act (.spawn .jobs .standard), .act (.spawn .jobs .standard)] ++ managerTurns 0 0 4 ++
    [.step 0 (.loop 0), .step 0 (.loop 0), .step 0 (.publication 0), .act (.shutDown 0)] ++
    managerTurns 0 0 1 ++
    [.step 0 (.halt 0), .step 0 (.loop 0), .step 0 (.halt 0), .step 0 (.reporter 0),
      .step 0 (.halt 0),
      .act (.revoke (Settings.Coordination.standard.lockKey Role.jobs.name))] ++
    managerTurns 0 1 4 ++
    [.step 0 (.loop 1), .step 0 (.loop 1), .step 5000 (.reporter 1), .step 5000 (.reporter 1)] ++
    managerTurns 5000 1 2 ++ [.step 5000 (.halt 0), .step 5000 (.halt 0)] ++ managerTurns 5000 0 1

/-- The last write of a manager that was shut down puts back what the new holder wrote. -/
theorem checkpoint_decreases_iff_of_late_write :
    let key := Settings.Coordination.standard.checkpointKey Role.jobs.name
    let e : Event := .step 5000 (.manager 0)
    twoChanges.writes takenOver = [⟨key, 10, 1, false, true⟩] ∧
      (twoChanges.after takenOver).writeAt? e = some ⟨key, 7, 0, true, false⟩ ∧
      (twoChanges.after takenOver).store.store.restore key = 10 ∧
      (twoChanges.after (takenOver ++ [e])).store.store.restore key < 10 := by
  have hfresh : twoChanges.IsFresh := ⟨rfl, rfl, rfl, Or.inl rfl⟩
  have hwrites : twoChanges.writes takenOver =
      [⟨Settings.Coordination.standard.checkpointKey Role.jobs.name, 10, 1, false, true⟩] := by
    decide +kernel
  have hwrite : (twoChanges.after takenOver).writeAt? (.step 5000 (.manager 0)) =
      some ⟨Settings.Coordination.standard.checkpointKey Role.jobs.name, 7, 0, true, false⟩ := by
    decide +kernel
  have hrestore : (twoChanges.after takenOver).store.store.restore
      (Settings.Coordination.standard.checkpointKey Role.jobs.name) = 10 := by
    decide +kernel
  have hput : ∀ value,
      .act (.putValue (Settings.Coordination.standard.checkpointKey Role.jobs.name) value) ∉
        takenOver ++ [.step 5000 (.manager 0)] := by
    intro value h
    simp [takenOver, managerTurns] at h
  have hwords : ∀ k, ∀ page ∈ Watch.pages (twoChanges.heard k takenOver),
      ∀ c ∈ page.changes, c.index < UInt64.size := by
    intro k
    match k with
    | 0 => decide +kernel
    | 1 => decide +kernel
    | k + 2 =>
      rw [heard_eq_nil fun now h => by simp [takenOver, managerTurns] at h]
      intro page h
      cases h
  have hleased : ∀ write ∈ twoChanges.writes takenOver,
      write.key = Settings.Coordination.standard.checkpointKey Role.jobs.name →
        write.leased = true := by
    intro write h _
    rw [hwrites] at h
    cases List.mem_singleton.mp h
    rfl
  have hiff := (checkpoint_decreases_iff hfresh hput hwords hleased).2
  rw [hrestore] at hiff
  exact ⟨hwrites, hwrite, hrestore, hiff.mpr ⟨_, hwrite, rfl, rfl, by decide⟩⟩

end World

end ChangeFeed.Engine
