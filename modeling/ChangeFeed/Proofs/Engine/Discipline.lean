import ChangeFeed.Proofs.Engine.Attempts
import ChangeFeed.Proofs.Engine.Checkpoints

/-!
# The checkpoint of a single manager

A manager that has its checkpoint for itself always knows what it holds. It begins each term at that
watermark, and what it writes from then on, over all of its terms, never goes back.

* `Undisturbed` is what is asked of a run: nobody else writes to the checkpoint.
* `Trusted`: the manager believes what the checkpoint is. `trusted_after` is a whole run.
* `pairwise_writes`: the watermarks that are written never go back. `committed_of_write`: each of
  them was the watermark of the watch loop of its term.
* `keeps_write_discipline` puts together what follows for every run.
-/

namespace ChangeFeed.Engine

namespace World

variable {w : World} {e : Event} {i k : Nat} {settings : ChangeFeed.Settings.Coordination}
  {role : String} {events more : List Event}

/-! ## Runs with one writer -/

/-- A manager is the only one with a checkpoint. -/
def Sole (w : World) (i : Nat) (key : String) : Prop :=
  ∀ (j : Nat) (m : Manager), w.managers[j]? = some m → (m.checkpointKey = key ↔ j = i)

theorem Sole.of_next {key : String} (h : (w.next e).Sole i key) : w.Sole i key := by
  intro j m hm
  obtain ⟨m', hm', hkey, -⟩ := next_manager_cases e hm
  rw [← hkey]
  exact h j m' hm'

theorem Sole.of_after {key : String} (h : (w.after events).Sole i key) : w.Sole i key := by
  induction events generalizing w with
  | nil => exact h
  | cons e rest ih => exact (ih h).of_next

/-- A run in which nobody but a manager writes to a checkpoint, and all indices are words of 64
bits. -/
structure Undisturbed (w : World) (i : Nat) (key : String) (events : List Event) : Prop where
  put : ∀ value, .act (.putValue key value) ∉ events
  words : ∀ k, ∀ page ∈ Watch.pages (w.heard k events), ∀ c ∈ page.changes, c.index < UInt64.size
  sole : (w.after events).Sole i key

namespace Undisturbed

variable {key : String}

theorem append_left (h : w.Undisturbed i key (events ++ more)) : w.Undisturbed i key events where
  put := fun value hmem => h.put value (List.mem_append_left _ hmem)
  words := fun k page hpage => by
    refine h.words k page ?_
    rw [heard_append, Watch.pages_append]
    exact List.mem_append_left _ hpage
  sole := by
    have hsole := h.sole
    rw [after_append] at hsole
    exact hsole.of_after

theorem tail (h : w.Undisturbed i key (e :: events)) : (w.next e).Undisturbed i key events where
  put := fun value hmem => h.put value (List.mem_cons_of_mem _ hmem)
  words := fun k page hpage => by
    refine h.words k page ?_
    rw [heard, Watch.pages_append]
    exact List.mem_append_right _ hpage
  sole := h.sole

theorem sole_start (h : w.Undisturbed i key events) : w.Sole i key := h.sole.of_after

theorem put_head (h : w.Undisturbed i key (e :: events)) (value : Bytes) :
    e ≠ .act (.putValue key value) :=
  fun he => h.put value (he ▸ List.mem_cons_self)

theorem readsWords (h : w.Undisturbed i key (e :: events)) : w.ReadsWords e :=
  fun k page ha => h.words k page (by simp [heard, ha])

end Undisturbed

/-! ## What the manager believes -/

/-- Whoever has a checkpoint believes what it is. -/
structure Trusted (w : World) (key : String) : Prop where
  persisted_le : ∀ (i : Nat) (m : Manager) (term : Term) (v : Nat) (last : Bool),
    w.managers[i]? = some m → m.phase = .saving term v last → term.persisted ≤ v
  belief : ∀ (i : Nat) (m : Manager) (v : Nat), w.managers[i]? = some m →
    m.checkpointKey = key → m.phase.belief? = some v → v = w.store.store.restore key

theorem IsFresh.trusted (h : w.IsFresh) (key : String) : w.Trusted key where
  persisted_le := fun i m term v last hm => by simp [h.managers] at hm
  belief := fun i m v hm => by simp [h.managers] at hm

theorem Trusted.next (h : w.Trusted (settings.checkpointKey role)) (hw : w.InWords)
    (hsole : w.Sole i (settings.checkpointKey role))
    (hput : ∀ value, e ≠ .act (.putValue (settings.checkpointKey role) value)) :
    (w.next e).Trusted (settings.checkpointKey role) where
  persisted_le := fun j m' term v last hm' hph =>
    persisted_le_next (fun m term v last => h.persisted_le j m term v last) hm' hph
  belief := fun j m' v hm' hkey hb => by
    refine belief_next hput hm' hkey hb (fun m v hm hkey' _ hb' => h.belief j m v hm hkey' hb')
      fun m write hm hkey' _ hwrite hk => ?_
    obtain ⟨now, j', m₁, term, he, hm₁, hph, -, hkey₁, -⟩ := writeAt?_eq_some_iff.mp hwrite
    have hj : j = i := (hsole j m hm).mp hkey'
    have hj' : j' = i := (hsole j' m₁ hm₁).mp (hkey₁.symm.trans hk)
    subst hj hj'
    refine ⟨hw.manager j' m₁ hm₁ _ ?_, now, he⟩
    rw [hph]
    exact List.mem_cons_of_mem _ List.mem_cons_self

/-- A write is not less than the checkpoint, which it becomes. -/
theorem Trusted.write (h : w.Trusted (settings.checkpointKey role)) (hw : w.InWords)
    (hput : ∀ value, e ≠ .act (.putValue (settings.checkpointKey role) value)) {write : Write}
    (hwrite : w.writeAt? e = some write) (hk : write.key = settings.checkpointKey role) :
    w.store.store.restore (settings.checkpointKey role) ≤ write.value ∧
      (w.next e).store.store.restore (settings.checkpointKey role) = write.value := by
  obtain ⟨now, j, m, term, -, hm, hph, -, hkey, -⟩ := writeAt?_eq_some_iff.mp hwrite
  have hbelief : term.persisted = w.store.store.restore (settings.checkpointKey role) :=
    h.belief j m term.persisted hm (hkey ▸ hk) (by rw [hph]; rfl)
  have hlt : write.value < UInt64.size := by
    refine hw.manager j m hm _ ?_
    rw [hph]
    exact List.mem_cons_of_mem _ List.mem_cons_self
  rw [← hbelief]
  refine ⟨h.persisted_le j m term _ _ hm hph, ?_⟩
  rcases next_restore hput with ⟨write', hwrite', -, hs⟩ | ⟨hno, -⟩
  · rw [hwrite] at hwrite'
    cases hwrite'
    rw [hs, Checkpoint.Store.restore_persist _ hlt]
  · exact absurd hk (hno write hwrite)

theorem trusted_after (hu : w.Undisturbed i (settings.checkpointKey role) events)
    (h : w.Trusted (settings.checkpointKey role)) (hw : w.InWords) :
    (w.after events).Trusted (settings.checkpointKey role) ∧ (w.after events).InWords := by
  induction events generalizing w with
  | nil => exact ⟨h, hw⟩
  | cons e rest ih =>
    exact ih hu.tail (h.next hw hu.sole_start hu.put_head) (hw.next hu.readsWords)

/-- The watermarks that are written to a checkpoint during some events. -/
def writtenTo (w : World) (key : String) (events : List Event) : List Nat :=
  ((w.writes events).filter (·.key = key)).map Write.value

/-- What is written never goes back, and begins at the checkpoint. -/
theorem pairwise_writes (hu : w.Undisturbed i (settings.checkpointKey role) events)
    (h : w.Trusted (settings.checkpointKey role)) (hw : w.InWords) :
    (w.writtenTo (settings.checkpointKey role) events).Pairwise (· ≤ ·) ∧
      ∀ v ∈ w.writtenTo (settings.checkpointKey role) events,
        w.store.store.restore (settings.checkpointKey role) ≤ v := by
  induction events generalizing w with
  | nil => exact ⟨List.Pairwise.nil, by simp [writtenTo, writes]⟩
  | cons e rest ih =>
    obtain ⟨hpairwise, hle⟩ :=
      ih hu.tail (h.next hw hu.sole_start hu.put_head) (hw.next hu.readsWords)
    rcases next_restore hu.put_head with ⟨write, hwrite, hk, -⟩ | ⟨hno, hs⟩
    · obtain ⟨hbelow, hafter⟩ := h.write hw hu.put_head hwrite hk
      have heq : w.writtenTo (settings.checkpointKey role) (e :: rest) =
          write.value :: (w.next e).writtenTo (settings.checkpointKey role) rest := by
        simp [writtenTo, writes, hwrite, hk]
      rw [heq, List.pairwise_cons]
      rw [hafter] at hle
      refine ⟨⟨hle, hpairwise⟩, fun v hv => ?_⟩
      rcases List.mem_cons.mp hv with rfl | hv
      · exact hbelow
      · exact Nat.le_trans hbelow (hle v hv)
    · have hnone : ((w.writeAt? e).toList.filter (·.key = settings.checkpointKey role)) = [] :=
        List.filter_eq_nil_iff.mpr fun write hmem => by
          simpa using hno write (Option.mem_toList.mp hmem)
      have heq : w.writtenTo (settings.checkpointKey role) (e :: rest) =
          (w.next e).writtenTo (settings.checkpointKey role) rest := by
        rw [writtenTo, writes, List.filter_append, hnone]
        rfl
      rw [heq, ← hs]
      exact ⟨hpairwise, hle⟩

/-! ## Where terms begin -/

/-- Whether a manager has read the watermark of a term and has not begun it. The event time of the
term may still be to be read. -/
inductive Precedes (term : Term) : Manager.Phase → Prop where
  | restoring (delay : Nat) : Precedes term (.restoring term.held delay (some term.persisted))
  | starting : Precedes term (.starting term.held term.persisted term.persistedTime)

theorem Precedes.restored? {term : Term} {phase : Manager.Phase} (h : Precedes term phase) :
    phase.restored? = some (term.held, term.persisted) := by
  cases h <;> rfl

/-- A manager reads its checkpoint with an event, and goes on to begin a term at it. -/
def Restores (w : World) (e : Event) (i : Nat) (term : Term) : Prop :=
  ∃ now m m' delay, e = .step now (.manager i) ∧ w.managers[i]? = some m ∧
    m.phase = .restoring term.held delay none ∧
    w.store.restore m.checkpointKey = .ok term.persisted ∧
    (w.next e).managers[i]? = some m' ∧ Precedes term m'.phase

/-- A manager goes on to begin a term all through some events. -/
def Starting (w : World) (i : Nat) (term : Term) (events : List Event) : Prop :=
  ∀ first rest, events = first ++ rest → ∃ m, (w.after first).managers[i]? = some m ∧
    Precedes term m.phase

theorem Starting.append_singleton {term : Term} {m : Manager} (h : w.Starting i term events)
    (hm : (w.after (events ++ [e])).managers[i]? = some m) (hph : Precedes term m.phase) :
    w.Starting i term (events ++ [e]) := by
  intro first rest heq
  rcases List.eq_nil_or_concat rest with rfl | ⟨rest', last, rfl⟩
  · rw [List.append_nil] at heq
    exact ⟨m, heq ▸ hm, hph⟩
  · rw [List.concat_eq_append, ← List.append_assoc] at heq
    exact h first rest' (List.append_inj_left' heq rfl)

/-- A manager that is about to begin a term has read its checkpoint for it, and has at most read the
event time since. -/
theorem restores_of_precedes {w₀ : World} (hfresh : w₀.IsFresh) {m : Manager} {term : Term}
    (hm : (w₀.after events).managers[i]? = some m) (hph : Precedes term m.phase) :
    ∃ earlier e between, events = earlier ++ e :: between ∧
      (w₀.after earlier).Restores e i term ∧
      ((w₀.after earlier).next e).Starting i term between := by
  induction events using List.reverseRecOn generalizing m with
  | nil => simp [hfresh.managers] at hm
  | append_singleton events e ih =>
    have hm' : ((w₀.after events).next e).managers[i]? = some m := by
      rwa [after_append] at hm
    have goesOn {m₀ : Manager} (hm₀ : (w₀.after events).managers[i]? = some m₀)
        (hph₀ : Precedes term m₀.phase) :
        ∃ earlier e' between, events ++ [e] = earlier ++ e' :: between ∧
          (w₀.after earlier).Restores e' i term ∧
          ((w₀.after earlier).next e').Starting i term between := by
      obtain ⟨earlier, e', between, rfl, hr, hs⟩ := ih hm₀ hph₀
      refine ⟨earlier, e', between ++ [e], by simp, hr, hs.append_singleton ?_ hph⟩
      rw [after_append] at hm' ⊢
      exact hm'
    cases before hm' with
    | stepped now m₀ nextTick phase he hm₀ hstep heq =>
      have hrestored : phase.restored? = some (term.held, term.persisted) := by
        rw [← hph.restored?, heq]
      obtain ⟨delay, hph₀ | ⟨hph₀, hr⟩⟩ := hstep.move.restored_of_restored hrestored
      · exact goesOn hm₀ (hph₀ ▸ .restoring delay)
      · have hrestores : (w₀.after events).Restores e i term :=
          ⟨now, m₀, m, delay, he, hm₀, hph₀, hr, hm', hph⟩
        refine ⟨events, e, [], rfl, hrestores, ?_⟩
        intro first rest hnil
        obtain ⟨rfl, rfl⟩ := List.append_eq_nil_iff.mp hnil.symm
        exact ⟨m, hm', hph⟩
    | same m₀ isShutdown hm₀ heq hno =>
      rw [heq] at hph
      exact goesOn hm₀ hph
    | new hbegun =>
      rw [hbegun] at hph
      cases hph

/-- A manager that is in a term has begun it. -/
theorem hasBegun_of_term {w₀ : World} (hfresh : w₀.IsFresh) {m : Manager} {term : Term}
    (hm : (w₀.after events).managers[i]? = some m) (ht : m.phase.term? = some term) :
    ∃ begun, w₀.HasBegun events i begun ∧ begun.watcher = term.watcher ∧
      begun.held = term.held := by
  induction events using List.reverseRecOn generalizing m term with
  | nil => simp [hfresh.managers] at hm
  | append_singleton events e ih =>
    rw [after_append] at hm
    have goesOn {m₀ : Manager} {term₀ : Term} (hm₀ : (w₀.after events).managers[i]? = some m₀)
        (ht₀ : m₀.phase.term? = some term₀) (hw : term₀.watcher = term.watcher)
        (hh : term₀.held = term.held) :
        ∃ begun, w₀.HasBegun (events ++ [e]) i begun ∧ begun.watcher = term.watcher ∧
          begun.held = term.held := by
      obtain ⟨begun, ⟨before, e', later, rfl, hbegins⟩, hw', hh'⟩ := ih hm₀ ht₀
      exact ⟨begun, ⟨before, e', later ++ [e], by simp, hbegins⟩, hw'.trans hw, hh'.trans hh⟩
    cases before hm with
    | stepped now m₀ nextTick phase he hm₀ hstep heq =>
      subst heq
      rcases hstep.move.term_of_term ht with
        ⟨term₀, ht₀, hw, hh⟩ | ⟨held, watermark, time, x, hph₀, rfl, hw, hnew⟩
      · exact goesOn hm₀ ht₀ hw hh
      · have hx :
            ((w₀.after events).next e).watchers[(w₀.after events).watchers.size]? = some x := by
          rw [hw, Array.getElem?_push_size]
        obtain ⟨now', j, m₁, held', watermark', time', he', hm₁, hph₁, -, -, m', hm', hph'⟩ :=
          next_new_watcher hx (Nat.le_refl _)
        rw [he] at he'
        cases he'
        rw [hm₀] at hm₁
        cases hm₁
        rw [hph₀] at hph₁
        cases hph₁
        exact ⟨_, ⟨events, e, [], rfl, now, m₀, m', he, hm₀, hph₀, hm', hph'⟩, rfl, rfl⟩
    | same m₀ isShutdown hm₀ heq hno =>
      subst heq
      exact goesOn hm₀ ht rfl rfl
    | new hbegun =>
      rw [hbegun] at ht
      cases ht

/-! ## What is written in a term -/

/-- Whether a watermark was the one of a watch loop at some time during some events. -/
def Committed (w : World) (k : Nat) (events : List Event) (v : Nat) : Prop :=
  ∃ first rest x, events = first ++ rest ∧ (w.after first).watchers[k]? = some x ∧
    x.progress.watermark = v

theorem Committed.append {v : Nat} (h : w.Committed k events v) (more : List Event) :
    w.Committed k (events ++ more) v := by
  obtain ⟨first, rest, x, rfl, hx, hv⟩ := h
  exact ⟨first, rest ++ more, x, List.append_assoc .., hx, hv⟩

/-- A loop never commits less than what it began at. -/
theorem Committed.le {start v : Nat} (h : w.Committed k events v) (hnew : w.HasNew k start) :
    start ≤ v := by
  obtain ⟨first, rest, x, rfl, hx, rfl⟩ := h
  obtain ⟨x₀, role, hx₀, hnew⟩ := hnew
  obtain ⟨x', hx', hrun, -⟩ := run_heard hx₀ first
  rw [hx] at hx'
  cases hx'
  have hle := Watch.Progress.watermark_le_run x₀.progress (w.heard k first)
  rw [hrun, hnew.progress] at hle
  exact hle

theorem Begins.sourced_committed {term : Term} (h : w.Begins e i term) (hs : w.Staffed)
    (events : List Event) :
    ((w.next e).after events).Sourced term.watcher ((w.next e).Committed term.watcher events) := by
  induction events using List.reverseRecOn with
  | nil =>
    obtain ⟨-, x, role, hx, hnew⟩ := h.hasNew
    exact h.sourced hs ⟨[], [], x, rfl, hx, by rw [hnew.progress]; rfl⟩
  | append_singleton events e' ih =>
    rw [after_append]
    refine ih.next (fun v hv => hv.append [e']) fun x hx => ?_
    exact ⟨events ++ [e'], [], x, (List.append_nil _).symm, by rw [after_append]; exact hx, rfl⟩

/-- A watermark that is written was one of the watch loop of its term. -/
theorem committed_of_write {w₀ : World} (hfresh : w₀.IsFresh) {write : Write}
    (hwrite : (w₀.after events).writeAt? e = some write) :
    ∃ j before e' later begun, events = before ++ e' :: later ∧
      (w₀.after before).Begins e' j begun ∧ begun.watcher = write.watcher ∧
      begun.persisted ≤ write.value ∧
      ((w₀.after before).next e').Committed write.watcher later write.value ∧
      ∃ m, (w₀.after events).managers[j]? = some m ∧ write.key = m.checkpointKey := by
  obtain ⟨now, j, m, term, -, hm, hph, -, hkey, hwatcher, -⟩ := writeAt?_eq_some_iff.mp hwrite
  have ht : m.phase.term? = some term := by rw [hph]; rfl
  obtain ⟨begun, ⟨before, e', later, rfl, hbegins⟩, hw, -⟩ := hasBegun_of_term hfresh hm ht
  have hsourced := hbegins.sourced_committed (hfresh.staffed.after before) later
  rw [after_append, after_cons] at hm
  have hvalue : write.value ∈ m.phase.values := by
    rw [hph]
    exact List.mem_cons_of_mem _ List.mem_cons_self
  have hcommitted := hsourced.manager j m term hm ht hw.symm _ hvalue
  refine ⟨j, before, e', later, begun, rfl, hbegins, hw.trans hwatcher.symm,
    hcommitted.le hbegins.hasNew.2, ?_, m, ?_, hkey⟩
  · rw [hwatcher, ← hw]
    exact hcommitted
  · rw [after_append, after_cons]
    exact hm

/-! ## All of it -/

/-- What the call that stops a watcher answers is the last watermark of its loop. -/
theorem final_of_term {w₀ : World} (hfresh : w₀.IsFresh) {m : Manager} {term : Term}
    (hm : (w₀.after events).managers[i]? = some m) (ht : m.phase.term? = some term)
    (more : List Event) {x : Watcher}
    (hx : ((w₀.after events).after more).watchers[term.watcher]? = some x) {v : Nat}
    (hh : x.halt = some (.ended (.ok v))) : v = x.progress.watermark := by
  obtain ⟨begun, ⟨before, e, later, rfl, hbegins⟩, hw, -⟩ := hasBegun_of_term hfresh hm ht
  obtain ⟨-, x₀, role, hx₀, hnew⟩ := hbegins.hasNew
  obtain ⟨x', hx', hordered⟩ := ordered_after hx₀ hnew.ordered (later ++ more)
  rw [after_append, after_cons, ← after_append, ← hw, hx'] at hx
  cases hx
  exact hordered.final v hh

/-- What holds of the writes of a manager after a run in which it has its checkpoint for itself. -/
structure WriteDiscipline (w₀ : World) (i : Nat) (key : String) (events : List Event) : Prop where
  /-- No task changes the store but by the write that a manager tries. -/
  store : ∀ now task, ((w₀.after events).next (.step now task)).store =
    match (w₀.after events).attemptAt? (.step now task) with
    | some a => ((w₀.after events).store.persist a.key a.value).2
    | none => (w₀.after events).store
  /-- A watcher is started by the manager that begins a term with it. -/
  started : ∀ k < (w₀.after events).watchers.size,
    ∃ j term, w₀.HasBegun events j term ∧ term.watcher = k
  /-- A term begins after a read for it, and its watcher starts at what was read, which is what the
  checkpoint holds. -/
  restored : ∀ before e later term, events = before ++ e :: later →
    (w₀.after before).Begins e i term →
      (∃ earlier e' between, before = earlier ++ e' :: between ∧
        (w₀.after earlier).Restores e' i term ∧
        ((w₀.after earlier).next e').Starting i term between) ∧
      (w₀.after before).store.store.restore key = term.persisted ∧
      ((w₀.after before).next e).HasNew term.watcher term.persisted
  /-- The watermarks that are written never go back, over all terms. -/
  pairwise : (w₀.writtenTo key events).Pairwise (· ≤ ·)
  /-- A watermark that is written is at least what its term began at, and was one of the watch loop
  of the term. -/
  committed : ∀ before e later write, events = before ++ e :: later →
    (w₀.after before).writeAt? e = some write → write.key = key →
      ∃ earlier e' between term, before = earlier ++ e' :: between ∧
        (w₀.after earlier).Begins e' i term ∧ term.watcher = write.watcher ∧
        term.persisted ≤ write.value ∧
        ((w₀.after earlier).next e').Committed write.watcher between write.value
  /-- After the event loop of a term that lost its lock nothing is tried under it. -/
  lost : ∀ before e later term seen, events = before ++ e :: later →
    (w₀.after before).Leaves e i term .lockLost seen →
      ((w₀.after before).next e).attemptsIn i term.watcher later = []
  /-- After the event loop of a term that was shut down one watermark is tried and then one event
  time at most. The watermark is the larger of the last one of the term and the one that the watcher has
  come to. Until it is tried, the manager waits for the watcher or is about to try. -/
  shutdown : ∀ before e later term seen, events = before ++ e :: later →
    (w₀.after before).Leaves e i term .shutdown seen →
      (∃ x, (w₀.after before).watchers[term.watcher]? = some x ∧ seen = x.progress.watermark) ∧
        (((w₀.after before).next e).attemptsIn i term.watcher later = [] ∧
            (∃ m, (w₀.after events).managers[i]? = some m ∧
              (m.phase = .stopping term .shutdown seen ∨ ∃ v, m.phase = .saving term v true)) ∨
          ∃ x result ok times, (w₀.after events).watchers[term.watcher]? = some x ∧
            x.halt = some (.ended result) ∧ (∀ v, result = .ok v → v = x.progress.watermark) ∧
            ((w₀.after before).next e).attemptsIn i term.watcher later =
              lastAttempt i term seen key result ok :: times ∧
            times.length ≤ 1 ∧ ∀ a ∈ times, a.isTime = true)
  /-- Once the watcher is stopped two turns of the manager are enough for that. -/
  tried : ∀ before e first rest term seen, events = before ++ e :: (first ++ rest) →
    (w₀.after before).Leaves e i term .shutdown seen →
      (∃ result, (((w₀.after before).next e).after first).HasStopped term.watcher result) →
        2 ≤ turnsOf i rest →
          ((w₀.after before).next e).attemptsIn i term.watcher (first ++ rest) ≠ []

/-- A manager that has its checkpoint for itself keeps the discipline of writes, whatever the order
of reads, losses of the lock, reports, writes and shutdowns is, and whichever of them fail. -/
theorem keeps_write_discipline {w₀ : World} (hfresh : w₀.IsFresh)
    (hu : w₀.Undisturbed i (settings.checkpointKey role) events) :
    w₀.WriteDiscipline i (settings.checkpointKey role) events := by
  have htrusted := hfresh.trusted (settings.checkpointKey role)
  have hwords := hfresh.inWords
  -- at every time of the run the manager has the checkpoint for itself
  have undisturbed {before later : List Event} {e : Event} (heq : events = before ++ e :: later) :
      w₀.Undisturbed i (settings.checkpointKey role) (before ++ [e]) := by
    rw [heq, List.append_cons] at hu
    exact hu.append_left
  have sole {before later : List Event} {e : Event} (heq : events = before ++ e :: later) :
      (w₀.after before).Sole i (settings.checkpointKey role) :=
    (undisturbed heq).append_left.sole
  have closing {before later : List Event} {e : Event} {term : Term} {seen : Nat}
      (heq : events = before ++ e :: later)
      (hl : (w₀.after before).Leaves e i term .shutdown seen) :
      ((w₀.after before).next e).Closing i term seen (settings.checkpointKey role) 2 [] :=
    hl.closing fun m hm => (sole heq i m hm).mpr rfl
  have hsize (k : Nat) : w₀.watchers.size ≤ k := by simp [hfresh.watchers]
  refine ⟨fun now task => next_store _ now task, fun k hk => hasBegun_of_lt (hsize k) hk, ?_,
    (pairwise_writes hu htrusted hwords).1, ?_,
    fun before e later term seen heq hl => attemptsIn_eq_nil hl later, ?_, ?_⟩
  · intro before e later term heq hbegins
    have hnew := hbegins.hasNew.2
    obtain ⟨now, m, m', -, hm, hph, -⟩ := hbegins
    refine ⟨restores_of_precedes hfresh hm (hph ▸ .starting), ?_, hnew⟩
    have htrust := (trusted_after (undisturbed heq).append_left htrusted hwords).1
    exact (htrust.belief i m _ hm ((sole heq i m hm).mpr rfl) (by rw [hph]; rfl)).symm
  · intro before e later write heq hwrite hk
    obtain ⟨j, earlier, e', between, term, hbefore, hbegins, hw, hle, hcommitted, m, hm, hkey⟩ :=
      committed_of_write hfresh hwrite
    have hj : j = i := (sole heq j m hm).mp (hkey.symm.trans hk)
    subst hj
    exact ⟨earlier, e', between, term, hbefore, hbegins, hw, hle, hcommitted⟩
  · intro before e later term seen heq hl
    obtain ⟨n, hclosing, -⟩ := closing_after (closing heq hl) later
    refine ⟨hl.seen_eq, ?_⟩
    rw [heq, after_append, after_cons]
    rcases hclosing.made_cases with hwaits | ⟨result, ok, times, ⟨x, hx, hh⟩, hmade, htimes⟩
    · exact Or.inl hwaits
    · refine Or.inr ⟨x, result, ok, times, hx, hh, ?_, hmade, htimes⟩
      rintro v rfl
      obtain ⟨now, m, m', -, hm, hph, -⟩ := hl
      exact final_of_term hfresh hm (by rw [hph]; rfl) (e :: later) hx hh
  · intro before e first rest term seen heq hl hstopped hturns
    obtain ⟨n₁, h₁, -⟩ := closing_after (closing heq hl) first
    obtain ⟨n₂, h₂, hle⟩ := closing_after h₁ rest
    have hzero : n₂ = 0 := by
      have := hle hstopped
      have := h₁.le_two
      omega
    subst hzero
    rw [attemptsIn_append]
    exact h₂.ne_nil

/-! ## A shutdown -/

/-- A manager that has written the watermark of a change is shut down while the work on the change
goes on. -/
def shuttingDown : List Event :=
  restoring ++ .step 0 (.manager 0) :: reporting ++ managerTurns 5000 0 1 ++ [.act (.shutDown 0)]

/-- The watcher is stopped, which gives up on the work under way when its time is over. -/
def givingUp : List Event :=
  [.step 5000 (.halt 0), .step 5000 (.loop 0), .step 5000 (.halt 0), .step 5000 (.reporter 0),
    .step 5000 (.halt 0), .step 10000 (.halt 0), .step 10000 (.halt 0)]

/-- All of it, up to the last write. -/
def shutDownRun : List Event :=
  shuttingDown ++ .step 5000 (.manager 0) :: (givingUp ++ managerTurns 10000 0 2)

theorem undisturbed_shutDownRun :
    slowRecord.Undisturbed 0 (Settings.Coordination.standard.checkpointKey Role.jobs.name)
      shutDownRun where
  put := fun value hmem => by
    simp [shutDownRun, shuttingDown, restoring, reporting, givingUp, managerTurns] at hmem
  words := fun k => by
    cases k with
    | zero => decide +kernel
    | succ k =>
      -- there is no other watcher
      rw [heard_eq_nil fun now h => by
        simp [shutDownRun, shuttingDown, restoring, reporting, givingUp, managerTurns] at h]
      intro page h
      cases h
  sole := by
    intro j m hm
    have hsize : (slowRecord.after shutDownRun).managers.size = 1 := by decide +kernel
    have hlt : j < (slowRecord.after shutDownRun).managers.size := (Array.getElem?_eq_some_iff.mp hm).1
    have hj : j = 0 := by omega
    subst hj
    have hkey : ((slowRecord.after shutDownRun).managers[0]?).map Manager.checkpointKey =
        some (Settings.Coordination.standard.checkpointKey Role.jobs.name) := by decide +kernel
    rw [hm] at hkey
    simpa using hkey

/-- The watermark is tried for a last time, although it was written before. -/
theorem keeps_write_discipline_of_shutdown :
    let key := Settings.Coordination.standard.checkpointKey Role.jobs.name
    let term : Term := { slowTerm with persisted := 7 }
    ∃ result ok times,
      ((slowRecord.after shuttingDown).next (.step 5000 (.manager 0))).attemptsIn 0 0
          (givingUp ++ managerTurns 10000 0 2) =
        lastAttempt 0 term 7 key result ok :: times := by
  intro key term
  have hfresh : slowRecord.IsFresh := ⟨rfl, rfl, rfl, Or.inl rfl⟩
  have hleaves : (slowRecord.after shuttingDown).Leaves (.step 5000 (.manager 0)) 0 term
      .shutdown 7 := ⟨5000, _, _, rfl, rfl, rfl, rfl, rfl⟩
  have hd := keeps_write_discipline hfresh undisturbed_shutDownRun
  have htried := hd.tried shuttingDown _ givingUp (managerTurns 10000 0 2) term 7 rfl hleaves
    ⟨.ok 7, _, rfl, rfl⟩ (by decide)
  obtain ⟨-, ⟨hnil, -⟩ | ⟨x, result, ok, times, -, -, -, heq, -⟩⟩ :=
    hd.shutdown shuttingDown _ _ term 7 rfl hleaves
  · exact absurd hnil htried
  · exact ⟨result, ok, times, heq⟩

end World

end ChangeFeed.Engine
