import ChangeFeed.Proofs.Engine.Holders

/-!
# Writes of watermarks

* `writeAt?` is the watermark that is written with an event, if the write succeeds, and `writes` are
  all of a run. A write tells under which term it was made, and whether the lock service still
  honoured the lease of that term.
* `next_restore`: nothing but such a write changes what a checkpoint restores as, unless someone
  outside writes to its key. In particular no event time is ever written to the key of a watermark.
-/

namespace ChangeFeed.Engine

/-! ## Keys -/

namespace Settings.Coordination

variable {s s' : ChangeFeed.Settings.Coordination} {role role' : String}

/-- Who shares the checkpoint shares the lock. -/
theorem lockKey_eq_of_checkpointKey_eq (h : s.checkpointKey role = s'.checkpointKey role') :
    s.lockKey role = s'.lockKey role' := by
  have hl : (s.keyPrefix ++ role).toList ++ ".value".toList =
      (s'.keyPrefix ++ role').toList ++ ".value".toList := by
    rw [← String.toList_append, ← String.toList_append]
    exact congrArg String.toList h
  have hp : s.keyPrefix ++ role = s'.keyPrefix ++ role' :=
    String.toList_inj.mp (List.append_cancel_right hl)
  simp only [ChangeFeed.Settings.Coordination.lockKey, hp]

/-- No event time has the key of a watermark. -/
theorem eventTimeKey_ne_checkpointKey : s.eventTimeKey role ≠ s'.checkpointKey role' := by
  intro h
  have hl : (s.keyPrefix ++ role).toList ++ ".event_time".toList =
      (s'.keyPrefix ++ role').toList ++ ".value".toList := by
    rw [← String.toList_append, ← String.toList_append]
    exact congrArg String.toList h
  have hr := congrArg (fun cs : List Char => cs.reverse.take 2) hl
  simp at hr

end Settings.Coordination

/-! ## One step of a manager -/

/-- A step of a manager writes a watermark, or fails to, or has none to write; then it may write an
event time. -/
theorem Manager.Move.store_cases {w : World} {i : Nat} {m : Manager} {phase : Manager.Phase}
    {locks : Locks} {store : Checkpoint.Flaky} {watchers : Array Watcher}
    (hm : Manager.Move w i m phase locks store watchers) :
    (∃ term watermark last, m.phase = .saving term watermark last ∧
      w.store.writesFail = false ∧ store = (w.store.persist m.checkpointKey watermark).2) ∨
      w.store.writesFail = true ∧ store = w.store ∨
      m.phase.isSaving = false ∧ (store = w.store ∨ ∃ key value, m.eventTimeKey? = some key ∧
        store = (w.store.persist key value).2) := by
  -- most steps leave the store alone
  have rests {phase : Manager.Phase} (hph : m.phase = phase) (hs : phase.isSaving = false) :
      (∃ term watermark last, m.phase = .saving term watermark last ∧
        w.store.writesFail = false ∧ w.store = (w.store.persist m.checkpointKey watermark).2) ∨
        w.store.writesFail = true ∧ w.store = w.store ∨
        m.phase.isSaving = false ∧ (w.store = w.store ∨ ∃ key value, m.eventTimeKey? = some key ∧
          w.store = (w.store.persist key value).2) :=
    Or.inr (Or.inr ⟨by rw [hph, hs], Or.inl rfl⟩)
  -- who holds no lease has nothing to write
  have unheld (hh : m.phase.held? = none) : m.phase.isSaving = false := by
    cases hph : m.phase with
    | saving term watermark last =>
      rw [hph] at hh
      cases hh
    | _ => rfl
  cases hm with
  | saves term watermark last hph hs => exact Or.inl ⟨term, watermark, last, hph, hs, rfl⟩
  | savesNot term watermark last hph hs => exact Or.inr (Or.inl ⟨hs, rfl⟩)
  | savesTime term last time store hph hs => exact Or.inr (Or.inr ⟨by rw [hph]; rfl, hs⟩)
  | idles _ _ hh hh' hl => exact rests rfl (unheld hh)
  | obtains held _ hh hs hk hg => exact rests rfl (unheld hh)
  | gives held outcome hh ht =>
    refine rests rfl ?_
    cases hph : m.phase with
    | saving term watermark last =>
      rw [hph] at ht
      cases ht
    | _ => rfl
  | reads _ hs hl => exact rests rfl hs
  | restores held delay watermark hph hr => exact rests hph rfl
  | completes held delay watermark watermark? hph hr => exact rests hph rfl
  | backsOff held delay due watermark? hph => exact rests hph rfl
  | triesAgain held delay due next hph => exact rests hph rfl
  | leads held watermark time x hph hx => exact rests hph rfl
  | hears term x watermark rest _ hph hx hq hp => exact rests hph rfl
  | halts term outcome x hph hx => exact rests hph rfl
  | finishes term outcome seen x result hph hx hh => exact rests hph rfl
  | releases held outcome _ hph hl => exact rests hph rfl

/-! ## Writes -/

/-- A watermark that was written. -/
structure Write where
  key : String
  value : Nat
  /-- The watcher of the term. -/
  watcher : Nat
  /-- Whether the term ends with it. -/
  last : Bool
  /-- Whether the lock service still honoured the lease of the term. -/
  leased : Bool
  deriving DecidableEq, Inhabited

namespace World

/-- The watermark that is written with an event. -/
def writeAt? (w : World) : Event → Option Write
  | .step _ (.manager i) =>
    match w.managers[i]? with
    | some m =>
      match m.phase with
      | .saving term watermark last =>
        if w.store.writesFail then none
        else
          some ⟨m.checkpointKey, watermark, term.watcher, last,
            w.locks.leases.honours term.held⟩
      | _ => none
    | none => none
  | _ => none

/-- The watermarks that are written during some events, in order. -/
def writes (w : World) : List Event → List Write
  | [] => []
  | e :: events => (w.writeAt? e).toList ++ (w.next e).writes events

variable {w : World} {e : Event} {write : Write}

theorem mem_writes {events : List Event} (h : write ∈ w.writes events) :
    ∃ earlier e later, events = earlier ++ e :: later ∧
      (w.after earlier).writeAt? e = some write := by
  induction events generalizing w with
  | nil => cases h
  | cons e rest ih =>
    rcases List.mem_append.mp h with h | h
    · exact ⟨[], e, rest, rfl, Option.mem_toList.mp h⟩
    · obtain ⟨earlier, e', later, rfl, hw⟩ := ih h
      exact ⟨e :: earlier, e', later, rfl, hw⟩

theorem writeAt?_eq_some_iff :
    w.writeAt? e = some write ↔
      ∃ (now i : Nat) (m : Manager) (term : Term),
        e = .step now (.manager i) ∧ w.managers[i]? = some m ∧
        m.phase = .saving term write.value write.last ∧ w.store.writesFail = false ∧
        write.key = m.checkpointKey ∧ write.watcher = term.watcher ∧
        write.leased = w.locks.leases.honours term.held := by
  constructor
  · intro h
    unfold writeAt? at h
    split at h
    · rename_i now i
      split at h
      · rename_i m hm
        split at h
        · rename_i term watermark last hph
          split at h
          · cases h
          · rename_i hf
            cases h
            exact ⟨now, i, m, term, rfl, hm, hph, by simpa using hf, rfl, rfl, rfl⟩
        · cases h
      · cases h
    · cases h
  · rintro ⟨now, i, m, term, rfl, hm, hph, hf, hk, hw, hl⟩
    obtain ⟨key, value, watcher, last, leased⟩ := write
    simp only at hk hw hl hph
    subst hk hw hl
    simp [writeAt?, hm, hph, hf]

theorem stepManager?_of_saving {now i : Nat} {m : Manager} {term : Term} {watermark : Nat}
    {last : Bool} (hm : w.managers[i]? = some m) (hph : m.phase = .saving term watermark last) :
    w.stepManager? now i ≠ none := by
  simp [stepManager?, hm, hph]

theorem next_restore {settings : ChangeFeed.Settings.Coordination} {role : String}
    (hput : ∀ value, e ≠ .act (.putValue (settings.checkpointKey role) value)) :
    (∃ write, w.writeAt? e = some write ∧ write.key = settings.checkpointKey role ∧
      (w.next e).store.store =
        w.store.store.persist (settings.checkpointKey role) write.value) ∨
      (∀ write, w.writeAt? e = some write → write.key ≠ settings.checkpointKey role) ∧
        (w.next e).store.store.restore (settings.checkpointKey role) =
          w.store.store.restore (settings.checkpointKey role) := by
  have h := next_spec w e
  generalize hw' : w.next e = w' at h ⊢
  -- the event writes no watermark, and keeps the store
  have keeps (hno : ∀ now i, e = .step now (.manager i) → w.stepManager? now i = none)
      (hs : w'.store.store = w.store.store) :
      (∀ write, w.writeAt? e = some write → write.key ≠ settings.checkpointKey role) ∧
        w'.store.store.restore (settings.checkpointKey role) =
          w.store.store.restore (settings.checkpointKey role) := by
    refine ⟨fun write hwrite => ?_, by rw [hs]⟩
    obtain ⟨now, i, m, term, he, hm, hph, -⟩ := writeAt?_eq_some_iff.mp hwrite
    exact absurd (hno now i he) (stepManager?_of_saving hm hph)
  cases h with
  | rests e w' hw hr hf ht hh hd ha hm =>
    exact Or.inr (keeps hm (by rw [store_eq_of_rule hr]))
  | loop now k x x' w' hx h => exact Or.inr (keeps (by simp) (by rw [store_eq_of_rule h.rule]))
  | watcher now k task htask x x' w' hx hw hr =>
    exact Or.inr (keeps (by rcases htask with rfl | rfl <;> simp) (by rw [store_eq_of_rule hr]))
  | publication now j p p' x w' hp hx h =>
    exact Or.inr (keeps (by simp) (by rw [store_eq_of_rule h.rule]))
  | act a w' h =>
    rcases h.store with hs | ⟨key, value, ha, hs⟩
    · exact Or.inr (keeps (by simp) hs)
    · have hne : settings.checkpointKey role ≠ key := by
        intro hk
        subst hk
        exact hput value (by rw [ha])
      refine Or.inr ⟨fun write hwrite => ?_, ?_⟩
      · obtain ⟨now, i, m, term, he, -⟩ := writeAt?_eq_some_iff.mp hwrite
        cases he
      · rw [hs, Checkpoint.Store.restore_put_of_ne hne]
  | manager now i m phase w' hm h =>
    -- a write with this event is one of this manager
    have writer (write : Write) (hwrite : w.writeAt? (.step now (.manager i)) = some write) :
        write.key = m.checkpointKey ∧ m.phase.isSaving = true ∧ w.store.writesFail = false := by
      obtain ⟨now', i', m', term, he, hm', hph, hf, hkey, -⟩ := writeAt?_eq_some_iff.mp hwrite
      cases he
      rw [hm] at hm'
      cases hm'
      exact ⟨hkey, by rw [hph]; rfl, hf⟩
    rcases h.move.store_cases with
      ⟨term, watermark, last, hph, hf, hs⟩ | ⟨hf, hs⟩ | ⟨hno, hs | ⟨key, value, hk, hs⟩⟩
    · rw [hs, Checkpoint.Flaky.persist_of_succeeds hf]
      by_cases hk : m.checkpointKey = settings.checkpointKey role
      · left
        refine ⟨⟨m.checkpointKey, watermark, term.watcher, last, _⟩,
          writeAt?_eq_some_iff.mpr ⟨now, i, m, term, rfl, hm, hph, hf, rfl, rfl, rfl⟩, hk, ?_⟩
        rw [hk]
      · right
        refine ⟨fun write hwrite => ?_, Checkpoint.Store.restore_put_of_ne (Ne.symm hk) _ _⟩
        rw [(writer write hwrite).1]
        exact hk
    · refine Or.inr ⟨fun write hwrite => ?_, by rw [hs]⟩
      rw [(writer write hwrite).2.2] at hf
      cases hf
    · refine Or.inr ⟨fun write hwrite => ?_, by rw [hs]⟩
      rw [(writer write hwrite).2.1] at hno
      cases hno
    · refine Or.inr ⟨fun write hwrite => ?_, ?_⟩
      · rw [(writer write hwrite).2.1] at hno
        cases hno
      · have hne : settings.checkpointKey role ≠ key := by
          unfold Manager.eventTimeKey? at hk
          split at hk
          · cases hk
            exact Ne.symm Settings.Coordination.eventTimeKey_ne_checkpointKey
          · cases hk
        cases hf : w.store.writesFail with
        | true => rw [hs, Checkpoint.Flaky.persist_of_fails hf]
        | false =>
          rw [hs, Checkpoint.Flaky.persist_of_succeeds hf]
          exact Checkpoint.Store.restore_put_of_ne hne _ _

end World

end ChangeFeed.Engine
