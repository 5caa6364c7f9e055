import ChangeFeed.Proofs.Engine.ActMoves
import ChangeFeed.Proofs.Engine.PublicationMoves

/-!
# What an event does

The steps of all tasks and the acts from outside, put together by `EventStep` and `next_spec`. Each
part of a system changes by moves of its own, whatever the event is:

* `next_watcher` and `next_publication` say so of a watcher and of the work on a change, and
  `next_publications` says which work an event adds.
* `next_new_watcher`: only a manager starts watchers.
-/

namespace ChangeFeed.Engine

namespace World

variable {w w' : World}

/-! ## Tasks that wait -/

theorem takes?_of_stepLoop? {now i : Nat} (h : w.stepLoop? now i = none) :
    w.takes? now i = none := by
  refine Option.eq_none_iff_forall_ne_some.mpr fun answer ha => ?_
  obtain ⟨x, due, hx, hl, hc, hd⟩ := takes?_eq_some_iff.mp ha
  have hd' : ¬ now < due := Nat.not_lt.mpr hd
  cases answer <;> simp [stepLoop?, hx, hl, hc, hd'] at h

theorem due?_of_stepPublication? {now i : Nat} (h : w.stepPublication? now i = none) :
    w.due? now i = none := by
  cases hp : w.publications[i]? with
  | none => simp [due?, hp]
  | some p =>
    cases hx : w.watchers[p.watcher]? with
    | none => simp [due?, hp, hx]
    | some x =>
      rw [due?_eq now hp hx]
      simp only [stepPublication?, hp, hx, Option.bind_eq_bind, Option.bind_some] at h
      cases hph : p.phase with
      | begun =>
        simp only [hph] at h
        split at h <;> cases h
      | lookingUp due answer =>
        simp only [hph] at h
        cases answer with
        | error e => rfl
        | ok record =>
          split at h
          · rename_i hn
            simp [hn]
          · rcases hm : messages x p.change.id record with ⟨e | ⟨ms, newest⟩, x'⟩ <;>
              simp [hm] at h
      | putting current left newest => rfl
      | ended result => rfl

theorem accepted?_of_stepPublication? {now i : Nat} (h : w.stepPublication? now i = none) :
    w.accepted? now i = none := by
  cases hp : w.publications[i]? with
  | none => simp [accepted?, hp]
  | some p =>
    cases hx : w.watchers[p.watcher]? with
    | none => simp [accepted?, hp, hx]
    | some x =>
      rw [accepted?_eq now hp hx]
      simp only [stepPublication?, hp, hx, Option.bind_eq_bind, Option.bind_some] at h
      cases hph : p.phase with
      | putting current left newest =>
        cases left with
        | nil => rfl
        | cons m rest =>
          simp only [hph] at h
          cases hput : w.stepPut? now x.outlet m current with
          | none => simp [hput]
          | some r =>
            obtain ⟨next, w₁⟩ := r
            rw [hput] at h
            rcases next with put | e | ⟨⟩ <;> simp at h
      | begun => rfl
      | lookingUp due answer => rfl
      | ended result => rfl

/-! ## Events -/

inductive EventStep (w : World) : Event → World → Prop where
  /-- A task waits, or its step is one around a sink. -/
  | rests (e : Event) (w' : World) (hw : w'.work = w.work) (hr : w'.rule = w.rule)
      (hc : w'.metrics = w.metrics) (ht : ∀ k, w.answerAt? k e = none) (hh : w.handedAt e = [])
      (hd : ∀ j, w.dueAt? j e = none) (ha : ∀ j, w.acceptedAt? j e = none)
      (hm : ∀ now i, e = .step now (.manager i) → w.stepManager? now i = none) : EventStep w e w'
  | loop (now i : Nat) (x x' : Watcher) (w' : World) (hx : w.watchers[i]? = some x)
      (h : LoopStep w now i x x' w') : EventStep w (.step now (.loop i)) w'
  | watcher (now i : Nat) (task : Task) (htask : task = .reporter i ∨ task = .halt i)
      (x x' : Watcher) (w' : World) (hx : w.watchers[i]? = some x)
      (hw : w'.work = (w.setWatcher i x').work) (hr : w'.rule = w.rule)
      (hc : w'.metrics = w.metrics) (hm : Watcher.Move w (.step now task) i x none x') :
      EventStep w (.step now task) w'
  | publication (now i : Nat) (p p' : Publication) (x : Watcher) (w' : World)
      (hp : w.publications[i]? = some p) (hx : w.watchers[p.watcher]? = some x)
      (h : PublicationStep w now i p p' x w') : EventStep w (.step now (.publication i)) w'
  | manager (now i : Nat) (m : Manager) (phase : Manager.Phase) (w' : World)
      (hm : w.managers[i]? = some m) (h : ManagerStep w i m phase w') :
      EventStep w (.step now (.manager i)) w'
  | act (a : Act) (w' : World) (h : ActStep w a w') : EventStep w (.act a) w'

theorem EventStep.waits {now : Nat} {task : Task} (h : w.step? now task = none) :
    EventStep w (.step now task) w := by
  refine .rests _ _ rfl rfl rfl (fun k => ?_) ?_ (fun j => ?_) (fun j => ?_) fun now' i heq => ?_
  · cases task with
    | loop i =>
      by_cases hk : i = k
      · subst hk
        rw [answerAt?_self, takes?_of_stepLoop? h]
      · exact answerAt?_of_ne (Ne.symm hk)
    | _ => rfl
  · cases task with
    | loop i => simp [handedAt, takes?_of_stepLoop? h]
    | _ => rfl
  · cases task with
    | publication i =>
      by_cases hj : i = j
      · subst hj
        simp [dueAt?, due?_of_stepPublication? h]
      · simp [dueAt?, hj]
    | _ => rfl
  · cases task with
    | publication i =>
      by_cases hj : i = j
      · subst hj
        simp [acceptedAt?, accepted?_of_stepPublication? h]
      · simp [acceptedAt?, hj]
    | _ => rfl
  · cases heq
    exact h

theorem EventStep.aside {now : Nat} {task : Task} (h : (∃ o i, task = .writer o i) ∨ ∃ i, task = .call i)
    (hw : w'.work = w.work) (hr : w'.rule = w.rule) (hc : w'.metrics = w.metrics) :
    EventStep w (.step now task) w' := by
  rcases h with ⟨o, i, rfl⟩ | ⟨i, rfl⟩
  · exact .rests _ _ hw hr hc (fun _ => rfl) rfl (fun _ => rfl) (fun _ => rfl) (by rintro _ _ ⟨⟩)
  · exact .rests _ _ hw hr hc (fun _ => rfl) rfl (fun _ => rfl) (fun _ => rfl) (by rintro _ _ ⟨⟩)

theorem next_spec (w : World) (e : Event) : EventStep w e (w.next e) := by
  cases e with
  | act a => exact .act a _ (perform_spec w a)
  | step now task =>
    cases hs : w.step? now task with
    | none =>
      simp only [next, hs, Option.getD_none]
      exact .waits hs
    | some w' =>
      simp only [next, hs, Option.getD_some]
      cases task with
      | writer outlet i =>
        obtain ⟨outlets, log, rfl⟩ := stepWriter?_eq hs
        exact .aside (Or.inl ⟨_, _, rfl⟩) rfl rfl rfl
      | call i =>
        obtain ⟨outlets, calls, log, rfl⟩ := stepCall?_eq hs
        exact .aside (Or.inr ⟨_, rfl⟩) rfl rfl rfl
      | loop i =>
        cases hx : w.watchers[i]? with
        | none => simp [step?, stepLoop?, hx] at hs
        | some x =>
          obtain ⟨x', h⟩ := stepLoop?_spec hx hs
          exact .loop now i x x' w' hx h
      | reporter i =>
        cases hx : w.watchers[i]? with
        | none => simp [step?, stepReporter?, hx] at hs
        | some x =>
          obtain ⟨x', rfl, hm⟩ := stepReporter?_spec hx hs
          exact .watcher now i _ (Or.inl rfl) x x' _ hx rfl rfl rfl (hm _)
      | halt i =>
        cases hx : w.watchers[i]? with
        | none => simp [step?, stepHalt?, hx] at hs
        | some x =>
          obtain ⟨x', hw, hr, hmetrics, hm⟩ := stepHalt?_spec hx hs
          exact .watcher now i _ (Or.inr rfl) x x' _ hx hw hr hmetrics hm
      | publication i =>
        obtain ⟨p, p', x, hp, hx, h⟩ := stepPublication?_spec hs
        exact .publication now i p p' x w' hp hx h
      | manager i =>
        obtain ⟨m, phase, hm, h⟩ := stepManager?_spec hs
        exact .manager now i m phase w' hm h

/-! ## Watchers -/

theorem ManagerStep.watchers {i : Nat} {m : Manager} {phase : Manager.Phase}
    (h : ManagerStep w i m phase w') (e : Event) :
    Stirs w e w'.watchers ∨ ∃ held watermark time x, m.phase = .starting held watermark time ∧
      phase = .leading ⟨held, w.watchers.size, watermark, time⟩ ∧
      w'.watchers = w.watchers.push x ∧ x.IsNew m.role watermark := by
  have hmove := h.move
  generalize w'.locks = locks, w'.store = store, w'.watchers = watchers at hmove ⊢
  cases hmove with
  | leads held watermark time x hph hx => exact Or.inr ⟨held, watermark, time, x, hph, rfl, rfl, hx⟩
  | hears term x watermark rest phase hph hx => exact Or.inl (.setWatcher hx .receives)
  | halts term outcome x hph hx => exact Or.inl (haltWatcher_stirs w e _)
  | _ => exact Or.inl (.refl w e)

theorem next_watcher (e : Event) {k : Nat} {x : Watcher} (hx : w.watchers[k]? = some x) :
    ∃ x', (w.next e).watchers[k]? = some x' ∧ Watcher.Move w e k x (w.answerAt? k e) x' := by
  have h := next_spec w e
  generalize w.next e = w' at h ⊢
  cases h with
  | rests e w' hw hr hf ht => exact exists_move_of_eq (watchers_eq_of_work hw) (ht k) hx
  | loop now i y y' w' hy h =>
    refine exists_move hy h.watchers ?_ (fun k hk => answerAt?_of_ne hk) hx
    rw [answerAt?_self]
    exact h.move
  | watcher now i task htask y y' w' hy hw hr hf hm =>
    have ha (k : Nat) : w.answerAt? k (.step now task) = none := by
      rcases htask with rfl | rfl <;> rfl
    exact exists_move hy (watchers_eq_of_work hw) (ha i ▸ hm) (fun k _ => ha k) hx
  | publication now i p p' y w' hp hy h =>
    obtain ⟨claims, clock, hw⟩ := h.watchers
    exact exists_move hy hw (.publishes claims clock ⟨now, i, rfl⟩) (fun _ _ => rfl) hx
  | manager now i m phase w' hm h =>
    rcases h.watchers (.step now (.manager i)) with hs | ⟨held, v, t, y, -, -, hw, -⟩
    · exact hs.2 k x hx
    · have hk : k < w.watchers.size := (Array.getElem?_eq_some_iff.mp hx).1
      refine ⟨x, ?_, .rests⟩
      rw [hw, Array.getElem?_push_lt hk, ← Array.getElem?_eq_getElem hk, hx]
  | act a w' h => exact h.watchers.2 k x hx

/-- A watcher that an event adds was started by a manager. -/
theorem next_new_watcher {e : Event} {k : Nat} {x : Watcher}
    (hx : (w.next e).watchers[k]? = some x) (hk : w.watchers.size ≤ k) :
    ∃ now i m held watermark time, e = .step now (.manager i) ∧ w.managers[i]? = some m ∧
      m.phase = .starting held watermark time ∧ k = w.watchers.size ∧ x.IsNew m.role watermark ∧
      ∃ m', (w.next e).managers[i]? = some m' ∧
        m'.phase = .leading ⟨held, k, watermark, time⟩ := by
  have same {watchers : Array Watcher} (hs : watchers.size = w.watchers.size)
      (hx : watchers[k]? = some x) : False := by
    have := (Array.getElem?_eq_some_iff.mp hx).1
    omega
  have h := next_spec w e
  generalize w.next e = w' at h hx ⊢
  cases h with
  | rests e w' hw => exact (same (congrArg Array.size (watchers_eq_of_work hw)) hx).elim
  | loop now i y y' w' hy h =>
    exact (same (by rw [h.watchers]; simp [setWatcher]) hx).elim
  | watcher now i task htask y y' w' hy hw =>
    exact (same (by rw [watchers_eq_of_work hw]; simp [setWatcher]) hx).elim
  | publication now i p p' y w' hp hy h =>
    obtain ⟨claims, clock, hw⟩ := h.watchers
    exact (same (by rw [hw]; simp [setWatcher]) hx).elim
  | act a w' h => exact (same h.watchers.1 hx).elim
  | manager now i m phase w' hm h =>
    rcases h.watchers (.step now (.manager i)) with hs | ⟨held, v, t, y, hph, hph', hw, hnew⟩
    · exact (same hs.1 hx).elim
    · rw [hw] at hx
      have hlt := (Array.getElem?_eq_some_iff.mp hx).1
      have hk' : k = w.watchers.size := by
        rw [Array.size_push] at hlt
        omega
      subst hk'
      rw [Array.getElem?_push_size] at hx
      cases hx
      obtain ⟨nextTick, hms⟩ := h.managers
      have hi : i < w.managers.size := (Array.getElem?_eq_some_iff.mp hm).1
      refine ⟨now, i, m, held, v, t, rfl, hm, hph, rfl, hnew, { m with nextTick, phase }, ?_, hph'⟩
      rw [hms, Array.getElem?_setIfInBounds_self_of_lt hi]

theorem size_watchers_le_next (w : World) (e : Event) :
    w.watchers.size ≤ (w.next e).watchers.size := by
  refine Nat.le_of_not_lt fun h => ?_
  have hx : w.watchers[(w.next e).watchers.size]? = some w.watchers[(w.next e).watchers.size] :=
    Array.getElem?_eq_getElem h
  obtain ⟨x', hx', -⟩ := next_watcher e hx
  exact absurd (Array.getElem?_eq_some_iff.mp hx').1 (Nat.lt_irrefl _)

/-! ## The work on changes -/

/-- What an event does to the work on changes: it adds what is handed on, and moves what was
there. -/
theorem next_publications (w : World) (e : Event) :
    ∃ old : Array Publication,
      (w.next e).publications =
        old ++ ((w.handedAt e).map fun (k, c) => ⟨k, c, .begun⟩).toArray ∧
      old.size = w.publications.size ∧
      ∀ j p, w.publications[j]? = some p →
        ∃ p', old[j]? = some p' ∧ Publication.Move p (w.dueAt? j e) (w.acceptedAt? j e) p' := by
  have h := next_spec w e
  generalize w.next e = w' at h ⊢
  -- only the steps of loops and of the work itself change anything here
  have rests (hh : w.handedAt e = []) (hp : w'.publications = w.publications)
      (hd : ∀ j, w.dueAt? j e = none) (ha : ∀ j, w.acceptedAt? j e = none) :
      ∃ old : Array Publication,
        w'.publications = old ++ ((w.handedAt e).map fun (k, c) => ⟨k, c, .begun⟩).toArray ∧
        old.size = w.publications.size ∧
        ∀ j p, w.publications[j]? = some p →
          ∃ p', old[j]? = some p' ∧ Publication.Move p (w.dueAt? j e) (w.acceptedAt? j e) p' := by
    refine ⟨w.publications, by simp [hh, hp], rfl, fun j p hj => ⟨p, hj, ?_⟩⟩
    rw [hd, ha]
    exact .rests
  cases h with
  | rests e w' hw hr hf ht hh hd ha => exact rests hh (publications_eq_of_work hw) hd ha
  | watcher now i task htask y y' w' hy hw hr hf hm =>
    have hpub : w'.publications = (w.setWatcher i y').publications := publications_eq_of_work hw
    rcases htask with rfl | rfl
    · exact rests rfl hpub (fun _ => rfl) fun _ => rfl
    · exact rests rfl hpub (fun _ => rfl) fun _ => rfl
  | manager now i m phase w' hm h => exact rests rfl h.publications (fun _ => rfl) fun _ => rfl
  | act a w' h => exact rests rfl h.publications (fun _ => rfl) fun _ => rfl
  | loop now i y y' w' hy h =>
    exact ⟨w.publications, h.publications, rfl, fun j p hj => ⟨p, hj, .rests⟩⟩
  | publication now i p p' y w' hp hy h =>
    refine ⟨w'.publications, by simp [handedAt], by rw [h.publications]; simp, fun j q hj => ?_⟩
    rw [h.publications]
    by_cases hij : i = j
    · subst hij
      rw [hp] at hj
      cases hj
      have hi : i < w.publications.size := (Array.getElem?_eq_some_iff.mp hp).1
      refine ⟨p', Array.getElem?_setIfInBounds_self_of_lt hi, ?_⟩
      simpa [dueAt?, acceptedAt?] using h.move
    · refine ⟨q, by rw [Array.getElem?_setIfInBounds_ne hij, hj], ?_⟩
      simp only [dueAt?, acceptedAt?, if_neg hij]
      exact .rests

theorem next_publication (e : Event) {j : Nat} {p : Publication}
    (hp : w.publications[j]? = some p) :
    ∃ p', (w.next e).publications[j]? = some p' ∧
      Publication.Move p (w.dueAt? j e) (w.acceptedAt? j e) p' := by
  obtain ⟨old, heq, hsize, hold⟩ := next_publications w e
  obtain ⟨p', hp', hm⟩ := hold j p hp
  refine ⟨p', ?_, hm⟩
  rw [heq, Array.getElem?_append_left (Array.getElem?_eq_some_iff.mp hp').1, hp']

end World

end ChangeFeed.Engine
