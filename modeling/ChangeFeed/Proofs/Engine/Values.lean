import ChangeFeed.Proofs.Engine.Events

/-!
# Where watermarks go

A watermark is taken from a watch loop by its reporter, waits in a channel, and is kept and written
by the manager of the term; the call that stops the watcher answers it too. Nobody computes a
watermark anywhere else. So what holds of every watermark that a loop ever had, and of the one that
the term began with, holds of all that are kept in any of these places.

* `Watcher.Carries` and `Manager.Phase.values` are these places.
* `Watcher.Move.carries` and `Manager.Move.values` are the steps.
-/

namespace ChangeFeed.Engine

/-- Whether all watermarks that a watcher keeps have a property. -/
structure Watcher.Carries (x : Watcher) (P : Nat → Prop) : Prop where
  progress : P x.progress.watermark
  queued : ∀ v ∈ x.channel.queued, P v
  sending : ∀ next v, x.reporter = .sending next v → P v
  final : ∀ v, x.halt = some (.ended (.ok v)) → P v

/-- The watermarks that a manager keeps. -/
def Manager.Phase.values : Manager.Phase → List Nat
  | .restoring _ _ watermark? => watermark?.toList
  | .starting _ watermark _ => [watermark]
  | .leading term | .savingTime term _ => [term.persisted]
  | .saving term watermark _ => [term.persisted, watermark]
  | .stopping term _ seen => [term.persisted, seen]
  | _ => []

/-! ## Channels and reporters -/

theorem mem_queued_of_mem_offer {c : Watch.Channel} {v watermark : Nat}
    (h : v ∈ (c.offer watermark).queued) : v ∈ c.queued ∨ v = watermark := by
  unfold Watch.Channel.offer at h
  split at h
  · exact Or.inl h
  · unfold Watch.Channel.offer? at h
    split at h
    · simpa using h
    · exact Or.inl h

theorem mem_queued_of_mem_take {c : Watch.Channel} {v : Nat} (h : v ∈ c.take.2.queued) :
    v ∈ c.queued := by
  unfold Watch.Channel.take at h
  split at h
  · exact h
  · rename_i watermark rest hq
    rw [hq]
    exact List.mem_cons_of_mem _ h

/-- What a reporter sends was the watermark at some time. -/
theorem reporter_carries {P : Nat → Prop} {r r' : Watch.Reporter} {c c' : Watch.Channel}
    {cancelled : Bool} {now every watermark : Nat}
    (h : r.step? c cancelled now every watermark = some (r', c')) (hw : P watermark)
    (hq : ∀ v ∈ c.queued, P v) (hs : ∀ next v, r = .sending next v → P v) :
    (∀ v ∈ c'.queued, P v) ∧ ∀ next v, r' = .sending next v → P v := by
  cases r with
  | ended => cases h
  | waiting next =>
    simp only [Watch.Reporter.step?] at h
    split at h
    · cases h
      exact ⟨hq, by simp⟩
    · split at h
      · cases h
        refine ⟨hq, fun next v heq => ?_⟩
        cases heq
        exact hw
      · cases h
  | sending next value =>
    simp only [Watch.Reporter.step?] at h
    split at h
    · cases h
      exact ⟨hq, by simp⟩
    · obtain ⟨c₁, hc₁, heq⟩ := Option.map_eq_some_iff.mp h
      cases heq
      refine ⟨fun v hv => ?_, by simp⟩
      unfold Watch.Channel.offer? at hc₁
      split at hc₁
      · cases hc₁
        rcases List.mem_append.mp hv with hv | hv
        · exact hq v hv
        · rw [List.mem_singleton.mp hv]
          exact hs next value rfl
      · cases hc₁

/-! ## Watchers -/

namespace Watcher

variable {w : World} {e : Event} {k : Nat} {x x' : Watcher} {answer? : Option (Except Error Page)}
  {role : Role} {watermark : Nat} {P Q : Nat → Prop}

theorem Carries.mono (h : x.Carries P) (hPQ : ∀ v, P v → Q v) : x.Carries Q :=
  ⟨hPQ _ h.progress, fun v hv => hPQ v (h.queued v hv), fun n v hv => hPQ v (h.sending n v hv),
    fun v hv => hPQ v (h.final v hv)⟩

theorem IsNew.carries (h : x.IsNew role watermark) (hw : P watermark) : x.Carries P where
  progress := by rw [h.progress]; exact hw
  queued := fun v hv => by
    rw [h.queued] at hv
    cases hv
  sending := fun next v hv => by
    obtain ⟨t, ht⟩ := h.reporter
    rw [ht] at hv
    cases hv
  final := fun v hv => by
    rw [h.halt] at hv
    cases hv

/-- A move carries on a property that the new watermark has. -/
theorem Move.carries (hm : Move w e k x answer? x') (h : x.Carries P)
    (hp : P x'.progress.watermark) : x'.Carries P := by
  have halted {halt : Halt} (hh : ∀ v, halt = .ended (.ok v) → P v) :
      ({ x with halt := some halt } : Watcher).Carries P :=
    ⟨h.progress, h.queued, h.sending, fun v hv => hh v (Option.some.inj hv)⟩
  cases hm with
  | rests => exact h
  | goesOn loop hl hl' => exact ⟨hp, h.queued, h.sending, h.final⟩
  | ends now hc he => exact ⟨hp, h.queued, h.sending, h.final⟩
  | turns page hl => exact ⟨hp, h.queued, h.sending, h.final⟩
  | fails error due hl => exact ⟨hp, h.queued, h.sending, h.final⟩
  | reports now reporter channel hr =>
    obtain ⟨hq, hs⟩ := reporter_carries hr h.progress h.queued h.sending
    exact ⟨hp, hq, hs, h.final⟩
  | publishes claims clock => exact ⟨hp, h.queued, h.sending, h.final⟩
  | receives =>
    exact ⟨hp, fun v hv => h.queued v (mem_queued_of_mem_take hv), h.sending, h.final⟩
  | abandons => exact ⟨hp, h.queued, h.sending, h.final⟩
  | cancels => exact ⟨hp, h.queued, h.sending, h.final⟩
  | halts hh => exact halted (by simp)
  | begins hh => exact ⟨hp, h.queued, h.sending, fun v hv => by cases hv⟩
  | joinsLoop hh hl => exact halted (by simp)
  | joinsReporter now hh hr he => exact halted (by simp)
  | leavesGrace now due hh he hg => exact halted (by simp)
  | drains phase next hh => exact halted (by simp)
  | sinkFails phase error hh => exact ⟨hp, h.queued, h.sending, fun v hv => by cases hv⟩
  | stops phase hh =>
    refine ⟨hp, fun v hv => ?_, h.sending, fun v hv => ?_⟩
    · rcases mem_queued_of_mem_offer hv with hv | rfl
      · exact h.queued v hv
      · exact h.progress
    · cases hv
      exact h.progress

end Watcher

/-! ## Managers -/

namespace Manager

variable {w : World} {i : Nat} {m : Manager} {phase : Manager.Phase} {locks : Locks}
  {store : Checkpoint.Flaky} {watchers : Array Watcher} {P : Nat → Prop}

/-- A step of a manager carries on a property of what its watcher and the checkpoint hold. -/
theorem Move.values (hm : Move w i m phase locks store watchers)
    (h : ∀ v ∈ m.phase.values, P v)
    (hx : ∀ term x, m.phase.term? = some term → w.watchers[term.watcher]? = some x → x.Carries P)
    (hr : ∀ held delay v, m.phase = .restoring held delay none →
      w.store.restore m.checkpointKey = .ok v → P v) :
    ∀ v ∈ phase.values, P v := by
  intro v hv
  cases hm with
  | idles _ _ hh hh' => cases phase <;> simp_all [Phase.values, Phase.held?]
  | obtains held _ hh hs hk hg => cases hv
  | restores held delay watermark hph hr' =>
    rw [List.mem_singleton.mp hv]
    exact hr held delay watermark hph hr'
  | completes held delay watermark watermark? hph hr' =>
    rw [List.mem_singleton.mp hv]
    rcases hr' with rfl | ⟨rfl, hr'⟩
    · exact h watermark (by rw [hph]; exact List.mem_singleton_self _)
    · exact hr held delay watermark hph hr'
  | backsOff held delay due watermark? hph => cases hv
  | triesAgain held delay due next hph => cases hv
  | gives held outcome hh ht => cases hv
  | leads held watermark time x hph hnew =>
    rw [hph] at h
    exact h v hv
  | reads _ hs hl => exact h v hv
  | hears term x watermark rest _ hph hx' hq hp =>
    rw [hph] at h hx
    rcases hp with ⟨rfl, -⟩ | rfl
    · rcases List.mem_cons.mp hv with rfl | hv
      · exact h _ List.mem_cons_self
      · rw [List.mem_singleton.mp hv]
        exact (hx term x rfl hx').queued watermark (hq ▸ List.mem_cons_self)
    · exact h v hv
  | halts term outcome x hph hx' =>
    rw [hph] at h hx
    rcases List.mem_cons.mp hv with rfl | hv
    · exact h _ List.mem_cons_self
    · rw [List.mem_singleton.mp hv]
      exact (hx term x rfl hx').progress
  | saves term watermark last hph hs =>
    rw [hph] at h
    exact h v (List.mem_cons_of_mem _ hv)
  | savesNot term watermark last hph hs =>
    rw [hph] at h
    rw [List.mem_singleton.mp hv]
    exact h _ List.mem_cons_self
  | savesTime term last time _ hph hs =>
    rw [hph] at h
    cases last
    · exact h v hv
    · cases hv
  | finishes term outcome seen x result hph hx' hh =>
    rw [hph] at h hx
    have hseen : P seen := h seen (List.mem_cons_of_mem _ List.mem_cons_self)
    have hpersisted : P term.persisted := h _ List.mem_cons_self
    cases outcome with
    | lockLost => cases hv
    | failed e => cases hv
    | shutdown =>
      rcases List.mem_cons.mp hv with rfl | hv
      · exact hpersisted
      · rw [List.mem_singleton.mp hv]
        -- the last write is not compared, so it takes the larger of the two
        have hmax {a b : Nat} (ha : P a) (hb : P b) : P (max a b) := by
          rcases Nat.le_total a b with hab | hab
          · rwa [Nat.max_eq_right hab]
          · rwa [Nat.max_eq_left hab]
        cases result with
        | ok watermark => exact hmax ((hx term x rfl hx').final watermark hh) hpersisted
        | error e => exact hmax hseen hpersisted
  | releases held outcome _ hph hl => cases outcome <;> cases hv

/-- A manager stays with its watcher for a whole term, and begins a term with a new one. -/
theorem Move.term_of_term (hm : Move w i m phase locks store watchers) {term : Term}
    (ht : phase.term? = some term) :
    (∃ term', m.phase.term? = some term' ∧ term'.watcher = term.watcher ∧ term'.held = term.held) ∨
      ∃ held watermark time x, m.phase = .starting held watermark time ∧
        term = ⟨held, w.watchers.size, watermark, time⟩ ∧ watchers = w.watchers.push x ∧
        x.IsNew m.role watermark := by
  have same (term' : Term) (h : m.phase.term? = some term') (hw : term'.watcher = term.watcher)
      (hh : term'.held = term.held) :
      ∃ term', m.phase.term? = some term' ∧ term'.watcher = term.watcher ∧
        term'.held = term.held := ⟨term', h, hw, hh⟩
  cases hm with
  | idles _ _ hh hh' => cases phase <;> simp_all [Phase.term?, Phase.held?]
  | obtains held _ hh hs hk hg => cases ht
  | restores held delay watermark hph hr => cases ht
  | completes held delay watermark watermark? hph hr => cases ht
  | backsOff held delay due watermark? hph => cases ht
  | triesAgain held delay due next hph => cases ht
  | gives held outcome hh ht' => cases ht
  | leads held watermark time x hph hnew =>
    cases ht
    exact Or.inr ⟨held, watermark, time, x, hph, rfl, rfl, hnew⟩
  | reads _ hs hl => exact Or.inl (same term ht rfl rfl)
  | hears term' x watermark rest _ hph hx' hq hp =>
    refine Or.inl (same term' (by rw [hph]; rfl) ?_ ?_) <;> rcases hp with ⟨rfl, -⟩ | rfl <;> cases ht <;>
      rfl
  | halts term' outcome x hph hx' =>
    cases ht
    exact Or.inl (same term (by rw [hph]; rfl) rfl rfl)
  | saves term' watermark last hph hs =>
    cases ht
    exact Or.inl (same term' (by rw [hph]; rfl) rfl rfl)
  | savesNot term' watermark last hph hs =>
    cases ht
    exact Or.inl (same term (by rw [hph]; rfl) rfl rfl)
  | savesTime term' last time _ hph hs =>
    cases last
    · cases ht
      exact Or.inl (same term' (by rw [hph]; rfl) rfl rfl)
    · cases ht
  | finishes term' outcome seen x result hph hx' hh =>
    cases outcome with
    | lockLost => cases ht
    | failed e => cases ht
    | shutdown =>
      cases ht
      exact Or.inl (same term (by rw [hph]; rfl) rfl rfl)
  | releases held outcome _ hph hl => cases outcome <;> cases ht

end Manager

end ChangeFeed.Engine
