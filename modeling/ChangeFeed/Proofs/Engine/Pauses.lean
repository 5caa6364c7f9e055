import ChangeFeed.Proofs.Engine.Restores

/-!
# The pauses of a run

Whatever happens in a system, a manager with valid settings waits between two attempts to read its
checkpoints for one of the pauses of its settings, and none of these is longer than the greatest.

* `World.Paced` is what each event preserves: `paced_next`.
* `pause_of_backingOff` is what holds in a whole run.
-/

namespace ChangeFeed

namespace Settings.Coordination

theorem pause_le (s : Coordination) (n : Nat) : s.pause n ≤ s.restoreRetryMaxMs :=
  Nat.min_le_right _ _

end Settings.Coordination

namespace Engine

namespace Manager

/-- How long a manager waits before it reads its checkpoints again once a read fails. -/
def Phase.delay? : Manager.Phase → Option Nat
  | .restoring _ delay _ | .backingOff _ delay _ => some delay
  | _ => none

theorem Phase.delay?_of_held? {phase : Manager.Phase} (h : phase.held? = none) :
    phase.delay? = none := by
  cases phase <;> first | rfl | cases h

/-- Whether a manager with valid settings waits for a pause of theirs. -/
def Paces (m : Manager) : Prop :=
  m.settings.coordination.check = .ok () → ∀ delay, m.phase.delay? = some delay →
    ∃ n, delay = m.settings.coordination.pause n

theorem Paces.of_delay? {m : Manager} (h : m.phase.delay? = none) : m.Paces := by
  intro _ delay hdelay
  rw [h] at hdelay
  cases hdelay

/-- Whether a manager has a lease and is past reading its checkpoints. -/
def Phase.isLater : Manager.Phase → Bool
  | .starting _ _ _ | .leading _ | .saving _ _ _ | .savingTime _ _ | .stopping _ _ _
  | .releasing _ _ => true
  | _ => false

theorem Phase.delay?_of_isLater {phase : Phase} (h : phase.isLater = true) :
    phase.delay? = none := by
  cases phase <;> first | rfl | cases h

theorem Phase.held?_ne_none_of_isLater {phase : Phase} (h : phase.isLater = true) :
    phase.held? ≠ none := by
  cases phase <;> simp_all [isLater, held?]

/-- Past its read, a manager does not come back to it within a term. -/
theorem Move.delay?_of_later {w : World} {i : Nat} {m : Manager} {phase : Phase} {locks : Locks}
    {store : Checkpoint.Flaky} {watchers : Array Watcher}
    (h : Move w i m phase locks store watchers) (hlater : m.phase.isLater = true) :
    phase.delay? = none := by
  cases h with
  | idles phase locks hno hno' hl => exact Phase.delay?_of_held? hno'
  | obtains held locks hno hs hk hg => exact absurd hno (Phase.held?_ne_none_of_isLater hlater)
  | restores held delay watermark hph hr => rw [hph] at hlater; cases hlater
  | completes held delay watermark watermark? hph hr => rfl
  | backsOff held delay due watermark? hph => rw [hph] at hlater; cases hlater
  | triesAgain held delay due next hph => rw [hph] at hlater; cases hlater
  | gives held outcome hh ht => rfl
  | leads held watermark time x hph hx => rfl
  | reads locks hs hl ht hn => exact Phase.delay?_of_isLater hlater
  | hears term x watermark rest phase hph hx hq hp => rcases hp with ⟨rfl, -⟩ | rfl <;> rfl
  | halts term outcome x hph hx => rfl
  | saves term watermark last hph hs => rfl
  | savesNot term watermark last hph hs => rfl
  | savesTime term last time store hph hs => split <;> rfl
  | finishes term outcome seen x result hph hx hh => cases outcome <;> rfl
  | releases held outcome locks hph hl => cases outcome <;> rfl

end Manager

namespace World

variable {w : World} {i : Nat} {m : Manager}

/-- A manager without a lease, after a step: it does not wait for a read, or for the first time. -/
theorem paces_of_free {phase : Manager.Phase} {w' : World} (h : ManagerStep w i m phase w')
    (hfree : m.phase.held? = none) (nextTick : Nat) :
    ({ m with nextTick, phase } : Manager).Paces := by
  obtain ⟨-, -, hnone | ⟨held, -, rfl⟩⟩ := h.move.of_free hfree
  · exact .of_delay? (Manager.Phase.delay?_of_held? hnone)
  · intro hcheck delay hdelay
    exact ⟨0, (Option.some.inj hdelay).symm.trans (Settings.Coordination.pause_zero hcheck).symm⟩

/-- Whether all managers pace. -/
def Paced (w : World) : Prop := ∀ (i : Nat) (m : Manager), w.managers[i]? = some m → m.Paces

/-- Every manager goes on to wait for pauses of its settings. -/
theorem paced_next (h : w.Paced) (e : Event) : (w.next e).Paced := by
  intro i m' hm'
  cases before hm' with
  | same m isShutdown hm heq =>
    subst heq
    exact h i m hm
  | new hbegun hn => exact .of_delay? (by rw [hbegun]; rfl)
  | stepped now m nextTick phase he hm hstep heq =>
    subst he
    have hpaces : m.Paces := h i m hm
    have free (hfree : m.phase.held? = none) : m'.Paces := heq ▸ paces_of_free hstep hfree nextTick
    -- only the two phases before a successful read are followed by one with a delay
    cases hph : m.phase with
    | restoring held delay watermark? =>
      obtain ⟨next, metrics, log, hread, hnext⟩ := next_of_restoring now hm hph
      have hmine : m' = { m with phase := next } := by
        rw [hnext] at hm'
        exact (Option.some.inj ((managers_set_self hm _).symm.trans hm')).symm
      subst hmine
      intro hcheck d hd
      cases hread with
      | quits hs => cases hd
      | goesOn watermark hs hw hr hdec => exact hpaces hcheck d (by rw [hph]; exact hd)
      | succeeds watermark time hs hdec => cases hd
      | fails hs hdec => exact hpaces hcheck d (by rw [hph]; exact hd)
    | backingOff held delay due =>
      have hwait := next_of_backingOff now hm hph
      generalize w.next (.step now (.manager i)) = w' at hm' hwait
      have hset : ∀ {next : Manager.Phase},
          (w.setManager i { m with phase := next }).managers[i]? = some m' →
          m' = { m with phase := next } := fun hm' =>
        (Option.some.inj ((managers_set_self hm _).symm.trans hm')).symm
      cases hwait with
      | quits hs => exact .of_delay? (by rw [hset hm']; rfl)
      | loses hs hl => exact .of_delay? (by rw [hset hm']; rfl)
      | hears locks hs hl hn => exact h i m' hm'
      | waits hs hl hn ht => exact h i m' hm'
      | retries hs hl hn ht =>
        rw [hset hm']
        intro hcheck d hd
        obtain ⟨n, hn⟩ := hpaces hcheck delay (by rw [hph]; rfl)
        refine ⟨n + 1, ?_⟩
        rw [Settings.Coordination.pause_succ, ← hn]
        exact (Option.some.inj hd).symm
    | begun => exact free (by rw [hph]; rfl)
    | ticking => exact free (by rw [hph]; rfl)
    | queueing => exact free (by rw [hph]; rfl)
    | stuck => exact free (by rw [hph]; rfl)
    | asking due grant => exact free (by rw [hph]; rfl)
    | ended result => exact free (by rw [hph]; rfl)
    | _ =>
      refine .of_delay? ?_
      rw [heq]
      exact hstep.move.delay?_of_later (by rw [hph]; rfl)

/-- In every run that begins without managers, a manager with valid settings that waits after a
failed read waits for a pause of its settings. -/
theorem pause_of_backingOff {w₀ : World} (hnone : w₀.managers = #[]) (events : List Event)
    {held : Held} {delay due : Nat} (hm : (w₀.after events).managers[i]? = some m)
    (hcheck : m.settings.coordination.check = .ok ())
    (hph : m.phase = .backingOff held delay due) :
    ∃ n, delay = m.settings.coordination.pause n := by
  have hstart : w₀.Paced := by
    intro i m hm
    rw [hnone] at hm
    cases hm
  have hpaced : (w₀.after events).Paced :=
    after_of_next (P := Paced) (fun w e h => paced_next h e) hstart events
  exact hpaced i m hm hcheck delay (by rw [hph]; rfl)

end World

end Engine

end ChangeFeed
