import ChangeFeed.Proofs.Engine.Readings

/-!
# Failed reads are counted

Each attempt to read the checkpoints of a role that fails is counted once, by the manager that made
it, and nothing else is counted with them. `next_readFailures` says so of an event and
`readFailures_after` of a run.
-/

namespace ChangeFeed.Engine

/-- Whether an attempt for a role failed. -/
def Reading.failsFor (role : Role) (r : Reading) : Bool := decide (r.role = role) && !r.ok

namespace World

variable {w w' : World} {e : Event} {now i : Nat} {m : Manager} {held : Held} {delay : Nat}
  {watermark? : Option Nat}

/-- How often reading the checkpoints of a role failed, as it was counted. -/
def readFailures (w : World) (role : Role) : Int := w.metrics.value .readFailures role.name

theorem readFailures_of_counts {metrics : List Metric} (h : CountsOnly metrics w w')
    (hno : .readFailures ∉ metrics) : w'.readFailures = w.readFailures :=
  funext fun role => h .readFailures hno role.name

/-- An event that is no step of a manager about to read a checkpoint counts no failure of reading
one. -/
theorem readFailures_next_of_ne
    (hno : ∀ now i m held delay watermark?, e = .step now (.manager i) → w.managers[i]? = some m →
      m.phase ≠ .restoring held delay watermark?) :
    (w.next e).readFailures = w.readFailures := by
  have h := next_spec w e
  generalize w.next e = w' at h ⊢
  have same (hc : w'.metrics = w.metrics) : w'.readFailures = w.readFailures :=
    readFailures_of_counts (.of_metrics hc : CountsOnly [] w w') List.not_mem_nil
  cases h with
  | rests e w' hw hr hc => exact same hc
  | loop now k x x' w' hx h => exact readFailures_of_counts h.counts (by decide)
  | watcher now k task htask x x' w' hx hw hr hc => exact same hc
  | publication now j p p' x w' hp hx h =>
    have hmetrics := h.metrics
    split at hmetrics
    · refine funext fun role => ?_
      rw [readFailures, hmetrics]
      exact Metrics.value_add_of_ne (by simp) _ _
    · exact same hmetrics
  | manager now i m phase w' hm h =>
    refine readFailures_of_counts h.beside.counts ?_
    cases hph : m.phase with
    | restoring held delay watermark? => exact absurd hph (hno now i m _ _ _ rfl hm)
    | _ => simp [Manager.Phase.metrics]
  | act a w' h => exact same h.metrics

/-! ## Attempts that fail -/

theorem readFailures_of_restoring (now : Nat) (hm : w.managers[i]? = some m)
    (hph : m.phase = .restoring held delay watermark?) (role : Role) :
    (w.next (.step now (.manager i))).readFailures role % UInt64.size =
      (w.readFailures role + (w.readingAt? (.step now (.manager i))).toList.countP
        (Reading.failsFor role)) % UInt64.size := by
  obtain ⟨phase, metrics, log, hread, hnext⟩ := next_of_restoring now hm hph
  have hvalue : (w.next (.step now (.manager i))).readFailures role =
      metrics.value .readFailures role.name := by
    rw [hnext]
    rfl
  have hmarked : (w.markLeader m true).metrics.value .readFailures role.name =
      w.readFailures role :=
    Metrics.value_set_of_ne (by simp) _ _
  rw [hvalue, readingAt?_of_restoring now hm hph]
  cases hread with
  | quits hs => simp [hs, hmarked]
  | goesOn watermark hs hw hr hd => simp [hs, hd, hmarked]
  | succeeds watermark time hs hd => simp [hs, hd, Reading.failsFor, hmarked]
  | fails hs hd =>
    by_cases hr : m.role = role
    · subst hr
      simp [hs, hd, Reading.failsFor, hmarked]
    · have hne : (Metric.readFailures, role.name) ≠ (.readFailures, m.role.name) := fun heq =>
        hr (name_injective (congrArg Prod.snd heq)).symm
      rw [Metrics.value_add_of_ne hne, hmarked]
      simp [hs, hd, hr, Reading.failsFor]

/-- What is counted with an event is an attempt that fails. -/
theorem next_readFailures (w : World) (e : Event) (role : Role) :
    (w.next e).readFailures role % UInt64.size =
      (w.readFailures role + (w.readingAt? e).toList.countP (Reading.failsFor role)) %
        UInt64.size := by
  by_cases hread : ∃ now i m held delay watermark?, e = .step now (.manager i) ∧
      w.managers[i]? = some m ∧ m.phase = .restoring held delay watermark?
  · obtain ⟨now, i, m, held, delay, watermark?, rfl, hm, hph⟩ := hread
    exact readFailures_of_restoring now hm hph role
  · have hno : w.readingAt? e = none := by
      refine Option.eq_none_iff_forall_ne_some.mpr fun r hr => hread ?_
      obtain ⟨m, held, delay, watermark?, he, hm, hph, -⟩ := readingAt?_cases hr
      exact ⟨r.time, r.manager, m, held, delay, watermark?, he, hm, hph⟩
    rw [readFailures_next_of_ne fun now i m held delay watermark? he hm hph =>
      hread ⟨now, i, m, held, delay, watermark?, he, hm, hph⟩]
    simp [hno]

/-- Failed reads are counted one by one, in words of 64 bits. -/
theorem readFailures_after (w : World) (events : List Event) (role : Role) :
    (w.after events).readFailures role % UInt64.size =
      (w.readFailures role + (w.readings events).countP (Reading.failsFor role)) %
        UInt64.size := by
  induction events generalizing w with
  | nil => simp [readings]
  | cons e rest ih =>
    have hone := next_readFailures w e role
    rw [after_cons, ih, readings, List.countP_append]
    unfold UInt64.size at hone ⊢
    omega

end World

end ChangeFeed.Engine
