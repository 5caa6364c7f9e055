import ChangeFeed.Engine.Acts
import ChangeFeed.Proofs.Metrics.Values

/-!
# Two views of a system

A step of a task changes little of a system. Most of what does not change is said at once by two
views: `work` is what the loops and the work on changes go by, `rule` is what managers go by. The
steps around a sink change neither. `CountsOnly` says of a step which metrics it may change.
-/

namespace ChangeFeed.Engine

/-! ## Two views of a system -/

namespace World

/-- The watchers and the work on changes. -/
def work (w : World) : Array Watcher × Array Publication := (w.watchers, w.publications)

/-- The managers and what they decide by. -/
def rule (w : World) : Array Manager × Locks × Checkpoint.Flaky := (w.managers, w.locks, w.store)

/-- How often the work on a change failed, as it was counted. -/
def failures (w : World) (role : Role) : Int := w.metrics.value .fetchErrors role.name

/-- Whether no metrics but the given ones are counted or set. -/
def CountsOnly (metrics : List Metric) (w w' : World) : Prop :=
  ∀ metric, metric ∉ metrics → ∀ label,
    w'.metrics.value metric label = w.metrics.value metric label

variable {w w' : World} {metrics : List Metric} {metric : Metric}

theorem CountsOnly.of_metrics (h : w'.metrics = w.metrics) : CountsOnly metrics w w' := by
  intro metric _ label
  rw [h]

theorem CountsOnly.set (h : CountsOnly metrics w w') (hmem : metric ∈ metrics) (label : String)
    (value : Int) :
    CountsOnly metrics w { w' with metrics := w'.metrics.set metric label value } := by
  intro other hother label'
  have hne : other ≠ metric := fun heq => hother (heq ▸ hmem)
  exact (Metrics.value_set_of_ne (fun heq => hne (congrArg Prod.fst heq)) _ _).trans
    (h other hother label')

theorem CountsOnly.add (h : CountsOnly metrics w w') (hmem : metric ∈ metrics) (label : String)
    (n : Nat) : CountsOnly metrics w { w' with metrics := w'.metrics.add metric label n } := by
  intro other hother label'
  have hne : other ≠ metric := fun heq => hother (heq ▸ hmem)
  exact (Metrics.value_add_of_ne (fun heq => hne (congrArg Prod.fst heq)) _ _).trans
    (h other hother label')

theorem failures_of_metrics (h : w'.metrics = w.metrics) : w'.failures = w.failures := by
  unfold failures
  rw [h]

theorem CountsOnly.failures (h : CountsOnly metrics w w') (hno : .fetchErrors ∉ metrics) :
    w'.failures = w.failures :=
  funext fun role => h .fetchErrors hno role.name

theorem watchers_eq_of_work {w' : World} (h : w'.work = w.work) : w'.watchers = w.watchers :=
  congrArg Prod.fst h

theorem publications_eq_of_work {w' : World} (h : w'.work = w.work) :
    w'.publications = w.publications :=
  congrArg Prod.snd h

theorem managers_eq_of_rule {w' : World} (h : w'.rule = w.rule) : w'.managers = w.managers :=
  congrArg Prod.fst h

theorem locks_eq_of_rule {w' : World} (h : w'.rule = w.rule) : w'.locks = w.locks :=
  congrArg (·.2.1) h

theorem store_eq_of_rule {w' : World} (h : w'.rule = w.rule) : w'.store = w.store :=
  congrArg (·.2.2) h

theorem setIfInBounds_same {α : Type} {xs : Array α} {i : Nat} {a : α} (h : xs[i]? = some a) :
    xs.setIfInBounds i a = xs := by
  obtain ⟨hi, rfl⟩ := Array.getElem?_eq_some_iff.mp h
  simp [Array.setIfInBounds, hi]

/-! ## Steps around a sink -/

theorem stepPut?_eq {now outlet : Nat} {m : Message} {put : Option Put}
    {next : Put ⊕ Except Error Unit} {w' : World}
    (h : w.stepPut? now outlet m put = some (next, w')) :
    ∃ outlets log, w' = { w with outlets, log } := by
  cases put with
  | none =>
    simp only [stepPut?, Option.bind_eq_bind, Option.bind_eq_some_iff, Option.pure_def,
      Option.some.injEq, Prod.mk.injEq] at h
    obtain ⟨o, -, -, rfl⟩ := h
    exact ⟨_, _, rfl⟩
  | some p =>
    simp only [stepPut?, Option.bind_eq_bind, Option.bind_eq_some_iff, Option.pure_def,
      Option.some.injEq, Prod.mk.injEq] at h
    obtain ⟨o, -, ⟨result, o', entries⟩, -, -, rfl⟩ := h
    exact ⟨_, _, rfl⟩

theorem stepStop?_eq {now outlet : Nat} {phase : Sink.Stopping}
    {next : Sink.Stopping ⊕ Except Error Unit} {w' : World}
    (h : w.stepStop? now outlet phase = some (next, w')) :
    ∃ outlets log, w' = { w with outlets, log } := by
  simp only [stepStop?, Option.bind_eq_bind, Option.bind_eq_some_iff, Option.pure_def,
    Option.some.injEq, Prod.mk.injEq] at h
  obtain ⟨o, -, ⟨next', o', entries⟩, -, -, rfl⟩ := h
  exact ⟨_, _, rfl⟩

theorem stepWriter?_eq {now outlet i : Nat} {w' : World}
    (h : w.stepWriter? now outlet i = some w') : ∃ outlets log, w' = { w with outlets, log } := by
  simp only [stepWriter?, Option.bind_eq_bind, Option.bind_eq_some_iff, Option.pure_def,
    Option.some.injEq] at h
  obtain ⟨o, -, ⟨o', entries⟩, -, rfl⟩ := h
  exact ⟨_, _, rfl⟩

theorem stepCall?_eq {now i : Nat} {w' : World} (h : w.stepCall? now i = some w') :
    ∃ outlets calls log, w' = { w with outlets, calls, log } := by
  simp only [stepCall?, Option.bind_eq_bind, Option.bind_eq_some_iff] at h
  obtain ⟨c, -, h⟩ := h
  split at h
  · simp only [Option.bind_eq_some_iff] at h
    obtain ⟨⟨next, w₁⟩, hput, h⟩ := h
    obtain ⟨outlets, log, rfl⟩ := stepPut?_eq hput
    cases next <;> cases h <;> exact ⟨_, _, _, rfl⟩
  · simp only [Option.bind_eq_some_iff] at h
    obtain ⟨⟨next, w₁⟩, hput, h⟩ := h
    obtain ⟨outlets, log, rfl⟩ := stepPut?_eq hput
    cases next <;> cases h <;> exact ⟨_, _, _, rfl⟩
  · simp only [Option.bind_eq_some_iff] at h
    obtain ⟨⟨next, w₁⟩, hstop, h⟩ := h
    obtain ⟨outlets, log, rfl⟩ := stepStop?_eq hstop
    cases next <;> cases h <;> exact ⟨_, _, _, rfl⟩
  · cases h

end World

end ChangeFeed.Engine
