import ChangeFeed.Proofs.Engine.Halts

/-!
# Reporters that overlook their cancellation

A reporter waits for its cancellation and for something else at once: for the time of its next
report, or for room. Where both have come it goes by either of them. `stepReporter?` goes by the
cancellation; a reporter that overlooks it goes on if it can, so that it may take the watermark and
send it although it is cancelled.

* `Occurrence` is an event or a step of a reporter that overlooks its cancellation, and
  `World.through` is a run of these. `through_map_event`: the runs of events are among them.
* `Watcher.Shift` is all that an occurrence can do to a watcher: `occur_watcher`.
* `Watcher.Tidy`: whoever stops a watcher has cancelled it, and goes on only when the loop and then
  the reporter have ended.
-/

namespace ChangeFeed

namespace Watch.Reporter

/-- One step of a reporter that looks last whether it is cancelled. -/
def goOn? (r : Reporter) (c : Channel) (cancelled : Bool)
    (now every watermark : Nat) : Option (Reporter × Channel) :=
  (r.step? c false now every watermark).or (r.step? c cancelled now every watermark)

/-- A reporter that overlooks its cancellation does what it would do if it were not cancelled, or
what it does anyway. -/
theorem step?_of_goOn? {r : Reporter} {c : Channel} {cancelled : Bool}
    {now every watermark : Nat} {result : Reporter × Channel}
    (h : r.goOn? c cancelled now every watermark = some result) :
    ∃ seen, r.step? c seen now every watermark = some result := by
  unfold goOn? at h
  rcases Option.or_eq_some_iff.mp h with h | ⟨-, h⟩
  · exact ⟨false, h⟩
  · exact ⟨cancelled, h⟩

end Watch.Reporter

namespace Engine

/-! ## Occurrences -/

/-- What happens to a system whose reporters may overlook that they are cancelled. -/
inductive Occurrence where
  | event (e : Event)
  /-- A reporter takes a step and looks last whether it is cancelled. -/
  | overlook (now watcher : Nat)
  deriving Inhabited

/-- The task that takes a step with an occurrence. -/
def Occurrence.task? : Occurrence → Option Task
  | .event (.step _ task) => some task
  | .event (.act _) => none
  | .overlook _ watcher => some (.reporter watcher)

namespace World

def overlook? (w : World) (now i : Nat) : Option World := do
  let x ← w.watchers[i]?
  let (reporter, channel) ← x.reporter.goOn? x.channel x.cancelled now
    x.settings.reportInterval.millis x.progress.watermark
  pure (w.setWatcher i { x with reporter, channel })

def occur (w : World) : Occurrence → World
  | .event e => w.next e
  | .overlook now i => (w.overlook? now i).getD w

def through (w : World) (os : List Occurrence) : World := os.foldl occur w

@[simp] theorem through_nil (w : World) : w.through [] = w := rfl

@[simp] theorem through_cons (w : World) (o : Occurrence) (os : List Occurrence) :
    w.through (o :: os) = (w.occur o).through os := rfl

theorem through_append (w : World) (os more : List Occurrence) :
    w.through (os ++ more) = (w.through os).through more :=
  List.foldl_append

/-- A run of events is a run in which no reporter overlooks anything. -/
theorem through_map_event (w : World) (events : List Event) :
    w.through (events.map .event) = w.after events :=
  List.foldl_map

end World

/-! ## What an occurrence does to a watcher -/

/-- What an occurrence can do to a watcher. -/
inductive Watcher.Shift (k : Nat) (x : Watcher) : Watcher → Prop where
  | moves {w : World} {e : Event} {answer? : Option (Except Error Page)} {x' : Watcher}
      (h : Move w e k x answer? x') : Shift k x x'
  /-- The reporter takes a step, whether or not it sees that it is cancelled. -/
  | reports (seen : Bool) (now : Nat) (reporter : Watch.Reporter) (channel : Watch.Channel)
      (h : x.reporter.step? x.channel seen now x.settings.reportInterval.millis
        x.progress.watermark = some (reporter, channel)) :
      Shift k x { x with reporter, channel }

/-- Whether the call that stops a watcher has seen the reporter end. -/
def Halt.hasJoinedReporter : Halt → Bool
  | .begun | .joiningLoop | .joiningReporter => false
  | _ => true

namespace Watcher

variable {w : World} {e : Event} {k : Nat} {x x' : Watcher} {answer? : Option (Except Error Page)}

/-- What a call that stops a watcher relies on, the end of the reporter included. -/
structure Tidy (x : Watcher) : Prop extends Ordered x where
  reporter : ∀ halt, x.halt = some halt → halt.hasJoinedReporter = true → x.reporter = .ended
  cancelled : ∀ halt, x.halt = some halt → halt ≠ .begun → x.cancelled = true

theorem IsNew.tidy {role : Role} {watermark : Nat} (h : x.IsNew role watermark) : x.Tidy where
  toOrdered := h.ordered
  reporter := fun halt hh => by
    rw [h.halt] at hh
    cases hh
  cancelled := fun halt hh => by
    rw [h.halt] at hh
    cases hh

/-- A reporter that takes a step was not joined. -/
theorem Tidy.of_reports {seen : Bool} {now every watermark : Nat} {reporter : Watch.Reporter}
    {channel : Watch.Channel} (h : x.Tidy)
    (hr : x.reporter.step? x.channel seen now every watermark = some (reporter, channel)) :
    ({ x with reporter, channel } : Watcher).Tidy where
  joined := h.joined
  final := h.final
  cancelled := h.cancelled
  reporter := fun halt hh hj => by
    rw [h.reporter halt hh hj] at hr
    cases hr

theorem Move.tidy (hm : Move w e k x answer? x') (h : x.Tidy) : x'.Tidy := by
  refine ⟨hm.ordered h.toOrdered, ?_, ?_⟩
  · intro halt' hh' hj'
    cases hm with
    | reports now reporter channel hr => exact (h.of_reports hr).reporter halt' hh' hj'
    | halts hh =>
      cases hh'
      cases hj'
    | begins hh =>
      cases hh'
      cases hj'
    | joinsLoop hh hl =>
      cases hh'
      cases hj'
    | joinsReporter now hh hr he => exact hr
    | leavesGrace now due hh he hg => exact h.reporter _ hh rfl
    | drains phase next hh => exact h.reporter _ hh rfl
    | sinkFails phase error hh => exact h.reporter _ hh rfl
    | stops phase hh => exact h.reporter _ hh rfl
    | _ => exact h.reporter halt' hh' hj'
  · intro halt' hh' hb'
    cases hm with
    | halts hh =>
      cases hh'
      exact absurd rfl hb'
    | cancels => rfl
    | begins hh => rfl
    | joinsLoop hh hl => exact h.cancelled _ hh (by simp)
    | joinsReporter now hh hr he => exact h.cancelled _ hh (by simp)
    | leavesGrace now due hh he hg => exact h.cancelled _ hh (by simp)
    | drains phase next hh => exact h.cancelled _ hh (by simp)
    | sinkFails phase error hh => exact h.cancelled _ hh (by simp)
    | stops phase hh => exact h.cancelled _ hh (by simp)
    | _ => exact h.cancelled halt' hh' hb'

theorem Shift.tidy (hs : Shift k x x') (h : x.Tidy) : x'.Tidy := by
  cases hs with
  | moves hm => exact hm.tidy h
  | reports seen now reporter channel hr => exact h.of_reports hr

end Watcher

namespace World

variable {w : World} {k : Nat} {x : Watcher}

theorem occur_watcher (o : Occurrence) (hx : w.watchers[k]? = some x) :
    ∃ x', (w.occur o).watchers[k]? = some x' ∧ Watcher.Shift k x x' := by
  cases o with
  | event e =>
    obtain ⟨x', hx', hm⟩ := next_watcher e hx
    exact ⟨x', hx', .moves hm⟩
  | overlook now i =>
    cases ho : w.overlook? now i with
    | none => exact ⟨x, by rw [occur, ho]; exact hx, .moves (w := w) (e := default) .rests⟩
    | some w' =>
      simp only [overlook?, Option.bind_eq_bind, Option.bind_eq_some_iff, Option.pure_def,
        Option.some.injEq] at ho
      obtain ⟨y, hy, ⟨reporter, channel⟩, hgo, rfl⟩ := ho
      have hnext : w.occur (.overlook now i) = w.setWatcher i { y with reporter, channel } := by
        simp [occur, overlook?, hy, hgo]
      rw [hnext]
      by_cases hik : i = k
      · subst hik
        rw [hx] at hy
        cases hy
        obtain ⟨seen, hstep⟩ := Watch.Reporter.step?_of_goOn? hgo
        exact ⟨_, getElem?_setWatcher_self hx _, .reports seen now reporter channel hstep⟩
      · exact ⟨x, by rw [getElem?_setWatcher_of_ne hik, hx], .moves (w := w) (e := default) .rests⟩

/-! ## What is seen of a watcher -/

/-- What is seen of a watcher when something happens, told by its states before and after. -/
def between? (w : World) (k : Nat) (f : Watcher → Watcher → Option Nat) (o : Occurrence) :
    Option Nat := do
  let x ← w.watchers[k]?
  let x' ← (w.occur o).watchers[k]?
  f x x'

/-- What is seen of a watcher during a run, in order. -/
def trace (w : World) (k : Nat) (f : Watcher → Watcher → Option Nat) : List Occurrence → List Nat
  | [] => []
  | o :: os => (w.between? k f o).toList ++ (w.occur o).trace k f os

variable {f : Watcher → Watcher → Option Nat}

theorem between?_eq {o : Occurrence} {x' : Watcher} (hx : w.watchers[k]? = some x)
    (hx' : (w.occur o).watchers[k]? = some x') : w.between? k f o = f x x' := by
  simp [between?, hx, hx']

theorem trace_append (os more : List Occurrence) :
    w.trace k f (os ++ more) = w.trace k f os ++ (w.through os).trace k f more := by
  induction os generalizing w with
  | nil => rfl
  | cons o rest ih => simp only [List.cons_append, trace, ih, through_cons, List.append_assoc]

/-- What is seen when one thing more happens. -/
theorem trace_concat {os : List Occurrence} {o : Occurrence} {x' : Watcher}
    (hx : (w.through os).watchers[k]? = some x)
    (hx' : ((w.through os).occur o).watchers[k]? = some x') :
    w.trace k f (os ++ [o]) = w.trace k f os ++ (f x x').toList := by
  rw [trace_append, trace, trace, List.append_nil, between?_eq hx hx']

/-- What every shift preserves holds of a watcher after every run. -/
theorem through_watcher {P : Watcher → Prop} (hP : ∀ x x', Watcher.Shift k x x' → P x → P x')
    (hx : w.watchers[k]? = some x) (h : P x) (os : List Occurrence) :
    ∃ x', (w.through os).watchers[k]? = some x' ∧ P x' := by
  induction os generalizing w x with
  | nil => exact ⟨x, hx, h⟩
  | cons o rest ih =>
    obtain ⟨x₁, hx₁, hs⟩ := occur_watcher o hx
    exact ih hx₁ (hP x x₁ hs h)

end World

end Engine

end ChangeFeed
