import ChangeFeed.Proofs.Engine.Work

/-!
# Watchers that are stopped

A watcher is stopped in an order: its loop ends, then its reporter, then the work under way gets its
time, then the sink is stopped.

* `Watcher.Ordered`: once the loop was joined it has ended for good, and the watermark that the call
  answers is the last one.
* `Settled.after`: once the call that stops a watcher does not wait for its work any more, there is
  none under way, unless the time for it ran out.
-/

namespace ChangeFeed.Engine

/-! ## One watcher -/

/-- Whether the call that stops a watcher has seen the loop end. -/
def Halt.hasJoined : Halt → Bool
  | .begun | .joiningLoop => false
  | _ => true

/-- Whether the call that stops a watcher waits for no work on a change any more. -/
def Halt.hasLeftGrace : Halt → Bool
  | .stoppingSink _ | .ended _ => true
  | _ => false

namespace Watcher

/-- What a call that stops a watcher relies on. -/
structure Ordered (x : Watcher) : Prop where
  joined : ∀ halt, x.halt = some halt → halt.hasJoined = true → World.Loop.isEnded x.loop = true
  final : ∀ watermark, x.halt = some (.ended (.ok watermark)) →
    watermark = x.progress.watermark

variable {w : World} {e : Event} {k : Nat} {x x' : Watcher} {answer? : Option (Except Error Page)}
  {role : Role} {watermark : Nat}

theorem IsNew.ordered (h : x.IsNew role watermark) : x.Ordered where
  joined := fun halt hh => by
    rw [h.halt] at hh
    cases hh
  final := fun f hf => by
    rw [h.halt] at hf
    cases hf

namespace Move

theorem ordered (hm : Move w e k x answer? x') (h : x.Ordered) : x'.Ordered := by
  -- a loop that goes on was not joined
  have running (hl : World.Loop.isEnded x.loop = false) (halt : Halt) (hh : x.halt = some halt) :
      halt.hasJoined = false := by
    cases hj : halt.hasJoined with
    | false => rfl
    | true =>
      have := h.joined halt hh hj
      rw [hl] at this
      cases this
  have steps {halt : Halt} (hl : halt.hasJoined = true → World.Loop.isEnded x.loop = true)
      (hf : ∀ f, halt = .ended (.ok f) → f = x.progress.watermark) :
      ({ x with halt := some halt } : Watcher).Ordered :=
    ⟨fun _ hh hj => hl (Option.some.inj hh ▸ hj), fun f hh => hf f (Option.some.inj hh)⟩
  cases hm with
  | rests => exact h
  | goesOn loop hl hl' =>
    refine ⟨fun halt hh hj => ?_, h.final⟩
    rw [running hl halt hh] at hj
    cases hj
  | ends now hc he => exact ⟨fun _ _ _ => rfl, h.final⟩
  | turns page hl =>
    refine ⟨fun halt hh hj => ?_, fun f hh => ?_⟩
    · rw [running hl halt hh] at hj
      cases hj
    · exact absurd (running hl _ hh) (by simp [Halt.hasJoined])
  | fails error due hl =>
    refine ⟨fun halt hh hj => ?_, h.final⟩
    rw [running hl halt hh] at hj
    cases hj
  | reports now reporter channel hr => exact ⟨h.joined, h.final⟩
  | publishes claims clock => exact ⟨h.joined, h.final⟩
  | receives => exact ⟨h.joined, h.final⟩
  | abandons => exact ⟨h.joined, h.final⟩
  | cancels => exact ⟨h.joined, h.final⟩
  | halts hh => exact steps (fun hj => by cases hj) (by simp)
  | begins hh =>
    refine ⟨fun halt hh' hj => ?_, fun f hf => by cases hf⟩
    cases hh'
    cases hj
  | joinsLoop hh hl => exact steps (fun _ => hl) (by simp)
  | joinsReporter now hh hr he => exact steps (fun _ => h.joined _ hh rfl) (by simp)
  | leavesGrace now due hh he hg => exact steps (fun _ => h.joined _ hh rfl) (by simp)
  | drains phase next hh => exact steps (fun _ => h.joined _ hh rfl) (by simp)
  | sinkFails phase error hh =>
    exact ⟨fun _ _ _ => h.joined _ hh rfl, fun f hf => by cases hf⟩
  | stops phase hh =>
    refine ⟨fun _ _ _ => h.joined _ hh rfl, fun f hf => ?_⟩
    cases hf
    rfl

theorem halt_of_ended (hm : Move w e k x answer? x') {result : Except Error Nat}
    (h : x.halt = some (.ended result)) : x'.halt = some (.ended result) := by
  cases hm <;> simp_all

/-- The call that stops a watcher goes past the work under way when it is over, or when its time
is. -/
theorem leftGrace_cases (hm : Move w e k x answer? x') {halt : Halt} (hh : x'.halt = some halt)
    (hl : halt.hasLeftGrace = true) :
    (∃ halt, x.halt = some halt ∧ halt.hasLeftGrace = true) ∨
      ∃ now due, x.halt = some (.graceUntil due) ∧ e = .step now (.halt k) ∧
        (w.isQuiet k = true ∨ due ≤ now) := by
  cases hm with
  | halts h =>
    cases hh
    cases hl
  | begins h =>
    cases hh
    cases hl
  | joinsLoop h hl' =>
    cases hh
    cases hl
  | joinsReporter now h hr he =>
    cases hh
    cases hl
  | leavesGrace now due h he hg => exact Or.inr ⟨now, due, h, he, hg⟩
  | drains phase next h => exact Or.inl ⟨_, h, rfl⟩
  | sinkFails phase error h => exact Or.inl ⟨_, h, rfl⟩
  | stops phase h => exact Or.inl ⟨_, h, rfl⟩
  | _ => exact Or.inl ⟨halt, hh, hl⟩

end Move

end Watcher

namespace World

variable {w : World} {e : Event} {k : Nat}

/-! ## Work under way -/

theorem isQuiet_eq_true : w.isQuiet k = true ↔ ∀ (j : Nat) (p : Publication),
    w.publications[j]? = some p → p.watcher = k → Publication.isEnded p = true := by
  simp only [isQuiet, List.all_eq_true, Bool.or_eq_true, decide_eq_true_eq]
  constructor
  · intro h j p hp hk
    have hmem : p ∈ w.publications.toList :=
      List.mem_of_getElem? ((Array.getElem?_toList ..).trans hp)
    exact (h p hmem).resolve_left fun hne => hne hk
  · intro h p hp
    obtain ⟨j, hj⟩ := List.mem_iff_getElem?.mp hp
    rw [Array.getElem?_toList] at hj
    by_cases hk : p.watcher = k
    · exact Or.inr (h j p hj hk)
    · exact Or.inl hk

/-- A watcher whose loop has ended is given no work any more. -/
theorem isQuiet_next {x : Watcher} (hx : w.watchers[k]? = some x)
    (hl : Loop.isEnded x.loop = true) (h : w.isQuiet k = true) :
    (w.next e).isQuiet k = true := by
  refine isQuiet_eq_true.mpr fun j p' hp' hk => ?_
  rcases publication_cases hp' with ⟨p, hp, hm⟩ | ⟨-, -, hmem⟩
  · have hended := isQuiet_eq_true.mp h j p hp (hm.owner.1 ▸ hk)
    rw [hm.eq_of_isEnded hended]
    exact hended
  · rw [hk] at hmem
    obtain ⟨now, x', answer, -, -, ht⟩ := mem_handedAt hmem
    obtain ⟨x', due, hx', hasking, -, -⟩ := takes?_eq_some_iff.mp ht
    rw [hx] at hx'
    cases hx'
    rw [hasking] at hl
    cases hl

/-- Whether the call that stops a watcher gives up on the work under way with an event. -/
def givesUpAt (w : World) (k : Nat) : Event → Bool
  | .step now (.halt i) =>
    match (w.watchers[i]?).bind Watcher.halt with
    | some (.graceUntil due) => decide (i = k) && !w.isQuiet k && decide (due ≤ now)
    | _ => false
  | _ => false

/-- Whether the call that stops a watcher gives up on the work under way during some events. -/
def givesUp (w : World) (k : Nat) : List Event → Bool
  | [] => false
  | e :: events => w.givesUpAt k e || (w.next e).givesUp k events

/-- Whether a watcher that does not wait for work any more has none. -/
structure Settled (w : World) (k : Nat) (x : Watcher) : Prop where
  ordered : x.Ordered
  quiet : ∀ halt, x.halt = some halt → halt.hasLeftGrace = true → w.isQuiet k = true

theorem Settled.next {x x' : Watcher} (h : w.Settled k x) (hx : w.watchers[k]? = some x)
    (hm : Watcher.Move w e k x (w.answerAt? k e) x') (hg : w.givesUpAt k e = false) :
    (w.next e).Settled k x' where
  ordered := hm.ordered h.ordered
  quiet := fun halt' hh' hl' => by
    rcases hm.leftGrace_cases hh' hl' with ⟨halt, hh, hl⟩ | ⟨now, due, hh, rfl, hq⟩
    · have hjoined : halt.hasJoined = true := by cases halt <;> first | rfl | cases hl
      exact isQuiet_next hx (h.ordered.joined halt hh hjoined) (h.quiet halt hh hl)
    · -- the wait ended with this event, and not for want of time
      have hquiet : w.isQuiet k = true := by
        rcases hq with hq | hdue
        · exact hq
        · simpa [givesUpAt, hx, hh, hdue] using hg
      exact isQuiet_next hx (h.ordered.joined _ hh rfl) hquiet

/-! ## Runs -/

/-- What holds of a watcher and is kept by its moves holds of it after every run. -/
theorem after_watcher {P : Watcher → Prop}
    (hP : ∀ (w : World) (e : Event) (k : Nat) (x x' : Watcher) (answer? : Option (Except Error Page)),
      Watcher.Move w e k x answer? x' → P x → P x')
    {x : Watcher} (hx : w.watchers[k]? = some x) (h : P x) (events : List Event) :
    ∃ x', (w.after events).watchers[k]? = some x' ∧ P x' := by
  refine after_of_next (P := fun w => ∃ x, w.watchers[k]? = some x ∧ P x) ?_ ⟨x, hx, h⟩ events
  rintro w e ⟨x, hx, h⟩
  obtain ⟨x', hx', hm⟩ := next_watcher e hx
  exact ⟨x', hx', hP _ _ _ _ _ _ hm h⟩

theorem ordered_after {x : Watcher} (hx : w.watchers[k]? = some x) (h : x.Ordered)
    (events : List Event) : ∃ x', (w.after events).watchers[k]? = some x' ∧ x'.Ordered :=
  after_watcher (fun _ _ _ _ _ _ hm => hm.ordered) hx h events

/-- A watcher that does not wait for its work any more has none, unless the call that stops it gave
up on some. -/
theorem Settled.after {x : Watcher} (h : w.Settled k x) (hx : w.watchers[k]? = some x)
    (events : List Event) :
    ∃ x', (w.after events).watchers[k]? = some x' ∧
      ((w.after events).Settled k x' ∨ w.givesUp k events = true) := by
  induction events generalizing w x with
  | nil => exact ⟨x, hx, Or.inl h⟩
  | cons e rest ih =>
    obtain ⟨x₁, hx₁, hm⟩ := next_watcher e hx
    cases hg : w.givesUpAt k e with
    | true =>
      obtain ⟨x', hx', -⟩ := after_watcher (P := fun _ => True)
        (fun _ _ _ _ _ _ _ _ => trivial) hx trivial (e :: rest)
      exact ⟨x', hx', Or.inr (by simp [givesUp, hg])⟩
    | false =>
      obtain ⟨x', hx', hs⟩ := ih (h.next hx hm hg) hx₁
      exact ⟨x', hx', by simpa [givesUp, hg] using hs⟩

/-- The call that stops a watcher has come back with an answer. -/
def HasStopped (w : World) (k : Nat) (result : Except Error Nat) : Prop :=
  ∃ x, w.watchers[k]? = some x ∧ x.halt = some (.ended result)

theorem HasStopped.next {result : Except Error Nat} (h : w.HasStopped k result) (e : Event) :
    (w.next e).HasStopped k result := by
  obtain ⟨x, hx, hh⟩ := h
  obtain ⟨x', hx', hm⟩ := next_watcher e hx
  exact ⟨x', hx', hm.halt_of_ended hh⟩

theorem HasStopped.lt {result : Except Error Nat} (h : w.HasStopped k result) :
    k < w.watchers.size := by
  obtain ⟨x, hx, -⟩ := h
  exact (Array.getElem?_eq_some_iff.mp hx).1

/-- A watcher was just started at a watermark. -/
def HasNew (w : World) (k watermark : Nat) : Prop :=
  ∃ x role, w.watchers[k]? = some x ∧ x.IsNew role watermark

theorem startWatcher_hasNew {w' : World} {now outlet watermark capacity : Nat} {role : Role}
    {clock : Int} {settings : Settings.Watching}
    (h : w.startWatcher now role settings outlet watermark clock capacity = (.ok (), w')) :
    w'.HasNew w.watchers.size watermark := by
  obtain ⟨-, -, -, -, x, hw, hnew, -⟩ := startWatcher_spec h
  exact ⟨x, role, by rw [hw, Array.getElem?_push_size], hnew⟩

end World

end ChangeFeed.Engine
