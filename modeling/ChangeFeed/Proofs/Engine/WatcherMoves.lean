import ChangeFeed.Proofs.Engine.Views

/-!
# What happens to a watcher

The steps of the loop, of the reporter and of the call that stops both, each reduced to what it does
to its watcher.

* `Watcher.Move` lists what an event can do to a watcher. The answer that the watch loop takes up
  with the event is an index of the relation, so that what a loop has read can be told from the
  events alone.
* `stepLoop?_spec`: a step of a loop hands on the changes that it finds fresh, and nothing else.
-/

namespace ChangeFeed.Engine

namespace World

/-! ## What a watch loop takes up -/

/-- The answer that the loop of a watcher takes up at a time, if it can. -/
def takes? (w : World) (now k : Nat) : Option (Except Error Page) := do
  let x ← w.watchers[k]?
  match x.loop with
  | .asking due answer => if x.cancelled = false ∧ due ≤ now then some answer else none
  | _ => none

/-- The answer that the loop of a watcher takes up with an event, if it does. -/
def answerAt? (w : World) (k : Nat) : Event → Option (Except Error Page)
  | .step now (.loop i) => if i = k then w.takes? now k else none
  | _ => none

/-- The changes that are handed on with an event, each with the number of the watcher. -/
def handedAt (w : World) : Event → List (Nat × Change)
  | .step now (.loop i) =>
    match w.watchers[i]?, w.takes? now i with
    | some x, some answer => (x.progress.turn answer).1.map (i, ·)
    | _, _ => []
  | _ => []

end World

/-! ## Watchers -/

/-- What an event does to a watcher. The index is the answer that its loop takes up with it. -/
inductive Watcher.Move (w : World) (e : Event) (k : Nat) (x : Watcher) :
    Option (Except Error Page) → Watcher → Prop where
  | rests : Move w e k x none x
  /-- The loop goes on to another phase without a page. -/
  | goesOn (loop : Loop) (h : World.Loop.isEnded x.loop = false)
      (hl : World.Loop.isEnded loop = false) : Move w e k x none { x with loop }
  | ends (now : Nat) (h : x.cancelled = true) (he : e = .step now (.loop k)) :
      Move w e k x none { x with loop := .ended }
  | turns (page : Page) (h : World.Loop.isEnded x.loop = false) :
      Move w e k x (some (.ok page))
        { x with progress := x.progress.after page, loop := .ready }
  | fails (error : Error) (due : Nat) (h : World.Loop.isEnded x.loop = false) :
      Move w e k x (some (.error error)) { x with loop := .pausing due }
  | reports (now : Nat) (reporter : Watch.Reporter) (channel : Watch.Channel)
      (h : x.reporter.step? x.channel x.cancelled now x.settings.reportInterval.millis
        x.progress.watermark = some (reporter, channel)) :
      Move w e k x none { x with reporter, channel }
  /-- The work on a change claims task events or moves the clock. -/
  | publishes (claims : Allocation.Claims) (clock : Int)
      (he : ∃ now j, e = .step now (.publication j)) : Move w e k x none { x with claims, clock }
  | receives : Move w e k x none { x with channel := x.channel.take.2 }
  | abandons : Move w e k x none { x with channel := { x.channel with abandoned := true } }
  | cancels : Move w e k x none { x with cancelled := true }
  | halts (h : x.halt = none) : Move w e k x none { x with halt := some .begun }
  | begins (h : x.halt = some .begun) :
      Move w e k x none { x with cancelled := true, halt := some .joiningLoop }
  | joinsLoop (h : x.halt = some .joiningLoop) (hl : World.Loop.isEnded x.loop = true) :
      Move w e k x none { x with halt := some .joiningReporter }
  | joinsReporter (now : Nat) (h : x.halt = some .joiningReporter) (hr : x.reporter = .ended)
      (he : e = .step now (.halt k)) :
      Move w e k x none
        { x with halt := some (.graceUntil (now + x.settings.inflightGrace.millis)) }
  | leavesGrace (now due : Nat) (h : x.halt = some (.graceUntil due))
      (he : e = .step now (.halt k)) (hg : w.isQuiet k = true ∨ due ≤ now) :
      Move w e k x none { x with halt := some (.stoppingSink .closing) }
  | drains (phase next : Sink.Stopping) (h : x.halt = some (.stoppingSink phase)) :
      Move w e k x none { x with halt := some (.stoppingSink next) }
  | sinkFails (phase : Sink.Stopping) (error : Error) (h : x.halt = some (.stoppingSink phase)) :
      Move w e k x none
        { x with channel := { x.channel with closed := true }, halt := some (.ended (.error error)) }
  | stops (phase : Sink.Stopping) (h : x.halt = some (.stoppingSink phase)) :
      Move w e k x none
        { x with
          channel := { x.channel.offer x.progress.watermark with closed := true }
          halt := some (.ended (.ok x.progress.watermark)) }

namespace Watcher.Move

variable {w : World} {e : Event} {k : Nat} {x x' : Watcher} {answer? : Option (Except Error Page)}

/-- The progress of a watcher after a move is a matter of the answer alone. -/
theorem progress_eq (h : Move w e k x answer? x') :
    x'.progress = (answer?.map fun answer => (x.progress.turn answer).2).getD x.progress := by
  cases h <;> rfl

theorem role_eq (h : Move w e k x answer? x') : x'.role = x.role := by
  cases h <;> rfl

end Watcher.Move

namespace World

variable {w w' : World}

theorem getElem?_setWatcher_self {i : Nat} {x : Watcher} (h : w.watchers[i]? = some x)
    (x' : Watcher) : (w.setWatcher i x').watchers[i]? = some x' := by
  have hi : i < w.watchers.size := (Array.getElem?_eq_some_iff.mp h).1
  simp [setWatcher, Array.getElem?_setIfInBounds_self_of_lt hi]

theorem getElem?_setWatcher_of_ne {i k : Nat} (h : i ≠ k) (x : Watcher) :
    (w.setWatcher i x).watchers[k]? = w.watchers[k]? := by
  simp [setWatcher, Array.getElem?_setIfInBounds_ne h]

/-- What an event that sets one watcher does to any watcher. -/
theorem exists_move {e : Event} {i k : Nat} {x y y' : Watcher} (hi : w.watchers[i]? = some y)
    (hw : w'.watchers = (w.setWatcher i y').watchers)
    (hm : Watcher.Move w e i y (w.answerAt? i e) y') (ho : ∀ k ≠ i, w.answerAt? k e = none)
    (hk : w.watchers[k]? = some x) :
    ∃ x', w'.watchers[k]? = some x' ∧ Watcher.Move w e k x (w.answerAt? k e) x' := by
  by_cases h : i = k
  · subst h
    rw [hi] at hk
    cases hk
    exact ⟨y', by rw [hw, getElem?_setWatcher_self hi], hm⟩
  · refine ⟨x, by rw [hw, getElem?_setWatcher_of_ne h, hk], ?_⟩
    rw [ho k (Ne.symm h)]
    exact .rests

theorem exists_move_of_eq {e : Event} {k : Nat} {x : Watcher} (hw : w'.watchers = w.watchers)
    (ha : w.answerAt? k e = none) (hk : w.watchers[k]? = some x) :
    ∃ x', w'.watchers[k]? = some x' ∧ Watcher.Move w e k x (w.answerAt? k e) x' := by
  refine ⟨x, hw ▸ hk, ?_⟩
  rw [ha]
  exact .rests

theorem answerAt?_of_ne {now i k : Nat} (h : k ≠ i) :
    w.answerAt? k (.step now (.loop i)) = none :=
  if_neg (Ne.symm h)

theorem answerAt?_self (w : World) (now k : Nat) :
    w.answerAt? k (.step now (.loop k)) = w.takes? now k :=
  if_pos rfl

theorem takes?_eq_some_iff {now k : Nat} {answer : Except Error Page} :
    w.takes? now k = some answer ↔
      ∃ x due, w.watchers[k]? = some x ∧ x.loop = .asking due answer ∧
        x.cancelled = false ∧ due ≤ now := by
  simp only [takes?, Option.bind_eq_bind, Option.bind_eq_some_iff]
  constructor
  · rintro ⟨x, hx, h⟩
    split at h
    · rename_i due answer' hl
      split at h
      · rename_i hc
        cases h
        exact ⟨x, due, hx, hl, hc.1, hc.2⟩
      · cases h
    · cases h
  · rintro ⟨x, due, hx, hl, hc, hd⟩
    exact ⟨x, hx, by simp [hl, hc, hd]⟩

theorem takes?_eq_none {now k : Nat} {x : Watcher} (hx : w.watchers[k]? = some x)
    (h : x.cancelled = true ∨ ∀ due answer, x.loop = .asking due answer → now < due) :
    w.takes? now k = none := by
  refine Option.eq_none_iff_forall_ne_some.mpr fun answer ha => ?_
  obtain ⟨x', due, hx', hl, hc, hd⟩ := takes?_eq_some_iff.mp ha
  rw [hx] at hx'
  cases hx'
  rcases h with h | h
  · rw [hc] at h
    cases h
  · exact absurd hd (Nat.not_le.mpr (h due answer hl))

/-- Only a loop that takes up an answer hands changes on. -/
theorem mem_handedAt {e : Event} {k : Nat} {c : Change} (h : (k, c) ∈ w.handedAt e) :
    ∃ now x answer, e = .step now (.loop k) ∧ w.watchers[k]? = some x ∧
      w.takes? now k = some answer := by
  unfold handedAt at h
  split at h
  · rename_i now i
    split at h
    · rename_i x answer hx ht
      obtain ⟨c', -, heq⟩ := List.mem_map.mp h
      cases heq
      exact ⟨now, x, answer, rfl, hx, ht⟩
    · cases h
  · cases h

/-- Handing on changes adds work that has not begun. -/
theorem foldl_publish (w : World) (i : Nat) (changes : List Change) :
    changes.foldl (fun w change => w.publish i change) w =
      { w with publications := w.publications ++ (changes.map (⟨i, ·, .begun⟩)).toArray } := by
  induction changes generalizing w with
  | nil => simp
  | cons c rest ih =>
    rw [List.foldl_cons, ih]
    simp [publish]

theorem absorb_watchers (w : World) (i : Nat) (x : Watcher) (page : Page) :
    (w.absorb i x page).watchers =
      (w.setWatcher i { x with progress := x.progress.after page, loop := .ready }).watchers := by
  simp only [absorb, foldl_publish]
  split <;> rfl

theorem absorb_publications (w : World) (i : Nat) (x : Watcher) (page : Page) :
    (w.absorb i x page).publications =
      w.publications ++ ((x.progress.fresh page).map (⟨i, ·, .begun⟩)).toArray := by
  simp only [absorb, foldl_publish]
  split <;> rfl

theorem absorb_counts (w : World) (i : Nat) (x : Watcher) (page : Page) :
    CountsOnly [.listErrors, .watermark] w (w.absorb i x page) := by
  simp only [absorb, foldl_publish]
  split
  · exact .set (.of_metrics rfl) (by decide) _ _
  · exact .of_metrics rfl

theorem absorb_rule (w : World) (i : Nat) (x : Watcher) (page : Page) :
    (w.absorb i x page).rule = w.rule := by
  simp only [absorb, foldl_publish]
  split <;> rfl

/-- What a step of a watch loop does: it sets its watcher and hands changes on. -/
structure LoopStep (w : World) (now i : Nat) (x x' : Watcher) (w' : World) : Prop where
  watchers : w'.watchers = (w.setWatcher i x').watchers
  move : Watcher.Move w (.step now (.loop i)) i x (w.takes? now i) x'
  publications : w'.publications = w.publications ++
    ((w.handedAt (.step now (.loop i))).map fun (k, c) => ⟨k, c, .begun⟩).toArray
  rule : w'.rule = w.rule
  counts : CountsOnly [.listErrors, .watermark] w w'

/-- A step that takes up no answer only changes the phase of the loop. -/
theorem LoopStep.idle {now i : Nat} {x : Watcher} {loop : Loop} (ht : w.takes? now i = none)
    (hm : Watcher.Move w (.step now (.loop i)) i x none { x with loop })
    (hw : w'.watchers = (w.setWatcher i { x with loop }).watchers)
    (hp : w'.publications = w.publications) (hr : w'.rule = w.rule)
    (hc : w'.metrics = w.metrics) : ∃ x', LoopStep w now i x x' w' :=
  ⟨{ x with loop }, hw, ht ▸ hm, by simp [handedAt, ht, hp], hr, .of_metrics hc⟩

theorem stepLoop?_spec {now i : Nat} {x : Watcher} (hx : w.watchers[i]? = some x)
    (h : w.stepLoop? now i = some w') : ∃ x', LoopStep w now i x x' w' := by
  simp only [stepLoop?, hx, Option.bind_eq_bind, Option.bind_some] at h
  cases hl : x.loop with
  | ended => simp [hl] at h
  | ready =>
    have ht : w.takes? now i = none := takes?_eq_none hx (Or.inr (by simp [hl]))
    simp only [hl] at h
    split at h
    · rename_i hc
      cases h
      exact LoopStep.idle ht (.ends now hc rfl) rfl rfl rfl rfl
    · split at h <;> cases h
      · exact LoopStep.idle ht (.goesOn .stuck (by simp [hl, Loop.isEnded]) rfl) rfl rfl rfl rfl
      · exact LoopStep.idle ht (.goesOn (.asking _ _) (by simp [hl, Loop.isEnded]) rfl) rfl rfl rfl rfl
  | stuck =>
    have ht : w.takes? now i = none := takes?_eq_none hx (Or.inr (by simp [hl]))
    simp only [hl] at h
    split at h
    · rename_i hc
      cases h
      exact LoopStep.idle ht (.ends now hc rfl) rfl rfl rfl rfl
    · cases h
  | pausing due =>
    have ht : w.takes? now i = none := takes?_eq_none hx (Or.inr (by simp [hl]))
    simp only [hl] at h
    split at h
    · rename_i hc
      cases h
      exact LoopStep.idle ht (.ends now hc rfl) rfl rfl rfl rfl
    · split at h
      · cases h
      · cases h
        exact LoopStep.idle ht (.goesOn .ready (by simp [hl, Loop.isEnded]) rfl) rfl rfl rfl rfl
  | asking due answer =>
    simp only [hl] at h
    split at h
    · rename_i hc
      cases h
      exact LoopStep.idle (takes?_eq_none hx (Or.inl hc)) (.ends now hc rfl) rfl rfl rfl rfl
    · rename_i hc
      split at h
      · cases h
      · rename_i hd
        have ht : w.takes? now i = some answer :=
          takes?_eq_some_iff.mpr ⟨x, due, hx, hl, by simpa using hc, Nat.le_of_not_lt hd⟩
        have he : Loop.isEnded x.loop = false := by rw [hl]; rfl
        cases answer with
        | ok page =>
          cases h
          refine ⟨_, absorb_watchers w i x page, ht ▸ .turns page he, ?_, absorb_rule w i x page,
            absorb_counts w i x page⟩
          rw [absorb_publications]
          simp [handedAt, hx, ht, Watch.Progress.turn, Function.comp_def]
        | error error =>
          cases h
          refine ⟨_, rfl, ht ▸ .fails error _ he, ?_, rfl, .add (.of_metrics rfl) (by decide) _ _⟩
          simp [handedAt, hx, ht, setWatcher, Watch.Progress.turn]

theorem stepReporter?_spec {now i : Nat} {x : Watcher} (hx : w.watchers[i]? = some x)
    (h : w.stepReporter? now i = some w') :
    ∃ x', w' = w.setWatcher i x' ∧ ∀ e, Watcher.Move w e i x none x' := by
  simp only [stepReporter?, hx, Option.bind_eq_bind, Option.bind_some, Option.bind_eq_some_iff,
    Option.pure_def, Option.some.injEq] at h
  obtain ⟨⟨reporter, channel⟩, hr, rfl⟩ := h
  exact ⟨_, rfl, fun e => .reports now reporter channel hr⟩

theorem stepHalt?_spec {now i : Nat} {x : Watcher} (hx : w.watchers[i]? = some x)
    (h : w.stepHalt? now i = some w') :
    ∃ x', w'.work = (w.setWatcher i x').work ∧ w'.rule = w.rule ∧ w'.metrics = w.metrics ∧
      Watcher.Move w (.step now (.halt i)) i x none x' := by
  simp only [stepHalt?, hx, Option.bind_eq_bind, Option.bind_some, Option.bind_eq_some_iff] at h
  obtain ⟨halt, hh, h⟩ := h
  cases halt with
  | begun =>
    cases h
    exact ⟨_, rfl, rfl, rfl, .begins hh⟩
  | joiningLoop =>
    simp only at h
    split at h
    · rename_i hl
      cases h
      exact ⟨_, rfl, rfl, rfl, .joinsLoop hh hl⟩
    · cases h
  | joiningReporter =>
    simp only at h
    split at h
    · rename_i hr
      cases h
      exact ⟨_, rfl, rfl, rfl, .joinsReporter now hh hr rfl⟩
    · cases h
  | graceUntil due =>
    simp only at h
    split at h
    · rename_i hg
      cases h
      exact ⟨_, rfl, rfl, rfl, .leavesGrace now due hh rfl (by simpa using hg)⟩
    · cases h
  | stoppingSink phase =>
    simp only [Option.bind_eq_some_iff] at h
    obtain ⟨⟨next, w₁⟩, hstop, h⟩ := h
    obtain ⟨outlets, log, rfl⟩ := stepStop?_eq hstop
    rcases next with next | error | ⟨⟩
    · cases h
      exact ⟨_, rfl, rfl, rfl, .drains phase next hh⟩
    · cases h
      exact ⟨_, rfl, rfl, rfl, .sinkFails phase error hh⟩
    · cases h
      exact ⟨_, rfl, rfl, rfl, .stops phase hh⟩
  | ended result => cases h

end World

end ChangeFeed.Engine
