import ChangeFeed.Proofs.Engine.Floors

/-!
# Stops that lose nothing

A watcher is cancelled at any time: while its loop asks, pauses or is between two pages, while its
reporter waits for room, while work on changes asks for records or waits for a sink. The call that
stops the watcher ends the loop first, then the reporter, then gives the work under way its grace,
and stops the sink at last.

* `withinGrace` says of a run that the work under way when the loop ends is over within the grace.
* `settled_after`: then the sink is not stopped while any work is under way.
* `stops_sink_after_work`: so everything that was handed on is finished before the sink is stopped,
  it is accounted for, and the call answers the highest index of it.
-/

namespace ChangeFeed.Engine

/-- The time of an event, if it has one. -/
def Event.time? : Event → Option Nat
  | .step now _ => some now
  | .act _ => none

/-- Whether the times of events do not go back. -/
def InOrder (events : List Event) : Prop := (events.filterMap Event.time?).Pairwise (· ≤ ·)

instance (events : List Event) : Decidable (InOrder events) :=
  inferInstanceAs (Decidable (List.Pairwise _ _))

theorem InOrder.tail {e : Event} {events : List Event} (h : InOrder (e :: events)) :
    InOrder events :=
  List.Pairwise.sublist ((List.sublist_cons_self e events).filterMap _) h

theorem InOrder.le {now : Nat} {task : Task} {events : List Event}
    (h : InOrder (.step now task :: events)) {e : Event} (he : e ∈ events) {time : Nat}
    (ht : e.time? = some time) : now ≤ time :=
  (List.pairwise_cons.mp h).1 time (List.mem_filterMap.mpr ⟨e, he, ht⟩)

namespace World

/-! ## The end of a loop -/

/-- When the loop of a watcher ends with an event: the end of the grace, counted from then on. -/
def exitAt? (w : World) (k : Nat) (e : Event) : Option Nat :=
  match e, w.watchers[k]?, (w.next e).watchers[k]? with
  | .step now _, some x, some x' =>
    if Loop.isEnded x.loop = false ∧ Loop.isEnded x'.loop = true then
      some (now + x.settings.inflightGrace.millis)
    else none
  | _, _, _ => none

/-- Whether no work of a watcher is under way once a time has come. -/
def overBy (w : World) (k limit : Nat) : List Event → Bool
  | [] => true
  | e :: events =>
    (e.time?.all (· < limit) || w.isQuiet k) && (w.next e).overBy k limit events

/-- Whether the work that is under way when the loop of a watcher ends is over within the grace. -/
def withinGrace (w : World) (k : Nat) : List Event → Bool
  | [] => true
  | e :: events =>
    match w.exitAt? k e with
    | some limit => (w.next e).overBy k limit events
    | none => (w.next e).withinGrace k events

end World

namespace Watcher.Move

variable {w : World} {e : Event} {k : Nat} {x x' : Watcher} {answer? : Option (Except Error Page)}

theorem settings_eq (h : Move w e k x answer? x') : x'.settings = x.settings := by
  cases h <;> rfl

/-- A loop that ends does so with a step of its own, which leaves the call that stops the watcher
where it is. -/
theorem exit_cases (h : Move w e k x answer? x') (hx : World.Loop.isEnded x.loop = false)
    (hx' : World.Loop.isEnded x'.loop = true) :
    x'.halt = x.halt ∧ ∃ now, e = .step now (.loop k) := by
  cases h with
  | ends now hc he => exact ⟨rfl, now, he⟩
  | goesOn loop hl hl' =>
    rw [hl'] at hx'
    cases hx'
  | turns page hl => cases hx'
  | fails error due hl => cases hx'
  | _ =>
    rw [hx] at hx'
    cases hx'

/-- A grace is counted from the step with which the reporter was joined. -/
theorem grace_cases (h : Move w e k x answer? x') {due : Nat}
    (hdue : x'.halt = some (.graceUntil due)) :
    x.halt = some (.graceUntil due) ∨
      ∃ now, e = .step now (.halt k) ∧ due = now + x.settings.inflightGrace.millis := by
  cases h with
  | joinsReporter now hh hr he =>
    cases hdue
    exact Or.inr ⟨now, he, rfl⟩
  | halts hh => cases hdue
  | begins hh => cases hdue
  | joinsLoop hh hl => cases hdue
  | leavesGrace now due' hh he hg => cases hdue
  | drains phase next hh => cases hdue
  | sinkFails phase error hh => cases hdue
  | stops phase hh => cases hdue
  | _ => exact Or.inl hdue

theorem isEnded_loop (h : Move w e k x answer? x') (hx : World.Loop.isEnded x.loop = true) :
    World.Loop.isEnded x'.loop = true := by
  cases h with
  | ends now hc he => rfl
  | goesOn loop hl hl' =>
    rw [hl] at hx
    cases hx
  | turns page hl =>
    rw [hl] at hx
    cases hx
  | fails error due hl =>
    rw [hl] at hx
    cases hx
  | _ => exact hx

end Watcher.Move

namespace World

variable {w : World} {k : Nat} {x : Watcher}

/-- A call that stops a watcher gives up on work at the end of its grace. -/
theorem givesUpAt_spec {e : Event} (hx : w.watchers[k]? = some x) (h : w.givesUpAt k e = true) :
    ∃ now due, e = .step now (.halt k) ∧ x.halt = some (.graceUntil due) ∧
      w.isQuiet k = false ∧ due ≤ now := by
  unfold givesUpAt at h
  split at h
  · rename_i now i
    split at h
    · rename_i due hhalt
      simp only [Bool.and_eq_true, decide_eq_true_eq, Bool.not_eq_true'] at h
      obtain ⟨⟨rfl, hquiet⟩, hdue⟩ := h
      rw [hx] at hhalt
      exact ⟨now, due, rfl, hhalt, hquiet, hdue⟩
    · cases h
  · cases h

/-- From the end of the loop on: no grace ends before the time by which all work is over. -/
theorem settled_after_exit {exit limit : Nat} {events : List Event}
    (hx : w.watchers[k]? = some x) (hs : w.Settled k x)
    (hlimit : limit = exit + x.settings.inflightGrace.millis)
    (hdue : ∀ due, x.halt = some (.graceUntil due) → limit ≤ due)
    (htime : ∀ e ∈ events, ∀ now, e.time? = some now → exit ≤ now)
    (hover : w.overBy k limit events = true) :
    ∃ x', (w.after events).watchers[k]? = some x' ∧ (w.after events).Settled k x' := by
  induction events generalizing w x with
  | nil => exact ⟨x, hx, hs⟩
  | cons e rest ih =>
    simp only [overBy, Bool.and_eq_true, Bool.or_eq_true] at hover
    obtain ⟨x₁, hx₁, hm⟩ := next_watcher e hx
    have hgives : w.givesUpAt k e = false := by
      refine Bool.eq_false_iff.mpr fun hg => ?_
      obtain ⟨now, due, rfl, hhalt, hquiet, hle⟩ := givesUpAt_spec hx hg
      have hlate : limit ≤ now := Nat.le_trans (hdue due hhalt) hle
      rcases hover.1 with hearly | hquiet'
      · have : now < limit := by simpa [Event.time?] using hearly
        omega
      · rw [hquiet] at hquiet'
        cases hquiet'
    refine ih hx₁ (hs.next hx hm hgives) (by rw [hm.settings_eq, hlimit]) (fun due hh => ?_)
      (fun e' he' => htime e' (List.mem_cons_of_mem _ he')) hover.2
    rcases hm.grace_cases hh with hold | ⟨now, rfl, rfl⟩
    · exact hdue due hold
    · have := htime _ List.mem_cons_self now rfl
      omega

/-- In a run that keeps to the grace the sink is not stopped while work is under way. -/
theorem settled_after {events : List Event} (hx : w.watchers[k]? = some x) (ho : x.Ordered)
    (hloop : Loop.isEnded x.loop = false) (horder : InOrder events)
    (hgrace : w.withinGrace k events = true) :
    ∃ x', (w.after events).watchers[k]? = some x' ∧ (w.after events).Settled k x' := by
  -- as long as the loop runs, the call that stops the watcher has not come past it
  have unjoined {w : World} {x : Watcher} (ho : x.Ordered) (hl : Loop.isEnded x.loop = false)
      (halt : Halt) (hh : x.halt = some halt) : halt.hasJoined = false := by
    refine Bool.eq_false_iff.mpr fun hj => ?_
    rw [ho.joined halt hh hj] at hl
    cases hl
  have settled {w : World} {x : Watcher} (ho : x.Ordered)
      (hj : ∀ halt, x.halt = some halt → halt.hasJoined = false) : w.Settled k x := by
    refine ⟨ho, fun halt hh hleft => ?_⟩
    have := hj halt hh
    cases halt <;> simp_all [Halt.hasJoined, Halt.hasLeftGrace]
  induction events generalizing w x with
  | nil => exact ⟨x, hx, settled ho (unjoined (w := w) ho hloop)⟩
  | cons e rest ih =>
    obtain ⟨x₁, hx₁, hm⟩ := next_watcher e hx
    have ho₁ : x₁.Ordered := hm.ordered ho
    rw [after_cons]
    cases hl₁ : Loop.isEnded x₁.loop with
    | false =>
      have hexit : w.exitAt? k e = none := by
        cases e with
        | act a => rfl
        | step now task => simp [exitAt?, hx, hx₁, hl₁]
      simp only [withinGrace, hexit] at hgrace
      exact ih hx₁ ho₁ hl₁ horder.tail hgrace
    | true =>
      obtain ⟨hhalt, exit, rfl⟩ := hm.exit_cases hloop hl₁
      have hexit : w.exitAt? k (.step exit (.loop k)) =
          some (exit + x.settings.inflightGrace.millis) := by
        simp [exitAt?, hx, hx₁, hloop, hl₁]
      simp only [withinGrace, hexit] at hgrace
      have hj : ∀ halt, x₁.halt = some halt → halt.hasJoined = false := fun halt hh =>
        unjoined (w := w) ho hloop halt (hhalt ▸ hh)
      refine settled_after_exit hx₁ (settled ho₁ hj) (by rw [hm.settings_eq]) (fun due hdue => ?_)
        (fun e he now => horder.le he) hgrace
      have := hj _ hdue
      cases this

/-- A watcher takes up the answer that its loop asked for. -/
theorem asking_of_answerAt? {e : Event} {answer : Except Error Page} (hx : w.watchers[k]? = some x)
    (ha : w.answerAt? k e = some answer) : ∃ due, x.loop = .asking due answer := by
  unfold answerAt? at ha
  split at ha
  · split at ha
    · obtain ⟨x', due, hx', hasking, -, -⟩ := takes?_eq_some_iff.mp ha
      rw [hx] at hx'
      cases hx'
      exact ⟨due, hasking⟩
    · cases ha
  · cases ha

/-! ## The work of one watcher -/

/-- The work on the changes that a watcher handed on, in order. -/
def worksOf (w : World) (k : Nat) : List Publication :=
  w.publications.toList.filter (·.watcher = k)

def Publication.hasSucceeded (p : Publication) : Bool :=
  match p.phase with
  | .ended (.ok ()) => true
  | _ => false

/-- How much of the work of a watcher ended well. -/
def succeeded (w : World) (k : Nat) : Nat := (w.worksOf k).countP Publication.hasSucceeded

/-- How much of the work of a role failed that was not the work of the given watcher. -/
def failedBeside (w : World) (role : Role) (k : Nat) : Nat :=
  w.publications.toList.countP fun p => w.hasFailedFor role p && decide (p.watcher ≠ k)

theorem mem_worksOf {p : Publication} :
    p ∈ w.worksOf k ↔ p.watcher = k ∧ ∃ j : Nat, w.publications[j]? = some p := by
  simp only [worksOf, List.mem_filter, decide_eq_true_eq]
  constructor
  · rintro ⟨hp, hk⟩
    obtain ⟨j, hj⟩ := List.mem_iff_getElem?.mp hp
    exact ⟨hk, j, by rw [← hj, Array.getElem?_toList]⟩
  · rintro ⟨hk, j, hj⟩
    exact ⟨List.mem_of_getElem? ((Array.getElem?_toList ..).trans hj), hk⟩

theorem isQuiet_iff_worksOf :
    w.isQuiet k = true ↔ ∀ p ∈ w.worksOf k, Publication.isEnded p = true := by
  rw [isQuiet_eq_true]
  constructor
  · intro h p hp
    obtain ⟨hk, j, hj⟩ := mem_worksOf.mp hp
    exact h j p hj hk
  · exact fun h j p hp hk => h p (mem_worksOf.mpr ⟨hk, j, hp⟩)

/-- A watcher whose loop has ended and whose work is over stays like that. -/
theorem rests_after (hx : w.watchers[k]? = some x) (hl : Loop.isEnded x.loop = true)
    (hq : w.isQuiet k = true) (events : List Event) :
    (w.after events).isQuiet k = true ∧ (w.after events).handed k = w.handed k := by
  induction events generalizing w x with
  | nil => exact ⟨hq, rfl⟩
  | cons e rest ih =>
    obtain ⟨x₁, hx₁, hm⟩ := next_watcher e hx
    have hq₁ : (w.next e).isQuiet k = true := isQuiet_next hx hl hq
    have hnone : w.answerAt? k e = none := by
      refine Option.eq_none_iff_forall_ne_some.mpr fun answer ha => ?_
      obtain ⟨due, hasking⟩ := asking_of_answerAt? hx ha
      rw [hasking] at hl
      cases hl
    obtain ⟨x₂, hx₂, hturn⟩ := next_turn hx e
    rw [hnone] at hturn
    obtain ⟨hquiet, hhanded⟩ := ih hx₁ (hm.isEnded_loop hl) hq₁
    exact ⟨hquiet, hhanded.trans hturn.2⟩

/-! ## Accounts -/

/-- Work that is over has ended well or failed. -/
theorem length_handed (hq : w.isQuiet k = true) :
    (w.handed k).length = w.succeeded k + (w.worksOf k).countP Publication.hasFailed := by
  have hfailed : (w.worksOf k).countP Publication.hasFailed =
      (w.worksOf k).countP fun p => decide ¬ Publication.hasSucceeded p = true := by
    refine List.countP_congr fun p hp => ?_
    have hended := isQuiet_iff_worksOf.mp hq p hp
    unfold Publication.isEnded at hended
    split at hended
    · rename_i result hph
      cases result <;> simp [Publication.hasFailed, Publication.hasSucceeded, hph]
    · cases hended
  have hlength : (w.handed k).length = (w.worksOf k).length := List.length_map _
  rw [hlength, hfailed]
  exact List.length_eq_countP_add_countP Publication.hasSucceeded

theorem failed_eq {role : Role} (hr : w.roleOf? k = some role) :
    w.failed role = (w.worksOf k).countP Publication.hasFailed + w.failedBeside role k := by
  have hmine : (w.worksOf k).countP (w.hasFailedFor role) =
      (w.worksOf k).countP Publication.hasFailed := by
    refine List.countP_congr fun p hp => ?_
    simp [hasFailedFor, (mem_worksOf.mp hp).1, hr]
  rw [failed, List.countP_eq_countP_filter_add _ _ fun p => decide (p.watcher = k), failedBeside,
    List.countP_filter (p := w.hasFailedFor role) (q := fun p => !decide (p.watcher = k)), ← hmine]
  simp [worksOf]

/-- What was handed on is the work that ended well and the failures that were counted, apart from
those of other watchers of the role. -/
theorem Owned.accounted {events : List Event} {role : Role} (h : w.Owned)
    (hr : w.roleOf? k = some role) (hr' : (w.after events).roleOf? k = some role)
    (hidle : w.handed k = []) (hq : (w.after events).isQuiet k = true) :
    ((w.after events).failures role + (w.after events).succeeded k + w.failedBeside role k) %
        UInt64.size =
      (w.failures role + ((w.after events).handed k).length +
        (w.after events).failedBeside role k) % UInt64.size := by
  have hcount := h.failures_after events role
  have hnone : w.worksOf k = [] := List.map_eq_nil_iff.mp hidle
  rw [failed_eq hr, failed_eq hr', hnone, List.countP_nil] at hcount
  rw [length_handed hq]
  unfold UInt64.size at hcount ⊢
  omega

/-! ## Stops -/

/-- A watcher is cancelled or stopped at any time. If the work that is under way when its loop ends
is over within the grace, then the sink is not stopped before all work on everything that was handed
on is over, no work of the watcher comes later, and what was handed on has ended well or is among
the failures that were counted. The call answers the highest index that was handed on. A page is
handed on as a whole or not at all. -/
theorem stops_sink_after_work {watermark : Nat} (hnew : w.HasNew k watermark) (howned : w.Owned)
    (hidle : w.handed k = []) {events : List Event} (horder : InOrder events)
    (hgrace : w.withinGrace k events = true) :
    ∃ x, (w.after events).watchers[k]? = some x ∧
      (∀ halt, x.halt = some halt → halt.hasLeftGrace = true →
        (∀ more, ∀ p ∈ (w.after (events ++ more)).worksOf k, Publication.isEnded p = true) ∧
        (∀ more, (w.after (events ++ more)).handed k = (w.after events).handed k) ∧
        ((w.after events).failures x.role + (w.after events).succeeded k +
            w.failedBeside x.role k) % UInt64.size =
          (w.failures x.role + ((w.after events).handed k).length +
            (w.after events).failedBeside x.role k) % UInt64.size) ∧
      (∀ final, x.halt = some (.ended (.ok final)) →
        final = (((w.after events).handed k).map Change.index).foldl max watermark) ∧
      ∀ e, ∃ changes, (w.after (events ++ [e])).handed k = (w.after events).handed k ++ changes ∧
        (changes = [] ∨ ∃ due page, x.loop = .asking due (.ok page) ∧
          changes = page.changes.filter (x.progress.watermark < ·.index)) := by
  obtain ⟨x, hx, hhanded, hwatermark⟩ := watermark_after hnew events
  obtain ⟨x₀, role, hx₀, hnew⟩ := hnew
  obtain ⟨x₁, hx₁, hs⟩ := settled_after hx₀ hnew.ordered (by rw [hnew.loop]; rfl) horder hgrace
  rw [hx] at hx₁
  cases hx₁
  rw [hidle, List.nil_append] at hhanded
  refine ⟨x, hx, fun halt hh hleft => ?_, fun final hfinal => ?_, fun e => ?_⟩
  · have hq : (w.after events).isQuiet k = true := hs.quiet halt hh hleft
    have hjoined : halt.hasJoined = true := by cases halt <;> first | rfl | cases hleft
    have hl : Loop.isEnded x.loop = true := hs.ordered.joined halt hh hjoined
    have hrole : w.roleOf? k = some x.role ∧ (w.after events).roleOf? k = some x.role := by
      obtain ⟨x', hx', hr⟩ := after_watcher (P := fun x => x.role = x₀.role)
        (fun _ _ _ _ _ _ hm h => hm.role_eq.trans h) hx₀ rfl events
      rw [hx] at hx'
      cases hx'
      exact ⟨by rw [roleOf?, hx₀, Option.map_some, hr], by rw [roleOf?, hx, Option.map_some]⟩
    refine ⟨fun more => ?_, fun more => ?_, howned.accounted hrole.1 hrole.2 hidle hq⟩
    · rw [after_append]
      exact isQuiet_iff_worksOf.mp (rests_after hx hl hq more).1
    · rw [after_append]
      exact (rests_after hx hl hq more).2
  · rw [hs.ordered.final final hfinal, hwatermark, hhanded]
  · rw [after_append, after_cons, after_nil]
    obtain ⟨x', hx', hturn⟩ := next_turn hx e
    cases ha : (w.after events).answerAt? k e with
    | none =>
      rw [ha] at hturn
      exact ⟨[], by rw [hturn.2, List.append_nil], Or.inl rfl⟩
    | some answer =>
      rw [ha] at hturn
      refine ⟨_, hturn.2, ?_⟩
      obtain ⟨due, hasking⟩ := asking_of_answerAt? hx ha
      cases answer with
      | error error => exact Or.inl rfl
      | ok page =>
        by_cases hu : x.progress.isUnchanged page = true
        · exact Or.inl (by simp [Watch.Progress.fresh, hu])
        · exact Or.inr ⟨due, page, hasking, by simp [Watch.Progress.fresh, hu]⟩

/-- A sink that takes three seconds for a message and refuses the second one. -/
def slowPuts : World :=
  (({ World.empty with
      outlets := #[.recording ⟨false, false, [1], 3000, 0, false⟩]
      orchestrator := ⟨[⟨0, .ok ⟨[⟨"a", 5, .null⟩, ⟨"b", 6, .null⟩], 7⟩⟩], []⟩ } :
    World).startWatcher 0 .jobStubs .standard 0 4 0 1).2

/-- A stop while both messages are on their way. -/
def stopDuringPuts : List Event :=
  [.step 0 (.loop 0), .step 0 (.loop 0), .step 0 (.publication 0), .step 0 (.publication 0),
    .step 0 (.publication 1), .step 0 (.publication 1), .act (.halt 0), .step 10 (.halt 0),
    .step 10 (.loop 0), .step 10 (.halt 0), .step 10 (.reporter 0), .step 10 (.halt 0),
    .step 3000 (.publication 0), .step 3000 (.publication 0), .step 3000 (.publication 1),
    .step 3000 (.halt 0), .step 3000 (.halt 0)]

theorem stops_sink_after_work_of_slow_puts :
    (slowPuts.after stopDuringPuts).succeeded 0 = 1 ∧
      (slowPuts.after stopDuringPuts).failures .jobStubs = 1 ∧
      ((slowPuts.after stopDuringPuts).handed 0).length = 2 ∧
      ∃ x, (slowPuts.after stopDuringPuts).watchers[0]? = some x ∧
        x.halt = some (.ended (.ok 6)) ∧
        ∀ p ∈ (slowPuts.after stopDuringPuts).worksOf 0, Publication.isEnded p = true := by
  have hnew : slowPuts.HasNew 0 4 := ⟨_, .jobStubs, rfl, rfl, rfl, rfl, ⟨_, rfl⟩, rfl, rfl⟩
  have howned : slowPuts.Owned := fun j p hp => by cases hp
  have horder : InOrder stopDuringPuts := by decide
  obtain ⟨x, hx, hstopped, -⟩ := stops_sink_after_work hnew howned rfl horder rfl
  have hhalt : ((slowPuts.after stopDuringPuts).watchers[0]?).bind Watcher.halt =
      some (.ended (.ok 6)) := rfl
  rw [hx] at hhalt
  exact ⟨rfl, rfl, rfl, x, hx, hhalt, (hstopped _ hhalt rfl).1 []⟩

end World

end ChangeFeed.Engine
