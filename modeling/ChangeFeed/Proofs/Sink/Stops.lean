import Mathlib.Data.List.Induction
import Mathlib.Data.List.TakeWhile
import ChangeFeed.Proofs.Sink.Queues

/-!
# Calls that stop a sink

Any number of calls may stop one sink. Each of them goes through its phases by itself, and a later
phase can rely on what the call did in the earlier ones.

* `Gate` is what the calls look at, whatever kind of sink it belongs to. `Gate.Passes` is one step of
  a call, and `Gate.Moves` one step of anybody but a new call.
* `Gate.Sound` is kept by every step, if the sink is started before it is stopped. `Gate.Over` holds
  once a call has returned, and `Over.next`: then nothing moves any more.
* `ComesFirst`: in what order a sink is started and stopped. `Gate.Follows` is a system that moves a
  gate, and `Follows.sound_foldl` carries soundness through its runs.
-/

namespace ChangeFeed.Sink

/-- What a call that stops a sink looks at. -/
structure Gate where
  queue : Queue
  started : Bool
  cancelled : Bool
  /-- Whether nobody works for the sink. -/
  quiet : Bool
  /-- The phases of the calls; a call without one has returned. -/
  stops : List (Option Stopping)

/-- The first step of a call closes the queue. -/
def Stopping.closes : Stopping → Queue → Queue
  | .closing, q => q.close
  | _, q => q

/-- What has happened to a sink before a phase of a call. -/
def Stopping.Reached (closed cancelled quiet : Bool) : Option Stopping → Prop
  | some .closing => True
  | some (.draining _) => closed = true
  | some .joining => cancelled = true
  | none => cancelled = true ∧ quiet = true

namespace Stopping

theorem Reached.mono {closed cancelled quiet closed' cancelled' quiet' : Bool}
    {phase : Option Stopping} (h : Reached closed cancelled quiet phase)
    (hc : closed = true → closed' = true) (hd : cancelled = true → cancelled' = true)
    (hq : cancelled = true → quiet = true → quiet' = true) :
    Reached closed' cancelled' quiet' phase := by
  match phase, h with
  | some .closing, _ => exact trivial
  | some (.draining _), h => exact hc h
  | some .joining, h => exact hd h
  | none, ⟨hd', hq'⟩ => exact ⟨hd hd', hq hd' hq'⟩

end Stopping

namespace Gate

variable {g g' : Gate}

/-- One step of a call: it closes the queue and waits while a place of it is taken, or tells those
who work for the sink to end, or returns once they have. -/
inductive Passes (g : Gate) : Stopping → Queue → Bool → Option Stopping → Prop
  | waits {phase : Stopping} (hne : phase ≠ .joining) (hs : g.started = true)
      (hl : 0 < (phase.closes g.queue).length) (time : Nat) :
      Passes g phase (phase.closes g.queue) g.cancelled (some (.draining time))
  | cancels {phase : Stopping} (hne : phase ≠ .joining)
      (hl : g.started = true → (phase.closes g.queue).length = 0) :
      Passes g phase (phase.closes g.queue) true (some .joining)
  | returns (hq : g.quiet = true) : Passes g .joining g.queue g.cancelled none

/-- One step of a producer, of those who work for the sink, of the call that starts it, or of one
that stops it. -/
inductive Moves (g : Gate) : Gate → Prop
  | same : Moves g g
  | start (hs : g.started = false) (quiet : Bool) : Moves g { g with started := true, quiet }
  | produce (p : Production) : Moves g { g with queue := g.queue.produce p }
  | take {m : Message} {queue : Queue} (hc : g.cancelled = false)
      (ht : g.queue.take? = some (m, queue)) (quiet : Bool) : Moves g { g with queue, quiet }
  | work (hq : g.quiet = false) (quiet : Bool) : Moves g { g with quiet }
  | goOn {phase : Stopping} {queue : Queue} {cancelled : Bool} {next : Option Stopping} (call : Nat)
      (hmem : some phase ∈ g.stops) (hp : g.Passes phase queue cancelled next) :
      Moves g { g with queue, cancelled, stops := g.stops.set call next }

/-- A new call. -/
def stop (g : Gate) : Gate := { g with stops := g.stops ++ [some .closing] }

/-- What holds of a sink that is started before it is stopped. -/
structure Sound (g : Gate) : Prop where
  queue : g.queue.Sound
  attended : g.stops ≠ [] → g.started = true
  finished : g.cancelled = true → g.queue.Sealed
  reached : ∀ phase ∈ g.stops, Stopping.Reached g.queue.closed g.cancelled g.quiet phase

/-! ## The queue -/

variable {phase : Stopping}

theorem Passes.queue_eq {queue : Queue} {cancelled : Bool} {next : Option Stopping}
    (h : g.Passes phase queue cancelled next) : queue = phase.closes g.queue := by
  cases h with
  | waits => rfl
  | cancels => rfl
  | returns => rfl

theorem items_closes (phase : Stopping) (q : Queue) : (phase.closes q).items = q.items := by
  cases phase <;> rfl

theorem capacity_closes (phase : Stopping) (q : Queue) :
    (phase.closes q).capacity = q.capacity := by
  cases phase <;> rfl

theorem sound_closes (phase : Stopping) {q : Queue} (h : q.Sound) : (phase.closes q).Sound := by
  cases phase with
  | closing => exact h.close
  | draining time => exact h
  | joining => exact h

theorem closes_of_closed (phase : Stopping) {q : Queue} (h : q.closed = true) :
    phase.closes q = q := by
  cases phase with
  | closing => rw [Stopping.closes, Queue.close, ← h]
  | draining time => rfl
  | joining => rfl

theorem capacity_moves (h : g.Moves g') : g'.queue.capacity = g.queue.capacity := by
  cases h with
  | same => rfl
  | start => rfl
  | produce p => exact Queue.capacity_produce _ p
  | take hc ht => exact Queue.capacity_take ht
  | work => rfl
  | goOn call hmem hp =>
    rw [hp.queue_eq]
    exact capacity_closes _ _

theorem started_moves (h : g.Moves g') (hs : g.started = true) : g'.started = true := by
  cases h with
  | start => rfl
  | same => exact hs
  | produce => exact hs
  | take => exact hs
  | work => exact hs
  | goOn => exact hs

/-! ## One step -/

theorem sound_create (capacity : Nat) (quiet : Bool) :
    Sound ⟨.empty capacity, false, false, quiet, []⟩ where
  queue := Queue.sound_empty capacity
  attended := fun h => absurd rfl h
  finished := fun h => by cases h
  reached := fun phase hp => by cases hp

theorem Sound.stop (h : g.Sound) (hs : g.started = true) : g.stop.Sound where
  queue := h.queue
  attended := fun _ => hs
  finished := h.finished
  reached := fun phase hp => by
    rcases List.mem_append.mp hp with hp | hp
    · exact h.reached phase hp
    · rw [List.mem_singleton.mp hp]
      exact trivial

/-- A call that goes on finds the queue closed after its first step, and leaves it so. -/
theorem Sound.goOn (h : g.Sound) {queue : Queue} {cancelled : Bool} {next : Option Stopping}
    (call : Nat) (hmem : some phase ∈ g.stops) (hp : g.Passes phase queue cancelled next) :
    Sound { g with queue, cancelled, stops := g.stops.set call next } := by
  have hstarted : g.started = true := h.attended (List.ne_nil_of_mem hmem)
  have hreached := h.reached _ hmem
  have others {queue' : Queue} {cancelled' : Bool}
      (hc : g.queue.closed = true → queue'.closed = true)
      (hd : g.cancelled = true → cancelled' = true)
      (hn : Stopping.Reached queue'.closed cancelled' g.quiet next) :
      ∀ phase' ∈ g.stops.set call next,
        Stopping.Reached queue'.closed cancelled' g.quiet phase' := by
    intro phase' hphase
    rcases List.mem_or_eq_of_mem_set hphase with hold | rfl
    · exact (h.reached phase' hold).mono hc hd fun _ => id
    · exact hn
  have hclosed (hne : phase ≠ .joining) : (phase.closes g.queue).closed = true := by
    match phase, hreached with
    | .closing, _ => rfl
    | .draining _, hreached => exact hreached
    | .joining, _ => exact absurd rfl hne
  cases hp with
  | waits hne hs hl time =>
    refine ⟨sound_closes phase h.queue, fun _ => hstarted, fun hc => ?_,
      others (fun _ => hclosed hne) id (hclosed hne)⟩
    have hsealed := h.finished hc
    rwa [closes_of_closed phase hsealed.closed]
  | cancels hne hl =>
    have hsealed := Queue.sealed_of_length_eq_zero (hclosed hne) (hl hstarted)
    exact ⟨sound_closes phase h.queue, fun _ => hstarted, fun _ => hsealed,
      others (fun _ => hclosed hne) (fun _ => rfl) rfl⟩
  | returns hq =>
    exact ⟨h.queue, fun _ => hstarted, h.finished, others id id ⟨hreached, hq⟩⟩

theorem Sound.next (h : g.Sound) (hm : g.Moves g') : g'.Sound := by
  cases hm with
  | same => exact h
  | start hs quiet =>
    -- nobody has tried to stop the sink
    have hstops : g.stops = [] := by
      by_contra hne
      rw [h.attended hne] at hs
      cases hs
    refine ⟨h.queue, fun _ => rfl, h.finished, fun phase hp => ?_⟩
    have hp' : phase ∈ g.stops := hp
    rw [hstops] at hp'
    cases hp'
  | produce p =>
    refine ⟨h.queue.produce p, h.attended, fun hc => ?_, fun phase hp => ?_⟩
    · have hsealed := h.finished hc
      rwa [hsealed.produce p]
    · exact (h.reached phase hp).mono (fun hc => (Queue.closed_produce _ p).trans hc) id fun _ => id
  | take hc ht quiet =>
    have hnot : g.cancelled ≠ true := by simp [hc]
    refine ⟨h.queue.take ht, h.attended, fun hc' => absurd hc' hnot, fun phase hp => ?_⟩
    exact (h.reached phase hp).mono (fun hcl => (Queue.closed_take ht).trans hcl) id
      fun hc' => absurd hc' hnot
  | work hq quiet =>
    refine ⟨h.queue, h.attended, h.finished, fun phase hp => ?_⟩
    refine (h.reached phase hp).mono id id fun _ hq' => ?_
    rw [hq] at hq'
    cases hq'
  | goOn call hmem hp => exact h.goOn call hmem hp

/-- A call that has taken its first step has closed the queue. -/
theorem Sound.closed_of_begun (h : g.Sound) {phase : Option Stopping} (hp : phase ∈ g.stops)
    (hne : phase ≠ some .closing) : g.queue.closed = true := by
  match phase, h.reached phase hp with
  | some .closing, _ => exact absurd rfl hne
  | some (.draining _), hclosed => exact hclosed
  | some .joining, hc => exact (h.finished hc).closed
  | none, ⟨hc, _⟩ => exact (h.finished hc).closed

/-! ## The end -/

/-- A sink that is stopped. -/
structure Over (g : Gate) : Prop where
  started : g.started = true
  cancelled : g.cancelled = true
  quiet : g.quiet = true
  queue : g.queue.Sealed

theorem Sound.over (h : g.Sound) (hr : none ∈ g.stops) : g.Over := by
  obtain ⟨hc, hq⟩ := h.reached none hr
  exact ⟨h.attended (List.ne_nil_of_mem hr), hc, hq, h.finished hc⟩

theorem Over.next (h : g.Over) (hm : g.Moves g') : g'.Over := by
  cases hm with
  | same => exact h
  | start hs quiet => exact absurd h.started (by simp [hs])
  | produce p => exact ⟨h.started, h.cancelled, h.quiet, (h.queue.produce p).symm ▸ h.queue⟩
  | take hc ht quiet => exact absurd h.cancelled (by simp [hc])
  | work hq quiet => exact absurd h.quiet (by simp [hq])
  | @goOn phase queue cancelled next call hmem hp =>
    have hsame : queue = g.queue := by
      rw [hp.queue_eq]
      exact closes_of_closed phase h.queue.closed
    have hcancelled : cancelled = true := by
      cases hp with
      | waits => exact h.cancelled
      | cancels => rfl
      | returns => exact h.cancelled
    exact ⟨h.started, hcancelled, h.quiet, hsame.symm ▸ h.queue⟩

end Gate

/-! ## The order of starts and stops -/

/-- No event `b` comes before the first event `a`. -/
def ComesFirst {ε : Type} [DecidableEq ε] (a b : ε) (events : List ε) : Prop :=
  b ∉ events.takeWhile (· ≠ a)

instance {ε : Type} [DecidableEq ε] (a b : ε) (events : List ε) :
    Decidable (ComesFirst a b events) :=
  inferInstanceAs (Decidable (b ∉ events.takeWhile (· ≠ a)))

theorem ComesFirst.of_append {ε : Type} [DecidableEq ε] {a b : ε} {events more : List ε}
    (h : ComesFirst a b (events ++ more)) : ComesFirst a b events := by
  intro hb
  apply h
  rw [List.takeWhile_append]
  split
  · exact List.mem_append_left _ (List.takeWhile_subset _ hb)
  · exact hb

theorem ComesFirst.mem {ε : Type} [DecidableEq ε] {a b : ε} {events : List ε} (hab : b ≠ a)
    (h : ComesFirst a b (events ++ [b])) : a ∈ events := by
  by_contra ha
  apply h
  have hall : (events ++ [b]).takeWhile (· ≠ a) = events ++ [b] := by
    refine List.takeWhile_eq_self_iff.mpr fun e he => ?_
    rcases List.mem_append.mp he with he | he
    · have hne : e ≠ a := fun heq => ha (heq ▸ he)
      simpa using hne
    · rw [List.mem_singleton.mp he]
      simpa using hab
  rw [hall]
  exact List.mem_append_right _ (List.mem_singleton_self b)

/-! ## Runs -/

/-- A system in which events move a gate; two of its events are the call that starts the sink and a
new call that stops it. -/
structure Gate.Follows {η ε : Type} (gate : η → Gate) (next : η → ε → η) (start stop : ε) :
    Prop where
  moves : ∀ u e, e ≠ stop → (gate u).Moves (gate (next u e))
  starts : ∀ u, (gate (next u start)).started = true
  stops : ∀ u, gate (next u stop) = (gate u).stop

namespace Gate.Follows

variable {η ε : Type} {gate : η → Gate} {next : η → ε → η} {start stop : ε} {u : η}

theorem started_next (h : Follows gate next start stop) (hs : (gate u).started = true) (e : ε) :
    (gate (next u e)).started = true := by
  by_cases he : e = stop
  · rw [he, h.stops]
    exact hs
  · exact started_moves (h.moves u e he) hs

theorem started_of_mem (h : Follows gate next start stop) {events : List ε}
    (hmem : start ∈ events) : (gate (events.foldl next u)).started = true := by
  have keeps (more : List ε) (u : η) (hs : (gate u).started = true) :
      (gate (more.foldl next u)).started = true := by
    induction more generalizing u with
    | nil => exact hs
    | cons e rest ih => exact ih _ (h.started_next hs e)
  obtain ⟨earlier, later, rfl⟩ := List.append_of_mem hmem
  rw [List.foldl_append]
  exact keeps later _ (h.starts _)

theorem sound_foldl [DecidableEq ε] (h : Follows gate next start stop) (hne : stop ≠ start)
    (hu : (gate u).Sound) {events : List ε} (hfirst : ComesFirst start stop events) :
    (gate (events.foldl next u)).Sound := by
  induction events using List.reverseRecOn with
  | nil => exact hu
  | append_singleton events e ih =>
    have hsound := ih hfirst.of_append
    rw [List.foldl_append]
    by_cases he : e = stop
    · subst he
      have hstarted := h.started_of_mem (u := u) (hfirst.mem hne)
      exact (h.stops _).symm ▸ hsound.stop hstarted
    · exact hsound.next (h.moves _ e he)

end Gate.Follows

end ChangeFeed.Sink
