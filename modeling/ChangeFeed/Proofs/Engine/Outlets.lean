import ChangeFeed.Proofs.Sink.Batches
import ChangeFeed.Proofs.Sink.Deliveries

/-!
# What a system does to its sinks

A system reaches a sink through its outlet only: it starts the sink, begins and goes on with puts and
with calls that stop it, and lets its writers work.

* `Outlet.Turn` is one of these, and `Outlet.Turns` any number of them.
* `events_of_direct` and `events_of_batched`: all that becomes of a direct or a batched sink this way
  is a history of it, so that what holds of all histories holds of the sinks of a system.
-/

namespace ChangeFeed.Engine.Outlet

open Sink

variable {name : String} {destination : Destination} {delay : Nat} {o o' : Outlet}
  {stops stops' : List (Option Stopping)}

/-- What a call that stops a sink has come to; a call that returns has no phase any more. -/
def phase? : Stopping ⊕ Except Error Unit → Option Stopping
  | .inl phase => some phase
  | .inr _ => none

/-- What a system does to an outlet, beside which the calls that stop it are written down. -/
inductive Turn (o : Outlet) (stops : List (Option Stopping)) :
    Outlet → List (Option Stopping) → Prop
  | starts : Turn o stops o.start.2.1 stops
  | begins (m : Message) (now : Nat) : Turn o stops (o.begin m now).2 stops
  | proceeds {o' : Outlet} {p : Put} {now : Nat} {result : Except Error Unit} {entries : List Entry}
      (h : o.proceed? p now = some (result, o', entries)) : Turn o stops o' stops
  | works {o' : Outlet} {i now : Nat} {entries : List Entry}
      (h : o.step? i now = some (o', entries)) : Turn o stops o' stops
  | stops : Turn o stops o (stops ++ [some .closing])
  | goesOn {o' : Outlet} {call now : Nat} {phase : Stopping}
      {next : Stopping ⊕ Except Error Unit} {entries : List Entry}
      (hcall : stops[call]? = some (some phase))
      (h : o.stop? phase now = some (next, o', entries)) :
      Turn o stops o' (stops.set call (phase? next))

/-- Any number of turns. -/
inductive Turns (o : Outlet) (stops : List (Option Stopping)) :
    Outlet → List (Option Stopping) → Prop
  | none : Turns o stops o stops
  | more {o' o'' : Outlet} {stops' stops'' : List (Option Stopping)}
      (h : Turns o stops o' stops') (ht : Turn o' stops' o'' stops'') : Turns o stops o'' stops''

theorem phase?_phaseOrDone (next : Option Stopping) : phase? (phaseOrDone next) = next := by
  cases next <;> rfl

/-! ## Direct sinks -/

theorem event_of_stepDirect? {u : Direct.History} {i now : Nat} {entries : List Entry}
    (h : stepDirect? name u.sink destination delay i now = some (o', entries)) :
    ∃ e destination', o' = .direct name (u.next e).sink destination' delay ∧
      (u.next e).stops = u.stops := by
  unfold stepDirect? at h
  split at h
  · rename_i m since hw
    split at h
    · cases h
    · generalize destination.write m = answer at h
      obtain ⟨result, destination'⟩ := answer
      obtain ⟨sink, hs, heq⟩ := Option.map_eq_some_iff.mp h
      cases heq
      refine ⟨.finish i (succeeded result), destination', ?_, rfl⟩
      simp only [Direct.History.next, hs, Option.getD_some]
  · obtain ⟨sink, hs, heq⟩ := Option.map_eq_some_iff.mp h
    cases heq
    refine ⟨.call i now, destination, ?_, ?_⟩
    · simp only [Direct.History.next, hs]
    · simp only [Direct.History.next, hs]
  · obtain ⟨sink, hs, heq⟩ := Option.map_eq_some_iff.mp h
    cases heq
    cases hl : u.sink.leave? i with
    | some left =>
      rw [hl] at hs
      cases hs
      refine ⟨.leave i, destination, ?_, rfl⟩
      simp only [Direct.History.next, hl, Option.getD_some]
    | none =>
      have ht : u.sink.take? i = some sink := by
        rw [hl] at hs
        exact hs
      refine ⟨.take i, destination, ?_, ?_⟩
      · simp only [Direct.History.next, ht]
      · simp only [Direct.History.next, ht]
  · cases h

theorem event_of_direct {u : Direct.History}
    (h : Turn (.direct name u.sink destination delay) u.stops o' stops') :
    ∃ e destination', o' = .direct name (u.next e).sink destination' delay ∧
      stops' = (u.next e).stops := by
  cases h with
  | starts => exact ⟨.start, destination, rfl, rfl⟩
  | begins m now => exact ⟨.produce (.put m), destination, rfl, rfl⟩
  | proceeds h =>
    rename_i p now result entries
    cases p with
    | waiting ticket =>
      obtain ⟨queue, hq, heq⟩ := Option.map_eq_some_iff.mp h
      cases heq
      refine ⟨.produce (.enter ticket), destination, ?_, rfl⟩
      simp only [Direct.History.next, Queue.produce, hq, Option.getD_some]
    | recording m number since => cases h
  | works h =>
    obtain ⟨e, destination', heq, hstops⟩ := event_of_stepDirect? h
    exact ⟨e, destination', heq, hstops.symm⟩
  | stops => exact ⟨.stop, destination, rfl, rfl⟩
  | goesOn hcall h =>
    rename_i call now phase next entries
    obtain ⟨⟨sink, next'⟩, hs, heq⟩ := Option.map_eq_some_iff.mp h
    cases heq
    refine ⟨.goOn call now, destination, ?_, ?_⟩
    · simp only [Direct.History.next, hcall, hs]
    · simp only [Direct.History.next, hcall, hs, phase?_phaseOrDone]

/-- Whatever a system does to a direct sink is a history of it. -/
theorem events_of_direct {u : Direct.History}
    (h : Turns (.direct name u.sink destination delay) u.stops o' stops') :
    ∃ events destination', o' = .direct name (u.after events).sink destination' delay ∧
      stops' = (u.after events).stops := by
  induction h with
  | none => exact ⟨[], destination, rfl, rfl⟩
  | more _ ht ih =>
    obtain ⟨events, destination', rfl, rfl⟩ := ih
    obtain ⟨e, destination'', rfl, rfl⟩ := event_of_direct ht
    refine ⟨events ++ [e], destination'', ?_, ?_⟩
    · rw [Direct.History.after_append]
      rfl
    · rw [Direct.History.after_append]
      rfl

/-! ## Batched sinks -/

theorem event_of_stepBatched? {u : Batched.History} {now : Nat} {entries : List Entry}
    (h : stepBatched? name u.sink destination delay now = some (o', entries)) :
    ∃ e destination', o' = .batched name (u.next e).sink destination' delay ∧
      (u.next e).stops = u.stops := by
  unfold stepBatched? at h
  -- an answer of the destination
  have answered {ok : Bool} {destination' : Destination} {entry : Entry}
      (h : ((u.sink.finish? ok now).map fun sink =>
        (Outlet.batched name sink destination' delay, [entry])) = some (o', entries)) :
      ∃ e destination', o' = .batched name (u.next e).sink destination' delay ∧
        (u.next e).stops = u.stops := by
    obtain ⟨sink, hs, heq⟩ := Option.map_eq_some_iff.mp h
    cases heq
    refine ⟨.finish ok now, destination', ?_, ?_⟩
    · simp only [Batched.History.next, hs]
    · simp only [Batched.History.next, hs]
  split at h
  · obtain ⟨sink, hs, heq⟩ := Option.map_eq_some_iff.mp h
    cases heq
    cases hl : u.sink.leave? now with
    | some left =>
      rw [hl] at hs
      cases hs
      refine ⟨.leave now, destination, ?_, rfl⟩
      simp only [Batched.History.next, hl, Option.getD_some]
    | none =>
      rw [hl] at hs
      cases hf : u.sink.flush? now with
      | some flushed =>
        rw [hf] at hs
        cases hs
        refine ⟨.flush now, destination, ?_, rfl⟩
        simp only [Batched.History.next, hf, Option.getD_some]
      | none =>
        have ht : u.sink.take? now = some sink := by
          rw [hf] at hs
          exact hs
        refine ⟨.take now, destination, ?_, rfl⟩
        simp only [Batched.History.next, ht, Option.getD_some]
  · split at h
    · cases h
    · exact answered h
  · split at h
    · cases h
    · exact answered h
  · cases h

theorem event_of_batched {u : Batched.History}
    (h : Turn (.batched name u.sink destination delay) u.stops o' stops') :
    ∃ e destination', o' = .batched name (u.next e).sink destination' delay ∧
      stops' = (u.next e).stops := by
  cases h with
  | starts => exact ⟨.start, destination, rfl, rfl⟩
  | begins m now => exact ⟨.produce (.put m), destination, rfl, rfl⟩
  | proceeds h =>
    rename_i p now result entries
    cases p with
    | waiting ticket =>
      obtain ⟨queue, hq, heq⟩ := Option.map_eq_some_iff.mp h
      cases heq
      refine ⟨.produce (.enter ticket), destination, ?_, rfl⟩
      simp only [Batched.History.next, Queue.produce, hq, Option.getD_some]
    | recording m number since => cases h
  | works h =>
    obtain ⟨e, destination', heq, hstops⟩ := event_of_stepBatched? h
    exact ⟨e, destination', heq, hstops.symm⟩
  | stops => exact ⟨.stop, destination, rfl, rfl⟩
  | goesOn hcall h =>
    rename_i call now phase next entries
    obtain ⟨⟨sink, next'⟩, hs, heq⟩ := Option.map_eq_some_iff.mp h
    cases heq
    refine ⟨.goOn call now, destination, ?_, ?_⟩
    · simp only [Batched.History.next, hcall, hs]
    · simp only [Batched.History.next, hcall, hs, phase?_phaseOrDone]

/-- Whatever a system does to a batched sink is a history of it. -/
theorem events_of_batched {u : Batched.History}
    (h : Turns (.batched name u.sink destination delay) u.stops o' stops') :
    ∃ events destination', o' = .batched name (u.after events).sink destination' delay ∧
      stops' = (u.after events).stops := by
  induction h with
  | none => exact ⟨[], destination, rfl, rfl⟩
  | more _ ht ih =>
    obtain ⟨events, destination', rfl, rfl⟩ := ih
    obtain ⟨e, destination'', rfl, rfl⟩ := event_of_batched ht
    refine ⟨events ++ [e], destination'', ?_, ?_⟩
    · simp only [Batched.History.after, List.foldl_append]
      rfl
    · simp only [Batched.History.after, List.foldl_append]
      rfl

end ChangeFeed.Engine.Outlet
