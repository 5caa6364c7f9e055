import ChangeFeed.Engine.Session

/-!
# Schedules are sequences of events

A run of the scheduler chooses one order among all those in which the tasks may take their turns.
What it does is a sequence of events, so whatever holds after every sequence of events holds of it.
-/

namespace ChangeFeed.Engine

open Simulation

namespace Run

/-- Whether a run got from one state to another one by events. -/
def Leads (r r' : Run) : Prop := ∃ events, r'.state = r.state.after events

theorem Leads.refl (r : Run) : Leads r r := ⟨[], rfl⟩

theorem Leads.trans {r r' r'' : Run} (h : Leads r r') (h' : Leads r' r'') : Leads r r'' := by
  obtain ⟨events, h⟩ := h
  obtain ⟨more, h'⟩ := h'
  exact ⟨events ++ more, by rw [World.after_append, ← h, h']⟩

/-- The steps of one task are events. -/
theorem turn_after (now : Nat) (task : Task) (fuel : Nat) (w : World) :
    ∃ events, Simulation.Run.turn system now task fuel w = w.after events := by
  induction fuel generalizing w with
  | zero => exact ⟨[], rfl⟩
  | succ fuel ih =>
    unfold Simulation.Run.turn
    split
    · rename_i w' hs
      obtain ⟨events, h⟩ := ih w'
      have hnext : w.next (.step now task) = w' := by
        simp only [World.next]
        exact congrArg (·.getD w) hs
      exact ⟨.step now task :: events, by rw [h, World.after_cons, hnext]⟩
    · exact ⟨[], rfl⟩

theorem settle_leads (fuel : Nat) (r : Run) : Leads r (Simulation.Run.settle system fuel r) := by
  induction fuel generalizing r with
  | zero => exact .refl r
  | succ fuel ih =>
    simp only [Simulation.Run.settle]
    split
    · exact ⟨[], rfl⟩
    · rename_i task ready hready
      refine Leads.trans ?_ (ih _)
      exact turn_after _ _ _ _

theorem advanceTo_leads (target fuel : Nat) (r : Run) :
    Leads r (Simulation.Run.advanceTo system target fuel r) := by
  induction fuel generalizing r with
  | zero => exact .refl r
  | succ fuel ih =>
    simp only [Simulation.Run.advanceTo]
    have hs : Leads r (Simulation.Run.settle system Simulation.Run.settleLimit r) :=
      settle_leads _ r
    split
    · split
      · refine hs.trans (Leads.trans ?_ (ih _))
        exact ⟨[], rfl⟩
      · exact hs
    · exact hs

theorem await_leads (holds : World → Bool) (latest fuel : Nat) (r : Run) :
    Leads r (Simulation.Run.await system holds latest fuel r) := by
  induction fuel generalizing r with
  | zero => exact .refl r
  | succ fuel ih =>
    simp only [Simulation.Run.await]
    have hs : Leads r (Simulation.Run.settle system Simulation.Run.settleLimit r) :=
      settle_leads _ r
    split
    · exact hs
    · split
      · split
        · refine hs.trans (Leads.trans ?_ (ih _))
          exact ⟨[], rfl⟩
        · exact hs
      · exact hs

/-- Moving the clock is a sequence of events. -/
theorem advance_leads (r : Run) (millis : Nat) : Leads r (r.advance millis) :=
  (advanceTo_leads _ _ r).trans (settle_leads _ _)

/-- An act, and what follows from it, is a sequence of events. -/
theorem act_leads (r : Run) (a : Act) : Leads r (r.act (·.perform a)) := by
  obtain ⟨events, h⟩ := settle_leads Simulation.Run.settleLimit (r.change (·.perform a))
  exact ⟨.act a :: events, h⟩

end Run

end ChangeFeed.Engine
