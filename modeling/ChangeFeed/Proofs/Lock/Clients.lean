import ChangeFeed.Proofs.Lock.Wakeups
import ChangeFeed.Simulation.Locks

/-!
# Clients of a lock service

A client of a lock service does in one go what `Office` splits into steps. So whatever holds after
every sequence of events holds of it.

* `Office.service_look_arrive` and `Office.service_look_wake`: who asks for a lock puts itself on
  the list and looks, and who is told of a freed lock does so anew.
* `State.after_leads`: a run of calls is a sequence of events.
-/

namespace ChangeFeed

namespace Lock.Office

variable {s : Office} {ticket : Nat} {key name : String}

/-- A look of the last client on the list. -/
theorem service_look (others : List Waiter)
    (hw : s.service.waiters = others ++ [⟨ticket, key, name, false⟩]) (hl : ticket ∈ s.looking)
    (ho : ∀ v ∈ others, v.ticket ≠ ticket) :
    (s.look ticket).2.service =
      (({ s.service with waiters := others } : Service).acquire ticket key name).2 := by
  have hnone : others.find? (fun w => w.ticket = ticket && ticket ∈ s.looking) = none :=
    List.find?_eq_none.mpr fun v hv => by simp [ho v hv]
  have hfind : s.service.waiters.find? (fun w => w.ticket = ticket && ticket ∈ s.looking) =
      some ⟨ticket, key, name, false⟩ := by
    rw [hw, List.find?_append, hnone]
    simp [hl]
  have hcancel : (s.service.cancel ticket).waiters = others := by
    have hkept : others.filter (·.ticket ≠ ticket) = others :=
      List.filter_eq_self.mpr fun v hv => by simp [ho v hv]
    rw [Service.cancel, hw, List.filter_append, hkept]
    simp
  unfold look Service.acquire
  simp only [hfind]
  cases hg : s.service.table.grant? key name with
  | none => simp [← hw]
  | some granted =>
    obtain ⟨lease, table⟩ := granted
    simp [hcancel]

/-- Who asks for a lock puts itself on the list and looks at the table. -/
theorem service_look_arrive (h : s.Listed) (key name : String) :
    ((s.arrive key name).look s.tickets).2.service =
      (s.service.acquire s.tickets key name).2 := by
  rw [service_look s.service.waiters rfl]
  · rfl
  · exact List.mem_append_right _ (List.mem_singleton_self _)
  · exact fun v hv => Nat.ne_of_lt (h.lt v hv)

/-- Who was told of a freed lock puts itself on the list anew and looks at the table. -/
theorem service_look_wake (hl : ticket ∉ s.looking) :
    ((s.wake ticket).look ticket).2.service = (s.service.retry ticket).2 := by
  have hp : (fun w : Waiter => (w.ticket = ticket && w.marked && ticket ∉ s.looking : Bool)) =
      fun w => w.ticket = ticket && w.marked := by
    funext w
    simp [hl]
  unfold wake Service.retry
  rw [hp]
  cases hf : s.service.waiters.find? fun w => w.ticket = ticket && w.marked with
  | none =>
    have hlook :
        s.service.waiters.find? (fun w => w.ticket = ticket && ticket ∈ s.looking) = none :=
      List.find?_eq_none.mpr fun w _ => by simp [hl]
    simp only [look, hlook]
  | some w =>
    refine service_look (s.service.cancel ticket).waiters rfl ?_ fun v hv => ?_
    · exact List.mem_append_right _ (List.mem_singleton_self _)
    · exact (Listed.ticket_ne_of_mem_cancel hv).2

/-- What is done for one after the other is a sequence of events if each of its steps is one. -/
theorem foldl_leads {α β : Type} {f : β × Office → α → β × Office}
    (hf : ∀ b s a, ∃ events, (f (b, s) a).2 = s.after events) (l : List α) (b : β) (s : Office) :
    ∃ events, (l.foldl f (b, s)).2 = s.after events := by
  induction l generalizing b s with
  | nil => exact ⟨[], rfl⟩
  | cons a rest ih =>
    obtain ⟨events, hstep⟩ := hf b s a
    obtain ⟨more, hrest⟩ := ih (f (b, s) a).1 (f (b, s) a).2
    refine ⟨events ++ more, ?_⟩
    rw [after_append, ← hstep]
    exact hrest

/-- Those who were told of a freed lock try one by one. -/
theorem settle_leads (s : Office) : ∃ events, s.settle.2 = s.after events := by
  refine foldl_leads (fun granted s ticket => ⟨[.wake ticket, .look ticket], ?_⟩) _ _ _
  show _ = ((s.wake ticket).look ticket).2
  dsimp only
  rcases (s.wake ticket).look ticket with ⟨_ | n, s'⟩ <;> rfl

end Lock.Office

namespace Simulation.Locks.State

open Lock

variable {s : State}

/-- A call is a sequence of events. -/
theorem call_leads (s : State) (call : Call) :
    ∃ events, (s.call call).2.office = s.office.after events := by
  cases call with
  | acquire slot key name =>
    exact ⟨[.arrive key name, .look s.office.tickets], rfl⟩
  | cancel slot =>
    simp only [State.call]
    split
    · rename_i ticket hs
      exact ⟨[.cancel ticket], rfl⟩
    · exact ⟨[], rfl⟩
  | release slot =>
    simp only [State.call]
    split
    · rename_i n lease hs
      exact ⟨[.release n], rfl⟩
    · exact ⟨[], rfl⟩
  | drop slot => exact ⟨[], rfl⟩
  | notice slot =>
    simp only [State.call]
    split <;> exact ⟨[], rfl⟩
  | revoke key => exact ⟨[.revoke key], rfl⟩
  | holder key => exact ⟨[], rfl⟩
  | «show» slot =>
    simp only [State.call]
    split <;> exact ⟨[], rfl⟩

theorem settle_office (s : State) : s.settle.office = s.office.settle.2 := by
  have hand (f : State → Nat × Nat → State) (hf : ∀ s lease, (f s lease).office = s.office)
      (granted : List (Nat × Nat)) (s : State) : (granted.foldl f s).office = s.office := by
    induction granted generalizing s with
    | nil => rfl
    | cons first rest ih => exact (ih _).trans (hf s first)
  unfold State.settle
  apply hand
  exact fun s lease => rfl

/-- A call, and what follows from it, is a sequence of events. -/
theorem step_leads (s : State) (call : Call) :
    ∃ events, (s.step call).2.office = s.office.after events := by
  obtain ⟨events, hcall⟩ := call_leads s call
  obtain ⟨more, hsettle⟩ := (s.call call).2.office.settle_leads
  refine ⟨events ++ more, ?_⟩
  rw [Office.after_append, ← hcall, ← hsettle, ← settle_office]
  rfl

/-- The state after some calls. -/
def after (s : State) (calls : List Call) : State := calls.foldl (fun s call => (s.step call).2) s

/-- A run of calls is a sequence of events. -/
theorem after_leads (s : State) (calls : List Call) :
    ∃ events, (s.after calls).office = s.office.after events := by
  induction calls generalizing s with
  | nil => exact ⟨[], rfl⟩
  | cons call rest ih =>
    obtain ⟨events, hstep⟩ := step_leads s call
    obtain ⟨more, hrest⟩ := ih (s.step call).2
    exact ⟨events ++ more, by rw [Office.after_append, ← hstep]; exact hrest⟩

end Simulation.Locks.State

end ChangeFeed
