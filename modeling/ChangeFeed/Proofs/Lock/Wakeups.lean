import Mathlib.Data.List.Nodup
import ChangeFeed.Proofs.Lock.Ledger

/-!
# Nobody sleeps before a free lock

All clients of a lock service hear of every freed lock, whichever it is, and each of them then looks
for its own. A client is on the list before it looks at the table. So between its look and its sleep
no lock becomes free without telling it.

* `Office.Listed`: tickets are not shared.
* `Office.Alert`: who sleeps without having been told of a freed lock waits for one that is held.
  Both are kept by every event, and `held_of_asleep` says it for every run.
-/

namespace ChangeFeed.Lock

namespace Office

variable {s : Office} {ticket : Nat} {key : String}

/-- Whether a client has looked at the table in vain and sleeps until it is told of a freed lock. -/
def isAsleep (s : Office) (w : Waiter) : Bool := w.ticket ∉ s.looking && !w.marked

/-! ## Tickets -/

/-- Every client on the list has a ticket of its own, and no new client will get it. -/
structure Listed (s : Office) : Prop where
  lt : ∀ w ∈ s.service.waiters, w.ticket < s.tickets
  single : (s.service.waiters.map Waiter.ticket).Nodup

namespace Listed

theorem empty : Office.empty.Listed where
  lt := fun w hw => by cases hw
  single := List.nodup_nil

theorem eq_of_ticket (h : s.Listed) {v w : Waiter} (hv : v ∈ s.service.waiters)
    (hw : w ∈ s.service.waiters) (ht : v.ticket = w.ticket) : v = w :=
  List.inj_on_of_nodup_map h.single hv hw ht

/-- A list with the same tickets, or fewer. -/
theorem sublist (h : s.Listed) {s' : Office} (ht : s'.tickets = s.tickets)
    (hs : (s'.service.waiters.map Waiter.ticket).Sublist (s.service.waiters.map Waiter.ticket)) :
    s'.Listed where
  lt := fun w hw => by
    obtain ⟨v, hv, hvw⟩ := List.mem_map.mp (hs.subset (List.mem_map_of_mem hw))
    rw [ht, ← hvw]
    exact h.lt v hv
  single := h.single.sublist hs

theorem cancel_sublist (s : Service) (ticket : Nat) :
    ((s.cancel ticket).waiters.map Waiter.ticket).Sublist (s.waiters.map Waiter.ticket) :=
  List.Sublist.map _ List.filter_sublist

theorem ticket_ne_of_mem_cancel {s : Service} {w : Waiter} (hw : w ∈ (s.cancel ticket).waiters) :
    w ∈ s.waiters ∧ w.ticket ≠ ticket := by
  simpa [Service.cancel] using hw

/-- A list to whose end a ticket is added that nobody else has. -/
theorem append (h : s.Listed) {s' : Office} {w : Waiter} {others : List Waiter}
    (hw : s'.service.waiters = others ++ [w]) (hlt : w.ticket < s'.tickets)
    (hle : s.tickets ≤ s'.tickets)
    (hothers : ∀ v ∈ others, v ∈ s.service.waiters ∧ v.ticket ≠ w.ticket)
    (hs : (others.map Waiter.ticket).Sublist (s.service.waiters.map Waiter.ticket)) :
    s'.Listed where
  lt := fun v hv => by
    rw [hw] at hv
    rcases List.mem_append.mp hv with hv | hv
    · exact Nat.lt_of_lt_of_le (h.lt v (hothers v hv).1) hle
    · rw [List.mem_singleton.mp hv]
      exact hlt
  single := by
    rw [hw, List.map_append, List.nodup_append]
    refine ⟨h.single.sublist hs, by simp, ?_⟩
    intro a ha b hb hab
    obtain ⟨v, hv, rfl⟩ := List.mem_map.mp ha
    have hbw : b = w.ticket := by simpa using hb
    exact (hothers v hv).2 (hab.trans hbw)

theorem arrive (h : s.Listed) (key name : String) : (s.arrive key name).Listed := by
  have hothers : ∀ v ∈ s.service.waiters, v ∈ s.service.waiters ∧ v.ticket ≠ s.tickets :=
    fun v hv => ⟨hv, Nat.ne_of_lt (h.lt v hv)⟩
  exact h.append rfl (Nat.lt_succ_self _) (Nat.le_succ _) hothers (List.Sublist.refl _)

theorem look (h : s.Listed) (ticket : Nat) : (s.look ticket).2.Listed := by
  rcases look_cases s ticket with ⟨w, lease, table, -, -, -, -, heq⟩ | ⟨w, -, -, -, -, heq⟩ |
    ⟨-, heq⟩
  · rw [heq]
    exact h.sublist rfl (cancel_sublist _ _)
  · rw [heq]
    exact h.sublist rfl (List.Sublist.refl _)
  · rw [heq]
    exact h

end Listed

/-- A client that was told of a freed lock is on the list again, as if it had just come. -/
theorem wake_cases (s : Office) (ticket : Nat) :
    (∃ w, w ∈ s.service.waiters ∧ w.ticket = ticket ∧ w.marked = true ∧ ticket ∉ s.looking ∧
      s.wake ticket = { s with
        service := { s.service with
          waiters := (s.service.cancel ticket).waiters ++ [⟨ticket, w.key, w.name, false⟩] }
        looking := s.looking ++ [ticket] }) ∨
      s.wake ticket = s ∧ ∀ w ∈ s.service.waiters, w.ticket = ticket → ticket ∉ s.looking →
        w.marked = false := by
  unfold wake
  cases hf : s.service.waiters.find? fun w =>
      w.ticket = ticket && w.marked && ticket ∉ s.looking with
  | none =>
    refine Or.inr ⟨rfl, fun w hw ht hl => ?_⟩
    have hno := List.find?_eq_none.mp hf w hw
    simpa [ht, hl] using hno
  | some w =>
    have hw : w ∈ s.service.waiters := List.mem_of_find?_eq_some hf
    have ht := List.find?_some hf
    simp only [Bool.and_eq_true, decide_eq_true_eq] at ht
    exact Or.inl ⟨w, hw, ht.1.1, ht.1.2, ht.2, rfl⟩

theorem release_cases (s : Office) (lease : Lease) :
    (s.release lease).2 = s ∨
      (s.release lease).2 = { s with
        service := ({ s.service with table := s.service.table.free lease.key } : Service).markAll
        senders := s.sendersWithout lease.key } := by
  cases hh : s.service.table.holds lease with
  | true => exact Or.inr (by rw [release_of_holds hh])
  | false => exact Or.inl (by rw [release_of_not_holds hh])

theorem revoke_cases (s : Office) (key : String) :
    (s.revoke key).2 = s ∨
      (s.revoke key).2 = { s with
        service := ({ s.service with table := s.service.table.free key } : Service).markAll
        senders := s.sendersWithout key } := by
  by_cases hh : s.service.table.holder? key = none
  · exact Or.inl (by rw [revoke_of_free hh])
  · exact Or.inr (by rw [revoke_of_held hh])

/-- An event adds a client, lets one look or wake up or go away, or frees a lock, of which all on
the list are told at once; or it is nothing. -/
inductive Step (s : Office) : Office → Prop where
  | rests : Step s s
  | arrives (key name : String) : Step s (s.arrive key name)
  | looks (ticket : Nat) : Step s (s.look ticket).2
  | wakes (ticket : Nat) : Step s (s.wake ticket)
  | leaves (ticket : Nat) : Step s (s.cancel ticket)
  | frees (key : String) : Step s { s with
      service := ({ s.service with table := s.service.table.free key } : Service).markAll
      senders := s.sendersWithout key }

theorem step_next (s : Office) (e : Event) : Step s (s.next e) := by
  cases e with
  | arrive key name => exact .arrives key name
  | look ticket => exact .looks ticket
  | wake ticket => exact .wakes ticket
  | cancel ticket => exact .leaves ticket
  | drop n => exact .rests
  | revoke key =>
    have hnext : s.next (.revoke key) = (s.revoke key).2 := rfl
    rw [hnext]
    rcases revoke_cases s key with heq | heq <;> rw [heq]
    · exact .rests
    · exact .frees key
  | release n =>
    cases hn : s.leases[n]? with
    | none =>
      have hnext : s.next (.release n) = s := by simp [next, hn]
      rw [hnext]
      exact .rests
    | some lease =>
      have hnext : s.next (.release n) = (s.release lease).2 := by simp [next, hn]
      rw [hnext]
      rcases release_cases s lease with heq | heq <;> rw [heq]
      · exact .rests
      · exact .frees lease.key

theorem Listed.next (h : s.Listed) (e : Event) : (s.next e).Listed := by
  have hstep := step_next s e
  generalize s.next e = s' at hstep ⊢
  cases hstep with
  | rests => exact h
  | arrives key name => exact h.arrive key name
  | looks ticket => exact h.look ticket
  | leaves ticket => exact h.sublist rfl (cancel_sublist _ _)
  | frees key =>
    refine h.sublist rfl ?_
    simp [Service.markAll, Function.comp_def]
  | wakes ticket =>
    rcases wake_cases s ticket with ⟨w, hw, ht, -, -, heq⟩ | ⟨heq, -⟩
    · rw [heq]
      refine h.append rfl ?_ (Nat.le_refl _) (fun v hv => ticket_ne_of_mem_cancel hv)
        (cancel_sublist _ _)
      exact ht ▸ h.lt w hw
    · rw [heq]
      exact h

/-! ## Who sleeps -/

/-- Who sleeps waits for a lock that is held. -/
def Alert (s : Office) : Prop :=
  ∀ w ∈ s.service.waiters, s.isAsleep w = true → s.service.table.holder? w.key ≠ none

theorem isAsleep_iff {w : Waiter} :
    s.isAsleep w = true ↔ w.ticket ∉ s.looking ∧ w.marked = false := by
  simp [isAsleep]

/-- Who sleeps after an event by which nobody has stopped looking slept before. -/
theorem Alert.held (h : s.Alert) {s' : Office} {w : Waiter} (hw : w ∈ s.service.waiters)
    (hsleep : s'.isAsleep w = true) (hlook : w.ticket ∈ s.looking → w.ticket ∈ s'.looking) :
    s.service.table.holder? w.key ≠ none := by
  obtain ⟨hawake, hmark⟩ := isAsleep_iff.mp hsleep
  exact h w hw (isAsleep_iff.mpr ⟨fun hmem => hawake (hlook hmem), hmark⟩)

theorem Alert.look (h : s.Alert) (hl : s.Listed) (ticket : Nat) : (s.look ticket).2.Alert := by
  have others {v : Waiter} (hne : v.ticket ≠ ticket) (hmem : v.ticket ∈ s.looking) :
      v.ticket ∈ s.looking.filter (· ≠ ticket) :=
    List.mem_filter.mpr ⟨hmem, by simpa using hne⟩
  rcases look_cases s ticket with ⟨w, lease, table, hw, ht, -, hg, heq⟩ |
    ⟨w, hw, ht, -, hheld, heq⟩ | ⟨-, heq⟩
  · -- the client leaves with the lock, and what was held is still held
    rw [heq]
    intro v hv hsleep
    obtain ⟨hv, hne⟩ := Listed.ticket_ne_of_mem_cancel hv
    have hold := h.held hv hsleep (others hne)
    rw [Table.holder?_grant? hg]
    split
    · simp
    · exact hold
  · -- the client goes to sleep, and the lock that it saw is held
    rw [heq]
    intro v hv hsleep
    by_cases hvt : v.ticket = ticket
    · rw [hl.eq_of_ticket hv hw (hvt.trans ht.symm)]
      exact hheld
    · exact h.held hv hsleep (others hvt)
  · rw [heq]
    exact h

theorem Alert.next (h : s.Alert) (hl : s.Listed) (e : Event) : (s.next e).Alert := by
  -- who has just put itself on the list is about to look
  have newcomer {s' : Office} {w : Waiter} {ticket : Nat} {looking : List Nat}
      (hl : s'.looking = looking ++ [ticket]) (ht : w.ticket = ticket) :
      s'.isAsleep w ≠ true := by
    intro hsleep
    rw [isAsleep_iff, hl, ht] at hsleep
    exact hsleep.1 (List.mem_append_right _ (List.mem_singleton_self _))
  have hstep := step_next s e
  generalize s.next e = s' at hstep ⊢
  cases hstep with
  | rests => exact h
  | looks ticket => exact h.look hl ticket
  | arrives key name =>
    intro w hw hsleep
    rcases List.mem_append.mp hw with hw | hw
    · exact h.held hw hsleep fun hmem => List.mem_append_left _ hmem
    · rw [List.mem_singleton.mp hw] at hsleep
      exact absurd hsleep (newcomer rfl rfl)
  | wakes ticket =>
    rcases wake_cases s ticket with ⟨w, hw, ht, -, -, heq⟩ | ⟨heq, -⟩
    · rw [heq]
      intro v hv hsleep
      rcases List.mem_append.mp hv with hv | hv
      · exact h.held (Listed.ticket_ne_of_mem_cancel hv).1 hsleep
          fun hmem => List.mem_append_left _ hmem
      · rw [List.mem_singleton.mp hv] at hsleep
        exact absurd hsleep (newcomer rfl rfl)
    · rw [heq]
      exact h
  | leaves ticket =>
    intro w hw hsleep
    obtain ⟨hw, hne⟩ := Listed.ticket_ne_of_mem_cancel hw
    refine h.held hw hsleep fun hmem => ?_
    exact List.mem_filter.mpr ⟨hmem, by simpa using hne⟩
  | frees key =>
    -- everyone on the list has been told
    intro w hw hsleep
    obtain ⟨v, -, rfl⟩ := List.mem_map.mp hw
    obtain ⟨-, hmark⟩ := isAsleep_iff.mp hsleep
    cases hmark

theorem alert_after (events : List Event) :
    (empty.after events).Listed ∧ (empty.after events).Alert := by
  refine after_of_next (P := fun s => s.Listed ∧ s.Alert)
    (fun s e h => ⟨h.1.next e, h.2.next h.1 e⟩) ⟨.empty, ?_⟩ events
  intro w hw
  cases hw

/-! ## Who is awake -/

/-- A client that was told of a freed lock gets its own if it is free when the client looks. -/
theorem look_wake (hl : s.Listed) {w : Waiter} (hw : w ∈ s.service.waiters)
    (hlook : w.ticket ∉ s.looking) (hmark : w.marked = true)
    (hfree : s.service.table.holder? w.key = none) :
    ∃ n session, ((s.wake w.ticket).look w.ticket).1 = some n ∧
      ((s.wake w.ticket).look w.ticket).2.leases[n]? = some ⟨w.key, session⟩ := by
  rcases wake_cases s w.ticket with ⟨v, hv, ht, -, -, hwake⟩ | ⟨-, hno⟩
  · have hvw : v = w := hl.eq_of_ticket hv hw ht
    subst hvw
    have entry (u : Waiter) (hu : u ∈ (s.wake v.ticket).service.waiters)
        (hut : u.ticket = v.ticket) : u = ⟨v.ticket, v.key, v.name, false⟩ := by
      rw [hwake] at hu
      rcases List.mem_append.mp hu with hu | hu
      · exact absurd hut (Listed.ticket_ne_of_mem_cancel hu).2
      · exact List.mem_singleton.mp hu
    have htable : (s.wake v.ticket).service.table = s.service.table := by rw [hwake]
    rcases look_cases (s.wake v.ticket) v.ticket with ⟨u, lease, table, hu, hut, -, hg, heq⟩ |
      ⟨u, hu, hut, -, hheld, -⟩ | ⟨hno, -⟩
    · rw [entry u hu hut, htable] at hg
      obtain ⟨-, hlease, -⟩ := Table.grant?_eq_some hg
      refine ⟨_, lease.session, by rw [heq], ?_⟩
      rw [heq, hlease]
      simp
    · rw [entry u hu hut, htable] at hheld
      exact absurd hfree hheld
    · rw [hwake] at hno
      exact absurd (List.mem_append_right _ (List.mem_singleton_self _))
        (hno _ (List.mem_append_right _ (List.mem_singleton_self _)) rfl)
  · rw [hno w hw rfl hlook] at hmark
    cases hmark

/-- After every run of a lock service, whoever sleeps without having been told of a freed lock waits
for one that is held. So if the lock of a client that has looked in vain is free, the client has
been told; and if it then puts itself on the list anew and looks, it gets the lock. -/
theorem held_of_asleep (events : List Event) :
    let s := empty.after events
    ∀ w ∈ s.service.waiters, w.ticket ∉ s.looking →
      (w.marked = false → ∃ session, s.service.table.holder? w.key = some session) ∧
      (s.service.table.holder? w.key = none → w.marked = true ∧
        ∃ n session, ((s.wake w.ticket).look w.ticket).1 = some n ∧
          ((s.wake w.ticket).look w.ticket).2.leases[n]? = some ⟨w.key, session⟩) := by
  intro s w hw hlook
  obtain ⟨hl, ha⟩ := alert_after events
  have hmarked (hfree : s.service.table.holder? w.key = none) : w.marked = true := by
    cases hm : w.marked with
    | true => rfl
    | false => exact absurd hfree (ha w hw (isAsleep_iff.mpr ⟨hlook, hm⟩))
  refine ⟨fun hm => ?_, fun hfree => ⟨hmarked hfree, look_wake hl hw hlook (hmarked hfree) hfree⟩⟩
  cases hh : s.service.table.holder? w.key with
  | some session => exact ⟨session, rfl⟩
  | none =>
    rw [hmarked hh] at hm
    cases hm

end Office

end ChangeFeed.Lock
