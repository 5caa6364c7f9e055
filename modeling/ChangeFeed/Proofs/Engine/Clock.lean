import ChangeFeed.Proofs.Engine.Claims

/-!
# What the clock of a watcher tells

The clock moves when a piece of work has put everything, to the newest time that was claimed of the
allocation so far. Whoever starts from it takes all task events up to it for published.

* `le_clock_iff`: the clock is at a time if it began there or some work that ended well has come to
  it.
* `accepted_of_ended`: the sink has accepted all messages of work that ended well.
* `Outstanding` is a task event that was claimed and not accepted, and `clockIsSafe_iff` says exactly
  when the clock passes over none of them: no other work has ended well with a time as late.
  `not_clockIsSafe_of_refused_put`: that other work can even be about the same allocation.
-/

namespace ChangeFeed.Engine

open Allocation (Decomposition eventTime)

namespace World

variable {w : World} {k : Nat} {x : Watcher}

/-! ## Where the clock is -/

theorem le_advance_iff (clock t : Int) (newest : Option Int) :
    t ≤ advance clock newest ↔ t ≤ clock ∨ ∃ time, newest = some time ∧ t ≤ time := by
  cases newest with
  | none => simp [advance]
  | some time =>
    have hmax : t ≤ max clock time ↔ t ≤ clock ∨ t ≤ time := by omega
    show t ≤ max clock time ↔ _
    rw [hmax]
    simp

theorem le_foldl_advance_iff (ended : List (Nat × Option Int)) (clock t : Int) :
    t ≤ ended.foldl (fun clock ended => advance clock ended.2) clock ↔
      t ≤ clock ∨ ∃ j time, (j, some time) ∈ ended ∧ t ≤ time := by
  induction ended generalizing clock with
  | nil => simp
  | cons entry rest ih =>
    obtain ⟨j, newest⟩ := entry
    rw [List.foldl_cons, ih, le_advance_iff]
    constructor
    · rintro ((hclock | ⟨time, rfl, hle⟩) | ⟨i, time, hmem, hle⟩)
      · exact Or.inl hclock
      · exact Or.inr ⟨j, time, List.mem_cons_self, hle⟩
      · exact Or.inr ⟨i, time, List.mem_cons_of_mem _ hmem, hle⟩
    · rintro (hclock | ⟨i, time, hmem, hle⟩)
      · exact Or.inl (Or.inl hclock)
      · rcases List.mem_cons.mp hmem with heq | hmem
        · cases heq
          exact Or.inl (Or.inr ⟨time, rfl, hle⟩)
        · exact Or.inr ⟨i, time, hmem, hle⟩

theorem le_clock_iff (hx : w.watchers[k]? = some x) (events : List Event) (t : Int) :
    (∃ x', (w.after events).watchers[k]? = some x' ∧ t ≤ x'.clock) ↔
      t ≤ x.clock ∨ ∃ j time, (j, some time) ∈ w.ended k events ∧ t ≤ time := by
  obtain ⟨x', hx', -, -, hclock⟩ := ledger_after hx events
  rw [← le_foldl_advance_iff, ← hclock]
  constructor
  · rintro ⟨y, hy, hle⟩
    rw [hx'] at hy
    cases hy
    exact hle
  · intro hle
    exact ⟨x', hx', hle⟩

/-! ## Work that ended well -/

theorem accepted_append (w : World) (j : Nat) (events more : List Event) :
    w.accepted j (events ++ more) = w.accepted j events ++ (w.after events).accepted j more := by
  induction events generalizing w with
  | nil => rfl
  | cons e rest ih => simp only [List.cons_append, accepted, ih, after_cons, List.append_assoc]

theorem mem_ended {events : List Event} {j : Nat} {newest : Option Int}
    (h : (j, newest) ∈ w.ended k events) :
    ∃ earlier e later, events = earlier ++ e :: later ∧
      (w.after earlier).endedAt? k e = some (j, newest) := by
  induction events generalizing w with
  | nil => cases h
  | cons e rest ih =>
    rw [ended] at h
    rcases List.mem_append.mp h with hone | hrest
    · exact ⟨[], e, rest, rfl, Option.mem_toList.mp hone⟩
    · obtain ⟨earlier, e', later, rfl, he⟩ := ih hrest
      exact ⟨e :: earlier, e', later, rfl, he⟩

theorem endedAt?_spec {e : Event} {j : Nat} {newest : Option Int}
    (h : w.endedAt? k e = some (j, newest)) :
    ∃ p current, w.publications[j]? = some p ∧ p.watcher = k ∧
      p.phase = .putting current [] newest := by
  cases e with
  | act a => cases h
  | step now task =>
    cases task with
    | publication i =>
      simp only [endedAt?, Option.bind_eq_bind, Option.bind_eq_some_iff] at h
      obtain ⟨p, hp, h⟩ := h
      split at h
      · rename_i current newest' hph
        split at h
        · rename_i hk
          cases h
          exact ⟨p, current, hp, hk, hph⟩
        · cases h
      · cases h
    | _ => cases h

theorem accepted_of_ended (hu : w.Unsettled k) {events : List Event} {j : Nat}
    {newest : Option Int} (h : (j, newest) ∈ w.ended k events) {ms : List Message}
    (hms : ms ∈ w.due j events) : w.accepted j events = ms := by
  obtain ⟨earlier, e, later, rfl, he⟩ := mem_ended h
  obtain ⟨p, current, hp, hk, hph⟩ := endedAt?_spec he
  -- when it ended, everything that it had set out to put was accepted
  have hthen : w.due j earlier = [w.accepted j earlier] := by
    have haccounts := hu.accounts hp hk
    simpa [Publication.Accounts, hph] using haccounts
  have hnow : w.due j (earlier ++ e :: later) = [ms] ∧ w.accepted j (earlier ++ e :: later) <+: ms := by
    obtain ⟨p', hp', howner, -⟩ := publication_after hp (e :: later)
    rw [← after_append] at hp'
    exact (hu.accounts hp' (howner.trans hk)).eq_of_mem hms
  have hsame : w.accepted j earlier = ms := by
    have hdue := hnow.1
    rw [due_append, hthen] at hdue
    exact (List.cons.inj hdue).1
  have hprefix := hnow.2
  rw [accepted_append, hsame] at hprefix ⊢
  exact hprefix.eq_of_length_le (by simp)

/-! ## Safety -/

/-- During some events some work has claimed a task event of the given time, and the sink has not
accepted the update for it. -/
inductive Outstanding (w : World) (k : Nat) (events : List Event) (j : Nat) (time : Int) : Prop
  | intro (earlier later : List Event) {e : Event} {id : String} {record : Json} {y : Watcher}
      {d : Decomposition} {n : Nat} {u : Allocation.Update}
      {event : (String × Allocation.Task) × Json} (split : events = earlier ++ e :: later)
      (claim : (w.after earlier).claimAt? k e = some (j, id, record))
      (watcher : (w.after earlier).watchers[k]? = some y)
      (selected : (y.claims.claim id record).1 = .ok d) (update : d.updates[n]? = some u)
      (carries : u.event = some event) (at_time : eventTime event.2 = time)
      (left : (w.accepted j events).length ≤ n)

/-- The clock is at no outstanding task event, if it did not begin there. -/
def ClockIsSafe (w : World) (k : Nat) (start : Int) (events : List Event) : Prop :=
  ∀ x', (w.after events).watchers[k]? = some x' → ∀ j time, w.Outstanding k events j time →
    start < time → x'.clock < time

theorem Outstanding.not_mem_ended {events : List Event} {j : Nat} {time : Int}
    (hu : w.Unsettled k) (h : w.Outstanding k events j time) (newest : Option Int) :
    (j, newest) ∉ w.ended k events := by
  intro hmem
  obtain ⟨earlier, later, hsplit, hclaim, hwatcher, hselected, hupdate, -, -, hleft⟩ := h
  subst hsplit
  have hdue := dueAt?_of_claimAt? hwatcher hclaim hselected
  have hall := accepted_of_ended hu hmem (by
    rw [(hu.due_of_claim hclaim hdue _).1]
    exact List.mem_singleton_self _)
  have hlt := (List.getElem?_eq_some_iff.mp hupdate).1
  rw [hall, List.length_map] at hleft
  omega

/-- The clock of a watcher is safe to start from as long as no other work ends well with a time as
late as that of an outstanding task event. -/
theorem clockIsSafe_iff (hx : w.watchers[k]? = some x) (hu : w.Unsettled k)
    (events : List Event) :
    w.ClockIsSafe k x.clock events ↔
      ∀ j time, w.Outstanding k events j time → x.clock < time →
        ∀ j' newest, j' ≠ j → (j', some newest) ∈ w.ended k events → newest < time := by
  constructor
  · intro hsafe j time hout hstart j' newest hne hmem
    obtain ⟨x', hx', hle⟩ := (le_clock_iff hx events newest).mpr (Or.inr ⟨j', newest, hmem, Int.le_refl _⟩)
    have hlt := hsafe x' hx' j time hout hstart
    omega
  · intro hother x' hx' j time hout hstart
    apply Int.not_le.mp
    intro hle
    rcases (le_clock_iff hx events time).mp ⟨x', hx', hle⟩ with hbegan | ⟨j', newest, hmem, hle'⟩
    · omega
    · have hne : j' ≠ j := by
        intro heq
        rw [heq] at hmem
        exact hout.not_mem_ended hu (some newest) hmem
      have hlt := hother j time hout hstart j' newest hne hmem
      omega

/-- Two pieces of work for one allocation, and a sink that refuses the first message. -/
def refusing : World := { World.empty with
  outlets := #[.recording ⟨false, false, [0], 0, 0, false⟩]
  watchers := #[.publisher .allocations 0 0]
  publications := #[
    ⟨0, ⟨"a", 1, .null⟩, .lookingUp 0 (.ok (recordWith [taskEvent 10]))⟩,
    ⟨0, ⟨"a", 2, .null⟩, .lookingUp 0 (.ok (recordWith [taskEvent 10]))⟩] }

/-- The first piece of work claims the task event and fails. The second one finds it claimed, puts an
update without an event, and ends well. -/
def oneAfterTheOther : List Event :=
  List.replicate 3 (.step 0 (.publication 0)) ++ List.replicate 4 (.step 0 (.publication 1))

/-- The clock comes to the time of a task event that was never accepted. -/
theorem not_clockIsSafe_of_refused_put :
    refusing.accepted 0 oneAfterTheOther = [] ∧
      refusing.ended 0 oneAfterTheOther = [(1, some 10)] ∧
      ¬ refusing.ClockIsSafe 0 0 oneAfterTheOther := by
  have haccepted : refusing.accepted 0 oneAfterTheOther = [] := rfl
  have hended : refusing.ended 0 oneAfterTheOther = [(1, some 10)] := rfl
  have hout : refusing.Outstanding 0 oneAfterTheOther 0 10 := by
    refine Outstanding.intro (n := 0) [] (oneAfterTheOther.drop 1) rfl rfl rfl rfl rfl rfl rfl ?_
    rw [haccepted]
    exact Nat.le_refl _
  refine ⟨haccepted, hended, fun hsafe => ?_⟩
  have hother := (clockIsSafe_iff (x := .publisher .allocations 0 0) rfl (unsettled_of_all rfl)
    oneAfterTheOther).mp hsafe 0 10 hout (by decide) 1 10 (by decide)
  rw [hended] at hother
  exact absurd (hother (List.mem_singleton_self _)) (by decide)

end World

end ChangeFeed.Engine
