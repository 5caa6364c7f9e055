import ChangeFeed.Proofs.Allocation.Claims
import ChangeFeed.Proofs.Json.Records

/-!
# The times of task events are words

The time of a task event is a signed word of 64 bits, whatever its record says: what is no such word
counts as 0. Claims on records that were read from texts keep no other times.

* `yields_read`: the task events of an allocation have the numbers of its record.
* `isTime_eventTime`: the time of an event is a word.
* `Claims.InTime` says so of all times that were claimed. `inTime_claim` is a claim, which also
  answers a time like that.
-/

namespace ChangeFeed

namespace Allocation

open Json.Typed

/-! ## Records -/

/-- Whether all task events of a task have words only. -/
def Task.InWords (t : Task) : Prop := ∀ events, t.events = some events → ∀ e ∈ events, e.InWords

theorem Task.yields_read (document : Json) (h : document.InWords) :
    Json.Yields (Task.read document) Task.InWords := by
  have hkeeps : ∀ f ∈ Task.fields, f.Keeps Json.InWords Task.InWords := by
    simp only [Task.fields, List.forall_mem_cons]
    refine ⟨?_, ?_, ?_, ?_, ?_, by simp⟩
    rotate_right
    · exact keeps_field (fun _ hwords => yields_optional (yields_items Json.hereditary_inWords hwords)) fun _ _ _ hv => hv
    all_goals exact keeps_field_of_set fun _ _ hs => hs
  exact yields_record Json.hereditary_inWords hkeeps h nofun

/-- Whether all task events of an allocation have words only. -/
def InWords (a : Allocation) : Prop :=
  ∀ tasks, a.tasks = some tasks → ∀ task ∈ tasks, task.2.InWords

theorem yields_read (record : Json) (h : record.InWords) :
    Json.Yields (read record) InWords := by
  have hkeeps : ∀ f ∈ fields, f.Keeps Json.InWords InWords := by
    simp only [fields, List.forall_mem_cons]
    refine ⟨?_, ?_, ?_, ?_, ?_, ?_, ?_, ?_, ?_, ?_, ?_, ?_, by simp⟩
    rotate_right
    · refine keeps_field (fun _ hwords => yields_optional ?_) fun _ _ _ hv => hv
      exact yields_entries Json.hereditary_inWords Task.yields_read hwords
    all_goals exact keeps_field_of_set fun _ _ hs => hs
  exact yields_record Json.hereditary_inWords hkeeps h nofun

theorem InWords.event {a : Allocation} (h : a.InWords) {e : (String × Task) × Json}
    (he : e ∈ a.events) : e.2.InWords := by
  obtain ⟨task, htask, he⟩ := List.mem_flatMap.mp he
  obtain ⟨event, hevent, rfl⟩ := List.mem_map.mp he
  cases htasks : a.tasks with
  | none => simp [htasks] at htask
  | some tasks =>
    cases hevents : task.2.events with
    | none => simp [hevents] at hevent
    | some events =>
      rw [htasks] at htask
      rw [hevents] at hevent
      exact h tasks htasks task htask events hevents event hevent

/-! ## Times -/

/-- Whether a time is a signed word of 64 bits. -/
def IsTime (t : Int) : Prop := -Nat.pow 2 63 ≤ t ∧ t < Nat.pow 2 63

theorem isTime_zero : IsTime 0 := ⟨by decide, by decide⟩

theorem IsTime.max {s t : Int} (hs : IsTime s) (ht : IsTime t) : IsTime (max s t) := by
  unfold IsTime at *
  omega

theorem yields_signed {document : Json} (h : document.InWords) :
    Json.Yields (signed document) IsTime := by
  unfold signed
  split
  · split
    · rename_i n hn
      have hlt : n < Nat.pow 2 63 := hn
      exact Json.yields_ok ⟨by omega, by omega⟩
    · exact Json.yields_error
  · rename_i n
    obtain ⟨hlow, hneg⟩ : -Nat.pow 2 63 ≤ n ∧ n < 0 := Json.inWords_number.mp h
    exact Json.yields_ok ⟨hlow, by omega⟩
  · exact Json.yields_error

/-- An event without a time of its own has the time 0. -/
theorem isTime_eventTime {event : Json} (h : event.InWords) : IsTime (eventTime event) := by
  unfold eventTime
  split
  · rename_i document hfield
    cases ht : signed document with
    | error e => exact isTime_zero
    | ok t => exact yields_signed (h.field? hfield) t ht
  · exact isTime_zero

theorem InWords.times {a : Allocation} (h : a.InWords) : ∀ t ∈ a.times, IsTime t := by
  intro t ht
  obtain ⟨e, he, rfl⟩ := List.mem_map.mp ht
  exact isTime_eventTime (h.event he)

theorem isTime_foldl_later {newest : Option Int} {times : List Int}
    (hnewest : ∀ t, newest = some t → IsTime t) (htimes : ∀ t ∈ times, IsTime t) :
    ∀ t, times.foldl later newest = some t → IsTime t := by
  induction times generalizing newest with
  | nil => exact hnewest
  | cons time rest ih =>
    obtain ⟨htime, hrest⟩ := List.forall_mem_cons.mp htimes
    refine ih (fun t ht => ?_) hrest
    cases newest with
    | none =>
      cases ht
      exact htime
    | some s =>
      cases ht
      exact (hnewest s rfl).max htime

/-! ## Claims -/

namespace Claims

variable {c : Claims} {id : String} {record : Json}

/-- Whether all claimed times are words. -/
structure InTime (c : Claims) : Prop where
  floor : ∀ t, c.floor = some t → IsTime t
  newest : ∀ entry ∈ c.newest, IsTime entry.2

theorem inTime_startingAt {time : Int} (h : IsTime time) : (startingAt time).InTime where
  floor := by
    intro t ht
    unfold startingAt at ht
    split at ht
    · cases ht
      exact h
    · cases ht
  newest := by simp [startingAt]

theorem InTime.cutoff (h : c.InTime) : ∀ t, c.cutoff id = some t → IsTime t := by
  intro t ht
  unfold Claims.cutoff at ht
  split at ht
  · rename_i hlookup
    cases ht
    obtain ⟨before, after, heq, -⟩ := List.lookup_eq_some_iff.mp hlookup
    exact h.newest (id, t) (by simp [heq])
  · exact h.floor t ht

theorem InTime.forget (h : c.InTime) (id : String) : (c.forget id).InTime where
  floor := h.floor
  newest := fun entry hentry => h.newest entry (List.mem_filter.mp hentry).1

theorem InTime.note (h : c.InTime) (id : String) {time : Int} (ht : IsTime time) :
    (c.note id time).InTime where
  floor := h.floor
  newest := List.forall_mem_cons.mpr ⟨ht, (h.forget id).newest⟩

/-- A claim on a record keeps words and answers one. -/
theorem inTime_claim (h : c.InTime) (hr : record.InWords) :
    (c.claim id record).2.InTime ∧
      ∀ d, (c.claim id record).1 = .ok d → ∀ t, d.newest = some t → IsTime t := by
  unfold claim decompose
  cases ha : read record with
  | error reason => exact ⟨h, nofun⟩
  | ok a =>
    have htimes := (yields_read record hr a ha).times
    have hnewest : ∀ t, (a.split (c.cutoff id)).newest = some t → IsTime t := by
      rw [newest_split]
      exact isTime_foldl_later h.cutoff htimes
    have hanswer : ∀ d, Except.ok (ε := Error) (a.split (c.cutoff id)) = .ok d →
        ∀ t, d.newest = some t → IsTime t := by
      rintro d ⟨⟩
      exact hnewest
    simp only
    split
    · exact ⟨h.forget id, hanswer⟩
    · split
      · rename_i time ht
        exact ⟨h.note id (hnewest time ht), hanswer⟩
      · exact ⟨h, hanswer⟩

end Claims

end Allocation

end ChangeFeed
