import ChangeFeed.Allocation.Claims

/-!
# What claims leave to later claims

Each claim on an allocation selects the task events past the newest time that was claimed of it so
far. While the allocation goes on, that time is the newest one of all its records.

* `isPast_foldl_later`: to be past the latest of some times is to be past each of them.
* `cutoff_after`: the cutoff of an allocation after any claims is a matter of its own records alone.
  Malformed records and other allocations do not count.
* `unclaimed` are the events of a record past a floor and past all times of the records before;
  `claim_after`: these are the events that the next claim selects.
* `claim_again`: a claim on the same events selects none, unless the allocation was forgotten.
-/

namespace ChangeFeed.Allocation

/-! ## Times -/

theorem isPast_later (cutoff : Option Int) (time t : Int) :
    isPast (later cutoff time) t = (isPast cutoff t && decide (time < t)) := by
  cases cutoff with
  | none => simp [isPast, later]
  | some c =>
    have hmax : max c time < t ↔ c < t ∧ time < t := by omega
    simp [isPast, later, hmax]

theorem isPast_foldl_later (cutoff : Option Int) (times : List Int) (t : Int) :
    isPast (times.foldl later cutoff) t = (isPast cutoff t && times.all (· < t)) := by
  induction times generalizing cutoff with
  | nil => simp
  | cons time rest ih => rw [List.foldl_cons, ih, isPast_later, List.all_cons, Bool.and_assoc]

/-- A time that is not past a cutoff does not move it. -/
theorem later_of_not_isPast {cutoff : Option Int} {time : Int} (h : isPast cutoff time = false) :
    later cutoff time = cutoff := by
  cases cutoff with
  | none => simp [isPast] at h
  | some c =>
    have hle : time ≤ c := by simpa [isPast] using h
    have hmax : max c time = c := by omega
    simp [later, hmax]

theorem exists_foldl_later (cutoff : Int) (times : List Int) :
    ∃ newest, times.foldl later (some cutoff) = some newest := by
  induction times generalizing cutoff with
  | nil => exact ⟨cutoff, rfl⟩
  | cons time rest ih => exact ih (max cutoff time)

theorem foldl_later_filter {cutoff newest : Option Int} {times : List Int}
    (h : ∀ t, isPast cutoff t = false → isPast newest t = false) :
    (times.filter (isPast cutoff ·)).foldl later newest = times.foldl later newest := by
  induction times generalizing newest with
  | nil => rfl
  | cons time rest ih =>
    have hkept : ∀ t, isPast cutoff t = false → isPast (later newest time) t = false := by
      intro t ht
      rw [isPast_later, h t ht, Bool.false_and]
    cases hp : isPast cutoff time with
    | true =>
      rw [List.filter_cons_of_pos hp, List.foldl_cons, List.foldl_cons]
      exact ih hkept
    | false =>
      have hsame := later_of_not_isPast (h time hp)
      rw [List.filter_cons_of_neg (by simp [hp]), List.foldl_cons, hsame]
      exact ih h

/-! ## Records -/

/-- The times of all task events of an allocation. -/
def times (a : Allocation) : List Int := a.events.map fun e => eventTime e.2

theorem newest_split (a : Allocation) (cutoff : Option Int) :
    (a.split cutoff).newest = a.times.foldl later cutoff := by
  have hmap : (a.events.filter fun e => isPast cutoff (eventTime e.2)).map (fun e => eventTime e.2) =
      a.times.filter (isPast cutoff ·) := by
    rw [times, List.filter_map]
    rfl
  simp only [split, hmap]
  exact foldl_later_filter fun t ht => ht

/-- Events that were all in a record are not past its newest time. -/
theorem filter_isPast_newest {a b : Allocation}
    (h : b.events.map Prod.snd ⊆ a.events.map Prod.snd) (cutoff : Option Int) :
    b.events.filter (fun e => isPast (a.times.foldl later cutoff) (eventTime e.2)) = [] := by
  rw [List.filter_eq_nil_iff]
  intro e he hpast
  obtain ⟨e', he', hevent⟩ := List.mem_map.mp (h (List.mem_map_of_mem he))
  have htime : eventTime e.2 ∈ a.times := by
    rw [← hevent]
    exact List.mem_map_of_mem he'
  rw [isPast_foldl_later, Bool.and_eq_true, List.all_eq_true] at hpast
  have hlt := hpast.2 _ htime
  simp at hlt

/-- The task events of an allocation past a floor and past all times of some records. -/
def unclaimed (a : Allocation) (floor : Option Int) (records : List Allocation) :
    List ((String × Task) × Json) :=
  a.events.filter fun e =>
    isPast floor (eventTime e.2) && (records.flatMap times).all (· < eventTime e.2)

/-- The updates for some task events, or a single one without an event. -/
def updatesFor (a : Allocation) (events : List ((String × Task) × Json)) : List Update :=
  if events.isEmpty then [⟨a, none⟩] else events.map fun e => ⟨a, some e⟩

theorem updates_split (a : Allocation) (cutoff : Option Int) :
    (a.split cutoff).updates =
      a.updatesFor (a.events.filter fun e => isPast cutoff (eventTime e.2)) := by
  rw [split, updatesFor]
  simp only [List.isEmpty_map]

theorem mem_unclaimed {a : Allocation} {floor : Option Int} {records : List Allocation}
    {e : (String × Task) × Json} :
    e ∈ a.unclaimed floor records ↔ e ∈ a.events ∧ isPast floor (eventTime e.2) = true ∧
      ∀ b ∈ records, ∀ t ∈ b.times, t < eventTime e.2 := by
  simp only [unclaimed, List.mem_filter, Bool.and_eq_true, List.all_eq_true, List.mem_flatMap,
    decide_eq_true_eq, forall_exists_index, and_imp]
  exact ⟨fun ⟨he, hf, ht⟩ => ⟨he, hf, fun b hb t hbt => ht t b hb hbt⟩,
    fun ⟨he, hf, ht⟩ => ⟨he, hf, fun t b hb hbt => ht b hb t hbt⟩⟩

/-- An event that a record has left to a later one is later than all of its own events. -/
theorem eventTime_lt_of_mem_unclaimed {a b : Allocation} {floor : Option Int}
    {records : List Allocation} {e e' : (String × Task) × Json} (he : e ∈ a.events)
    (he' : e' ∈ b.unclaimed floor records) (ha : a ∈ records) : eventTime e.2 < eventTime e'.2 :=
  (mem_unclaimed.mp he').2.2 a ha _ (List.mem_map_of_mem he)

namespace Claims

variable {c : Claims} {id : String}

/-! ## One claim -/

theorem cutoff_forget_of_ne (c : Claims) {id other : String} (h : other ≠ id) :
    (c.forget id).cutoff other = c.cutoff other := by
  have hlookup : (c.newest.filter (·.1 ≠ id)).lookup other = c.newest.lookup other := by
    induction c.newest with
    | nil => rfl
    | cons entry rest ih =>
      obtain ⟨key, time⟩ := entry
      by_cases hk : key = id
      · have hne : (other == key) = false := by simpa [hk] using h
        rw [List.filter_cons_of_neg (by simp [hk]), ih, List.lookup_cons, hne]
      · rw [List.filter_cons_of_pos (by simpa using hk), List.lookup_cons, List.lookup_cons, ih]
  simp only [cutoff, forget, hlookup]

theorem cutoff_forget_self (c : Claims) (id : String) : (c.forget id).cutoff id = c.floor := by
  have hlookup : (c.newest.filter (·.1 ≠ id)).lookup id = none := by
    induction c.newest with
    | nil => rfl
    | cons entry rest ih =>
      by_cases hk : entry.1 = id
      · rw [List.filter_cons_of_neg (by simpa using hk), ih]
      · have hne : (id == entry.1) = false := by simpa using Ne.symm hk
        rw [List.filter_cons_of_pos (by simpa using hk), List.lookup_cons, hne, ih]
  simp only [cutoff, forget, hlookup]

theorem cutoff_note_self (c : Claims) (id : String) (time : Int) :
    (c.note id time).cutoff id = some time := by
  simp [cutoff, note]

theorem cutoff_note_of_ne (c : Claims) {id other : String} (h : other ≠ id) (time : Int) :
    (c.note id time).cutoff other = c.cutoff other := by
  have hne : (other == id) = false := by simpa using h
  rw [← c.cutoff_forget_of_ne h]
  simp [cutoff, note, List.lookup_cons, hne, forget]

/-- A claim on one allocation leaves the others alone. -/
theorem cutoff_claim_of_ne (c : Claims) {id other : String} (h : other ≠ id) (record : Json) :
    (c.claim id record).2.cutoff other = c.cutoff other := by
  unfold claim
  split
  · rfl
  · split
    · exact c.cutoff_forget_of_ne h
    · split
      · exact c.cutoff_note_of_ne h _
      · rfl

theorem claim_of_malformed {record : Json} {reason : String} (h : read record = .error reason) :
    (c.claim id record).2 = c := by
  simp [claim, decompose, h]

theorem cutoff_claim_self {record : Json} {a : Allocation} (h : read record = .ok a)
    (hlive : a.isTerminal = false) :
    (c.claim id record).2.cutoff id = a.times.foldl later (c.cutoff id) := by
  have hterminal : (a.split (c.cutoff id)).terminal = false := hlive
  rw [← newest_split]
  simp only [claim, decompose, h, hterminal, Bool.false_eq_true, if_false]
  cases hn : (a.split (c.cutoff id)).newest with
  | some time => exact c.cutoff_note_self id time
  | none =>
    -- a cutoff never goes away, so there was none before
    cases hc : c.cutoff id with
    | none => rfl
    | some cutoff =>
      obtain ⟨newest, hnewest⟩ := exists_foldl_later cutoff a.times
      rw [newest_split, hc, hnewest] at hn
      cases hn

/-- An allocation that never changes again is forgotten. -/
theorem cutoff_claim_of_isTerminal {record : Json} {a : Allocation} (h : read record = .ok a)
    (hterminal : a.isTerminal) : (c.claim id record).2.cutoff id = c.floor := by
  have hsplit : (a.split (c.cutoff id)).terminal = true := hterminal
  simp only [claim, decompose, h, hsplit, if_true]
  exact c.cutoff_forget_self id

@[simp] theorem floor_claim (c : Claims) (id : String) (record : Json) :
    (c.claim id record).2.floor = c.floor := by
  unfold claim
  repeat' split
  all_goals rfl

/-- What a claim selects, and what it leaves. -/
theorem claim_of_read {record : Json} {a : Allocation} (h : read record = .ok a) :
    (c.claim id record).1 = .ok (a.split (c.cutoff id)) := by
  simp only [claim, decompose, h]
  split
  · rfl
  · split <;> rfl

/-! ## Any number of claims -/

/-- The claims after some requests, each for an allocation and its record. -/
def after (c : Claims) (requests : List (String × Json)) : Claims :=
  requests.foldl (fun c request => (c.claim request.1 request.2).2) c

@[simp] theorem floor_after (c : Claims) (requests : List (String × Json)) :
    (c.after requests).floor = c.floor := by
  induction requests generalizing c with
  | nil => rfl
  | cons request rest ih => exact (ih _).trans (c.floor_claim _ _)

end Claims

/-- The well-formed records of an allocation among some requests, the first one first. -/
def recordsOf (id : String) (requests : List (String × Json)) : List Allocation :=
  requests.filterMap fun request => if request.1 = id then (read request.2).toOption else none

variable {id : String} {record : Json} {rest : List (String × Json)}

theorem recordsOf_cons_of_read {a : Allocation} (h : read record = .ok a) :
    recordsOf id ((id, record) :: rest) = a :: recordsOf id rest :=
  List.filterMap_cons_some (by simp [h, Except.toOption])

theorem recordsOf_cons_of_malformed {reason : String} (h : read record = .error reason) :
    recordsOf id ((id, record) :: rest) = recordsOf id rest :=
  List.filterMap_cons_none (by simp [h, Except.toOption])

theorem recordsOf_cons_of_ne {other : String} (h : other ≠ id) :
    recordsOf id ((other, record) :: rest) = recordsOf id rest :=
  List.filterMap_cons_none (by simp [h])

namespace Claims

theorem cutoff_after (c : Claims) (id : String) (requests : List (String × Json))
    (hlive : ∀ a ∈ recordsOf id requests, a.isTerminal = false) :
    (c.after requests).cutoff id =
      ((recordsOf id requests).flatMap times).foldl later (c.cutoff id) := by
  induction requests generalizing c with
  | nil => rfl
  | cons request rest ih =>
    obtain ⟨other, record⟩ := request
    show (((c.claim other record).2).after rest).cutoff id = _
    by_cases hid : other = id
    · subst hid
      cases hr : read record with
      | error reason =>
        rw [recordsOf_cons_of_malformed hr] at hlive ⊢
        rw [claim_of_malformed hr]
        exact ih c hlive
      | ok a =>
        rw [recordsOf_cons_of_read hr] at hlive ⊢
        have ha : a.isTerminal = false := hlive a List.mem_cons_self
        have hrest := ih (c.claim other record).2 fun b hb => hlive b (List.mem_cons_of_mem a hb)
        rw [hrest, cutoff_claim_self hr ha, List.flatMap_cons, List.foldl_append]
    · rw [recordsOf_cons_of_ne hid] at hlive ⊢
      rw [ih (c.claim other record).2 hlive, c.cutoff_claim_of_ne (Ne.symm hid)]

/-- A claim selects what is past the floor and past the records that were claimed before. -/
theorem claim_after {floor : Option Int} {requests : List (String × Json)} {a : Allocation}
    (hlive : ∀ b ∈ recordsOf id requests, b.isTerminal = false) (ha : read record = .ok a) :
    ((after ⟨floor, []⟩ requests).claim id record).1 =
      .ok ⟨a.updatesFor (a.unclaimed floor (recordsOf id requests)),
        ((recordsOf id requests ++ [a]).flatMap times).foldl later floor, a.isTerminal⟩ := by
  have hcutoff := cutoff_after ⟨floor, []⟩ id requests hlive
  have hfloor : cutoff ⟨floor, []⟩ id = floor := rfl
  rw [hfloor] at hcutoff
  have hnewest : (a.split ((after ⟨floor, []⟩ requests).cutoff id)).newest =
      ((recordsOf id requests ++ [a]).flatMap times).foldl later floor := by
    rw [newest_split, hcutoff, List.flatMap_append, List.foldl_append, List.flatMap_singleton]
  have hupdates : (a.split ((after ⟨floor, []⟩ requests).cutoff id)).updates =
      a.updatesFor (a.unclaimed floor (recordsOf id requests)) := by
    rw [updates_split, hcutoff]
    simp only [isPast_foldl_later, unclaimed]
  rw [claim_of_read ha, ← hnewest, ← hupdates]
  rfl

/-! ## The same events again -/

/-- A claim on events that were all in the last record of the allocation selects none of them, unless
that record made the allocation forgotten: then those past the floor are selected once more. -/
theorem claim_again {c : Claims} {record record' : Json} {a b : Allocation}
    (ha : read record = .ok a) (hb : read record' = .ok b)
    (hsame : b.events.map Prod.snd ⊆ a.events.map Prod.snd) {middle : List (String × Json)}
    (hmiddle : recordsOf id middle = []) :
    ∃ d, (((c.claim id record).2.after middle).claim id record').1 = .ok d ∧
      d.updates = b.updatesFor
        (if a.isTerminal then b.events.filter fun e => isPast c.floor (eventTime e.2) else []) := by
  have hcutoff : ((c.claim id record).2.after middle).cutoff id = (c.claim id record).2.cutoff id := by
    rw [cutoff_after _ id middle (by simp [hmiddle]), hmiddle]
    rfl
  refine ⟨_, claim_of_read hb, ?_⟩
  rw [updates_split, hcutoff]
  cases hterminal : a.isTerminal with
  | true => rw [cutoff_claim_of_isTerminal ha hterminal, if_pos rfl]
  | false =>
    have hnone : b.events.filter
        (fun e => isPast ((c.claim id record).2.cutoff id) (eventTime e.2)) = [] := by
      rw [cutoff_claim_self ha hterminal]
      exact filter_isPast_newest hsame _
    rw [hnone, if_neg Bool.false_ne_true]

end Claims

end ChangeFeed.Allocation
