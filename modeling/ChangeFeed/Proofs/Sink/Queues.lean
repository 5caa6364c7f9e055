import Mathlib.Data.List.Nodup
import ChangeFeed.Sink.Queue

/-!
# What goes through a queue

Producers bring messages to the end of a queue, writers take them from its front. Between the two a
message is accepted once it has a place of its own.

* `Queue.produce` is what a producer does to a queue, and `Queue.accepts?` the message that the queue
  accepts with it. `items_produce`: that message comes last, and nothing else changes.
* `Queue.Sound`: no more places are taken than there are, and nobody waits while one is free. It is
  kept by every step, so a queue of which no place is taken has no producer waiting either.
* `Queue.Sealed`: nothing ever happens to a queue that is closed and of which no place is taken.
-/

namespace ChangeFeed.Sink

/-- What a producer does. -/
inductive Production where
  | put (m : Message)
  /-- Fills the place that was granted for a ticket. -/
  | enter (ticket : Nat)
  deriving DecidableEq, Inhabited

namespace Queue

variable {q q' : Queue} {m : Message} {p : Production}

/-- The message that a queue accepts, if it does. -/
def accepts? (q : Queue) : Production → Option Message
  | .put m => if (q.put m).1 = .accepted then some m else none
  | .enter ticket => (q.granted.find? (·.ticket = ticket)).map Pending.message

def produce (q : Queue) : Production → Queue
  | .put m => (q.put m).2
  | .enter ticket => (q.enter? ticket).getD q

/-! ## One step -/

/-- A put is refused, or the message comes last, or the producer waits. -/
theorem put_cases (q : Queue) (m : Message) :
    (q.closed = true ∧ q.put m = (.refused, q)) ∨
      (q.closed = false ∧ q.length < q.capacity ∧
        q.put m = (.accepted, { q with items := q.items ++ [m] })) ∨
      (q.closed = false ∧ q.capacity ≤ q.length ∧
        q.put m = (.waits q.tickets,
          { q with waiting := q.waiting ++ [⟨q.tickets, m⟩], tickets := q.tickets + 1 })) := by
  unfold put
  cases hc : q.closed with
  | true => exact Or.inl ⟨rfl, by simp⟩
  | false =>
    by_cases hl : q.length < q.capacity
    · exact Or.inr (Or.inl ⟨rfl, hl, by simp [hl]⟩)
    · exact Or.inr (Or.inr ⟨rfl, Nat.le_of_not_lt hl, by simp [hl]⟩)

theorem enter?_cases (q : Queue) (ticket : Nat) :
    (q.granted.find? (·.ticket = ticket) = none ∧ q.enter? ticket = none) ∨
      ∃ p, q.granted.find? (·.ticket = ticket) = some p ∧
        q.enter? ticket = some { q with
          items := q.items ++ [p.message]
          granted := q.granted.filter (·.ticket ≠ ticket) } := by
  unfold enter?
  cases hf : q.granted.find? (·.ticket = ticket) with
  | none => exact Or.inl ⟨rfl, rfl⟩
  | some p => exact Or.inr ⟨p, rfl, rfl⟩

theorem take?_cases (h : q.take? = some (m, q')) :
    ∃ rest, q.items = m :: rest ∧
      ((q.waiting = [] ∧ q' = { q with items := rest }) ∨
        ∃ p ps, q.waiting = p :: ps ∧
          q' = { q with items := rest, granted := q.granted ++ [p], waiting := ps }) := by
  unfold take? at h
  cases hi : q.items with
  | nil => simp [hi] at h
  | cons first rest =>
    cases hw : q.waiting with
    | nil =>
      simp only [hi, hw, Option.some.injEq, Prod.mk.injEq] at h
      obtain ⟨rfl, rfl⟩ := h
      exact ⟨rest, rfl, Or.inl ⟨rfl, rfl⟩⟩
    | cons p ps =>
      simp only [hi, hw, Option.some.injEq, Prod.mk.injEq] at h
      obtain ⟨rfl, rfl⟩ := h
      exact ⟨rest, rfl, Or.inr ⟨p, ps, rfl, rfl⟩⟩

/-- What a producer brings comes last. -/
theorem items_produce (q : Queue) (p : Production) :
    (q.produce p).items = q.items ++ (q.accepts? p).toList := by
  cases p with
  | put m =>
    rcases q.put_cases m with ⟨-, h⟩ | ⟨-, -, h⟩ | ⟨-, -, h⟩ <;> simp [produce, accepts?, h]
  | enter ticket =>
    rcases q.enter?_cases ticket with ⟨hf, h⟩ | ⟨p, hf, h⟩ <;> simp [produce, accepts?, hf, h]

@[simp] theorem closed_produce (q : Queue) (p : Production) : (q.produce p).closed = q.closed := by
  cases p with
  | put m => rcases q.put_cases m with ⟨-, h⟩ | ⟨-, -, h⟩ | ⟨-, -, h⟩ <;> simp [produce, h]
  | enter ticket =>
    rcases q.enter?_cases ticket with ⟨-, h⟩ | ⟨p, -, h⟩ <;> simp [produce, h]

@[simp] theorem capacity_produce (q : Queue) (p : Production) :
    (q.produce p).capacity = q.capacity := by
  cases p with
  | put m => rcases q.put_cases m with ⟨-, h⟩ | ⟨-, -, h⟩ | ⟨-, -, h⟩ <;> simp [produce, h]
  | enter ticket =>
    rcases q.enter?_cases ticket with ⟨-, h⟩ | ⟨p, -, h⟩ <;> simp [produce, h]

theorem items_take (h : q.take? = some (m, q')) : q.items = m :: q'.items := by
  obtain ⟨rest, hi, ⟨-, rfl⟩ | ⟨p, ps, -, rfl⟩⟩ := take?_cases h <;> exact hi

theorem closed_take (h : q.take? = some (m, q')) : q'.closed = q.closed := by
  obtain ⟨rest, -, ⟨-, rfl⟩ | ⟨p, ps, -, rfl⟩⟩ := take?_cases h <;> rfl

theorem capacity_take (h : q.take? = some (m, q')) : q'.capacity = q.capacity := by
  obtain ⟨rest, -, ⟨-, rfl⟩ | ⟨p, ps, -, rfl⟩⟩ := take?_cases h <;> rfl

theorem take?_of_items_eq_nil (h : q.items = []) : q.take? = none := by
  simp [take?, h]

/-! ## Places -/

/-- The places of a queue. Tickets go up in the order in which producers began to wait, and places
are granted in that order. -/
structure Sound (q : Queue) : Prop where
  pos : 0 < q.capacity
  length_le : q.length ≤ q.capacity
  full : q.waiting ≠ [] → q.length = q.capacity
  ordered : (q.granted ++ q.waiting).Pairwise (·.ticket < ·.ticket)
  lt : ∀ p ∈ q.granted ++ q.waiting, p.ticket < q.tickets

theorem sound_empty (capacity : Nat) : (empty capacity).Sound where
  pos := Nat.lt_of_lt_of_le Nat.zero_lt_one (Nat.le_max_right capacity 1)
  length_le := Nat.zero_le _
  full := fun h => absurd rfl h
  ordered := List.Pairwise.nil
  lt := fun p hp => by cases hp

/-- A ticket stands for one producer, so one place is filled with it. -/
theorem Sound.length_filter (h : q.Sound) {ticket : Nat} {p : Pending}
    (hf : q.granted.find? (·.ticket = ticket) = some p) :
    (q.granted.filter (·.ticket ≠ ticket)).length + 1 = q.granted.length := by
  obtain ⟨hp, before, after, heq, hbefore⟩ := List.find?_eq_some_iff_append.mp hf
  have hticket : p.ticket = ticket := by simpa using hp
  have hgranted := (List.pairwise_append.mp h.ordered).1
  rw [heq] at hgranted
  have hafter : ∀ a ∈ after, a.ticket ≠ ticket := by
    intro a ha
    have hlt := (List.pairwise_cons.mp (List.pairwise_append.mp hgranted).2.1).1 a ha
    omega
  have hkept : q.granted.filter (·.ticket ≠ ticket) = before ++ after := by
    rw [heq, List.filter_append, List.filter_cons_of_neg (by simp [hticket]),
      List.filter_eq_self.mpr (by simpa using hbefore),
      List.filter_eq_self.mpr (by simpa using hafter)]
  rw [hkept, heq]
  simp only [List.length_append, List.length_cons]
  omega

theorem Sound.produce (h : q.Sound) (p : Production) : (q.produce p).Sound := by
  cases p with
  | put m =>
    rcases q.put_cases m with ⟨-, heq⟩ | ⟨-, hlt, heq⟩ | ⟨-, hle, heq⟩
    · simpa only [Queue.produce, heq] using h
    · simp only [Queue.produce, heq]
      refine ⟨h.pos, ?_, fun hw => ?_, h.ordered, h.lt⟩
      · simp only [length, List.length_append, List.length_singleton] at hlt ⊢
        omega
      · have hfull := h.full hw
        omega
    · -- the queue is full, so one more producer waits, behind all others
      simp only [Queue.produce, heq]
      refine ⟨h.pos, h.length_le, fun _ => Nat.le_antisymm h.length_le hle, ?_, ?_⟩
      · rw [← List.append_assoc]
        refine List.pairwise_append.mpr ⟨h.ordered, List.pairwise_singleton _ _, ?_⟩
        intro a ha b hb
        rw [List.mem_singleton.mp hb]
        exact h.lt a ha
      · intro a ha
        rw [← List.append_assoc] at ha
        rcases List.mem_append.mp ha with ha | ha
        · exact Nat.lt_succ_of_lt (h.lt a ha)
        · rw [List.mem_singleton.mp ha]
          exact Nat.lt_succ_self _
  | enter ticket =>
    rcases q.enter?_cases ticket with ⟨-, heq⟩ | ⟨p, hf, heq⟩
    · simpa only [Queue.produce, heq, Option.getD_none] using h
    · -- a granted place is filled, so as many places are taken as before
      have hone := h.length_filter hf
      have hlength : ((q.enter? ticket).getD q).length = q.length := by
        simp only [heq, Option.getD_some, length, List.length_append, List.length_singleton]
        omega
      have hsub : (q.granted.filter (·.ticket ≠ ticket) ++ q.waiting).Sublist
          (q.granted ++ q.waiting) :=
        List.Sublist.append_right List.filter_sublist _
      simp only [Queue.produce]
      simp only [heq, Option.getD_some] at hlength ⊢
      exact ⟨h.pos, by rw [hlength]; exact h.length_le,
        fun hw => by rw [hlength]; exact h.full hw, h.ordered.sublist hsub,
        fun a ha => h.lt a (hsub.subset ha)⟩

theorem Sound.take (h : q.Sound) (ht : q.take? = some (m, q')) : q'.Sound := by
  obtain ⟨rest, hi, ⟨hw, rfl⟩ | ⟨p, ps, hw, rfl⟩⟩ := take?_cases ht
  · have hle := h.length_le
    refine ⟨h.pos, ?_, fun hne => absurd hw hne, h.ordered, h.lt⟩
    simp only [length, hi, List.length_cons] at hle ⊢
    omega
  · -- the freed place is granted at once
    have hfull := h.full (by simp [hw])
    have hlength : rest.length + (q.granted ++ [p]).length = q.length := by
      simp only [length, hi, List.length_append, List.length_cons, List.length_nil]
      omega
    have hsame : (q.granted ++ [p]) ++ ps = q.granted ++ q.waiting := by simp [hw]
    refine ⟨h.pos, ?_, fun _ => hlength.trans hfull, ?_, ?_⟩
    · exact Nat.le_of_eq (hlength.trans hfull)
    · rw [hsame]
      exact h.ordered
    · intro a ha
      rw [hsame] at ha
      exact h.lt a ha

theorem Sound.close (h : q.Sound) : q.close.Sound := ⟨h.pos, h.length_le, h.full, h.ordered, h.lt⟩

/-! ## The end of a queue -/

/-- A queue that takes no messages and holds none, not even a place for one. -/
structure Sealed (q : Queue) : Prop where
  closed : q.closed = true
  items : q.items = []
  granted : q.granted = []

theorem sealed_of_length_eq_zero (hc : q.closed = true) (h : q.length = 0) : q.Sealed := by
  simp only [length, Nat.add_eq_zero_iff, List.length_eq_zero_iff] at h
  exact ⟨hc, h.1, h.2⟩

/-- Nobody waits for a place that will never be free. -/
theorem Sealed.waiting (h : q.Sealed) (hs : q.Sound) : q.waiting = [] := by
  by_contra hw
  have hfull := hs.full hw
  have hpos := hs.pos
  simp only [length, h.items, h.granted, List.length_nil] at hfull
  omega

theorem Sealed.accepts? (h : q.Sealed) (p : Production) : q.accepts? p = none := by
  cases p with
  | put m => simp [Queue.accepts?, put, h.closed]
  | enter ticket => simp [Queue.accepts?, h.granted]

theorem Sealed.produce (h : q.Sealed) (p : Production) : q.produce p = q := by
  cases p with
  | put m => simp [Queue.produce, put, h.closed]
  | enter ticket => simp [Queue.produce, enter?, h.granted]

theorem Sealed.take? (h : q.Sealed) : q.take? = none := take?_of_items_eq_nil h.items

theorem Sealed.close (h : q.Sealed) : q.close = q := by
  rw [Queue.close, ← h.closed]

end Queue

end ChangeFeed.Sink
