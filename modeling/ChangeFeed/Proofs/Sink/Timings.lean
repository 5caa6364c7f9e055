import Mathlib.Algebra.Ring.Nat
import ChangeFeed.Proofs.Sink.Batches

/-!
# When a batched sink sends

A batcher lets no time pass while it can take a step, and each call of the destination takes as long
as it takes. `Timeline` is a sink with when things happened to it: which message the batcher took
when, and when it called the destination with which batch.

* `Timeline.Prompt` are the runs in which time passes only while the batcher waits.
* `Turn` says once what an event can do to the batcher; `turn_next`: every event is a turn.
* `Timeline.Timely` is kept by every event: a batch is sent at the latest when its first message has
  waited for the patience of the sink, and before only if it is full or the batcher ends.
* `Timeline.Bursting` follows the messages that come at one instant: all batches but the last one are
  full.
* `keeps_flush_timing` puts both together.
-/

namespace ChangeFeed.Sink

namespace Batched

/-! ## Time -/

/-- The time that an event is told. -/
def Event.now? : Event → Option Nat
  | .take now | .flush now | .leave now | .finish _ now | .goOn _ now => some now
  | .start | .produce _ | .stop => none

/-- Whether the batcher waits at a time. -/
def Idles (b : Batched) (now : Nat) : Prop :=
  b.take? now = none ∧ b.flush? now = none ∧ b.leave? now = none

instance (b : Batched) (now : Nat) : Decidable (b.Idles now) :=
  inferInstanceAs (Decidable (_ ∧ _ ∧ _))

/-- A call of the destination with a batch. -/
structure Sending where
  batch : List Message
  /-- Whether the batcher ends after it. -/
  last : Bool
  time : Nat
  deriving DecidableEq, Inhabited

/-- The message that the batcher takes with an event at a time. -/
def taking? (u : History) (now : Nat) : Event → Option (Message × Nat)
  | .take time =>
    if (u.sink.take? time).isSome then u.sink.queue.take?.map fun q => (q.1, now) else none
  | _ => none

/-- The call that a batcher makes when it comes from one state to another. -/
def sending? (now : Nat) : Batcher → Batcher → Option Sending
  | .collecting _, .sending batch last _ => some ⟨batch, last, now⟩
  | _, _ => none

/-- A sink with when things happened to it. -/
structure Timeline where
  history : History
  /-- The time of the last event. -/
  now : Nat
  /-- The messages that the batcher took and when, the first one first. -/
  taken : List (Message × Nat)
  /-- The calls with batches, the first one first. -/
  sendings : List Sending
  deriving Inhabited

namespace Timeline

def create (s : Settings.Output) : Timeline := ⟨.create s, 0, [], []⟩

/-- An event happens at a time. -/
def next (l : Timeline) (x : Nat × Event) : Timeline where
  history := l.history.next x.2
  now := x.1
  taken := l.taken ++ (taking? l.history x.1 x.2).toList
  sendings := l.sendings ++
    (sending? x.1 l.history.sink.batcher (l.history.next x.2).sink.batcher).toList

def after (l : Timeline) (events : List (Nat × Event)) : Timeline := events.foldl next l

/-- Time passes only while the batcher waits, and whoever is told the time is told the right one. -/
def Prompt (l : Timeline) : List (Nat × Event) → Prop
  | [] => True
  | x :: rest => l.now ≤ x.1 ∧ (∀ now, now < x.1 → l.now ≤ now → l.history.sink.Idles now) ∧
      x.2.now?.all (· = x.1) = true ∧ (l.next x).Prompt rest

instance decidablePrompt : (l : Timeline) → (events : List (Nat × Event)) →
    Decidable (l.Prompt events)
  | _, [] => isTrue trivial
  | l, x :: rest =>
    have := decidablePrompt (l.next x) rest
    inferInstanceAs (Decidable (_ ∧ _ ∧ _ ∧ _))

theorem after_append (l : Timeline) (events more : List (Nat × Event)) :
    l.after (events ++ more) = (l.after events).after more := List.foldl_append

theorem prompt_append {l : Timeline} {events more : List (Nat × Event)} :
    l.Prompt (events ++ more) ↔ l.Prompt events ∧ (l.after events).Prompt more := by
  induction events generalizing l with
  | nil => simp [Prompt, after]
  | cons x rest ih =>
    simp only [List.cons_append, Prompt, ih, after, List.foldl_cons]
    tauto

theorem history_after (l : Timeline) (events : List (Nat × Event)) :
    (l.after events).history = l.history.after (events.map Prod.snd) := by
  induction events generalizing l with
  | nil => rfl
  | cons x rest ih => exact ih (l.next x)

end Timeline

/-! ## What an event does to the batcher -/

variable {u : History} {limit now : Nat}

/-- What an event leaves that neither takes nor sends messages. -/
structure Rests (u u' : History) : Prop where
  items : ∃ new, u'.accepted = u.accepted ++ new ∧
    u'.sink.queue.items = u.sink.queue.items ++ new
  batches : u'.batches = u.batches
  batcher : u'.sink.batcher = u.sink.batcher ∨
    u.sink.batcher.held = [] ∧ u'.sink.batcher.held = [] ∧
      ∀ buffer, u'.sink.batcher = .collecting buffer →
        buffer = .empty u.sink.batchSize u.sink.patience.millis
  patience : u'.sink.patience = u.sink.patience
  cancelled : u.sink.cancelled = true → u'.sink.cancelled = true

/-- What an event at a time can do to the batcher: which message is taken with it, and which batch is
sent. -/
inductive Turn (u : History) (now : Nat) :
    History → Option (Message × Nat) → Option Sending → Prop where
  | keeps {buffer : Buffer Message} {m : Message} {queue : Queue}
      (hb : u.sink.batcher = .collecting buffer) (hq : u.sink.queue.take? = some (m, queue))
      (hf : (buffer.push now m).full? = none) :
      Turn u now
        { u with sink := { u.sink with queue, batcher := .collecting (buffer.push now m) } }
        (some (m, now)) none
  | fills {buffer : Buffer Message} {m : Message} {queue : Queue}
      (hb : u.sink.batcher = .collecting buffer) (hq : u.sink.queue.take? = some (m, queue))
      (hf : buffer.limit ≤ (buffer.push now m).items.length) :
      Turn u now { u with sink := { u.sink with queue }.send (buffer.push now m).items false now }
        (some (m, now)) (some ⟨(buffer.push now m).items, false, now⟩)
  | flushes {buffer : Buffer Message} (hb : u.sink.batcher = .collecting buffer)
      (hd : isDue buffer now = true) :
      Turn u now { u with sink := u.sink.send buffer.items false now } none
        (some ⟨buffer.items, false, now⟩)
  | leaves {buffer : Buffer Message} (hb : u.sink.batcher = .collecting buffer)
      (hc : u.sink.cancelled = true) (hne : buffer.items ≠ []) :
      Turn u now { u with sink := u.sink.send buffer.items true now } none
        (some ⟨buffer.items, true, now⟩)
  | rests {u' : History} (h : Rests u u') : Turn u now u' none none

theorem rests_refl (u : History) : Rests u u :=
  ⟨⟨[], by simp, by simp⟩, rfl, .inl rfl, rfl, id⟩

/-- A taken message fills the buffer if it is sent at once. -/
theorem take?_full {b b' : Batched} {buffer : Buffer Message} {m : Message} {queue : Queue}
    (hb : b.batcher = .collecting buffer) (hq : b.queue.take? = some (m, queue))
    (h : b.take? now = some b') :
    (buffer.push now m).full? = none ∧
        b' = { b with queue, batcher := .collecting (buffer.push now m) } ∨
      buffer.limit ≤ (buffer.push now m).items.length ∧
        b' = { b with queue }.send (buffer.push now m).items false now := by
  simp only [take?, hb, hq, Option.map_some] at h
  split at h
  · cases h
  · cases hf : (buffer.push now m).full? with
    | none =>
      simp only [hf, Option.some.injEq] at h
      exact .inl ⟨rfl, h.symm⟩
    | some n =>
      simp only [hf, Option.some.injEq] at h
      refine .inr ⟨?_, h.symm⟩
      unfold Buffer.full? at hf
      split at hf
      · assumption
      · cases hf

theorem cancelled_of_leave? {b b' : Batched} {now : Nat} (h : b.leave? now = some b') :
    b.cancelled = true := by
  cases hc : b.cancelled with
  | true => rfl
  | false =>
    unfold leave? at h
    split at h
    · simp [hc] at h
    · cases h

@[simp] theorem sending?_self (b : Batcher) : sending? now b b = none := by cases b <;> rfl

theorem sending?_of_held {b b' : Batcher} (hb : ∀ buffer, b ≠ .collecting buffer) :
    sending? now b b' = none := by
  cases b with
  | collecting buffer => exact absurd rfl (hb buffer)
  | _ => rfl

namespace Turn

/-- An event at which the batcher neither takes nor sends messages. -/
theorem of_rests {e : Event} (h : Rests u (u.next e)) (ht : taking? u now e = none)
    (hs : sending? now u.sink.batcher (u.next e).sink.batcher = none) :
    Turn u now (u.next e) (taking? u now e)
      (sending? now u.sink.batcher (u.next e).sink.batcher) := by
  rw [ht, hs]
  exact .rests h

theorem of_same {e : Event} (h : u.next e = u) (ht : taking? u now e = none) :
    Turn u now (u.next e) (taking? u now e)
      (sending? now u.sink.batcher (u.next e).sink.batcher) := by
  refine of_rests ?_ ht ?_
  · rw [h]
    exact rests_refl u
  · rw [h]
    exact sending?_self _

theorem take (u : History) (now : Nat) :
    Turn u now (u.next (.take now)) (taking? u now (.take now))
      (sending? now u.sink.batcher (u.next (.take now)).sink.batcher) := by
  cases ht : u.sink.take? now with
  | none => exact of_same (by simp [History.next, ht]) (by simp [taking?, ht])
  | some b' =>
    obtain ⟨buffer, m, queue, hb, hq, -⟩ := take?_cases ht
    have htaken : taking? u now (.take now) = some (m, now) := by simp [taking?, ht, hq]
    have hnext : u.next (.take now) = { u with sink := b' } := by simp [History.next, ht]
    rw [htaken, hnext, hb]
    rcases take?_full hb hq ht with ⟨hf, rfl⟩ | ⟨hf, rfl⟩
    · exact .keeps hb hq hf
    · exact .fills hb hq hf

theorem flush (u : History) (now : Nat) :
    Turn u now (u.next (.flush now)) (taking? u now (.flush now))
      (sending? now u.sink.batcher (u.next (.flush now)).sink.batcher) := by
  rcases u.sink.flush?_cases now with heq | ⟨buffer, hb, hd, heq⟩
  · exact of_same (by simp [History.next, heq]) rfl
  · have hnext : u.next (.flush now) = { u with sink := u.sink.send buffer.items false now } := by
      simp [History.next, heq]
    rw [hnext, hb]
    exact .flushes hb hd

theorem leave (u : History) (now : Nat) :
    Turn u now (u.next (.leave now)) (taking? u now (.leave now))
      (sending? now u.sink.batcher (u.next (.leave now)).sink.batcher) := by
  rcases u.sink.leave?_cases now with heq | ⟨buffer, hb, ⟨hnil, heq⟩ | ⟨hne, heq⟩⟩
  · exact of_same (by simp [History.next, heq]) rfl
  · have hnext : u.next (.leave now) = { u with sink := { u.sink with batcher := .ended } } := by
      simp [History.next, heq]
    have hheld : u.sink.batcher.held = [] := by rw [hb, Batcher.held, hnil]
    refine of_rests ?_ rfl (by rw [hnext, hb]; rfl)
    rw [hnext]
    refine ⟨⟨[], by simp, by simp⟩, ?_, .inr ⟨hheld, rfl, fun _ hf => by cases hf⟩, rfl, id⟩
    simp [History.batches, Batcher.sent, hb]
  · have hnext : u.next (.leave now) = { u with sink := u.sink.send buffer.items true now } := by
      simp [History.next, heq]
    rw [hnext, hb]
    exact .leaves hb (cancelled_of_leave? heq) hne

theorem finish (u : History) (ok : Bool) (time now : Nat) :
    Turn u now (u.next (.finish ok time)) (taking? u now (.finish ok time))
      (sending? now u.sink.batcher (u.next (.finish ok time)).sink.batcher) := by
  cases hf : u.sink.finish? ok time with
  | none => exact of_same (by simp [History.next, hf]) rfl
  | some b' =>
    obtain ⟨call, ha⟩ := answers_of_finish? hf
    have hnext : u.next (.finish ok time) = { u with sink := b', log := u.log ++ [⟨call, ok⟩] } := by
      simp [History.next, hf, ha.asked]
    have hcollects (buffer : Buffer Message) : u.sink.batcher ≠ .collecting buffer := by
      intro hb
      have hasked := ha.asked
      rw [hb] at hasked
      cases hasked
    have hqueue : b'.queue = u.sink.queue := by rw [ha.same]
    have hpatience : b'.patience = u.sink.patience := by rw [ha.same]
    have hcancelled : b'.cancelled = u.sink.cancelled := by rw [ha.same]
    refine of_rests ?_ rfl (sending?_of_held hcollects)
    rw [hnext]
    refine ⟨⟨[], by simp, ?_⟩, ?_, .inr ⟨ha.held, ha.held', ha.fresh⟩, hpatience, hcancelled.trans⟩
    · rw [List.append_nil, hqueue]
    · cases hcall : call.batch? <;> simp [History.batches, ha.sent, ha.sent', hcall]

theorem start (h : u.Sound limit) (now : Nat) :
    Turn u now (u.next .start) (taking? u now .start)
      (sending? now u.sink.batcher (u.next .start).sink.batcher) := by
  cases hs : u.sink.started with
  | true => exact of_same (by simp [History.next, Batched.start, hs]) rfl
  | false =>
    have hb := h.resting hs
    have hnext : u.next .start = { u with
        sink := { u.sink with started := true, batcher := u.sink.fresh } } := by
      simp [History.next, Batched.start, hs]
    refine of_rests ?_ rfl (by rw [hb]; rfl)
    rw [hnext]
    refine ⟨⟨[], by simp, by simp⟩, ?_, .inr ⟨by rw [hb]; rfl, rfl, fun _ hf => by cases hf; rfl⟩,
      rfl, id⟩
    rw [History.batches, History.batches, hb]
    rfl

theorem goOn (u : History) (call time now : Nat) :
    Turn u now (u.next (.goOn call time)) (taking? u now (.goOn call time))
      (sending? now u.sink.batcher (u.next (.goOn call time)).sink.batcher) := by
  rcases History.goOn_cases u call time with heq | ⟨phase, queue, cancelled, next, -, hp, heq⟩
  · exact of_same heq rfl
  · refine of_rests ?_ rfl (by rw [heq]; exact sending?_self _)
    rw [heq]
    refine ⟨⟨[], by simp, ?_⟩, rfl, .inl rfl, rfl, fun hc => ?_⟩
    · rw [List.append_nil, hp.queue_eq]
      exact Gate.items_closes phase u.sink.queue
    · cases hp with
      | waits => exact hc
      | cancels => rfl
      | returns => exact hc

end Turn

/-- Every event is a turn of the batcher. -/
theorem turn_next (h : u.Sound limit) {e : Event} (hnow : e.now?.all (· = now) = true) :
    Turn u now (u.next e) (taking? u now e)
      (sending? now u.sink.batcher (u.next e).sink.batcher) := by
  cases e with
  | start => exact .start h now
  | produce p =>
    have hrests : Rests u (u.next (.produce p)) :=
      ⟨⟨_, rfl, Queue.items_produce _ p⟩, rfl, .inl rfl, rfl, id⟩
    exact .of_rests hrests rfl (sending?_self _)
  | take time =>
    obtain rfl : time = now := by simpa [Event.now?] using hnow
    exact .take u time
  | flush time =>
    obtain rfl : time = now := by simpa [Event.now?] using hnow
    exact .flush u time
  | leave time =>
    obtain rfl : time = now := by simpa [Event.now?] using hnow
    exact .leave u time
  | finish ok time => exact .finish u ok time now
  | stop =>
    have hrests : Rests u (u.next .stop) :=
      ⟨⟨[], by simp [History.next], by simp [History.next]⟩, rfl, .inl rfl, rfl, id⟩
    exact .of_rests hrests rfl (sending?_self _)
  | goOn call time => exact .goOn u call time now

/-! ## In time -/

/-- A buffer holds messages of which the first is the one taken after `n` others, and it has not waited
for longer than the patience. -/
def Waits (taken : List (Message × Nat)) (n now : Nat) (buffer : Buffer Message) : Prop :=
  ∃ m time, buffer.oldest = some time ∧ buffer.items.head? = some m ∧ taken[n]? = some (m, time) ∧
    time ≤ now ∧ now ≤ time + buffer.patience

/-- A batch whose first message was taken after `n` others is sent in time: at the latest when that
message has waited for the patience, and before only if the batch is full or the batcher ends. -/
def Sending.IsInTime (taken : List (Message × Nat)) (limit patience n : Nat) (x : Sending) : Prop :=
  ∃ m time, x.batch.head? = some m ∧ taken[n]? = some (m, time) ∧ time ≤ x.time ∧
    x.time ≤ time + patience ∧ (x.batch.length < limit → x.time = time + patience ∨ x.last = true)

variable {taken : List (Message × Nat)} {patience n : Nat} {buffer : Buffer Message}

theorem Sending.IsInTime.append {x : Sending} (h : x.IsInTime taken limit patience n)
    (more : List (Message × Nat)) : x.IsInTime (taken ++ more) limit patience n := by
  obtain ⟨m, time, hm, ht, hrest⟩ := h
  have hlt : n < taken.length := (List.getElem?_eq_some_iff.mp ht).1
  exact ⟨m, time, hm, (List.getElem?_append_left hlt).trans ht, hrest⟩

namespace Waits

/-- A message comes into the buffer when it is taken. -/
theorem push (h : buffer.items ≠ [] → Waits taken n now buffer)
    (hn : taken.length = n + buffer.items.length) (m : Message) :
    Waits (taken ++ [(m, now)]) n now (buffer.push now m) := by
  by_cases hnil : buffer.items = []
  · have hlast : taken.length = n := by simpa [hnil] using hn
    refine ⟨m, now, by simp [Buffer.push, hnil], by simp [hnil], ?_, Nat.le_refl _,
      Nat.le_add_right _ _⟩
    rw [← hlast]
    simp
  · obtain ⟨first, time, ho, hm, ht, hle, hdue⟩ := h hnil
    have hlt : n < taken.length := (List.getElem?_eq_some_iff.mp ht).1
    refine ⟨first, time, by simp [Buffer.push, hnil, ho], ?_,
      (List.getElem?_append_left hlt).trans ht, hle, hdue⟩
    rw [Buffer.items_push, List.head?_append_of_ne_nil _ hnil, hm]

/-- A buffer is sent when it is full, when it is due, or when the batcher ends. -/
theorem isInTime (h : Waits taken n now buffer) {last : Bool}
    (hsize : buffer.items.length < limit → isDue buffer now = true ∨ last = true) :
    Sending.IsInTime taken limit buffer.patience n ⟨buffer.items, last, now⟩ := by
  obtain ⟨m, time, ho, hm, ht, hle, hdue⟩ := h
  refine ⟨m, time, hm, ht, hle, hdue, fun hlt => (hsize hlt).imp_left fun hd => ?_⟩
  have hover : time + buffer.patience ≤ now := by simpa [isDue, Buffer.deadline, ho] using hd
  exact Nat.le_antisymm hdue hover

end Waits

namespace Timeline

/-- What holds of the times of a sink in use. -/
structure Timely (l : Timeline) (limit patience : Nat) : Prop where
  sound : l.history.Sound limit
  patient : l.history.sink.patience.millis = patience
  flow : l.taken.map Prod.fst = l.history.batches.flatten ++ l.history.sink.batcher.held
  sent : l.sendings.map Sending.batch = l.history.batches
  held : ∀ buffer, l.history.sink.batcher = .collecting buffer → buffer.patience = patience ∧
    (buffer.items ≠ [] → Waits l.taken l.history.batches.flatten.length l.now buffer)
  inTime : ∀ (i : Nat) (x : Sending), l.sendings[i]? = some x →
    x.IsInTime l.taken limit patience ((l.sendings.take i).flatMap Sending.batch).length

variable {l : Timeline}

theorem timely_create (s : Settings.Output) :
    (create s).Timely (max s.batchSize 1) s.flushInterval.millis where
  sound := History.sound_create s
  patient := rfl
  flow := rfl
  sent := rfl
  held _ hb := by cases hb
  inTime i x hx := by simp [create] at hx

theorem batches_of_collecting (hb : u.sink.batcher = .collecting buffer) :
    u.batches = u.log.filterMap (·.call.batch?) := by
  simp [History.batches, Batcher.sent, hb]

theorem batches_send (hb : u.sink.batcher = .collecting buffer) (queue : Queue)
    (batch : List Message) (last : Bool) :
    History.batches { u with sink := { u.sink with queue }.send batch last now } =
      u.batches ++ [batch] := by
  rw [batches_of_collecting hb]
  rfl

namespace Timely

/-- A batcher that waits does not let its buffer wait for too long. -/
theorem le_deadline (h : l.Timely limit patience) {t : Nat}
    (hidle : ∀ now, now < t → l.now ≤ now → l.history.sink.Idles now)
    (hb : l.history.sink.batcher = .collecting buffer) {time : Nat} (ho : buffer.oldest = some time)
    (hle : l.now ≤ time + buffer.patience) : t ≤ time + buffer.patience := by
  by_contra hlt
  obtain ⟨-, hflush, hleave⟩ := hidle (time + buffer.patience) (by omega) hle
  have hdue : isDue buffer (time + buffer.patience) = true := by
    simp [isDue, Buffer.deadline, ho]
  cases hc : l.history.sink.cancelled with
  | false => simp [flush?, hb, hc, hdue] at hflush
  | true =>
    have hne := (h.sound.roomy buffer hb).ne_nil hdue
    simp [leave?, hb, hc, hne] at hleave

theorem pass (h : l.Timely limit patience) {t : Nat} (hle : l.now ≤ t)
    (hidle : ∀ now, now < t → l.now ≤ now → l.history.sink.Idles now) :
    Timely { l with now := t } limit patience where
  sound := h.sound
  patient := h.patient
  flow := h.flow
  sent := h.sent
  held buffer hb := by
    obtain ⟨hpatience, hwaits⟩ := h.held buffer hb
    refine ⟨hpatience, fun hne => ?_⟩
    obtain ⟨m, time, ho, hm, ht, hnow, hdue⟩ := hwaits hne
    exact ⟨m, time, ho, hm, ht, hnow.trans hle, h.le_deadline hidle hb ho hdue⟩
  inTime := h.inTime

/-- The batcher sends a buffer, perhaps with a message that it has just taken. -/
theorem send (h : l.Timely limit patience) {queue : Queue} {batch : List Message} {last : Bool}
    {a : Option (Message × Nat)} (hb : l.history.sink.batcher = .collecting buffer)
    (hs : History.Sound
      { l.history with sink := { l.history.sink with queue }.send batch last l.now } limit)
    (hflow : (l.taken ++ a.toList).map Prod.fst = l.history.batches.flatten ++ batch)
    (hin : Sending.IsInTime (l.taken ++ a.toList) limit patience
      l.history.batches.flatten.length ⟨batch, last, l.now⟩) :
    Timely ⟨{ l.history with sink := { l.history.sink with queue }.send batch last l.now }, l.now,
      l.taken ++ a.toList, l.sendings ++ [⟨batch, last, l.now⟩]⟩ limit patience where
  sound := hs
  patient := h.patient
  flow := by
    show (l.taken ++ a.toList).map Prod.fst = _
    rw [hflow, batches_send hb]
    simp [Batched.send, Batcher.held]
  sent := by
    rw [batches_send hb, List.map_append, h.sent]
    rfl
  held _ hb' := by cases hb'
  inTime i x hx := by
    rcases Nat.lt_or_ge i l.sendings.length with hi | hi
    · rw [List.getElem?_append_left hi] at hx
      rw [List.take_append_of_le_length (Nat.le_of_lt hi)]
      exact (h.inTime i x hx).append _
    · have hi' : i = l.sendings.length := by
        have hlt := (List.getElem?_eq_some_iff.mp hx).1
        simp only [List.length_append, List.length_singleton] at hlt
        omega
      subst hi'
      have hbatches : (l.sendings.flatMap Sending.batch) = l.history.batches.flatten := by
        rw [← h.sent, List.flatMap_def]
      obtain rfl : (⟨batch, last, l.now⟩ : Sending) = x := by simpa using hx
      rw [List.take_left, hbatches]
      exact hin

/-- An event at which no message is taken or sent. -/
theorem rest (h : l.Timely limit patience) {u' : History} (hs : u'.Sound limit)
    (hr : Rests l.history u') : Timely { l with history := u' } limit patience where
  sound := hs
  patient := by
    rw [hr.patience]
    exact h.patient
  flow := by
    rw [hr.batches, h.flow]
    rcases hr.batcher with hsame | ⟨hnil, hnil', -⟩
    · rw [hsame]
    · rw [hnil, hnil']
  sent := by
    rw [hr.batches]
    exact h.sent
  held buffer hb := by
    rw [hr.batches]
    rcases hr.batcher with hsame | ⟨-, -, hfresh⟩
    · exact h.held buffer (hsame ▸ hb)
    · obtain rfl := hfresh buffer hb
      exact ⟨h.patient, fun hne => absurd rfl hne⟩
  inTime := h.inTime

theorem turn (h : l.Timely limit patience) {u' : History} {a : Option (Message × Nat)}
    {b : Option Sending} (hs : u'.Sound limit) (ht : Turn l.history l.now u' a b) :
    Timely ⟨u', l.now, l.taken ++ a.toList, l.sendings ++ b.toList⟩ limit patience := by
  have hheld {buffer : Buffer Message} (hb : l.history.sink.batcher = .collecting buffer) :
      l.taken.map Prod.fst = l.history.batches.flatten ++ buffer.items := by
    rw [h.flow, hb, Batcher.held]
  have hcount {buffer : Buffer Message} (hb : l.history.sink.batcher = .collecting buffer) :
      l.taken.length = l.history.batches.flatten.length + buffer.items.length := by
    rw [← List.length_append, ← hheld hb, List.length_map]
  cases ht with
  | @keeps buffer m queue hb hq hf =>
    obtain ⟨hpatience, hwaits⟩ := h.held buffer hb
    have hbatches : History.batches { l.history with
        sink := { l.history.sink with queue, batcher := .collecting (buffer.push l.now m) } } =
        l.history.batches := by
      rw [batches_of_collecting hb, batches_of_collecting rfl]
    refine ⟨hs, h.patient, ?_, ?_, fun buffer' hb' => ?_, fun i x hx => ?_⟩
    · rw [hbatches]
      simp [Batcher.held, hheld hb]
    · rw [hbatches]
      simpa using h.sent
    · cases hb'
      rw [hbatches]
      exact ⟨hpatience, fun _ => Waits.push hwaits (hcount hb) m⟩
    · simp only [Option.toList_none, List.append_nil] at hx ⊢
      exact (h.inTime i x hx).append _
  | @fills buffer m queue hb hq hf =>
    obtain ⟨rfl, hwaits⟩ := h.held buffer hb
    have hfull : ¬ (buffer.push l.now m).items.length < limit := by
      rw [← (h.sound.roomy buffer hb).limit_eq]
      exact Nat.not_lt.mpr hf
    refine h.send (a := some (m, l.now)) hb hs ?_ ?_
    · simp [hheld hb]
    · exact (Waits.push hwaits (hcount hb) m).isInTime fun hlt => absurd hlt hfull
  | @flushes buffer hb hd =>
    obtain ⟨rfl, hwaits⟩ := h.held buffer hb
    have hne := (h.sound.roomy buffer hb).ne_nil hd
    refine h.send (a := none) hb hs (by simp [hheld hb]) ?_
    rw [Option.toList_none, List.append_nil]
    exact (hwaits hne).isInTime fun _ => .inl hd
  | @leaves buffer hb hc hne =>
    obtain ⟨rfl, hwaits⟩ := h.held buffer hb
    refine h.send (a := none) hb hs (by simp [hheld hb]) ?_
    rw [Option.toList_none, List.append_nil]
    exact (hwaits hne).isInTime fun _ => .inr rfl
  | rests hr =>
    simp only [Option.toList_none, List.append_nil]
    exact h.rest hs hr

theorem next (h : l.Timely limit patience) {x : Nat × Event} (hle : l.now ≤ x.1)
    (hidle : ∀ now, now < x.1 → l.now ≤ now → l.history.sink.Idles now)
    (hnow : x.2.now?.all (· = x.1) = true) : (l.next x).Timely limit patience :=
  (h.pass hle hidle).turn (h.sound.next x.2) (turn_next h.sound hnow)

theorem after (h : l.Timely limit patience) {events : List (Nat × Event)} (hp : l.Prompt events) :
    (l.after events).Timely limit patience := by
  induction events generalizing l with
  | nil => exact h
  | cons x rest ih =>
    obtain ⟨hle, hidle, hnow, hrest⟩ := hp
    exact ih (h.next hle hidle hnow) hrest

end Timely

/-! ## Bursts -/

/-- Batches of which all but the last one are full; `ended` tells that the last one is not. -/
inductive Portioned (limit : Nat) : List Nat → Bool → Prop where
  | full (k : Nat) : Portioned limit (.replicate k limit) false
  | last (k : Nat) {r : Nat} (hpos : 0 < r) (hlt : r < limit) :
      Portioned limit (.replicate k limit ++ [r]) true

/-- The sizes of the batches for messages that come at one instant. -/
def portions (limit n : Nat) : List Nat :=
  .replicate (n / limit) limit ++ if n % limit = 0 then [] else [n % limit]

namespace Portioned

variable {sizes : List Nat} {ended : Bool}

theorem append_full (h : Portioned limit sizes false) : Portioned limit (sizes ++ [limit]) false := by
  cases h with
  | full k =>
    rw [← List.replicate_succ']
    exact .full (k + 1)

theorem append_last (h : Portioned limit sizes false) {r : Nat} (hpos : 0 < r) (hlt : r < limit) :
    Portioned limit (sizes ++ [r]) true := by
  cases h with
  | full k => exact .last k hpos hlt

/-- As long as something is left to send, all batches are full, and at the end they are portions. -/
theorem prefix_portions (h : Portioned limit sizes ended) (hlimit : 0 < limit) {left n : Nat}
    (hn : n = sizes.sum + left) (hleft : ended = true → left = 0) :
    sizes <+: portions limit n ∧ (left = 0 → sizes = portions limit n) := by
  cases h with
  | full k =>
    rw [List.sum_replicate_nat] at hn
    have hk : k ≤ n / limit := (Nat.le_div_iff_mul_le hlimit).mpr (by omega)
    refine ⟨?_, fun hzero => ?_⟩
    · refine List.IsPrefix.trans ?_ (List.prefix_append _ _)
      exact ⟨.replicate (n / limit - k) limit, by
        rw [List.replicate_append_replicate, Nat.add_sub_cancel' hk]⟩
    · have hexact : n = k * limit := by omega
      rw [portions, hexact, Nat.mul_div_cancel k hlimit, Nat.mul_mod_left]
      simp
  | @last k r hpos hlt =>
    rw [List.sum_append, List.sum_replicate_nat, List.sum_singleton, hleft rfl, Nat.add_zero,
      Nat.mul_comm] at hn
    have hdiv : n / limit = k := by
      rw [hn, Nat.mul_add_div hlimit, Nat.div_eq_of_lt hlt, Nat.add_zero]
    have hmod : n % limit = r := by rw [hn, Nat.mul_add_mod, Nat.mod_eq_of_lt hlt]
    have heq : List.replicate k limit ++ [r] = portions limit n := by
      rw [portions, hdiv, hmod, if_neg (Nat.pos_iff_ne_zero.mp hpos)]
    exact ⟨heq ▸ List.prefix_rfl, fun _ => heq⟩

end Portioned

/-- The sizes of the batches that were sent. -/
def sizes (l : Timeline) : List Nat := l.sendings.map (·.batch.length)

theorem sizes_send (l : Timeline) (u : History) (now : Nat) (taken : List (Message × Nat))
    (x : Sending) : sizes ⟨u, now, taken, l.sendings ++ (some x).toList⟩ =
      l.sizes ++ [x.batch.length] := by
  simp [sizes]

theorem sizes_rest (l : Timeline) (u : History) (now : Nat) (taken : List (Message × Nat)) :
    sizes ⟨u, now, taken, l.sendings ++ (none : Option Sending).toList⟩ = l.sizes := by
  simp [sizes]

/-- What happens to messages that come at one instant, since a time at which there were none. Once
`arrived`, no message comes any more. -/
structure Bursting (l₀ l : Timeline) (limit : Nat) (arrived : Bool) : Prop where
  portioned : ∃ sizes ended, l.sizes = l₀.sizes ++ sizes ∧ Portioned limit sizes ended ∧
    (ended = true → l.history.sink.batcher.held = [] ∧ l.history.sink.queue.items = [] ∧
      (arrived = true ∨ l.history.sink.cancelled = true))
  /-- While messages may be left, no time passes for a buffer that holds one. -/
  fresh : ∀ buffer time, l.history.sink.batcher = .collecting buffer → buffer.oldest = some time →
    (arrived = true → l.history.sink.queue.items ≠ []) → time = l.now

theorem items_of_idles {b : Batched} (hb : b.batcher = .collecting buffer) (h : b.Idles now) :
    b.queue.items = [] := by
  obtain ⟨htake, hflush, hleave⟩ := h
  have hc : b.cancelled = false := by
    by_contra hc
    rw [Bool.not_eq_false] at hc
    by_cases hnil : buffer.items = [] <;> simp [leave?, hb, hc, hnil] at hleave
  have hd : isDue buffer now = false := by
    by_contra hd
    rw [Bool.not_eq_false] at hd
    simp [flush?, hb, hc, hd] at hflush
  have hnone : b.queue.take? = none := by simpa [take?, hb, hc, hd] using htake
  unfold Queue.take? at hnone
  split at hnone
  · assumption
  · split at hnone <;> cases hnone

namespace Bursting

variable {l₀ : Timeline} {arrived : Bool}

theorem begin (hb : l.history.sink.batcher = .collecting buffer) (hr : Roomy limit buffer)
    (hnil : buffer.items = []) : l.Bursting l limit false where
  portioned := ⟨[], false, by simp, .full 0, nofun⟩
  fresh buffer' time hb' ho := by
    cases hb.symm.trans hb'
    rw [hr.oldest hnil] at ho
    cases ho

/-- After the last message has come. -/
theorem ends (h : l₀.Bursting l limit false) : l₀.Bursting l limit true where
  portioned := by
    obtain ⟨sizes, ended, hsizes, hp, hended⟩ := h.portioned
    refine ⟨sizes, ended, hsizes, hp, fun he => ?_⟩
    obtain ⟨hheld, hitems, -⟩ := hended he
    exact ⟨hheld, hitems, .inl rfl⟩
  fresh buffer time hb ho _ := h.fresh buffer time hb ho nofun

theorem pass (h : l₀.Bursting l limit arrived) (hs : l.history.Sound limit) {t : Nat}
    (hle : l.now ≤ t)
    (hidle : ∀ now, now < t → l.now ≤ now → l.history.sink.Idles now)
    (hstay : arrived = false → t = l.now ∨ l.history.sink.batcher.held = []) :
    l₀.Bursting { l with now := t } limit arrived where
  portioned := h.portioned
  fresh buffer time hb ho hq := by
    have hitems : l.now < t → l.history.sink.queue.items = [] := fun hlt =>
      items_of_idles hb (hidle l.now hlt (Nat.le_refl _))
    have hsame : t = l.now := by
      cases arrived with
      | true => exact Nat.le_antisymm (Nat.not_lt.mp fun hlt => hq rfl (hitems hlt)) hle
      | false =>
        refine (hstay rfl).resolve_right fun hheld => ?_
        have hb' : l.history.sink.batcher = .collecting buffer := hb
        rw [hb', Batcher.held] at hheld
        rw [(hs.roomy buffer hb').oldest hheld] at ho
        cases ho
    rw [h.fresh buffer time hb ho hq]
    exact hsame.symm

/-- Nothing was sent that is not full as long as there is something to take or to send. -/
theorem portioned_of_left (h : l₀.Bursting l limit arrived)
    (hleft : l.history.sink.batcher.held ≠ [] ∨ l.history.sink.queue.items ≠ []) :
    ∃ sizes, l.sizes = l₀.sizes ++ sizes ∧ Portioned limit sizes false := by
  obtain ⟨sizes, ended, hsizes, hp, hended⟩ := h.portioned
  cases ended with
  | false => exact ⟨sizes, hsizes, hp⟩
  | true =>
    obtain ⟨hheld, hitems, -⟩ := hended rfl
    rcases hleft with hleft | hleft
    · exact absurd hheld hleft
    · exact absurd hitems hleft

/-- When a buffer is due all messages had come, and none is left in the queue. -/
theorem last_of_due (h : l₀.Bursting l limit arrived) (ht : l.Timely limit patience)
    (hd : 0 < patience) (hb : l.history.sink.batcher = .collecting buffer)
    (hdue : isDue buffer l.now = true) : arrived = true ∧ l.history.sink.queue.items = [] := by
  by_contra hmore
  obtain ⟨rfl, -⟩ := ht.held buffer hb
  obtain ⟨time, ho, hlong⟩ : ∃ time, buffer.oldest = some time ∧
      time + buffer.patience ≤ l.now := by
    unfold isDue Buffer.deadline at hdue
    cases ho : buffer.oldest <;> simp_all
  -- but no time has passed for it while there were messages left
  have hnow := h.fresh buffer time hb ho fun hlast hnil => hmore ⟨hlast, hnil⟩
  omega

/-- An event at which no message is taken or sent. -/
theorem rest (h : l₀.Bursting l limit arrived) {u' : History} (hg : u'.gate.Sound)
    (hr : Rests l.history u') (hsame : arrived = true → u'.accepted = l.history.accepted) :
    l₀.Bursting { l with history := u' } limit arrived := by
  obtain ⟨new, haccepted, hitems⟩ := hr.items
  have hstays (hlast : arrived = true) : u'.sink.queue.items = l.history.sink.queue.items := by
    have hnew : new = [] := by simpa [haccepted] using hsame hlast
    rw [hitems, hnew, List.append_nil]
  obtain ⟨sizes, ended, hsent, hp, hended⟩ := h.portioned
  refine ⟨⟨sizes, ended, hsent, hp, fun he => ?_⟩, fun buffer time hb ho hq => ?_⟩
  · obtain ⟨hheld, hitems', hend⟩ := hended he
    refine ⟨?_, ?_, hend.imp_right hr.cancelled⟩
    · rcases hr.batcher with hbatcher | ⟨-, hnil, -⟩
      · exact (congrArg Batcher.held hbatcher).trans hheld
      · exact hnil
    · rcases hend with hlast | hcancelled
      · exact (hstays hlast).trans hitems'
      · exact (hg.finished (hr.cancelled hcancelled)).items
  · rcases hr.batcher with hbatcher | ⟨-, -, hfresh⟩
    · exact h.fresh buffer time (hbatcher ▸ hb) ho fun hlast => hstays hlast ▸ hq hlast
    · rw [hfresh buffer hb] at ho
      cases ho

theorem turn (h : l₀.Bursting l limit arrived) (ht : l.Timely limit patience) (hd : 0 < patience)
    {u' : History} {a : Option (Message × Nat)} {b : Option Sending} (hg : u'.gate.Sound)
    (hturn : Turn l.history l.now u' a b)
    (hsame : arrived = true → u'.accepted = l.history.accepted) :
    l₀.Bursting ⟨u', l.now, l.taken ++ a.toList, l.sendings ++ b.toList⟩ limit arrived := by
  cases hturn with
  | @keeps buffer m queue hb hq hf =>
    have hitems : l.history.sink.queue.items ≠ [] := by simp [Queue.items_take hq]
    obtain ⟨sizes, hsent, hp⟩ := h.portioned_of_left (.inr hitems)
    refine ⟨⟨sizes, false, (sizes_rest ..).trans hsent, hp, nofun⟩, fun buffer' time hb' ho _ => ?_⟩
    cases hb'
    by_cases hnil : buffer.items = []
    · have ho' : some l.now = some time := by simpa [Buffer.push, hnil] using ho
      exact (Option.some.inj ho').symm
    · have ho' : buffer.oldest = some time := by simpa [Buffer.push, hnil] using ho
      exact h.fresh buffer time hb ho' fun _ => hitems
  | @fills buffer m queue hb hq hf =>
    have hitems : l.history.sink.queue.items ≠ [] := by simp [Queue.items_take hq]
    obtain ⟨sizes, hsent, hp⟩ := h.portioned_of_left (.inr hitems)
    have hroomy := ht.sound.roomy buffer hb
    have hlength : (buffer.push l.now m).items.length = limit := by
      have hlt := hroomy.lt
      have hle : limit ≤ (buffer.push l.now m).items.length := hroomy.limit_eq ▸ hf
      rw [Buffer.items_push, List.length_append, List.length_singleton] at hle ⊢
      omega
    refine ⟨⟨sizes ++ [limit], false, ?_, hp.append_full, nofun⟩, fun _ _ hb' => by cases hb'⟩
    rw [sizes_send, hsent, hlength, List.append_assoc]
  | @flushes buffer hb hdue =>
    have hroomy := ht.sound.roomy buffer hb
    have hne := hroomy.ne_nil hdue
    obtain ⟨sizes, hsent, hp⟩ := h.portioned_of_left (.inl (by rwa [hb, Batcher.held]))
    obtain ⟨hlast, hitems⟩ := h.last_of_due ht hd hb hdue
    refine ⟨⟨sizes ++ [buffer.items.length], true, ?_,
      hp.append_last (List.length_pos_iff.mpr hne) hroomy.lt, fun _ => ⟨rfl, hitems, .inl hlast⟩⟩,
      fun _ _ hb' => by cases hb'⟩
    rw [sizes_send, hsent, List.append_assoc]
  | @leaves buffer hb hc hne =>
    obtain ⟨sizes, hsent, hp⟩ := h.portioned_of_left (.inl (by rwa [hb, Batcher.held]))
    have hsealed : l.history.sink.queue.Sealed := hg.finished hc
    refine ⟨⟨sizes ++ [buffer.items.length], true, ?_,
      hp.append_last (List.length_pos_iff.mpr hne) (ht.sound.roomy buffer hb).lt,
      fun _ => ⟨rfl, hsealed.items, .inr hc⟩⟩, fun _ _ hb' => by cases hb'⟩
    rw [sizes_send, hsent, List.append_assoc]
  | rests hr =>
    simp only [Option.toList_none, List.append_nil]
    exact h.rest hg hr hsame

theorem next (h : l₀.Bursting l limit arrived) (ht : l.Timely limit patience) (hd : 0 < patience)
    {x : Nat × Event} (hle : l.now ≤ x.1)
    (hidle : ∀ now, now < x.1 → l.now ≤ now → l.history.sink.Idles now)
    (hnow : x.2.now?.all (· = x.1) = true) (hg : (l.next x).history.gate.Sound)
    (hstay : arrived = false → x.1 = l.now ∨ l.history.sink.batcher.held = [])
    (hsame : arrived = true → (l.next x).history.accepted = l.history.accepted) :
    l₀.Bursting (l.next x) limit arrived :=
  (h.pass ht.sound hle hidle hstay).turn (ht.pass hle hidle) hd hg (turn_next ht.sound hnow) hsame

/-- While the messages come. -/
theorem during (h : l₀.Bursting l limit false) (ht : l.Timely limit patience) (hd : 0 < patience)
    {events : List (Nat × Event)} (hp : l.Prompt events) {time : Nat}
    (hall : ∀ x ∈ events, x.1 = time) (hstart : time = l.now ∨ l.history.sink.batcher.held = [])
    (hg : ∀ earlier later, events = earlier ++ later → (l.after earlier).history.gate.Sound) :
    l₀.Bursting (l.after events) limit false := by
  induction events generalizing l with
  | nil => exact h
  | cons x rest ih =>
    obtain ⟨hle, hidle, hnow, hrest⟩ := hp
    obtain ⟨hx, hall⟩ := List.forall_mem_cons.mp hall
    have hnext := h.next ht hd hle hidle hnow (hg [x] rest rfl) (fun _ => hx ▸ hstart) nofun
    exact ih hnext (ht.next hle hidle hnow) hrest hall (.inl hx.symm) fun earlier later heq =>
      hg (x :: earlier) later (congrArg (x :: ·) heq)

end Bursting

theorem accepted_next (u : History) (e : Event) : u.accepted <+: (u.next e).accepted := by
  cases e with
  | produce p => exact List.prefix_append _ _
  | finish ok now =>
    simp only [History.next]
    split <;> exact List.prefix_rfl
  | goOn call now =>
    have hsame : (u.next (.goOn call now)).accepted = u.accepted := by
      rcases History.goOn_cases u call now with heq | ⟨_, _, _, _, -, -, heq⟩ <;> rw [heq]
    exact hsame ▸ List.prefix_rfl
  | _ => exact List.prefix_rfl

theorem accepted_after (l : Timeline) (events : List (Nat × Event)) :
    l.history.accepted <+: (l.after events).history.accepted := by
  induction events generalizing l with
  | nil => exact List.prefix_rfl
  | cons x rest ih => exact (accepted_next l.history x.2).trans (ih (l.next x))

/-- After the last message has come. -/
theorem Bursting.beyond {l₀ : Timeline} (h : l₀.Bursting l limit true)
    (ht : l.Timely limit patience) (hd : 0 < patience) {events : List (Nat × Event)}
    (hp : l.Prompt events) (hsame : (l.after events).history.accepted = l.history.accepted)
    (hg : ∀ earlier later, events = earlier ++ later → (l.after earlier).history.gate.Sound) :
    l₀.Bursting (l.after events) limit true := by
  induction events generalizing l with
  | nil => exact h
  | cons x rest ih =>
    obtain ⟨hle, hidle, hnow, hrest⟩ := hp
    have hone : (l.next x).history.accepted = l.history.accepted := by
      have hback : (l.next x).history.accepted <+: l.history.accepted := by
        rw [← hsame]
        exact accepted_after (l.next x) rest
      exact ((accepted_next l.history x.2).eq_of_length_le hback.length_le).symm
    have hnext := h.next ht hd hle hidle hnow (hg [x] rest rfl) nofun fun _ => hone
    refine ih hnext (ht.next hle hidle hnow) hrest (hsame.trans hone.symm) fun earlier later heq => ?_
    exact hg (x :: earlier) later (congrArg (x :: ·) heq)

/-! ## Every run -/

theorem Timely.length_accepted (h : l.Timely limit patience) : l.history.accepted.length =
    l.sizes.sum + (l.history.sink.batcher.held.length + l.history.sink.queue.items.length) := by
  have hsizes : l.sizes.sum = l.history.batches.flatten.length := by
    rw [List.length_flatten, ← h.sent, List.map_map]
    rfl
  rw [h.sound.flow, hsizes, List.length_append, List.length_append]

/-- What a sink does with its time. -/
structure FlushesInTime (l : Timeline) (limit patience : Nat) : Prop where
  sent : l.sendings.map Sending.batch = l.history.batches
  /-- Messages are taken in the order in which they were accepted. -/
  taken : l.taken.map Prod.fst ++ l.history.sink.queue.items = l.history.accepted
  /-- Every batch is sent when its first message has waited for the patience, or before if it is full
  or the batcher ends. -/
  inTime : ∀ (i : Nat) (x : Sending), l.sendings[i]? = some x →
    x.IsInTime l.taken limit patience ((l.sendings.take i).flatMap Sending.batch).length
  /-- What is not sent has not waited for longer. -/
  held : ∀ buffer, l.history.sink.batcher = .collecting buffer → buffer.items ≠ [] →
    ∃ m time, buffer.items.head? = some m ∧
      l.taken[(l.sendings.flatMap Sending.batch).length]? = some (m, time) ∧
      l.now ≤ time + patience
  /-- A batcher that waits has sent everything by then. -/
  settled : ∀ buffer, l.history.sink.batcher = .collecting buffer → l.history.sink.Idles l.now →
    (∀ x ∈ l.taken, x.2 + patience < l.now) →
    buffer.items = [] ∧ l.history.sink.queue.items = []

theorem Timely.flushesInTime (h : l.Timely limit patience) : l.FlushesInTime limit patience := by
  have hbatches : l.sendings.flatMap Sending.batch = l.history.batches.flatten := by
    rw [← h.sent, List.flatMap_def]
  have held (buffer : Buffer Message) (hb : l.history.sink.batcher = .collecting buffer)
      (hne : buffer.items ≠ []) : ∃ m time, buffer.items.head? = some m ∧
        l.taken[(l.sendings.flatMap Sending.batch).length]? = some (m, time) ∧
        l.now ≤ time + patience := by
    obtain ⟨rfl, hwaits⟩ := h.held buffer hb
    obtain ⟨m, time, -, hm, htaken, -, hdue⟩ := hwaits hne
    exact ⟨m, time, hm, hbatches ▸ htaken, hdue⟩
  refine ⟨h.sent, ?_, h.inTime, held, fun buffer hb hidle hlong => ⟨?_, items_of_idles hb hidle⟩⟩
  · rw [h.flow, h.sound.flow, List.append_assoc]
  · by_contra hne
    obtain ⟨m, time, -, htaken, hdue⟩ := held buffer hb hne
    have hlt := hlong (m, time) (List.mem_of_getElem? htaken)
    exact Nat.not_lt.mpr hdue hlt

/-- Messages come at one instant to a batcher that waits with an empty buffer, and no others after
them. -/
structure IsBurst (l : Timeline) (burst rest : List (Nat × Event)) : Prop where
  waits : ∃ buffer, l.history.sink.batcher = .collecting buffer ∧ buffer.items = []
  none : l.history.sink.queue.items = []
  instant : ∃ time, ∀ x ∈ burst, x.1 = time
  last : (l.after (burst ++ rest)).history.accepted = (l.after burst).history.accepted

/-- The batches that were sent since a time are portions of the messages that came since then; those
that are left belong to the portions that are missing. -/
def SendsPortions (l₀ l : Timeline) (limit : Nat) : Prop :=
  ∃ sizes, l.sizes = l₀.sizes ++ sizes ∧
    sizes <+: portions limit (l.history.accepted.length - l₀.history.accepted.length) ∧
    (l.history.sink.batcher.held = [] → l.history.sink.queue.items = [] →
      sizes = portions limit (l.history.accepted.length - l₀.history.accepted.length))

theorem Bursting.sendsPortions {l₀ : Timeline} {arrived : Bool} (h : l₀.Bursting l limit arrived)
    (ht₀ : l₀.Timely limit patience) (ht : l.Timely limit patience)
    (hheld₀ : l₀.history.sink.batcher.held = []) (hitems₀ : l₀.history.sink.queue.items = []) :
    l₀.SendsPortions l limit := by
  obtain ⟨sizes, ended, hsizes, hportioned, hended⟩ := h.portioned
  have hbegun := ht₀.length_accepted
  have hend := ht.length_accepted
  rw [hheld₀, hitems₀, List.length_nil] at hbegun
  rw [hsizes, List.sum_append] at hend
  have hn : l.history.accepted.length - l₀.history.accepted.length = sizes.sum +
      (l.history.sink.batcher.held.length + l.history.sink.queue.items.length) := by omega
  obtain ⟨hstart, hexact⟩ := hportioned.prefix_portions ht.sound.pos hn fun he => by
    obtain ⟨hheld, hitems, -⟩ := hended he
    rw [hheld, hitems]
    rfl
  refine ⟨sizes, hsizes, hstart, fun hheld hitems => hexact ?_⟩
  rw [hheld, hitems]
  rfl

theorem Timely.sendsPortions (h : l.Timely limit patience) (hd : 0 < patience)
    {burst rest : List (Nat × Event)} (hb : l.IsBurst burst rest) (hp : l.Prompt (burst ++ rest))
    (hg : ∀ earlier later, burst ++ rest = earlier ++ later →
      (l.after earlier).history.gate.Sound) :
    l.SendsPortions (l.after (burst ++ rest)) limit := by
  obtain ⟨⟨buffer, hcollecting, hnil⟩, hnone, ⟨time, hinstant⟩, hlast⟩ := hb
  obtain ⟨hburst, hrest⟩ := prompt_append.mp hp
  have hheld : l.history.sink.batcher.held = [] := by rw [hcollecting, Batcher.held, hnil]
  have hbegin := Bursting.begin hcollecting (h.sound.roomy buffer hcollecting) hnil
  have hduring := hbegin.during h hd hburst hinstant (.inr hheld) fun earlier later heq =>
    hg earlier (later ++ rest) (by rw [heq, List.append_assoc])
  rw [after_append] at hlast ⊢
  have hbeyond := hduring.ends.beyond (h.after hburst) hd hrest hlast fun earlier later heq => by
    have hsound := hg (burst ++ earlier) later (by rw [heq, List.append_assoc])
    rwa [after_append] at hsound
  exact hbeyond.sendsPortions h ((h.after hburst).after hrest) hheld hnone

theorem gate_after (s : Settings.Output) {events : List (Nat × Event)}
    (hc : ComesFirst .start .stop (events.map Prod.snd)) :
    ((create s).after events).history.gate.Sound := by
  have hcreate : (History.create s).gate.Sound := Gate.sound_create s.queueCapacity true
  rw [history_after]
  exact History.follows.sound_foldl (by simp) hcreate hc

end Timeline

/-- In every run a batch is sent when its first message has waited for the flush interval, and before
only if it is full or the sink is stopped. Messages that come at one instant are sent in full batches
and one with the rest. -/
theorem keeps_flush_timing (s : Settings.Output) (hd : 0 < s.flushInterval.millis)
    {events : List (Nat × Event)} (hc : ComesFirst .start .stop (events.map Prod.snd))
    (hp : (Timeline.create s).Prompt events) :
    ((Timeline.create s).after events).FlushesInTime (max s.batchSize 1) s.flushInterval.millis ∧
    ∀ before burst rest, events = before ++ (burst ++ rest) →
      ((Timeline.create s).after before).IsBurst burst rest →
      ((Timeline.create s).after before).SendsPortions ((Timeline.create s).after events)
        (max s.batchSize 1) := by
  have hcreate := Timeline.timely_create s
  refine ⟨(hcreate.after hp).flushesInTime, ?_⟩
  rintro before burst rest rfl hburst
  obtain ⟨hbefore, hafter⟩ := Timeline.prompt_append.mp hp
  rw [Timeline.after_append]
  refine (hcreate.after hbefore).sendsPortions hd hburst hafter fun earlier later heq => ?_
  rw [heq, ← List.append_assoc, List.map_append] at hc
  rw [← Timeline.after_append]
  exact Timeline.gate_after s hc.of_append

/-- A sink with batches of two messages that wait for three milliseconds. -/
def hasty : Settings.Output :=
  { Settings.Output.standard with batchSize := 2, flushIntervalMs := 3 }

/-- Five messages come at time 1. The destination takes nine milliseconds for the first batch, longer
than messages wait, and none for the second one. -/
def fiveAtOnce : List (Nat × Event) :=
  [(1, .produce (.put (numbered 1))), (1, .take 1), (1, .produce (.put (numbered 2))),
    (1, .produce (.put (numbered 3))), (1, .produce (.put (numbered 4))),
    (1, .produce (.put (numbered 5)))]

def sentInThree : List (Nat × Event) :=
  [(1, .take 1), (10, .finish true 10), (10, .take 10), (10, .take 10), (10, .finish true 10),
    (10, .take 10), (13, .flush 13), (14, .finish true 14)]

theorem keeps_flush_timing_of_five_at_once :
    let l₀ := (Timeline.create hasty).after [(0, .start)]
    let l := (Timeline.create hasty).after ([(0, .start)] ++ (fiveAtOnce ++ sentInThree))
    l.FlushesInTime 2 3 ∧ l₀.SendsPortions l 2 ∧ l.sizes = Timeline.portions 2 5 ∧
      l.sendings.map Sending.time = [1, 10, 13] := by
  have hc : ComesFirst Event.start Event.stop
      (([(0, Event.start)] ++ (fiveAtOnce ++ sentInThree)).map Prod.snd) := by decide
  have hp : (Timeline.create hasty).Prompt ([(0, Event.start)] ++ (fiveAtOnce ++ sentInThree)) := by
    decide +kernel
  obtain ⟨htime, hburst⟩ := keeps_flush_timing hasty (by decide) hc hp
  refine ⟨htime, hburst _ _ _ rfl ⟨⟨_, rfl, rfl⟩, rfl, ⟨1, by decide⟩, rfl⟩, ?_⟩
  decide +kernel

end Batched

end ChangeFeed.Sink
