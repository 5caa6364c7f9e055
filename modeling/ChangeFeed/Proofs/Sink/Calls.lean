import ChangeFeed.Sink.Batched
import ChangeFeed.Proofs.Sink.Queues

/-!
# The calls of a batcher

A batcher calls its destination with a batch, and if that is refused with each of its messages.

* `held`, `sent` and `left` are the messages of a batcher by what is to become of them, and `call?` is
  the call that it waits for. `Exchange.calls` are the calls that an answer calls for.
* `Roomy`: a buffer that a batcher collects in is never full, and nobody waits for an empty one.
* `take?_cases`, `flush?_cases` and `leave?_cases` are the steps of a batcher that collects, and
  `answers_of_finish?` says what an answer changes.
-/

namespace ChangeFeed.Sink

def Call.batch? : Call → Option (List Message)
  | .batch messages => some messages
  | .one _ => none

/-- A call with its answer. -/
structure Exchange where
  call : Call
  ok : Bool
  deriving DecidableEq, Inhabited

/-- The calls to make for a batch with the given answer: if the destination refuses it, each of its
messages follows. -/
def Exchange.calls : Exchange → List Call
  | ⟨.batch messages, ok⟩ => .batch messages :: if ok then [] else messages.map .one
  | ⟨.one _, _⟩ => []

namespace Batcher

/-- The messages in the buffer. -/
def held : Batcher → List Message
  | .collecting buffer => buffer.items
  | _ => []

/-- The batch that the destination has not answered. -/
def sent : Batcher → List (List Message)
  | .sending batch _ _ => [batch]
  | _ => []

/-- The messages of a refused batch that are not answered yet. -/
def left : Batcher → List Message
  | .resending left _ _ => left
  | _ => []

/-- The call that the destination has not answered. -/
def call? : Batcher → Option Call
  | .sending batch _ _ => some (.batch batch)
  | .resending (m :: _) _ _ => some (.one m)
  | _ => none

end Batcher

namespace Batched

variable {b b' : Batched} {buffer : Buffer Message}

/-! ## The steps of the batcher -/

/-- The buffer of a batcher that collects: it is not full, and knows when its oldest item came only
while it holds one. -/
structure Roomy (limit : Nat) (buffer : Buffer Message) : Prop where
  limit_eq : buffer.limit = limit
  lt : buffer.items.length < limit
  oldest : buffer.items = [] → buffer.oldest = none

theorem roomy_empty {limit : Nat} (h : 0 < limit) (patience : Nat) :
    Roomy limit (.empty limit patience) := by
  refine ⟨?_, h, fun _ => rfl⟩
  show max limit 1 = limit
  omega

theorem Roomy.push {limit : Nat} (h : Roomy limit buffer) (now : Nat) (m : Message)
    (hn : (buffer.push now m).full? = none) : Roomy limit (buffer.push now m) := by
  have hlimit : (buffer.push now m).limit = limit := h.limit_eq
  refine ⟨hlimit, ?_, fun hnil => by simp at hnil⟩
  simp only [Buffer.full?, hlimit] at hn
  split at hn
  · cases hn
  · omega

/-- Nobody waits for an empty buffer. -/
theorem Roomy.ne_nil {limit now : Nat} (h : Roomy limit buffer) (hd : isDue buffer now = true) :
    buffer.items ≠ [] := by
  intro hnil
  simp [isDue, Buffer.deadline, h.oldest hnil] at hd

theorem take?_cases {now : Nat} (h : b.take? now = some b') :
    ∃ buffer m queue, b.batcher = .collecting buffer ∧ b.queue.take? = some (m, queue) ∧
      b.cancelled = false ∧
      ((buffer.push now m).full? = none ∧
          b' = { b with queue, batcher := .collecting (buffer.push now m) } ∨
        b' = { b with queue }.send (buffer.push now m).items false now) := by
  unfold take? at h
  split at h
  · rename_i buffer hb
    split at h
    · cases h
    · rename_i hc
      obtain ⟨⟨m, queue⟩, ht, heq⟩ := Option.map_eq_some_iff.mp h
      have hcancelled : b.cancelled = false := by
        simp only [Bool.or_eq_true, not_or, Bool.not_eq_true] at hc
        exact hc.1
      refine ⟨buffer, m, queue, hb, ht, hcancelled, ?_⟩
      simp only at heq
      split at heq
      · exact Or.inr heq.symm
      · rename_i hnone
        exact Or.inl ⟨hnone, heq.symm⟩
  · cases h

theorem flush?_cases (b : Batched) (now : Nat) :
    b.flush? now = none ∨ ∃ buffer, b.batcher = .collecting buffer ∧ isDue buffer now = true ∧
      b.flush? now = some (b.send buffer.items false now) := by
  unfold flush?
  split
  · rename_i buffer hb
    split
    · rename_i hd
      have hdue : isDue buffer now = true := (Bool.and_eq_true_iff.mp hd).2
      exact Or.inr ⟨buffer, hb, hdue, rfl⟩
    · exact Or.inl rfl
  · exact Or.inl rfl

theorem leave?_cases (b : Batched) (now : Nat) :
    b.leave? now = none ∨ ∃ buffer, b.batcher = .collecting buffer ∧
      (buffer.items = [] ∧ b.leave? now = some { b with batcher := .ended } ∨
        buffer.items ≠ [] ∧ b.leave? now = some (b.send buffer.items true now)) := by
  unfold leave?
  split
  · rename_i buffer hb
    split
    · exact Or.inl rfl
    · split
      · rename_i hnil
        exact Or.inr ⟨buffer, hb, Or.inl ⟨List.isEmpty_iff.mp hnil, rfl⟩⟩
      · rename_i hnil
        refine Or.inr ⟨buffer, hb, Or.inr ⟨fun heq => hnil ?_, rfl⟩⟩
        exact List.isEmpty_iff.mpr heq
  · exact Or.inl rfl

/-- What an answer to a call changes: the messages of a refused batch are left to send, and each other
answer settles what the call was about. -/
structure Answers (b b' : Batched) (call : Call) (ok : Bool) : Prop where
  asked : b.batcher.call? = some call
  held : b.batcher.held = []
  sent : b.batcher.sent = call.batch?.toList
  same : b' = { b with
    batcher := b'.batcher
    published := b'.published
    dropped := b'.dropped }
  held' : b'.batcher.held = []
  sent' : b'.batcher.sent = []
  left : call :: b'.batcher.left.map .one = b.batcher.left.map .one ++ Exchange.calls ⟨call, ok⟩
  counted : b'.published + b'.dropped + b'.batcher.left.length =
    b.published + b.dropped + b.batcher.left.length + b.batcher.sent.flatten.length
  fresh : ∀ buffer, b'.batcher = .collecting buffer → buffer = .empty b.batchSize b.patience.millis

/-- After the last answer of a round nothing is left to send. -/
theorem answers_proceed {call : Call} {ok : Bool} (last : Bool) {published dropped : Nat}
    (asked : b.batcher.call? = some call) (held : b.batcher.held = [])
    (sent : b.batcher.sent = call.batch?.toList)
    (left : [call] = b.batcher.left.map .one ++ Exchange.calls ⟨call, ok⟩)
    (counted : published + dropped =
      b.published + b.dropped + b.batcher.left.length + b.batcher.sent.flatten.length) :
    Answers b ({ b with published, dropped }.proceed last) call ok := by
  cases last with
  | true => exact ⟨asked, held, sent, rfl, rfl, rfl, left, counted, fun buffer h => by cases h⟩
  | false => exact ⟨asked, held, sent, rfl, rfl, rfl, left, counted, fun buffer h => by cases h; rfl⟩

theorem answers_sending {batch : List Message} {last : Bool} {since now : Nat} (ok : Bool)
    (hb : b.batcher = .sending batch last since) (h : b.finish? ok now = some b') :
    Answers b b' (.batch batch) ok := by
  have hcall : b.batcher.call? = some (.batch batch) := hb ▸ rfl
  have hheld : b.batcher.held = [] := hb ▸ rfl
  have hsent : b.batcher.sent = [batch] := hb ▸ rfl
  have hleft : b.batcher.left = [] := hb ▸ rfl
  simp only [finish?, hb] at h
  cases ok with
  | true =>
    simp only [if_true, Option.some.injEq] at h
    rw [← h]
    refine answers_proceed last hcall hheld hsent ?_ ?_
    · rw [hleft]
      rfl
    · rw [hleft, hsent]
      simp only [List.flatten_cons, List.flatten_nil, List.append_nil, List.length_nil]
      omega
  | false =>
    simp only [Bool.false_eq_true, if_false, Option.some.injEq] at h
    rw [← h]
    refine ⟨hcall, hheld, hsent, rfl, rfl, rfl, ?_, ?_, fun buffer h => by cases h⟩
    · rw [hleft]
      simp [Exchange.calls, Batcher.left]
    · rw [hleft, hsent]
      simp [Batcher.left]

theorem answers_resending {m : Message} {rest : List Message} {last : Bool} {since now : Nat}
    (ok : Bool) (hb : b.batcher = .resending (m :: rest) last since)
    (h : b.finish? ok now = some b') : Answers b b' (.one m) ok := by
  have hcall : b.batcher.call? = some (.one m) := hb ▸ rfl
  have hheld : b.batcher.held = [] := hb ▸ rfl
  have hsent : b.batcher.sent = [] := hb ▸ rfl
  have hleft : b.batcher.left = m :: rest := hb ▸ rfl
  have hcounted : b.published + (if ok then 1 else 0) + (b.dropped + if ok then 0 else 1) =
      b.published + b.dropped + 1 := by
    cases ok <;> simp only [if_true, Bool.false_eq_true, if_false] <;> omega
  simp only [finish?, hb] at h
  cases rest with
  | nil =>
    rw [← Option.some.inj h]
    refine answers_proceed last hcall hheld hsent ?_ ?_
    · rw [hleft]
      rfl
    · rw [hleft, hsent, hcounted]
      rfl
  | cons m' rest =>
    rw [← Option.some.inj h]
    refine ⟨hcall, hheld, hsent, rfl, rfl, rfl, ?_, ?_, fun buffer h => by cases h⟩
    · rw [hleft]
      exact (List.append_nil _).symm
    · rw [hleft, hsent]
      simp only [Batcher.left, hcounted, List.length_cons, List.flatten_nil, List.length_nil]
      omega

theorem answers_of_finish? {ok : Bool} {now : Nat} (h : b.finish? ok now = some b') :
    ∃ call, Answers b b' call ok := by
  match hb : b.batcher with
  | .sending batch last since => exact ⟨_, answers_sending ok hb h⟩
  | .resending (m :: rest) last since => exact ⟨_, answers_resending ok hb h⟩
  | .resending [] last since => simp [finish?, hb] at h
  | .absent => simp [finish?, hb] at h
  | .collecting buffer => simp [finish?, hb] at h
  | .ended => simp [finish?, hb] at h

end Batched

end ChangeFeed.Sink
