import ChangeFeed.Engine.Outlet
import ChangeFeed.Proofs.Metrics.Values
import ChangeFeed.Proofs.Sink.Calls
import ChangeFeed.Proofs.Sink.Stops

/-!
# What a batched sink delivers

Producers, the batcher and calls that stop the sink take their steps in any order. A step goes from
one wait to the next: the batcher takes a message, and calls the destination with its buffer if that
fills it.

* `Batched.Event` lists the steps, and `Batched.History` is a sink with what has happened to it: the
  messages that were accepted, and the calls that the destination has answered.
* `Batched.History.Sound` is kept by every step. The accepted messages are those of the batches and,
  behind them, those in the buffer and those in the queue.
* `Batched.sent_once`: once a call that stops the sink has returned, everything that was accepted was
  sent in batches, in order, and was counted; a batch that was refused was sent again at once, message
  by message.
-/

namespace ChangeFeed.Sink

namespace Batched

/-- What happens to a batched sink. -/
inductive Event where
  | start
  | produce (p : Production)
  /-- The batcher takes a message, and sends the buffer if that fills it. -/
  | take (now : Nat)
  /-- The batcher sends the buffer because its oldest message has waited long enough. -/
  | flush (now : Nat)
  /-- The batcher ends, after it has sent what is left. -/
  | leave (now : Nat)
  /-- The destination answers the batcher. -/
  | finish (ok : Bool) (now : Nat)
  /-- A call that stops the sink is made. -/
  | stop
  /-- A call that stops the sink goes on, if it need not wait. -/
  | goOn (call now : Nat)
  deriving DecidableEq, Inhabited

/-- A sink with what has happened to it. -/
structure History where
  sink : Batched
  /-- The messages that were accepted, the first one first. -/
  accepted : List Message
  /-- The calls that the destination has answered, the first one first. -/
  log : List Exchange
  /-- The phases of the calls that stop the sink; a call without one has returned. -/
  stops : List (Option Stopping)
  deriving Inhabited

namespace History

def create (s : Settings.Output) : History := ⟨.create s, [], [], []⟩

def next (u : History) : Event → History
  | .start => { u with sink := u.sink.start }
  | .produce p =>
    { u with
      sink := { u.sink with queue := u.sink.queue.produce p }
      accepted := u.accepted ++ (u.sink.queue.accepts? p).toList }
  | .take now => { u with sink := (u.sink.take? now).getD u.sink }
  | .flush now => { u with sink := (u.sink.flush? now).getD u.sink }
  | .leave now => { u with sink := (u.sink.leave? now).getD u.sink }
  | .finish ok now =>
    match u.sink.finish? ok now with
    | some sink =>
      { u with sink, log := u.log ++ (u.sink.batcher.call?.map fun call => ⟨call, ok⟩).toList }
    | none => u
  | .stop => { u with stops := u.stops ++ [some .closing] }
  | .goOn call now =>
    match u.stops[call]? with
    | some (some phase) =>
      match u.sink.stop? now phase with
      | some (sink, phase?) => { u with sink, stops := u.stops.set call phase? }
      | none => u
    | _ => u

def after (u : History) (events : List Event) : History := events.foldl next u

/-- The batches with which the destination was called, the first one first. -/
def batches (u : History) : List (List Message) :=
  u.log.filterMap (·.call.batch?) ++ u.sink.batcher.sent

end History

variable {b b' : Batched}

/-! ## The steps of a call that stops the sink -/

/-- What the calls that stop a sink look at. -/
def gate (b : Batched) (stops : List (Option Stopping)) : Gate :=
  ⟨b.queue, b.started, b.cancelled, b.quiet, stops⟩

theorem passes_of_drain {now : Nat} {phase : Stopping} {next : Option Stopping}
    (stops : List (Option Stopping)) (hne : phase ≠ .joining)
    (h : drain { b with queue := phase.closes b.queue } now = (b', next)) :
    ∃ queue cancelled, b' = { b with queue, cancelled } ∧
      (b.gate stops).Passes phase queue cancelled next := by
  unfold drain at h
  split at h
  · rename_i hd
    cases h
    exact ⟨_, _, rfl, .waits hne hd.1 hd.2 _⟩
  · rename_i hd
    cases h
    refine ⟨_, true, rfl, .cancels hne fun hs => ?_⟩
    exact Nat.eq_zero_of_not_pos fun hl => hd ⟨hs, hl⟩

theorem passes_of_stop? {now : Nat} {phase : Stopping} {next : Option Stopping}
    (stops : List (Option Stopping)) (h : b.stop? now phase = some (b', next)) :
    ∃ queue cancelled, b' = { b with queue, cancelled } ∧
      (b.gate stops).Passes phase queue cancelled next := by
  cases phase with
  | closing => exact passes_of_drain stops (by simp) (Option.some.inj h)
  | draining time =>
    simp only [stop?] at h
    split at h
    · exact passes_of_drain stops (by simp) (Option.some.inj h)
    · cases h
  | joining =>
    simp only [stop?] at h
    split at h
    · rename_i hq
      cases h
      exact ⟨_, _, rfl, .returns hq⟩
    · cases h

namespace History

variable {u : History}

def gate (u : History) : Gate := u.sink.gate u.stops

theorem goOn_cases (u : History) (call now : Nat) :
    u.next (.goOn call now) = u ∨ ∃ phase queue cancelled next, some phase ∈ u.stops ∧
      u.gate.Passes phase queue cancelled next ∧
      u.next (.goOn call now) = { u with
        sink := { u.sink with queue, cancelled }
        stops := u.stops.set call next } := by
  simp only [History.next]
  split
  · rename_i phase hphase
    split
    · rename_i sink next hstop
      obtain ⟨queue, cancelled, rfl, hp⟩ := passes_of_stop? u.stops hstop
      exact Or.inr ⟨phase, queue, cancelled, next, List.mem_of_getElem? hphase, hp, rfl⟩
    · exact Or.inl rfl
  · exact Or.inl rfl

theorem quiet_of_collecting {buffer : Buffer Message} (h : u.sink.batcher = .collecting buffer) :
    u.gate.quiet = false := by
  show u.sink.quiet = false
  rw [quiet, h]

theorem quiet_of_call {call : Call} (h : u.sink.batcher.call? = some call) :
    u.gate.quiet = false := by
  show u.sink.quiet = false
  unfold quiet
  split
  · rename_i hb
    rw [hb] at h
    cases h
  · rename_i hb
    rw [hb] at h
    cases h
  · rfl

/-- A batcher that takes a step has not ended. -/
theorem moves_next (u : History) (e : Event) (he : e ≠ .stop) : u.gate.Moves (u.next e).gate := by
  cases e with
  | start =>
    cases hs : u.sink.started with
    | true =>
      have heq : u.next .start = u := by simp [next, Batched.start, hs]
      rw [heq]
      exact .same
    | false =>
      have hstart : u.sink.start = { u.sink with started := true, batcher := u.sink.fresh } := by
        simp [Batched.start, hs]
      rw [History.next, hstart]
      exact .start hs _
  | produce p => exact .produce p
  | take now =>
    cases ht : u.sink.take? now with
    | none =>
      simp only [History.next, ht, Option.getD_none]
      exact .same
    | some b' =>
      simp only [History.next, ht, Option.getD_some]
      obtain ⟨buffer, m, queue, -, hq, hc, ⟨-, rfl⟩ | rfl⟩ := take?_cases ht
      · exact .take hc hq _
      · exact .take hc hq _
  | flush now =>
    rcases u.sink.flush?_cases now with heq | ⟨buffer, hb, -, heq⟩
    · simp only [History.next, heq, Option.getD_none]
      exact .same
    · simp only [History.next, heq, Option.getD_some]
      exact .work (quiet_of_collecting hb) _
  | leave now =>
    rcases u.sink.leave?_cases now with heq | ⟨buffer, hb, ⟨-, heq⟩ | ⟨-, heq⟩⟩
    · simp only [History.next, heq, Option.getD_none]
      exact .same
    · simp only [History.next, heq, Option.getD_some]
      exact .work (quiet_of_collecting hb) _
    · simp only [History.next, heq, Option.getD_some]
      exact .work (quiet_of_collecting hb) _
  | finish ok now =>
    cases hf : u.sink.finish? ok now with
    | none =>
      simp only [History.next, hf]
      exact .same
    | some b' =>
      obtain ⟨call, ha⟩ := answers_of_finish? hf
      simp only [History.next, hf]
      rw [ha.same]
      exact .work (quiet_of_call ha.asked) _
  | stop => exact absurd rfl he
  | goOn call now =>
    rcases goOn_cases u call now with heq | ⟨phase, queue, cancelled, next, hmem, hp, heq⟩
    · rw [heq]
      exact .same
    · rw [heq]
      exact .goOn call hmem hp

theorem follows : Gate.Follows gate next .start .stop where
  moves := moves_next
  starts := fun u => by
    cases hs : u.sink.started with
    | true => simp [gate, Batched.gate, next, Batched.start, hs]
    | false => simp [gate, Batched.gate, next, Batched.start, hs]
  stops := fun u => rfl

/-! ## One step -/

/-- What holds of the messages of a sink in use. -/
structure Sound (u : History) (limit : Nat) : Prop where
  size : u.sink.batchSize = limit
  pos : 0 < limit
  flow : u.accepted = u.batches.flatten ++ (u.sink.batcher.held ++ u.sink.queue.items)
  sent : u.log.map Exchange.call ++ u.sink.batcher.left.map .one = u.log.flatMap Exchange.calls
  counted : u.sink.published + u.sink.dropped + u.sink.batcher.left.length +
    u.sink.batcher.sent.flatten.length = u.batches.flatten.length
  observed : u.sink.sizes = u.batches.map List.length
  bounded : ∀ batch ∈ u.batches, batch ≠ [] ∧ batch.length ≤ limit
  roomy : ∀ buffer, u.sink.batcher = .collecting buffer → Roomy limit buffer
  resting : u.sink.started = false → u.sink.batcher = .absent

variable {limit : Nat}

theorem sound_create (s : Settings.Output) : (create s).Sound (max s.batchSize 1) where
  size := rfl
  pos := Nat.lt_of_lt_of_le Nat.zero_lt_one (Nat.le_max_right _ _)
  flow := rfl
  sent := rfl
  counted := rfl
  observed := rfl
  bounded := fun batch hb => by cases hb
  roomy := fun buffer hb => by cases hb
  resting := fun _ => rfl

/-- Only a sink that was started has a batcher at work. -/
theorem Sound.started (h : u.Sound limit) (hb : u.sink.batcher ≠ .absent) :
    u.sink.started = true := by
  by_contra hs
  exact hb (h.resting (by simpa using hs))

/-- A step that moves no message. -/
theorem Sound.still (h : u.Sound limit) {queue : Queue} {started cancelled : Bool}
    {batcher : Batcher} (stops : List (Option Stopping))
    (items : queue.items = u.sink.queue.items) (held : batcher.held = u.sink.batcher.held)
    (sent : batcher.sent = u.sink.batcher.sent) (left : batcher.left = u.sink.batcher.left)
    (roomy : ∀ buffer, batcher = .collecting buffer → Roomy limit buffer)
    (resting : started = false → batcher = .absent) :
    Sound { u with sink := { u.sink with queue, started, cancelled, batcher }, stops } limit := by
  have hbatches : batches { u with
      sink := { u.sink with queue, started, cancelled, batcher }, stops } = u.batches := by
    rw [batches, batches, sent]
  refine ⟨h.size, h.pos, ?_, ?_, ?_, ?_, ?_, roomy, resting⟩
  · rw [hbatches, held, items]
    exact h.flow
  · rw [left]
    exact h.sent
  · rw [hbatches, left, sent]
    exact h.counted
  · rw [hbatches]
    exact h.observed
  · rw [hbatches]
    exact h.bounded

theorem Sound.start (h : u.Sound limit) : (u.next .start).Sound limit := by
  cases hs : u.sink.started with
  | true =>
    have heq : u.next .start = u := by simp [next, Batched.start, hs]
    rw [heq]
    exact h
  | false =>
    have hb := h.resting hs
    have heq : u.next .start = { u with
        sink := { u.sink with started := true, batcher := u.sink.fresh } } := by
      simp [next, Batched.start, hs]
    rw [heq]
    refine h.still u.stops rfl (hb ▸ rfl) (hb ▸ rfl) (hb ▸ rfl) (fun buffer hf => ?_)
      fun hf => by cases hf
    cases hf
    rw [h.size]
    exact roomy_empty h.pos _

theorem Sound.produce (h : u.Sound limit) (p : Production) :
    (u.next (.produce p)).Sound limit where
  size := h.size
  pos := h.pos
  flow := by
    show u.accepted ++ _ = u.batches.flatten ++ (u.sink.batcher.held ++ (u.sink.queue.produce p).items)
    rw [h.flow, Queue.items_produce]
    simp only [List.append_assoc]
  sent := h.sent
  counted := h.counted
  observed := h.observed
  bounded := h.bounded
  roomy := h.roomy
  resting := h.resting

/-- The batcher sends what is in its buffer, perhaps with a message that it has just taken. -/
theorem Sound.send (h : u.Sound limit) {buffer : Buffer Message} {queue : Queue}
    {batch : List Message} (last : Bool) (now : Nat) (hb : u.sink.batcher = .collecting buffer)
    (items : buffer.items ++ u.sink.queue.items = batch ++ queue.items) (pos : batch ≠ [])
    (le : batch.length ≤ limit) :
    Sound { u with sink := { u.sink with queue }.send batch last now } limit := by
  have hbefore : u.batches = u.log.filterMap (·.call.batch?) := by
    simp [batches, Batcher.sent, hb]
  have hafter : batches { u with sink := { u.sink with queue }.send batch last now } =
      u.batches ++ [batch] := by
    rw [hbefore]
    rfl
  have hflow := h.flow
  have hsent := h.sent
  have hcounted := h.counted
  simp only [hb, Batcher.held, Batcher.left, Batcher.sent, items] at hflow hsent hcounted
  refine ⟨h.size, h.pos, ?_, hsent, ?_, ?_, ?_, (fun buffer' hb' => by cases hb'), fun hs => ?_⟩
  · rw [hafter]
    simpa [Batched.send, Batcher.held] using hflow
  · rw [hafter]
    simp only [Batched.send, Batcher.left, Batcher.sent, List.flatten_append, List.flatten_nil,
      List.length_append, List.length_nil] at hcounted ⊢
    omega
  · rw [hafter]
    simp [Batched.send, h.observed]
  · rw [hafter]
    intro batch' hmem
    rcases List.mem_append.mp hmem with hmem | hmem
    · exact h.bounded batch' hmem
    · rw [List.mem_singleton.mp hmem]
      exact ⟨pos, le⟩
  · have hstarted := h.started (by simp [hb])
    rw [show u.sink.started = false from hs] at hstarted
    cases hstarted

theorem Sound.take (h : u.Sound limit) (now : Nat) : (u.next (.take now)).Sound limit := by
  cases ht : u.sink.take? now with
  | none =>
    simp only [History.next, ht, Option.getD_none]
    exact h
  | some b' =>
    obtain ⟨buffer, m, queue, hb, hq, -, hcases⟩ := take?_cases ht
    have hroomy := h.roomy buffer hb
    have hitems : buffer.items ++ u.sink.queue.items = (buffer.push now m).items ++ queue.items := by
      rw [Queue.items_take hq]
      simp
    simp only [History.next, ht, Option.getD_some]
    rcases hcases with ⟨hnone, rfl⟩ | rfl
    · have hbatches : batches { u with
          sink := { u.sink with queue, batcher := .collecting (buffer.push now m) } } =
          u.batches := by
        simp [batches, Batcher.sent, hb]
      refine ⟨h.size, h.pos, ?_, ?_, ?_, ?_, ?_, fun buffer' hb' => ?_, fun hs => ?_⟩
      · rw [hbatches, h.flow, hb]
        exact congrArg (u.batches.flatten ++ ·) hitems
      · simpa [hb, Batcher.left] using h.sent
      · rw [hbatches]
        simpa [hb, Batcher.left, Batcher.sent] using h.counted
      · rw [hbatches]
        exact h.observed
      · rw [hbatches]
        exact h.bounded
      · cases hb'
        exact hroomy.push now m hnone
      · have hstarted := h.started (by simp [hb])
        rw [show u.sink.started = false from hs] at hstarted
        cases hstarted
    · have hlt := hroomy.lt
      refine h.send false now hb hitems (by simp) ?_
      rw [Buffer.items_push, List.length_append, List.length_singleton]
      omega

theorem Sound.flush (h : u.Sound limit) (now : Nat) : (u.next (.flush now)).Sound limit := by
  rcases u.sink.flush?_cases now with heq | ⟨buffer, hb, hdue, heq⟩
  · simp only [History.next, heq, Option.getD_none]
    exact h
  · have hroomy := h.roomy buffer hb
    simp only [History.next, heq, Option.getD_some]
    exact h.send false now hb rfl (hroomy.ne_nil hdue) (Nat.le_of_lt hroomy.lt)

theorem Sound.leave (h : u.Sound limit) (now : Nat) : (u.next (.leave now)).Sound limit := by
  rcases u.sink.leave?_cases now with heq | ⟨buffer, hb, ⟨hnil, heq⟩ | ⟨hne, heq⟩⟩
  · simp only [History.next, heq, Option.getD_none]
    exact h
  · have hstarted := h.started (by simp [hb])
    simp only [History.next, heq, Option.getD_some]
    refine h.still u.stops rfl ?_ (hb ▸ rfl) (hb ▸ rfl) (fun buffer' hb' => by cases hb')
      fun hs => ?_
    · rw [hb]
      exact hnil.symm
    · rw [hstarted] at hs
      cases hs
  · have hroomy := h.roomy buffer hb
    simp only [History.next, heq, Option.getD_some]
    exact h.send true now hb rfl hne (Nat.le_of_lt hroomy.lt)

theorem Sound.finish (h : u.Sound limit) (ok : Bool) (now : Nat) :
    (u.next (.finish ok now)).Sound limit := by
  cases hf : u.sink.finish? ok now with
  | none =>
    simp only [History.next, hf]
    exact h
  | some b' =>
    obtain ⟨call, ha⟩ := answers_of_finish? hf
    have heq : u.next (.finish ok now) = { u with sink := b', log := u.log ++ [⟨call, ok⟩] } := by
      simp [History.next, hf, ha.asked]
    have hbatches : batches { u with sink := b', log := u.log ++ [⟨call, ok⟩] } = u.batches := by
      cases hcall : call.batch? <;> simp [batches, ha.sent, ha.sent', hcall]
    have hqueue : b'.queue = u.sink.queue := by rw [ha.same]
    have hsizes : b'.sizes = u.sink.sizes := by rw [ha.same]
    have hsize : b'.batchSize = u.sink.batchSize := by rw [ha.same]
    have hstarted : b'.started = u.sink.started := by rw [ha.same]
    have hflow := h.flow
    have hcounted := h.counted
    rw [ha.held] at hflow
    rw [heq]
    refine ⟨hsize.trans h.size, h.pos, ?_, ?_, ?_, ?_, ?_, fun buffer hb => ?_, fun hs => ?_⟩
    · rw [hbatches, ha.held', hqueue]
      exact hflow
    · have hlog : (u.log ++ [Exchange.mk call ok]).map Exchange.call =
          u.log.map Exchange.call ++ [call] := List.map_append
      rw [List.flatMap_append, ← h.sent, hlog, List.append_assoc, List.append_assoc]
      simpa using ha.left
    · rw [hbatches, ha.sent']
      have := ha.counted
      simp only [List.flatten_nil, List.length_nil]
      omega
    · rw [hbatches, hsizes]
      exact h.observed
    · rw [hbatches]
      exact h.bounded
    · rw [ha.fresh buffer hb, h.size]
      exact roomy_empty h.pos _
    · have hasked := ha.asked
      rw [h.resting (hstarted.symm.trans hs)] at hasked
      cases hasked

theorem Sound.goOn (h : u.Sound limit) (call now : Nat) :
    (u.next (.goOn call now)).Sound limit := by
  rcases goOn_cases u call now with heq | ⟨phase, queue, cancelled, next, -, hp, heq⟩
  · rw [heq]
    exact h
  · have hitems : queue.items = u.sink.queue.items := by
      rw [hp.queue_eq]
      exact Gate.items_closes phase u.sink.queue
    rw [heq]
    exact h.still _ hitems rfl rfl rfl h.roomy h.resting

theorem Sound.next (h : u.Sound limit) (e : Event) : (u.next e).Sound limit := by
  cases e with
  | start => exact h.start
  | produce p => exact h.produce p
  | take now => exact h.take now
  | flush now => exact h.flush now
  | leave now => exact h.leave now
  | finish ok now => exact h.finish ok now
  | stop => exact h.still _ rfl rfl rfl rfl h.roomy h.resting
  | goOn call now => exact h.goOn call now

theorem Sound.after (h : u.Sound limit) (events : List Event) : (u.after events).Sound limit := by
  induction events generalizing u with
  | nil => exact h
  | cons e rest ih => exact ih (h.next e)

/-! ## The end -/

/-- A batcher that has ended, or that never was, has nothing to do. -/
theorem kept_of_over (h : u.gate.Over) (e : Event) :
    (u.next e).accepted = u.accepted ∧ (u.next e).log = u.log ∧ (u.next e).batches = u.batches := by
  have hstarted : u.sink.started = true := h.started
  have hquiet : u.sink.batcher = .absent ∨ u.sink.batcher = .ended := by
    have hq : u.sink.quiet = true := h.quiet
    unfold quiet at hq
    split at hq
    · exact Or.inl ‹_›
    · exact Or.inr ‹_›
    · cases hq
  cases e with
  | start =>
    have hsame : u.sink.start = u.sink := by rw [Batched.start, if_pos hstarted]
    simp [History.next, hsame]
  | produce p =>
    have hnone : u.sink.queue.accepts? p = none := h.queue.accepts? p
    simp [History.next, hnone, batches]
  | take now => rcases hquiet with hb | hb <;> simp [History.next, take?, hb]
  | flush now => rcases hquiet with hb | hb <;> simp [History.next, flush?, hb]
  | leave now => rcases hquiet with hb | hb <;> simp [History.next, leave?, hb]
  | finish ok now => rcases hquiet with hb | hb <;> simp [History.next, finish?, hb]
  | stop => exact ⟨rfl, rfl, rfl⟩
  | goOn call now =>
    rcases goOn_cases u call now with heq | ⟨phase, queue, cancelled, next, -, -, heq⟩ <;>
      simp [heq, batches]

theorem kept_after (h : u.gate.Over) (events : List Event) :
    (u.after events).accepted = u.accepted ∧ (u.after events).log = u.log ∧
      (u.after events).batches = u.batches := by
  induction events generalizing u with
  | nil => exact ⟨rfl, rfl, rfl⟩
  | cons e rest ih =>
    obtain ⟨ha, hl, hb⟩ := kept_of_over h e
    have hover : (u.next e).gate.Over := by
      by_cases he : e = .stop
      · rw [he]
        exact ⟨h.started, h.cancelled, h.quiet, h.queue⟩
      · exact h.next (moves_next u e he)
    obtain ⟨ha', hl', hb'⟩ := ih hover
    exact ⟨ha'.trans ha, hl'.trans hl, hb'.trans hb⟩

theorem foldl_map_length (batches : List (List Message)) (n : Nat) :
    (batches.map List.length).foldl (· + ·) n = n + batches.flatten.length := by
  induction batches generalizing n with
  | nil => rfl
  | cons batch rest ih =>
    simp only [List.map_cons, List.foldl_cons, List.flatten_cons, List.length_append, ih]
    omega

/-- What has become of the messages of a sink that was stopped. -/
structure Delivered (u : History) : Prop where
  flushed : u.batches.flatten = u.accepted
  sent : u.log.map Exchange.call = u.log.flatMap Exchange.calls
  counted : u.sink.published + u.sink.dropped = u.accepted.length
  /-- No producer waits any more. -/
  served : u.sink.queue.granted = [] ∧ u.sink.queue.waiting = []
  final : ∀ more, (u.after more).accepted = u.accepted ∧ (u.after more).log = u.log ∧
    (u.after more).batches = u.batches

theorem Sound.delivered (h : u.Sound limit) (hg : u.gate.Sound) (hr : none ∈ u.stops) :
    u.Delivered := by
  have hover := hg.over hr
  have hquiet : u.sink.quiet = true := hover.quiet
  have hitems : u.sink.queue.items = [] := hover.queue.items
  obtain ⟨hheld, hsent, hleft⟩ : u.sink.batcher.held = [] ∧ u.sink.batcher.sent = [] ∧
      u.sink.batcher.left = [] := by
    unfold quiet at hquiet
    split at hquiet
    · rename_i hb
      exact ⟨hb ▸ rfl, hb ▸ rfl, hb ▸ rfl⟩
    · rename_i hb
      exact ⟨hb ▸ rfl, hb ▸ rfl, hb ▸ rfl⟩
    · cases hquiet
  have hflow := h.flow
  have hlog := h.sent
  have hcounted := h.counted
  rw [hheld, hitems, List.append_nil, List.append_nil] at hflow
  rw [hleft, List.map_nil, List.append_nil] at hlog
  rw [hleft, hsent, ← hflow] at hcounted
  exact ⟨hflow.symm, hlog, hcounted, ⟨hover.queue.granted, hover.queue.waiting hg.queue⟩,
    kept_after hover⟩

end History

/-! ## The sink in a system -/

open Engine (Outlet Destination)

theorem measure_batched (b : Batched) (name : String) (destination : Destination) (delay : Nat)
    (metrics : Metrics) :
    let measured := (Outlet.batched name b destination delay).measure metrics
    (measured.value .published name + measured.value .dropped name) % UInt64.size =
        (metrics.value .published name + metrics.value .dropped name +
          (b.published + b.dropped : Nat)) % UInt64.size ∧
      measured.observations name = metrics.observations name ++ b.sizes := by
  intro measured
  let once := if b.published = 0 then metrics else metrics.add .published name b.published
  let twice := if b.dropped = 0 then once else once.add .dropped name b.dropped
  have hvalue (metric : Metric) : measured.value metric name = twice.value metric name :=
    Metrics.value_foldl_observe twice metric name name b.sizes
  have hsizes : measured.observations name = twice.observations name ++ b.sizes :=
    Metrics.observations_foldl_observe twice name b.sizes
  refine ⟨?_, ?_⟩
  · rw [hvalue .published, hvalue .dropped]
    exact metrics.value_counted name b.published b.dropped
  · have honce : once.observations name = metrics.observations name := by
      simp only [once]
      split <;> rfl
    have htwice : twice.observations name = once.observations name := by
      simp only [twice]
      split <;> rfl
    rw [hsizes, htwice, honce]

/-- A batched sink loses no message and sends none in two batches, in whatever order its producers,
its batcher, the destination and the calls that stop it take their steps. Once a call that stops it
has returned, everything that was accepted was sent and counted. -/
theorem sent_once (s : Settings.Output) (events : List Event)
    (h : ComesFirst .start .stop events) :
    let u := (History.create s).after events
    u.accepted = u.batches.flatten ++ (u.sink.batcher.held ++ u.sink.queue.items) ∧
    (∀ batch ∈ u.batches, 1 ≤ batch.length ∧ batch.length ≤ max s.batchSize 1) ∧
    u.log.map Exchange.call ++ u.sink.batcher.left.map .one = u.log.flatMap Exchange.calls ∧
    (none ∈ u.stops → u.Delivered ∧ ∀ name destination delay metrics,
      let measured := (Outlet.batched name u.sink destination delay).measure metrics
      (measured.value .published name + measured.value .dropped name) % UInt64.size =
          (metrics.value .published name + metrics.value .dropped name + u.accepted.length) %
            UInt64.size ∧
        (measured.observations name).foldl (· + ·) 0 =
          (metrics.observations name).foldl (· + ·) 0 + u.accepted.length) := by
  intro u
  have hg : u.gate.Sound :=
    History.follows.sound_foldl (u := History.create s) (by simp)
      (Gate.sound_create s.queueCapacity true) h
  have hs : u.Sound (max s.batchSize 1) := (History.sound_create s).after events
  refine ⟨hs.flow, fun batch hb => ?_, hs.sent, fun hr => ?_⟩
  · obtain ⟨hne, hle⟩ := hs.bounded batch hb
    exact ⟨List.length_pos_iff.mpr hne, hle⟩
  · have hdelivered := hs.delivered hg hr
    refine ⟨hdelivered, fun name destination delay metrics => ?_⟩
    obtain ⟨hcounters, hobserved⟩ := measure_batched u.sink name destination delay metrics
    refine ⟨?_, ?_⟩
    · rw [← hdelivered.counted]
      exact hcounters
    · rw [hobserved, hs.observed, List.foldl_append, History.foldl_map_length, hdelivered.flushed]

/-- A sink with one place and batches of two messages. -/
def paired : Settings.Output := { Settings.Output.standard with queueCapacity := 1, batchSize := 2 }

def numbered (n : UInt8) : Message := ⟨none, [n]⟩

/-- The first batch is refused, and so is one of its messages. Meanwhile the sink is stopped, with
the third message in the queue and a producer that waits with the fourth. The third one is sent when
it has waited long enough, the fourth one when the batcher ends. -/
def interrupted : List Event :=
  [.start, .produce (.put (numbered 1)), .take 0, .produce (.put (numbered 2)), .take 0,
    .produce (.put (numbered 3)), .produce (.put (numbered 4)), .stop, .goOn 0 0, .finish false 0,
    .finish true 0, .finish false 0, .take 0, .produce (.enter 0), .flush 60000, .finish true 60000,
    .take 60000, .goOn 0 60000, .leave 60000, .finish true 60000, .goOn 0 60000]

theorem sent_once_of_interrupted :
    let u := (History.create paired).after interrupted
    ComesFirst .start .stop interrupted ∧ none ∈ u.stops ∧
      u.accepted = [numbered 1, numbered 2, numbered 3, numbered 4] ∧
      u.log = [⟨.batch [numbered 1, numbered 2], false⟩, ⟨.one (numbered 1), true⟩,
        ⟨.one (numbered 2), false⟩, ⟨.batch [numbered 3], true⟩, ⟨.batch [numbered 4], true⟩] ∧
      u.sink.published = 3 ∧ u.sink.dropped = 1 ∧ u.Delivered := by
  have hfirst : ComesFirst .start .stop interrupted := by decide
  obtain ⟨-, -, -, hend⟩ := sent_once paired interrupted hfirst
  have hr : none ∈ ((History.create paired).after interrupted).stops := by decide
  exact ⟨hfirst, hr, by decide, by decide, by decide, by decide, (hend hr).1⟩

end Batched

end ChangeFeed.Sink
