import ChangeFeed.Engine.Outlet
import ChangeFeed.Proofs.Metrics.Values
import ChangeFeed.Proofs.Sink.Queues
import ChangeFeed.Proofs.Sink.Stops

/-!
# What a direct sink delivers

Producers, writers and calls that stop the sink take their steps in any order. A writer receives a
message in one step and calls the destination with it in another, and others may come in between.

* `Direct.Event` lists the steps, and `Direct.History` is a sink with what has happened to it: the
  messages that were accepted, those that writers received, and those with which the destination was
  called.
* `Direct.History.Sound` is kept by every step. The accepted messages are the received ones and, behind
  them, those in the queue; the received ones are the written ones and those that writers hold.
* `Direct.written_once`: once a call that stops the sink has returned, everything that was accepted was
  written once and was counted; nothing happens any more. `written_out_of_turn`: several writers need
  not write in the order in which the messages were accepted.
-/

namespace ChangeFeed.Sink

/-- The message that a writer has received and not written yet. -/
def Worker.held? : Worker → Option Message
  | .holding m => some m
  | _ => none

/-- The message that a writer is busy with. -/
def Worker.message? : Worker → Option Message
  | .writing m _ => some m
  | _ => none

def Worker.isBusy (worker : Worker) : Bool := worker.message?.isSome

namespace Direct

/-- What happens to a direct sink. -/
inductive Event where
  | start
  | produce (p : Production)
  /-- A writer receives a message. -/
  | take (worker : Nat)
  /-- A writer calls the destination with the message that it received. -/
  | call (worker now : Nat)
  /-- The destination answers a writer. -/
  | finish (worker : Nat) (ok : Bool)
  | leave (worker : Nat)
  /-- A call that stops the sink is made. -/
  | stop
  /-- A call that stops the sink goes on, if it need not wait. -/
  | goOn (call now : Nat)
  deriving DecidableEq, Inhabited

/-- A sink with what has happened to it. -/
structure History where
  sink : Direct
  /-- The messages that were accepted, the first one first. -/
  accepted : List Message
  /-- The messages that writers received, the first one first. -/
  received : List Message
  /-- The messages with which the destination was called, the first one first. -/
  written : List Message
  /-- The phases of the calls that stop the sink; a call without one has returned. -/
  stops : List (Option Stopping)
  deriving DecidableEq, Inhabited

namespace History

def create (s : Settings.Output) : History := ⟨.create s, [], [], [], []⟩

def next (u : History) : Event → History
  | .start => { u with sink := u.sink.start }
  | .produce p =>
    { u with
      sink := { u.sink with queue := u.sink.queue.produce p }
      accepted := u.accepted ++ (u.sink.queue.accepts? p).toList }
  | .take i =>
    match u.sink.take? i with
    | some sink =>
      { u with sink, received := u.received ++ (sink.workers[i]?.bind Worker.held?).toList }
    | none => u
  | .call i now =>
    match u.sink.call? i now with
    | some sink =>
      { u with sink, written := u.written ++ (sink.workers[i]?.bind Worker.message?).toList }
    | none => u
  | .finish i ok => { u with sink := (u.sink.finish? i ok).getD u.sink }
  | .leave i => { u with sink := (u.sink.leave? i).getD u.sink }
  | .stop => { u with stops := u.stops ++ [some .closing] }
  | .goOn call now =>
    match u.stops[call]? with
    | some (some phase) =>
      match u.sink.stop? now phase with
      | some (sink, phase?) => { u with sink, stops := u.stops.set call phase? }
      | none => u
    | _ => u

def after (u : History) (events : List Event) : History := events.foldl next u

theorem after_append (u : History) (events more : List Event) :
    u.after (events ++ more) = (u.after events).after more :=
  List.foldl_append

end History

variable {d d' : Direct}

/-! ## The steps of a writer -/

/-- The messages that writers have received and not written yet. -/
def held (d : Direct) : List Message := d.workers.filterMap Worker.held?

/-- The number of writers that the destination has not answered. -/
def busy (d : Direct) : Nat := d.workers.countP Worker.isBusy

theorem take?_cases {i : Nat} (h : d.take? i = some d') :
    ∃ m queue, d.queue.take? = some (m, queue) ∧ d.workers[i]? = some .idle ∧
      d.cancelled = false ∧ d' = { d with queue, workers := d.workers.set i (.holding m) } := by
  unfold take? at h
  split at h
  · rename_i hw
    obtain ⟨⟨m, queue⟩, ht, rfl⟩ := Option.map_eq_some_iff.mp h
    exact ⟨m, queue, ht, hw.1, by simpa using hw.2, rfl⟩
  · cases h

theorem call?_cases (d : Direct) (i now : Nat) :
    d.call? i now = none ∨ ∃ m, d.workers[i]? = some (.holding m) ∧
      d.call? i now = some { d with workers := d.workers.set i (.writing m now) } := by
  unfold call?
  split
  · rename_i m hw
    exact Or.inr ⟨m, hw, rfl⟩
  · exact Or.inl rfl

theorem finish?_cases (d : Direct) (i : Nat) (ok : Bool) :
    d.finish? i ok = none ∨ ∃ m since, d.workers[i]? = some (.writing m since) ∧
      d.finish? i ok = some { d with
        workers := d.workers.set i .idle
        published := d.published + if ok then 1 else 0
        dropped := d.dropped + if ok then 0 else 1 } := by
  unfold finish?
  split
  · rename_i m since hw
    exact Or.inr ⟨m, since, hw, rfl⟩
  · exact Or.inl rfl

theorem leave?_cases (d : Direct) (i : Nat) :
    d.leave? i = none ∨ d.workers[i]? = some .idle ∧ d.cancelled = true ∧
      d.leave? i = some { d with workers := d.workers.set i .ended } := by
  unfold leave?
  split
  · rename_i hw
    exact Or.inr ⟨hw.1, hw.2, rfl⟩
  · exact Or.inl rfl

/-- A step of one writer leaves those before it and behind it as they are. -/
theorem split_set {workers : List Worker} {i : Nat} {worker : Worker}
    (h : workers[i]? = some worker) (worker' : Worker) :
    ∃ before behind, workers = before ++ worker :: behind ∧
      workers.set i worker' = before ++ worker' :: behind := by
  obtain ⟨hi, rfl⟩ := List.getElem?_eq_some_iff.mp h
  refine ⟨workers.take i, workers.drop (i + 1), ?_, ?_⟩
  · rw [List.getElem_cons_drop, List.take_append_drop]
  · rw [List.set_eq_take_append_cons_drop, if_pos hi]

/-- Setting one writer changes the number of busy ones by that one. -/
theorem countP_set {workers : List Worker} {i : Nat} {worker worker' : Worker}
    (h : workers[i]? = some worker) :
    (workers.set i worker').countP Worker.isBusy + worker.isBusy.toNat =
      workers.countP Worker.isBusy + worker'.isBusy.toNat := by
  obtain ⟨before, behind, hold, hnew⟩ := split_set h worker'
  rw [hnew, hold]
  simp only [List.countP_append, List.countP_cons]
  cases worker.isBusy <;> cases worker'.isBusy <;> simp <;> omega

/-- Setting one writer changes what the writers hold at one place, and that is all that they hold if
there is no other writer. -/
theorem filterMap_set {workers : List Worker} {i : Nat} {worker : Worker}
    (h : workers[i]? = some worker) (worker' : Worker) :
    ∃ before behind : List Message,
      workers.filterMap Worker.held? = before ++ worker.held?.toList ++ behind ∧
      (workers.set i worker').filterMap Worker.held? = before ++ worker'.held?.toList ++ behind ∧
      (workers.length ≤ 1 → before = [] ∧ behind = []) := by
  obtain ⟨before, behind, hold, hnew⟩ := split_set h worker'
  refine ⟨before.filterMap Worker.held?, behind.filterMap Worker.held?, ?_, ?_, fun hlen => ?_⟩
  · rw [hold, List.filterMap_append, List.filterMap_cons]
    cases worker.held? <;> simp
  · rw [hnew, List.filterMap_append, List.filterMap_cons]
    cases worker'.held? <;> simp
  · rw [hold, List.length_append, List.length_cons] at hlen
    have hbefore : before = [] := List.eq_nil_of_length_eq_zero (by omega)
    have hbehind : behind = [] := List.eq_nil_of_length_eq_zero (by omega)
    rw [hbefore, hbehind]
    exact ⟨rfl, rfl⟩

/-- A sink whose writers have ended has none to take a step. -/
theorem not_quiet_of_worker {i : Nat} {worker : Worker} (h : d.workers[i]? = some worker)
    (hw : worker ≠ .ended) : d.quiet = false := by
  refine Bool.eq_false_iff.mpr fun hq => ?_
  have hall := List.all_eq_true.mp hq worker (List.mem_of_getElem? h)
  exact hw (by simpa using hall)

/-- A writer does one thing at a time. -/
theorem held_busy_le (d : Direct) : d.held.length + d.busy ≤ d.workers.length := by
  simp only [held, busy]
  induction d.workers with
  | nil => exact Nat.le_refl 0
  | cons worker workers ih =>
    cases worker <;>
      simp [List.filterMap_cons, List.countP_cons, Worker.held?, Worker.isBusy, Worker.message?] <;>
      omega

theorem ended_of_quiet (h : d.quiet = true) {worker : Worker} (hmem : worker ∈ d.workers) :
    worker = .ended := by
  simpa using List.all_eq_true.mp h worker hmem

theorem busy_of_quiet (h : d.quiet = true) : d.busy = 0 := by
  refine List.countP_eq_zero.mpr fun worker hmem => ?_
  simp [ended_of_quiet h hmem, Worker.isBusy, Worker.message?]

theorem held_of_quiet (h : d.quiet = true) : d.held = [] := by
  refine List.filterMap_eq_nil_iff.mpr fun worker hmem => ?_
  rw [ended_of_quiet h hmem]
  rfl

/-! ## The steps of a call that stops the sink -/

/-- What the calls that stop a sink look at. -/
def gate (d : Direct) (stops : List (Option Stopping)) : Gate :=
  ⟨d.queue, d.started, d.cancelled, d.quiet, stops⟩

theorem passes_of_drain {now : Nat} {phase : Stopping} {next : Option Stopping}
    (stops : List (Option Stopping)) (hne : phase ≠ .joining)
    (h : drain { d with queue := phase.closes d.queue } now = (d', next)) :
    ∃ queue cancelled, d' = { d with queue, cancelled } ∧
      (d.gate stops).Passes phase queue cancelled next := by
  unfold drain at h
  split at h
  · rename_i hd
    cases h
    exact ⟨_, _, rfl, .waits hne hd.1 hd.2 _⟩
  · rename_i hd
    cases h
    refine ⟨_, true, rfl, .cancels hne fun hs => ?_⟩
    exact Nat.eq_zero_of_not_pos fun hl => hd ⟨hs, hl⟩

theorem passes_of_stop? {now : Nat} {phase : Stopping} {next : Option Stopping}
    (stops : List (Option Stopping)) (h : d.stop? now phase = some (d', next)) :
    ∃ queue cancelled, d' = { d with queue, cancelled } ∧
      (d.gate stops).Passes phase queue cancelled next := by
  cases phase with
  | closing => exact passes_of_drain stops (by simp) (Option.some.inj h)
  | draining time =>
    simp only [stop?] at h
    split at h
    · exact passes_of_drain stops (by simp) (Option.some.inj h)
    · cases h
  | joining =>
    simp only [stop?] at h
    split at h
    · rename_i hq
      cases h
      exact ⟨_, _, rfl, .returns hq⟩
    · cases h

namespace History

variable {u : History}

/-! ## One step -/

def gate (u : History) : Gate := u.sink.gate u.stops

theorem goOn_cases (u : History) (call now : Nat) :
    u.next (.goOn call now) = u ∨ ∃ phase queue cancelled next, some phase ∈ u.stops ∧
      u.gate.Passes phase queue cancelled next ∧
      u.next (.goOn call now) = { u with
        sink := { u.sink with queue, cancelled }
        stops := u.stops.set call next } := by
  simp only [History.next]
  split
  · rename_i phase hphase
    split
    · rename_i sink next hstop
      obtain ⟨queue, cancelled, rfl, hp⟩ := passes_of_stop? u.stops hstop
      exact Or.inr ⟨phase, queue, cancelled, next, List.mem_of_getElem? hphase, hp, rfl⟩
    · exact Or.inl rfl
  · exact Or.inl rfl

/-- A writer that takes a step has not ended. -/
theorem moves_next (u : History) (e : Event) (he : e ≠ .stop) : u.gate.Moves (u.next e).gate := by
  cases e with
  | start =>
    cases hs : u.sink.started with
    | true =>
      have heq : u.next .start = u := by simp [next, Direct.start, hs]
      rw [heq]
      exact .same
    | false =>
      have hstart : u.sink.start = { u.sink with
          started := true, workers := List.replicate u.sink.size .idle } := by
        simp [Direct.start, hs]
      rw [History.next, hstart]
      exact .start hs _
  | produce p => exact .produce p
  | take i =>
    cases ht : u.sink.take? i with
    | none =>
      have heq : u.next (.take i) = u := by simp [next, ht]
      rw [heq]
      exact .same
    | some d' =>
      obtain ⟨m, queue, hq, -, hc, rfl⟩ := take?_cases ht
      simp only [History.next, ht]
      exact .take hc hq _
  | call i now =>
    rcases u.sink.call?_cases i now with heq | ⟨m, hw, heq⟩
    · simp only [History.next, heq]
      exact .same
    · simp only [History.next, heq]
      exact .work (not_quiet_of_worker hw (by simp)) _
  | finish i ok =>
    rcases u.sink.finish?_cases i ok with heq | ⟨m, since, hw, heq⟩
    · simp only [History.next, heq]
      exact .same
    · simp only [History.next, heq]
      exact .work (not_quiet_of_worker hw (by simp)) _
  | leave i =>
    rcases u.sink.leave?_cases i with heq | ⟨hw, -, heq⟩
    · simp only [History.next, heq]
      exact .same
    · simp only [History.next, heq]
      exact .work (not_quiet_of_worker hw (by simp)) _
  | stop => exact absurd rfl he
  | goOn call now =>
    rcases goOn_cases u call now with heq | ⟨phase, queue, cancelled, next, hmem, hp, heq⟩
    · rw [heq]
      exact .same
    · rw [heq]
      exact .goOn call hmem hp

theorem follows : Gate.Follows gate next .start .stop where
  moves := moves_next
  starts := fun u => by
    cases hs : u.sink.started with
    | true => simp [gate, Direct.gate, next, Direct.start, hs]
    | false => simp [gate, Direct.gate, next, Direct.start, hs]
  stops := fun u => rfl

/-- What holds of the messages of a sink in use, which has the given number of writers. -/
structure Sound (size : Nat) (u : History) : Prop where
  flow : u.accepted = u.received ++ u.sink.queue.items
  taken : (u.written ++ u.sink.held).Perm u.received
  /-- One writer alone writes in the order in which it receives. -/
  inTurn : size = 1 → u.written ++ u.sink.held = u.received
  counted : u.sink.published + u.sink.dropped + u.sink.busy = u.written.length
  size_eq : u.sink.size = size
  crew : u.sink.workers.length ≤ size
  resting : u.sink.started = false → u.sink.workers = []

theorem sound_create (s : Settings.Output) : (create s).Sound (max s.workerCount 1) :=
  ⟨rfl, .refl _, fun _ => rfl, rfl, rfl, Nat.zero_le _, fun _ => rfl⟩

variable {size : Nat}

theorem Sound.start (h : u.Sound size) : (u.next .start).Sound size := by
  cases hs : u.sink.started with
  | true =>
    have heq : u.next .start = u := by simp [next, Direct.start, hs]
    rw [heq]
    exact h
  | false =>
    have hworkers := h.resting hs
    have heq : u.next .start = { u with
        sink := { u.sink with started := true, workers := List.replicate u.sink.size .idle } } := by
      simp [next, Direct.start, hs]
    have hheld : (u.next .start).sink.held = u.sink.held := by
      simp [heq, held, hworkers, List.filterMap_replicate, Worker.held?]
    have hbusy : (u.next .start).sink.busy = u.sink.busy := by
      simp [heq, busy, hworkers, List.countP_replicate, Worker.isBusy, Worker.message?]
    rw [heq] at hheld hbusy ⊢
    refine ⟨h.flow, ?_, fun hone => ?_, ?_, h.size_eq, ?_, fun hf => by cases hf⟩
    · rw [hheld]
      exact h.taken
    · rw [hheld]
      exact h.inTurn hone
    · rw [hbusy]
      exact h.counted
    · exact (List.length_replicate ..).trans_le h.size_eq.le

theorem Sound.produce (h : u.Sound size) (p : Production) : (u.next (.produce p)).Sound size where
  flow := by simp [next, h.flow, Queue.items_produce]
  taken := h.taken
  inTurn := h.inTurn
  counted := h.counted
  size_eq := h.size_eq
  crew := h.crew
  resting := h.resting

/-- Only a sink that was started has a writer. -/
theorem Sound.resting_set (h : u.Sound size) {i : Nat} {worker worker' : Worker}
    (hw : u.sink.workers[i]? = some worker) :
    u.sink.started = false → u.sink.workers.set i worker' = [] := by
  intro hs
  rw [h.resting hs] at hw
  simp at hw

theorem Sound.crew_set (h : u.Sound size) (i : Nat) (worker : Worker) :
    (u.sink.workers.set i worker).length ≤ size := by
  rw [List.length_set]
  exact h.crew

theorem Sound.take (h : u.Sound size) (i : Nat) : (u.next (.take i)).Sound size := by
  cases ht : u.sink.take? i with
  | none =>
    have heq : u.next (.take i) = u := by simp [next, ht]
    rw [heq]
    exact h
  | some d' =>
    obtain ⟨m, queue, hq, hw, hc, rfl⟩ := take?_cases ht
    have hlt : i < u.sink.workers.length := (List.getElem?_eq_some_iff.mp hw).1
    have hmoved : u.next (.take i) = { u with
        sink := { u.sink with queue, workers := u.sink.workers.set i (.holding m) }
        received := u.received ++ [m] } := by
      simp [next, ht, List.getElem?_set_self hlt, Worker.held?]
    have hcount : (u.sink.workers.set i (.holding m)).countP Worker.isBusy + 0 =
        u.sink.workers.countP Worker.isBusy + 0 := countP_set hw
    obtain ⟨before, behind, hold, hnew, halone⟩ := filterMap_set hw (.holding m)
    have htaken := h.taken
    have hinTurn := h.inTurn
    simp only [held, hold, Worker.held?, Option.toList_none, List.append_nil] at htaken hinTurn
    rw [hmoved]
    refine ⟨?_, ?_, fun hone => ?_, ?_, h.size_eq, h.crew_set i _, h.resting_set hw⟩
    · rw [h.flow, Queue.items_take hq]
      simp
    · -- the message joins those that writers hold, at the place of its writer
      calc u.written ++ (u.sink.workers.set i (.holding m)).filterMap Worker.held?
          = u.written ++ before ++ m :: behind := by rw [hnew]; simp [Worker.held?]
        _ |>.Perm (m :: (u.written ++ before ++ behind)) := List.perm_middle
        _ |>.Perm (m :: u.received) := by simpa using htaken
        _ |>.Perm (u.received ++ [m]) := (List.perm_append_singleton ..).symm
    · obtain ⟨rfl, rfl⟩ := halone (hone ▸ h.crew)
      have hall := hinTurn hone
      simp only [held, hnew, Worker.held?, Option.toList_some] at hall ⊢
      simpa using hall
    · have hcounted := h.counted
      simp only [busy] at hcounted ⊢
      omega

theorem Sound.call (h : u.Sound size) (i now : Nat) : (u.next (.call i now)).Sound size := by
  rcases u.sink.call?_cases i now with heq | ⟨m, hw, heq⟩
  · have hsame : u.next (.call i now) = u := by simp [next, heq]
    rw [hsame]
    exact h
  · have hlt : i < u.sink.workers.length := (List.getElem?_eq_some_iff.mp hw).1
    have hmoved : u.next (.call i now) = { u with
        sink := { u.sink with workers := u.sink.workers.set i (.writing m now) }
        written := u.written ++ [m] } := by
      simp [next, heq, List.getElem?_set_self hlt, Worker.message?]
    have hcount : (u.sink.workers.set i (.writing m now)).countP Worker.isBusy + 0 =
        u.sink.workers.countP Worker.isBusy + 1 := countP_set hw
    obtain ⟨before, behind, hold, hnew, halone⟩ := filterMap_set hw (.writing m now)
    have htaken := h.taken
    have hinTurn := h.inTurn
    simp only [held, hold, Worker.held?, Option.toList_some] at htaken hinTurn
    rw [hmoved]
    refine ⟨h.flow, ?_, fun hone => ?_, ?_, h.size_eq, h.crew_set i _, h.resting_set hw⟩
    · calc u.written ++ [m] ++ (u.sink.workers.set i (.writing m now)).filterMap Worker.held?
          = u.written ++ (m :: (before ++ behind)) := by rw [hnew]; simp [Worker.held?]
        _ |>.Perm (u.written ++ (before ++ m :: behind)) := List.perm_middle.symm.append_left _
        _ |>.Perm u.received := by simpa using htaken
    · obtain ⟨rfl, rfl⟩ := halone (hone ▸ h.crew)
      have hall := hinTurn hone
      simp only [held, hnew, Worker.held?, Option.toList_none]
      simpa using hall
    · have hcounted := h.counted
      simp only [busy, List.length_append, List.length_singleton] at hcounted ⊢
      omega

/-- A writer that neither held a message nor holds one now leaves what writers hold as it is. -/
theorem held_set {i : Nat} {worker : Worker} (hw : u.sink.workers[i]? = some worker)
    (hold : worker.held? = none) (worker' : Worker) (hnew : worker'.held? = none) :
    (u.sink.workers.set i worker').filterMap Worker.held? = u.sink.held := by
  obtain ⟨before, behind, heq, heq', -⟩ := filterMap_set hw worker'
  rw [heq', held, heq, hold, hnew]

theorem Sound.finish (h : u.Sound size) (i : Nat) (ok : Bool) : (u.next (.finish i ok)).Sound size := by
  rcases u.sink.finish?_cases i ok with heq | ⟨m, since, hw, heq⟩
  · have hsame : u.next (.finish i ok) = u := by simp [next, heq]
    rw [hsame]
    exact h
  · have hcount : (u.sink.workers.set i .idle).countP Worker.isBusy + 1 =
        u.sink.workers.countP Worker.isBusy + 0 := countP_set hw
    have hheld := held_set hw rfl .idle rfl
    simp only [next, heq, Option.getD_some]
    refine ⟨h.flow, ?_, ?_, ?_, h.size_eq, h.crew_set i _, h.resting_set hw⟩
    · simpa [held, hheld] using h.taken
    · simpa [held, hheld] using h.inTurn
    · have hcounted := h.counted
      simp only [busy] at hcounted ⊢
      cases ok <;> simp only [if_true, Bool.false_eq_true, if_false] <;> omega

theorem Sound.leave (h : u.Sound size) (i : Nat) : (u.next (.leave i)).Sound size := by
  rcases u.sink.leave?_cases i with heq | ⟨hw, hc, heq⟩
  · have hsame : u.next (.leave i) = u := by simp [next, heq]
    rw [hsame]
    exact h
  · have hcount : (u.sink.workers.set i .ended).countP Worker.isBusy + 0 =
        u.sink.workers.countP Worker.isBusy + 0 := countP_set hw
    have hheld := held_set hw rfl .ended rfl
    simp only [next, heq, Option.getD_some]
    refine ⟨h.flow, ?_, ?_, ?_, h.size_eq, h.crew_set i _, h.resting_set hw⟩
    · simpa [held, hheld] using h.taken
    · simpa [held, hheld] using h.inTurn
    · have hcounted := h.counted
      simp only [busy] at hcounted ⊢
      omega

theorem Sound.goOn (h : u.Sound size) (call now : Nat) : (u.next (.goOn call now)).Sound size := by
  rcases goOn_cases u call now with heq | ⟨phase, queue, cancelled, next, -, hp, heq⟩
  · rw [heq]
    exact h
  · have hitems : queue.items = u.sink.queue.items := by
      rw [hp.queue_eq]
      exact Gate.items_closes phase u.sink.queue
    rw [heq]
    exact ⟨h.flow.trans (by rw [hitems]), h.taken, h.inTurn, h.counted, h.size_eq, h.crew, h.resting⟩

theorem Sound.next (h : u.Sound size) (e : Event) : (u.next e).Sound size := by
  cases e with
  | start => exact h.start
  | produce p => exact h.produce p
  | take i => exact h.take i
  | call i now => exact h.call i now
  | finish i ok => exact h.finish i ok
  | leave i => exact h.leave i
  | stop => exact ⟨h.flow, h.taken, h.inTurn, h.counted, h.size_eq, h.crew, h.resting⟩
  | goOn call now => exact h.goOn call now

theorem Sound.after (h : u.Sound size) (events : List Event) : (u.after events).Sound size := by
  induction events generalizing u with
  | nil => exact h
  | cons e rest ih => exact ih (h.next e)

theorem capacity_after (u : History) (events : List Event) :
    (u.after events).sink.queue.capacity = u.sink.queue.capacity := by
  induction events generalizing u with
  | nil => rfl
  | cons e rest ih =>
    have hone : (u.next e).sink.queue.capacity = u.sink.queue.capacity := by
      by_cases he : e = .stop
      · rw [he]
        rfl
      · exact Gate.capacity_moves (moves_next u e he)
    exact (ih (u.next e)).trans hone

/-! ## The end -/

/-- A writer of a sink that is stopped has nothing left to do. -/
theorem kept_of_over (h : u.gate.Over) (e : Event) :
    (u.next e).accepted = u.accepted ∧ (u.next e).written = u.written := by
  cases e with
  | start => exact ⟨rfl, rfl⟩
  | produce p =>
    have hnone : u.sink.queue.accepts? p = none := h.queue.accepts? p
    simp [History.next, hnone]
  | take i =>
    have hcancelled : u.sink.cancelled = true := h.cancelled
    have hnone : u.sink.take? i = none := by simp [Direct.take?, hcancelled]
    simp [History.next, hnone]
  | call i now =>
    rcases u.sink.call?_cases i now with heq | ⟨m, hw, -⟩
    · simp [History.next, heq]
    · have hquiet : u.sink.quiet = true := h.quiet
      rw [not_quiet_of_worker hw (by simp)] at hquiet
      cases hquiet
  | finish i ok => exact ⟨rfl, rfl⟩
  | leave i => exact ⟨rfl, rfl⟩
  | stop => exact ⟨rfl, rfl⟩
  | goOn call now =>
    rcases goOn_cases u call now with heq | ⟨phase, queue, cancelled, next, -, -, heq⟩ <;>
      simp [heq]

theorem kept_after (h : u.gate.Over) (events : List Event) :
    (u.after events).accepted = u.accepted ∧ (u.after events).written = u.written := by
  induction events generalizing u with
  | nil => exact ⟨rfl, rfl⟩
  | cons e rest ih =>
    obtain ⟨ha, hw⟩ := kept_of_over h e
    have hover : (u.next e).gate.Over := by
      by_cases he : e = .stop
      · rw [he]
        exact ⟨h.started, h.cancelled, h.quiet, h.queue⟩
      · exact h.next (moves_next u e he)
    obtain ⟨ha', hw'⟩ := ih hover
    exact ⟨ha'.trans ha, hw'.trans hw⟩

/-- What has become of the messages of a sink that was stopped. -/
structure Delivered (u : History) : Prop where
  written : u.written.Perm u.accepted
  /-- One writer alone wrote them in the order in which they were accepted. -/
  inTurn : u.sink.size = 1 → u.written = u.accepted
  counted : u.sink.published + u.sink.dropped = u.accepted.length
  /-- No producer waits any more. -/
  served : u.sink.queue.granted = [] ∧ u.sink.queue.waiting = []
  final : ∀ more, (u.after more).accepted = u.accepted ∧ (u.after more).written = u.written

theorem Sound.delivered (h : u.Sound size) (hg : u.gate.Sound) (hr : none ∈ u.stops) :
    u.Delivered := by
  have hover := hg.over hr
  have hitems : u.sink.queue.items = [] := hover.queue.items
  have hquiet : u.sink.quiet = true := hover.quiet
  have hreceived : u.accepted = u.received := by rw [h.flow, hitems, List.append_nil]
  have hwritten := h.taken
  have hinTurn := h.inTurn
  have hcounted := h.counted
  rw [held_of_quiet hquiet, List.append_nil, ← hreceived] at hwritten hinTurn
  rw [← h.size_eq] at hinTurn
  rw [busy_of_quiet hquiet, hwritten.length_eq] at hcounted
  exact ⟨hwritten, hinTurn, hcounted, ⟨hover.queue.granted, hover.queue.waiting hg.queue⟩,
    kept_after hover⟩

end History

/-! ## The sink in a system -/

open Engine (Outlet Destination)

variable {name : String} {destination : Destination} {delay : Nat}

theorem begin_of_closed (h : d.queue.closed = true) (m : Message) (now : Nat) :
    (Outlet.begin (.direct name d destination delay) m now).1 = .inr (.error (.stopped name)) := by
  simp [Outlet.begin, Queue.put, h, Outlet.admission]

theorem measure_direct (metrics : Metrics) :
    let measured := (Outlet.direct name d destination delay).measure metrics
    (measured.value .published name + measured.value .dropped name) % UInt64.size =
      (metrics.value .published name + metrics.value .dropped name +
        (d.published + d.dropped : Nat)) % UInt64.size :=
  metrics.value_counted name d.published d.dropped

/-- A direct sink loses no message and writes none twice, in whatever order its producers, its
writers and the calls that stop it take their steps. Its writers receive the messages in the order in
which they were accepted, and a message is overtaken only while a writer holds it. Once a call that
stops the sink has returned, everything that was accepted was written and counted, and nothing more
is. -/
theorem written_once (s : Settings.Output) (events : List Event)
    (h : ComesFirst .start .stop events) :
    let u := (History.create s).after events
    u.sink.queue.length ≤ max s.queueCapacity 1 ∧
    u.accepted = u.received ++ u.sink.queue.items ∧
    (u.written ++ u.sink.held).Perm u.received ∧
    u.sink.held.length + u.sink.busy ≤ max s.workerCount 1 ∧
    (s.workerCount ≤ 1 → u.written ++ u.sink.held = u.received) ∧
    (∀ phase ∈ u.stops, phase ≠ some .closing → ∀ name destination delay m now,
      (Outlet.begin (.direct name u.sink destination delay) m now).1 =
        .inr (.error (.stopped name))) ∧
    (none ∈ u.stops → u.Delivered ∧ ∀ name destination delay metrics,
      let measured := (Outlet.direct name u.sink destination delay).measure metrics
      (measured.value .published name + measured.value .dropped name) % UInt64.size =
        (metrics.value .published name + metrics.value .dropped name + u.accepted.length) %
          UInt64.size) := by
  intro u
  have hg : u.gate.Sound :=
    History.follows.sound_foldl (u := History.create s) (by simp)
      (Gate.sound_create s.queueCapacity true) h
  have hs : u.Sound (max s.workerCount 1) := (History.sound_create s).after events
  have hcapacity : u.sink.queue.capacity = max s.queueCapacity 1 :=
    History.capacity_after (History.create s) events
  refine ⟨?_, hs.flow, hs.taken, ?_, fun hone => hs.inTurn (by omega),
    fun phase hp hne name destination delay m now => ?_, fun hr => ?_⟩
  · rw [← hcapacity]
    exact hg.queue.length_le
  · exact u.sink.held_busy_le.trans hs.crew
  · exact begin_of_closed (hg.closed_of_begun hp hne) m now
  · have hdelivered := hs.delivered hg hr
    refine ⟨hdelivered, fun name destination delay metrics => ?_⟩
    rw [← hdelivered.counted]
    exact measure_direct metrics

/-- A sink with one place and two writers. -/
def narrow : Settings.Output := { Settings.Output.standard with queueCapacity := 1, workerCount := 2 }

def first : Message := ⟨some "a", [1]⟩

def second : Message := ⟨some "b", [2]⟩

/-- The second message waits for a place when the call that stops the sink begins; the third one
comes too late. The writer that received the first message is overtaken by the one that received the
second, which the destination refuses. -/
def crowded : List Event :=
  [.produce (.put first), .start, .produce (.put second), .stop, .goOn 0 0, .take 1,
    .produce (.put ⟨none, [3]⟩), .produce (.enter 0), .take 0, .goOn 0 1000, .call 0 1000,
    .call 1 1000, .finish 1 true, .leave 1, .finish 0 false, .leave 0, .goOn 0 1001]

/-- Both messages were accepted, written once and counted. -/
theorem written_once_of_crowded :
    let u := (History.create narrow).after crowded
    ComesFirst .start .stop crowded ∧ none ∈ u.stops ∧ u.accepted = [first, second] ∧
      u.written = [second, first] ∧ u.sink.published = 1 ∧ u.sink.dropped = 1 ∧ u.Delivered := by
  have hfirst : ComesFirst .start .stop crowded := by decide
  obtain ⟨-, -, -, -, -, -, hend⟩ := written_once narrow crowded hfirst
  have hr : none ∈ ((History.create narrow).after crowded).stops := by decide
  exact ⟨hfirst, hr, by decide, by decide, by decide, by decide, (hend hr).1⟩

/-- Several writers need not write in the order in which the messages were accepted. -/
theorem written_out_of_turn :
    ¬ ∀ (s : Settings.Output) (events : List Event), ComesFirst .start .stop events →
      none ∈ ((History.create s).after events).stops →
        ((History.create s).after events).written = ((History.create s).after events).accepted := by
  intro h
  have heq := h narrow crowded (by decide) (by decide)
  exact absurd heq (by decide)

end Direct

end ChangeFeed.Sink
