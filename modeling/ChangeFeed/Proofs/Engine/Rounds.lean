import ChangeFeed.Proofs.Engine.Occurrences

/-!
# Nobody waits for the receiver

The call that stops a watcher waits for the loop and for the reporter to end. A reporter may be held
up by a channel without room, and it may overlook that it is cancelled as long as it can go on. Yet
it uses up a place of the channel each time, and only whoever receives gives one back.

* `Watcher.ahead` is how much is still to be done before the call has joined the reporter.
  `Shift.nears`: only a report that is received adds to it, and `ahead_lt_of_task?`: each step of
  the task that the call waits for takes something away.
* `joins_of_rounds`: after as many rounds, in which the three tasks get a turn in any order, the
  call has joined the reporter.
* `waits_of_stepHalt?_eq_none`: from then on it waits for the work under way and for the sink only.
* `stepLoop?_withReports` and `stepHalt?_withReports`: apart from the reporter, neither the loop nor
  the call goes by the channel.
-/

namespace ChangeFeed

/-! ## What is ahead -/

namespace Watch

/-- The places of a channel that a report can still take. -/
def Channel.room (c : Channel) : Nat := if c.abandoned then 0 else c.capacity - c.queued.length

/-- The greatest number of steps that a cancelled reporter takes while nobody receives. -/
def Reporter.ahead (r : Reporter) (c : Channel) : Nat :=
  match r with
  | .ended => 0
  | .sending _ _ => 2 * c.room + 1
  | .waiting _ => 2 * c.room + 2

variable {r r' : Reporter} {c c' : Channel} {cancelled seen : Bool} {now every watermark : Nat}

theorem Reporter.ahead_mono (h : c'.room ≤ c.room) : r.ahead c' ≤ r.ahead c := by
  cases r <;> simp only [ahead] <;> omega

theorem Reporter.ahead_le_add (h : c'.room ≤ c.room + 1) : r.ahead c' ≤ r.ahead c + 2 := by
  cases r <;> simp only [ahead] <;> omega

/-- A report takes a place. -/
theorem Channel.room_of_offer? (hc : c.abandoned = false) (h : c.offer? watermark = some c') :
    c'.room + 1 = c.room := by
  unfold offer? at h
  split at h
  · cases h
    simp only [room, hc, Bool.false_eq_true, if_false, List.length_append, List.length_singleton]
    omega
  · cases h

/-- A report that is received gives a place back. -/
theorem Channel.room_take_le {v : Nat} {rest : List Nat} (h : c.queued = v :: rest) :
    ({ c with queued := rest } : Channel).room ≤ c.room + 1 := by
  unfold room
  split
  · exact Nat.zero_le _
  · simp only [h, List.length_cons]
    omega

/-- Every step of a reporter, whether or not it sees that it is cancelled, brings it nearer to its
end. -/
theorem Reporter.ahead_lt_of_step?
    (h : r.step? c seen now every watermark = some (r', c')) : r'.ahead c' < r.ahead c := by
  cases r with
  | ended => cases h
  | waiting next =>
    simp only [step?] at h
    split at h
    · cases h
      simp [ahead]
    · split at h
      · cases h
        simp only [ahead]
        omega
      · cases h
  | sending next value =>
    simp only [step?] at h
    split at h
    · cases h
      simp [ahead]
    · rename_i hc
      have hopen : c.abandoned = false := by
        simp only [Bool.or_eq_true, not_or, Bool.not_eq_true] at hc
        exact hc.2
      obtain ⟨c₁, hoffer, heq⟩ := Option.map_eq_some_iff.mp h
      cases heq
      have := Channel.room_of_offer? hopen hoffer
      simp only [ahead]
      omega

/-- A cancelled reporter never waits. -/
theorem Reporter.step?_of_cancelled (h : r ≠ .ended) (c : Channel) (now every watermark : Nat) :
    r.step? c true now every watermark = some (.ended, c) := by
  cases r with
  | ended => exact absurd rfl h
  | waiting next => rfl
  | sending next value => rfl

end Watch

namespace Engine

/-- How many steps the call that stops a watcher takes until it has joined the reporter. -/
def Halt.ahead : Halt → Nat
  | .begun => 3
  | .joiningLoop => 2
  | .joiningReporter => 1
  | _ => 0

namespace Watcher

/-- How many steps the call that stops a watcher, the loop and the reporter take until the call has
joined both, while nobody receives. -/
def ahead (x : Watcher) : Nat :=
  (x.halt.map Halt.ahead).getD 0 + (if World.Loop.isEnded x.loop then 0 else 1) +
    x.reporter.ahead x.channel

theorem ahead_le (x : Watcher) : x.ahead ≤ 2 * x.channel.capacity + 6 := by
  have hhalt : (x.halt.map Halt.ahead).getD 0 ≤ 3 := by
    rcases x.halt with - | halt
    · exact Nat.zero_le _
    · cases halt <;> simp [Halt.ahead]
  have hroom : x.channel.room ≤ x.channel.capacity := by
    unfold Watch.Channel.room
    split <;> omega
  have hreporter : x.reporter.ahead x.channel ≤ 2 * x.channel.room + 2 := by
    cases x.reporter <;> simp only [Watch.Reporter.ahead] <;> omega
  unfold ahead
  split <;> omega

/-- The task whose turn it is to go on with the stop of a watcher. -/
def awaited (x : Watcher) (k : Nat) : Task :=
  match x.halt with
  | some .joiningLoop => if World.Loop.isEnded x.loop then .halt k else .loop k
  | some .joiningReporter => if x.reporter = .ended then .halt k else .reporter k
  | _ => .halt k

/-- The report that is received when a watcher comes from one state to another. -/
def received? (x x' : Watcher) : Option Nat :=
  if x'.channel.queued.length < x.channel.queued.length then x.channel.queued.head? else none

variable {k : Nat} {x x' : Watcher} {halt : Halt}

/-- Whether the call that stops a watcher has joined its reporter. -/
def HasJoined (x : Watcher) : Prop := ∃ halt, x.halt = some halt ∧ halt.hasJoinedReporter = true

/-- What a shift leaves to be done: less than before, or as much with the same task awaited. What
was received meanwhile counts for two steps. -/
def Nears (k : Nat) (x x' : Watcher) : Prop :=
  x'.ahead < x.ahead + 2 * (received? x x').toList.length ∨
    x'.ahead ≤ x.ahead + 2 * (received? x x').toList.length ∧ x'.awaited k = x.awaited k

/-- The call that stops a watcher stays where it is, and nothing is added to what is to be done. -/
theorem Nears.of_halt (hh : x'.halt = x.halt)
    (hl : World.Loop.isEnded x'.loop = World.Loop.isEnded x.loop)
    (hr : x'.reporter = x.reporter) (hc : x'.channel.room ≤ x.channel.room) : Nears k x x' := by
  have hreporter : x'.reporter.ahead x'.channel ≤ x.reporter.ahead x.channel := by
    rw [hr]
    exact Watch.Reporter.ahead_mono hc
  refine Or.inr ⟨?_, ?_⟩
  · simp only [ahead, hh, hl]
    omega
  · simp only [awaited, hh, hl, hr]

/-- The call that stops a watcher goes on. -/
theorem ahead_lt_of_halt {halt' : Halt} (hh : x.halt = some halt) (hh' : x'.halt = some halt')
    (hlt : halt'.ahead < halt.ahead) (hl : x'.loop = x.loop) (hr : x'.reporter = x.reporter)
    (hc : x'.channel = x.channel) : x'.ahead < x.ahead := by
  simp only [ahead, hh, hh', hl, hr, hc, Option.map_some, Option.getD_some]
  omega

/-- A loop ends. -/
theorem ahead_lt_of_loop (hl : World.Loop.isEnded x.loop = false) :
    ({ x with loop := .ended } : Watcher).ahead < x.ahead := by
  simp only [ahead, hl, Bool.false_eq_true, if_false]
  simp only [World.Loop.isEnded, if_true]
  omega

theorem ahead_lt_of_reporter {seen : Bool} {now every watermark : Nat} {reporter : Watch.Reporter}
    {channel : Watch.Channel}
    (h : x.reporter.step? x.channel seen now every watermark = some (reporter, channel)) :
    ({ x with reporter, channel } : Watcher).ahead < x.ahead := by
  have := Watch.Reporter.ahead_lt_of_step? h
  simp only [ahead]
  omega

theorem Nears.of_lt (h : x'.ahead < x.ahead) : Nears k x x' := Or.inl (Nat.lt_add_right _ h)

theorem Nears.of_receives (x : Watcher) :
    Nears k x { x with channel := x.channel.take.2 } := by
  cases hq : x.channel.queued with
  | nil =>
    have hsame : x.channel.take.2 = x.channel := by simp [Watch.Channel.take, hq]
    exact .of_halt rfl rfl rfl (Nat.le_of_eq (congrArg Watch.Channel.room hsame))
  | cons v rest =>
    have htake : x.channel.take.2 = { x.channel with queued := rest } := by
      simp [Watch.Channel.take, hq]
    have hreceived : received? x { x with channel := x.channel.take.2 } = some v := by
      simp [received?, htake, hq]
    have hreporter : x.reporter.ahead x.channel.take.2 ≤ x.reporter.ahead x.channel + 2 := by
      rw [htake]
      exact Watch.Reporter.ahead_le_add (Watch.Channel.room_take_le hq)
    unfold Nears
    rw [hreceived]
    refine Or.inr ⟨?_, rfl⟩
    simp only [Option.toList_some, List.length_singleton, ahead]
    omega

/-- As long as the call that stops a watcher has not joined the reporter, every occurrence brings it
nearer to that, or leaves the awaited task the same; only reports that are received take it back. -/
theorem Shift.nears (hs : Shift k x x') (hh : x.halt = some halt)
    (hj : halt.hasJoinedReporter = false) :
    x'.HasJoined ∨
      ∃ halt', x'.halt = some halt' ∧ halt'.hasJoinedReporter = false ∧ Nears k x x' := by
  have stays (h : x'.halt = x.halt) (hn : Nears k x x') :
      x'.HasJoined ∨
        ∃ halt', x'.halt = some halt' ∧ halt'.hasJoinedReporter = false ∧ Nears k x x' :=
    Or.inr ⟨halt, h.trans hh, hj, hn⟩
  -- the call is past the reporter already
  have joined {phase : Halt} (h : x.halt = some phase) (hp : phase.hasJoinedReporter = true) :
      False := by
    rw [hh] at h
    cases h
    rw [hj] at hp
    cases hp
  cases hs with
  | reports seen now reporter channel hr => exact stays rfl (.of_lt (ahead_lt_of_reporter hr))
  | moves hm =>
    cases hm with
    | rests => exact stays rfl (.of_halt rfl rfl rfl (Nat.le_refl _))
    | goesOn loop hl hl' => exact stays rfl (.of_halt rfl (hl'.trans hl.symm) rfl (Nat.le_refl _))
    | ends now hc he =>
      refine stays rfl ?_
      cases hl : World.Loop.isEnded x.loop with
      | true => exact .of_halt rfl hl.symm rfl (Nat.le_refl _)
      | false => exact .of_lt (ahead_lt_of_loop hl)
    | turns page hl => exact stays rfl (.of_halt rfl hl.symm rfl (Nat.le_refl _))
    | fails error due hl => exact stays rfl (.of_halt rfl hl.symm rfl (Nat.le_refl _))
    | reports now reporter channel hr => exact stays rfl (.of_lt (ahead_lt_of_reporter hr))
    | publishes claims clock he => exact stays rfl (.of_halt rfl rfl rfl (Nat.le_refl _))
    | receives => exact stays rfl (.of_receives x)
    | abandons => exact stays rfl (.of_halt rfl rfl rfl (by simp [Watch.Channel.room]))
    | cancels => exact stays rfl (.of_halt rfl rfl rfl (Nat.le_refl _))
    | halts h =>
      rw [hh] at h
      cases h
    | begins h =>
      exact Or.inr ⟨_, rfl, rfl, .of_lt (ahead_lt_of_halt h rfl (by decide) rfl rfl rfl)⟩
    | joinsLoop h hl =>
      exact Or.inr ⟨_, rfl, rfl, .of_lt (ahead_lt_of_halt h rfl (by decide) rfl rfl rfl)⟩
    | joinsReporter now h hr he => exact Or.inl ⟨_, rfl, rfl⟩
    | leavesGrace now due h he hg => exact (joined h rfl).elim
    | drains phase next h => exact (joined h rfl).elim
    | sinkFails phase error h => exact (joined h rfl).elim
    | stops phase h => exact (joined h rfl).elim

/-- Once the call that stops a watcher has joined the reporter, it does not wait for it again. -/
theorem Shift.hasJoined (hs : Shift k x x') (h : x.HasJoined) : x'.HasJoined := by
  obtain ⟨halt, hh, hj⟩ := h
  -- the call was not at a place before the reporter
  have before {phase : Halt} (hp : x.halt = some phase) (hn : phase.hasJoinedReporter = false) :
      False := by
    rw [hh] at hp
    cases hp
    rw [hn] at hj
    cases hj
  cases hs with
  | reports seen now reporter channel hr => exact ⟨halt, hh, hj⟩
  | moves hm =>
    cases hm with
    | halts h =>
      rw [hh] at h
      cases h
    | begins h => exact (before h rfl).elim
    | joinsLoop h hl => exact (before h rfl).elim
    | joinsReporter now h hr he => exact ⟨_, rfl, rfl⟩
    | leavesGrace now due h he hg => exact ⟨_, rfl, rfl⟩
    | drains phase next h => exact ⟨_, rfl, rfl⟩
    | sinkFails phase error h => exact ⟨_, rfl, rfl⟩
    | stops phase h => exact ⟨_, rfl, rfl⟩
    | _ => exact ⟨halt, hh, hj⟩

end Watcher

namespace World

variable {w : World} {k : Nat} {x : Watcher} {o : Occurrence} {os : List Occurrence} {halt : Halt}

/-- The reports of a watcher that are received during a run, in order. -/
def received (w : World) (k : Nat) (os : List Occurrence) : List Nat :=
  w.trace k Watcher.received? os

/-! ## Turns -/

theorem task?_eq_some_iff {task : Task} : o.task? = some task ↔
    (∃ now, o = .event (.step now task)) ∨ ∃ now i, o = .overlook now i ∧ task = .reporter i := by
  constructor
  · intro h
    unfold Occurrence.task? at h
    split at h
    · cases h
      exact Or.inl ⟨_, rfl⟩
    · cases h
    · cases h
      exact Or.inr ⟨_, _, rfl, rfl⟩
  · rintro (⟨now, rfl⟩ | ⟨now, i, rfl, rfl⟩) <;> rfl

/-- Only reporters overlook anything. -/
theorem event_of_task? {task : Task} (h : o.task? = some task) (hr : ∀ i, task ≠ .reporter i) :
    ∃ now, o = .event (.step now task) := by
  rcases task?_eq_some_iff.mp h with h | ⟨now, i, -, heq⟩
  · exact h
  · exact absurd heq (hr i)

/-- A cancelled loop ends with its next step. -/
theorem stepLoop?_of_cancelled (hx : w.watchers[k]? = some x) (hc : x.cancelled = true)
    (hl : Loop.isEnded x.loop = false) (now : Nat) :
    w.stepLoop? now k = some (w.setWatcher k { x with loop := .ended }) := by
  cases h : x.loop with
  | ended =>
    rw [h] at hl
    cases hl
  | _ => simp [stepLoop?, hx, h, hc]

/-- A cancelled reporter takes a step whenever it is its turn. -/
theorem occur_of_reporter (hx : w.watchers[k]? = some x) (hc : x.cancelled = true)
    (hr : x.reporter ≠ .ended) (ho : o.task? = some (.reporter k)) :
    ∃ seen now reporter channel, x.reporter.step? x.channel seen now
        x.settings.reportInterval.millis x.progress.watermark = some (reporter, channel) ∧
      w.occur o = w.setWatcher k { x with reporter, channel } := by
  have hends := Watch.Reporter.step?_of_cancelled hr x.channel
  rcases task?_eq_some_iff.mp ho with ⟨now, rfl⟩ | ⟨now, i, rfl, heq⟩
  · refine ⟨true, now, .ended, x.channel, hends .., ?_⟩
    simp [occur, next, step?, stepReporter?, hx, hc, hends]
  · cases heq
    cases hgo : x.reporter.goOn? x.channel x.cancelled now x.settings.reportInterval.millis
        x.progress.watermark with
    | none =>
      simp [Watch.Reporter.goOn?, hc, hends] at hgo
    | some result =>
      obtain ⟨seen, hstep⟩ := Watch.Reporter.step?_of_goOn? hgo
      exact ⟨seen, now, result.1, result.2, hstep, by simp [occur, overlook?, hx, hgo]⟩

/-- A step of the awaited task takes something away from what is ahead, or is the last one. -/
theorem ahead_lt_of_task? (hx : w.watchers[k]? = some x) (ht : x.Tidy) (hh : x.halt = some halt)
    (hj : halt.hasJoinedReporter = false) (ho : o.task? = some (x.awaited k)) :
    ∃ x', (w.occur o).watchers[k]? = some x' ∧ (x'.HasJoined ∨ x'.ahead < x.ahead) := by
  -- the step, if it sets the watcher
  have sets {x' : Watcher} (h : w.occur o = w.setWatcher k x') :
      (w.occur o).watchers[k]? = some x' := by
    rw [h, getElem?_setWatcher_self hx]
  have halts (ha : x.awaited k = .halt k) : ∃ now, o = .event (.step now (.halt k)) :=
    event_of_task? (ha ▸ ho) (by simp)
  cases halt with
  | begun =>
    obtain ⟨now, rfl⟩ := halts (by simp [Watcher.awaited, hh])
    refine ⟨{ x with cancelled := true, halt := some .joiningLoop }, sets ?_,
      Or.inr (Watcher.ahead_lt_of_halt hh rfl (by decide) rfl rfl rfl)⟩
    simp [occur, next, step?, stepHalt?, hx, hh]
  | joiningLoop =>
    cases hl : Loop.isEnded x.loop with
    | true =>
      obtain ⟨now, rfl⟩ := halts (by simp [Watcher.awaited, hh, hl])
      refine ⟨{ x with halt := some .joiningReporter }, sets ?_,
        Or.inr (Watcher.ahead_lt_of_halt hh rfl (by decide) rfl rfl rfl)⟩
      simp [occur, next, step?, stepHalt?, hx, hh, hl]
    | false =>
      have ha : x.awaited k = .loop k := by simp [Watcher.awaited, hh, hl]
      obtain ⟨now, rfl⟩ := event_of_task? (ha ▸ ho) (by simp)
      refine ⟨{ x with loop := .ended }, sets ?_, Or.inr (Watcher.ahead_lt_of_loop hl)⟩
      simp [occur, next, step?, stepLoop?_of_cancelled hx (ht.cancelled _ hh (by simp)) hl]
  | joiningReporter =>
    by_cases hr : x.reporter = .ended
    · obtain ⟨now, rfl⟩ := halts (by simp [Watcher.awaited, hh, hr])
      refine ⟨{ x with halt := some (.graceUntil (now + x.settings.inflightGrace.millis)) },
        sets ?_, Or.inl ⟨_, rfl, rfl⟩⟩
      simp [occur, next, step?, stepHalt?, hx, hh, hr]
    · have ha : x.awaited k = .reporter k := by simp [Watcher.awaited, hh, hr]
      obtain ⟨seen, now, reporter, channel, hstep, hoccur⟩ :=
        occur_of_reporter hx (ht.cancelled _ hh (by simp)) hr (ha ▸ ho)
      exact ⟨_, sets hoccur, Or.inr (Watcher.ahead_lt_of_reporter hstep)⟩
  | graceUntil due => cases hj
  | stoppingSink phase => cases hj
  | ended result => cases hj

/-- What an occurrence leaves to be done, as long as the call has not joined the reporter. -/
theorem occur_nears (hx : w.watchers[k]? = some x) (ht : x.Tidy) (hh : x.halt = some halt)
    (hj : halt.hasJoinedReporter = false) (o : Occurrence) :
    ∃ x', (w.occur o).watchers[k]? = some x' ∧ x'.Tidy ∧ (x'.HasJoined ∨
      ∃ halt', x'.halt = some halt' ∧ halt'.hasJoinedReporter = false ∧ Watcher.Nears k x x' ∧
        (o.task? = some (x.awaited k) → x'.ahead < x.ahead)) := by
  obtain ⟨x', hx', hs⟩ := occur_watcher o hx
  refine ⟨x', hx', hs.tidy ht, ?_⟩
  rcases hs.nears hh hj with hjoined | ⟨halt', hh', hj', hn⟩
  · exact Or.inl hjoined
  · by_cases htask : o.task? = some (x.awaited k)
    · obtain ⟨y, hy, hcases⟩ := ahead_lt_of_task? hx ht hh hj htask
      rw [hx'] at hy
      cases hy
      exact hcases.imp_right fun hlt => ⟨halt', hh', hj', hn, fun _ => hlt⟩
    · exact Or.inr ⟨halt', hh', hj', hn, fun h => absurd h htask⟩

/-! ## Rounds -/

/-- Whether the call that stops a watcher, the loop and the reporter all get a turn, in any order
and with anything else between their turns. -/
def IsRound (k : Nat) (os : List Occurrence) : Prop :=
  ∀ task ∈ [Task.halt k, .loop k, .reporter k], ∃ o ∈ os, o.task? = some task

theorem awaited_mem (x : Watcher) (k : Nat) :
    x.awaited k ∈ [Task.halt k, .loop k, .reporter k] := by
  unfold Watcher.awaited
  split
  · split <;> simp
  · split <;> simp
  · simp

theorem received_cons {x' : Watcher} (hx : w.watchers[k]? = some x)
    (hx' : (w.occur o).watchers[k]? = some x') :
    (w.received k (o :: os)).length =
      (Watcher.received? x x').toList.length + ((w.occur o).received k os).length := by
  simp only [received, trace, between?_eq hx hx', List.length_append]

/-- A call that has not joined the reporter after a run has not more ahead than before, but for what
was received. -/
theorem ahead_le_through (hx : w.watchers[k]? = some x) (hh : x.halt = some halt)
    (hj : halt.hasJoinedReporter = false) (os : List Occurrence) :
    ∃ x', (w.through os).watchers[k]? = some x' ∧ (x'.HasJoined ∨
      ∃ halt', x'.halt = some halt' ∧ halt'.hasJoinedReporter = false ∧
        x'.ahead ≤ x.ahead + 2 * (w.received k os).length) := by
  induction os generalizing w x halt with
  | nil => exact ⟨x, hx, Or.inr ⟨halt, hh, hj, Nat.le_refl _⟩⟩
  | cons o rest ih =>
    obtain ⟨x₁, hx₁, hs⟩ := occur_watcher o hx
    rcases hs.nears hh hj with hjoined | ⟨halt₁, hh₁, hj₁, hn⟩
    · obtain ⟨x', hx', hjoined'⟩ :=
        through_watcher (fun _ _ hs h => hs.hasJoined h) hx₁ hjoined rest
      exact ⟨x', hx', Or.inl hjoined'⟩
    · obtain ⟨x', hx', hjoined | ⟨halt', hh', hj', hle⟩⟩ := ih hx₁ hh₁ hj₁
      · exact ⟨x', hx', Or.inl hjoined⟩
      · refine ⟨x', hx', Or.inr ⟨halt', hh', hj', ?_⟩⟩
        rw [received_cons hx hx₁]
        rcases hn with hlt | ⟨hle₁, -⟩ <;> omega

/-- A call that has not joined the reporter after a turn of the awaited task has less ahead. -/
theorem ahead_lt_through (hx : w.watchers[k]? = some x) (ht : x.Tidy) (hh : x.halt = some halt)
    (hj : halt.hasJoinedReporter = false) (hturn : ∃ o ∈ os, o.task? = some (x.awaited k)) :
    ∃ x', (w.through os).watchers[k]? = some x' ∧ (x'.HasJoined ∨
      ∃ halt', x'.halt = some halt' ∧ halt'.hasJoinedReporter = false ∧
        x'.ahead < x.ahead + 2 * (w.received k os).length) := by
  induction os generalizing w x halt with
  | nil =>
    obtain ⟨o, ho, -⟩ := hturn
    cases ho
  | cons o rest ih =>
    obtain ⟨x₁, hx₁, ht₁, hjoined | ⟨halt₁, hh₁, hj₁, hn, hlt⟩⟩ := occur_nears hx ht hh hj o
    · obtain ⟨x', hx', hjoined'⟩ :=
        through_watcher (fun _ _ hs h => hs.hasJoined h) hx₁ hjoined rest
      exact ⟨x', hx', Or.inl hjoined'⟩
    · rw [received_cons hx hx₁]
      -- the first occurrence took something away, or the task is still awaited
      have hfirst : x₁.ahead < x.ahead + 2 * (Watcher.received? x x₁).toList.length ∨
          x₁.ahead ≤ x.ahead + 2 * (Watcher.received? x x₁).toList.length ∧
            ∃ o ∈ rest, o.task? = some (x₁.awaited k) := by
        rcases hn with hless | ⟨hle, hawaited⟩
        · exact Or.inl hless
        · obtain ⟨o', ho', htask⟩ := hturn
          rcases List.mem_cons.mp ho' with rfl | hmem
          · exact Or.inl (Nat.lt_add_right _ (hlt htask))
          · exact Or.inr ⟨hle, o', hmem, hawaited ▸ htask⟩
      rcases hfirst with hless | ⟨hle, hturn₁⟩
      · obtain ⟨x', hx', hjoined | ⟨halt', hh', hj', hle'⟩⟩ := ahead_le_through hx₁ hh₁ hj₁ rest
        · exact ⟨x', hx', Or.inl hjoined⟩
        · exact ⟨x', hx', Or.inr ⟨halt', hh', hj', by omega⟩⟩
      · obtain ⟨x', hx', hjoined | ⟨halt', hh', hj', hless'⟩⟩ := ih hx₁ ht₁ hh₁ hj₁ hturn₁
        · exact ⟨x', hx', Or.inl hjoined⟩
        · exact ⟨x', hx', Or.inr ⟨halt', hh', hj', by omega⟩⟩

/-- A call that stops a watcher has joined the reporter after some rounds, whoever receives. -/
theorem joins_of_rounds {rounds : List (List Occurrence)} (hx : w.watchers[k]? = some x)
    (ht : x.Tidy) (hh : x.halt = some halt) (hr : ∀ os ∈ rounds, IsRound k os)
    (hn : x.ahead + 2 * (w.received k rounds.flatten).length < rounds.length) :
    ∃ x', (w.through rounds.flatten).watchers[k]? = some x' ∧ x'.HasJoined := by
  cases hj : halt.hasJoinedReporter with
  | true =>
    exact through_watcher (fun _ _ hs h => hs.hasJoined h) hx ⟨halt, hh, hj⟩ rounds.flatten
  | false =>
    induction rounds generalizing w x halt with
    | nil => cases hn
    | cons os rest ih =>
      have hreceived : (w.received k (os :: rest).flatten).length =
          (w.received k os).length + ((w.through os).received k rest.flatten).length := by
        rw [List.flatten_cons, received, trace_append, List.length_append]
        rfl
      rw [hreceived, List.length_cons] at hn
      rw [List.flatten_cons, through_append]
      have hturn := hr os List.mem_cons_self (x.awaited k) (awaited_mem x k)
      obtain ⟨x₁, hx₁, hjoined | ⟨halt₁, hh₁, hj₁, hlt⟩⟩ := ahead_lt_through hx ht hh hj hturn
      · exact through_watcher (fun _ _ hs h => hs.hasJoined h) hx₁ hjoined rest.flatten
      · obtain ⟨x₁', hx₁', ht₁⟩ := through_watcher (fun _ _ hs h => hs.tidy h) hx ht os
        rw [hx₁] at hx₁'
        cases hx₁'
        exact ih hx₁ ht₁ hh₁ (fun os' hmem => hr os' (List.mem_cons_of_mem _ hmem)) (by omega) hj₁

/-! ## What does not go by the channel -/

/-- A system with another channel and another reporter of a watcher. -/
def withReports (w : World) (k : Nat) (reporter : Watch.Reporter) (channel : Watch.Channel) :
    World :=
  w.onWatcher k fun x => { x with reporter, channel }

/-- What a watch loop does is not a matter of its reporter and of the channel. -/
theorem stepLoop?_withReports (w : World) (now k : Nat) (reporter : Watch.Reporter)
    (channel : Watch.Channel) :
    (w.withReports k reporter channel).stepLoop? now k =
      (w.stepLoop? now k).map (·.withReports k reporter channel) := by
  cases hx : w.watchers[k]? with
  | none => simp [withReports, onWatcher, stepLoop?, hx]
  | some x =>
    have hlt : k < w.watchers.size := (Array.getElem?_eq_some_iff.mp hx).1
    have hset : w.withReports k reporter channel = w.setWatcher k { x with reporter, channel } := by
      simp [withReports, onWatcher, hx]
    rw [hset]
    simp only [stepLoop?, hx, getElem?_setWatcher_self hx, Option.bind_eq_bind, Option.bind_some,
      Option.pure_def]
    cases x.loop with
    | ended => rfl
    | ready =>
      dsimp only
      split
      · simp [setWatcher, withReports, onWatcher, hlt]
      · cases hlists : w.orchestrator.lists with
        | nil => simp [note, setWatcher, withReports, onWatcher, hlists, hlt]
        | cons answer lists => simp [note, setWatcher, withReports, onWatcher, hlists, hlt]
    | stuck =>
      dsimp only
      split
      · simp [setWatcher, withReports, onWatcher, hlt]
      · rfl
    | asking due answer =>
      dsimp only
      split
      · simp [setWatcher, withReports, onWatcher, hlt]
      · split
        · rfl
        · cases answer with
          | ok page =>
            simp only [absorb, foldl_publish, Option.map_some]
            split <;> simp [setWatcher, withReports, onWatcher, hlt]
          | error error => simp [setWatcher, withReports, onWatcher, hlt]
    | pausing due =>
      dsimp only
      split
      · simp [setWatcher, withReports, onWatcher, hlt]
      · split
        · rfl
        · simp [setWatcher, withReports, onWatcher, hlt]

theorem isQuiet_setWatcher (w : World) (i : Nat) (x : Watcher) :
    (w.setWatcher i x).isQuiet k = w.isQuiet k :=
  rfl

/-- A sink is stopped beside the watchers. -/
theorem stepStop?_setWatcher (w : World) (now i outlet : Nat) (x : Watcher)
    (phase : Sink.Stopping) :
    (w.setWatcher i x).stepStop? now outlet phase =
      (w.stepStop? now outlet phase).map fun (next, w') => (next, w'.setWatcher i x) := by
  cases ho : w.outlets[outlet]? with
  | none => simp [stepStop?, setWatcher, ho]
  | some o => cases hs : o.stop? phase now <;> simp [stepStop?, setWatcher, setOutlet, note, ho, hs]

/-- A call that has joined the reporter waits for work under way, which ends with its grace, and for
the sink, until it returns. -/
theorem waits_of_stepHalt?_eq_none (hx : w.watchers[k]? = some x) (hj : x.HasJoined) {now : Nat}
    (h : w.stepHalt? now k = none) :
    (∃ due, x.halt = some (.graceUntil due) ∧ w.isQuiet k = false ∧ now < due) ∨
      (∃ phase, x.halt = some (.stoppingSink phase) ∧ w.stepStop? now x.outlet phase = none) ∨
      ∃ result, x.halt = some (.ended result) := by
  obtain ⟨halt, hh, hjoined⟩ := hj
  simp only [stepHalt?, hx, hh, Option.bind_eq_bind, Option.bind_some, Option.pure_def] at h
  cases halt with
  | begun => cases hjoined
  | joiningLoop => cases hjoined
  | joiningReporter => cases hjoined
  | graceUntil due =>
    have hwait : ¬ (w.isQuiet k = true ∨ due ≤ now) := by simpa using h
    simp only [not_or, Bool.not_eq_true, Nat.not_le] at hwait
    exact Or.inl ⟨due, hh, hwait⟩
  | stoppingSink phase =>
    refine Or.inr (Or.inl ⟨phase, hh, ?_⟩)
    cases hstop : w.stepStop? now x.outlet phase with
    | none => rfl
    | some result =>
      obtain ⟨next, w'⟩ := result
      rcases next with next | error | ⟨⟩ <;> simp [hstop] at h
  | ended result => exact Or.inr (Or.inr ⟨result, hh⟩)

/-- What the call that stops a watcher does next, and whether it can, is a matter of the reporter,
but not of what waits in the channel and of who receives it. -/
theorem stepHalt?_withReports (hx : w.watchers[k]? = some x) (now : Nat) (channel : Watch.Channel) :
    ∃ channel', (w.withReports k x.reporter channel).stepHalt? now k =
      (w.stepHalt? now k).map (·.withReports k x.reporter channel') := by
  have hlt : k < w.watchers.size := (Array.getElem?_eq_some_iff.mp hx).1
  have hset : w.withReports k x.reporter channel = w.setWatcher k { x with channel } := by
    simp [withReports, onWatcher, hx]
  rw [hset]
  simp only [stepHalt?, hx, getElem?_setWatcher_self hx, Option.bind_eq_bind, Option.bind_some,
    Option.pure_def]
  cases hh : x.halt with
  | none => exact ⟨channel, rfl⟩
  | some halt =>
    simp only [Option.bind_some]
    cases halt with
    | ended result => exact ⟨channel, rfl⟩
    | begun => exact ⟨channel, by simp [setWatcher, withReports, onWatcher, hlt]⟩
    | joiningLoop =>
      refine ⟨channel, ?_⟩
      dsimp only
      split <;> simp [setWatcher, withReports, onWatcher, hlt]
    | joiningReporter =>
      refine ⟨channel, ?_⟩
      dsimp only
      split <;> simp [setWatcher, withReports, onWatcher, hlt]
    | graceUntil due =>
      refine ⟨channel, ?_⟩
      dsimp only
      rw [isQuiet_setWatcher]
      split <;> simp [setWatcher, withReports, onWatcher, hlt]
    | stoppingSink phase =>
      dsimp only
      rw [stepStop?_setWatcher]
      cases hnext : w.stepStop? now x.outlet phase with
      | none => exact ⟨channel, rfl⟩
      | some result =>
        obtain ⟨next, w'⟩ := result
        obtain ⟨outlets, log, rfl⟩ := stepStop?_eq hnext
        rcases next with next | error | ⟨⟩
        · exact ⟨channel, by simp [setWatcher, withReports, onWatcher, hlt]⟩
        · exact ⟨{ channel with closed := true }, by simp [setWatcher, withReports, onWatcher, hlt]⟩
        · exact ⟨{ channel.offer x.progress.watermark with closed := true },
            by simp [setWatcher, withReports, onWatcher, hlt]⟩

end World

end Engine

end ChangeFeed
