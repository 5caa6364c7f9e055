import ChangeFeed.Proofs.Sink.Parcels

/-!
# Batches for a message queue

A batched sink sends its batches through the writer of a message queue. Whether a call succeeds is
worked out from the ids that the queue rejects; nevertheless a message that is counted as published
was taken by the queue.

* `Depot` is a batched sink with the writer of a queue: what the writer answers is what the batcher is
  answered. `Depot.calls_follow`, `Depot.step?_follows`: so it is with an outlet that sends to a queue.
* `Depot.Sound` is kept by every event. `Depot.settles`: the batch on its way comes to its end.
* `Ships.accepts_batch` and `Ships.accepts_one`: what a call that succeeds has brought to the queue.
* `Accounted`: what becomes of the messages of a batch. `messages_accounted`: so it is with all of them.
-/

namespace ChangeFeed.Sink

/-! ## Batches and answers -/

/-- Every batch is put together once. -/
theorem map_batch_flights {ρ : Type} (log : List (Handled ρ)) :
    (flights log).reverse.map Flight.batch = log.filterMap (·.call.batch?) := by
  induction log using List.reverseRecOn with
  | nil => rfl
  | append_singleton log x ih =>
    rw [flights_append, List.filterMap_append, ← ih]
    cases hx : x.call with
    | batch messages => simp [Flight.add, hx, Flight.batch, Call.messages, Call.batch?]
    | one m => cases hl : flights log <;> simp [Flight.add, hx, Flight.batch, Call.batch?]

namespace Batched

variable {b b' : Batched}

/-- How many answers a batcher waits for, at most. -/
def pending (b : Batcher) : Nat := b.sent.length + b.sent.flatten.length + b.left.length

theorem exists_finish? {call : Call} (h : b.batcher.call? = some call) (ok : Bool) (now : Nat) :
    ∃ b', b.finish? ok now = some b' := by
  match hb : b.batcher with
  | .sending batch last since => cases ok <;> simp [finish?, hb]
  | .resending (m :: []) last since => simp [finish?, hb]
  | .resending (m :: m' :: rest) last since => simp [finish?, hb]
  | .resending [] last since => simp [hb, Batcher.call?] at h
  | .absent => simp [hb, Batcher.call?] at h
  | .collecting buffer => simp [hb, Batcher.call?] at h
  | .ended => simp [hb, Batcher.call?] at h

theorem pending_of_call?_eq_none {b : Batcher} (h : b.call? = none) : pending b = 0 := by
  match b with
  | .sending batch last since => cases h
  | .resending (m :: rest) last since => cases h
  | .resending [] last since => rfl
  | .absent => rfl
  | .collecting buffer => rfl
  | .ended => rfl

theorem Answers.pending_lt {call : Call} {ok : Bool} (h : Answers b b' call ok) :
    pending b'.batcher < pending b.batcher := by
  have hleft := congrArg List.length h.left
  unfold pending
  rw [h.sent, h.sent']
  cases call with
  | batch messages =>
    cases ok <;> simp [Exchange.calls, Call.batch?] at hleft ⊢ <;> omega
  | one m =>
    simp [Exchange.calls, Call.batch?] at hleft ⊢
    omega

end Batched

/-! ## What success means -/

namespace Sqs

namespace Writer

theorem find?_labels {w : Writer} {messages : List Message} {i : Nat} {m : Message}
    (h : messages[i]? = some m) :
    (w.labels messages).find? (·.id = decimal i) = some (w.label i m) := by
  have hentry : (w.labels messages)[i]? = some (w.label i m) := by rw [getElem?_labels, h]; rfl
  obtain ⟨hi, hget⟩ := List.getElem?_eq_some_iff.mp hentry
  refine List.find?_eq_some_iff_getElem.mpr ⟨by simp [label_eq], i, hi, hget, fun j hj => ?_⟩
  have hne : decimal j ≠ decimal i := fun heq => Nat.ne_of_lt hj (decimal_inj heq)
  simpa [labels, label_eq] using hne

end Writer

/-- If every entry that was sent again was taken, then so was each of the rejected ones. -/
theorem Resends.accepts {entries : List Entry} {ids : List String} {parcels : List Parcel}
    (h : Resends entries ids parcels true) {e : Entry} (he : entries.find? (·.id = e.id) = some e)
    (hid : e.id ∈ ids) : ∃ p ∈ parcels, e ∈ p.accepted := by
  generalize hok : true = ok at h
  induction h with
  | done => cases hid
  | @unknown id ids parcels ok hfind _ ih =>
    refine ih ((List.mem_cons.mp hid).resolve_left fun heq => ?_) hok
    subst heq
    rw [he] at hfind
    cases hfind
  | @again id ids e' parcels ok hfind _ ih =>
    rcases List.mem_cons.mp hid with heq | hid
    · subst heq
      obtain rfl : e = e' := Option.some.inj (he.symm.trans hfind)
      exact ⟨_, List.mem_cons_self, Parcel.mem_accepted_iff.mpr ⟨by simp, [], rfl, by simp⟩⟩
    · obtain ⟨p, hp, hacc⟩ := ih hid hok
      exact ⟨p, List.mem_cons_of_mem _ hp, hacc⟩
  | refused => cases hok

variable {w : Writer} {parcels : List Parcel}

/-- The queue has taken every message of a batch that succeeds. -/
theorem Ships.accepts_batch {messages : List Message}
    (h : Ships w (.batch messages) parcels true) {i : Nat} {m : Message}
    (hm : messages[i]? = some m) : ∃ p ∈ parcels, w.label i m ∈ p.accepted := by
  cases h with
  | @rejected _ ids parcels _ hresends =>
    have hid : (w.label i m).id = Writer.decimal i := by rw [Writer.label_eq]
    have hfind := Writer.find?_labels (w := w) hm
    by_cases hmem : (w.label i m).id ∈ ids
    · obtain ⟨p, hp, hacc⟩ := hresends.accepts (by rw [hid, hfind]) hmem
      exact ⟨p, List.mem_cons_of_mem _ hp, hacc⟩
    · refine ⟨_, List.mem_cons_self, Parcel.mem_accepted_iff.mpr ⟨?_, ids, rfl, hmem⟩⟩
      exact List.mem_of_find?_eq_some hfind

/-- The queue has taken a message that succeeds alone. -/
theorem Ships.accepts_one {m : Message} (h : Ships w (.one m) parcels true) :
    ∃ p ∈ parcels, w.label 0 m ∈ p.accepted := by
  generalize hok : true = ok at h
  cases h with
  | one m answer =>
    have hanswer : answer = .rejected [] := by simpa using hok.symm
    refine ⟨_, List.mem_cons_self, Parcel.mem_accepted_iff.mpr ⟨?_, [], hanswer, by simp⟩⟩
    simp [Writer.labels]

/-- A batch whose calls send what a writer makes of them. -/
structure Shipped (w : Writer) (f : Flight (List Parcel)) : Prop where
  flies : f.Flies f.left
  ships : ∀ x ∈ f.together :: f.alone, ∃ n, Ships (w.advance n) x.call x.trace x.ok

namespace Shipped

variable {f : Flight (List Parcel)}

theorem together (h : Shipped w f) :
    ∃ n, Ships (w.advance n) (.batch f.batch) f.together.trace f.together.ok := by
  rw [← h.flies.call]
  exact h.ships f.together List.mem_cons_self

theorem alone (h : Shipped w f) {i : Nat} {x : Shipment} (hx : f.alone[i]? = some x) :
    ∃ n m, f.batch[i]? = some m ∧ x.call = .one m ∧ Ships (w.advance n) (.one m) x.trace x.ok := by
  obtain ⟨-, m, hm, hcall⟩ := h.flies.call_alone hx
  obtain ⟨n, hn⟩ := h.ships x (List.mem_cons_of_mem _ (List.mem_of_getElem? hx))
  exact ⟨n, m, hm, hcall, hcall ▸ hn⟩

end Shipped

/-! ## A batched sink with a queue -/

open Engine (Outlet)
open Engine.Outlet (succeeded)

/-- A batched sink that sends to a queue, with what has happened to it. -/
structure Depot where
  history : Batched.History
  shipper : Shipper
  deriving Inhabited

namespace Depot

def create (s : Settings.Output) (w : Writer) (client : Client) : Depot :=
  ⟨.create s, .begin w client⟩

/-- What the queue's writer makes of a call. -/
def succeeds (d : Depot) (call : Call) : Bool :=
  succeeded (d.shipper.writer.answer d.shipper.client call).1

/-- An event of the sink. Calls are answered by the queue's writer, whatever the event says. -/
def next (d : Depot) (e : Batched.Event) : Depot :=
  match e, d.history.sink.batcher.call? with
  | .finish _ now, some call =>
    ⟨d.history.next (.finish (d.succeeds call) now), d.shipper.next call⟩
  | e, _ => ⟨d.history.next e, d.shipper⟩

def after (d : Depot) (events : List Batched.Event) : Depot := events.foldl next d

variable {d : Depot} {limit : Nat}

theorem next_of_call? {call : Call} (hcall : d.history.sink.batcher.call? = some call) (ok : Bool)
    (now : Nat) :
    d.next (.finish ok now) =
      ⟨d.history.next (.finish (d.succeeds call) now), d.shipper.next call⟩ := by
  simp only [next, hcall]

theorem next_finish {call : Call} (hcall : d.history.sink.batcher.call? = some call) (ok : Bool)
    (now : Nat) :
    ∃ b parcels client, Batched.Answers d.history.sink b call (d.succeeds call) ∧
      Ships d.shipper.writer call parcels (d.succeeds call) ∧
      d.next (.finish ok now) =
        ⟨{ d.history with sink := b, log := d.history.log ++ [⟨call, d.succeeds call⟩] },
          ⟨d.shipper.writer.advance call.messages.length, client,
            d.shipper.shipments ++ [⟨⟨call, d.succeeds call⟩, parcels⟩]⟩⟩ := by
  obtain ⟨b, hb⟩ := Batched.exists_finish? hcall (d.succeeds call) now
  obtain ⟨call', ha, hhistory⟩ := Batched.History.next_finish hb
  obtain rfl : call' = call := Option.some.inj (ha.asked.symm.trans hcall)
  obtain ⟨parcels, ok', client, heq, hok, hships⟩ := d.shipper.next_eq call'
  obtain rfl : d.succeeds call' = ok' := hok
  refine ⟨b, parcels, client, ha, hships, ?_⟩
  rw [next_of_call? hcall, heq, hhistory]

/-- Any other event is one of the sink alone. -/
theorem next_other {e : Batched.Event}
    (he : ∀ ok now call, e = .finish ok now → d.history.sink.batcher.call? ≠ some call) :
    d.next e = ⟨d.history.next e, d.shipper⟩ ∧ (d.history.next e).log = d.history.log := by
  by_cases hf : ∀ ok now, e ≠ .finish ok now
  · refine ⟨?_, (Batched.History.counters_next d.history hf).2.2⟩
    cases e with
    | finish ok now => exact absurd rfl (hf ok now)
    | _ => rfl
  · simp only [ne_eq, not_forall, not_not] at hf
    obtain ⟨ok, now, rfl⟩ := hf
    have hcall : d.history.sink.batcher.call? = none :=
      Option.eq_none_iff_forall_ne_some.mpr fun call => he ok now call rfl
    have hfinish : d.history.sink.finish? ok now = none := by
      refine Option.eq_none_iff_forall_ne_some.mpr fun b hb => ?_
      obtain ⟨call, ha⟩ := Batched.answers_of_finish? hb
      rw [ha.asked] at hcall
      cases hcall
    refine ⟨by simp only [next, hcall], ?_⟩
    simp only [Batched.History.next, hfinish]

/-- What holds of a sink that sends to a queue. -/
structure Sound (d : Depot) (w : Writer) (limit : Nat) : Prop where
  history : d.history.Sound limit
  counts : d.history.Counts
  shipper : d.shipper.Sound w
  log : d.shipper.shipments.map (·.toExchange) = d.history.log

variable {w : Writer}

theorem sound_create (s : Settings.Output) (w : Writer) (client : Client) :
    (create s w client).Sound w (max s.batchSize 1) :=
  ⟨Batched.History.sound_create s, ⟨rfl, rfl⟩, Shipper.sound_begin w client, rfl⟩

theorem Sound.next (h : d.Sound w limit) (e : Batched.Event) : (d.next e).Sound w limit := by
  by_cases he : ∀ ok now call, e = .finish ok now → d.history.sink.batcher.call? ≠ some call
  · obtain ⟨heq, hlog⟩ := next_other he
    rw [heq]
    exact ⟨h.history.next e, h.counts.next e, h.shipper, by rw [hlog]; exact h.log⟩
  · simp only [ne_eq, not_forall, not_not] at he
    obtain ⟨ok, now, call, rfl, hcall⟩ := he
    obtain ⟨b, parcels, client, -, -, heq⟩ := next_finish hcall ok now
    have hlog : (d.next (.finish ok now)).shipper.shipments.map (·.toExchange) =
        (d.next (.finish ok now)).history.log := by
      rw [heq]
      simp [h.log]
    rw [next_of_call? hcall] at hlog ⊢
    exact ⟨h.history.next (.finish (d.succeeds call) now),
      h.counts.next (.finish (d.succeeds call) now), h.shipper.next call, hlog⟩

theorem Sound.after (h : d.Sound w limit) (events : List Batched.Event) :
    (d.after events).Sound w limit := by
  induction events generalizing d with
  | nil => exact h
  | cons e rest ih => exact ih (h.next e)

theorem Sound.sent (h : d.Sound w limit) :
    Sent d.shipper.shipments d.history.sink.batcher.left := h.history.sentBy h.log

/-- The batch on its way comes to its end, and no other one is sent before. -/
theorem settles (d : Depot) (now : Nat) :
    ∃ answers, let d' := d.after (List.replicate answers (.finish true now))
      d'.history.batches = d.history.batches ∧ d'.history.sink.batcher.sent = [] ∧
        d'.history.sink.batcher.left = [] := by
  induction hn : Batched.pending d.history.sink.batcher using Nat.strong_induction_on
    generalizing d with
  | h n ih =>
    cases hcall : d.history.sink.batcher.call? with
    | none =>
      have hzero := Batched.pending_of_call?_eq_none hcall
      unfold Batched.pending at hzero
      have hsent : d.history.sink.batcher.sent.length = 0 := by omega
      have hleft : d.history.sink.batcher.left.length = 0 := by omega
      exact ⟨0, rfl, List.length_eq_zero_iff.mp hsent, List.length_eq_zero_iff.mp hleft⟩
    | some call =>
      obtain ⟨b, parcels, client, ha, -, heq⟩ := next_finish hcall true now
      obtain ⟨answers, hbatches, hsent, hleft⟩ :=
        ih _ (hn ▸ ha.pending_lt) (d.next (.finish true now)) (by rw [heq])
      refine ⟨answers + 1, ?_, hsent, hleft⟩
      have hkept : (d.next (.finish true now)).history.batches = d.history.batches := by
        rw [heq]
        simp only [Batched.History.batches, ha.sent, ha.sent', List.filterMap_append,
          List.append_nil]
        cases call <;> rfl
      rw [← hkept]
      exact hbatches

theorem Sound.batches (h : d.Sound w limit) :
    (flights d.shipper.shipments).reverse.map Flight.batch ++ d.history.sink.batcher.sent =
      d.history.batches := by
  rw [Batched.History.batches, ← h.log, map_batch_flights, List.filterMap_map]
  rfl

theorem Sound.shipped (h : d.Sound w limit) {f : Flight (List Parcel)}
    (hf : f ∈ flights d.shipper.shipments) : Shipped w f where
  flies := h.sent.inFlight.flies hf
  ships := fun x hx => by
    obtain ⟨htogether, halone⟩ := mem_of_mem_flights hf
    have hmem : x ∈ d.shipper.shipments := by
      rcases List.mem_cons.mp hx with rfl | hx
      · exact htogether
      · exact halone x hx
    obtain ⟨k, hk⟩ := List.mem_iff_getElem?.mp hmem
    exact ⟨_, h.shipper.ships k x hk⟩

/-! ## The sink in a system -/

/-- The sink as part of a system. -/
def outlet (d : Depot) (name : String) (delay : Nat) : Outlet :=
  .batched name d.history.sink (.queue d.shipper.writer d.shipper.client) delay

/-- The calls of its users are events of the sink. -/
theorem calls_follow (d : Depot) (name : String) (delay now : Nat) :
    (d.outlet name delay).start.2.1 = (d.next .start).outlet name delay ∧
    (∀ m, ((d.outlet name delay).begin m now).2 =
      (d.next (.produce (.put m))).outlet name delay) ∧
    (∀ ticket r o entries,
      (d.outlet name delay).proceed? (.waiting ticket) now = some (r, o, entries) →
        o = (d.next (.produce (.enter ticket))).outlet name delay) ∧
    ∀ call phase r o entries, d.history.stops[call]? = some (some phase) →
      (d.outlet name delay).stop? phase now = some (r, o, entries) →
        o = (d.next (.goOn call now)).outlet name delay := by
  refine ⟨rfl, fun m => rfl, fun ticket r o entries h => ?_, fun call phase r o entries hphase h => ?_⟩
  · obtain ⟨queue, hqueue, heq⟩ := Option.map_eq_some_iff.mp h
    cases heq
    simp [outlet, next, Batched.History.next, Queue.produce, hqueue]
  · obtain ⟨⟨sink, phase?⟩, hstop, heq⟩ := Option.map_eq_some_iff.mp h
    cases heq
    simp [outlet, next, Batched.History.next, hphase, hstop]

/-- Every step of the batcher is an event of the sink. -/
theorem step?_follows {name : String} {delay i now : Nat} {o : Outlet} {entries : List Engine.Entry}
    (h : (d.outlet name delay).step? i now = some (o, entries)) :
    ∃ e, o = (d.next e).outlet name delay := by
  have hfinish {call : Call} (hcall : d.history.sink.batcher.call? = some call) {b : Batched}
      (hb : d.history.sink.finish? (d.succeeds call) now = some b) :
      (d.next (.finish true now)).outlet name delay =
        .batched name b (.queue (d.shipper.writer.answer d.shipper.client call).2.1
          (d.shipper.writer.answer d.shipper.client call).2.2) delay := by
    simp only [next_of_call? hcall, outlet, Batched.History.next, hb, Shipper.next]
  simp only [outlet, Outlet.step?, Outlet.stepBatched?] at h
  split at h
  · obtain ⟨b, hb, heq⟩ := Option.map_eq_some_iff.mp h
    cases heq
    have helse (x y : Option Batched) (h : (x <|> y) = some b) : x = some b ∨ y = some b := by
      cases x with
      | none => exact Or.inr h
      | some _ => exact Or.inl h
    rcases helse _ _ hb with hb | hb
    · exact ⟨.leave now, by simp [outlet, next, Batched.History.next, hb]⟩
    · rcases helse _ _ hb with hb | hb
      · exact ⟨.flush now, by simp [outlet, next, Batched.History.next, hb]⟩
      · exact ⟨.take now, by simp [outlet, next, Batched.History.next, hb]⟩
  · rename_i batch last since hbatcher
    split at h
    · cases h
    · obtain ⟨b, hb, heq⟩ := Option.map_eq_some_iff.mp h
      cases heq
      have hcall : d.history.sink.batcher.call? = some (.batch batch) := by rw [hbatcher]; rfl
      exact ⟨.finish true now, (hfinish hcall hb).symm⟩
  · rename_i m rest last since hbatcher
    split at h
    · cases h
    · obtain ⟨b, hb, heq⟩ := Option.map_eq_some_iff.mp h
      cases heq
      have hcall : d.history.sink.batcher.call? = some (.one m) := by rw [hbatcher]; rfl
      exact ⟨.finish true now, (hfinish hcall hb).symm⟩
  · cases h

end Depot

/-! ## What becomes of the messages -/

theorem counters_batched (b : Batched) (name : String) (destination : Engine.Destination)
    (delay : Nat) (metrics : Metrics) :
    let measured := (Outlet.batched name b destination delay).measure metrics
    measured.value .published name % UInt64.size =
        (metrics.value .published name + b.published) % UInt64.size ∧
      measured.value .dropped name % UInt64.size =
        (metrics.value .dropped name + b.dropped) % UInt64.size := by
  intro measured
  have hvalue (metric : Metric) : measured.value metric name = _ :=
    Metrics.value_foldl_observe _ metric name name b.sizes
  rw [hvalue .published, hvalue .dropped]
  exact metrics.values_counted name b.published b.dropped

/-- A message of a batch was taken by the queue with a request of the batch, or with the request of
the message alone. -/
def Taken (f : Flight (List Parcel)) (i : Nat) : Prop :=
  ∃ m x p e, f.batch[i]? = some m ∧
    (x = f.together ∧ e.id = Writer.decimal i ∨ f.alone[i]? = some x ∧ e.id = Writer.decimal 0) ∧
    p ∈ x.trace ∧ e ∈ p.entries ∧ e.body = Text.replaced m.payload ∧
    ∃ ids, p.answer = .rejected ids ∧ e.id ∉ ids

/-- Every message of a batch that is answered was counted once, the published ones were taken, and no
request is larger than the batch. -/
structure Accounted (f : Flight (List Parcel)) : Prop where
  once : (f.published ++ f.dropped).Perm (List.range (f.batch.length - f.left.length))
  taken : ∀ i ∈ f.published, Taken f i
  small : ∀ x ∈ f.together :: f.alone, ∀ p ∈ x.trace, p.entries.length ≤ f.batch.length

theorem Shipped.accounted {w : Writer} {f : Flight (List Parcel)} (h : Shipped w f) :
    Accounted f where
  once := h.flies.counted_once
  taken := fun i hi => by
    have hmem := Flight.mem_published.mp hi
    split at hmem
    · rename_i hok
      obtain ⟨n, hships⟩ := h.together
      rw [hok] at hships
      have hm : f.batch[i]? = some f.batch[i] := List.getElem?_eq_getElem hmem
      obtain ⟨p, hp, hacc⟩ := hships.accepts_batch hm
      obtain ⟨he, ids, hanswer, hid⟩ := Parcel.mem_accepted_iff.mp hacc
      rw [Writer.label_eq] at he hid
      exact ⟨_, f.together, p, _, hm, Or.inl ⟨rfl, rfl⟩, hp, he, rfl, ids, hanswer, hid⟩
    · obtain ⟨x, hx, hok⟩ := hmem
      obtain ⟨n, m, hm, -, hships⟩ := h.alone hx
      rw [hok] at hships
      obtain ⟨p, hp, hacc⟩ := hships.accepts_one
      obtain ⟨he, ids, hanswer, hid⟩ := Parcel.mem_accepted_iff.mp hacc
      rw [Writer.label_eq] at he hid
      exact ⟨m, x, p, _, hm, Or.inr ⟨hx, rfl⟩, hp, he, rfl, ids, hanswer, hid⟩
  small := fun x hx p hp => by
    rcases List.mem_cons.mp hx with rfl | hx
    · obtain ⟨n, hships⟩ := h.together
      exact hships.length_le hp
    · obtain ⟨i, hi⟩ := List.mem_iff_getElem?.mp hx
      obtain ⟨n, m, hm, -, hships⟩ := h.alone hi
      exact (hships.length_le hp).trans
        (Nat.lt_of_le_of_lt (Nat.zero_le i) (List.getElem?_eq_some_iff.mp hm).1)

/-- Whatever the queue answers, and in whatever order the sink's producers, its batcher and the calls
that stop it take their steps: each message of a batch is counted once, as published only if the queue
took it, and the counters of the sink are what its batches come to. -/
theorem messages_accounted (s : Settings.Output) (w : Writer) (client : Client)
    (events : List Batched.Event) :
    let d := (Depot.create s w client).after events
    let fs := flights d.shipper.shipments
    fs.reverse.map Flight.batch ++ d.history.sink.batcher.sent = d.history.batches ∧
    fs.flatMap Flight.left = d.history.sink.batcher.left ∧
    (∀ f ∈ fs, Accounted f) ∧
    (∀ name destination delay metrics,
      let measured := (Outlet.batched name d.history.sink destination delay).measure metrics
      measured.value .published name % UInt64.size =
          (metrics.value .published name + (fs.flatMap Flight.published).length) % UInt64.size ∧
        measured.value .dropped name % UInt64.size =
          (metrics.value .dropped name + (fs.flatMap Flight.dropped).length) % UInt64.size) ∧
    ∀ now, ∃ answers, let d' := d.after (List.replicate answers (.finish true now))
      d'.history.batches = d.history.batches ∧ d'.history.sink.batcher.sent = [] ∧
        d'.history.sink.batcher.left = [] := by
  intro d fs
  have hd : d.Sound w (max s.batchSize 1) := (Depot.sound_create s w client).after events
  have hpublished : d.history.sink.published = (fs.flatMap Flight.published).length := by
    rw [hd.sent.counts.1, hd.counts.published, ← hd.log, List.flatMap_map]
  have hdropped : d.history.sink.dropped = (fs.flatMap Flight.dropped).length := by
    rw [hd.sent.counts.2, hd.counts.dropped, ← hd.log, List.flatMap_map]
  refine ⟨hd.batches, hd.sent.inFlight.flatMap_left, fun f hf => (hd.shipped hf).accounted,
    fun name destination delay metrics => ?_, d.settles⟩
  rw [← hpublished, ← hdropped]
  exact counters_batched d.history.sink name destination delay metrics

end Sqs

end ChangeFeed.Sink
