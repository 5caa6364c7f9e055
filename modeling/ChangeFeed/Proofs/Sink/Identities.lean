import ChangeFeed.Proofs.Lock.Sessions
import ChangeFeed.Proofs.Sink.Parcels

/-!
# Entries told apart

A queue takes two entries with one deduplication id for one message. The ids of a writer are its start
time and a running number, so no two messages get one, whatever the queue answers.

* `Writer.code_inj`, `Writer.started_of_code`: what can be read off a deduplication id.
* `Place` is where an entry stands in the requests of a writer. `Shipper.Sound.place`: which message
  the entry at a place is made of.
* `Shipper.ToldApart`: what holds of the ids and groups of all entries. `entries_told_apart`: it does.
-/

namespace ChangeFeed.Sink.Sqs

/-! ## Reading deduplication ids -/

namespace Writer

variable {w w' : Writer} {m n : Nat}

theorem decimals_inj {a b c d : Nat}
    (h : decimal a ++ "-" ++ decimal b = decimal c ++ "-" ++ decimal d) : a = c ∧ b = d := by
  have hlist : Decimal.digits a ++ '-' :: Decimal.digits b =
      Decimal.digits c ++ '-' :: Decimal.digits d := by
    simpa [decimal] using congrArg String.toList h
  have hdigits := Lock.Table.eq_of_append_hyphen (Lock.Table.hyphen_not_mem_digits b)
    (Lock.Table.hyphen_not_mem_digits d) hlist
  rw [hdigits] at hlist
  exact ⟨Decimal.digits_inj (List.append_cancel_right hlist), Decimal.digits_inj hdigits⟩

/-- As long as the running numbers of a writer do not begin again, each id is given once. -/
theorem code_inj (hg : w.group.isSome) (hm : m < UInt64.size) (hn : n < UInt64.size)
    (h : w.code m = w.code n) : m = n := by
  obtain ⟨group, hgroup⟩ := Option.isSome_iff_exists.mp hg
  simp only [code, hgroup, Option.map_some, Option.some.injEq] at h
  have hnumber := UInt64.toNat_inj.mp (decimals_inj h).2
  have hword := congrArg UInt64.toNat (UInt64.add_right_inj _ |>.mp hnumber)
  rwa [UInt64.toNat_ofNat_of_lt' hm, UInt64.toNat_ofNat_of_lt' hn] at hword

theorem started_of_code (h : w.code m = w'.code n) (hne : w.code m ≠ none) :
    w.started = w'.started := by
  unfold code at h hne
  cases hg : w.group with
  | none => simp [hg] at hne
  | some group =>
    cases hg' : w'.group with
    | none => simp [hg, hg'] at h
    | some group' =>
      simp only [hg, hg', Option.map_some, Option.some.injEq] at h
      exact (decimals_inj h).1

end Writer

/-! ## Where entries stand -/

/-- An entry by its request and by the call that the request was sent for. -/
@[ext]
structure Place where
  call : Nat
  request : Nat
  position : Nat
  deriving DecidableEq, Inhabited

namespace Shipper

def requestAt? (u : Shipper) (a : Place) : Option (List Entry) :=
  u.shipments[a.call]?.bind fun x => x.trace[a.request]?.map Parcel.entries

def entryAt? (u : Shipper) (a : Place) : Option Entry := (u.requestAt? a).bind (·[a.position]?)

/-- At the second place the entry of the first one is sent again, alone, for the same batch. -/
structure Resent (u : Shipper) (a b : Place) : Prop where
  call : a.call = b.call
  batch : ∃ x messages, u.shipments[a.call]? = some x ∧ x.call = .batch messages
  later : a.request < b.request
  alone : ∃ e, u.entryAt? a = some e ∧ u.requestAt? b = some [e]

variable {u : Shipper} {w : Writer} {e e' : Entry} {a b : Place}

/-- The message at a place, and how its entry came there. -/
structure Shows (u : Shipper) (w : Writer) (a : Place) (e : Entry) (x : Shipment) (i : Nat)
    (m : Message) : Prop where
  call : u.shipments[a.call]? = some x
  message : x.call.messages[i]? = some m
  entry : e = (w.advance (offset u.shipments a.call)).label i m
  stands : a.request = 0 ∧ a.position = i ∨
    0 < a.request ∧ a.position = 0 ∧ (∃ messages, x.call = .batch messages) ∧
      u.requestAt? a = some [e]

theorem Sound.place (h : u.Sound w) (ha : u.entryAt? a = some e) :
    ∃ x i m, u.Shows w a e x i m := by
  obtain ⟨entries, hrequest, hentry⟩ := Option.bind_eq_some_iff.mp ha
  obtain ⟨x, hx, hparcel⟩ := Option.bind_eq_some_iff.mp hrequest
  obtain ⟨p, hp, rfl⟩ := Option.map_eq_some_iff.mp hparcel
  rcases (h.ships _ x hx).entries hp with ⟨hfirst, hentries⟩ | ⟨hlater, hbatch, e', he', hentries⟩
  · rw [hentries, Writer.getElem?_labels] at hentry
    obtain ⟨m, hm, rfl⟩ := Option.map_eq_some_iff.mp hentry
    exact ⟨x, a.position, m, hx, hm, rfl, Or.inl ⟨hfirst, rfl⟩⟩
  · rw [hentries] at hentry
    obtain ⟨hposition, hget⟩ := List.getElem?_eq_some_iff.mp hentry
    have hzero : a.position = 0 := Nat.lt_one_iff.mp hposition
    obtain rfl : e' = e := by simpa [hzero] using hget
    obtain ⟨i, m, hm, heq⟩ := Writer.mem_labels he'
    exact ⟨x, i, m, hx, hm, heq, Or.inr ⟨hlater, hzero, hbatch, by rw [hrequest, hentries]⟩⟩

theorem Shows.deduplication {x : Shipment} {i : Nat} {m : Message} (h : u.Shows w a e x i m) :
    e.deduplication = w.code (offset u.shipments a.call + i) := by
  rw [h.entry, Writer.label_eq, Writer.code_advance]

/-- A message comes before those of later calls. -/
theorem offset_lt {shipments : List Shipment} {k l i : Nat} {x : Shipment} (hkl : k < l)
    (hx : shipments[k]? = some x) (hi : i < x.call.messages.length) :
    offset shipments k + i < offset shipments l := by
  obtain ⟨more, rfl⟩ : ∃ more, l = k + 1 + more := ⟨l - (k + 1), by omega⟩
  have htake : shipments.take (k + 1) = shipments.take k ++ [x] := by
    rw [List.take_add_one, hx]
    rfl
  unfold offset
  rw [List.take_add, htake]
  simp only [List.flatMap_append, List.flatMap_cons, List.flatMap_nil, List.append_nil,
    List.length_append]
  omega

/-- The number of a message tells the message. -/
theorem eq_of_offset {shipments : List Shipment} {k l i j : Nat} {x y : Shipment}
    (hx : shipments[k]? = some x) (hy : shipments[l]? = some y) (hi : i < x.call.messages.length)
    (hj : j < y.call.messages.length) (h : offset shipments k + i = offset shipments l + j) :
    k = l ∧ i = j := by
  rcases Nat.lt_trichotomy k l with hkl | rfl | hkl
  · have := offset_lt hkl hx hi
    omega
  · exact ⟨rfl, Nat.add_left_cancel h⟩
  · have := offset_lt hkl hy hj
    omega

/-- Two places with one deduplication id. -/
theorem Sound.eq_or_resent (h : u.Sound w) (hg : w.group.isSome)
    (hfew : offset u.shipments u.shipments.length < UInt64.size) (ha : u.entryAt? a = some e)
    (hb : u.entryAt? b = some e') (heq : e.deduplication = e'.deduplication) :
    a = b ∨ u.Resent a b ∨ u.Resent b a := by
  obtain ⟨x, i, m, hx⟩ := h.place ha
  obtain ⟨y, j, m', hy⟩ := h.place hb
  have hi := (List.getElem?_eq_some_iff.mp hx.message).1
  have hj := (List.getElem?_eq_some_iff.mp hy.message).1
  have hbound {k n : Nat} {z : Shipment} (hz : u.shipments[k]? = some z)
      (hn : n < z.call.messages.length) : offset u.shipments k + n < UInt64.size :=
    (offset_lt (List.getElem?_eq_some_iff.mp hz).1 hz hn).trans hfew
  have hnumber : offset u.shipments a.call + i = offset u.shipments b.call + j := by
    refine Writer.code_inj hg (hbound hx.call hi) (hbound hy.call hj) ?_
    rw [← hx.deduplication, ← hy.deduplication, heq]
  obtain ⟨hcall, rfl⟩ := eq_of_offset hx.call hy.call hi hj hnumber
  -- one message of one call, so it is one entry
  have hsame : x = y := Option.some.inj (by rw [← hx.call, hcall, hy.call])
  subst hsame
  obtain rfl : m = m' := Option.some.inj (hx.message.symm.trans hy.message)
  have hentry : e = e' := by rw [hx.entry, hy.entry, hcall]
  subst hentry
  rcases Nat.lt_trichotomy a.request b.request with hlt | hrequest | hlt
  · rcases hy.stands with ⟨hzero, -⟩ | ⟨-, -, ⟨messages, hbatch⟩, halone⟩
    · omega
    · exact Or.inr (Or.inl ⟨hcall, ⟨x, messages, hx.call, hbatch⟩, hlt, e, ha, halone⟩)
  · left
    have hposition : a.position = b.position := by
      rcases hx.stands with ⟨hra, hpa⟩ | ⟨hra, hpa, -⟩ <;>
        rcases hy.stands with ⟨hrb, hpb⟩ | ⟨hrb, hpb, -⟩ <;> omega
    exact Place.ext hcall hrequest hposition
  · rcases hx.stands with ⟨hzero, -⟩ | ⟨-, -, ⟨messages, hbatch⟩, halone⟩
    · omega
    · exact Or.inr (Or.inr ⟨hcall.symm, ⟨x, messages, hy.call, hbatch⟩, hlt, e, hb, halone⟩)

/-- What holds of the ids and groups of all entries that a writer of given settings has sent. -/
structure ToldApart (s : Settings.Sqs) (u : Shipper) : Prop where
  ids : ∀ x ∈ u.shipments, ∀ p ∈ x.trace, (p.entries.map Entry.id).Nodup
  plain : s.isFifo = false → ∀ x ∈ u.shipments, ∀ p ∈ x.trace, ∀ e ∈ p.entries,
    e.group = none ∧ e.deduplication = none
  grouped : s.isFifo = true → ∀ x ∈ u.shipments, ∀ p ∈ x.trace, ∀ e ∈ p.entries,
    e.deduplication.isSome ∧ ∃ i m, x.call.messages[i]? = some m ∧ e.id = Writer.decimal i ∧
      e.body = Text.replaced m.payload ∧ e.group = some (m.key.getD s.groupId)
  once : s.isFifo = true → ∀ a b e e', u.entryAt? a = some e → u.entryAt? b = some e' →
    e.deduplication = e'.deduplication → a = b ∨ u.Resent a b ∨ u.Resent b a

/-- Every entry that was sent is the entry of a message. -/
theorem Sound.mem (h : u.Sound w) {x : Shipment} (hx : x ∈ u.shipments) {p : Parcel}
    (hp : p ∈ x.trace) :
    (p.entries.map Entry.id).Nodup ∧ ∀ e ∈ p.entries, ∃ n i m, x.call.messages[i]? = some m ∧
      e = (w.advance n).label i m := by
  obtain ⟨k, hk⟩ := List.mem_iff_getElem?.mp hx
  have hsub := (h.ships k x hk).sublist hp
  refine ⟨(Writer.nodup_ids_labels _ _).sublist (hsub.map _), fun e he => ?_⟩
  obtain ⟨i, m, hm, heq⟩ := Writer.mem_labels (hsub.mem he)
  exact ⟨_, i, m, hm, heq⟩

theorem Sound.code (h : u.Sound w) (ha : u.entryAt? a = some e) :
    ∃ n, e.deduplication = w.code n := by
  obtain ⟨x, i, m, hshows⟩ := h.place ha
  exact ⟨_, hshows.deduplication⟩

theorem Sound.toldApart {s : Settings.Sqs} (h : u.Sound w)
    (hg : w.group = if s.isFifo then some s.groupId else none)
    (hfew : offset u.shipments u.shipments.length < UInt64.size) : u.ToldApart s where
  ids := fun x hx p hp => (h.mem hx hp).1
  plain := fun hs x hx p hp e he => by
    obtain ⟨n, i, m, -, rfl⟩ := (h.mem hx hp).2 e he
    simp [Writer.label_eq, Writer.code, hg, hs]
  grouped := fun hs x hx p hp e he => by
    obtain ⟨n, i, m, hm, rfl⟩ := (h.mem hx hp).2 e he
    refine ⟨?_, i, m, hm, ?_⟩ <;> simp [Writer.label_eq, Writer.code, hg, hs]
  once := fun hs a b e e' ha hb heq => h.eq_or_resent (by simp [hg, hs]) hfew ha hb heq

end Shipper

theorem Writer.create_eq {s : Settings.Sqs} {started : Nat} {w : Writer}
    (h : create s started = .ok w) :
    w.group = (if s.isFifo then some s.groupId else none) ∧ w.started = started := by
  unfold create at h
  split at h
  · cases h
  · cases h
    exact ⟨rfl, rfl⟩

/-- Whatever a queue answers, the entries of each request have different ids. The entries for a queue
that keeps order have a group and a deduplication id, and no two of them share that id unless one is
the other one sent again for its batch; others have neither. A writer of another start time shares no
deduplication id. -/
theorem entries_told_apart (s : Settings.Sqs) (started : Nat) (w : Writer) (client : Client)
    (calls : List Call) (hw : Writer.create s started = .ok w)
    (hfew : (calls.flatMap Call.messages).length < UInt64.size) :
    let u := (Shipper.begin w client).after calls
    u.shipments.map (·.call) = calls ∧ u.ToldApart s ∧
    ∀ (s' : Settings.Sqs) (started' : Nat) (w' : Writer) (client' : Client) (calls' : List Call),
      Writer.create s' started' = .ok w' → started ≠ started' →
      ∀ a b e e', u.entryAt? a = some e →
        ((Shipper.begin w' client').after calls').entryAt? b = some e' →
        e.deduplication = e'.deduplication → e.deduplication = none := by
  intro u
  have hu : u.Sound w := (Shipper.sound_begin w client).after calls
  have hcalls : u.shipments.map (·.call) = calls := Shipper.calls_after _ _
  have hmessages : Shipper.offset u.shipments u.shipments.length =
      (calls.flatMap Call.messages).length := by
    rw [Shipper.offset, List.take_length, ← hcalls, List.flatMap_map]
  obtain ⟨hgroup, hstarted⟩ := Writer.create_eq hw
  refine ⟨hcalls, hu.toldApart hgroup (hmessages ▸ hfew), ?_⟩
  intro s' started' w' client' calls' hw' hne a b e e' ha hb heq
  by_contra hnone
  obtain ⟨n, hn⟩ := hu.code ha
  obtain ⟨n', hn'⟩ := ((Shipper.sound_begin w' client').after calls').code hb
  refine hne ?_
  rw [← hstarted, ← (Writer.create_eq hw').2]
  exact Writer.started_of_code (by rw [← hn, ← hn', heq]) (hn ▸ hnone)

/-- A queue that keeps order. -/
def orderedQueue : Settings.Sqs :=
  { Settings.Sqs.standard with queueUrl := some "https://sqs.us-east-1.amazonaws.com/1/ev.fifo" }

/-- Its writer. -/
def orderedWriter (started : Nat) : Writer :=
  ⟨"https://sqs.us-east-1.amazonaws.com/1/ev.fifo", some "nomad-firehose", started, 0⟩

theorem create_orderedQueue (started : Nat) :
    Writer.create orderedQueue started = .ok (orderedWriter started) := by
  have hfifo : orderedQueue.isFifo = true := by decide +kernel
  simp only [Writer.create, hfifo, if_true]
  rfl

/-- A batch of two messages, and then one of them again. -/
def batchThenOne : List Call :=
  [.batch [⟨some "a", [0x31]⟩, ⟨none, [0x32]⟩], .one ⟨some "a", [0x31]⟩]

/-- The second entry of the batch is rejected and sent again. -/
def secondRejected : Client := ⟨[.rejected ["1"]], []⟩

theorem entries_told_apart_of_batchThenOne :
    Writer.create orderedQueue 7 = .ok (orderedWriter 7) ∧
    (batchThenOne.flatMap Call.messages).length < UInt64.size ∧
    let u := (Shipper.begin (orderedWriter 7) secondRejected).after batchThenOne
    u.shipments.map (·.call) = batchThenOne ∧ u.ToldApart orderedQueue ∧
      u.entryAt? ⟨0, 0, 1⟩ = some ⟨"1", "2", some "nomad-firehose", some "7-1"⟩ ∧
      u.Resent ⟨0, 0, 1⟩ ⟨0, 1, 0⟩ ∧
      u.entryAt? ⟨1, 0, 0⟩ = some ⟨"0", "1", some "a", some "7-2"⟩ ∧
      ∀ b e, ((Shipper.begin (orderedWriter 8) secondRejected).after batchThenOne).entryAt? b =
        some e → some "7-2" ≠ e.deduplication := by
  have hcreate := create_orderedQueue 7
  have hfew : (batchThenOne.flatMap Call.messages).length < UInt64.size := by decide
  obtain ⟨hcalls, hapart, hothers⟩ :=
    entries_told_apart orderedQueue 7 (orderedWriter 7) secondRejected batchThenOne hcreate hfew
  let u := (Shipper.begin (orderedWriter 7) secondRejected).after batchThenOne
  have hfirst : u.entryAt? ⟨0, 0, 1⟩ = some ⟨"1", "2", some "nomad-firehose", some "7-1"⟩ := by
    decide +kernel
  have hagain : u.requestAt? ⟨0, 1, 0⟩ =
      some [⟨"1", "2", some "nomad-firehose", some "7-1"⟩] := by decide +kernel
  have hlast : u.entryAt? ⟨1, 0, 0⟩ = some ⟨"0", "1", some "a", some "7-2"⟩ := by decide +kernel
  have hresent : u.Resent ⟨0, 0, 1⟩ ⟨0, 1, 0⟩ :=
    ⟨rfl, ⟨_, _, rfl, rfl⟩, by decide, _, hfirst, hagain⟩
  refine ⟨hcreate, hfew, hcalls, hapart, hfirst, hresent, hlast, fun b e he heq => ?_⟩
  have hnone := hothers orderedQueue 8 (orderedWriter 8) secondRejected batchThenOne
    (create_orderedQueue 8) (by decide) _ b _ e hlast he heq
  cases hnone

end ChangeFeed.Sink.Sqs
