import Mathlib.Data.List.Basic
import ChangeFeed.Engine.Outlet
import ChangeFeed.Proofs.Decimal.Digits
import ChangeFeed.Proofs.Sink.Flights

/-!
# Requests to a message queue

A call of a queue's writer is one request, and if the queue rejects entries of a batch, further
requests with one of them each.

* `Parcel` is a request with its answer, `Parcel.accepted` what the queue takes with it, and
  `Client.since` tells the requests of a client since an earlier one.
* `Writer.label` is the entry of a message. `Writer.entries_eq`: the entries of a request are the
  labels of its messages.
* `Ships`: what a call sends, by what it is answered. `ships_answer`: so it is with every call.
* `Shipper` is a writer at work. `Shipper.Sound`: the entries of its calls have running numbers.
-/

namespace ChangeFeed.Sink.Sqs

open Engine.Outlet (succeeded)

/-- A request with its answer. -/
structure Parcel where
  entries : List Entry
  answer : Answer
  deriving DecidableEq, Inhabited

/-- The entries of a request that the queue takes. -/
def Parcel.accepted (p : Parcel) : List Entry :=
  match p.answer with
  | .failed _ => []
  | .rejected ids => p.entries.filter (·.id ∉ ids)

theorem Parcel.mem_accepted_iff {p : Parcel} {e : Entry} :
    e ∈ p.accepted ↔ e ∈ p.entries ∧ ∃ ids, p.answer = .rejected ids ∧ e.id ∉ ids := by
  unfold Parcel.accepted
  split <;> simp_all

theorem Parcel.accepted_sublist (p : Parcel) : p.accepted.Sublist p.entries := by
  unfold Parcel.accepted
  split
  · exact List.nil_sublist _
  · exact List.filter_sublist

namespace Client

/-- The requests of a client since an earlier one, the first one first, with their answers. -/
def since (earlier client : Client) : List Parcel :=
  (client.requests.take (client.requests.length - earlier.requests.length)).reverse.mapIdx
    fun i entries => ⟨entries, earlier.script.getD i (.rejected [])⟩

/-- One request after the other. -/
inductive Sends : Client → List Parcel → Client → Prop
  | none (client : Client) : Sends client [] client
  | more {client next last : Client} {entries : List Entry} {answer : Answer}
      {parcels : List Parcel} (h : client.send entries = (answer, next))
      (hs : Sends next parcels last) : Sends client (⟨entries, answer⟩ :: parcels) last

variable {client last : Client} {parcels : List Parcel}

theorem send_eq (client : Client) (entries : List Entry) :
    client.send entries = (client.script.getD 0 (.rejected []),
      ⟨client.script.tail, entries :: client.requests⟩) := by
  obtain ⟨script, requests⟩ := client
  cases script <;> rfl

theorem Sends.requests (h : Sends client parcels last) :
    last.requests = (parcels.map Parcel.entries).reverse ++ client.requests := by
  induction h with
  | none => rfl
  | more h _ ih =>
    rw [send_eq, Prod.mk.injEq] at h
    rw [ih, ← h.2]
    simp

theorem Sends.answers (h : Sends client parcels last) :
    (parcels.map Parcel.entries).mapIdx
      (fun i entries => (⟨entries, client.script.getD i (.rejected [])⟩ : Parcel)) = parcels := by
  induction h with
  | none => rfl
  | @more client next last entries answer parcels h _ ih =>
    rw [send_eq, Prod.mk.injEq] at h
    have htail (i : Nat) :
        next.script.getD i (.rejected []) = client.script.getD (i + 1) (.rejected []) := by
      rw [← h.2]
      simp [List.getD_eq_getElem?_getD]
    rw [List.map_cons, List.mapIdx_cons, h.1]
    simp only [htail] at ih
    rw [ih]

/-- What was sent since is what the client has recorded. -/
theorem Sends.since (h : Sends client parcels last) : client.since last = parcels := by
  have hlength : last.requests.length - client.requests.length = parcels.length := by
    simp [h.requests]
  have hlength' : parcels.length = (parcels.map Parcel.entries).reverse.length := by simp
  rw [Client.since, hlength, h.requests, hlength', List.take_left, List.reverse_reverse]
  exact h.answers

end Client

open Client (Sends)

/-! ## Entries -/

namespace Writer

variable {w : Writer}

/-- The writer after so many entries. -/
def advance (w : Writer) (n : Nat) : Writer :=
  match w.group with
  | none => w
  | some _ => { w with sequence := w.sequence + .ofNat n }

/-- The entry of a message at a position of a request. -/
def label (w : Writer) (position : Nat) (m : Message) : Entry :=
  ((w.advance position).entry position m).1

/-- The deduplication id of an entry, by how many entries come before it. -/
def code (w : Writer) (n : Nat) : Option String :=
  w.group.map fun _ => decimal w.started ++ "-" ++ decimal (w.sequence + .ofNat n).toNat

theorem advance_of_none (hg : w.group = none) (n : Nat) : w.advance n = w := by
  simp [advance, hg]

theorem advance_of_some {group : String} (hg : w.group = some group) (n : Nat) :
    w.advance n = { w with sequence := w.sequence + .ofNat n } := by
  simp [advance, hg]

@[simp] theorem advance_group (w : Writer) (n : Nat) : (w.advance n).group = w.group := by
  cases hg : w.group with
  | none => rw [advance_of_none hg, hg]
  | some group => rw [advance_of_some hg, hg]

@[simp] theorem advance_started (w : Writer) (n : Nat) : (w.advance n).started = w.started := by
  cases hg : w.group with
  | none => rw [advance_of_none hg]
  | some group => rw [advance_of_some hg]

@[simp] theorem advance_zero (w : Writer) : w.advance 0 = w := by
  cases hg : w.group with
  | none => rw [advance_of_none hg]
  | some group => simp [advance_of_some hg]

theorem advance_advance (w : Writer) (m n : Nat) :
    (w.advance m).advance n = w.advance (m + n) := by
  cases hg : w.group with
  | none => rw [advance_of_none hg, advance_of_none hg, advance_of_none hg]
  | some group =>
    rw [advance_of_some (by rw [advance_group, hg]), advance_of_some hg, advance_of_some hg,
      UInt64.ofNat_add, ← UInt64.add_assoc]

theorem code_advance (w : Writer) (m n : Nat) : (w.advance m).code n = w.code (m + n) := by
  unfold code
  rw [advance_group, advance_started]
  cases hg : w.group with
  | none => rfl
  | some group =>
    rw [advance_of_some hg, UInt64.ofNat_add, ← UInt64.add_assoc]

theorem entry_eq (w : Writer) (position : Nat) (m : Message) :
    w.entry position m = (⟨decimal position, Text.replaced m.payload,
      w.group.map (m.key.getD ·), w.code 0⟩, w.advance 1) := by
  cases hg : w.group with
  | none => simp [entry, code, advance, hg]
  | some group => simp [entry, code, advance, hg]

theorem label_eq (w : Writer) (position : Nat) (m : Message) :
    w.label position m = ⟨decimal position, Text.replaced m.payload,
      w.group.map (m.key.getD ·), w.code position⟩ := by
  rw [label, entry_eq, code_advance, advance_group, Nat.add_zero]

/-- The entries of a request. -/
theorem entries_eq (w : Writer) (position : Nat) (messages : List Message) :
    w.entries position messages =
      (messages.mapIdx fun i m => ((w.advance i).entry (position + i) m).1,
        w.advance messages.length) := by
  induction messages generalizing w position with
  | nil => simp [entries]
  | cons m rest ih =>
    have hnext (i : Nat) : position + 1 + i = position + (i + 1) := by omega
    have hone (i : Nat) : (w.advance 1).advance i = w.advance (i + 1) := by
      rw [advance_advance, Nat.add_comm]
    have hentries : w.entries position (m :: rest) =
        ((w.entry position m).1 :: ((w.advance 1).entries (position + 1) rest).1,
          ((w.advance 1).entries (position + 1) rest).2) := by
      rw [entries, entry_eq]
    rw [hentries, ih, List.mapIdx_cons, List.length_cons]
    simp only [hnext, hone, advance_zero, Nat.add_zero]

def labels (w : Writer) (messages : List Message) : List Entry := messages.mapIdx w.label

theorem entries_zero (w : Writer) (messages : List Message) :
    w.entries 0 messages = (w.labels messages, w.advance messages.length) := by
  simp only [entries_eq, Nat.zero_add]
  rfl

theorem getElem?_labels (w : Writer) (messages : List Message) (i : Nat) :
    (w.labels messages)[i]? = messages[i]?.map (w.label i) := by
  rw [labels, List.getElem?_mapIdx]

theorem length_labels (w : Writer) (messages : List Message) :
    (w.labels messages).length = messages.length := by
  rw [labels, List.length_mapIdx]

theorem mem_labels {messages : List Message} {e : Entry} (h : e ∈ w.labels messages) :
    ∃ i m, messages[i]? = some m ∧ e = w.label i m := by
  obtain ⟨i, hi⟩ := List.mem_iff_getElem?.mp h
  rw [getElem?_labels] at hi
  obtain ⟨m, hm, rfl⟩ := Option.map_eq_some_iff.mp hi
  exact ⟨i, m, hm, rfl⟩

theorem decimal_inj {m n : Nat} (h : decimal m = decimal n) : m = n :=
  Decimal.digits_inj (String.ofList_inj.mp h)

theorem ids_labels (w : Writer) (messages : List Message) :
    (w.labels messages).map Entry.id = (List.range messages.length).map decimal := by
  refine List.ext_getElem (by simp [length_labels]) fun i _ _ => ?_
  simp [labels, label_eq]

theorem nodup_ids_labels (w : Writer) (messages : List Message) :
    ((w.labels messages).map Entry.id).Nodup := by
  rw [ids_labels]
  exact List.nodup_range.map fun _ _ => decimal_inj

end Writer

/-! ## What a call sends -/

/-- The requests that send rejected entries again, one at a time until one is refused. -/
inductive Resends (entries : List Entry) : List String → List Parcel → Bool → Prop
  | done : Resends entries [] [] true
  | unknown {id : String} {ids : List String} {parcels : List Parcel} {ok : Bool}
      (h : entries.find? (·.id = id) = none) (hs : Resends entries ids parcels ok) :
      Resends entries (id :: ids) parcels ok
  | again {id : String} {ids : List String} {e : Entry} {parcels : List Parcel} {ok : Bool}
      (h : entries.find? (·.id = id) = some e) (hs : Resends entries ids parcels ok) :
      Resends entries (id :: ids) (⟨[e], .rejected []⟩ :: parcels) ok
  | refused {id : String} {ids : List String} {e : Entry} {answer : Answer}
      (h : entries.find? (·.id = id) = some e) (ha : answer ≠ .rejected []) :
      Resends entries (id :: ids) [⟨[e], answer⟩] false

/-- The requests of a call, and whether it succeeds. -/
inductive Ships (w : Writer) : Call → List Parcel → Bool → Prop
  | failed (messages : List Message) (reason : String) :
      Ships w (.batch messages) [⟨w.labels messages, .failed reason⟩] false
  | rejected {messages : List Message} {ids : List String} {parcels : List Parcel} {ok : Bool}
      (h : Resends (w.labels messages) ids parcels ok) :
      Ships w (.batch messages) (⟨w.labels messages, .rejected ids⟩ :: parcels) ok
  | one (m : Message) (answer : Answer) :
      Ships w (.one m) [⟨w.labels [m], answer⟩] (answer = .rejected [])

/-- The answer of a writer to a call. -/
def Writer.answer (w : Writer) (client : Client) : Call → Except Error Unit × Writer × Client
  | .batch messages => w.writeBatch client messages
  | .one m => w.writeOne client m

theorem sends_sendOne (w : Writer) (client : Client) (e : Entry) :
    ∃ answer, client.send [e] = (answer, (w.sendOne client e).2) ∧
      succeeded (w.sendOne client e).1 = decide (answer = .rejected []) := by
  refine ⟨(client.send [e]).1, ?_⟩
  rcases hs : client.send [e] with ⟨answer, next⟩
  match answer with
  | .failed reason => simp [Writer.sendOne, hs, succeeded]
  | .rejected [] => simp [Writer.sendOne, hs, succeeded]
  | .rejected (id :: ids) => simp [Writer.sendOne, hs, succeeded]

theorem sends_resend (w : Writer) (entries : List Entry) (client : Client) (ids : List String) :
    ∃ parcels, Sends client parcels (w.resend entries client ids).2 ∧
      Resends entries ids parcels (succeeded (w.resend entries client ids).1) := by
  induction ids generalizing client with
  | nil => exact ⟨[], .none _, .done⟩
  | cons id ids ih =>
    cases hfind : entries.find? (·.id = id) with
    | none =>
      have heq : w.resend entries client (id :: ids) = w.resend entries client ids := by
        simp only [Writer.resend, hfind]
      obtain ⟨parcels, hsends, hresends⟩ := ih client
      rw [heq]
      exact ⟨parcels, hsends, .unknown hfind hresends⟩
    | some e =>
      obtain ⟨answer, hsend, hok⟩ := sends_sendOne w client e
      rcases hone : w.sendOne client e with ⟨_ | ⟨⟩, next⟩
      · rename_i fault
        have heq : w.resend entries client (id :: ids) = (.error fault, next) := by
          simp only [Writer.resend, hfind, hone]
        rw [hone] at hsend hok
        rw [heq]
        exact ⟨_, .more hsend (.none _), .refused hfind (by simpa [succeeded] using hok)⟩
      · have heq : w.resend entries client (id :: ids) = w.resend entries next ids := by
          simp only [Writer.resend, hfind, hone]
        rw [hone] at hsend hok
        obtain rfl : answer = .rejected [] := by simpa [succeeded] using hok
        obtain ⟨parcels, hsends, hresends⟩ := ih next
        rw [heq]
        exact ⟨_, .more hsend hsends, .again hfind hresends⟩

/-- Every call sends requests, and counts its messages. -/
theorem ships_answer (w : Writer) (client : Client) (call : Call) :
    ∃ parcels, Sends client parcels (w.answer client call).2.2 ∧
      Ships w call parcels (succeeded (w.answer client call).1) ∧
      (w.answer client call).2.1 = w.advance call.messages.length := by
  cases call with
  | one m =>
    let sent := w.advance 1
    have hone : w.writeOne client m =
        ((sent.sendOne client (w.label 0 m)).1, sent, (sent.sendOne client (w.label 0 m)).2) := by
      simp only [Writer.writeOne, Writer.label, Writer.advance_zero, w.entry_eq, sent]
    obtain ⟨answer, hsend, hok⟩ := sends_sendOne sent client (w.label 0 m)
    rw [Writer.answer, hone, hok]
    exact ⟨_, .more hsend (.none _), .one m answer, rfl⟩
  | batch messages =>
    let sent := w.advance messages.length
    rcases hsend : client.send (w.labels messages) with ⟨answer, next⟩
    cases answer with
    | failed reason =>
      have hfailed : w.writeBatch client messages =
          (.error (sent.failure reason), sent, next) := by
        simp only [Writer.writeBatch, w.entries_zero, hsend, sent]
      rw [Writer.answer, hfailed]
      exact ⟨_, .more hsend (.none _), .failed messages reason, rfl⟩
    | rejected ids =>
      have hrejected : w.writeBatch client messages =
          ((sent.resend (w.labels messages) next ids).1, sent,
            (sent.resend (w.labels messages) next ids).2) := by
        simp only [Writer.writeBatch, w.entries_zero, hsend, sent]
      obtain ⟨parcels, hsends, hresends⟩ := sends_resend sent (w.labels messages) next ids
      rw [Writer.answer, hrejected]
      exact ⟨_, .more hsend hsends, .rejected hresends, rfl⟩

theorem Resends.mem {entries : List Entry} {ids : List String} {parcels : List Parcel} {ok : Bool}
    (h : Resends entries ids parcels ok) {p : Parcel} (hp : p ∈ parcels) :
    ∃ e ∈ entries, p.entries = [e] := by
  induction h with
  | done => cases hp
  | unknown _ _ ih => exact ih hp
  | @again _ _ e _ _ hfind _ ih =>
    rcases List.mem_cons.mp hp with rfl | hp
    · exact ⟨e, List.mem_of_find?_eq_some hfind, rfl⟩
    · exact ih hp
  | @refused _ _ e _ hfind _ =>
    rw [List.mem_singleton.mp hp]
    exact ⟨e, List.mem_of_find?_eq_some hfind, rfl⟩

/-- The first request of a call has its messages, and only a batch has further ones. -/
theorem Ships.entries {w : Writer} {call : Call} {parcels : List Parcel} {ok : Bool}
    (h : Ships w call parcels ok) {i : Nat} {p : Parcel} (hp : parcels[i]? = some p) :
    i = 0 ∧ p.entries = w.labels call.messages ∨
      0 < i ∧ (∃ messages, call = .batch messages) ∧
        ∃ e ∈ w.labels call.messages, p.entries = [e] := by
  have hsingle {q : Parcel} (hp : [q][i]? = some p) : i = 0 ∧ p = q := by
    obtain ⟨hi, hget⟩ := List.getElem?_eq_some_iff.mp hp
    obtain rfl : i = 0 := Nat.lt_one_iff.mp hi
    exact ⟨rfl, hget.symm⟩
  cases h with
  | failed messages reason =>
    obtain ⟨hi, rfl⟩ := hsingle hp
    exact Or.inl ⟨hi, rfl⟩
  | one m answer =>
    obtain ⟨hi, rfl⟩ := hsingle hp
    exact Or.inl ⟨hi, rfl⟩
  | rejected hresends =>
    cases i with
    | zero =>
      obtain rfl := Option.some.inj hp
      exact Or.inl ⟨rfl, rfl⟩
    | succ i =>
      exact Or.inr ⟨Nat.succ_pos i, ⟨_, rfl⟩, hresends.mem (List.mem_of_getElem? hp)⟩

/-- Every request has entries of the messages of its call. -/
theorem Ships.sublist {w : Writer} {call : Call} {parcels : List Parcel} {ok : Bool}
    (h : Ships w call parcels ok) {p : Parcel} (hp : p ∈ parcels) :
    p.entries.Sublist (w.labels call.messages) := by
  obtain ⟨i, hi⟩ := List.mem_iff_getElem?.mp hp
  rcases h.entries hi with ⟨-, hentries⟩ | ⟨-, -, e, he, hentries⟩
  · rw [hentries]
  · rw [hentries]
    exact List.singleton_sublist.mpr he

theorem Ships.length_le {w : Writer} {call : Call} {parcels : List Parcel} {ok : Bool}
    (h : Ships w call parcels ok) {p : Parcel} (hp : p ∈ parcels) :
    p.entries.length ≤ call.messages.length := by
  rw [← w.length_labels]
  exact (h.sublist hp).length_le

/-! ## Calls one after the other -/

/-- An answered call with its requests. -/
abbrev Shipment := Handled (List Parcel)

/-- A writer at work. -/
structure Shipper where
  writer : Writer
  client : Client
  /-- The calls so far, the first one first. -/
  shipments : List Shipment
  deriving Inhabited

namespace Shipper

def begin (w : Writer) (client : Client) : Shipper := ⟨w, client, []⟩

def next (u : Shipper) (call : Call) : Shipper :=
  let (result, writer, client) := u.writer.answer u.client call
  ⟨writer, client, u.shipments ++ [⟨⟨call, succeeded result⟩, u.client.since client⟩]⟩

def after (u : Shipper) (calls : List Call) : Shipper := calls.foldl next u

/-- How many messages come before a call. -/
def offset (shipments : List Shipment) (call : Nat) : Nat :=
  ((shipments.take call).flatMap (·.call.messages)).length

/-- The entries of all calls have running numbers. -/
structure Sound (u : Shipper) (w : Writer) : Prop where
  writer : u.writer = w.advance (offset u.shipments u.shipments.length)
  ships : ∀ k x, u.shipments[k]? = some x →
    Ships (w.advance (offset u.shipments k)) x.call x.trace x.ok

variable {u : Shipper} {w : Writer}

theorem next_eq (u : Shipper) (call : Call) :
    ∃ parcels ok client, u.next call =
        ⟨u.writer.advance call.messages.length, client,
          u.shipments ++ [⟨⟨call, ok⟩, parcels⟩]⟩ ∧
      succeeded (u.writer.answer u.client call).1 = ok ∧ Ships u.writer call parcels ok := by
  obtain ⟨parcels, hsends, hships, hwriter⟩ := ships_answer u.writer u.client call
  refine ⟨parcels, _, (u.writer.answer u.client call).2.2, ?_, rfl, hships⟩
  rw [← hsends.since, ← hwriter]
  rfl

theorem offset_append {shipments : List Shipment} (more : List Shipment) {k : Nat}
    (hk : k ≤ shipments.length) : offset (shipments ++ more) k = offset shipments k := by
  rw [offset, List.take_append_of_le_length hk]
  rfl

theorem Sound.next (h : u.Sound w) (call : Call) : (u.next call).Sound w := by
  obtain ⟨parcels, ok, client, heq, -, hships⟩ := u.next_eq call
  rw [heq]
  refine ⟨?_, fun k x hx => ?_⟩
  · have hall : offset (u.shipments ++ [⟨⟨call, ok⟩, parcels⟩]) (u.shipments.length + 1) =
        offset u.shipments u.shipments.length + call.messages.length := by
      rw [offset, List.take_of_length_le (by simp), offset, List.take_length]
      simp
    show u.writer.advance _ = _
    rw [h.writer, Writer.advance_advance, List.length_append, List.length_singleton, hall]
  · rcases Nat.lt_trichotomy k u.shipments.length with hk | rfl | hk
    · rw [List.getElem?_append_left hk] at hx
      rw [offset_append _ (Nat.le_of_lt hk)]
      exact h.ships k x hx
    · rw [List.getElem?_append_right (Nat.le_refl _), Nat.sub_self] at hx
      obtain rfl := Option.some.inj hx
      rw [offset_append _ (Nat.le_refl _), ← h.writer]
      exact hships
    · rw [List.getElem?_eq_none (by simp; omega)] at hx
      cases hx

theorem sound_begin (w : Writer) (client : Client) : (begin w client).Sound w :=
  ⟨(Writer.advance_zero w).symm, fun k x hx => by simp [begin] at hx⟩

theorem Sound.after (h : u.Sound w) (calls : List Call) : (u.after calls).Sound w := by
  induction calls generalizing u with
  | nil => exact h
  | cons call rest ih => exact ih (h.next call)

theorem calls_after (u : Shipper) (calls : List Call) :
    (u.after calls).shipments.map (·.call) = u.shipments.map (·.call) ++ calls := by
  induction calls generalizing u with
  | nil => simp [after]
  | cons call rest ih =>
    obtain ⟨parcels, ok, client, heq, -, -⟩ := u.next_eq call
    have hnext : (u.next call).shipments.map (·.call) = u.shipments.map (·.call) ++ [call] := by
      simp [heq]
    rw [show u.after (call :: rest) = (u.next call).after rest from rfl, ih, hnext]
    simp

end Shipper

end ChangeFeed.Sink.Sqs
