import Mathlib.Data.List.Basic
import Mathlib.Data.List.Pairwise
import ChangeFeed.Proofs.Sink.Depots
import ChangeFeed.Proofs.Sink.Identities

/-!
# Messages that overtake others

A queue that keeps order keeps the order in which it takes the messages of a group. The batches of a
sink are taken one after the other, and so are the messages of a batch that fails as a whole. If the
queue rejects some entries of a batch, though, the others are taken before them, and the rejected ones
are sent again in the order in which the answer names them.

* `InTurn`: no message of a group comes first before an earlier one.
* `taken` are the messages that a queue takes, in order, by their positions in a batch, and
  `takenOf` those of all batches by the order of the sink.
* `Overtakes` is a message of a batch with a later one of its group that the queue takes before it.
  `taken_in_turn_iff`: messages are taken in turn unless that happens.
-/

namespace ChangeFeed.Sink.Sqs

/-! ## First places in a list -/

/-- Where numbers of one group stand for the first time is in their order. -/
def InTurn {γ : Type} (group : Nat → γ) (ns : List Nat) : Prop :=
  ∀ i ∈ ns, ∀ j ∈ ns, i < j → group i = group j → ns.idxOf i < ns.idxOf j

section

variable {γ : Type} {group group' : Nat → γ} {i j : Nat} {as bs ns : List Nat}

theorem idxOf_lt_of_pairwise (h : ns.Pairwise (· < ·)) (hi : i ∈ ns) (hj : j ∈ ns) (hij : i < j) :
    ns.idxOf i < ns.idxOf j := by
  have hi' := List.idxOf_lt_length_iff.mpr hi
  have hj' := List.idxOf_lt_length_iff.mpr hj
  rcases Nat.lt_trichotomy (ns.idxOf i) (ns.idxOf j) with hlt | heq | hgt
  · exact hlt
  · exact absurd ((List.idxOf_inj hi).mp heq) (Nat.ne_of_lt hij)
  · have hback := List.pairwise_iff_getElem.mp h _ _ hj' hi' hgt
    rw [List.getElem_idxOf hj', List.getElem_idxOf hi'] at hback
    omega

theorem idxOf_append_lt (bs : List Nat) (hi : i ∈ as) (hj : j ∉ as) :
    (as ++ bs).idxOf i < (as ++ bs).idxOf j := by
  rw [List.idxOf_append_of_mem hi, List.idxOf_append_of_notMem hj]
  exact Nat.lt_of_lt_of_le (List.idxOf_lt_length_iff.mpr hi) (Nat.le_add_right _ _)

theorem idxOf_append_left (bs : List Nat) (hi : i ∈ as) (hj : j ∈ as) :
    (as ++ bs).idxOf i < (as ++ bs).idxOf j ↔ as.idxOf i < as.idxOf j := by
  rw [List.idxOf_append_of_mem hi, List.idxOf_append_of_mem hj]

theorem idxOf_append_right (bs : List Nat) (hi : i ∉ as) (hj : j ∉ as) :
    (as ++ bs).idxOf i < (as ++ bs).idxOf j ↔ bs.idxOf i < bs.idxOf j := by
  rw [List.idxOf_append_of_notMem hi, List.idxOf_append_of_notMem hj]
  exact Nat.add_lt_add_iff_left

theorem idxOf_map_add (ns : List Nat) (i t : Nat) :
    (ns.map (· + t)).idxOf (i + t) = ns.idxOf i := by
  induction ns with
  | nil => rfl
  | cons n ns ih =>
    have hbeq : (n + t == i + t) = (n == i) := by
      rw [Bool.eq_iff_iff]
      simp
    rw [List.map_cons, List.idxOf_cons, List.idxOf_cons, ih, hbeq]

theorem inTurn_congr (h : ∀ n ∈ ns, group n = group' n) : InTurn group ns ↔ InTurn group' ns := by
  have key {group group' : Nat → γ} (h : ∀ n ∈ ns, group n = group' n) (hg : InTurn group ns) :
      InTurn group' ns :=
    fun i hi j hj hij hsame => hg i hi j hj hij (by rw [h i hi, h j hj, hsame])
  exact ⟨key h, key fun n hn => (h n hn).symm⟩

theorem inTurn_map_add {t : Nat} :
    InTurn group (ns.map (· + t)) ↔ InTurn (fun n => group (n + t)) ns := by
  simp only [InTurn, List.forall_mem_map, idxOf_map_add, Nat.add_lt_add_iff_right]

/-- Numbers from a bound on come behind those below it. -/
theorem inTurn_append {t : Nat} (has : ∀ n ∈ as, n < t) (hbs : ∀ n ∈ bs, t ≤ n) :
    InTurn group (as ++ bs) ↔ InTurn group as ∧ InTurn group bs := by
  have hnot {n : Nat} (hn : n ∈ bs) : n ∉ as := fun h => by
    have := has n h
    have := hbs n hn
    omega
  constructor
  · intro h
    refine ⟨fun i hi j hj hij hsame => ?_, fun i hi j hj hij hsame => ?_⟩
    · exact (idxOf_append_left bs hi hj).mp
        (h i (List.mem_append_left _ hi) j (List.mem_append_left _ hj) hij hsame)
    · exact (idxOf_append_right bs (hnot hi) (hnot hj)).mp
        (h i (List.mem_append_right _ hi) j (List.mem_append_right _ hj) hij hsame)
  · rintro ⟨ha, hb⟩ i hi j hj hij hsame
    rcases List.mem_append.mp hi with hi | hi
    · rcases List.mem_append.mp hj with hj | hj
      · exact (idxOf_append_left bs hi hj).mpr (ha i hi j hj hij hsame)
      · exact idxOf_append_lt bs hi (hnot hj)
    · rcases List.mem_append.mp hj with hj | hj
      · have := has j hj
        have := hbs i hi
        omega
      · exact (idxOf_append_right bs (hnot hi) (hnot hj)).mpr (hb i hi j hj hij hsame)

/-- Three lists of which the first and the last are sorted: what is late is not in the first one, and
what is early is in the first one, or in the second one in front of what is late. -/
theorem inTurn_append_append {rs ls : List Nat} (has : as.Pairwise (· < ·))
    (hls : ls.Pairwise (· < ·)) :
    InTurn group (as ++ (rs ++ ls)) ↔ ∀ i j, i < j → group i = group j → i ∉ as → i ∈ rs ++ ls →
      ¬ (j ∈ as ∨ j ∈ rs.takeWhile (· ≠ i)) := by
  constructor
  · intro h i j hij hsame hi hlate hearly
    -- what is early comes first, although it is the greater one
    have hback : (as ++ (rs ++ ls)).idxOf j < (as ++ (rs ++ ls)).idxOf i := by
      by_cases hj : j ∈ as
      · exact idxOf_append_lt _ hj hi
      · have hfront := hearly.resolve_left hj
        have hnot : i ∉ rs.takeWhile (· ≠ i) := fun hmem => by
          simpa using List.mem_takeWhile_imp hmem
        refine (idxOf_append_right _ hj hi).mpr ?_
        rw [← List.takeWhile_append_dropWhile (p := (· ≠ i)) (l := rs), List.append_assoc]
        exact idxOf_append_lt _ hfront hnot
    have hj : j ∈ as ++ (rs ++ ls) := by
      rcases hearly with hj | hj
      · exact List.mem_append_left _ hj
      · exact List.mem_append_right _
          (List.mem_append_left _ ((List.takeWhile_sublist _).mem hj))
    have := h i (List.mem_append_right _ hlate) j hj hij hsame
    omega
  · intro h i hi j hj hij hsame
    by_cases hia : i ∈ as
    · by_cases hja : j ∈ as
      · exact (idxOf_append_left _ hia hja).mpr (idxOf_lt_of_pairwise has hia hja hij)
      · exact idxOf_append_lt _ hia hja
    · have hlate := (List.mem_append.mp hi).resolve_left hia
      have hearly := h i j hij hsame hia hlate
      have hja : j ∉ as := fun hja => hearly (Or.inl hja)
      have hjfront : j ∉ rs.takeWhile (· ≠ i) := fun hjr => hearly (Or.inr hjr)
      have hifront : i ∉ rs.takeWhile (· ≠ i) := fun hmem => by
        simpa using List.mem_takeWhile_imp hmem
      refine (idxOf_append_right _ hia hja).mpr ?_
      have hsplit := List.takeWhile_append_dropWhile (p := (· ≠ i)) (l := rs)
      rw [← hsplit, List.append_assoc]
      refine (idxOf_append_right _ hifront hjfront).mpr ?_
      cases hdrop : rs.dropWhile (· ≠ i) with
      | nil =>
        rw [hdrop, List.append_nil] at hsplit
        rw [hsplit] at hifront hjfront
        have hjlate := (List.mem_append.mp hj).resolve_left hja
        exact idxOf_lt_of_pairwise hls ((List.mem_append.mp hlate).resolve_left hifront)
          ((List.mem_append.mp hjlate).resolve_left hjfront) hij
      | cons c rest =>
        have hc : c = i := by
          have hhead := List.head?_dropWhile_not (· ≠ i) rs
          rw [hdrop] at hhead
          simpa using hhead
        rw [hc, List.cons_append, List.idxOf_cons_self, List.idxOf_cons_ne _ (Nat.ne_of_lt hij)]
        exact Nat.succ_pos _

end

/-! ## What a queue takes -/

/-- The position that the id of an entry tells. -/
def Entry.position (e : Entry) : Nat := (Decimal.natural? e.id.toList).getD 0

/-- The entries that the queue takes with some requests, in order. -/
def accepted (parcels : List Parcel) : List Entry := parcels.flatMap Parcel.accepted

/-- The messages of a batch that the queue takes with the request of the batch. -/
def atOnce (f : Flight (List Parcel)) : List Nat :=
  (accepted (f.together.trace.take 1)).map Entry.position

/-- The messages of a batch that the queue takes when their entries are sent again. -/
def again (f : Flight (List Parcel)) : List Nat :=
  (accepted (f.together.trace.drop 1)).map Entry.position

/-- The messages of a refused batch that the queue takes alone. -/
def singly (f : Flight (List Parcel)) : List Nat :=
  f.alone.zipIdx.flatMap fun (x, i) => (accepted x.trace).map fun _ => i

/-- The messages of a batch that the queue takes, in order. -/
def taken (f : Flight (List Parcel)) : List Nat :=
  (accepted f.together.trace).map Entry.position ++ singly f

/-- The messages of batches, the last one first, that the queue takes. They are told by how many
messages were sent before them. -/
def takenOf : List (Flight (List Parcel)) → List Nat
  | [] => []
  | f :: earlier =>
    takenOf earlier ++ (taken f).map (· + (earlier.reverse.flatMap Flight.batch).length)

/-- The group that the entries of a message get. -/
def Writer.groupOf (w : Writer) (m : Message) : Option String := w.group.map (m.key.getD ·)

def Writer.groupAt (w : Writer) (messages : List Message) (n : Nat) : Option (Option String) :=
  messages[n]?.map w.groupOf

/-- The second message of a batch overtakes the first one, which is of its group: the answer to the
request of the batch names the first one and not the second one, or the second one is sent again
before the first one. -/
structure Overtakes (w : Writer) (f : Flight (List Parcel)) (i j : Nat) : Prop where
  behind : i < j
  same : w.groupAt f.batch i = w.groupAt f.batch j
  named : ∃ p ids, f.together.trace.head? = some p ∧ p.answer = .rejected ids ∧
    Writer.decimal i ∈ ids
  late : i ∈ again f ++ singly f
  early : j ∈ atOnce f ∨ j ∈ (again f).takeWhile (· ≠ i)

/-- Each entry that the queue takes is the entry of the message that it is told by. -/
structure Told (w : Writer) (f : Flight (List Parcel)) : Prop where
  together : ∀ e ∈ accepted f.together.trace, ∃ m, f.batch[e.position]? = some m ∧
    e.body = Text.replaced m.payload ∧ e.group = w.groupOf m
  alone : ∀ (i : Nat) (x : Shipment), f.alone[i]? = some x → ∀ e ∈ accepted x.trace,
    ∃ m, f.batch[i]? = some m ∧ e.body = Text.replaced m.payload ∧ e.group = w.groupOf m

theorem accepted_split (parcels : List Parcel) :
    accepted parcels = accepted (parcels.take 1) ++ accepted (parcels.drop 1) := by
  rw [accepted, accepted, accepted, ← List.flatMap_append, List.take_append_drop]

theorem taken_eq (f : Flight (List Parcel)) : taken f = atOnce f ++ (again f ++ singly f) := by
  rw [taken, atOnce, again, ← List.append_assoc, ← List.map_append, ← accepted_split]

variable {w : Writer}

theorem position_label (w : Writer) (i : Nat) (m : Message) : (w.label i m).position = i := by
  rw [Writer.label_eq, Entry.position, Writer.decimal, String.toList_ofList,
    Decimal.natural?_digits]
  rfl

theorem positions_labels (w : Writer) (messages : List Message) :
    (w.labels messages).map Entry.position = List.range messages.length := by
  refine List.ext_getElem (by simp [Writer.length_labels]) fun i _ _ => ?_
  simp [Writer.labels, position_label]

/-- An entry that the queue takes is the entry of the message at its position. -/
theorem Ships.position {call : Call} {parcels : List Parcel} {ok : Bool}
    (h : Ships w call parcels ok) {e : Entry} (he : e ∈ accepted parcels) :
    ∃ m, call.messages[e.position]? = some m ∧ e.body = Text.replaced m.payload ∧
      e.group = w.groupOf m := by
  obtain ⟨p, hp, hacc⟩ := List.mem_flatMap.mp he
  have hlabel := (h.sublist hp).mem (p.accepted_sublist.mem hacc)
  obtain ⟨i, m, hm, rfl⟩ := Writer.mem_labels hlabel
  refine ⟨m, ?_, ?_, ?_⟩
  · rwa [position_label]
  · rw [Writer.label_eq]
  · rw [Writer.label_eq]
    rfl

/-- What the queue takes with the request of a batch: nothing, or what its answer does not name. -/
theorem Ships.atOnce {messages : List Message} {parcels : List Parcel} {ok : Bool}
    (h : Ships w (.batch messages) parcels ok) :
    (accepted parcels = [] ∧ ∀ p, parcels.head? = some p → ∃ reason, p.answer = .failed reason) ∨
      ∃ p ids, parcels.head? = some p ∧ p.answer = .rejected ids ∧
        (accepted (parcels.take 1)).map Entry.position =
          (List.range messages.length).filter (Writer.decimal · ∉ ids) := by
  cases h with
  | failed _ reason =>
    refine Or.inl ⟨rfl, fun p hp => ⟨reason, ?_⟩⟩
    rw [← Option.some.inj hp]
  | @rejected _ ids more _ _ =>
    refine Or.inr ⟨_, ids, rfl, rfl, ?_⟩
    have hids : ∀ e ∈ w.labels messages, (e.id ∉ ids) = (Writer.decimal e.position ∉ ids) := by
      intro e he
      obtain ⟨i, m, -, rfl⟩ := Writer.mem_labels he
      rw [position_label, Writer.label_eq]
    rw [← positions_labels w, List.filter_map]
    have hfilter : (w.labels messages).filter (·.id ∉ ids) =
        (w.labels messages).filter ((fun i => decide (Writer.decimal i ∉ ids)) ∘ Entry.position) :=
      List.filter_congr fun e he => by simp only [Function.comp, hids e he]
    rw [← hfilter]
    simp [accepted, Parcel.accepted]

theorem singly_sublist {together : Shipment} {alone : List Shipment}
    (h : ∀ x ∈ alone, (accepted x.trace).length ≤ 1) :
    (singly ⟨together, alone⟩).Sublist (List.range alone.length) := by
  induction alone using List.reverseRecOn with
  | nil => exact List.Sublist.slnil
  | append_singleton alone x ih =>
    have hlast : ((accepted x.trace).map fun _ => alone.length).Sublist [alone.length] := by
      have hx := h x (by simp)
      match accepted x.trace, hx with
      | [], _ => exact List.nil_sublist _
      | [_], _ => exact List.Sublist.refl _
    have hrest := ih fun y hy => h y (List.mem_append_left _ hy)
    simp only [singly, List.zipIdx_append, List.flatMap_append, List.zipIdx_singleton,
      List.flatMap_cons, List.flatMap_nil, List.append_nil, Nat.zero_add, List.length_append,
      List.length_singleton, List.range_succ]
    exact hrest.append hlast

theorem Ships.length_accepted {m : Message} {parcels : List Parcel} {ok : Bool}
    (h : Ships w (.one m) parcels ok) : (accepted parcels).length ≤ 1 := by
  cases h with
  | one m answer =>
    have hle := (Parcel.accepted_sublist ⟨w.labels [m], answer⟩).length_le
    rw [Writer.length_labels] at hle
    simpa [accepted] using hle

namespace Shipped

variable {f : Flight (List Parcel)}

theorem singly_sublist (h : Shipped w f) : (singly f).Sublist (List.range f.alone.length) := by
  refine Sqs.singly_sublist fun x hx => ?_
  obtain ⟨i, hi⟩ := List.mem_iff_getElem?.mp hx
  obtain ⟨n, m, -, -, hships⟩ := h.alone hi
  exact hships.length_accepted

theorem lt_of_taken (h : Shipped w f) {n : Nat} (hn : n ∈ taken f) : n < f.batch.length := by
  rcases List.mem_append.mp hn with hn | hn
  · obtain ⟨e, he, rfl⟩ := List.mem_map.mp hn
    obtain ⟨_, hships⟩ := h.together
    obtain ⟨m, hm, -⟩ := hships.position he
    exact (List.getElem?_eq_some_iff.mp hm).1
  · have hlt := List.mem_range.mp (h.singly_sublist.mem hn)
    obtain ⟨_, m, hm, -⟩ := h.alone (List.getElem?_eq_getElem hlt)
    exact (List.getElem?_eq_some_iff.mp hm).1

theorem told (h : Shipped w f) : Told w f where
  together := fun e he => by
    obtain ⟨n, hships⟩ := h.together
    obtain ⟨m, hm, hbody, hgroup⟩ := hships.position he
    exact ⟨m, hm, hbody, by rw [hgroup, Writer.groupOf, Writer.advance_group]; rfl⟩
  alone := fun i x hx e he => by
    obtain ⟨n, m, hm, -, hships⟩ := h.alone hx
    obtain ⟨m', hm', hbody, hgroup⟩ := hships.position he
    obtain rfl : m = m' := List.mem_singleton.mp (List.mem_of_getElem? hm') ▸ rfl
    exact ⟨m, hm, hbody, by rw [hgroup, Writer.groupOf, Writer.advance_group]; rfl⟩

/-- Messages of a batch are taken in turn unless one of them overtakes another. -/
theorem inTurn_iff (h : Shipped w f) :
    InTurn (w.groupAt f.batch) (taken f) ↔ ∀ i j, ¬ Overtakes w f i j := by
  obtain ⟨n, hships⟩ := h.together
  have hempty (hnone : accepted f.together.trace = []) : atOnce f = [] ∧ again f = [] := by
    rw [accepted_split, List.append_eq_nil_iff] at hnone
    exact ⟨List.map_eq_nil_iff.mpr hnone.1, List.map_eq_nil_iff.mpr hnone.2⟩
  have hsorted : (atOnce f).Pairwise (· < ·) := by
    rcases hships.atOnce with ⟨hnone, -⟩ | ⟨p, ids, -, -, heq⟩
    · rw [(hempty hnone).1]
      exact List.Pairwise.nil
    · rw [atOnce, heq]
      exact List.pairwise_lt_range.filter _
  rw [taken_eq, inTurn_append_append hsorted
    (List.pairwise_lt_range.sublist h.singly_sublist)]
  constructor
  · intro hall i j ho
    refine hall i j ho.behind ho.same (fun hi => ?_) ho.late ho.early
    obtain ⟨p, ids, hp, hanswer, hnamed⟩ := ho.named
    rcases hships.atOnce with ⟨-, hfailed⟩ | ⟨p', ids', hp', hanswer', heq⟩
    · obtain ⟨reason, hreason⟩ := hfailed p hp
      rw [hanswer] at hreason
      cases hreason
    · obtain rfl : p = p' := Option.some.inj (hp.symm.trans hp')
      obtain rfl : ids = ids' := by
        rw [hanswer] at hanswer'
        exact Answer.rejected.inj hanswer'
      rw [atOnce, heq, List.mem_filter] at hi
      simp [hnamed] at hi
  · intro hnone i j hij hsame hi hlate hearly
    refine hnone i j ⟨hij, hsame, ?_, hlate, hearly⟩
    rcases hships.atOnce with ⟨hnothing, -⟩ | ⟨p, ids, hp, hanswer, heq⟩
    · rw [(hempty hnothing).1, (hempty hnothing).2] at hearly
      simp at hearly
    · refine ⟨p, ids, hp, hanswer, ?_⟩
      have hlt : i < f.batch.length := h.lt_of_taken (by
        rw [taken_eq]
        exact List.mem_append_right _ hlate)
      rw [atOnce, heq, List.mem_filter] at hi
      simpa [hlt] using hi

end Shipped

/-! ## All batches -/

theorem lt_of_mem_takenOf {fs : List (Flight (List Parcel))} (h : ∀ f ∈ fs, Shipped w f) {n : Nat}
    (hn : n ∈ takenOf fs) : n < (fs.reverse.flatMap Flight.batch).length := by
  induction fs generalizing n with
  | nil => cases hn
  | cons f earlier ih =>
    rw [List.reverse_cons, List.flatMap_append, List.length_append, List.flatMap_singleton]
    rcases List.mem_append.mp hn with hn | hn
    · exact Nat.lt_add_right _ (ih (fun f' hf' => h f' (List.mem_cons_of_mem _ hf')) hn)
    · obtain ⟨i, hi, rfl⟩ := List.mem_map.mp hn
      have := (h f List.mem_cons_self).lt_of_taken hi
      omega

theorem inTurn_takenOf {fs : List (Flight (List Parcel))} (h : ∀ f ∈ fs, Shipped w f)
    (rest : List Message) :
    InTurn (w.groupAt (fs.reverse.flatMap Flight.batch ++ rest)) (takenOf fs) ↔
      ∀ f ∈ fs, InTurn (w.groupAt f.batch) (taken f) := by
  induction fs generalizing rest with
  | nil => simp [takenOf, InTurn]
  | cons f earlier ih =>
    have hearlier : ∀ f' ∈ earlier, Shipped w f' := fun f' hf' => h f' (List.mem_cons_of_mem _ hf')
    let t := (earlier.reverse.flatMap Flight.batch).length
    have hlist : (f :: earlier).reverse.flatMap Flight.batch ++ rest =
        earlier.reverse.flatMap Flight.batch ++ (f.batch ++ rest) := by simp
    have hgroup : ∀ n ∈ taken f, w.groupAt (earlier.reverse.flatMap Flight.batch ++
        (f.batch ++ rest)) (n + t) = w.groupAt f.batch n := by
      intro n hn
      have hlt := (h f List.mem_cons_self).lt_of_taken hn
      rw [Writer.groupAt, List.getElem?_append_right (Nat.le_add_left _ _),
        Nat.add_sub_cancel, List.getElem?_append_left hlt]
      rfl
    rw [hlist, takenOf, inTurn_append (t := t) (fun n hn => lt_of_mem_takenOf hearlier hn)
      (fun n hn => by
        obtain ⟨i, -, rfl⟩ := List.mem_map.mp hn
        exact Nat.le_add_left _ _),
      ih hearlier, inTurn_map_add, inTurn_congr hgroup, List.forall_mem_cons]
    exact And.comm

/-- Whatever a queue answers, it takes the messages of each group in the order in which they were put,
unless a message of a batch overtakes another one of its group: batches do not overtake each other,
and a batch that fails as a whole is taken in its order. -/
theorem taken_in_turn_iff (s : Settings.Output) (w : Writer) (client : Client)
    (events : List Batched.Event) :
    let d := (Depot.create s w client).after events
    let fs := flights d.shipper.shipments
    fs.reverse.flatMap Flight.batch ++ (d.history.sink.batcher.sent.flatten ++
      (d.history.sink.batcher.held ++ d.history.sink.queue.items)) = d.history.accepted ∧
    (∀ f ∈ fs, Told w f) ∧
    (InTurn (w.groupAt d.history.accepted) (takenOf fs) ↔ ∀ f ∈ fs, ∀ i j, ¬ Overtakes w f i j) := by
  intro d fs
  have hd : d.Sound w (max s.batchSize 1) := (Depot.sound_create s w client).after events
  have hshipped : ∀ f ∈ fs, Shipped w f := fun f hf => hd.shipped hf
  have haccepted : fs.reverse.flatMap Flight.batch ++ (d.history.sink.batcher.sent.flatten ++
      (d.history.sink.batcher.held ++ d.history.sink.queue.items)) = d.history.accepted := by
    rw [hd.history.flow, ← hd.batches, List.flatten_append, List.flatMap_def, List.append_assoc]
  refine ⟨haccepted, fun f hf => (hshipped f hf).told, ?_⟩
  rw [← haccepted, inTurn_takenOf hshipped]
  exact forall₂_congr fun f hf => (hshipped f hf).inTurn_iff

/-- Two messages of one group. -/
def twoOfOneGroup : List Batched.Event :=
  [.start, .produce (.put ⟨some "a", [0x31]⟩), .take 0, .produce (.put ⟨some "a", [0x32]⟩), .take 0,
    .finish true 0]

/-- The answer to their batch names the second one before the first one. -/
def namedBackwards : Client := ⟨[.rejected ["1", "0"]], []⟩

theorem taken_in_turn_iff_of_namedBackwards :
    let w := orderedWriter 0
    let d := (Depot.create Batched.paired w namedBackwards).after twoOfOneGroup
    let fs := flights d.shipper.shipments
    Writer.create orderedQueue 0 = .ok w ∧
      d.history.accepted = [⟨some "a", [0x31]⟩, ⟨some "a", [0x32]⟩] ∧ takenOf fs = [1, 0] ∧
      ¬ InTurn (w.groupAt d.history.accepted) (takenOf fs) ∧
      ∃ f ∈ fs, ∃ i j, Overtakes w f i j := by
  intro w d fs
  have haccepted : d.history.accepted = [⟨some "a", [0x31]⟩, ⟨some "a", [0x32]⟩] := by
    decide +kernel
  have htaken : takenOf fs = [1, 0] := by decide +kernel
  have hback : ¬ InTurn (w.groupAt d.history.accepted) (takenOf fs) := by
    intro h
    rw [haccepted, htaken] at h
    exact absurd (h 0 (by simp) 1 (by simp) Nat.zero_lt_one rfl) (by decide)
  refine ⟨create_orderedQueue 0, haccepted, htaken, hback, ?_⟩
  by_contra hnone
  obtain ⟨-, -, hiff⟩ := taken_in_turn_iff Batched.paired w namedBackwards twoOfOneGroup
  exact hback (hiff.mpr fun f hf i j ho => hnone ⟨f, hf, i, j, ho⟩)

end ChangeFeed.Sink.Sqs
