import Mathlib.Data.List.Forall2
import ChangeFeed.Sink.Message
import ChangeFeed.Proofs.Json.Continuations

/-!
# Lists of texts

Texts with a comma between two of them and brackets around are one text. If each of them is a
document, that text is the list of the documents, whatever brackets, commas and quotes stand in them.

* `Json.Stands`: whether a byte string is one text, of a document that nests at most so deep and
  stands for a value. `Json.ofBytes?` is the value that a byte string stands for.
* `ofBytes?_joinArray`: the list of messages that each stand for a value.
-/

namespace ChangeFeed

namespace Json

variable {depth : Nat}

namespace Reader

/-- Texts one after the other, a comma between two. -/
def joined : List (List Char) → List Char
  | [] => []
  | [t] => t
  | t :: u :: rest => t ++ ',' :: joined (u :: rest)

/-- Whether a text is one document that nests at most so deep. -/
def Reads (depth : Nat) (t : List Char) (document : Json) : Prop :=
  document.depth ≤ depth ∧
    ∃ left, value greatestDepth t = .ok (document, left) ∧ skip left = []

theorem reads_of_wholeText {t : List Char} {document : Json} (h : wholeText t = .ok document)
    (hd : document.depth ≤ depth) : Reads depth t document := by
  unfold wholeText at h
  split at h
  · cases h
  · rename_i found left hv
    split at h
    · rename_i hskip
      cases h
      exact ⟨hd, left, hv, hskip⟩
    · cases h

/-! ## Reading a list -/

theorem value_skip (depth : Nat) (cs : List Char) : value depth (skip cs) = value depth cs := by
  rw [value, value, skip_skip]

/-- A document begins with some character, and not with the end of a list. -/
theorem skip_of_value {cs rest : List Char} {document : Json}
    (h : value depth cs = .ok (document, rest)) : ∃ c next, skip cs = c :: next ∧ c ≠ ']' := by
  cases hskip : skip cs with
  | nil =>
    rw [value, hskip] at h
    cases h
  | cons c next =>
    refine ⟨c, next, rfl, fun hc => ?_⟩
    subst hc
    rw [value, hskip] at h
    cases h

/-- A document in front of a comma or the end of a list. -/
theorem Reads.value_append {t : List Char} {document : Json} (h : Reads depth t document) {c : Char}
    (hc : c = ',' ∨ c = ']') (tail : List Char) :
    ∃ left, value depth (t ++ c :: tail) = .ok (document, left) ∧ skip left = c :: tail := by
  obtain ⟨hd, left, hv, hskip⟩ := h
  have ht : Breaks (c :: tail) := by
    rcases hc with rfl | rfl <;> exact ⟨by decide, by decide, by decide, by decide⟩
  refine ⟨left ++ c :: tail, Reader.value_append ht hv hd, ?_⟩
  rw [skip_append_of_eq_nil hskip]
  rcases hc with rfl | rfl <;> rfl

theorem length_skip_le (cs : List Char) : (skip cs).length ≤ cs.length :=
  (List.dropWhile_suffix _).length_le

theorem joined_append_cons (t : List Char) (ts : List (List Char)) :
    ∃ c tail, (c = ',' ∨ c = ']') ∧ joined (t :: ts) ++ [']'] = t ++ c :: tail := by
  cases ts with
  | nil => exact ⟨']', [], Or.inr rfl, rfl⟩
  | cons u ts => exact ⟨',', joined (u :: ts) ++ [']'], Or.inl rfl, by simp [joined]⟩

theorem Reads.skip_joined {t : List Char} {document : Json} (h : Reads depth t document)
    (ts : List (List Char)) :
    ∃ c next, skip (joined (t :: ts) ++ [']']) = c :: next ∧ c ≠ ']' := by
  obtain ⟨c, tail, hc, heq⟩ := joined_append_cons t ts
  obtain ⟨_, hv, _⟩ := h.value_append hc tail
  rw [heq]
  exact skip_of_value hv

theorem items_joined {t : List Char} {ts : List (List Char)} {document : Json}
    {documents : List Json}
    (h : List.Forall₂ (Reads depth) (t :: ts) (document :: documents)) {fuel : Nat}
    (hf : (skip (joined (t :: ts) ++ [']'])).length < fuel) (read : List Json) :
    items (fun _ => value depth) fuel read (skip (joined (t :: ts) ++ [']'])) =
      .ok (.array (read.reverse ++ document :: documents), []) := by
  induction ts generalizing t document documents fuel read with
  | nil =>
    obtain ⟨hdoc, hrest⟩ := List.forall₂_cons.mp h
    cases hrest
    obtain ⟨left, hv, hskip⟩ := hdoc.value_append (Or.inr rfl) []
    obtain ⟨fuel, rfl⟩ : ∃ k, fuel = k + 1 := ⟨fuel - 1, by omega⟩
    refine items_last ?_ hskip
    rw [value_skip]
    exact hv
  | cons u ts ih =>
    obtain ⟨hdoc, hrest⟩ := List.forall₂_cons.mp h
    cases hrest with
    | @cons _ document' _ documents hnext hmore =>
      have hjoined : joined (t :: u :: ts) ++ [']'] = t ++ ',' :: (joined (u :: ts) ++ [']']) := by
        simp [joined]
      obtain ⟨left, hv, hskip⟩ := hdoc.value_append (Or.inl rfl) (joined (u :: ts) ++ [']'])
      -- the next text begins a document, so the list goes on
      obtain ⟨c, next, hc, hclose⟩ := hnext.skip_joined ts
      obtain ⟨c', next', hc', -⟩ := skip_of_value hdoc.2.choose_spec.1
      rw [hjoined] at hf ⊢
      have hlength : (skip (joined (u :: ts) ++ [']'])).length + 1 <
          (skip (t ++ ',' :: (joined (u :: ts) ++ [']']))).length := by
        rw [skip_append_cons hc']
        have hle := length_skip_le (joined (u :: ts) ++ [']'])
        simp only [List.length_cons, List.length_append] at hle ⊢
        omega
      obtain ⟨fuel, rfl⟩ : ∃ k, fuel = k + 1 := ⟨fuel - 1, by omega⟩
      rw [items_more (by rw [value_skip]; exact hv) hskip hc hclose, ← hc,
        ih (List.Forall₂.cons hnext hmore) (by omega)]
      simp

theorem wholeText_joined {ts : List (List Char)} {documents : List Json}
    (h : List.Forall₂ (Reads depth) ts documents) (hdepth : depth + 1 = greatestDepth) :
    wholeText ('[' :: (joined ts ++ [']'])) = .ok (.array documents) := by
  have hlist : list (fun _ => value depth) (joined ts ++ [']']) = .ok (.array documents, []) := by
    cases h with
    | nil => rfl
    | @cons t document ts documents hdoc hrest =>
      obtain ⟨c, next, hc, hclose⟩ := hdoc.skip_joined ts
      have hitems := items_joined (List.Forall₂.cons hdoc hrest) (Nat.lt_succ_self _) []
      rw [hc] at hitems
      rw [list, hc]
      split
      · rename_i hnil
        cases hnil
      · rename_i hend
        cases hend
        exact absurd rfl hclose
      · exact hitems
  have hvalue : value greatestDepth ('[' :: (joined ts ++ [']'])) = .ok (.array documents, []) := by
    rw [← hdepth, value]
    exact hlist
  rw [wholeText, hvalue]
  rfl

end Reader

/-! ## Bytes -/

/-- The value that a byte string stands for. -/
def ofBytes? (bytes : Bytes) : Option Json := (Bytes.text? bytes).bind fun t => (parse t).toOption

/-- Whether a byte string is one text, of a document that nests at most so deep and stands for a
value. -/
def Stands (depth : Nat) (bytes : Bytes) (v : Json) : Prop :=
  ∃ t document, Bytes.text? bytes = some t ∧ read t = .ok document ∧ document.depth ≤ depth ∧
    document.canonical = v

theorem read_eq_ok_iff {source : String} {document : Json} :
    read source = .ok document ↔ Reader.wholeText source.toList = .ok document := by
  unfold read
  cases Reader.wholeText source.toList with
  | error e => simp [Except.mapError]
  | ok found => simp [Except.mapError]

theorem canonical_items (xs : List Json) : canonical.items xs = xs.map canonical := by
  induction xs with
  | nil => rfl
  | cons x rest ih => rw [canonical.items, ih, List.map_cons]

theorem joinCommas_ofText (ts : List String) :
    Message.joinCommas (ts.map Bytes.ofText) =
      Bytes.ofText (String.ofList (Reader.joined (ts.map String.toList))) := by
  induction ts with
  | nil => rfl
  | cons t ts ih =>
    cases ts with
    | nil => simp [Message.joinCommas, Reader.joined]
    | cons u ts =>
      have hcomma : Bytes.ofText (String.ofList [',']) = [0x2c] := rfl
      have hjoined (cs : List Char) : t.toList ++ ',' :: cs = t.toList ++ ([','] ++ cs) := rfl
      simp only [List.map_cons] at ih ⊢
      rw [Message.joinCommas, Reader.joined, ih, hjoined, String.ofList_append,
        String.ofList_append, Bytes.ofText_append, Bytes.ofText_append, hcomma, String.ofList_toList]
      rfl

/-- The texts of payloads and the documents that are read from them. -/
theorem exists_texts {batch : List Message} {vs : List Json}
    (h : List.Forall₂ (fun m v => Stands depth m.payload v) batch vs) :
    ∃ (ts : List String) (documents : List Json),
      batch.map Message.payload = ts.map Bytes.ofText ∧
        List.Forall₂ (Reader.Reads depth) (ts.map String.toList) documents ∧
        documents.map canonical = vs := by
  induction h with
  | nil => exact ⟨[], [], rfl, List.Forall₂.nil, rfl⟩
  | @cons m v batch vs hm _ ih =>
    obtain ⟨t, document, ht, hread, hd, rfl⟩ := hm
    obtain ⟨ts, documents, hpayloads, hreads, rfl⟩ := ih
    refine ⟨t :: ts, document :: documents, ?_, List.Forall₂.cons ?_ hreads, rfl⟩
    · rw [List.map_cons, List.map_cons, hpayloads, Bytes.eq_ofText ht]
    · exact Reader.reads_of_wholeText (read_eq_ok_iff.mp hread) hd

/-- The list of documents, each the document of a message. -/
theorem ofBytes?_joinArray {batch : List Message} {vs : List Json}
    (h : List.Forall₂ (fun m v => Stands depth m.payload v) batch vs)
    (hdepth : depth + 1 = Reader.greatestDepth) :
    ofBytes? (Message.joinArray batch) = some (.array vs) := by
  obtain ⟨ts, documents, hpayloads, hreads, hvs⟩ := exists_texts h
  have hopen : Bytes.ofText (String.ofList ['[']) = [0x5b] := rfl
  have hclose : Bytes.ofText (String.ofList [']']) = [0x5d] := rfl
  let cs := '[' :: (Reader.joined (ts.map String.toList) ++ [']'])
  have hbytes : Message.joinArray batch = Bytes.ofText (String.ofList cs) := by
    have hcs : cs = ['['] ++ (Reader.joined (ts.map String.toList) ++ [']']) := rfl
    rw [Message.joinArray, hpayloads, joinCommas_ofText, hcs, String.ofList_append,
      String.ofList_append, Bytes.ofText_append, Bytes.ofText_append, hopen, hclose]
    rfl
  have hread : read (String.ofList cs) = .ok (.array documents) := by
    rw [read_eq_ok_iff, String.toList_ofList]
    exact Reader.wholeText_joined hreads hdepth
  rw [hbytes, ofBytes?, Bytes.text?_ofText, Option.bind_some, parse, hread]
  simp only [Except.map, canonical, canonical_items, hvs, Except.toOption]

end Json

end ChangeFeed
