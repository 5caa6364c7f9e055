import ChangeFeed.Json.Typed
import ChangeFeed.Proofs.Json.Numbers
import Mathlib.Data.List.Forall2

/-!
# Documents and the records that are read from them

A document that stands for a value has its fields in strict order of their keys, at any depth, and
its whole numbers are words.

* `isSorted_canonical`: sorting fields gives such an order, so `isValue_of_parse` says that every
  document that is read from a text is a value.
* `yields_record`: what a record has before it is read, and what every field keeps, it has
  afterwards. What the fields may know about documents is any `Hereditary` property.
* `shows_record`: a part of a record that one field sets, and that all others leave, is what this
  field was read from, or what it was before if nothing was said.
-/

namespace ChangeFeed.Json

/-! ## Sorted documents -/

/-- Whether the fields of all objects are in strict order of their keys. -/
def isSorted : Json → Bool
  | .array xs => items xs
  | .object fs => decide ((fs.map Prod.fst).Pairwise (· < ·)) && fields fs
  | _ => true
where
  items : List Json → Bool
    | [] => true
    | x :: xs => isSorted x && items xs
  fields : List (String × Json) → Bool
    | [] => true
    | (_, x) :: rest => isSorted x && fields rest

def IsSorted (document : Json) : Prop := document.isSorted = true

instance : DecidablePred IsSorted := fun document =>
  inferInstanceAs (Decidable (document.isSorted = true))

theorem isSorted_array {xs : List Json} : (Json.array xs).IsSorted ↔ ∀ x ∈ xs, x.IsSorted := by
  simp only [IsSorted, isSorted]
  induction xs with
  | nil => simp [isSorted.items]
  | cons x rest ih => simp [isSorted.items, ih]

theorem isSorted_object {fs : List (String × Json)} : (Json.object fs).IsSorted ↔
    (fs.map Prod.fst).Pairwise (· < ·) ∧ ∀ f ∈ fs, f.2.IsSorted := by
  have hfields : isSorted.fields fs = true ↔ ∀ f ∈ fs, f.2.IsSorted := by
    induction fs with
    | nil => simp [isSorted.fields]
    | cons f rest ih =>
      obtain ⟨key, x⟩ := f
      simp [isSorted.fields, ih, IsSorted]
  simp only [IsSorted, isSorted, Bool.and_eq_true, decide_eq_true_eq, hfields]

theorem pairwise_insertField {key : String} {value : Json} {fs : List (String × Json)}
    (h : fs.Pairwise fun f g => f.1 < g.1) :
    (insertField key value fs).Pairwise fun f g => f.1 < g.1 := by
  induction fs with
  | nil => exact List.pairwise_singleton _ _
  | cons f rest ih =>
    obtain ⟨k, v⟩ := f
    obtain ⟨hk, hrest⟩ := List.pairwise_cons.mp h
    simp only [insertField]
    split
    · rename_i hlt
      refine List.pairwise_cons.mpr ⟨fun g hg => ?_, h⟩
      rcases List.mem_cons.mp hg with rfl | hg
      · exact hlt
      · exact String.lt_trans hlt (hk g hg)
    · rename_i hnot
      split
      · rename_i heq
        subst heq
        exact List.pairwise_cons.mpr ⟨hk, hrest⟩
      · rename_i hne
        have hlt : k < key := Classical.byContradiction fun hkey =>
          hne (String.le_antisymm (String.not_lt.mp hkey) (String.not_lt.mp hnot))
        refine List.pairwise_cons.mpr ⟨fun g hg => ?_, ih hrest⟩
        rcases mem_insertField hg with rfl | hg
        · exact hlt
        · exact hk g hg

theorem pairwise_sortFields (fs : List (String × Json)) :
    (sortFields fs).Pairwise fun f g => f.1 < g.1 := by
  have h (sorted : List (String × Json)) (hs : sorted.Pairwise fun f g => f.1 < g.1) :
      (fs.foldl (fun sorted field => insertField field.1 field.2 sorted) sorted).Pairwise
        fun f g => f.1 < g.1 := by
    induction fs generalizing sorted with
    | nil => exact hs
    | cons f rest ih => exact ih _ (pairwise_insertField hs)
  exact h [] List.Pairwise.nil

mutual

theorem isSorted_canonical (document : Json) : document.canonical.IsSorted := by
  cases document with
  | array xs => exact isSorted_array.mpr (isSorted_canonical_items xs)
  | object fs =>
    have hfields := isSorted_canonical_fields fs
    exact isSorted_object.mpr ⟨List.pairwise_map.mpr (pairwise_sortFields _),
      fun f hf => hfields f (mem_sortFields hf)⟩
  | _ => rfl

theorem isSorted_canonical_items (xs : List Json) : ∀ x ∈ canonical.items xs, x.IsSorted := by
  cases xs with
  | nil => simp [canonical.items]
  | cons x rest =>
    exact List.forall_mem_cons.mpr ⟨isSorted_canonical x, isSorted_canonical_items rest⟩

theorem isSorted_canonical_fields (fs : List (String × Json)) :
    ∀ f ∈ canonical.fields fs, f.2.IsSorted := by
  match fs with
  | [] => simp [canonical.fields]
  | (key, x) :: rest =>
    exact List.forall_mem_cons.mpr ⟨isSorted_canonical x, isSorted_canonical_fields rest⟩

end

/-- Whether a document stands for a value. -/
structure IsValue (document : Json) : Prop where
  words : document.InWords
  sorted : document.IsSorted

/-- Every document that is read from a text is a value. -/
theorem isValue_of_parse {source : String} {document : Json} (h : parse source = .ok document) :
    document.IsValue := by
  refine ⟨yields_parse source document h, ?_⟩
  unfold parse at h
  cases hr : read source with
  | error fault =>
    rw [hr] at h
    cases h
  | ok written =>
    rw [hr] at h
    cases h
    exact isSorted_canonical written

/-- Whether a property of a document is one of the documents in it. -/
structure Hereditary (D : Json → Prop) : Prop where
  array : ∀ {xs : List Json}, D (.array xs) → ∀ x ∈ xs, D x
  object : ∀ {fs : List (String × Json)}, D (.object fs) → ∀ f ∈ fs, D f.2

theorem hereditary_inWords : Hereditary InWords := ⟨inWords_array.mp, inWords_object.mp⟩

theorem hereditary_isSorted : Hereditary IsSorted :=
  ⟨isSorted_array.mp, fun h => (isSorted_object.mp h).2⟩

namespace Typed

variable {σ α : Type} {D : Json → Prop} {P : σ → Prop} {fields : List (RecordField σ)}

/-! ## What fields keep -/

/-- Whether a field keeps a property of a record, if it is set to a document of a kind. -/
def RecordField.Keeps (f : RecordField σ) (D : Json → Prop) (P : σ → Prop) : Prop :=
  ∀ document s, D document → P s → Yields (f.read document s) P

theorem keeps_field {key : String} {read : Json → Except String α} {set : σ → α → σ}
    {Q : α → Prop} (hread : ∀ document, D document → Yields (read document) Q)
    (hset : ∀ s v, P s → Q v → P (set s v)) : (field key read set).Keeps D P :=
  fun document s hd hs => (hread document hd).map fun v hv => hset s v hs hv

/-- A field that has nothing to do with a property. -/
theorem keeps_field_of_set {key : String} {read : Json → Except String α}
    {set : σ → α → σ} (hset : ∀ s v, P s → P (set s v)) : (field key read set).Keeps D P :=
  fun _ s _ hs => yields_map fun v => hset s v hs

theorem yields_ofFields (hkeeps : ∀ f ∈ fields, f.Keeps D P) {values : List (String × Json)}
    (hvalues : ∀ value ∈ values, D value.2) {s : σ} (hs : P s) :
    Yields (ofFields fields values s) P := by
  induction values generalizing s with
  | nil => exact yields_ok hs
  | cons entry rest ih =>
    obtain ⟨hvalue, hrest⟩ := List.forall_mem_cons.mp hvalues
    simp only [ofFields]
    split
    · exact ih hrest hs
    · rename_i f hf
      have hmem := List.mem_of_find?_eq_some hf
      exact (hkeeps f hmem entry.2 s hvalue hs).bind fun s' hs' => ih hrest hs'

theorem yields_ofItems (hkeeps : ∀ f ∈ fields, f.Keeps D P) {xs : List Json}
    (hitems : ∀ x ∈ xs, D x) {s : σ} (hs : P s) : Yields (ofItems fields xs s) P := by
  induction fields generalizing xs s with
  | nil => exact yields_ok hs
  | cons f rest ih =>
    obtain ⟨hf, hrest⟩ := List.forall_mem_cons.mp hkeeps
    cases xs with
    | nil => exact yields_ok hs
    | cons x xs =>
      obtain ⟨hx, hxs⟩ := List.forall_mem_cons.mp hitems
      exact (hf x s hx hs).bind fun s' hs' => ih hrest hxs hs'

/-- What a record has before it is read, and what every field keeps, it has afterwards. -/
theorem yields_record (hD : Hereditary D) (hkeeps : ∀ f ∈ fields, f.Keeps D P) {name : String}
    {standard : σ} {document : Json} (hd : D document) (hs : P standard) :
    Yields (record name fields standard document) P := by
  unfold record
  split
  · exact yields_ofFields hkeeps (hD.object hd) hs
  · refine (yields_ofItems hkeeps (hD.array hd) hs).bind fun s hs => ?_
    exact yields_ite yields_error (yields_ok hs)
  · exact yields_error

theorem yields_optional {Q : α → Prop} {read : Json → Except String α}
    {document : Json} (h : Yields (read document) Q) :
    Yields (optional read document) fun found => ∀ a, found = some a → Q a := by
  unfold optional
  split
  · exact yields_ok nofun
  · refine h.map fun a ha b heq => ?_
    cases heq
    exact ha

theorem optional_eq_ok_iff {read : Json → Except String α} {document : Json} {found : Option α} :
    Typed.optional read document = .ok found ↔ document = .null ∧ found = none ∨
      document ≠ .null ∧ ∃ a, read document = .ok a ∧ found = some a := by
  cases document with
  | null => simp [Typed.optional, eq_comm]
  | _ => cases h : read _ <;> simp [Typed.optional, h, Except.map, eq_comm]

theorem yields_items (hD : Hereditary D) {document : Json} (hd : D document) :
    Yields (items document) fun xs => ∀ x ∈ xs, D x := by
  unfold items
  split
  · exact yields_ok (hD.array hd)
  · exact yields_error

theorem yields_entries (hD : Hereditary D) {Q : α → Prop} {read : Json → Except String α}
    (hread : ∀ document, D document → Yields (read document) Q) {document : Json}
    (hd : D document) :
    Yields (entries read document) fun found => ∀ entry ∈ found, Q entry.2 := by
  unfold entries
  split
  · rename_i fs
    have hfields := hD.object hd
    clear hd
    induction fs with
    | nil => exact yields_ok (by simp)
    | cons f rest ih =>
      obtain ⟨hf, hrest⟩ := List.forall_mem_cons.mp hfields
      rw [List.mapM_cons]
      refine Yields.bind (P := fun entry => Q entry.2) ((hread f.2 hf).map fun a ha => ha)
        fun entry hentry => (ih hrest).bind fun found hfound => ?_
      exact yields_ok (List.forall_mem_cons.mpr ⟨hentry, hfound⟩)
  · exact yields_error

/-- The entries of an object have its keys, and each value is read from the one of the object. -/
theorem entries_object {read : Json → Except String α} {fs : List (String × Json)}
    {found : List (String × α)} (h : entries read (.object fs) = .ok found) :
    List.Forall₂ (fun f entry => entry.1 = f.1 ∧ read f.2 = .ok entry.2) fs found := by
  simp only [entries] at h
  induction fs generalizing found with
  | nil =>
    cases h
    exact .nil
  | cons f rest ih =>
    rw [List.mapM_cons] at h
    cases hf : read f.2 with
    | error e =>
      rw [hf] at h
      cases h
    | ok a =>
      cases hrest : rest.mapM (fun x => (read x.2).map (x.1, ·)) with
      | error e =>
        rw [hf, hrest] at h
        cases h
      | ok more =>
        rw [hf, hrest] at h
        cases h
        exact .cons ⟨rfl, hf⟩ (ih hrest)

/-- The entries of a sorted document are in strict order of their keys. -/
theorem yields_entries_sorted {read : Json → Except String α} {document : Json}
    (hd : document.IsSorted) :
    Yields (entries read document) fun found => found.Pairwise fun s t => s.1 < t.1 := by
  intro found h
  cases document with
  | object fs =>
    have hkeys : found.map Prod.fst = fs.map Prod.fst := by
      have hentries := entries_object h
      clear h hd
      induction hentries with
      | nil => rfl
      | cons hf hrest ih => simp [hf.1, ih]
    refine List.pairwise_map.mp ?_
    rw [hkeys]
    exact (isSorted_object.mp hd).1
  | _ => cases h

/-! ## Parts of a record -/

/-- The document that is read for a key of a record, if there is one. -/
def source? (fields : List (RecordField σ)) (key : String) : Json → Option Json
  | .object values => values.lookup key
  | .array xs => (fields.findIdx? (·.key = key)).bind (xs[·]?)
  | _ => none

theorem source?_of_hereditary (hD : Hereditary D) {key : String} {document d : Json}
    (h : D document) (hs : source? fields key document = some d) : D d := by
  cases document with
  | object values =>
    obtain ⟨before, after, rfl, -⟩ := List.lookup_eq_some_iff.mp hs
    exact hD.object h (key, d) (by simp)
  | array xs =>
    obtain ⟨i, -, hi⟩ := Option.bind_eq_some_iff.mp hs
    exact hD.array h d (List.mem_of_getElem? hi)
  | _ => cases hs

/-- Whether a value is what is read for a key of a record, or what it is if nothing is said. -/
def Shown (fields : List (RecordField σ)) (document : Json) (key : String)
    (read : Json → Except String α) (standard v : α) : Prop :=
  match source? fields key document with
  | none => v = standard
  | some d => read d = .ok v

/-- Whether a field sets a part of a record to what is read from its document. -/
def RecordField.Gives (f : RecordField σ) (read : Json → Except String α) (part : σ → α) : Prop :=
  ∀ document s s', f.read document s = .ok s' → read document = .ok (part s')

/-- Whether a field has nothing to do with a part of a record. -/
def RecordField.Leaves (f : RecordField σ) (part : σ → α) : Prop :=
  ∀ document s s', f.read document s = .ok s' → part s' = part s

theorem read_field_eq_ok_iff {key : String} {read : Json → Except String α} {set : σ → α → σ}
    {document : Json} {s s' : σ} :
    (field key read set).read document s = .ok s' ↔ ∃ v, read document = .ok v ∧ s' = set s v := by
  cases hv : read document <;> simp [field, hv, Except.map, eq_comm]

theorem gives_field {key : String} {read : Json → Except String α} {set : σ → α → σ}
    {part : σ → α} (h : ∀ s v, part (set s v) = v) : (field key read set).Gives read part := by
  intro document s s' hr
  obtain ⟨v, hv, rfl⟩ := read_field_eq_ok_iff.mp hr
  rw [h, hv]

theorem leaves_field {β : Type} {key : String} {read : Json → Except String β} {set : σ → β → σ}
    {part : σ → α} (h : ∀ s v, part (set s v) = part s) : (field key read set).Leaves part := by
  intro document s s' hr
  obtain ⟨v, -, rfl⟩ := read_field_eq_ok_iff.mp hr
  exact h s v

/-- Whether the field of a key sets a part of a record, and all others leave it. -/
structure Sets (fields : List (RecordField σ)) (key : String) (read : Json → Except String α)
    (part : σ → α) : Prop where
  nodup : (fields.map RecordField.key).Nodup
  gives : ∀ f ∈ fields, f.key = key → f.Gives read part
  leaves : ∀ f ∈ fields, f.key ≠ key → f.Leaves part

variable {key : String} {read : Json → Except String α} {part : σ → α}

theorem Sets.tail {f : RecordField σ} (h : Sets (f :: fields) key read part) :
    Sets fields key read part where
  nodup := (List.nodup_cons.mp h.nodup).2
  gives := (List.forall_mem_cons.mp h.gives).2
  leaves := (List.forall_mem_cons.mp h.leaves).2

theorem part_ofFields (h : Sets fields key read part) (hmem : key ∈ fields.map RecordField.key)
    {values : List (String × Json)} (hnodup : (values.map Prod.fst).Nodup) {s s' : σ}
    (hr : ofFields fields values s = .ok s') :
    match values.lookup key with
    | none => part s' = part s
    | some d => read d = .ok (part s') := by
  induction values generalizing s with
  | nil =>
    cases hr
    rfl
  | cons entry rest ih =>
    obtain ⟨k, document⟩ := entry
    obtain ⟨hk, hrest⟩ := List.nodup_cons.mp hnodup
    simp only [ofFields] at hr
    split at hr
    · rename_i hnot
      have hne : (key == k) = false := by
        rw [beq_eq_false_iff_ne]
        rintro rfl
        obtain ⟨f, hf, hkey⟩ := List.mem_map.mp hmem
        exact List.find?_eq_none.mp hnot f hf (by simpa using hkey)
      rw [List.lookup_cons, hne]
      exact ih hrest hr
    · rename_i f hf
      have hmemf := List.mem_of_find?_eq_some hf
      have hfk : f.key = k := by simpa using List.find?_some hf
      cases hone : f.read document s with
      | error e =>
        rw [hone] at hr
        cases hr
      | ok s₁ =>
        rw [hone] at hr
        have htail := ih hrest hr
        by_cases hkey : key = k
        · -- the key does not come a second time
          subst hkey
          have hnone : rest.lookup key = none := by
            rw [List.lookup_eq_none_iff]
            intro p hp
            rw [bne_iff_ne]
            intro heq
            exact hk (List.mem_map.mpr ⟨p, hp, heq.symm⟩)
          rw [hnone] at htail
          have hpart : part s' = part s₁ := htail
          rw [List.lookup_cons, beq_self_eq_true, hpart]
          exact h.gives f hmemf hfk document s s₁ hone
        · have hne : (key == k) = false := by simpa using hkey
          have hleft := h.leaves f hmemf (fun heq => hkey (heq.symm.trans hfk)) document s s₁ hone
          rw [List.lookup_cons, hne]
          rw [hleft] at htail
          exact htail

theorem ofItems_cons_eq_ok_iff {f : RecordField σ} {rest : List (RecordField σ)} {x : Json}
    {xs : List Json} {s s' : σ} :
    ofItems (f :: rest) (x :: xs) s = .ok s' ↔
      ∃ s₁, f.read x s = .ok s₁ ∧ ofItems rest xs s₁ = .ok s' := by
  cases hone : f.read x s <;> simp [ofItems, hone, bind, Except.bind]

/-- Fields with other keys leave a part of a record. -/
theorem part_ofItems_of_notMem (h : Sets fields key read part)
    (hmem : key ∉ fields.map RecordField.key) {xs : List Json} {s s' : σ}
    (hr : ofItems fields xs s = .ok s') : part s' = part s := by
  induction fields generalizing xs s with
  | nil =>
    cases hr
    rfl
  | cons f rest ih =>
    cases xs with
    | nil =>
      cases hr
      rfl
    | cons x xs =>
      simp only [List.map_cons, List.mem_cons, not_or] at hmem
      obtain ⟨s₁, hone, hrest⟩ := ofItems_cons_eq_ok_iff.mp hr
      exact (ih h.tail hmem.2 hrest).trans
        (h.leaves f List.mem_cons_self (Ne.symm hmem.1) x s s₁ hone)

theorem part_ofItems (h : Sets fields key read part) {xs : List Json} {s s' : σ}
    (hr : ofItems fields xs s = .ok s') :
    match (fields.findIdx? (·.key = key)).bind (xs[·]?) with
    | none => part s' = part s
    | some d => read d = .ok (part s') := by
  induction fields generalizing xs s with
  | nil =>
    cases hr
    rfl
  | cons f rest ih =>
    cases xs with
    | nil =>
      cases hr
      cases List.findIdx? (fun f => decide (f.key = key)) (f :: rest) <;> rfl
    | cons x xs =>
      obtain ⟨s₁, hone, hrest⟩ := ofItems_cons_eq_ok_iff.mp hr
      by_cases hkey : f.key = key
      · have hnot : key ∉ rest.map RecordField.key := by
          rw [← hkey]
          exact (List.nodup_cons.mp h.nodup).1
        have hpart : part s' = part s₁ := part_ofItems_of_notMem h.tail hnot hrest
        have hgiven := h.gives f List.mem_cons_self hkey x s s₁ hone
        simpa [List.findIdx?_cons, hkey, hpart] using hgiven
      · have hleft := h.leaves f List.mem_cons_self hkey x s s₁ hone
        have htail := ih h.tail hrest
        rw [hleft] at htail
        simpa [List.findIdx?_cons, hkey, Option.bind_map, Function.comp_def] using htail

/-- A part of a record is what the field of a key was read from. -/
theorem shows_record (h : Sets fields key read part) (hmem : key ∈ fields.map RecordField.key)
    {name : String} {standard s : σ} {document : Json} (hd : document.IsSorted)
    (hr : record name fields standard document = .ok s) :
    Shown fields document key read (part standard) (part s) := by
  unfold Shown
  unfold record at hr
  split at hr
  · rename_i values
    have hnodup : (values.map Prod.fst).Nodup := by
      refine (isSorted_object.mp hd).1.imp fun hlt heq => ?_
      rw [heq] at hlt
      exact String.lt_irrefl _ hlt
    exact part_ofFields h hmem hnodup hr
  · rename_i xs
    cases hs : ofItems fields xs standard with
    | error e =>
      rw [hs] at hr
      cases hr
    | ok s₁ =>
      simp only [hs, bind, Except.bind] at hr
      split at hr
      · cases hr
      · cases hr
        exact part_ofItems h hs
  · cases hr

end Typed

end ChangeFeed.Json
