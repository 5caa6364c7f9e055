import ChangeFeed.Json.Reader
import ChangeFeed.Proofs.Decimal.Digits

/-!
# The numbers of a document

A whole number of a JSON text is read as a word of 64 bits, and as a number with a point if it is
none.

* `Json.numbers` are the numbers of a document at any depth, and `Json.InWords` says that its whole
  numbers are words.
* `yields_parse`: so it is with every document that is read from a text.
-/

namespace ChangeFeed.Json

/-! ## Numbers -/

/-- Whether a whole number is a word of 64 bits, a signed one if it is negative. -/
def Number.IsWord : Number → Prop
  | .natural n => n < UInt64.size
  | .negative n => -Nat.pow 2 63 ≤ n ∧ n < 0
  | .float _ => True

/-- The numbers of a document. -/
def numbers : Json → List Number
  | .number n => [n]
  | .array xs => items xs
  | .object fs => fields fs
  | _ => []
where
  items : List Json → List Number
    | [] => []
    | x :: xs => numbers x ++ items xs
  fields : List (String × Json) → List Number
    | [] => []
    | (_, x) :: rest => numbers x ++ fields rest

variable {n : Number}

theorem mem_numbers_items {xs : List Json} :
    n ∈ numbers.items xs ↔ ∃ x ∈ xs, n ∈ x.numbers := by
  induction xs with
  | nil => simp [numbers.items]
  | cons x rest ih => simp [numbers.items, ih]

theorem mem_numbers_fields {fs : List (String × Json)} :
    n ∈ numbers.fields fs ↔ ∃ f ∈ fs, n ∈ f.2.numbers := by
  induction fs with
  | nil => simp [numbers.fields]
  | cons f rest ih =>
    obtain ⟨key, x⟩ := f
    simp [numbers.fields, ih]

/-- Whether all whole numbers of a document are words. -/
def InWords (document : Json) : Prop := ∀ n ∈ document.numbers, n.IsWord

theorem inWords_number : (Json.number n).InWords ↔ n.IsWord := by
  simp [InWords, numbers]

theorem inWords_array {xs : List Json} : (Json.array xs).InWords ↔ ∀ x ∈ xs, x.InWords := by
  simp only [InWords, numbers, mem_numbers_items]
  exact ⟨fun h x hx n hn => h n ⟨x, hx, hn⟩, fun h n ⟨x, hx, hn⟩ => h x hx n hn⟩

theorem inWords_object {fs : List (String × Json)} :
    (Json.object fs).InWords ↔ ∀ f ∈ fs, f.2.InWords := by
  simp only [InWords, numbers, mem_numbers_fields]
  exact ⟨fun h f hf n hn => h n ⟨f, hf, hn⟩, fun h n ⟨f, hf, hn⟩ => h f hf n hn⟩

theorem InWords.field? {document value : Json} {key : String} (h : document.InWords)
    (hf : document.field? key = some value) : value.InWords := by
  cases document with
  | object fs =>
    obtain ⟨before, after, rfl, -⟩ := List.lookup_eq_some_iff.mp hf
    exact inWords_object.mp h (key, value) (by simp)
  | _ => cases hf

/-! ## Canonical documents -/

theorem mem_insertField {key : String} {value : Json} {fs : List (String × Json)}
    {f : String × Json} (h : f ∈ insertField key value fs) : f = (key, value) ∨ f ∈ fs := by
  induction fs with
  | nil => exact Or.inl (List.mem_singleton.mp h)
  | cons g rest ih =>
    obtain ⟨k, v⟩ := g
    simp only [insertField] at h
    split at h
    · exact List.mem_cons.mp h
    · split at h
      · rcases List.mem_cons.mp h with h | h
        · exact Or.inl h
        · exact Or.inr (List.mem_cons_of_mem _ h)
      · rcases List.mem_cons.mp h with rfl | h
        · exact Or.inr List.mem_cons_self
        · exact (ih h).imp_right (List.mem_cons_of_mem _)

theorem mem_foldl_insertField {sorted fs : List (String × Json)} {f : String × Json}
    (h : f ∈ fs.foldl (fun sorted field => insertField field.1 field.2 sorted) sorted) :
    f ∈ sorted ∨ f ∈ fs := by
  induction fs generalizing sorted with
  | nil => exact Or.inl h
  | cons g rest ih =>
    rcases ih h with h | h
    · rcases mem_insertField h with rfl | h
      · exact Or.inr List.mem_cons_self
      · exact Or.inl h
    · exact Or.inr (List.mem_cons_of_mem _ h)

theorem mem_sortFields {fs : List (String × Json)} {f : String × Json} (h : f ∈ sortFields fs) :
    f ∈ fs :=
  (mem_foldl_insertField h).resolve_left (List.not_mem_nil)

mutual

/-- Sorting fields adds no number. -/
theorem InWords.canonical {document : Json} (h : document.InWords) :
    document.canonical.InWords := by
  cases document with
  | array xs => exact inWords_array.mpr (inWords_canonical_items (inWords_array.mp h))
  | object fs =>
    have hfields := inWords_canonical_fields (inWords_object.mp h)
    exact inWords_object.mpr fun f hf => hfields f (mem_sortFields hf)
  | _ => exact h

theorem inWords_canonical_items {xs : List Json} (h : ∀ x ∈ xs, x.InWords) :
    ∀ x ∈ canonical.items xs, x.InWords := by
  cases xs with
  | nil => exact h
  | cons x rest =>
    obtain ⟨hx, hrest⟩ := List.forall_mem_cons.mp h
    exact List.forall_mem_cons.mpr ⟨hx.canonical, inWords_canonical_items hrest⟩

theorem inWords_canonical_fields {fs : List (String × Json)} (h : ∀ f ∈ fs, f.2.InWords) :
    ∀ f ∈ canonical.fields fs, f.2.InWords := by
  match fs, h with
  | [], h => exact h
  | (key, x) :: rest, h =>
    obtain ⟨hx, hrest⟩ := List.forall_mem_cons.mp h
    exact List.forall_mem_cons.mpr ⟨InWords.canonical hx, inWords_canonical_fields hrest⟩

end

/-! ## Results -/

section

variable {ε α β : Type} {P : α → Prop} {Q : β → Prop} {x y : Except ε α}

/-- Whether every successful result has a property. -/
def Yields (x : Except ε α) (P : α → Prop) : Prop := ∀ a, x = .ok a → P a

theorem yields_ok {a : α} (h : P a) : Yields (.ok a : Except ε α) P := by
  intro b heq
  cases heq
  exact h

theorem yields_error {e : ε} : Yields (.error e : Except ε α) P := nofun

theorem yields_ite {c : Prop} [Decidable c] (hx : Yields x P) (hy : Yields y P) :
    Yields (if c then x else y) P := by
  split
  · exact hx
  · exact hy

theorem Yields.bind {f : α → Except ε β} (hx : Yields x P) (hf : ∀ a, P a → Yields (f a) Q) :
    Yields (x >>= f) Q := by
  intro b heq
  cases x with
  | error e => cases heq
  | ok a => exact hf a (hx a rfl) b heq

theorem Yields.map {f : α → β} (hx : Yields x P) (hf : ∀ a, P a → Q (f a)) :
    Yields (x.map f) Q := by
  intro b heq
  cases x with
  | error e => cases heq
  | ok a =>
    cases heq
    exact hf a (hx a rfl)

theorem yields_map {f : α → β} (hf : ∀ a, Q (f a)) : Yields (x.map f) Q :=
  Yields.map (P := fun _ => True) (fun _ _ => trivial) fun a _ => hf a

end

/-! ## Reading -/

namespace Reader

/-! ### Numbers -/

section

variable {positive : Bool} {significand : Nat} {start : Int} {cs : List Char}

theorem yields_scaled : Yields (scaled positive significand start cs) (·.1.IsWord) := by
  unfold scaled
  split
  · exact yields_error
  · exact yields_ok trivial

theorem yields_exponentAfterSign {up : Bool} :
    Yields (exponentAfterSign positive significand start up cs) (·.1.IsWord) := by
  unfold exponentAfterSign
  split
  · exact yields_error
  · split
    · exact yields_error
    · split
      · exact yields_scaled
      · exact yields_ite yields_error (yields_ok trivial)

theorem yields_exponent : Yields (exponent positive significand start cs) (·.1.IsWord) := by
  unfold exponent
  split
  · exact yields_exponentAfterSign
  · exact yields_exponentAfterSign
  · exact yields_exponentAfterSign

theorem yields_optionalExponent :
    Yields (optionalExponent positive significand start cs) (·.1.IsWord) := by
  unfold optionalExponent
  split
  · exact yields_exponent
  · exact yields_exponent
  · exact yields_scaled

theorem yields_places {dropped : Nat} :
    Yields (places positive significand dropped cs) (·.1.IsWord) := by
  unfold places
  rcases growSignificand significand 0 cs with ⟨grown, count, rest⟩
  refine yields_ite yields_optionalExponent (yields_ite ?_ yields_optionalExponent)
  cases rest with
  | nil => exact yields_error
  | cons c rest => exact yields_error

theorem growSignificand_lt {n count : Nat} (h : n < UInt64.size) :
    (growSignificand n count cs).1 < UInt64.size := by
  induction cs generalizing n count with
  | nil => exact h
  | cons c rest ih =>
    unfold growSignificand
    split
    · split
      · exact ih ‹_›
      · exact h
    · exact h

/-- A number without a point is read as a word, if its digits fit one. -/
theorem yields_afterWhole {dropped : Nat} (h : significand < UInt64.size) :
    Yields (afterWhole positive significand dropped cs) (·.1.IsWord) := by
  unfold afterWhole
  split
  · exact yields_places
  · exact yields_exponent
  · exact yields_exponent
  · split
    · exact yields_scaled
    · split
      · exact yields_ok h
      · split
        · exact yields_ok trivial
        · rename_i hword
          have hrange : significand ≠ 0 ∧ significand ≤ Nat.pow 2 63 := by
            simpa [not_or, Nat.not_lt] using hword
          exact yields_ok ⟨by omega, by omega⟩

theorem yields_magnitude : Yields (magnitude positive cs) (·.1.IsWord) := by
  unfold magnitude
  split
  · exact yields_error
  · split
    · split
      · exact yields_error
      · exact yields_afterWhole (by decide)
    · exact yields_afterWhole (by decide)
  · split
    · exact yields_error
    · rename_i d hd
      have hdigit : d < UInt64.size := Nat.lt_trans (Decimal.lt_ten_of_digit? hd) (by decide)
      exact yields_afterWhole (growSignificand_lt hdigit)

end

/-! ### Containers -/

section

variable {cs : List Char}

theorem yields_items {item : Nat → List Char → Reading Json}
    (h : ∀ position cs, Yields (item position cs) (·.1.InWords)) {fuel : Nat} {read : List Json}
    (hread : ∀ x ∈ read, x.InWords) : Yields (items item fuel read cs) (·.1.InWords) := by
  induction fuel generalizing read cs with
  | zero => exact yields_error
  | succ fuel ih =>
    unfold items
    split
    · exact yields_error
    · rename_i x rest hx
      have hmore : ∀ y ∈ x :: read, y.InWords :=
        List.forall_mem_cons.mpr ⟨h _ _ (x, rest) hx, hread⟩
      simp only
      split
      · exact yields_error
      · exact yields_ok (inWords_array.mpr fun y hy => hmore y (List.mem_reverse.mp hy))
      · split
        · exact yields_error
        · exact yields_error
        · exact ih hmore
      · exact yields_error

theorem yields_list {item : Nat → List Char → Reading Json}
    (h : ∀ position cs, Yields (item position cs) (·.1.InWords)) :
    Yields (list item cs) (·.1.InWords) := by
  unfold list
  split
  · exact yields_error
  · exact yields_ok (inWords_array.mpr (by simp))
  · exact yields_items h (by simp)

theorem yields_members {value : String → List Char → Reading Json}
    (h : ∀ key cs, Yields (value key cs) (·.1.InWords)) {fuel : Nat} {read : List (String × Json)}
    (hread : ∀ f ∈ read, f.2.InWords) : Yields (members value fuel read cs) (·.1.InWords) := by
  induction fuel generalizing read cs with
  | zero => exact yields_error
  | succ fuel ih =>
    unfold members
    split
    · split
      · exact yields_error
      · rename_i key _ _
        split
        · exact yields_error
        · split
          · exact yields_error
          · rename_i x rest hx
            have hmore : ∀ f ∈ (key, x) :: read, f.2.InWords :=
              List.forall_mem_cons.mpr ⟨h _ _ (x, rest) hx, hread⟩
            simp only
            split
            · exact yields_error
            · exact yields_ok (inWords_object.mpr fun f hf => hmore f (List.mem_reverse.mp hf))
            · split
              · exact yields_error
              · exact yields_error
              · exact ih hmore
            · exact yields_error
        · exact yields_error
    · exact yields_error

theorem yields_object {value : String → List Char → Reading Json}
    (h : ∀ key cs, Yields (value key cs) (·.1.InWords)) :
    Yields (object value cs) (·.1.InWords) := by
  unfold object
  split
  · exact yields_error
  · exact yields_ok (inWords_object.mpr (by simp))
  · exact yields_members h (by simp)

/-! ### Documents -/

/-- A container passes a smaller depth to its elements. -/
theorem yields_value_of {depth : Nat}
    (h : ∀ below, depth = below + 1 → ∀ cs, Yields (value below cs) (·.1.InWords)) :
    Yields (value depth cs) (·.1.InWords) := by
  unfold value
  split
  · exact yields_error
  · exact yields_map (by simp [InWords, numbers])
  · exact yields_map (by simp [InWords, numbers])
  · exact yields_map (by simp [InWords, numbers])
  · exact yields_magnitude.map fun n hn => inWords_number.mpr hn
  · exact yields_map (by simp [InWords, numbers])
  · split
    · exact yields_error
    · exact yields_list fun _ cs => h _ rfl cs
  · split
    · exact yields_error
    · exact yields_object fun _ cs => h _ rfl cs
  · exact yields_ite (yields_magnitude.map fun n hn => inWords_number.mpr hn) yields_error

theorem yields_value (depth : Nat) (cs : List Char) : Yields (value depth cs) (·.1.InWords) := by
  induction depth generalizing cs with
  | zero => exact yields_value_of (by simp)
  | succ depth ih =>
    refine yields_value_of fun below heq cs => ?_
    cases heq
    exact ih cs

theorem yields_wholeText : Yields (wholeText cs) InWords := by
  unfold wholeText
  split
  · exact yields_error
  · rename_i document rest hv
    split
    · exact yields_ok (yields_value greatestDepth cs (document, rest) hv)
    · exact yields_error

end

end Reader

/-- The whole numbers of a document that is read from a text are words. -/
theorem yields_parse (source : String) : Yields (parse source) InWords := by
  refine Yields.map (P := InWords) ?_ fun document h => h.canonical
  intro document h
  unfold read at h
  cases hr : Reader.wholeText source.toList with
  | error e =>
    rw [hr] at h
    cases h
  | ok found =>
    rw [hr] at h
    cases h
    exact Reader.yields_wholeText document hr

end ChangeFeed.Json
