import ChangeFeed.Json.Reader

/-!
# What follows a document

A document is read from the front of a text. It is read in the same way if more text follows, unless
it is a number that goes on there, and whatever nesting depth is allowed, if it does not nest deeper.

* `Json.depth` is how deep the lists and objects of a document nest.
* `Reader.Breaks`: whether a text ends a number that comes before it.
* `Reader.value_append`: reading a document in front of such a text. Each reader has a lemma of this
  form, and those of the containers take that of their elements as an argument.
-/

namespace ChangeFeed.Json

/-! ## Depth -/

/-- How deep the lists and objects of a document nest. -/
def depth : Json → Nat
  | .array xs => items xs + 1
  | .object fs => fields fs + 1
  | _ => 0
where
  items : List Json → Nat
    | [] => 0
    | x :: xs => max (depth x) (items xs)
  fields : List (String × Json) → Nat
    | [] => 0
    | (_, x) :: rest => max (depth x) (fields rest)

theorem depth_items_le {xs : List Json} {n : Nat} :
    depth.items xs ≤ n ↔ ∀ x ∈ xs, x.depth ≤ n := by
  induction xs with
  | nil => simp [depth.items]
  | cons x rest ih => rw [depth.items, Nat.max_le, ih, List.forall_mem_cons]

theorem depth_fields_le {fs : List (String × Json)} {n : Nat} :
    depth.fields fs ≤ n ↔ ∀ f ∈ fs, f.2.depth ≤ n := by
  induction fs with
  | nil => simp [depth.fields]
  | cons f rest ih =>
    obtain ⟨key, x⟩ := f
    rw [depth.fields, Nat.max_le, ih, List.forall_mem_cons]

theorem depth_array_le {xs : List Json} {n : Nat} :
    (Json.array xs).depth ≤ n + 1 ↔ ∀ x ∈ xs, x.depth ≤ n := by
  rw [depth, Nat.add_le_add_iff_right, depth_items_le]

theorem depth_object_le {fs : List (String × Json)} {n : Nat} :
    (Json.object fs).depth ≤ n + 1 ↔ ∀ f ∈ fs, f.2.depth ≤ n := by
  rw [depth, Nat.add_le_add_iff_right, depth_fields_le]

theorem not_depth_array_le_zero {xs : List Json} : ¬ (Json.array xs).depth ≤ 0 := by
  rw [depth]
  omega

theorem not_depth_object_le_zero {fs : List (String × Json)} : ¬ (Json.object fs).depth ≤ 0 := by
  rw [depth]
  omega

namespace Reader

variable {cs rest tail : List Char}

/-! ## Spaces and words -/

theorem skip_append_of_ne_nil (h : skip cs ≠ []) (tail : List Char) :
    skip (cs ++ tail) = skip cs ++ tail := by
  have hne : (cs.dropWhile isSpace).isEmpty ≠ true := fun he => h (List.isEmpty_iff.mp he)
  rw [skip, List.dropWhile_append, if_neg hne]
  rfl

theorem skip_append_of_eq_nil (h : skip cs = []) (tail : List Char) :
    skip (cs ++ tail) = skip tail := by
  have hnil : (cs.dropWhile isSpace).isEmpty = true := List.isEmpty_iff.mpr h
  rw [skip, List.dropWhile_append, if_pos hnil]
  rfl

theorem skip_append_cons {c : Char} (h : skip cs = c :: rest) (tail : List Char) :
    skip (cs ++ tail) = c :: (rest ++ tail) := by
  rw [skip_append_of_ne_nil (by simp [h]), h, List.cons_append]

@[simp] theorem skip_skip (cs : List Char) : skip (skip cs) = skip cs := by
  induction cs with
  | nil => rfl
  | cons c rest ih =>
    by_cases hc : isSpace c = true
    · simpa only [skip, List.dropWhile_cons_of_pos hc] using ih
    · simp only [skip, List.dropWhile_cons_of_neg hc]

theorem word_append {es : List Char} (h : word es cs = .ok rest) (tail : List Char) :
    word es (cs ++ tail) = .ok (rest ++ tail) := by
  induction es generalizing cs with
  | nil =>
    cases h
    rfl
  | cons e es ih =>
    cases cs with
    | nil => cases h
    | cons c cs =>
      simp only [word, List.cons_append] at h ⊢
      split at h
      · rw [if_pos ‹_›]
        exact ih h
      · cases h

/-! ## Numbers -/

/-- Whether a number before a text ends there: the text begins with no character of a number. -/
def Breaks : List Char → Prop
  | [] => False
  | c :: _ => Decimal.isDigit c = false ∧ c ≠ '.' ∧ c ≠ 'e' ∧ c ≠ 'E'

theorem Breaks.exists_cons (h : Breaks tail) : ∃ c rest, tail = c :: rest ∧
    Decimal.digit? c = none ∧ c ≠ '.' ∧ c ≠ 'e' ∧ c ≠ 'E' := by
  match tail, h with
  | c :: rest, ⟨hc, hdot, hsmall, hcapital⟩ =>
    refine ⟨c, rest, rfl, ?_, hdot, hsmall, hcapital⟩
    simpa [Decimal.isDigit] using hc

/-- Text after a number that has ended does not make it go on. -/
theorem Breaks.append_ne_cons (ht : Breaks tail) {c : Char} (hc : c = '.' ∨ c = 'e' ∨ c = 'E')
    (h : ∀ cs', cs = c :: cs' → False) : ∀ cs', cs ++ tail = c :: cs' → False := by
  intro cs' heq
  cases cs with
  | nil =>
    obtain ⟨d, rest, rfl, -, hdot, hsmall, hcapital⟩ := ht.exists_cons
    cases heq
    rcases hc with rfl | rfl | rfl
    · exact hdot rfl
    · exact hsmall rfl
    · exact hcapital rfl
  | cons d cs =>
    cases heq
    exact h cs rfl

theorem takeWhile_digits_append (ht : Breaks tail) (cs : List Char) :
    (cs ++ tail).takeWhile Decimal.isDigit = cs.takeWhile Decimal.isDigit := by
  induction cs with
  | nil =>
    obtain ⟨c, rest, rfl, hc, -⟩ := ht.exists_cons
    simp [Decimal.isDigit, hc]
  | cons c cs ih => simp only [List.cons_append, List.takeWhile_cons, ih]

theorem dropWhile_digits_append (ht : Breaks tail) (cs : List Char) :
    (cs ++ tail).dropWhile Decimal.isDigit = cs.dropWhile Decimal.isDigit ++ tail := by
  induction cs with
  | nil =>
    obtain ⟨c, rest, rfl, hc, -⟩ := ht.exists_cons
    simp [Decimal.isDigit, hc]
  | cons c cs ih =>
    simp only [List.cons_append, List.dropWhile_cons, ih]
    split <;> rfl

section

variable {positive : Bool} {significand : Nat} {start : Int} {n : Number}

theorem scaled_append (h : scaled positive significand start cs = .ok (n, rest))
    (tail : List Char) :
    scaled positive significand start (cs ++ tail) = .ok (n, rest ++ tail) := by
  unfold scaled at h ⊢
  split at h
  · cases h
  · cases h
    rfl

theorem exponentDigits_append (ht : Breaks tail) (n : Nat) (cs : List Char) :
    exponentDigits n (cs ++ tail) = ((exponentDigits n cs).1, (exponentDigits n cs).2 ++ tail) := by
  induction cs generalizing n with
  | nil =>
    obtain ⟨c, rest, rfl, hc, -⟩ := ht.exists_cons
    simp [exponentDigits, hc]
  | cons c cs ih =>
    simp only [List.cons_append, exponentDigits]
    split
    · split
      · rfl
      · exact ih _
    · rfl

theorem exponentAfterSign_append (ht : Breaks tail) {up : Bool}
    (h : exponentAfterSign positive significand start up cs = .ok (n, rest)) :
    exponentAfterSign positive significand start up (cs ++ tail) = .ok (n, rest ++ tail) := by
  cases cs with
  | nil => cases h
  | cons c cs =>
    simp only [exponentAfterSign, List.cons_append] at h ⊢
    split at h
    · cases h
    · simp only [exponentDigits_append ht]
      split at h
      · rename_i heq
        simp only [heq]
        exact scaled_append h tail
      · rename_i heq
        simp only [heq]
        split at h
        · cases h
        · rw [if_neg ‹_›, dropWhile_digits_append ht]
          cases h
          rfl

theorem exponent_append (ht : Breaks tail)
    (h : exponent positive significand start cs = .ok (n, rest)) :
    exponent positive significand start (cs ++ tail) = .ok (n, rest ++ tail) := by
  unfold exponent at h
  split at h
  · exact exponentAfterSign_append ht h
  · exact exponentAfterSign_append ht h
  · rename_i hplus hminus
    cases cs with
    | nil => cases h
    | cons c cs =>
      rw [List.cons_append, exponent]
      · exact exponentAfterSign_append ht h
      · rintro cs' heq
        cases heq
        exact hplus _ rfl
      · rintro cs' heq
        cases heq
        exact hminus _ rfl

theorem optionalExponent_append (ht : Breaks tail)
    (h : optionalExponent positive significand start cs = .ok (n, rest)) :
    optionalExponent positive significand start (cs ++ tail) = .ok (n, rest ++ tail) := by
  unfold optionalExponent at h
  split at h
  · exact exponent_append ht h
  · exact exponent_append ht h
  · rename_i hsmall hcapital
    rw [optionalExponent]
    · exact scaled_append h tail
    · exact ht.append_ne_cons (by simp) hsmall
    · exact ht.append_ne_cons (by simp) hcapital

theorem growSignificand_append (ht : Breaks tail) (n count : Nat) (cs : List Char) :
    growSignificand n count (cs ++ tail) =
      ((growSignificand n count cs).1, (growSignificand n count cs).2.1,
        (growSignificand n count cs).2.2 ++ tail) := by
  induction cs generalizing n count with
  | nil =>
    obtain ⟨c, rest, rfl, hc, -⟩ := ht.exists_cons
    simp [growSignificand, hc]
  | cons c cs ih =>
    simp only [List.cons_append, growSignificand]
    split
    · split
      · exact ih _ _
      · rfl
    · rfl

theorem places_append (ht : Breaks tail) {dropped : Nat}
    (h : places positive significand dropped cs = .ok (n, rest)) :
    places positive significand dropped (cs ++ tail) = .ok (n, rest ++ tail) := by
  simp only [places, growSignificand_append ht] at h ⊢
  generalize growSignificand significand 0 cs = grown at h ⊢
  obtain ⟨grown, count, left⟩ := grown
  cases left with
  | nil =>
    -- all digits were taken, and no other one follows
    obtain ⟨c, more, rfl, hc, -⟩ := ht.exists_cons
    have hdigit : Decimal.isDigit c = false := by simp [Decimal.isDigit, hc]
    simp only [List.nil_append, hdigit, Bool.false_eq_true, if_false] at h ⊢
    split at h
    · cases h
    · rw [if_neg ‹_›]
      exact optionalExponent_append ht h
  | cons c left =>
    simp only [List.cons_append] at h ⊢
    split at h
    · rw [if_pos ‹_›, ← List.cons_append, dropWhile_digits_append ht]
      exact optionalExponent_append ht h
    · rw [if_neg ‹_›]
      split at h
      · cases h
      · rw [if_neg ‹_›]
        exact optionalExponent_append ht h

theorem afterWhole_append (ht : Breaks tail) {dropped : Nat}
    (h : afterWhole positive significand dropped cs = .ok (n, rest)) :
    afterWhole positive significand dropped (cs ++ tail) = .ok (n, rest ++ tail) := by
  unfold afterWhole at h
  split at h
  · exact places_append ht h
  · exact exponent_append ht h
  · exact exponent_append ht h
  · rename_i hdot hsmall hcapital
    rw [afterWhole]
    · split at h
      · rw [if_pos ‹_›]
        exact scaled_append h tail
      · rw [if_neg ‹_›]
        split at h
        · rw [if_pos ‹_›]
          cases h
          rfl
        · rw [if_neg ‹_›]
          split at h
          · rw [if_pos ‹_›]
            cases h
            rfl
          · rw [if_neg ‹_›]
            cases h
            rfl
    · exact ht.append_ne_cons (by simp) hdot
    · exact ht.append_ne_cons (by simp) hsmall
    · exact ht.append_ne_cons (by simp) hcapital

theorem magnitude_append (ht : Breaks tail) (h : magnitude positive cs = .ok (n, rest)) :
    magnitude positive (cs ++ tail) = .ok (n, rest ++ tail) := by
  unfold magnitude at h
  split at h
  · cases h
  · rename_i cs
    cases cs with
    | nil =>
      obtain ⟨c, more, rfl, hc, -⟩ := ht.exists_cons
      have hdigit : Decimal.isDigit c = false := by simp [Decimal.isDigit, hc]
      simp only [magnitude, List.cons_append, List.nil_append, hdigit, Bool.false_eq_true, if_false]
      exact afterWhole_append ht h
    | cons c cs =>
      simp only [magnitude, List.cons_append] at h ⊢
      split at h
      · cases h
      · rw [if_neg ‹_›]
        exact afterWhole_append ht h
  · rename_i c cs hzero
    rw [List.cons_append, magnitude]
    · split at h
      · cases h
      · rename_i d hd
        simp only [growSignificand_append ht, takeWhile_digits_append ht] at h ⊢
        rw [List.drop_append_of_le_length (List.takeWhile_prefix _).length_le]
        exact afterWhole_append ht h
    · exact hzero

end

/-! ## Texts -/

theorem fourDigits_append {n : Nat} (h : fourDigits cs = .ok (n, rest)) (tail : List Char) :
    fourDigits (cs ++ tail) = .ok (n, rest ++ tail) := by
  unfold fourDigits at h
  split at h
  · rename_i hbytes
    split at h
    · rename_i a b c d cs
      split at h
      · rename_i m hm
        cases h
        have hmore : hasBytes 4 (a :: b :: c :: d :: (rest ++ tail)) = true := hbytes
        simp only [fourDigits, List.cons_append, if_pos hmore, hm]
      · cases h
    · cases h
  · cases h

theorem unicodeEscape_append {c : Char} (h : unicodeEscape cs = .ok (c, rest)) (tail : List Char) :
    unicodeEscape (cs ++ tail) = .ok (c, rest ++ tail) := by
  unfold unicodeEscape at h ⊢
  cases hf : fourDigits cs with
  | error e =>
    rw [hf] at h
    cases h
  | ok found =>
    obtain ⟨m, left⟩ := found
    rw [hf] at h
    rw [fourDigits_append hf]
    simp only [Bind.bind, Except.bind] at h ⊢
    split at h
    · cases h
    · rw [if_neg ‹_›]
      split at h
      · rw [if_pos ‹_›]
        cases h
        rfl
      · -- the second half of a character beyond the first plane
        rw [if_neg ‹_›]
        split at h
        · cases h
        · split at h
          · cases h
          · rename_i more
            cases hg : fourDigits more with
            | error e =>
              rw [hg] at h
              cases h
            | ok found =>
              obtain ⟨low, left⟩ := found
              simp only [hg, List.cons_append, fourDigits_append hg] at h ⊢
              split at h
              · cases h
              · rw [if_neg ‹_›]
                simp only [pure, Except.pure, Except.ok.injEq, Prod.mk.injEq] at h ⊢
                exact ⟨h.1, congrArg (· ++ tail) h.2⟩
          · cases h
        · cases h

theorem escape_append {c : Char} (h : escape cs = .ok (c, rest)) (tail : List Char) :
    escape (cs ++ tail) = .ok (c, rest ++ tail) := by
  unfold escape at h
  split at h
  case h_10 => exact unicodeEscape_append h tail
  case h_1 | h_11 => cases h
  all_goals
    cases h
    rfl

theorem textBody_append {fuel more : Nat} {read : List Char} {s : String}
    (h : textBody fuel read cs = .ok (s, rest)) (hle : fuel ≤ more) (tail : List Char) :
    textBody more read (cs ++ tail) = .ok (s, rest ++ tail) := by
  induction fuel generalizing more read cs with
  | zero => cases h
  | succ fuel ih =>
    cases more with
    | zero => cases hle
    | succ more =>
      have hle' : fuel ≤ more := Nat.le_of_succ_le_succ hle
      unfold textBody at h
      split at h
      · cases h
      · cases h
        rfl
      · split at h
        · rename_i c left hc
          simp only [List.cons_append, textBody, escape_append hc]
          exact ih h hle'
        · cases h
      · rename_i c left hquote hback
        split at h
        · cases h
        · rw [List.cons_append, textBody]
          · rw [if_neg ‹_›]
            exact ih h hle'
          · exact hquote
          · exact hback

theorem text_append {s : String} (h : text cs = .ok (s, rest)) (tail : List Char) :
    text (cs ++ tail) = .ok (s, rest ++ tail) := by
  refine textBody_append h ?_ tail
  rw [List.length_append]
  omega

/-! ## Containers -/

section

variable {fuel more depth : Nat}

theorem items_last {item : Nat → List Char → Reading Json} {read : List Json} {x : Json}
    {left after : List Char} (hx : item read.length cs = .ok (x, left))
    (hskip : skip left = ']' :: after) :
    items item (fuel + 1) read cs = .ok (.array (read.reverse ++ [x]), after) := by
  simp [items, hx, hskip]

theorem items_more {item : Nat → List Char → Reading Json} {read : List Json} {x : Json}
    {left after next : List Char} {c : Char} (hx : item read.length cs = .ok (x, left))
    (hskip : skip left = ',' :: after) (hnext : skip after = c :: next) (hc : c ≠ ']') :
    items item (fuel + 1) read cs = items item fuel (x :: read) (c :: next) := by
  simp only [items, hx, hskip, hnext]
  split
  · rename_i heq
    cases heq
  · rename_i heq
    cases heq
    exact absurd rfl hc
  · rfl

/-- An item that was read is the last one of its list, or a comma and another one follow. -/
theorem items_cases {item : Nat → List Char → Reading Json} {read : List Json} {document : Json}
    (h : items item (fuel + 1) read cs = .ok (document, rest)) :
    ∃ x left, item read.length cs = .ok (x, left) ∧
      (skip left = ']' :: rest ∧ document = .array (read.reverse ++ [x]) ∨
        ∃ after c next, skip left = ',' :: after ∧ skip after = c :: next ∧ c ≠ ']' ∧
          items item fuel (x :: read) (c :: next) = .ok (document, rest)) := by
  unfold items at h
  split at h
  · cases h
  · rename_i x left hx
    refine ⟨x, left, hx, ?_⟩
    simp only at h
    split at h
    · cases h
    · rename_i hskip
      cases h
      exact Or.inl ⟨hskip, by simp⟩
    · rename_i after hskip
      split at h
      · cases h
      · cases h
      · rename_i hnil hclose
        obtain ⟨c, next, heq⟩ := List.exists_cons_of_ne_nil hnil
        rw [heq] at h
        refine Or.inr ⟨after, c, next, hskip, heq, fun hc => ?_, h⟩
        rw [hc] at heq
        exact hclose _ heq
    · cases h

/-- The items that were read are the first ones of the list. -/
theorem items_eq_array {item : Nat → List Char → Reading Json} {read : List Json} {document : Json}
    (h : items item fuel read cs = .ok (document, rest)) :
    ∃ later, document = .array (read.reverse ++ later) := by
  induction fuel generalizing read cs with
  | zero => cases h
  | succ fuel ih =>
    obtain ⟨x, left, -, ⟨-, rfl⟩ | ⟨after, c, next, -, -, -, hmore⟩⟩ := items_cases h
    · exact ⟨[x], rfl⟩
    · obtain ⟨later, rfl⟩ := ih hmore
      exact ⟨x :: later, by simp⟩

theorem items_append {item item' : Nat → List Char → Reading Json}
    (hitem : ∀ position cs x rest, item position cs = .ok (x, rest) → x.depth ≤ depth →
      item' position (cs ++ tail) = .ok (x, rest ++ tail))
    {read : List Json} {document : Json} (h : items item fuel read cs = .ok (document, rest))
    (hd : document.depth ≤ depth + 1) (hle : fuel ≤ more) :
    items item' more read (cs ++ tail) = .ok (document, rest ++ tail) := by
  induction fuel generalizing more read cs with
  | zero => cases h
  | succ fuel ih =>
    cases more with
    | zero => cases hle
    | succ more =>
      obtain ⟨x, left, hx, ⟨hskip, rfl⟩ | ⟨after, c, next, hskip, hnext, hc, hmore⟩⟩ := items_cases h
      · have hx' := hitem _ _ _ _ hx (depth_array_le.mp hd x (by simp))
        exact items_last hx' (skip_append_cons hskip tail)
      · obtain ⟨later, rfl⟩ := items_eq_array hmore
        have hx' := hitem _ _ _ _ hx (depth_array_le.mp hd x (by simp))
        rw [items_more hx' (skip_append_cons hskip tail) (skip_append_cons hnext tail) hc]
        exact ih hmore (Nat.le_of_succ_le_succ hle)

theorem list_append {item item' : Nat → List Char → Reading Json}
    (hitem : ∀ position cs x rest, item position cs = .ok (x, rest) → x.depth ≤ depth →
      item' position (cs ++ tail) = .ok (x, rest ++ tail))
    {document : Json} (h : list item cs = .ok (document, rest)) (hd : document.depth ≤ depth + 1) :
    list item' (cs ++ tail) = .ok (document, rest ++ tail) := by
  unfold list at h
  split at h
  · cases h
  · rename_i hskip
    rw [list, skip_append_cons hskip]
    cases h
    rfl
  · rename_i hnil hclose
    obtain ⟨c, next, heq⟩ := List.exists_cons_of_ne_nil hnil
    rw [heq] at h hclose
    rw [list, skip_append_cons heq]
    split
    · rename_i hnil'
      cases hnil'
    · rename_i hclose'
      cases hclose'
      exact absurd rfl (hclose _)
    · refine items_append hitem h hd ?_
      simp only [List.length_cons, List.length_append]
      omega

theorem members_last {value : String → List Char → Reading Json} {read : List (String × Json)}
    {key : String} {x : Json} {named named' left after : List Char}
    (hkey : text cs = .ok (key, named)) (hcolon : skip named = ':' :: named')
    (hx : value key named' = .ok (x, left)) (hskip : skip left = '\x7d' :: after) :
    members value (fuel + 1) read ('"' :: cs) = .ok (.object (read.reverse ++ [(key, x)]), after) := by
  simp [members, hkey, hcolon, hx, hskip]

theorem members_more {value : String → List Char → Reading Json} {read : List (String × Json)}
    {key : String} {x : Json} {named named' left after next : List Char} {c : Char}
    (hkey : text cs = .ok (key, named)) (hcolon : skip named = ':' :: named')
    (hx : value key named' = .ok (x, left)) (hskip : skip left = ',' :: after)
    (hnext : skip after = c :: next) (hc : c ≠ '\x7d') :
    members value (fuel + 1) read ('"' :: cs) =
      members value fuel ((key, x) :: read) (c :: next) := by
  simp only [members, hkey, hcolon, hx, hskip, hnext]
  split
  · rename_i heq
    cases heq
  · rename_i heq
    cases heq
    exact absurd rfl hc
  · rfl

/-- A field that was read is the last one of its object, or a comma and another one follow. -/
theorem members_cases {value : String → List Char → Reading Json} {read : List (String × Json)}
    {document : Json} (h : members value (fuel + 1) read cs = .ok (document, rest)) :
    ∃ quoted key named named' x left, cs = '"' :: quoted ∧ text quoted = .ok (key, named) ∧
      skip named = ':' :: named' ∧ value key named' = .ok (x, left) ∧
      (skip left = '\x7d' :: rest ∧ document = .object (read.reverse ++ [(key, x)]) ∨
        ∃ after c next, skip left = ',' :: after ∧ skip after = c :: next ∧ c ≠ '\x7d' ∧
          members value fuel ((key, x) :: read) (c :: next) = .ok (document, rest)) := by
  unfold members at h
  split at h
  · rename_i quoted
    split at h
    · cases h
    · rename_i key named hkey
      split at h
      · cases h
      · rename_i named' hcolon
        split at h
        · cases h
        · rename_i x left hx
          refine ⟨quoted, key, named, named', x, left, rfl, hkey, hcolon, hx, ?_⟩
          simp only at h
          split at h
          · cases h
          · rename_i hskip
            cases h
            exact Or.inl ⟨hskip, by simp⟩
          · rename_i after hskip
            split at h
            · cases h
            · cases h
            · rename_i hnil hclose
              obtain ⟨c, next, heq⟩ := List.exists_cons_of_ne_nil hnil
              rw [heq] at h
              refine Or.inr ⟨after, c, next, hskip, heq, fun hc => ?_, h⟩
              rw [hc] at heq
              exact hclose _ heq
          · cases h
      · cases h
  · cases h

/-- The fields that were read are the first ones of the object. -/
theorem members_eq_object {value : String → List Char → Reading Json}
    {read : List (String × Json)} {document : Json}
    (h : members value fuel read cs = .ok (document, rest)) :
    ∃ later, document = .object (read.reverse ++ later) := by
  induction fuel generalizing read cs with
  | zero => cases h
  | succ fuel ih =>
    obtain ⟨quoted, key, named, named', x, left, -, -, -, -, ⟨-, rfl⟩ | ⟨after, c, next, -, -, -,
      hmore⟩⟩ := members_cases h
    · exact ⟨[(key, x)], rfl⟩
    · obtain ⟨later, rfl⟩ := ih hmore
      exact ⟨(key, x) :: later, by simp⟩

theorem members_append {value value' : String → List Char → Reading Json}
    (hvalue : ∀ key cs x rest, value key cs = .ok (x, rest) → x.depth ≤ depth →
      value' key (cs ++ tail) = .ok (x, rest ++ tail))
    {read : List (String × Json)} {document : Json}
    (h : members value fuel read cs = .ok (document, rest)) (hd : document.depth ≤ depth + 1)
    (hle : fuel ≤ more) : members value' more read (cs ++ tail) = .ok (document, rest ++ tail) := by
  induction fuel generalizing more read cs with
  | zero => cases h
  | succ fuel ih =>
    cases more with
    | zero => cases hle
    | succ more =>
      obtain ⟨quoted, key, named, named', x, left, rfl, hkey, hcolon, hx, ⟨hskip, rfl⟩ | ⟨after, c,
        next, hskip, hnext, hc, hmore⟩⟩ := members_cases h
      · have hx' := hvalue _ _ _ _ hx (depth_object_le.mp hd (key, x) (by simp))
        exact members_last (text_append hkey tail) (skip_append_cons hcolon tail) hx'
          (skip_append_cons hskip tail)
      · obtain ⟨later, rfl⟩ := members_eq_object hmore
        have hx' := hvalue _ _ _ _ hx (depth_object_le.mp hd (key, x) (by simp))
        rw [List.cons_append, members_more (text_append hkey tail) (skip_append_cons hcolon tail)
          hx' (skip_append_cons hskip tail) (skip_append_cons hnext tail) hc]
        exact ih hmore (Nat.le_of_succ_le_succ hle)

theorem object_append {value value' : String → List Char → Reading Json}
    (hvalue : ∀ key cs x rest, value key cs = .ok (x, rest) → x.depth ≤ depth →
      value' key (cs ++ tail) = .ok (x, rest ++ tail))
    {document : Json} (h : object value cs = .ok (document, rest))
    (hd : document.depth ≤ depth + 1) :
    object value' (cs ++ tail) = .ok (document, rest ++ tail) := by
  unfold object at h
  split at h
  · cases h
  · rename_i hskip
    rw [object, skip_append_cons hskip]
    cases h
    rfl
  · rename_i hnil hclose
    obtain ⟨c, next, heq⟩ := List.exists_cons_of_ne_nil hnil
    rw [heq] at h hclose
    rw [object, skip_append_cons heq]
    split
    · rename_i hnil'
      cases hnil'
    · rename_i hclose'
      cases hclose'
      exact absurd rfl (hclose _)
    · refine members_append hvalue h hd ?_
      simp only [List.length_cons, List.length_append]
      omega

end

/-! ## Documents -/

theorem map_append {α β : Type} {x y : Except Stop α} {f : α → β × List Char} {b : β}
    (extend : α → α) (h : x.map f = .ok (b, rest)) (hy : ∀ a, x = .ok a → y = .ok (extend a))
    (hf : ∀ a, f (extend a) = ((f a).1, (f a).2 ++ tail)) : y.map f = .ok (b, rest ++ tail) := by
  cases x with
  | error e => cases h
  | ok a =>
    have heq : f a = (b, rest) := Except.ok.inj h
    rw [hy a rfl, Except.map, hf, heq]

theorem list_eq_array {item : Nat → List Char → Reading Json} {document : Json}
    (h : list item cs = .ok (document, rest)) : ∃ xs, document = .array xs := by
  unfold list at h
  split at h
  · cases h
  · cases h
    exact ⟨[], rfl⟩
  · obtain ⟨later, rfl⟩ := items_eq_array h
    exact ⟨_, rfl⟩

theorem object_eq_object {value : String → List Char → Reading Json} {document : Json}
    (h : object value cs = .ok (document, rest)) : ∃ fs, document = .object fs := by
  unfold object at h
  split at h
  · cases h
  · cases h
    exact ⟨[], rfl⟩
  · obtain ⟨later, rfl⟩ := members_eq_object h
    exact ⟨_, rfl⟩

/-- A container passes a smaller depth to its elements. -/
theorem value_append_of (ht : Breaks tail) {n m : Nat} {document : Json}
    (below : ∀ k, n = k + 1 → ∀ m cs document rest, value k cs = .ok (document, rest) →
      document.depth ≤ m → value m (cs ++ tail) = .ok (document, rest ++ tail))
    (h : value n cs = .ok (document, rest)) (hd : document.depth ≤ m) :
    value m (cs ++ tail) = .ok (document, rest ++ tail) := by
  unfold value at h
  split at h
  · cases h
  · rename_i hskip
    rw [value, skip_append_cons hskip]
    exact map_append (· ++ tail) h (fun _ hw => word_append hw tail) fun _ => rfl
  · rename_i hskip
    rw [value, skip_append_cons hskip]
    exact map_append (· ++ tail) h (fun _ hw => word_append hw tail) fun _ => rfl
  · rename_i hskip
    rw [value, skip_append_cons hskip]
    exact map_append (· ++ tail) h (fun _ hw => word_append hw tail) fun _ => rfl
  · rename_i hskip
    rw [value, skip_append_cons hskip]
    exact map_append (fun found => (found.1, found.2 ++ tail)) h
      (fun _ hn => magnitude_append ht hn) fun _ => rfl
  · rename_i hskip
    rw [value, skip_append_cons hskip]
    exact map_append (fun found => (found.1, found.2 ++ tail)) h
      (fun _ hs => text_append hs tail) fun _ => rfl
  · rename_i hskip
    rw [value, skip_append_cons hskip]
    split at h
    · cases h
    · rename_i k
      obtain ⟨xs, rfl⟩ := list_eq_array h
      cases m with
      | zero => exact absurd hd not_depth_array_le_zero
      | succ m =>
        exact list_append (fun _ cs x rest hx hle => below k rfl m cs x rest hx hle) h hd
  · rename_i hskip
    rw [value, skip_append_cons hskip]
    split at h
    · cases h
    · rename_i k
      obtain ⟨fs, rfl⟩ := object_eq_object h
      cases m with
      | zero => exact absurd hd not_depth_object_le_zero
      | succ m =>
        exact object_append (fun _ cs x rest hx hle => below k rfl m cs x rest hx hle) h hd
  · rename_i c left hskip
    split at h
    · rename_i hdigit
      rw [value, skip_append_cons hskip]
      split
      case h_1 heq => cases heq
      case h_9 heq =>
        cases heq
        rw [if_pos hdigit, ← List.cons_append]
        exact map_append (fun found => (found.1, found.2 ++ tail)) h
          (fun _ hn => magnitude_append ht hn) fun _ => rfl
      -- the other documents do not begin with a digit
      all_goals
        rename_i heq
        rw [(List.cons.inj heq).1] at hdigit
        exact absurd hdigit (by decide)
    · cases h

/-- A document is read in the same way in front of a text that ends it, if it may nest as deep as it
does. -/
theorem value_append (ht : Breaks tail) {n m : Nat} {document : Json}
    (h : value n cs = .ok (document, rest)) (hd : document.depth ≤ m) :
    value m (cs ++ tail) = .ok (document, rest ++ tail) := by
  induction n generalizing m cs rest document with
  | zero => exact value_append_of ht (by simp) h hd
  | succ n ih =>
    refine value_append_of ht (fun k heq m cs document rest hk hle => ?_) h hd
    cases heq
    exact ih hk hle

end Reader

end ChangeFeed.Json
