import ChangeFeed.Decimal.Digits

/-!
# Decimal digits are read back

The digits that are written for a number are ASCII digits, and reading them gives the number. So it
is for the signed words, which may have a sign in front.
-/

namespace ChangeFeed.Decimal

theorem isDigit_of_mem_digits {n : Nat} {c : Char} (h : c ∈ digits n) : c.isDigit = true :=
  Nat.isDigit_of_mem_toDigits (by decide) (by decide) h

/-- A digit lies between the characters of zero and nine. -/
theorem toNat_of_isDigit {c : Char} (h : c.isDigit = true) : 48 ≤ c.toNat ∧ c.toNat ≤ 57 := by
  simp only [Char.isDigit, Bool.and_eq_true, decide_eq_true_eq] at h
  exact ⟨h.1, h.2⟩

theorem digit?_of_isDigit {c : Char} (h : c.isDigit = true) :
    digit? c = some (c.toNat - '0'.toNat) := by
  obtain ⟨hlow, hhigh⟩ := toNat_of_isDigit h
  exact if_pos ⟨hlow, hhigh⟩

theorem lt_ten_of_digit? {c : Char} {d : Nat} (h : digit? c = some d) : d < 10 := by
  unfold digit? at h
  split at h
  · rename_i hrange
    have hhigh : c.toNat ≤ 57 := hrange.2
    cases h
    exact Nat.lt_succ_of_le (Nat.sub_le_sub_right hhigh 48)
  · cases h

theorem naturalFrom?_of_isDigit {cs : List Char} (h : ∀ c ∈ cs, c.isDigit = true) (acc : Nat) :
    naturalFrom? acc cs = some (Nat.ofDigitChars 10 cs acc) := by
  induction cs generalizing acc with
  | nil => simp [naturalFrom?]
  | cons c rest ih =>
    have hc := digit?_of_isDigit (h c List.mem_cons_self)
    simp only [naturalFrom?, hc]
    rw [ih (fun d hd => h d (List.mem_cons_of_mem _ hd)), Nat.ofDigitChars_cons]

theorem digits_ne_nil (n : Nat) : digits n ≠ [] := Nat.toDigits_ne_nil

/-- Reading the digits of a number gives the number. -/
theorem natural?_digits (n : Nat) : natural? (digits n) = some n := by
  have hne := digits_ne_nil n
  have hread := naturalFrom?_of_isDigit (fun c hc => isDigit_of_mem_digits (n := n) hc) 0
  rw [digits, Nat.ofDigitChars_ten_toDigits] at hread
  cases hd : digits n with
  | nil => exact absurd hd hne
  | cons c rest =>
    rw [digits] at hd
    rw [hd] at hread
    exact hread

theorem digits_inj {n m : Nat} (h : digits n = digits m) : n = m := by
  have hn := natural?_digits n
  rw [h, natural?_digits] at hn
  exact (Option.some.inj hn).symm

theorem toList_toString_natural (n : Nat) : (toString n).toList = digits n := by
  rw [Nat.toString_eq_repr, Nat.repr, String.toList_ofList]
  rfl

theorem digits_ne_cons {c : Char} (h : c.isDigit = false) (n : Nat) (rest : List Char) :
    digits n ≠ c :: rest := by
  intro heq
  have hmem : c ∈ digits n := heq ▸ List.mem_cons_self
  rw [isDigit_of_mem_digits hmem] at h
  cases h

/-- A word is read back from its digits. -/
theorem unsigned?_digits {bits n : Nat} (h : n < Nat.pow 2 bits) :
    unsigned? bits (digits n) = some n := by
  unfold unsigned?
  split
  · rename_i rest heq
    exact absurd heq (digits_ne_cons (by decide) n rest)
  · simp only [natural?_digits]
    exact Option.filter_some_pos (by simpa using h)

/-- A signed word is read back from its decimal text. -/
theorem signed?_toString {bits : Nat} {n : Int} (hlow : -(Nat.pow 2 (bits - 1) : Int) ≤ n)
    (hhigh : n < Nat.pow 2 (bits - 1)) : signed? bits (toString n).toList = some n := by
  cases n with
  | ofNat n =>
    have htext : toString (Int.ofNat n) = toString n := rfl
    have hfit : n < Nat.pow 2 (bits - 1) := Int.ofNat_lt.mp hhigh
    rw [htext, toList_toString_natural]
    unfold signed?
    split
    · rename_i rest heq
      exact absurd heq (digits_ne_cons (by decide) n rest)
    · rename_i rest heq
      exact absurd heq (digits_ne_cons (by decide) n rest)
    · rw [natural?_digits, Option.filter_some_pos (by simpa using hfit)]
      rfl
  | negSucc n =>
    have htext : toString (Int.negSucc n) = "-" ++ toString (n + 1) := rfl
    have hfit : n + 1 ≤ Nat.pow 2 (bits - 1) := by omega
    have hread : signed? bits ('-' :: digits (n + 1)) = some (Int.negSucc n) := by
      simp only [signed?, natural?_digits]
      rw [Option.filter_some_pos (by simpa using hfit)]
      rfl
    rw [htext, String.toList_append, toList_toString_natural]
    exact hread

/-- Only signed words are read. -/
theorem bounds_of_signed? {bits : Nat} {cs : List Char} {n : Int} (h : signed? bits cs = some n) :
    -(Nat.pow 2 (bits - 1) : Int) ≤ n ∧ n < Nat.pow 2 (bits - 1) := by
  have hpos : 0 < Nat.pow 2 (bits - 1) := Nat.pow_pos (by decide)
  have hplain : ∀ {ds : List Char},
      ((natural? ds).filter (· < Nat.pow 2 (bits - 1))).map Int.ofNat = some n →
      -(Nat.pow 2 (bits - 1) : Int) ≤ n ∧ n < Nat.pow 2 (bits - 1) := by
    intro ds hds
    obtain ⟨m, hm, rfl⟩ := Option.map_eq_some_iff.mp hds
    have hfit : m < Nat.pow 2 (bits - 1) := by simpa using (Option.filter_eq_some_iff.mp hm).2
    exact ⟨Int.le_trans (by omega) (Int.natCast_nonneg m), Int.ofNat_lt.mpr hfit⟩
  unfold signed? at h
  split at h
  · rename_i ds
    cases hm : (natural? ds).filter (· ≤ Nat.pow 2 (bits - 1)) with
    | none => rw [hm] at h; cases h
    | some m =>
      have hfit : m ≤ Nat.pow 2 (bits - 1) := by simpa using (Option.filter_eq_some_iff.mp hm).2
      rw [hm] at h
      obtain rfl : -(m : Int) = n := Option.some.inj h
      omega
  · exact hplain h
  · exact hplain h

end ChangeFeed.Decimal
