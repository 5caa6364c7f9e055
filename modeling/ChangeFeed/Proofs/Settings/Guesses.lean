import ChangeFeed.Settings.Sources
import ChangeFeed.Proofs.Decimal.Digits

/-!
# Texts of the environment as texts

A text of the environment is taken for a flag or a number if it reads as one, and a setting that is
a text gets the flag or the number in writing. So the text that was given and the text that is read
may differ.

* `retold` is the text that is read. It is the one that was given for the `Verbatim` texts: the
  flags and whole numbers in their usual writing, the floating point numbers in theirs, and whatever
  is neither flag nor number.
* `retold_eq_iff`: for no other text.
-/

namespace ChangeFeed.Settings

/-- A scalar in writing. -/
def Scalar.written : Scalar → String
  | .absent => ""
  | .flag b => toString b
  | .integer n => toString n
  | .natural n => toString n
  | .float x => floatStyle.render x
  | .text s => s

theorem text_scalar {value : Scalar} (h : value ≠ .absent) (origin : Option String) :
    (Node.scalar origin value).text = .ok value.written := by
  cases value with
  | absent => exact absurd rfl h
  | _ => rfl

/-- What a text of the environment reads as where a text is expected. -/
def retold (s : String) : String := (guess s).written

/-- The texts of the environment that are read as they are. -/
inductive Verbatim : String → Prop where
  | flag (b : Bool) : Verbatim (toString b)
  | integer {n : Int} (hlow : -(Nat.pow 2 63 : Int) ≤ n) (hhigh : n < Nat.pow 2 63) :
      Verbatim (toString n)
  | float {s : String} {x : Float} (h : guess s = .float x) (hs : floatStyle.render x = s) :
      Verbatim s
  | text {s : String} (h : guess s = .text s) : Verbatim s

/-! ## Small letters -/

theorem toLower_of_lt {c : Char} (h : c.toNat < 65) : c.toLower = c := by
  have hcapital : ¬ (c.val ≥ 65 ∧ c.val ≤ 90) := by
    rintro ⟨hlow, -⟩
    have hle : 65 ≤ c.toNat := hlow
    omega
  exact dif_neg hcapital

theorem lowerAfter_eq_self {cs : List Char} (h : ∀ c ∈ cs, c.toNat < 65) (before : List Char) :
    Text.lowerAfter before cs = cs := by
  induction cs generalizing before with
  | nil => rfl
  | cons c rest ih =>
    have hc : c.toNat < 65 := h c List.mem_cons_self
    have hdot : c.toNat ≠ 0x130 := by omega
    have hsigma : c ≠ 'Σ' := by
      rintro rfl
      exact absurd hc (by decide)
    rw [Text.lowerAfter, ih fun d hd => h d (List.mem_cons_of_mem c hd), Text.lowerBetween,
      if_neg hdot, if_neg hsigma, Text.lowerChar, if_pos (by omega), toLower_of_lt hc,
      List.singleton_append]

/-- A text without letters has no capitals. -/
theorem lower_eq_self {s : String} (h : ∀ c ∈ s.toList, c.toNat < 65) : Text.lower s = s := by
  rw [Text.lower, lowerAfter_eq_self h, String.ofList_toList]

/-! ## Numbers in writing -/

theorem toNat_lt_of_mem_toString {n : Int} {c : Char} (h : c ∈ (toString n).toList) :
    c.toNat < 65 := by
  have hdigit : ∀ {m : Nat}, c ∈ Decimal.digits m → c.toNat < 65 := fun hm =>
    Nat.lt_of_le_of_lt (Decimal.toNat_of_isDigit (Decimal.isDigit_of_mem_digits hm)).2 (by decide)
  cases n with
  | ofNat n =>
    have htext : toString (Int.ofNat n) = toString n := rfl
    rw [htext, Decimal.toList_toString_natural] at h
    exact hdigit h
  | negSucc n =>
    have htext : toString (Int.negSucc n) = "-" ++ toString (n + 1) := rfl
    rw [htext, String.toList_append, Decimal.toList_toString_natural] at h
    rcases List.mem_append.mp h with h | h
    · rw [List.mem_singleton.mp h]
      decide
    · exact hdigit h

theorem guess_toString {n : Int} (hlow : -(Nat.pow 2 63 : Int) ≤ n) (hhigh : n < Nat.pow 2 63) :
    guess (toString n) = .integer n := by
  have hlower : Text.lower (toString n) = toString n := lower_eq_self fun c hc =>
    toNat_lt_of_mem_toString hc
  have hword : ∀ {c : Char}, 65 ≤ c.toNat → c ∉ (toString n).toList := fun hc hmem =>
    absurd (toNat_lt_of_mem_toString hmem) (Nat.not_lt.mpr hc)
  have hread : Decimal.signed? 64 (toString n).toList = some n :=
    Decimal.signed?_toString hlow hhigh
  unfold guess
  rw [hlower]
  split
  · rename_i heq
    exact absurd (heq ▸ by decide) (hword (c := 'e') (by decide))
  · rename_i heq
    exact absurd (heq ▸ by decide) (hword (c := 'e') (by decide))
  · rw [hread]

theorem guess_toString_flag (b : Bool) : guess (toString b) = .flag b := by
  cases b <;> rfl

/-! ## What is read as it is -/

/-- What a text of the environment may be taken for. -/
theorem guess_cases (s : String) :
    (∃ b, guess s = .flag b) ∨
      (∃ n, guess s = .integer n ∧ Decimal.signed? 64 s.toList = some n) ∨
      (∃ x, guess s = .float x) ∨ guess s = .text s := by
  unfold guess
  split
  · exact Or.inl ⟨true, rfl⟩
  · exact Or.inl ⟨false, rfl⟩
  · split
    · rename_i n hread
      exact Or.inr (Or.inl ⟨n, rfl, hread⟩)
    · split
      · rename_i x _
        exact Or.inr (Or.inr (Or.inl ⟨x, rfl⟩))
      · exact Or.inr (Or.inr (Or.inr rfl))

theorem guess_ne_absent (s : String) : guess s ≠ .absent := by
  rcases guess_cases s with ⟨b, h⟩ | ⟨n, h, -⟩ | ⟨x, h⟩ | h <;> rw [h] <;> nofun

theorem retold_of_verbatim {s : String} (h : Verbatim s) : retold s = s := by
  cases h with
  | flag b => rw [retold, guess_toString_flag]; rfl
  | integer hlow hhigh => rw [retold, guess_toString hlow hhigh]; rfl
  | float h hs => rw [retold, h]; exact hs
  | text h => rw [retold, h]; rfl

/-- A text of the environment is read as it is if it is one of the verbatim ones. -/
theorem retold_eq_iff {s : String} : retold s = s ↔ Verbatim s := by
  refine ⟨fun h => ?_, retold_of_verbatim⟩
  unfold retold at h
  rcases guess_cases s with ⟨b, hguess⟩ | ⟨n, hguess, hread⟩ | ⟨x, hguess⟩ | hguess
  · rw [hguess] at h
    exact h ▸ Verbatim.flag b
  · rw [hguess] at h
    obtain ⟨hlow, hhigh⟩ := Decimal.bounds_of_signed? hread
    exact h ▸ Verbatim.integer hlow hhigh
  · rw [hguess] at h
    exact .float hguess h
  · exact .text hguess

end ChangeFeed.Settings
