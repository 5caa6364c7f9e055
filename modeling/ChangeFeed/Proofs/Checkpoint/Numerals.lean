import Mathlib.Data.List.Basic
import Mathlib.Data.List.Induction
import ChangeFeed.Proofs.Checkpoint.Codec

/-!
# Which byte strings are watermarks

A watermark is kept as a numeral: a row of ASCII digits that stands for a word of 64 bits. Reading
takes every numeral, with leading zeros too, and nothing else but the numerals behind one plus sign;
all other byte strings restore as 0.

* `Numeral` says of a row of bytes which number it stands for, and `IsDocumented` which of those are
  watermarks.
* `decode_eq_bind_text?`: reading the bytes one by one is the same as reading the text that they
  are, if they are one.
* `reads_as_documented_iff`: a byte string is read as the documented form says unless it is a
  watermark behind a plus sign. `not_readsAsDocumented_of_plus`: such a one is taken for it.
-/

namespace ChangeFeed

/-! ## Numerals -/

/-- The byte of a digit. -/
def digitByte (d : Nat) : UInt8 := (48 + d).toUInt8

/-- A row of ASCII digits and the number that it stands for. -/
inductive Numeral : Bytes → Nat → Prop where
  | digit {d : Nat} (hd : d < 10) : Numeral [digitByte d] d
  | more {row : Bytes} {n d : Nat} (h : Numeral row n) (hd : d < 10) :
      Numeral (row ++ [digitByte d]) (10 * n + d)

/-- The character of a byte below 128. -/
def byteChar (b : UInt8) : Char := Char.ofNat b.toNat

theorem toNat_byteChar (b : UInt8) : (byteChar b).toNat = b.toNat := by
  have hvalid : b.toNat.isValidChar := Or.inl (Nat.lt_trans b.toNat_lt (by decide))
  have hchar : byteChar b = ⟨UInt32.ofNatLT b.toNat (Char.isValidUInt32 _ hvalid), hvalid⟩ :=
    dif_pos hvalid
  rw [hchar]
  rfl

theorem toNat_digitByte {d : Nat} (hd : d < 10) : (digitByte d).toNat = 48 + d := by
  rw [digitByte, Nat.toUInt8_eq, UInt8.toNat_ofNat']
  exact Nat.mod_eq_of_lt (by omega)

theorem digit?_byteChar_iff {b : UInt8} {d : Nat} :
    Decimal.digit? (byteChar b) = some d ↔ d < 10 ∧ b = digitByte d := by
  have hrange : ('0' ≤ byteChar b ∧ byteChar b ≤ '9') ↔ 48 ≤ b.toNat ∧ b.toNat ≤ 57 := by
    rw [← toNat_byteChar]
    exact Iff.rfl
  simp only [Decimal.digit?, hrange, toNat_byteChar, Option.ite_none_right_eq_some,
    Option.some.injEq]
  constructor
  · rintro ⟨⟨hlow, hhigh⟩, hd⟩
    have hzero : '0'.toNat = 48 := rfl
    refine ⟨by omega, UInt8.toNat_inj.mp ?_⟩
    rw [toNat_digitByte (by omega)]
    omega
  · rintro ⟨hd, rfl⟩
    rw [toNat_digitByte hd]
    exact ⟨⟨by omega, by omega⟩, Nat.add_sub_cancel_left 48 d⟩

namespace Decimal

theorem naturalFrom?_concat (acc : Nat) (cs : List Char) (c : Char) :
    naturalFrom? acc (cs ++ [c]) =
      (naturalFrom? acc cs).bind fun n => (digit? c).map (10 * n + ·) := by
  induction cs generalizing acc with
  | nil => cases hc : digit? c <;> simp [naturalFrom?, hc]
  | cons head rest ih =>
    cases hd : digit? head with
    | none => simp [naturalFrom?, hd]
    | some d => simp [naturalFrom?, hd, ih]

theorem natural?_of_ne_nil {cs : List Char} (h : cs ≠ []) : natural? cs = naturalFrom? 0 cs := by
  cases cs with
  | nil => exact absurd rfl h
  | cons c rest => rfl

theorem natural?_concat {cs : List Char} (h : cs ≠ []) (c : Char) :
    natural? (cs ++ [c]) = (natural? cs).bind fun n => (digit? c).map (10 * n + ·) := by
  rw [natural?_of_ne_nil (by simp), natural?_of_ne_nil h, naturalFrom?_concat]

theorem natural?_singleton (c : Char) : natural? [c] = digit? c := by
  rw [natural?_of_ne_nil (by simp)]
  cases hc : digit? c <;> simp [naturalFrom?, hc]

/-- A row of bytes reads as a number if it is its numeral. -/
theorem natural?_map_byteChar_iff {row : Bytes} {n : Nat} :
    natural? (row.map byteChar) = some n ↔ Numeral row n := by
  constructor
  · intro h
    induction row using List.reverseRecOn generalizing n with
    | nil => cases h
    | append_singleton row b ih =>
      rw [List.map_append, List.map_cons, List.map_nil] at h
      by_cases hrow : row = []
      · subst hrow
        rw [List.map_nil, List.nil_append, natural?_singleton, digit?_byteChar_iff] at h
        obtain ⟨hd, rfl⟩ := h
        exact .digit hd
      · rw [natural?_concat (by simpa using hrow), Option.bind_eq_some_iff] at h
        obtain ⟨m, hm, h⟩ := h
        obtain ⟨d, hd, rfl⟩ := Option.map_eq_some_iff.mp h
        obtain ⟨hlt, rfl⟩ := digit?_byteChar_iff.mp hd
        exact .more (ih hm) hlt
  · intro h
    induction h with
    | @digit d hd =>
      rw [List.map_cons, List.map_nil, natural?_singleton, digit?_byteChar_iff]
      exact ⟨hd, rfl⟩
    | @more row n d h hd ih =>
      have hne : row.map byteChar ≠ [] := by
        intro hnil
        rw [hnil] at ih
        cases ih
      rw [List.map_append, List.map_cons, List.map_nil, natural?_concat hne, ih,
        Option.bind_some, digit?_byteChar_iff.mpr ⟨hd, rfl⟩, Option.map_some]

end Decimal

theorem Numeral.exists_of_mem {row : Bytes} {n : Nat} (h : Numeral row n) {b : UInt8}
    (hb : b ∈ row) : ∃ d, d < 10 ∧ b = digitByte d := by
  induction h with
  | digit hd => exact ⟨_, hd, List.mem_singleton.mp hb⟩
  | more h hd ih =>
    rcases List.mem_append.mp hb with hb | hb
    · exact ih hb
    · exact ⟨_, hd, List.mem_singleton.mp hb⟩

namespace Watermark

/-! ## What is read -/

/-- The documented form of a watermark: a numeral of a word of 64 bits. -/
def IsDocumented (raw : Bytes) (n : Nat) : Prop := Numeral raw n ∧ n < UInt64.size

/-- The byte of the plus sign. -/
def plus : UInt8 := 0x2b

theorem IsDocumented.head_ne_plus {row : Bytes} {n : Nat} : ¬ IsDocumented (plus :: row) n := by
  rintro ⟨hnumeral, -⟩
  obtain ⟨d, hd, heq⟩ := hnumeral.exists_of_mem List.mem_cons_self
  have hval := congrArg UInt8.toNat heq
  rw [toNat_digitByte hd] at hval
  have hplus : plus.toNat = 43 := rfl
  omega

theorem byteChar_eq_plus_iff {b : UInt8} : byteChar b = '+' ↔ b = plus := by
  constructor
  · intro h
    apply UInt8.toNat_inj.mp
    rw [← toNat_byteChar, h]
    rfl
  · rintro rfl
    rfl

theorem filter_natural?_iff {row : Bytes} {n : Nat} :
    (Decimal.natural? (row.map byteChar)).filter (· < Nat.pow 2 64) = some n ↔
      IsDocumented row n := by
  rw [Option.filter_eq_some_iff, Decimal.natural?_map_byteChar_iff, decide_eq_true_eq]
  exact Iff.rfl

/-- What is read is a watermark of the documented form, or one behind a plus sign. -/
theorem decode_eq_some_iff {raw : Bytes} {n : Nat} :
    decode raw = some n ↔
      IsDocumented raw n ∨ ∃ row, raw = plus :: row ∧ IsDocumented row n := by
  have hdecode : decode raw = Decimal.unsigned? 64 (raw.map byteChar) := rfl
  rw [hdecode]
  by_cases hplus : ∃ row, raw = plus :: row
  · obtain ⟨row, rfl⟩ := hplus
    have hread : Decimal.unsigned? 64 ((plus :: row).map byteChar) =
        (Decimal.natural? (row.map byteChar)).filter (· < Nat.pow 2 64) := rfl
    rw [hread, filter_natural?_iff]
    simp [IsDocumented.head_ne_plus]
  · have hread : Decimal.unsigned? 64 (raw.map byteChar) =
        (Decimal.natural? (raw.map byteChar)).filter (· < Nat.pow 2 64) := by
      cases raw with
      | nil => rfl
      | cons b row =>
        have hb : byteChar b ≠ '+' := fun h => hplus ⟨row, by rw [byteChar_eq_plus_iff.mp h]⟩
        simp [Decimal.unsigned?, hb]
    rw [hread, filter_natural?_iff]
    constructor
    · exact Or.inl
    · rintro (h | ⟨row, rfl, -⟩)
      · exact h
      · exact absurd ⟨row, rfl⟩ hplus

/-! ## Texts -/

/-- Characters other than digits and the plus sign are in no number. -/
theorem unsigned?_eq_none {bits : Nat} {cs : List Char} {c : Char} (hc : c ∈ cs)
    (hdigit : Decimal.digit? c = none) (hplus : c ≠ '+') : Decimal.unsigned? bits cs = none := by
  have hfrom : ∀ {ds : List Char} (acc : Nat), c ∈ ds → Decimal.naturalFrom? acc ds = none := by
    intro ds
    induction ds with
    | nil => exact fun _ h => nomatch h
    | cons d rest ih =>
      intro acc hmem
      rcases List.mem_cons.mp hmem with rfl | hmem
      · simp [Decimal.naturalFrom?, hdigit]
      · cases hd : Decimal.digit? d with
        | none => simp [Decimal.naturalFrom?, hd]
        | some n => simp [Decimal.naturalFrom?, hd, ih _ hmem]
  have hread : ∀ {ds : List Char}, c ∈ ds → Decimal.natural? ds = none := by
    intro ds hmem
    rw [Decimal.natural?_of_ne_nil (List.ne_nil_of_mem hmem)]
    exact hfrom 0 hmem
  unfold Decimal.unsigned?
  split
  · rename_i rest
    have hrest : c ∈ rest := by
      rcases List.mem_cons.mp hc with h | h
      · exact absurd h hplus
      · exact h
    simp [hread hrest]
  · simp [hread hc]

theorem digit?_of_le {c : Char} (h : 128 ≤ c.toNat) : Decimal.digit? c = none := by
  cases hd : Decimal.digit? c with
  | none => rfl
  | some d =>
    simp only [Decimal.digit?, Option.ite_none_right_eq_some] at hd
    have hhigh : c.toNat ≤ 57 := hd.1.2
    omega

theorem unsigned?_of_le {bits : Nat} {cs : List Char} {c : Char} (hc : c ∈ cs)
    (h : 128 ≤ c.toNat) : Decimal.unsigned? bits cs = none := by
  refine unsigned?_eq_none hc (digit?_of_le h) ?_
  rintro rfl
  exact absurd h (by decide)

/-- A byte string is read as the text that it is the form of; there is none for some. -/
theorem decode_eq_bind_text? (raw : Bytes) :
    decode raw = (Bytes.text? raw).bind fun s => Decimal.unsigned? 64 s.toList := by
  have hdecode : decode raw = Decimal.unsigned? 64 (raw.map byteChar) := rfl
  by_cases hascii : ∀ b ∈ raw, b.toNat < 128
  · have hbytes : ∀ b ∈ raw, String.utf8EncodeChar (byteChar b) = [b] := by
      intro b hb
      rw [Bytes.utf8EncodeChar_of_lt (toNat_byteChar b ▸ hascii b hb), toNat_byteChar]
      simp
    have htext : raw = Bytes.ofText (String.ofList (raw.map byteChar)) := by
      rw [Bytes.ofText_ofList, List.flatMap_map, List.flatMap_congr hbytes, List.flatMap_singleton']
    have hread : Bytes.text? raw = some (String.ofList (raw.map byteChar)) := by
      rw [htext, Bytes.text?_ofText, ← htext]
    rw [hread, Option.bind_some, String.toList_ofList, hdecode]
  · obtain ⟨b, hb, hlarge⟩ : ∃ b ∈ raw, 128 ≤ b.toNat := by simpa using hascii
    rw [hdecode, unsigned?_of_le (List.mem_map_of_mem hb) (by rw [toNat_byteChar]; exact hlarge)]
    cases htext : Bytes.text? raw with
    | none => rfl
    | some s =>
      -- a text that is not all ASCII has a character that is in no number
      have hchar : ∃ c ∈ s.toList, 128 ≤ c.toNat := by
        by_contra hnone
        rw [Bytes.eq_ofText htext, ← String.ofList_toList (s := s), Bytes.ofText_ofList] at hb
        obtain ⟨c, hc, hmem⟩ := List.mem_flatMap.mp hb
        have hlt : c.toNat < 128 := Nat.lt_of_not_le fun hle => hnone ⟨c, hc, hle⟩
        rw [Bytes.utf8EncodeChar_of_lt hlt, List.mem_singleton] at hmem
        have hsmall : c.toNat.toUInt8.toNat ≤ c.toNat := by
          rw [Nat.toUInt8_eq, UInt8.toNat_ofNat']
          exact Nat.mod_le _ _
        rw [hmem] at hlarge
        omega
      obtain ⟨c, hc, hle⟩ := hchar
      exact (unsigned?_of_le hc hle).symm

/-! ## The documented form -/

/-- Whether a byte string is read as the documented form says: a watermark of that form is what is
read, and restored, and everything else is none and restores as 0. -/
structure ReadsAsDocumented (raw : Bytes) : Prop where
  decodes : ∀ n, decode raw = some n ↔ IsDocumented raw n
  restores : ∀ (store : Checkpoint.Store) (key : String), store.get? key = some raw → ∀ n,
    store.restore key = n ↔ IsDocumented raw n ∨ n = 0 ∧ ∀ m, ¬ IsDocumented raw m

theorem restore_of_get? {store : Checkpoint.Store} {key : String} {raw : Bytes}
    (h : store.get? key = some raw) : store.restore key = (decode raw).getD 0 := by
  rw [Checkpoint.Store.restore, h]
  rfl

/-- Every byte string is read as the documented form says, but for the watermarks of that form that
stand behind a plus sign: they are read as if it was not there. -/
theorem reads_as_documented_iff (raw : Bytes) :
    (∀ n, decode raw = some n ↔
      IsDocumented raw n ∨ ∃ row, raw = plus :: row ∧ IsDocumented row n) ∧
    (ReadsAsDocumented raw ↔ ¬ ∃ row n, raw = plus :: row ∧ IsDocumented row n) := by
  refine ⟨fun n => decode_eq_some_iff, fun h => ?_, fun hplus => ?_⟩
  · rintro ⟨row, n, rfl, hrow⟩
    exact IsDocumented.head_ne_plus
      ((h.decodes n).mp (decode_eq_some_iff.mpr (Or.inr ⟨row, rfl, hrow⟩)))
  · have hdecodes : ∀ n, decode raw = some n ↔ IsDocumented raw n := by
      intro n
      rw [decode_eq_some_iff]
      exact or_iff_left fun ⟨row, heq, hrow⟩ => hplus ⟨row, n, heq, hrow⟩
    refine ⟨hdecodes, fun store key hget n => ?_⟩
    rw [restore_of_get? hget]
    cases hd : decode raw with
    | none =>
      have hnone : ∀ m, ¬ IsDocumented raw m := by
        intro m hm
        rw [← hdecodes m, hd] at hm
        cases hm
      simp [hnone, eq_comm]
    | some m =>
      have hm : IsDocumented raw m := (hdecodes m).mp hd
      have hsame : IsDocumented raw n ↔ m = n := by
        rw [← hdecodes n, hd, Option.some.injEq]
      rw [hsame, Option.getD_some]
      exact (or_iff_left fun h => h.2 m hm).symm

/-- The signed text `+5`, which is no numeral, is read as 5 and not as none. -/
theorem not_readsAsDocumented_of_plus :
    decode (Bytes.ofAscii ['+', '5']) = some 5 ∧
      ¬ ReadsAsDocumented (Bytes.ofAscii ['+', '5']) := by
  have hfive : IsDocumented (Bytes.ofAscii ['5']) 5 :=
    ⟨Numeral.digit (show 5 < 10 by decide), by decide⟩
  obtain ⟨hreads, hform⟩ := reads_as_documented_iff (Bytes.ofAscii ['+', '5'])
  exact ⟨(hreads 5).mpr (Or.inr ⟨Bytes.ofAscii ['5'], rfl, hfive⟩), fun h =>
    hform.mp h ⟨Bytes.ofAscii ['5'], 5, rfl, hfive⟩⟩

end Watermark

end ChangeFeed
