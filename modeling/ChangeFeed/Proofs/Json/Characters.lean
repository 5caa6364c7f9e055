import ChangeFeed.Json.Printer
import ChangeFeed.Proofs.Decimal.Digits

/-!
# Compact text has no control characters

The compact text of a document is one line: line feeds in its texts are escaped, and nothing else
that is written holds one.

* `le_toNat_of_mem_characters`: all characters are at least blanks.
* `lineFeed_notMem_payload`: so it is with the bytes.
-/

namespace ChangeFeed

/-- A byte of a control character stands for that character. -/
theorem Bytes.exists_of_mem_ofText {cs : List Char} {b : UInt8}
    (h : b ∈ Bytes.ofText (String.ofList cs)) (hb : b.toNat < 32) : ∃ c ∈ cs, c.toNat < 32 := by
  rw [ofText_ofList] at h
  obtain ⟨c, hc, hmem⟩ := List.mem_flatMap.mp h
  refine ⟨c, hc, ?_⟩
  -- the bytes of longer characters are all at least 128
  simp only [String.utf8EncodeChar] at hmem
  split at hmem
  · rename_i hascii
    rw [List.mem_singleton.mp hmem, UInt8.toNat_ofNat'] at hb
    have heq : c.toNat = c.val.toNat := rfl
    omega
  · split at hmem
    · simp only [List.mem_cons, List.not_mem_nil, or_false] at hmem
      rcases hmem with rfl | rfl <;> rw [UInt8.toNat_ofNat'] at hb <;> omega
    · split at hmem
      · simp only [List.mem_cons, List.not_mem_nil, or_false] at hmem
        rcases hmem with rfl | rfl | rfl <;> rw [UInt8.toNat_ofNat'] at hb <;> omega
      · simp only [List.mem_cons, List.not_mem_nil, or_false] at hmem
        rcases hmem with rfl | rfl | rfl | rfl <;> rw [UInt8.toNat_ofNat'] at hb <;> omega

/-- Whether all characters are at least blanks. -/
def IsPrinted (cs : List Char) : Prop := ∀ c ∈ cs, 32 ≤ c.toNat

instance : DecidablePred IsPrinted := fun cs =>
  decidable_of_iff (cs.all (32 ≤ ·.toNat)) (by simp [IsPrinted])

namespace IsPrinted

variable {cs ds : List Char}

theorem nil : IsPrinted [] := nofun

theorem ite {p : Prop} [Decidable p] (hcs : IsPrinted cs) (hds : IsPrinted ds) :
    IsPrinted (if p then cs else ds) := by
  split
  · exact hcs
  · exact hds

theorem append (hcs : IsPrinted cs) (hds : IsPrinted ds) : IsPrinted (cs ++ ds) :=
  List.forall_mem_append.mpr ⟨hcs, hds⟩

theorem cons {c : Char} (hc : 32 ≤ c.toNat) (hcs : IsPrinted cs) : IsPrinted (c :: cs) :=
  List.forall_mem_cons.mpr ⟨hc, hcs⟩

theorem replicate {c : Char} (n : Nat) (hc : 32 ≤ c.toNat) : IsPrinted (List.replicate n c) :=
  fun _ hd => List.eq_of_mem_replicate hd ▸ hc

theorem digits (n : Nat) : IsPrinted (Decimal.digits n) := fun _ hc =>
  Nat.le_trans (by decide) (Decimal.toNat_of_isDigit (Decimal.isDigit_of_mem_digits hc)).1

end IsPrinted

/-! ## Numbers -/

namespace Decimal.Style

variable {ds : List Char}

theorem isPrinted_plainText (style : Style) (h : IsPrinted ds) (position : Int) :
    IsPrinted (style.plainText ds position) := by
  refine .ite ?_ (.ite ?_ ?_)
  · exact .cons (by decide) (.cons (by decide) (.append (.replicate _ (by decide)) h))
  · exact .append (.append h (.replicate _ (by decide))) (.ite (by decide) .nil)
  · refine .append (fun c hc => h c (List.mem_of_mem_take hc)) (.cons (by decide) ?_)
    exact fun c hc => h c (List.mem_of_mem_drop hc)

theorem isPrinted_exponentText (h : IsPrinted ds) (position : Int) :
    IsPrinted (exponentText ds position) := by
  have hsign : 32 ≤ (if position - 1 < 0 then '-' else '+').toNat := by split <;> decide
  have hpower : IsPrinted ('e' :: (if position - 1 < 0 then '-' else '+') ::
      Decimal.digits (position - 1).natAbs) := .cons (by decide) (.cons hsign (.digits _))
  unfold exponentText
  cases ds with
  | nil => exact hpower
  | cons d rest =>
    obtain ⟨hd, hrest⟩ := List.forall_mem_cons.mp h
    cases rest with
    | nil => exact .append h hpower
    | cons e more => exact .append (.cons hd (.cons (by decide) hrest)) hpower

theorem isPrinted_magnitude (style : Style) (x : Float) : IsPrinted (style.magnitude x) := by
  have hplain (n : Nat) (position : Int) :
      IsPrinted (style.plainText (Decimal.digits n) position) :=
    style.isPrinted_plainText (.digits n) position
  refine .ite (.cons (by decide) (.ite (by decide) .nil)) ?_
  cases style.plain with
  | none => exact hplain _ _
  | some range => exact .ite (hplain _ _) (isPrinted_exponentText (.digits _) _)

theorem isPrinted_render (style : Style) (x : Float) : IsPrinted (style.render x).toList := by
  have hsign : IsPrinted (if Binary64.isNegative x then ['-'] else []) := .ite (by decide) .nil
  unfold render
  by_cases hnan : x.isNaN
  · rw [if_pos hnan]
    decide
  · rw [if_neg hnan]
    by_cases hinf : x.isInf
    · simp only [hinf, if_true, String.toList_ofList]
      exact hsign.append (by decide)
    · simp only [hinf, Bool.false_eq_true, if_false, String.toList_ofList]
      exact hsign.append (style.isPrinted_magnitude x)

end Decimal.Style

namespace Json

theorem Number.isPrinted_characters (n : Number) : IsPrinted n.characters := by
  cases n with
  | natural n => exact .digits n
  | negative n => exact .cons (by decide) (.digits _)
  | float x =>
    exact .ite (by decide) (floatStyle.isPrinted_render x)

/-! ## Texts -/

theorem isPrinted_escapeChar (c : Char) : IsPrinted (escapeChar c) := by
  have hpadded : ∀ n < 32, IsPrinted (Text.Hex.padded 4 n) := by decide
  unfold escapeChar
  refine .ite (by decide) (.ite (by decide) (.ite (by decide) (.ite (by decide) (.ite (by decide)
    (.ite (by decide) (.ite (by decide) ?_))))))
  by_cases hlt : c.toNat < 32
  · rw [if_pos hlt]
    exact .cons (by decide) (.cons (by decide) (hpadded _ hlt))
  · rw [if_neg hlt]
    exact .cons (Nat.not_lt.mp hlt) .nil

theorem isPrinted_quote (s : String) : IsPrinted (quote s) := by
  refine .cons (by decide) (.append ?_ (.cons (by decide) .nil))
  intro c hc
  obtain ⟨d, -, hd⟩ := List.mem_flatMap.mp hc
  exact isPrinted_escapeChar d c hd

/-! ## Documents -/

mutual

theorem isPrinted_characters (document : Json) : IsPrinted document.characters := by
  cases document with
  | null => decide
  | bool b => cases b <;> decide
  | number n => exact n.isPrinted_characters
  | string s => exact isPrinted_quote s
  | array xs => exact .cons (by decide) (isPrinted_items xs)
  | object fs => exact .cons (by decide) (isPrinted_fields fs)

theorem isPrinted_items (xs : List Json) : IsPrinted (characters.items xs) := by
  match xs with
  | [] => exact .cons (by decide) .nil
  | [x] => exact (isPrinted_characters x).append (.cons (by decide) .nil)
  | x :: y :: rest =>
    exact (isPrinted_characters x).append (.cons (by decide) (isPrinted_items (y :: rest)))

theorem isPrinted_fields (fs : List (String × Json)) : IsPrinted (characters.fields fs) := by
  match fs with
  | [] => exact .cons (by decide) .nil
  | [(key, x)] =>
    have hvalue : IsPrinted (x.characters ++ ['\x7d']) :=
      (isPrinted_characters x).append (.cons (by decide) .nil)
    exact (isPrinted_quote key).append (.cons (by decide) hvalue)
  | (key, x) :: g :: rest =>
    have hvalue := (isPrinted_characters x).append (.cons (c := ',') (by decide)
      (isPrinted_fields (g :: rest)))
    exact (isPrinted_quote key).append (.cons (by decide) hvalue)

end

/-- The bytes of a compact text hold no line feed. -/
theorem lineFeed_notMem_payload (document : Json) : 0x0a ∉ document.payload := by
  intro h
  obtain ⟨c, hc, hlt⟩ := Bytes.exists_of_mem_ofText h (by decide)
  exact absurd (document.isPrinted_characters c hc) (by omega)

end Json

end ChangeFeed
