import ChangeFeed.Net.Percent

/-!
# Percent encoding is read back

A text without percent signs is told by its encoding, whatever characters are encoded: decoding
gives its bytes. So two such texts with one encoding are one text.
-/

namespace ChangeFeed

namespace Text.Hex

theorem value?_capital {n : Nat} (h : n < 16) : value? (capital n) = some n := by
  have hall : ∀ n < 16, value? (capital n) = some n := by decide
  exact hall n h

theorem capital_mem {n : Nat} (h : n < 16) : capital n ∈ "0123456789ABCDEF".toList := by
  have hall : ∀ n < 16, capital n ∈ "0123456789ABCDEF".toList := by decide
  exact hall n h

end Text.Hex

namespace Net.Percent

variable {reserved : List Char} {cs ds : List Char} {c : Char}

theorem decode_triple_append (b : UInt8) (cs : List Char) :
    decode (triple b ++ cs) = b :: decode cs := by
  have hlt : b.toNat < 256 := b.toNat_lt
  have hhigh := Text.Hex.value?_capital (show b.toNat / 16 < 16 by omega)
  have hlow := Text.Hex.value?_capital (show b.toNat % 16 < 16 by omega)
  have hvalue : (16 * (b.toNat / 16) + b.toNat % 16).toUInt8 = b := by
    rw [Nat.div_add_mod]
    exact UInt8.ofNat_toNat
  simp only [triple, List.cons_append, List.nil_append, decode, hhigh, hlow, hvalue]

theorem decode_flatMap_triple_append (bytes : Bytes) (cs : List Char) :
    decode (bytes.flatMap triple ++ cs) = bytes ++ decode cs := by
  induction bytes with
  | nil => rfl
  | cons b bytes ih =>
    rw [List.flatMap_cons, List.append_assoc, decode_triple_append, ih, List.cons_append]

theorem decode_cons_of_ne (h : c ≠ '%') (cs : List Char) :
    decode (c :: cs) = Bytes.ofText (String.singleton c) ++ decode cs := by
  rw [decode]
  rintro high low rest rfl
  exact absurd rfl h

theorem encode_cons (c : Char) (cs : List Char) :
    encode reserved (c :: cs) = encode reserved [c] ++ encode reserved cs := by
  simp [encode]

theorem encode_append (cs ds : List Char) :
    encode reserved (cs ++ ds) = encode reserved cs ++ encode reserved ds :=
  List.flatMap_append

/-- Decoding gives the bytes of a text without percent signs. -/
theorem decode_encode (h : '%' ∉ cs) :
    decode (encode reserved cs) = Bytes.ofText (String.ofList cs) := by
  induction cs with
  | nil => rfl
  | cons c cs ih =>
    have hc : c ≠ '%' := fun heq => h (heq ▸ List.mem_cons_self)
    have hcs : '%' ∉ cs := fun hmem => h (List.mem_cons_of_mem c hmem)
    have hbytes : Bytes.ofText (String.ofList (c :: cs)) =
        Bytes.ofText (String.singleton c) ++ Bytes.ofText (String.ofList cs) := by
      have hone : String.singleton c = String.ofList [c] := by simp
      rw [hone, ← Bytes.ofText_append, ← String.ofList_append, List.singleton_append]
    rw [encode_cons, hbytes, ← ih hcs]
    by_cases hout : (isOutside c || reserved.contains c) = true
    · have hone : encode reserved [c] = (Bytes.ofText (String.singleton c)).flatMap triple := by
        simp only [encode, List.flatMap_cons, List.flatMap_nil, List.append_nil]
        exact if_pos hout
      rw [hone, decode_flatMap_triple_append]
    · have hone : encode reserved [c] = [c] := by
        simp only [encode, List.flatMap_cons, List.flatMap_nil, List.append_nil]
        exact if_neg hout
      rw [hone, List.singleton_append, decode_cons_of_ne hc]

theorem encode_inj (hcs : '%' ∉ cs) (hds : '%' ∉ ds)
    (h : encode reserved cs = encode reserved ds) : cs = ds := by
  have hbytes : Bytes.ofText (String.ofList cs) = Bytes.ofText (String.ofList ds) := by
    rw [← decode_encode hcs, h, decode_encode hds]
  have htext : String.ofList cs = String.ofList ds := by
    have hread := congrArg Bytes.text? hbytes
    rw [Bytes.text?_ofText, Bytes.text?_ofText] at hread
    exact Option.some.inj hread
  simpa using congrArg String.toList htext

theorem map_encode_inj {texts others : List (List Char)} (htexts : ∀ s ∈ texts, '%' ∉ s)
    (hothers : ∀ s ∈ others, '%' ∉ s)
    (h : texts.map (encode reserved) = others.map (encode reserved)) : texts = others := by
  induction texts generalizing others with
  | nil => exact (List.map_eq_nil_iff.mp h.symm).symm
  | cons s texts ih =>
    cases others with
    | nil => cases h
    | cons o others =>
      obtain ⟨hhead, hrest⟩ := List.cons.inj h
      rw [encode_inj (htexts s List.mem_cons_self) (hothers o List.mem_cons_self) hhead,
        ih (fun s hs => htexts s (List.mem_cons_of_mem _ hs))
          (fun s hs => hothers s (List.mem_cons_of_mem _ hs)) hrest]

/-- The characters of an encoding: those of the text that stand for themselves, the percent sign and
capital digits. -/
theorem mem_encode (h : c ∈ encode reserved cs) :
    (c ∈ cs ∧ reserved.contains c = false) ∨ c = '%' ∨ c ∈ "0123456789ABCDEF".toList := by
  obtain ⟨d, hd, hc⟩ := List.mem_flatMap.mp h
  split at hc
  · obtain ⟨b, -, hb⟩ := List.mem_flatMap.mp hc
    have hlt : b.toNat < 256 := b.toNat_lt
    simp only [triple, List.mem_cons, List.not_mem_nil, or_false] at hb
    rcases hb with rfl | rfl | rfl
    · exact Or.inr (Or.inl rfl)
    · exact Or.inr (Or.inr (Text.Hex.capital_mem (by omega)))
    · exact Or.inr (Or.inr (Text.Hex.capital_mem (by omega)))
  · rename_i hkept
    obtain rfl := List.mem_singleton.mp hc
    refine Or.inl ⟨hd, ?_⟩
    simp only [Bool.or_eq_true, not_or, Bool.not_eq_true] at hkept
    exact hkept.2

end Net.Percent

end ChangeFeed
