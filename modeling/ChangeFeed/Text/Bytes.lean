/-!
# Bytes of texts

Payloads and stored values are byte strings. `Bytes.ofText` gives the UTF-8 form of a text and
`Bytes.text?` reads it back; `text?_ofText` says that nothing is lost, and `eq_ofText` that a byte
string is the form of one text at most.
-/

namespace ChangeFeed

abbrev Bytes := List UInt8

namespace Bytes

/-- The UTF-8 form of a text. -/
def ofText (s : String) : Bytes := s.toUTF8.data.toList

/-- The text of a UTF-8 byte string. -/
def text? (bytes : Bytes) : Option String := String.fromUTF8? ⟨bytes.toArray⟩

/-- A text of ASCII characters as bytes. -/
def ofAscii (cs : List Char) : Bytes := cs.map fun c => c.toNat.toUInt8

theorem text?_ofText (s : String) : text? (ofText s) = some s := by
  have h : (⟨(s.toUTF8.data.toList).toArray⟩ : ByteArray) = s.toUTF8 := by simp
  unfold text? ofText
  rw [h]
  simp [String.fromUTF8?, String.fromUTF8]
  exact s.isValidUTF8

theorem eq_ofText {bytes : Bytes} {s : String} (h : text? bytes = some s) : bytes = ofText s := by
  unfold text? at h
  simp only [String.fromUTF8?, Option.dite_none_right_eq_some, Option.some.injEq] at h
  obtain ⟨hvalid, rfl⟩ := h
  simp [ofText, String.fromUTF8]

theorem ofText_append (s t : String) : ofText (s ++ t) = ofText s ++ ofText t := by
  simp [ofText]

/-- The bytes of a text are those of its characters. -/
theorem ofText_ofList (cs : List Char) :
    ofText (String.ofList cs) = cs.flatMap String.utf8EncodeChar := by
  simp [ofText, List.utf8Encode]

/-- An ASCII character is one byte. -/
theorem utf8EncodeChar_of_lt {c : Char} (h : c.toNat < 128) :
    String.utf8EncodeChar c = [c.toNat.toUInt8] := by
  have hsmall : c.val.toNat ≤ 0x7f := Nat.le_of_lt_succ h
  rw [String.utf8EncodeChar, if_pos hsmall]
  rfl

end Bytes

end ChangeFeed
