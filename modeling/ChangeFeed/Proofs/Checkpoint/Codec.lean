import ChangeFeed.Checkpoint.Store
import ChangeFeed.Proofs.Decimal.Digits

/-!
# Watermarks are read back

A watermark that is a word of 64 bits is read back from the text that was written for it, so a
checkpoint restores as what was persisted last.
-/

namespace ChangeFeed

/-- The bytes of a text of ASCII characters hold its characters. -/
theorem Bytes.chars_ofAscii {cs : List Char} (h : ∀ c ∈ cs, c.toNat < 128) :
    (Bytes.ofAscii cs).map (fun b => Char.ofNat b.toNat) = cs := by
  have hid : ∀ c ∈ cs, Char.ofNat c.toNat.toUInt8.toNat = id c := by
    intro c hc
    have hlt := h c hc
    have hmod : c.toNat.toUInt8.toNat = c.toNat := by
      rw [Nat.toUInt8_eq, UInt8.toNat_ofNat']
      exact Nat.mod_eq_of_lt (Nat.lt_trans hlt (by decide))
    rw [hmod, Char.ofNat_toNat]
    rfl
  rw [Bytes.ofAscii, List.map_map]
  exact (List.map_congr_left hid).trans (List.map_id cs)

namespace Watermark

theorem decode_encode {watermark : Nat} (h : watermark < UInt64.size) :
    decode (encode watermark) = some watermark := by
  have hascii : ∀ c ∈ Decimal.digits watermark, c.toNat < 128 := fun c hc =>
    Nat.lt_of_le_of_lt (Decimal.toNat_of_isDigit (Decimal.isDigit_of_mem_digits hc)).2 (by decide)
  rw [decode, encode, Bytes.chars_ofAscii hascii]
  exact Decimal.unsigned?_digits h

/-- Only words are read. -/
theorem lt_of_decode {raw : Bytes} {watermark : Nat} (h : decode raw = some watermark) :
    watermark < UInt64.size := by
  simp only [decode, Decimal.unsigned?, Option.filter_eq_some_iff, decide_eq_true_eq] at h
  exact h.2

end Watermark

namespace Checkpoint

namespace Store

theorem restore_persist {key : String} {watermark : Nat} (store : Store)
    (h : watermark < UInt64.size) : (store.persist key watermark).restore key = watermark := by
  simp [restore, persist, watermarkOf, Watermark.decode_encode h]

theorem restore_put_of_ne {key other : String} (h : other ≠ key) (store : Store) (value : Bytes) :
    (store.put key value).restore other = store.restore other := by
  simp only [restore, get?_put_of_ne h]

/-- A checkpoint never restores as more than a word. -/
theorem restore_lt (store : Store) (key : String) : store.restore key < UInt64.size := by
  unfold restore watermarkOf
  cases hd : (store.get? key).bind Watermark.decode with
  | none => decide
  | some watermark =>
    obtain ⟨raw, -, hraw⟩ := Option.bind_eq_some_iff.mp hd
    exact Watermark.lt_of_decode hraw

end Store

namespace Flaky

variable {s : Flaky} {key : String} {watermark : Nat}

theorem restore_eq_ok (h : s.restore key = .ok watermark) : s.store.restore key = watermark := by
  unfold restore get at h
  split at h
  · cases h
  · cases h
    rfl

theorem persist_of_succeeds (h : s.writesFail = false) (key : String) (watermark : Nat) :
    (s.persist key watermark).2.store = s.store.persist key watermark := by
  simp [persist, put, h, Store.persist]

theorem persist_of_fails (h : s.writesFail = true) (key : String) (watermark : Nat) :
    (s.persist key watermark).2 = s := by
  simp [persist, put, h]

end Flaky

end Checkpoint

end ChangeFeed
