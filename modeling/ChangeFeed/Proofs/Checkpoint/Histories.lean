import ChangeFeed.Checkpoint.Backing
import ChangeFeed.Proofs.Checkpoint.Codec

/-!
# Checkpoints read back what was written last

Whatever is done with a store of checkpoints, a key restores as what was written to it last: the
watermark that was persisted, or what other bytes say. A key that was never written restores as 0. A
read that fails is an error and never a number.

* `Backing.writes` are the writes of some uses that succeeded, and `lastWritten` is the last one of a
  key.
* `contents_next` says what one use makes of the contents of a store, `contents_after` what any
  number of uses make of them.
* `checkpoints_read_back` collects what holds after all uses of a store that began empty.
-/

namespace ChangeFeed

/-! ## Decoding -/

/-- Digits that stand for no word are not decoded. -/
theorem Watermark.decode_of_size_le {cs : List Char} (hdigits : ∀ c ∈ cs, c.isDigit = true)
    (h : UInt64.size ≤ Nat.ofDigitChars 10 cs 0) : decode (Bytes.ofAscii cs) = none := by
  have hascii : ∀ c ∈ cs, c.toNat < 128 := fun c hc =>
    Nat.lt_of_le_of_lt (Decimal.toNat_of_isDigit (hdigits c hc)).2 (by decide)
  have hread := Decimal.naturalFrom?_of_isDigit hdigits 0
  rw [decode, Bytes.chars_ofAscii hascii]
  cases cs with
  | nil => rfl
  | cons c rest =>
    have hplus : c ≠ '+' := by
      rintro rfl
      exact absurd (hdigits '+' List.mem_cons_self) (by decide)
    simpa [Decimal.unsigned?, Decimal.natural?, hplus, hread] using h

namespace Checkpoint

/-! ## Writes -/

/-- What was written to a key. -/
inductive Written where
  | watermark (w : UInt64)
  | raw (value : Bytes)

namespace Written

def value : Written → Bytes
  | .watermark w => Watermark.encode w.toNat
  | .raw value => value

/-- What a key restores as after a write: the watermark, or the one that the bytes stand for. -/
def restored : Written → Nat
  | .watermark w => w.toNat
  | .raw value => (Watermark.decode value).getD 0

theorem watermarkOf_value (w : Written) : Store.watermarkOf (some w.value) = w.restored := by
  cases w with
  | watermark w => simp [Store.watermarkOf, value, restored, Watermark.decode_encode w.toNat_lt]
  | raw value => rfl

end Written

/-- The last write to a key. -/
def lastWritten (key : String) (writes : List (String × Written)) : Option Written :=
  ((writes.filter (·.1 = key)).getLast?).map Prod.snd

theorem lastWritten_append (key : String) (writes more : List (String × Written)) :
    lastWritten key (writes ++ more) = (lastWritten key more).or (lastWritten key writes) := by
  simp only [lastWritten, List.filter_append, List.getLast?_append, Option.map_or]

/-- The key of a use that has one. -/
def Use.key? : Use → Option String
  | .persist key _ => some key
  | .restore key => some key
  | .put key _ => some key
  | .plant key _ => some key
  | .fail _ _ => none
  | .reopen => none

/-- Whether a use changes what fails. -/
def Use.isFail : Use → Bool
  | .fail _ _ => true
  | _ => false

/-- Whether reads fail after a use, if they failed before or not. -/
def Use.readsFail (now : Bool) : Use → Bool
  | .fail reads _ => reads.isSome
  | _ => now

/-- Whether writes fail after a use, if they failed before or not. -/
def Use.writesFail (now : Bool) : Use → Bool
  | .fail _ writes => writes.isSome
  | _ => now

namespace Backing

variable {b : Backing} {key : String}

/-- The write of a use, if it succeeds. -/
def wrote? (b : Backing) : Use → Option (String × Written)
  | .persist key watermark =>
    if (b.persist key watermark).1.isOk then some (key, .watermark watermark) else none
  | .put key value => if (b.put key value).1.isOk then some (key, .raw value) else none
  | .plant key value => some (key, .raw value)
  | _ => none

/-- The writes of some uses that succeed. -/
def writes (b : Backing) : List Use → List (String × Written)
  | [] => []
  | use :: rest => (b.wrote? use).toList ++ (b.next use).writes rest

/-! ## One use -/

/-- The values that a store holds. -/
def contents : Backing → Store
  | .memory s => s.store
  | .disk s _ _ => s.live

/-- Why a read of a key fails, if it does. -/
def readFault? : Backing → String → Option Error
  | .memory s, key => if s.readsFail then some (.checkpoint key "store unreachable") else none
  | .disk _ readFault _, _ => readFault.map .embedded

/-- Whether writes fail. -/
def refuses : Backing → Bool
  | .memory s => s.writesFail
  | .disk _ _ writeFault => writeFault.isSome

/-- Whether everything that a store holds is on its disk. -/
def IsFlushed : Backing → Prop
  | .memory _ => True
  | .disk s _ _ => s.disk = s.live

theorem get_eq (b : Backing) (key : String) :
    b.get key = match b.readFault? key with
      | some e => .error e
      | none => .ok (b.contents.get? key) := by
  cases b with
  | memory s =>
    simp only [get, Flaky.get, readFault?, contents]
    split <;> rfl
  | disk s readFault writeFault => cases readFault <;> rfl

theorem put_of_refuses (h : b.refuses = true) (key : String) (value : Bytes) :
    (b.put key value).1.isOk = false ∧ (b.put key value).2 = b := by
  cases b with
  | memory s =>
    have hfail : s.writesFail = true := h
    simp [put, Flaky.put, hfail, Except.isOk, Except.toBool]
  | disk s readFault writeFault =>
    cases writeFault with
    | none => cases h
    | some fault => exact ⟨rfl, rfl⟩

theorem put_of_not_refuses (h : b.refuses = false) (key : String) (value : Bytes) :
    (b.put key value).1.isOk = true ∧ (b.put key value).2 = b.plant key value := by
  cases b with
  | memory s =>
    have hfail : s.writesFail = false := h
    simp [put, plant, Flaky.put, hfail, Except.isOk, Except.toBool]
  | disk s readFault writeFault =>
    cases writeFault with
    | none => exact ⟨rfl, rfl⟩
    | some fault => cases h

theorem contents_plant (b : Backing) (key : String) (value : Bytes) :
    (b.plant key value).contents = b.contents.put key value := by
  cases b <;> rfl

theorem isOk_put (b : Backing) (key : String) (value : Bytes) :
    (b.put key value).1.isOk = !b.refuses := by
  cases hr : b.refuses with
  | true => exact (put_of_refuses hr key value).1
  | false => exact (put_of_not_refuses hr key value).1

theorem contents_put (b : Backing) (key : String) (value : Bytes) :
    (b.put key value).2.contents =
      if (b.put key value).1.isOk then b.contents.put key value else b.contents := by
  cases hr : b.refuses with
  | true =>
    obtain ⟨hok, hsame⟩ := put_of_refuses hr key value
    rw [hok, hsame, if_neg Bool.false_ne_true]
  | false =>
    obtain ⟨hok, hplant⟩ := put_of_not_refuses hr key value
    rw [hok, hplant, if_pos rfl, contents_plant]

/-- A use leaves the contents of a store, apart from its write. -/
theorem contents_next (h : b.IsFlushed) (use : Use) :
    (b.next use).contents = match b.wrote? use with
      | some write => b.contents.put write.1 write.2.value
      | none => b.contents := by
  cases use with
  | persist key watermark =>
    have hput := b.contents_put key (Watermark.encode watermark.toNat)
    simp only [next, wrote?, persist]
    rw [hput]
    split <;> simp_all [Written.value]
  | put key value =>
    simp only [next, wrote?, contents_put]
    cases (b.put key value).1.isOk <;> rfl
  | plant key value => exact b.contents_plant key value
  | restore key => rfl
  | fail reads writes => cases b <;> rfl
  | reopen =>
    cases b with
    | memory s => rfl
    | disk s readFault writeFault => exact h

theorem IsFlushed.plant (h : b.IsFlushed) (key : String) (value : Bytes) :
    (b.plant key value).IsFlushed := by
  cases b with
  | memory s => trivial
  | disk s readFault writeFault => rfl

theorem IsFlushed.put (h : b.IsFlushed) (key : String) (value : Bytes) :
    (b.put key value).2.IsFlushed := by
  cases hr : b.refuses with
  | true =>
    rw [(put_of_refuses hr key value).2]
    exact h
  | false =>
    rw [(put_of_not_refuses hr key value).2]
    exact h.plant key value

theorem IsFlushed.next (h : b.IsFlushed) (use : Use) : (b.next use).IsFlushed := by
  cases use with
  | persist key watermark => exact h.put key _
  | put key value => exact h.put key value
  | plant key value => exact h.plant key value
  | restore key => exact h
  | fail reads writes => cases b <;> exact h
  | reopen =>
    cases b with
    | memory s => trivial
    | disk s readFault writeFault => rfl

theorem refuses_next (b : Backing) (use : Use) :
    (b.next use).refuses = use.writesFail b.refuses := by
  have hput (key : String) (value : Bytes) : (b.put key value).2.refuses = b.refuses := by
    cases hr : b.refuses with
    | true => rw [(put_of_refuses hr key value).2, hr]
    | false =>
      rw [(put_of_not_refuses hr key value).2, ← hr]
      cases b <;> rfl
  cases use with
  | persist key watermark => exact hput key _
  | put key value => exact hput key value
  | restore key => rfl
  | _ => cases b <;> rfl

/-- The reason why reads fail stays until failures come or go. -/
theorem readFault?_next {use : Use} (h : use.isFail = false) :
    (b.next use).readFault? key = b.readFault? key := by
  have hplant (k : String) (value : Bytes) :
      (b.plant k value).readFault? key = b.readFault? key := by cases b <;> rfl
  have hput (k : String) (value : Bytes) :
      (b.put k value).2.readFault? key = b.readFault? key := by
    cases hr : b.refuses with
    | true => rw [(put_of_refuses hr k value).2]
    | false => rw [(put_of_not_refuses hr k value).2, hplant]
  cases use with
  | persist k watermark => exact hput k _
  | put k value => exact hput k value
  | plant k value => exact hplant k value
  | restore k => rfl
  | reopen => cases b <;> rfl
  | fail reads writes => cases h

theorem isSome_readFault?_next (b : Backing) (use : Use) (key : String) :
    ((b.next use).readFault? key).isSome = use.readsFail (b.readFault? key).isSome := by
  cases use with
  | fail reads writes => cases b <;> cases reads <;> rfl
  | _ => exact congrArg Option.isSome (readFault?_next rfl)

theorem key?_of_wrote? {use : Use} {write : String × Written} (h : b.wrote? use = some write) :
    use.key? = some write.1 := by
  cases use with
  | persist key watermark =>
    obtain ⟨-, hwrite⟩ := Option.ite_none_right_eq_some.mp h
    exact congrArg (Option.map Prod.fst) hwrite
  | put key value =>
    obtain ⟨-, hwrite⟩ := Option.ite_none_right_eq_some.mp h
    exact congrArg (Option.map Prod.fst) hwrite
  | plant key value =>
    cases h
    rfl
  | _ => cases h

/-- A use of one key leaves what another one restores as. -/
theorem restore_next (h : b.IsFlushed) {use : Use} (hkey : use.key? ≠ some key)
    (hfail : use.isFail = false) : (b.next use).restore key = b.restore key := by
  have hcontents : (b.next use).contents.get? key = b.contents.get? key := by
    rw [contents_next h]
    cases hw : b.wrote? use with
    | none => rfl
    | some write =>
      have hne : key ≠ write.1 := by
        rintro rfl
        exact hkey (key?_of_wrote? hw)
      exact Store.get?_put_of_ne hne _ _
  rw [restore, restore, get_eq, get_eq, readFault?_next hfail, hcontents]

/-! ## Any number of uses -/

theorem IsFlushed.after (h : b.IsFlushed) (uses : List Use) : (b.after uses).IsFlushed := by
  induction uses generalizing b with
  | nil => exact h
  | cons use rest ih => exact ih (h.next use)

theorem contents_after (h : b.IsFlushed) (uses : List Use) (key : String) :
    (b.after uses).contents.get? key =
      ((lastWritten key (b.writes uses)).map Written.value).or (b.contents.get? key) := by
  induction uses generalizing b with
  | nil => rfl
  | cons use rest ih =>
    have hone : (b.next use).contents.get? key =
        ((lastWritten key (b.wrote? use).toList).map Written.value).or (b.contents.get? key) := by
      rw [contents_next h]
      cases b.wrote? use with
      | none => rfl
      | some write =>
        obtain ⟨k, w⟩ := write
        by_cases hk : k = key
        · subst hk
          simp [lastWritten]
        · simp [lastWritten, hk, Store.get?_put_of_ne (Ne.symm hk)]
    calc (b.after (use :: rest)).contents.get? key
        = ((lastWritten key ((b.next use).writes rest)).map Written.value).or
            ((b.next use).contents.get? key) := ih (h.next use)
      _ = ((lastWritten key (b.writes (use :: rest))).map Written.value).or
            (b.contents.get? key) := by
          rw [hone, writes, lastWritten_append, Option.map_or, Option.or_assoc]

theorem refuses_after (b : Backing) (uses : List Use) :
    (b.after uses).refuses = uses.foldl Use.writesFail b.refuses := by
  induction uses generalizing b with
  | nil => rfl
  | cons use rest ih =>
    rw [List.foldl_cons, ← refuses_next]
    exact ih (b.next use)

theorem isSome_readFault?_after (b : Backing) (uses : List Use) (key : String) :
    ((b.after uses).readFault? key).isSome =
      uses.foldl Use.readsFail (b.readFault? key).isSome := by
  induction uses generalizing b with
  | nil => rfl
  | cons use rest ih =>
    rw [List.foldl_cons, ← isSome_readFault?_next]
    exact ih (b.next use)

/-- What holds of a store after some uses. -/
structure ReadsBack (b : Backing) (uses : List Use) : Prop where
  /-- A key restores as what was written last, and as 0 if nothing was. -/
  restores : uses.foldl Use.readsFail false = false → ∀ key, (b.after uses).restore key =
    .ok (((lastWritten key (b.writes uses)).map Written.restored).getD 0)
  /-- A read that fails is an error. -/
  fails : uses.foldl Use.readsFail false = true → ∀ key, ∃ e, (b.after uses).restore key = .error e
  /-- A write succeeds unless writes fail. -/
  persists : ∀ key watermark, ((b.after uses).persist key watermark).1.isOk =
    !uses.foldl Use.writesFail false
  /-- A write that fails changes nothing. -/
  unchanged : ∀ key value, ((b.after uses).put key value).1.isOk = false →
    ((b.after uses).put key value).2 = b.after uses
  /-- A use of one key leaves the others. -/
  others : ∀ use key, use.key? ≠ some key → use.isFail = false →
    ((b.after uses).next use).restore key = (b.after uses).restore key

theorem readsBack_fresh (medium : Medium) (uses : List Use) : (fresh medium).ReadsBack uses := by
  have hflushed : (fresh medium).IsFlushed := by
    cases medium with
    | memory => trivial
    | disk => rfl
  have hreads (key : String) : (((fresh medium).after uses).readFault? key).isSome =
      uses.foldl Use.readsFail false := by
    rw [isSome_readFault?_after]
    cases medium <;> rfl
  have hwrites : ((fresh medium).after uses).refuses = uses.foldl Use.writesFail false := by
    rw [refuses_after]
    cases medium <;> rfl
  have hget (key : String) : ((fresh medium).after uses).contents.get? key =
      (lastWritten key ((fresh medium).writes uses)).map Written.value := by
    have hempty : (fresh medium).contents.get? key = none := by cases medium <;> rfl
    rw [contents_after hflushed, hempty, Option.or_none]
  constructor
  case restores =>
    intro hno key
    have hnone : ((fresh medium).after uses).readFault? key = none :=
      Option.isSome_eq_false_iff.mp ((hreads key).trans hno) |> Option.isNone_iff_eq_none.mp
    rw [restore, get_eq, hnone, hget]
    cases lastWritten key ((fresh medium).writes uses) with
    | none => rfl
    | some w => exact congrArg Except.ok w.watermarkOf_value
  case fails =>
    intro hyes key
    obtain ⟨e, he⟩ := Option.isSome_iff_exists.mp ((hreads key).trans hyes)
    refine ⟨e, ?_⟩
    rw [restore, get_eq, he]
    rfl
  case persists =>
    intro key watermark
    rw [persist, isOk_put, hwrites]
  case unchanged =>
    intro key value hfail
    rw [isOk_put] at hfail
    exact (put_of_refuses (by simpa using hfail) key value).2
  case others =>
    intro use key hkey hfail
    exact restore_next (hflushed.after uses) hkey hfail

/-- Checkpoints read back what was written, and their text reads back the watermark or nothing. -/
theorem checkpoints_read_back (medium : Medium) (uses : List Use) :
    (fresh medium).ReadsBack uses ∧
      (∀ n < Nat.pow 2 64, Watermark.decode (Watermark.encode n) = some n) ∧
      ∀ cs : List Char, (∀ c ∈ cs, c.isDigit = true) → Nat.pow 2 64 ≤ Nat.ofDigitChars 10 cs 0 →
        Watermark.decode (Bytes.ofAscii cs) = none :=
  ⟨readsBack_fresh medium uses, fun _ h => Watermark.decode_encode h,
    fun _ hdigits h => Watermark.decode_of_size_le hdigits h⟩

/-- A write that failed is not read back, before or after the store was opened again. -/
example : ((fresh .disk).after
    [.persist "a" 5, .fail none (some "full"), .persist "a" 9, .reopen]).restore "a" = .ok 5 := rfl

end Backing

end Checkpoint

end ChangeFeed
