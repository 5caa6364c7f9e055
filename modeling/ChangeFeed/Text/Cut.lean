/-!
# Cuts at byte positions

Positions in a text that count the bytes of its UTF-8 form. A position inside of a character is no
place to cut at.

* `between?` gives what stands between two positions; `between?_size` says that each part of a text
  is found at its place.
-/

namespace ChangeFeed.Text

/-- The number of bytes of a text. -/
def size : List Char → Nat
  | [] => 0
  | c :: cs => c.utf8Size + size cs

@[simp] theorem size_append (cs ds : List Char) : size (cs ++ ds) = size cs + size ds := by
  induction cs with
  | nil => simp [size]
  | cons c cs ih => simp [size, ih, Nat.add_assoc]

/-- What stands before a position and what stands behind it. -/
def splitAt? : Nat → List Char → Option (List Char × List Char)
  | 0, cs => some ([], cs)
  | _ + 1, [] => none
  | n + 1, c :: cs =>
    if c.utf8Size ≤ n + 1 then
      (splitAt? (n + 1 - c.utf8Size) cs).map fun (before, after) => (c :: before, after)
    else none

/-- The position behind a text is a place to cut at. -/
theorem splitAt?_size (cs ds : List Char) : splitAt? (size cs) (cs ++ ds) = some (cs, ds) := by
  induction cs with
  | nil => simp [size, splitAt?]
  | cons c cs ih =>
    have := c.utf8Size_pos
    obtain ⟨n, hn⟩ : ∃ n, size (c :: cs) = n + 1 := ⟨size (c :: cs) - 1, by simp [size]; omega⟩
    have hle : c.utf8Size ≤ n + 1 := by simp [size] at hn; omega
    have hrest : n + 1 - c.utf8Size = size cs := by simp [size] at hn; omega
    rw [hn, List.cons_append, splitAt?, if_pos hle, hrest, ih]
    rfl

def between? (start stop : Nat) (cs : List Char) : Option (List Char) := do
  let (before, _) ← splitAt? stop cs
  let (_, found) ← splitAt? start before
  pure found

/-- A part of a text is what stands between its ends. -/
theorem between?_size (cs ds es : List Char) :
    between? (size cs) (size cs + size ds) (cs ++ ds ++ es) = some ds := by
  rw [between?, ← size_append, splitAt?_size]
  simp [splitAt?_size]

end ChangeFeed.Text
