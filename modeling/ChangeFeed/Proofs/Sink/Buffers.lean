import Mathlib.Data.List.Induction
import ChangeFeed.Sink.Buffer

/-!
# What a buffer knows

A buffer is told of items one by one, and gives all of them away at once. It keeps two things beside
its bounds: the items, and when the oldest one came. Both are a matter of what happened since it was
last emptied, in every order of pushes and takes, also if items are pushed past the limit, if an
empty buffer is emptied, or if it is used again.

* `Buffer.Use` is what is done to a buffer at a time. `sinceTake` are the uses after the last take,
  said without a buffer.
* `Buffer.Remembers` is what every use preserves: `remembers_use`, and `remembers_after` for a whole
  run.
* `buffer_represents` puts together what follows of the limit, of the deadline and of the items that
  are given away.
-/

namespace ChangeFeed.Sink.Buffer

variable {α : Type}

/-! ## Uses -/

/-- What is done to a buffer at a time. -/
inductive Use (α : Type) where
  | push (now : Nat) (item : α)
  | take (now : Nat)
  deriving DecidableEq, Inhabited

/-- The item that comes into a buffer with a use, and when. -/
def Use.pushed? : Use α → Option (Nat × α)
  | .push now item => some (now, item)
  | .take _ => none

/-- The items that come into a buffer, with their times, in order. -/
def pushes (uses : List (Use α)) : List (Nat × α) := uses.filterMap Use.pushed?

/-- The uses after the last take. -/
def sinceTake (uses : List (Use α)) : List (Use α) :=
  (uses.reverse.takeWhile fun u => u.pushed?.isSome).reverse

def use (b : Buffer α) : Use α → Buffer α
  | .push now item => b.push now item
  | .take _ => b.clear

def after (b : Buffer α) (uses : List (Use α)) : Buffer α := uses.foldl use b

/-- What each take gives away, the first one first. -/
def takes (b : Buffer α) : List (Use α) → List (List α)
  | [] => []
  | .push now item :: rest => (b.push now item).takes rest
  | .take _ :: rest => b.items :: b.clear.takes rest

theorem after_append (b : Buffer α) (uses more : List (Use α)) :
    b.after (uses ++ more) = (b.after uses).after more :=
  List.foldl_append

theorem pushes_append (uses more : List (Use α)) :
    pushes (uses ++ more) = pushes uses ++ pushes more :=
  List.filterMap_append

@[simp] theorem sinceTake_push (uses : List (Use α)) (now : Nat) (item : α) :
    sinceTake (uses ++ [.push now item]) = sinceTake uses ++ [.push now item] := by
  simp [sinceTake, Use.pushed?]

@[simp] theorem sinceTake_take (uses : List (Use α)) (now : Nat) :
    sinceTake (uses ++ [.take now]) = [] := by
  simp [sinceTake, Use.pushed?]

/-! ## What is remembered -/

/-- What a buffer knows after some uses: the items that came since the last take, and when the first
of them came. -/
structure Remembers (b : Buffer α) (limit patience : Nat) (uses : List (Use α)) : Prop where
  limit : b.limit = max limit 1
  patience : b.patience = patience
  items : b.items = (pushes (sinceTake uses)).map Prod.snd
  oldest : b.oldest = (pushes (sinceTake uses)).head?.map Prod.fst

variable {b : Buffer α} {limit patience : Nat} {uses : List (Use α)}

theorem remembers_empty (limit patience : Nat) :
    (empty limit patience : Buffer α).Remembers limit patience [] :=
  ⟨rfl, rfl, rfl, rfl⟩

theorem remembers_use (h : b.Remembers limit patience uses) (u : Use α) :
    (b.use u).Remembers limit patience (uses ++ [u]) := by
  cases u with
  | take now => exact ⟨h.limit, h.patience, by simp [use, pushes], by simp [use, clear, pushes]⟩
  | push now item =>
    have hlast : pushes (sinceTake (uses ++ [.push now item])) =
        pushes (sinceTake uses) ++ [(now, item)] := by
      rw [sinceTake_push, pushes_append]
      rfl
    refine ⟨h.limit, h.patience, ?_, ?_⟩
    · rw [hlast, use, items_push, h.items, List.map_append]
      rfl
    · -- the time is taken down only by a buffer that holds nothing
      rw [hlast, use, push]
      cases hp : pushes (sinceTake uses) with
      | nil => simp [h.items, hp]
      | cons first rest => simp [h.items, h.oldest, hp]

theorem remembers_after (limit patience : Nat) (uses : List (Use α)) :
    ((empty limit patience).after uses).Remembers limit patience uses := by
  induction uses using List.reverseRecOn with
  | nil => exact remembers_empty limit patience
  | append_singleton uses u ih =>
    rw [after_append]
    exact remembers_use ih u

/-- Nothing is lost, and nothing is given away twice or out of turn. -/
theorem takes_append_items (b : Buffer α) (uses : List (Use α)) :
    (b.takes uses).flatten ++ (b.after uses).items = b.items ++ (pushes uses).map Prod.snd := by
  induction uses generalizing b with
  | nil => simp [takes, after, pushes]
  | cons u rest ih =>
    cases u with
    | push now item =>
      have hrest := ih (b.push now item)
      simpa [takes, after, use, pushes, Use.pushed?] using hrest
    | take now =>
      have hrest : (b.clear.takes rest).flatten ++ (b.clear.after rest).items =
          (pushes rest).map Prod.snd := ih b.clear
      have hpushes : pushes (.take now :: rest) = pushes rest := rfl
      rw [takes, List.flatten_cons, List.append_assoc, hpushes, ← hrest]
      rfl

namespace Remembers

theorem oldest_isSome_iff (h : b.Remembers limit patience uses) :
    b.oldest.isSome ↔ b.items ≠ [] := by
  rw [h.oldest, h.items]
  cases pushes (sinceTake uses) <;> simp

theorem deadline_eq (h : b.Remembers limit patience uses) :
    b.deadline = (pushes (sinceTake uses)).head?.map fun first => first.1 + patience := by
  rw [deadline, h.oldest, h.patience, Option.map_map]
  rfl

/-- A push fills a buffer if it brings the number of items to the limit, or past it. -/
theorem full?_push_eq_some_iff (h : b.Remembers limit patience uses) (now : Nat) (item : α)
    (n : Nat) :
    (b.push now item).full? = some n ↔
      n = b.items.length + 1 ∧ max limit 1 ≤ b.items.length + 1 := by
  have hlimit : (b.push now item).limit = max limit 1 := h.limit
  have hlength : (b.push now item).items.length = b.items.length + 1 := by
    rw [items_push, List.length_append, List.length_singleton]
  rw [full?, hlimit, hlength]
  split
  · rename_i hle
    simp [hle, eq_comm]
  · rename_i hlt
    simp [hlt]

end Remembers

/-! ## All of it -/

/-- Whatever is done to a buffer with a limit (zero counts as one) and a time that its items wait:
it knows when its oldest item came exactly while it holds one; it holds what was pushed since the
last take; its deadline is the time of the first of these pushes plus the time that items wait, and
there is none exactly while it is empty; a push answers the number of items exactly if that has
reached the limit; and all that was given away, with what is left behind it, is what was pushed, in
order. -/
theorem buffer_represents (limit patience : Nat) (uses : List (Use α)) :
    let b : Buffer α := (empty limit patience).after uses
    (b.oldest.isSome ↔ b.items ≠ []) ∧
      b.items = (pushes (sinceTake uses)).map Prod.snd ∧
      b.deadline = (pushes (sinceTake uses)).head?.map (fun first => first.1 + patience) ∧
      (b.deadline = none ↔ b.items = []) ∧
      (∀ now item n, (b.push now item).full? = some n ↔
        n = b.items.length + 1 ∧ max limit 1 ≤ b.items.length + 1) ∧
      ((empty limit patience : Buffer α).takes uses).flatten ++ b.items =
        (pushes uses).map Prod.snd := by
  intro b
  have h : b.Remembers limit patience uses := remembers_after limit patience uses
  refine ⟨h.oldest_isSome_iff, h.items, h.deadline_eq, ?_, h.full?_push_eq_some_iff,
    takes_append_items _ uses⟩
  rw [deadline, Option.map_eq_none_iff, ← Option.not_isSome_iff_eq_none, h.oldest_isSome_iff,
    not_not]

/-- A buffer that was emptied counts from the next push on, and an item past the limit is kept. -/
example : ((empty 1 1000).after [.push 0 "a", .push 400 "b", .take 400, .push 700 "c"]).deadline =
    some 1700 := rfl

end ChangeFeed.Sink.Buffer
