import ChangeFeed.Toml.Item
import ChangeFeed.Toml.Moment

/-!
# Marked moments

A moment can also be given as a table whose first key is a mark: the text of that key is the moment,
and other keys do not count. `Item.plain?` puts the moments in the places of such tables. What is
marked and is no moment makes the document ill-formed.
-/

namespace ChangeFeed.Toml

/-- The key that marks a moment. -/
def Moment.mark : String := "$__toml_private_datetime"

/-- The item with moments in the places of marked tables. -/
def Item.plain? : Item → Option Item
  | .list xs => (items xs).map .list
  | .tables xs => (items xs).map .tables
  | .table making ((key, value) :: rest) =>
    if key = Moment.mark then
      match value with
      | .text s => (Moment.ofText? s).map .moment
      | _ => none
    else (fields ((key, value) :: rest)).map (.table making)
  | item => some item
where
  items : List Item → Option (List Item)
    | [] => some []
    | x :: xs => do
      let x ← Item.plain? x
      pure (x :: (← items xs))
  fields : List (String × Item) → Option (List (String × Item))
    | [] => some []
    | (key, x) :: rest => do
      let x ← Item.plain? x
      pure ((key, x) :: (← fields rest))

end ChangeFeed.Toml
