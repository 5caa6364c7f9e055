import ChangeFeed.Change

/-!
# Progress of a watch loop

A watch loop asks for the changes past an index, and hands on those that are newer than the
watermark it had when the answer came. Two indices move on: the index of the queries follows the
server, and the watermark follows the changes that were handed on.

* `Progress.fresh` are the changes of a page that are handed on.
* `Progress.turn` is one answer: a page whose index is the one that was asked with is no work, and a
  failed query changes nothing.
-/

namespace ChangeFeed.Watch

/-- Where a watch loop stands. -/
structure Progress where
  /-- The index with which the next query asks. -/
  index : Nat
  /-- The highest index of a change that was handed on. -/
  watermark : Nat
  deriving DecidableEq, Inhabited

namespace Progress

/-- A loop that begins at a watermark. -/
def startingAt (watermark : Nat) : Progress := ⟨watermark, watermark⟩

/-- Whether a page is no work. -/
def isUnchanged (p : Progress) (page : Page) : Bool := page.lastIndex = p.index

/-- The changes of a page that are handed on, in order. -/
def fresh (p : Progress) (page : Page) : List Change :=
  if p.isUnchanged page then [] else page.changes.filter (p.watermark < ·.index)

/-- Where the loop stands after a page. -/
def after (p : Progress) (page : Page) : Progress :=
  if p.isUnchanged page then p
  else ⟨page.lastIndex, (p.fresh page).foldl (fun top change => max top change.index) p.watermark⟩

/-- One answer: the changes that are handed on, and where the loop stands then. -/
def turn {ε : Type} (p : Progress) : Except ε Page → List Change × Progress
  | .error _ => ([], p)
  | .ok page => (p.fresh page, p.after page)

/-- The changes that are handed on for each answer, and where the loop stands in the end. -/
def run {ε : Type} : Progress → List (Except ε Page) → List (List Change) × Progress
  | p, [] => ([], p)
  | p, answer :: rest =>
    let (changes, p) := p.turn answer
    let (more, p) := run p rest
    (changes :: more, p)

end Progress

end ChangeFeed.Watch
