import ChangeFeed.Error

/-!
# Reports of the watermark

A reporter sends the watermark at regular times to whoever keeps it. Reports wait in a channel of
bounded size; a reporter that finds it full waits for room, with the value that it took at its time.
The times do not move when the reporter was late: the missed ones follow at once.

* `Channel.offer?` is a report if there is room; `Channel.take` receives one.
* `Reporter.step?` is one step of a reporter.
-/

namespace ChangeFeed.Watch

/-- Reports that wait to be received. -/
structure Channel where
  capacity : Nat
  queued : List Nat
  /-- Whether nobody receives any more. -/
  abandoned : Bool
  /-- Whether nobody sends any more. -/
  closed : Bool
  deriving DecidableEq, Inhabited

/-- What someone who tries to receive gets. -/
inductive Received where
  | report (watermark : Nat)
  | nothing
  | closed
  deriving DecidableEq, Inhabited

namespace Channel

def empty (capacity : Nat) : Channel := ⟨capacity, [], false, false⟩

/-- A channel has places, and they are counted. -/
def checkRoom (capacity : Nat) : Except Error Unit :=
  if capacity = 0 then .error (.broken .noPlaces)
  else if capacity ≤ greatestPlaces then .ok ()
  else .error (.broken .tooManyPlaces)

/-- Adds a report if there is room for it. -/
def offer? (c : Channel) (watermark : Nat) : Option Channel :=
  if c.queued.length < c.capacity then some { c with queued := c.queued ++ [watermark] } else none

/-- Adds a report if there is room for it and someone to receive it. -/
def offer (c : Channel) (watermark : Nat) : Channel :=
  if c.abandoned then c else (c.offer? watermark).getD c

def take (c : Channel) : Received × Channel :=
  match c.queued with
  | [] => (if c.closed then .closed else .nothing, c)
  | watermark :: rest => (.report watermark, { c with queued := rest })

end Channel

/-- What a reporter does. -/
inductive Reporter where
  /-- Waits for the time of the next report. -/
  | waiting (next : Nat)
  /-- Waits for room for a report. -/
  | sending (next watermark : Nat)
  | ended
  deriving DecidableEq, Inhabited

namespace Reporter

/-- One step: a reporter ends when it is cancelled or nobody receives any more. -/
def step? (r : Reporter) (c : Channel) (cancelled : Bool) (now every watermark : Nat) :
    Option (Reporter × Channel) :=
  match r with
  | .ended => none
  | .waiting next =>
    if cancelled then some (.ended, c)
    else if next ≤ now then some (.sending (next + every) watermark, c)
    else none
  | .sending next value =>
    if cancelled || c.abandoned then some (.ended, c)
    else (c.offer? value).map fun c => (.waiting next, c)

end Reporter

end ChangeFeed.Watch
