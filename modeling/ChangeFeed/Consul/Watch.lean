import ChangeFeed.Consul.Demands

/-!
# The watch of a held key

Whoever holds a key keeps reading it. The watch ends, and the holder is told by that, as soon as a
read shows that the key is not the session's, or when more reads in a row failed than the settings
bear. Each failure that is borne is reported, if there is room among the reports, and followed by a
pause.
-/

namespace ChangeFeed.Consul

/-- A report of a read that failed. -/
structure Notice where
  /-- The number of the failure in its row. -/
  attempt : Nat
  reason : String
  deriving DecidableEq, Inhabited

/-- What a watch does. -/
inductive Watch.Phase where
  /-- A read is on its way. -/
  | reading
  /-- The pause after a failed read, up to the given time. -/
  | pausing (due : Nat)
  | closed
  deriving DecidableEq, Inhabited

/-- The watch of a key. -/
structure Watch where
  phase : Watch.Phase
  /-- The index of the last read that succeeded. -/
  index : Nat
  /-- How many reads failed since then. -/
  failures : Nat
  /-- The reports that wait to be received, the oldest first. -/
  notices : List Notice
  deriving DecidableEq, Inhabited

namespace Watch

def room : Nat := 16

/-- A watch at its first read. -/
def start : Watch := ⟨.reading, 0, 0, []⟩

/-- What the read on its way is for. -/
def demand? (w : Watch) : Option Demand :=
  match w.phase with
  | .reading => some (.await w.index)
  | _ => none

/-- What follows a read with the given outcome. -/
def judge (s : Service) (session : String) (now : Nat) (w : Watch) :
    Except Http.Failure Holding → Watch
  | .ok holding =>
    { w with
      phase := if holding.session? = some session then .reading else .closed
      index := holding.index
      failures := 0 }
  | .error failure =>
    let failures := w.failures + 1
    if s.monitorRetries < failures then { w with phase := .closed, failures }
    else
      let notices :=
        if w.notices.length < room then w.notices ++ [⟨failures, failure.text⟩] else w.notices
      { w with phase := .pausing (now + s.monitorRetry.nanos), failures, notices }

/-- What follows when the read on its way gets its delivery. -/
def next (s : Service) (key session : String) (now : Nat) (w : Watch) (d : Http.Delivery) :
    Watch :=
  match w.phase with
  | .reading => judge s session now w (s.read key w.index d)
  | _ => w

def close (w : Watch) : Watch := { w with phase := .closed }

/-- What its holder can receive: a report, or that the watch is closed and no report is left. -/
def receive? (w : Watch) : Option (Option Notice × Watch) :=
  match w.notices with
  | notice :: notices => some (some notice, { w with notices })
  | [] => if w.phase = .closed then some (none, w) else none

end Watch

end ChangeFeed.Consul
