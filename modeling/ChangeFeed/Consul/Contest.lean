import ChangeFeed.Consul.Demands

/-!
# Contests for a key

How a session comes to hold a key. It claims the key; if that is refused it looks at the key at
once. A key that is free although the claim was refused is within its lock delay, so the contest
pauses before the next claim. A key that is held is read again, each time past the index of the last
answer, until it is free. Any failure ends the contest.
-/

namespace ChangeFeed.Consul

/-- Where a contest stands. -/
inductive Contest where
  /-- A claim is on its way. -/
  | claiming
  /-- The first read after a refused claim is on its way. -/
  | looking
  /-- A read past an index is on its way. -/
  | waiting (index : Nat)
  /-- The pause of a refused claim for a free key, up to the given time. -/
  | pausing (due : Nat)
  | granted
  | failed (failure : Http.Failure)
  deriving DecidableEq, Inhabited

namespace Contest

/-- What the request on its way is for. -/
def demand? (session : String) : Contest → Option Demand
  | .claiming => some (.claim session)
  | .looking => some .look
  | .waiting index => some (.await index)
  | .pausing _ | .granted | .failed _ => none

/-- What follows when the request on its way gets its delivery. -/
def next (s : Service) (key session : String) (now : Nat) (c : Contest) (d : Http.Delivery) :
    Contest :=
  match c with
  | .claiming =>
    match s.claimed key session d with
    | .ok true => .granted
    | .ok false => .looking
    | .error failure => .failed failure
  | .looking =>
    match s.read key 0 d with
    | .ok holding =>
      if holding.isFree then .pausing (now + claimPause.nanos) else .waiting holding.index
    | .error failure => .failed failure
  | .waiting index =>
    match s.read key index d with
    | .ok holding => if holding.isFree then .claiming else .waiting holding.index
    | .error failure => .failed failure
  | c => c

end Contest

end ChangeFeed.Consul
