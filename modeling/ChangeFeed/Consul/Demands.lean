import ChangeFeed.Consul.Service

/-!
# What the parties of a session ask for

Three parties share a session: its owner, its renewals and the watch of its key. Each has at most
one request on its way. A `Demand` is what a request is for, and an `Ask` is a request that was made
for a demand, with its reply once there is one. The asks of a party are kept with the last one
first.
-/

namespace ChangeFeed.Consul

/-- What a request is for. -/
inductive Demand where
  | create
  | claim (session : String)
  /-- The state of the key, at once. -/
  | look
  /-- The state of the key once it changed past an index. -/
  | await (index : Nat)
  | renew (session : String)
  | yield (session : String)
  | destroy (session : String)
  deriving DecidableEq, Inhabited

/-- The request for a demand. -/
def Demand.request (s : Service) (key name : String) (ttl : Duration) : Demand → Http.Request
  | .create => s.openRequest name ttl
  | .claim session => s.claimRequest key session
  | .look => s.readRequest key 0
  | .await index => s.readRequest key index
  | .renew session => s.renewRequest session
  | .yield session => s.yieldRequest key session
  | .destroy session => s.destroyRequest session

/-- What became of a request, and when that was known. -/
structure Reply where
  time : Nat
  delivery : Http.Delivery
  deriving DecidableEq, Inhabited

/-- A request that was made. -/
structure Ask where
  demand : Demand
  request : Http.Request
  time : Nat
  reply : Option Reply
  deriving DecidableEq, Inhabited

/-- The asks of a party once the request on its way has its reply. -/
def Ask.replied (now : Nat) (d : Http.Delivery) : List Ask → List Ask
  | ask :: asks => { ask with reply := some ⟨now, d⟩ } :: asks
  | [] => []

end ChangeFeed.Consul
