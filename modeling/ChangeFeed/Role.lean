import ChangeFeed.Resource

/-!
# Roles

What one process may watch. A role has a checkpoint and a lock of its own; two roles may watch the
same family of records and publish different parts of it.
-/

namespace ChangeFeed

/-- What a watcher publishes of which records. -/
inductive Role where
  | allocations | deployments | evaluations | jobs | jobStubs | nodes | nodeStubs
  deriving DecidableEq, Inhabited

namespace Role

def all : List Role :=
  [.allocations, .deployments, .evaluations, .jobs, .jobStubs, .nodes, .nodeStubs]

/-- The name in keys, sessions and metrics. -/
def name : Role → String
  | .allocations => "allocations"
  | .deployments => "deployments"
  | .evaluations => "evaluations"
  | .jobs => "jobs"
  | .jobStubs => "jobliststub"
  | .nodes => "nodes"
  | .nodeStubs => "nodeliststub"

def label : Role → String
  | .allocations => "Allocations"
  | .deployments => "Deployments"
  | .evaluations => "Evaluations"
  | .jobs => "Jobs"
  | .jobStubs => "JobListStubs"
  | .nodes => "Nodes"
  | .nodeStubs => "NodeListStubs"

/-- Whether the time of the newest event is checkpointed next to the watermark. -/
def tracksEventTime (role : Role) : Bool := role = .allocations

/-- Whether list entries are published as they are, without a look at the records. -/
def publishesStubs (role : Role) : Bool := role = .jobStubs || role = .nodeStubs

/-- The records that the role watches. -/
def resource : Role → Resource
  | .allocations => .allocations
  | .deployments => .deployments
  | .evaluations => .evaluations
  | .jobs | .jobStubs => .jobs
  | .nodes | .nodeStubs => .nodes

def ofName? (name : String) : Option Role := all.find? (·.name = name)

end Role

end ChangeFeed
