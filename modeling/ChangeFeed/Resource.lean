/-!
# Resources

The families of records that the orchestrator lists, and where its interface lists and shows them.
-/

namespace ChangeFeed

/-- A family of records with a blocking list query. -/
inductive Resource where
  | allocations | deployments | evaluations | jobs | nodes
  deriving DecidableEq, Inhabited

namespace Resource

def all : List Resource := [.allocations, .deployments, .evaluations, .jobs, .nodes]

def name : Resource → String
  | .allocations => "allocations"
  | .deployments => "deployments"
  | .evaluations => "evaluations"
  | .jobs => "jobs"
  | .nodes => "nodes"

/-- The name of the family as a constructor. -/
def label : Resource → String
  | .allocations => "Allocations"
  | .deployments => "Deployments"
  | .evaluations => "Evaluations"
  | .jobs => "Jobs"
  | .nodes => "Nodes"

/-- The name of one record of the family. -/
def singular : Resource → String
  | .allocations => "allocation"
  | .deployments => "deployment"
  | .evaluations => "evaluation"
  | .jobs => "job"
  | .nodes => "node"

/-- The path of the list query. -/
def listPath (resource : Resource) : String := "/v1/" ++ resource.name

def recordPath (resource : Resource) (id : String) : String :=
  "/v1/" ++ resource.singular ++ "/" ++ id

def ofName? (name : String) : Option Resource := all.find? (·.name = name)

end Resource

end ChangeFeed
