import ChangeFeed.Breakdown
import ChangeFeed.Duration
import ChangeFeed.Json.Fault
import ChangeFeed.Settings.Fault

/-!
# Errors

What can go wrong, grouped by the collaborator at which it went wrong, and the wording of each.
Failures of single queries, checkpoint writes and publications are absorbed where they arise; only
faults of the settings and failed acquisitions of a lock end a run.
-/

namespace ChangeFeed

/-- A failed operation. -/
inductive Error where
  /-- The orchestrator could not be reached. -/
  | request (endpoint cause : String)
  /-- The orchestrator answered with a status that is no success. -/
  | status (endpoint : String) (status : Nat)
  /-- An answer to a blocking query carries no usable index. -/
  | missingIndex (endpoint : String)
  /-- An answer is not of the expected form. -/
  | malformed (endpoint reason : String)
  /-- A checkpoint could not be read or written. -/
  | checkpoint (key reason : String)
  /-- A session could not be created. -/
  | session (name reason : String)
  /-- An acquisition failed, which is more than having to wait. -/
  | acquire (key reason : String)
  /-- A lock could not be given back. -/
  | release (key reason : String)
  /-- The coordination service could not be reached. -/
  | coordination (endpoint cause : String)
  /-- The embedded store failed. -/
  | embedded (message : String)
  /-- A sink that is stopped was offered a message. -/
  | stopped (sink : String)
  /-- The queue of a sink lost its readers. -/
  | queueClosed (sink : String)
  /-- A destination refused a message. -/
  | publish (destination reason : String)
  /-- A destination took too long. -/
  | timeout (destination : String) (after : Duration)
  /-- Local output failed. -/
  | output (message : String)
  | settings (fault : Settings.Fault)
  /-- Settings of the right form that validation refuses. -/
  | invalidSettings (reason : String)
  | json (fault : Json.Fault)
  /-- A background task did not end by itself. -/
  | task (reason : String)
  | fatal (reason : String)
  /-- The run ended at once. -/
  | broken (cause : Breakdown)
  deriving DecidableEq, Inhabited

def Error.message : Error → String
  | .request endpoint cause => "Request to " ++ endpoint ++ " failed: " ++ cause
  | .status endpoint code => "Unexpected status " ++ toString code ++ " from " ++ endpoint
  | .missingIndex endpoint => "Missing or malformed index header on " ++ endpoint
  | .malformed endpoint reason => "Malformed response from " ++ endpoint ++ ": " ++ reason
  | .checkpoint key reason => "Checkpoint operation on " ++ key ++ " failed: " ++ reason
  | .session name reason => "Failed to create session " ++ name ++ ": " ++ reason
  | .acquire key reason => "Failed to acquire lock " ++ key ++ ": " ++ reason
  | .release key reason => "Failed to release lock " ++ key ++ ": " ++ reason
  | .coordination endpoint cause =>
    "Coordination request to " ++ endpoint ++ " failed: " ++ cause
  | .embedded message => message
  | .stopped sink => "Sink " ++ sink ++ " is stopped and no longer accepts messages"
  | .queueClosed sink => "Sink " ++ sink ++ " queue is closed"
  | .publish destination reason => "Publish to " ++ destination ++ " failed: " ++ reason
  | .timeout destination after =>
    "Publish to " ++ destination ++ " timed out after " ++ after.text
  | .output message => message
  | .settings fault => fault.message
  | .invalidSettings reason => "Invalid configuration: " ++ reason
  | .json fault => "Serialization error: " ++ fault.message
  | .task reason => "Background task failed: " ++ reason
  | .fatal reason => "Fatal error: " ++ reason
  | .broken cause => cause.message

end ChangeFeed
