import ChangeFeed.Settings.Check

/-!
# Settings of the orchestrator

Where the orchestrator listens, how a client shows who it is, and how long requests may take.
-/

namespace ChangeFeed.Settings

/-- How to reach the orchestrator. -/
structure Orchestrator where
  address : String
  token : Option String
  region : Option String
  /-- How long the lookup of one record may take. -/
  requestTimeoutMs : Nat
  /-- What a blocking query may take beyond the wait that it asks for. -/
  blockingSlackMs : Nat
  deriving DecidableEq, Inhabited

namespace Orchestrator

/-- What holds when nothing is set. -/
def standard : Orchestrator where
  address := "http://127.0.0.1:4646"
  token := none
  region := none
  requestTimeoutMs := 30000
  blockingSlackMs := 30000

def form : Form Orchestrator := .record "UpstreamConfig" standard <|
  (Fields.none Orchestrator.mk)
    |>.and "address" .text address
    |>.and "token" (.optional .text) token
    |>.and "region" (.optional .text) region
    |>.and "request_timeout_ms" (.word 64) requestTimeoutMs
    |>.and "blocking_slack_ms" (.word 64) blockingSlackMs

def check (s : Orchestrator) : Except Error Unit := do
  require (isWebAddress s.address) (notWebAddress "upstream.address" s.address)
  require (s.requestTimeoutMs ≠ 0) "upstream.request_timeout_ms cannot be 0"

def requestTimeout (s : Orchestrator) : Duration := .ofMillis s.requestTimeoutMs

def blockingSlack (s : Orchestrator) : Duration := .ofMillis s.blockingSlackMs

end Orchestrator

end ChangeFeed.Settings
