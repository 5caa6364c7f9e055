import ChangeFeed.Settings.Check

/-!
# Settings of checkpoints and locks

What keeps the checkpoints and locks, the keys under which they stand, and how failures are borne.
Only the settings of the backend that is chosen are checked.
-/

namespace ChangeFeed.Settings

/-- What keeps checkpoints and locks. -/
inductive Backend where
  /-- A Consul cluster. -/
  | consul
  /-- A file and locks inside the process, for a single instance. -/
  | embedded
  deriving DecidableEq, Inhabited

def Backend.name : Backend → String
  | .consul => "consul"
  | .embedded => "local"

/-- The name of a backend as a constructor. -/
def Backend.label : Backend → String
  | .consul => "Consul"
  | .embedded => "Local"

/-- How to reach Consul. -/
structure Consul where
  address : String
  token : Option String
  deriving DecidableEq, Inhabited

namespace Consul

/-- What holds when nothing is set. -/
def standard : Consul where
  address := "http://127.0.0.1:8500"
  token := none

def form : Form Consul := .record "ConsulConfig" standard <|
  (Fields.none Consul.mk)
    |>.and "address" .text address
    |>.and "token" (.optional .text) token

def check (s : Consul) : Except Error Unit :=
  require (isWebAddress s.address) (notWebAddress "coordination.consul.address" s.address)

end Consul

/-- Where checkpoints are kept on this machine. -/
structure Embedded where
  path : String
  deriving DecidableEq, Inhabited

namespace Embedded

/-- What holds when nothing is set. -/
def standard : Embedded := { path := "./db/firehose" }

def form : Form Embedded := .record "LocalConfig" standard <|
  (Fields.none Embedded.mk)
    |>.and "db_path" .text path

def check (s : Embedded) : Except Error Unit :=
  require (s.path ≠ "") "coordination.local.db_path cannot be empty"

end Embedded

/-- Checkpoints and leader election. -/
structure Coordination where
  backend : Backend
  /-- What every key starts with. -/
  keyPrefix : String
  sessionTtlSecs : Nat
  /-- How many failures in a row the monitor of a lock bears. -/
  monitorRetries : Nat
  monitorRetryMs : Nat
  /-- The first pause between two reads of a store that fails; each further one is twice as long. -/
  restoreRetryMs : Nat
  restoreRetryMaxMs : Nat
  consul : Consul
  embedded : Embedded
  deriving DecidableEq, Inhabited

namespace Coordination

/-- What holds when nothing is set. -/
def standard : Coordination where
  backend := .consul
  keyPrefix := "nomad-firehose/"
  sessionTtlSecs := 15
  monitorRetries := 10
  monitorRetryMs := 5000
  restoreRetryMs := 1000
  restoreRetryMaxMs := 30000
  consul := .standard
  embedded := .standard

def form : Form Coordination := .record "CoordinationConfig" standard <|
  (Fields.none Coordination.mk)
    |>.and "backend" (.choice "CoordinationBackend" [.consul, .embedded] Backend.name) backend
    |>.and "key_prefix" .text keyPrefix
    |>.and "session_ttl_secs" (.word 64) sessionTtlSecs
    |>.and "monitor_retries" (.word 32) monitorRetries
    |>.and "monitor_retry_ms" (.word 64) monitorRetryMs
    |>.and "restore_retry_ms" (.word 64) restoreRetryMs
    |>.and "restore_retry_max_ms" (.word 64) restoreRetryMaxMs
    |>.and "consul" Consul.form consul
    |>.and "local" Embedded.form embedded

/-- Sessions live from ten seconds to a day. -/
def check (s : Coordination) : Except Error Unit := do
  require (10 ≤ s.sessionTtlSecs ∧ s.sessionTtlSecs ≤ 86400)
    s!"coordination.session_ttl_secs must be within 10..=86400, got {s.sessionTtlSecs}"
  require (s.monitorRetryMs ≠ 0) "coordination.monitor_retry_ms cannot be 0"
  require (s.restoreRetryMs ≠ 0 ∧ s.restoreRetryMs ≤ s.restoreRetryMaxMs)
    ("coordination.restore_retry_ms must be > 0 and <= restore_retry_max_ms, got " ++
      s!"{s.restoreRetryMs} and {s.restoreRetryMaxMs}")
  match s.backend with
  | .consul => s.consul.check
  | .embedded => s.embedded.check

def sessionTtl (s : Coordination) : Duration := .ofSeconds s.sessionTtlSecs

def monitorRetry (s : Coordination) : Duration := .ofMillis s.monitorRetryMs

def restoreRetry (s : Coordination) : Duration := .ofMillis s.restoreRetryMs

def restoreRetryMax (s : Coordination) : Duration := .ofMillis s.restoreRetryMaxMs

/-- The key of a role's watermark. -/
def checkpointKey (s : Coordination) (role : String) : String := s.keyPrefix ++ role ++ ".value"

/-- The key of the time of a role's newest event. -/
def eventTimeKey (s : Coordination) (role : String) : String := s.keyPrefix ++ role ++ ".event_time"

/-- The key of a role's lock. -/
def lockKey (s : Coordination) (role : String) : String := s.keyPrefix ++ role ++ ".lock"

/-- The name of a role's sessions. -/
def sessionName (role : String) : String := "nomad-firehose-" ++ role

end Coordination

end ChangeFeed.Settings
