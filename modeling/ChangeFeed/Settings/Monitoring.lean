import ChangeFeed.Settings.Check

/-!
# Settings of the metrics endpoint

Whether metrics are shown, and at which socket.
-/

namespace ChangeFeed.Settings

/-- Where metrics are shown, if they are. -/
structure Monitoring where
  enabled : Bool
  address : Net.Address
  port : Nat
  deriving DecidableEq, Inhabited

namespace Monitoring

/-- What holds when nothing is set. -/
def standard : Monitoring where
  enabled := false
  address := .four [0, 0, 0, 0]
  port := 9000

def form : Form Monitoring := .record "MonitoringConfig" standard <|
  (Fields.none Monitoring.mk)
    |>.and "prometheus_enabled" .flag enabled
    |>.and "prometheus_bind_address" .address address
    |>.and "prometheus_port" (.word 16) port

/-- An endpoint that is shown needs a port that takes no privilege. -/
def check (s : Monitoring) : Except Error Unit :=
  if s.enabled then do
    require (s.port ≠ 0)
      "monitoring.prometheus_port cannot be 0 when the metrics endpoint is enabled"
    require (1024 ≤ s.port)
      s!"monitoring.prometheus_port {s.port} is privileged, pick a port >= 1024 for /metrics"
  else .ok ()

def socket (s : Monitoring) : String := s.address.withPort s.port

end Monitoring

end ChangeFeed.Settings
