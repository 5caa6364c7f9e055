import ChangeFeed.Settings.Check

/-!
# Settings of leadership and of the watch loop

The pace at which a lock is asked for, and that of the queries and reports of whoever holds it. A
period of zero is refused.
-/

namespace ChangeFeed.Settings

/-- The pace of leader election. -/
structure Leadership where
  /-- The pause between two attempts to get the lock. -/
  acquireIntervalMs : Nat
  deriving DecidableEq, Inhabited

namespace Leadership

/-- What holds when nothing is set. -/
def standard : Leadership := { acquireIntervalMs := 250 }

def form : Form Leadership := .record "LeadershipConfig" standard <|
  (Fields.none Leadership.mk)
    |>.and "acquire_interval_ms" (.word 64) acquireIntervalMs

def check (s : Leadership) : Except Error Unit :=
  require (s.acquireIntervalMs ≠ 0) "leadership.acquire_interval_ms cannot be 0"

def acquireInterval (s : Leadership) : Duration := .ofMillis s.acquireIntervalMs

end Leadership

/-- The watch loop of any role. -/
structure Watching where
  /-- How long the server may wait with its answer. -/
  waitTimeSecs : Nat
  allowStale : Bool
  /-- The pause after a failed query. -/
  errorBackoffMs : Nat
  /-- How often the watermark is reported. -/
  reportIntervalMs : Nat
  /-- How long stopping waits for publications under way. -/
  inflightGraceMs : Nat
  /-- How many reports may wait to be read. -/
  updateChannelCapacity : Nat
  deriving DecidableEq, Inhabited

namespace Watching

/-- What holds when nothing is set. -/
def standard : Watching where
  waitTimeSecs := 300
  allowStale := true
  errorBackoffMs := 10000
  reportIntervalMs := 5000
  inflightGraceMs := 5000
  updateChannelCapacity := 1

def form : Form Watching := .record "WatcherConfig" standard <|
  (Fields.none Watching.mk)
    |>.and "wait_time_secs" (.word 64) waitTimeSecs
    |>.and "allow_stale" .flag allowStale
    |>.and "error_backoff_ms" (.word 64) errorBackoffMs
    |>.and "report_interval_ms" (.word 64) reportIntervalMs
    |>.and "inflight_grace_ms" (.word 64) inflightGraceMs
    |>.and "update_channel_capacity" (.word 64) updateChannelCapacity

def check (s : Watching) : Except Error Unit := do
  require (s.waitTimeSecs ≠ 0) "watcher.wait_time_secs cannot be 0"
  require (s.reportIntervalMs ≠ 0) "watcher.report_interval_ms cannot be 0"
  require (s.updateChannelCapacity ≠ 0) "watcher.update_channel_capacity must be at least 1"

def waitTime (s : Watching) : Duration := .ofSeconds s.waitTimeSecs

def errorBackoff (s : Watching) : Duration := .ofMillis s.errorBackoffMs

def reportInterval (s : Watching) : Duration := .ofMillis s.reportIntervalMs

def inflightGrace (s : Watching) : Duration := .ofMillis s.inflightGraceMs

end Watching

end ChangeFeed.Settings
