import ChangeFeed.Settings.Orchestrator
import ChangeFeed.Settings.Watching
import ChangeFeed.Settings.Coordination
import ChangeFeed.Settings.Output
import ChangeFeed.Settings.Monitoring

/-!
# All settings

The settings of one process, their defaults and their validation. The first fault in the order of
the parts is reported.
-/

namespace ChangeFeed

/-- The settings of one process. -/
structure Settings where
  orchestrator : Settings.Orchestrator
  coordination : Settings.Coordination
  leadership : Settings.Leadership
  watching : Settings.Watching
  output : Settings.Output
  monitoring : Settings.Monitoring
  deriving DecidableEq, Inhabited

namespace Settings

/-- The settings when nothing is set. -/
def standard : Settings :=
  ⟨.standard, .standard, .standard, .standard, .standard, .standard⟩

def form : Form Settings := .record "FirehoseConfig" standard <|
  (Fields.none Settings.mk)
    |>.and "upstream" Orchestrator.form orchestrator
    |>.and "coordination" Coordination.form coordination
    |>.and "leadership" Leadership.form leadership
    |>.and "watcher" Watching.form watching
    |>.and "sink" Output.form output
    |>.and "monitoring" Monitoring.form monitoring

/-- Refuses settings that a run could not work with. -/
def check (s : Settings) : Except Error Unit := do
  s.orchestrator.check
  s.coordination.check
  s.leadership.check
  s.watching.check
  s.output.check
  s.monitoring.check

/-- Shows the settings without their secrets. -/
def text (s : Settings) : String :=
  let destination := match s.output.destination with
    | some d => "Some(" ++ d.label ++ ")"
    | none => "None"
  "FirehoseConfig \x7b upstream: " ++ Text.quoted s.orchestrator.address ++ ", coordination: " ++
    s.coordination.backend.label ++ ", sink: " ++ destination ++ " \x7d"

end Settings

end ChangeFeed
