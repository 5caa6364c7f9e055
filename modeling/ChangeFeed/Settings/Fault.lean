import ChangeFeed.Breakdown
import ChangeFeed.Text.Quoted

/-!
# Faults of settings

Why settings could not be loaded, and the wording of each cause.
-/

namespace ChangeFeed.Settings

/-- Why settings could not be loaded. -/
inductive Fault where
  /-- The settings admit no further change. -/
  | frozen
  /-- No value has this name. -/
  | missing (key : String)
  /-- A path is not well formed. -/
  | path (reason : String)
  /-- A file is not well formed. -/
  | file (name : String)
  /-- A value is of the wrong kind. -/
  | kind (found expected : String) (key origin : Option String)
  | other (message : String)
  /-- A source could not be read. -/
  | source (message : String)
  /-- Loading did not come to an end. -/
  | broken (cause : Breakdown)
  deriving DecidableEq, Inhabited

def Fault.message : Fault → String
  | .frozen => "configuration is frozen"
  | .missing key => "configuration property " ++ Text.quoted key ++ " not found"
  | .path reason => reason
  | .file name => "TOML parse error in " ++ name
  | .kind found expected key origin =>
    let atKey := match key with
      | some key => " for key `" ++ key ++ "`"
      | none => ""
    let fromOrigin := match origin with
      | some origin => " in " ++ origin
      | none => ""
    "invalid type: " ++ found ++ ", expected " ++ expected ++ atKey ++ fromOrigin
  | .other message => message
  | .source message => message
  | .broken cause => cause.message

end ChangeFeed.Settings
