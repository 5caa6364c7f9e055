import ChangeFeed.Settings.Form
import ChangeFeed.Error

/-!
# Validation of settings

Settings of the right form may still make no sense. Each section has a `check` that refuses such
settings with a reason; the checks are made of `require`, in the order in which reasons are given.
-/

namespace ChangeFeed.Settings

/-- Refuses settings unless a condition holds. -/
def require (holds : Bool) (reason : String) : Except Error Unit :=
  if holds then .ok () else .error (.invalidSettings reason)

@[simp] theorem require_eq_ok {holds : Bool} {reason : String} :
    require holds reason = .ok () ↔ holds = true := by
  cases holds <;> simp [require]

/-- Whether a text starts like the address of a web service. -/
def isWebAddress (s : String) : Bool := s.startsWith "http://" || s.startsWith "https://"

/-- The wording for an address that is none. -/
def notWebAddress (name address : String) : String :=
  name ++ " must be an http(s) URL, got " ++ Text.quoted address

end ChangeFeed.Settings
