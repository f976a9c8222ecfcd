import TaskWatch.Api.Error
import TaskWatch.Text.Trim

/-!
# How to reach the server

The address of the server and the account to use, and what makes them acceptable.
-/

namespace TaskWatch.Api

open TaskWatch.Text

structure Settings where
  /-- The address that relative links start from. -/
  endpoint : String
  username : String
  password : String
  /-- Seconds after which a request is given up. -/
  timeoutSecs : UInt64
deriving DecidableEq, Repr

/-- Whether an address names its protocol. -/
def isAbsolute (href : String) : Bool := startsWith href "http://" || startsWith href "https://"

namespace Settings

def standard : Settings := ⟨"http://localhost/api", "admin", "", 30⟩

/-- What is wrong with the settings, the first fault in the order of the fields. -/
def check (s : Settings) : Except Error Unit :=
  if !isAbsolute s.endpoint then
    .error (.invalidConfig ("endpoint must be an http(s) URL, got '" ++ s.endpoint ++ "'"))
  else if s.username = "" then .error (.invalidConfig "username must not be empty")
  else if s.timeoutSecs = 0 then .error (.invalidConfig "timeout_secs must be greater than 0")
  else .ok ()

theorem check_eq_ok_iff {s : Settings} :
    s.check = .ok () ↔ isAbsolute s.endpoint = true ∧ s.username ≠ "" ∧ s.timeoutSecs ≠ 0 := by
  unfold check
  split
  · simp_all
  · split
    · simp_all
    · split <;> simp_all

end Settings
end TaskWatch.Api
