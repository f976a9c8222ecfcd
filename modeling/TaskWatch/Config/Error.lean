import TaskWatch.Api.Error
import TaskWatch.Config.Logging
import TaskWatch.Config.Source
import TaskWatch.Monitor.Error

/-!
# Why there are no settings

An error is told from the outside in: what could not be done comes first, and each text is followed
by its cause.
-/

namespace TaskWatch.Config

open TaskWatch.Decimal (NumberFault)

inductive Document where
  /-- The settings of a monitor alone. -/
  | monitor
  /-- All settings of the watcher. -/
  | watcher
deriving DecidableEq, Repr

inductive Error where
  | unreadable (document : Document) (path : String) (fault : FileFault)
  /-- A file does not have the shape of settings. -/
  | malformed (document : Document)
  | badVariable (v : Variable) (fault : NumberFault)
  | unknownLogFormat (name : String)
  /-- The settings of the monitor, by themselves, are not acceptable. -/
  | monitor (cause : Monitor.Error)
  /-- The settings of the connection are not acceptable among those of the watcher. -/
  | apiPart (cause : Api.Error)
  /-- The settings of the monitor are not acceptable among those of the watcher. -/
  | monitorPart (cause : Monitor.Error)
deriving DecidableEq, Repr

namespace Error

def message : Error → String
  | unreadable .monitor path _ => "Failed to read monitor config: " ++ path
  | unreadable .watcher path fault =>
    (if fault.isAbsence then "Config file not found: " else "Failed to read config file: ") ++ path
  | malformed .monitor => "Failed to parse monitor config"
  | malformed .watcher => "Failed to parse config file"
  | badVariable v _ => v.name ++ " " ++ v.demand
  | unknownLogFormat name => LogFormat.unknownMessage name
  | monitor cause => cause.message
  | apiPart _ => "Invalid api configuration"
  | monitorPart _ => "Invalid monitor configuration"

/-- The cause of an error, unless the error is its own. -/
def cause? : Error → Option String
  | unreadable .monitor _ fault => some fault.message
  | unreadable .watcher _ fault => if fault.isAbsence then none else some fault.message
  | badVariable _ fault => some fault.message
  | apiPart cause => cause.message?
  | monitorPart cause => some cause.message
  | malformed _ | unknownLogFormat _ | monitor _ => none

/-- The texts for an error, each followed by its cause. -/
def chain (e : Error) : List String := e.message :: e.cause?.toList

end Error
end TaskWatch.Config
