import TaskWatch.Decimal.Bounded
import TaskWatch.Text.Trim

/-!
# Where settings come from

Settings are read from files and from the variables of the environment.  Both are functions here:
from paths to texts and from names to values.
-/

namespace TaskWatch.Config

open TaskWatch.Decimal (NumberFault readUInt64)
open TaskWatch.Text (trim)

/-! ## Files -/

inductive FileFault where
  | missing
  /-- The path leads through a file. -/
  | notDirectory
  /-- The path, or a name in it, is too long. -/
  | longName
  | nulInPath
  | directory
  | notText
  /-- Another fault of the system, with what it says.  Something may have been found at the path. -/
  | other (found : Bool) (what : String)
deriving DecidableEq, Repr

namespace FileFault

def message : FileFault → String
  | missing => "No such file or directory (os error 2)"
  | notDirectory => "Not a directory (os error 20)"
  | longName => "File name too long (os error 36)"
  | nulInPath => "file name contained an unexpected NUL byte"
  | directory => "Is a directory (os error 21)"
  | notText => "stream did not contain valid UTF-8"
  | other _ what => what

/-- Whether nothing is found at the path, not even something that cannot be read. -/
def isAbsence : FileFault → Bool
  | directory | notText => false
  | missing | notDirectory | longName | nulInPath => true
  | other found _ => !found

end FileFault

abbrev Files := String → Except FileFault String

/-! ## The environment -/

/-- The values of the variables that are set. -/
abbrev Environment := String → Option String

inductive Variable where
  | pollDelayMs
  | maxThreads
deriving DecidableEq, Repr

namespace Variable

def name : Variable → String
  | pollDelayMs => "ABIQUO_MONITOR_DELAY_MS"
  | maxThreads => "ABIQUO_SCHEDULER_THREADS"

/-- What the value of a variable has to be. -/
def demand : Variable → String
  | pollDelayMs => "must be a number of milliseconds"
  | maxThreads => "must be a thread count"

/-- The number in a variable, if it is set.  Blanks around the number do not matter. -/
def read (v : Variable) (env : Environment) : Except NumberFault (Option UInt64) :=
  match env v.name with
  | none => .ok none
  | some value => (readUInt64 (trim value)).map some

end Variable
end TaskWatch.Config
