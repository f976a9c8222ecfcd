import TaskWatch.Watch.Program

/-!
# Running the program

Takes the command line, the environment and the one file that may be read from outside, runs the
program and prints what it says.  No request leaves the program: every host is out of reach.
-/

open TaskWatch
open TaskWatch.Config (FileFault)

/-- Why a file could not be read, if `found` says whether there is one. -/
def fileFault (found : Bool) : IO.Error → FileFault
  | .noFileOrDirectory .. => .missing
  | .inappropriateType _ code _ => if code = 20 then .notDirectory else .directory
  | .invalidArgument .. => .longName
  | .permissionDenied _ code details =>
    .other found (details ++ " (os error " ++ toString code ++ ")")
  | _ => .notText

def isFound (path : String) : IO Bool :=
  try
    let _ ← IO.FS.realPath path
    return true
  catch _ => return false

def readText (path : String) : IO (Except FileFault String) :=
  try return .ok (← IO.FS.readFile path)
  catch e => return .error (fileFault (← isFound path) e)

def readVariables (names : List String) : IO (List (String × String)) :=
  names.filterMapM fun name => do return (← IO.getEnv name).map (name, ·)

def main (words : List String) : IO UInt32 := do
  let values ← readVariables Watch.variableNames
  let env : Config.Environment := fun name => values.lookup name
  let path := Watch.pathFor env words
  let text ← readText path
  let files : Config.Files := fun p => if p = path then text else .error .missing
  let (ending, _) := Watch.program files env Api.Network.unreachable 0 words ()
  ending.output.forM IO.println
  ending.complaint.forM IO.eprintln
  return ending.status
