import TaskWatch.Config.Error
import TaskWatch.Monitor.Settings
import TaskWatch.Yaml.Shape

/-!
# Settings of a monitor from outside

The settings of a monitor can be read from a file, and variables of the environment override them.
Either way they must be acceptable in the end.
-/

namespace TaskWatch.Monitor.Settings

open TaskWatch.Config
open TaskWatch.Yaml

def shape : Shape Settings :=
  .record standard
    [Shape.uint64.as "poll_delay_ms" fun n s => { s with pollDelayMs := n },
      Shape.uint64.as "max_scheduler_threads" fun n s => { s with maxThreads := n }]

def checked (s : Settings) : Except Config.Error Settings :=
  (s.check.mapError Config.Error.monitor).map fun _ => s

def load (files : Files) (path : String) : Except Config.Error Settings := do
  let text ← (files path).mapError (.unreadable .monitor path)
  match shape.ofText? text with
  | none => .error (.malformed .monitor)
  | some s => s.checked

/-- Settings with the variables that are set in the place of what they had before. -/
def overriddenBy (env : Environment) (s : Settings) : Except Config.Error Settings := do
  let delay ← (Variable.pollDelayMs.read env).mapError (.badVariable .pollDelayMs)
  let threads ← (Variable.maxThreads.read env).mapError (.badVariable .maxThreads)
  checked ⟨delay.getD s.pollDelayMs, threads.getD s.maxThreads⟩

end TaskWatch.Monitor.Settings
