import TaskWatch.Api.Settings
import TaskWatch.Config.Polling
import TaskWatch.Watch.Arguments

/-!
# Settings of the watcher

The settings come from a file or are the standard ones.  Variables of the environment override them,
and then the command line does.  What the environment leaves must be acceptable to the monitor, and
what the command line leaves must be acceptable in all parts.
-/

namespace TaskWatch.Watch

open TaskWatch.Config
open TaskWatch.Yaml

structure Settings where
  api : Api.Settings
  monitor : Monitor.Settings
  logging : Logging
deriving DecidableEq, Repr

namespace Settings

def standard : Settings := ⟨.standard, .standard, .standard⟩

/-! ## Files -/

def apiShape : Shape Api.Settings :=
  .record .standard
    [Shape.text.as "endpoint" fun t s => { s with endpoint := t },
      Shape.text.as "username" fun t s => { s with username := t },
      Shape.text.as "password" fun t s => { s with password := t },
      Shape.uint64.as "timeout_secs" fun n s => { s with timeoutSecs := n }]

/-- The settings of the log in a document.  Here only the names of the formats count. -/
def loggingShape : Shape Logging :=
  .record .standard
    [Shape.text.as "level" fun t s => { s with level := t },
      (Shape.choice ([LogFormat.pretty, LogFormat.json].map fun f => (f.name, f))).as "format"
        fun f s => { s with format := f }]

def shape : Shape Settings :=
  .record standard
    [apiShape.as "api" fun a s => { s with api := a },
      Monitor.Settings.shape.as "monitor" fun m s => { s with monitor := m },
      loggingShape.as "logging" fun l s => { s with logging := l }]

def load (files : Files) (path : String) : Except Config.Error Settings := do
  let text ← (files path).mapError (.unreadable .watcher path)
  match shape.ofText? text with
  | none => .error (.malformed .watcher)
  | some s => .ok s

def usualPath : String := "/etc/abiquo/watch.yaml"

/-- The settings of the file that is named.  When none is named they are those of the usual file, or
the standard ones if that one gives none. -/
def find (files : Files) (path : Option String) : Except Config.Error Settings :=
  match path with
  | some path => load files path
  | none => .ok ((load files usualPath).toOption.getD standard)

/-! ## Overriding -/

def check (s : Settings) : Except Config.Error Unit := do
  s.api.check.mapError .apiPart
  s.monitor.check.mapError .monitorPart

def formatOf (name : Option String) : Except Config.Error (Option LogFormat) :=
  match name with
  | none => .ok none
  | some name =>
    match LogFormat.ofName? name with
    | some f => .ok (some f)
    | none => .error (.unknownLogFormat name)

/-- Settings with what the command line gives in the place of what they had before. -/
def withArguments (a : Arguments) (s : Settings) : Except Config.Error Settings := do
  let format ← formatOf a.logFormat
  let s : Settings :=
    { api :=
        { s.api with
          endpoint := a.endpoint.getD s.api.endpoint
          username := a.user.getD s.api.username
          password := a.password.getD s.api.password }
      monitor := { s.monitor with pollDelayMs := a.delayMs.getD s.monitor.pollDelayMs }
      logging := ⟨a.logLevel.getD s.logging.level, format.getD s.logging.format⟩ }
  s.check
  .ok s

/-- Settings with what the environment gives, and then what the command line gives. -/
def overriddenBy (env : Environment) (a : Arguments) (s : Settings) :
    Except Config.Error Settings := do
  let monitor ← s.monitor.overriddenBy env
  withArguments a { s with monitor }

end Settings
end TaskWatch.Watch
