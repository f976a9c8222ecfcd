/-!
# Why objects cannot be watched

What is wrong with a request to watch objects, and the words for it.  Once objects are watched,
nothing is an error any more: readings that fail are repeated, and the end of each object is told.
-/

namespace TaskWatch.Monitor

inductive Error where
  | noTargets
  | invalidArgument (why : String)
  | invalidConfig (why : String)
  /-- A caller that must not be held up asked to be. -/
  | blockingInAsyncContext
  | closed
  | runtime (why : String)
deriving DecidableEq, Repr

def Error.message : Error → String
  | .noTargets => "At least one object must be monitored"
  | .invalidArgument why => "Invalid argument: " ++ why
  | .invalidConfig why => "Invalid configuration: " ++ why
  | .blockingInAsyncContext =>
    "Blocking wait called from within an async runtime; use the async variant"
  | .closed => "Scheduler is closed"
  | .runtime why => "Failed to start scheduler runtime: " ++ why

end TaskWatch.Monitor
