import TaskWatch.Monitor.Outcome
import TaskWatch.Resource.Task

/-!
# Reports

One line for each task that was watched: its id, its operation, how watching it ended and its state,
with tabs between them, and then the jobs that failed, if any.
-/

namespace TaskWatch.Watch

open TaskWatch.Monitor (Outcome)
open TaskWatch.Resource

structure Report where
  task : RemoteTask
  outcome : Outcome
deriving DecidableEq, Repr

/-- A failed job, with its description if it has one. -/
def failedJobText (j : Job) : String :=
  if j.description = "" then j.id else j.id ++ " (" ++ j.description ++ ")"

namespace Report

def isSuccess (r : Report) : Bool := r.outcome == .completed

def failures (r : Report) : String :=
  match r.task.failedJobs with
  | [] => ""
  | jobs => "\tfailed jobs: " ++ ", ".intercalate (jobs.map failedJobText)

def line (r : Report) : String :=
  "\t".intercalate [r.task.id, r.task.operation.label, r.outcome.name, r.task.state.name] ++
    r.failures

end Report
end TaskWatch.Watch
