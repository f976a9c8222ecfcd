import TaskWatch.Api.Error
import TaskWatch.Resource.Machine
import TaskWatch.Resource.Task

/-!
# Sources of readings

A backend answers three questions about the resources of a server.  Each answer is a fresh reading
and may change the state of the backend.
-/

namespace TaskWatch.Api

open TaskWatch.Resource

abbrev Answer (σ α : Type) := σ → Except Error α × σ

/-- A source of readings with states in `σ`. -/
structure Backend (σ : Type) where
  readTask : RemoteTask → Answer σ RemoteTask
  readState : Machine → Answer σ MachineState
  /-- The tasks of the resource with an address. -/
  tasksOf : String → Answer σ (List RemoteTask)

end TaskWatch.Api
