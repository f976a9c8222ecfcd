import TaskWatch.Api.Backend
import TaskWatch.Monitor.Outcome

/-!
# Reading and judging

What can be watched has a key, by which a call tells its objects apart.  A check reads an object
again and judges the reading: a task is done or has failed by its final state, a machine is done in
the state that is waited for and has failed when its state is unknown.
-/

namespace TaskWatch.Monitor

open TaskWatch.Api
open TaskWatch.Resource

class Watchable (T : Type) where
  key : T → String

instance : Watchable RemoteTask := ⟨RemoteTask.id⟩

instance : Watchable Machine := ⟨fun m => Machine.idText m.id⟩

/-- Reads an object again and judges it. -/
abbrev Check (σ T : Type) := T → Answer σ (T × Verdict)

def taskVerdict : TaskState → Verdict
  | .finishedSuccessfully => .done
  | .finishedUnsuccessfully => .failed
  | .pending | .started => .unfinished

/-- What the state of a machine says when `goal` is waited for. -/
def machineVerdict (goal state : MachineState) : Verdict :=
  if state = goal then .done else if state = .unknown then .failed else .unfinished

def deployed : MachineState := .on

def undeployed : MachineState := .notAllocated

def taskCheck {σ : Type} (b : Backend σ) : Check σ RemoteTask := fun t s =>
  let (r, s) := b.readTask t s
  (r.map fun fresh => (fresh, taskVerdict fresh.state), s)

/-- Reads and judges a machine that is to come to the state `goal`. -/
def machineCheck {σ : Type} (b : Backend σ) (goal : MachineState) : Check σ Machine := fun m s =>
  let (r, s) := b.readState m s
  (r.map fun state => ({ m with state }, machineVerdict goal state), s)

theorem toOption_map {ε α β : Type} (f : α → β) (r : Except ε α) :
    (r.map f).toOption = r.toOption.map f := by
  cases r <;> rfl

end TaskWatch.Monitor
