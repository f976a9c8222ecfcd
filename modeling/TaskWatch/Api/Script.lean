import TaskWatch.Api.Backend
import TaskWatch.Text.Trim

/-!
# A backend that follows scripts

Each task and each machine has a script of states.  A reading takes the next state of it, and
repeats the last one when none is left, so that a final state stays.  A script can also be told to
fail for a number of readings, which take no state.  Counts of readings have 32 bits and wrap
around.
-/

namespace TaskWatch.Api

open TaskWatch.Resource
open TaskWatch.Text

/-- A row of states to be read one after another. -/
structure Script (S : Type) where
  upcoming : List S
  /-- The state read last, or the one before the first reading. -/
  current : S
  /-- How many readings are to fail before the next one succeeds. -/
  failures : UInt32
  /-- How many readings there were, failed ones included. -/
  reads : UInt32
deriving DecidableEq, Repr

namespace Script

variable {S : Type}

def start (initial : S) (states : List S) : Script S := ⟨states, initial, 0, 0⟩

/-- Makes `count` more readings fail. -/
def fail (count : UInt32) (s : Script S) : Script S := { s with failures := s.failures + count }

/-- One reading: the state it gives, if any, and the script afterwards. -/
def read (s : Script S) : Option S × Script S :=
  if s.failures = 0 then
    match s.upcoming with
    | [] => (some s.current, { s with reads := s.reads + 1 })
    | x :: rest => (some x, { s with upcoming := rest, current := x, reads := s.reads + 1 })
  else (none, { s with failures := s.failures - 1, reads := s.reads + 1 })

@[simp] theorem reads_read (s : Script S) : s.read.2.reads = s.reads + 1 := by
  unfold read
  split
  · split <;> rfl
  · rfl

end Script

structure ScriptedTask where
  task : RemoteTask
  script : Script TaskState
deriving DecidableEq, Repr

/-- The scripts of tasks and machines, one for each id. -/
structure Scripts where
  tasks : List ScriptedTask
  machines : List (UInt32 × Script MachineState)
deriving DecidableEq, Repr

namespace Scripts

def empty : Scripts := ⟨[], []⟩

/-! ## Tasks -/

def task? (s : Scripts) (id : String) : Option ScriptedTask := s.tasks.find? (·.task.id == id)

def putTask (s : Scripts) (t : ScriptedTask) : Scripts :=
  { s with tasks := t :: s.tasks.filter (·.task.id != t.task.id) }

def scriptTask (s : Scripts) (t : RemoteTask) (states : List TaskState) : Scripts :=
  s.putTask ⟨t, .start t.state states⟩

def unknownTask (id : String) : Error := .notFound ("task " ++ id)

def failTask (s : Scripts) (id : String) (count : UInt32) : Except Error Scripts :=
  match s.task? id with
  | none => .error (unknownTask id)
  | some t => .ok (s.putTask { t with script := t.script.fail count })

def taskReads (s : Scripts) (id : String) : UInt32 := ((s.task? id).map (·.script.reads)).getD 0

def scriptedFailure (what : String) : Error := .unavailable ("scripted failure reading " ++ what)

def readTask (t : RemoteTask) : Answer Scripts RemoteTask := fun s =>
  match s.task? t.id with
  | none => (.error (unknownTask t.id), s)
  | some found =>
    match found.script.read with
    | (none, script) => (.error (scriptedFailure t.id), s.putTask { found with script })
    | (some state, script) =>
      let task := found.task.withState state
      (.ok task, s.putTask ⟨task, script⟩)

/-! ## Machines -/

def machine? (s : Scripts) (id : UInt32) : Option (Script MachineState) := s.machines.lookup id

def putMachine (s : Scripts) (id : UInt32) (script : Script MachineState) : Scripts :=
  { s with machines := (id, script) :: s.machines.filter (·.1 != id) }

def scriptMachine (s : Scripts) (m : Machine) (states : List MachineState) : Scripts :=
  s.putMachine m.id (.start m.state states)

def unknownMachine (id : UInt32) : Error := .notFound ("virtual machine " ++ Machine.idText id)

def failMachine (s : Scripts) (id : UInt32) (count : UInt32) : Except Error Scripts :=
  match s.machine? id with
  | none => .error (unknownMachine id)
  | some script => .ok (s.putMachine id (script.fail count))

def machineReads (s : Scripts) (id : UInt32) : UInt32 := ((s.machine? id).map (·.reads)).getD 0

def readState (m : Machine) : Answer Scripts MachineState := fun s =>
  match s.machine? m.id with
  | none => (.error (unknownMachine m.id), s)
  | some script =>
    match script.read with
    | (none, script) => (.error (scriptedFailure m.name), s.putMachine m.id script)
    | (some state, script) => (.ok state, s.putMachine m.id script)

/-! ## Lists -/

/-- Whether the parent of a task is the list of tasks of an owner. -/
def isOwnedBy (owner : String) (t : RemoteTask) : Bool :=
  match t.link relParent with
  | none => false
  | some link => trimEndWord "/tasks" link.href == trimEndSlashes owner

/-- Tasks in the order of their times.  Of those with the same time any order is possible; here they
are put in the order of their ids, so that lists can be compared. -/
def earlier (a b : RemoteTask) : Bool :=
  if a.timestamp = b.timestamp then a.id ≤ b.id else a.timestamp ≤ b.timestamp

def tasksOf (owner : String) : Answer Scripts (List RemoteTask) := fun s =>
  (.ok (((s.tasks.map (·.task)).filter (isOwnedBy owner)).mergeSort earlier), s)

def backend : Backend Scripts := ⟨readTask, readState, tasksOf⟩

end Scripts
end TaskWatch.Api
