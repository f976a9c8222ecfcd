import TaskWatch.Json.Codec

/-!
# States and kinds of resources

The states of tasks, jobs and machines and the operations that tasks carry out, with the names they
have in messages.  A task in a final state changes no more.
-/

namespace TaskWatch.Resource

open TaskWatch.Json

inductive TaskState where
  | pending
  | started
  | finishedSuccessfully
  | finishedUnsuccessfully
deriving DecidableEq, Repr

namespace TaskState

def isFinal : TaskState → Bool
  | pending | started => false
  | finishedSuccessfully | finishedUnsuccessfully => true

def isSuccess (s : TaskState) : Bool := s == finishedSuccessfully

def choice : Choice TaskState where
  names := [(pending, "PENDING"), (started, "STARTED"),
    (finishedSuccessfully, "FINISHED_SUCCESSFULLY"),
    (finishedUnsuccessfully, "FINISHED_UNSUCCESSFULLY")]
  other := none

def name (s : TaskState) : String := choice.name s

def codec : Codec TaskState := .choice choice

end TaskState

inductive Operation where
  | deploy
  | undeploy
  | reconfigure
  | powerOn
  | powerOff
  | pause
  | resume
  | reset
  | snapshot
  | createInstance
  /-- Every operation without a name of its own here. -/
  | unknown
deriving DecidableEq, Repr

namespace Operation

def choice : Choice Operation where
  names := [(deploy, "DEPLOY"), (undeploy, "UNDEPLOY"), (reconfigure, "RECONFIGURE"),
    (powerOn, "POWER_ON"), (powerOff, "POWER_OFF"), (pause, "PAUSE"), (resume, "RESUME"),
    (reset, "RESET"), (snapshot, "SNAPSHOT"), (createInstance, "INSTANCE"), (unknown, "UNKNOWN")]
  other := some unknown

def codec : Codec Operation := .choice choice

/-- The word for an operation in a report. -/
def label : Operation → String
  | deploy => "Deploy"
  | undeploy => "Undeploy"
  | reconfigure => "Reconfigure"
  | powerOn => "PowerOn"
  | powerOff => "PowerOff"
  | pause => "Pause"
  | resume => "Resume"
  | reset => "Reset"
  | snapshot => "Snapshot"
  | createInstance => "Instance"
  | unknown => "Unknown"

end Operation

inductive JobState where
  | pending
  | started
  | done
  | failed
  | rollbackDone
  | rollbackFailed
  /-- Every state without a name of its own here. -/
  | unknown
deriving DecidableEq, Repr

namespace JobState

def isFailure (s : JobState) : Bool := s == failed || s == rollbackFailed

def choice : Choice JobState where
  names := [(pending, "PENDING"), (started, "STARTED"), (done, "DONE"), (failed, "FAILED"),
    (rollbackDone, "ROLLBACK_DONE"), (rollbackFailed, "ROLLBACK_FAILED"), (unknown, "UNKNOWN")]
  other := some unknown

def codec : Codec JobState := .choice choice

def label : JobState → String
  | pending => "Pending"
  | started => "Started"
  | done => "Done"
  | failed => "Failed"
  | rollbackDone => "RollbackDone"
  | rollbackFailed => "RollbackFailed"
  | unknown => "Unknown"

end JobState

inductive MachineState where
  | notAllocated
  | allocated
  | configured
  | on
  | paused
  | off
  | locked
  | unknown
deriving DecidableEq, Repr

namespace MachineState

def choice : Choice MachineState where
  names := [(notAllocated, "NOT_ALLOCATED"), (allocated, "ALLOCATED"), (configured, "CONFIGURED"),
    (on, "ON"), (paused, "PAUSED"), (off, "OFF"), (locked, "LOCKED"), (unknown, "UNKNOWN")]
  other := none

def name (s : MachineState) : String := choice.name s

def codec : Codec MachineState := .choice choice

end MachineState
end TaskWatch.Resource
