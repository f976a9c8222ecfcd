import TaskWatch.Resource.Link
import TaskWatch.Resource.State
import TaskWatch.Time.Instant

/-!
# Tasks and their jobs

A task is an operation that runs on the server, and its jobs are the steps of it.  Tasks come one by
one or as a page of a list.
-/

namespace TaskWatch.Resource

open TaskWatch.Json
open TaskWatch.Time (Instant)

structure Job where
  id : String
  kind : Option String
  state : JobState
  description : String
  /-- Milliseconds since the start of 1970. -/
  timestamp : Int64
deriving DecidableEq, Repr

/-- An operation that runs on the server. -/
structure RemoteTask where
  id : String
  /-- The resource that the task works on. -/
  ownerId : String
  /-- Who asked for the task. -/
  userId : String
  operation : Operation
  state : TaskState
  jobs : List Job
  /-- Milliseconds since the start of 1970. -/
  timestamp : Int64
  links : List Link
deriving DecidableEq, Repr

structure TaskPage where
  tasks : List RemoteTask
  /-- How many tasks the whole list has. -/
  total : Option UInt64
deriving DecidableEq, Repr

/-! ## Building and asking -/

namespace RemoteTask

/-- A task that has not been started. -/
def create (id : String) (operation : Operation) (timestamp : Int64) : RemoteTask :=
  ⟨id, "", "", operation, .pending, [], timestamp, []⟩

def withOwner (t : RemoteTask) (ownerId : String) : RemoteTask := { t with ownerId }

def withState (t : RemoteTask) (state : TaskState) : RemoteTask := { t with state }

def addLink (t : RemoteTask) (link : Link) : RemoteTask := { t with links := t.links ++ [link] }

def addJob (t : RemoteTask) (job : Job) : RemoteTask := { t with jobs := t.jobs ++ [job] }

def link (t : RemoteTask) (rel : String) : Option Link := findLink t.links rel

def selfLink (t : RemoteTask) : Option Link := t.link relSelf

/-- The time at which the task was created, if it has one that a calendar reaches. -/
def createdAt (t : RemoteTask) : Option Instant :=
  let millis := t.timestamp.toInt
  if 0 < millis ∧ millis ≤ Instant.last.millis then some ⟨millis.toNat⟩ else none

def failedJobs (t : RemoteTask) : List Job := t.jobs.filter (·.state.isFailure)

end RemoteTask

/-! ## Texts -/

def Job.record : Record Job where
  name := "Job"
  types := [String, Option String, JobState, String, Int64]
  fields :=
    .cons (.required "id" .text) <|
    .cons (.optional "type" .text) <|
    .cons (.required "state" JobState.codec) <|
    .cons (.withDefault "description" .text "") <|
    .cons (.withDefault "timestamp" .int64 0) .nil
  build := fun (id, kind, state, description, timestamp, _) =>
    ⟨id, kind, state, description, timestamp⟩
  parts := fun j => (j.id, j.kind, j.state, j.description, j.timestamp, ())

def Job.codec : Codec Job := .record Job.record

/-- A list of jobs as the only field of a record. -/
def jobsRecord : Record (List Job) where
  name := "Wrapper"
  types := [List Job]
  fields := .cons (.withDefault "collection" (.list Job.codec) []) .nil
  build := fun (jobs, _) => jobs
  parts := fun jobs => (jobs, ())

def RemoteTask.record : Record RemoteTask where
  name := "AsyncTask"
  types := [String, String, String, Operation, TaskState, List Job, Int64, List Link]
  fields :=
    .cons (.required "taskId" .text) <|
    .cons (.withDefault "ownerId" .text "") <|
    .cons (.withDefault "userId" .text "") <|
    .cons (.required "type" Operation.codec) <|
    .cons (.required "state" TaskState.codec) <|
    .cons (.withDefault "jobs" (.record jobsRecord) []) <|
    .cons (.withDefault "timestamp" .int64 0) <|
    .cons (.withDefault "links" (.list Link.codec) []) .nil
  build := fun (id, ownerId, userId, operation, state, jobs, timestamp, links, _) =>
    ⟨id, ownerId, userId, operation, state, jobs, timestamp, links⟩
  parts := fun t =>
    (t.id, t.ownerId, t.userId, t.operation, t.state, t.jobs, t.timestamp, t.links, ())

def RemoteTask.codec : Codec RemoteTask := .record RemoteTask.record

def TaskPage.record : Record TaskPage where
  name := "AsyncTasks"
  types := [List RemoteTask, Option UInt64]
  fields :=
    .cons (.withDefault "collection" (.list RemoteTask.codec) []) <|
    .cons (.withDefault "totalSize" (.optional .uint64) none) .nil
  build := fun (tasks, total, _) => ⟨tasks, total⟩
  parts := fun p => (p.tasks, p.total, ())

def TaskPage.codec : Codec TaskPage := .record TaskPage.record

end TaskWatch.Resource
