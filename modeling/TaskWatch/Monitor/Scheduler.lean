import TaskWatch.Decimal.Digits
import TaskWatch.Monitor.Error

/-!
# Scheduling

A scheduler runs jobs after a delay, once or again and again with a delay after each run.  A job
ends by itself, by being cancelled, or when the scheduler is closed.  Time passes by `pass`, one
millisecond at a time; what an action does is not told here, only which of its runs says that it was
the last.
-/

namespace TaskWatch.Monitor

open TaskWatch.Decimal (natText)

structure ScheduledJob where
  /-- Milliseconds up to the next run. -/
  wait : Nat
  /-- Milliseconds between two runs. -/
  delay : Nat
  /-- Whether the action breaks off in the run with this number, counted from one. -/
  breaks : Nat → Bool
  /-- How many runs there were. -/
  runs : Nat
  finished : Bool

namespace ScheduledJob

/-- A job that runs again and again until its action breaks off. -/
def fixedDelay (initial delay : Nat) (breaks : Nat → Bool) : ScheduledJob :=
  ⟨initial, delay, breaks, 0, false⟩

/-- A job that runs again and again, up to the run with a number if there is one. -/
def repeating (initial delay : Nat) (stopsAt : Option Nat) : ScheduledJob :=
  fixedDelay initial delay fun n => stopsAt == some n

def once (delay : Nat) : ScheduledJob := fixedDelay delay 0 fun _ => true

def run (j : ScheduledJob) : ScheduledJob :=
  { j with wait := j.delay, runs := j.runs + 1, finished := j.breaks (j.runs + 1) }

/-- One millisecond passes.  A job that is due runs, unless it is held up because no worker is
free. -/
def pass (heldUp : Bool) (j : ScheduledJob) : ScheduledJob :=
  if j.finished then j
  else if 1 < j.wait then { j with wait := j.wait - 1 }
  else if heldUp then j
  else j.run

def cancel (j : ScheduledJob) : ScheduledJob := { j with finished := true }

end ScheduledJob

structure Scheduler where
  workers : Nat
  /-- The jobs with their names, in the order in which they were scheduled.  A job's number is its
  handle. -/
  jobs : List (String × ScheduledJob)
  /-- Whether the pool of workers is gone. -/
  closed : Bool
  /-- Whether those who wait for the end have been told. -/
  announced : Bool

namespace Scheduler

/-- A scheduler with at least one worker thread. -/
def start (maxThreads : Nat) : Scheduler := ⟨max 1 maxThreads, [], false, false⟩

/-- The number of the job that was scheduled last under a name. -/
def number? (s : Scheduler) (name : String) : Option Nat :=
  (s.jobs.reverse.findIdx? (·.1 == name)).map (s.jobs.length - 1 - ·)

def job? (s : Scheduler) (name : String) : Option ScheduledJob :=
  ((s.number? name).bind (s.jobs[·]?)).map (·.2)

/-- Adds a job, whose number is that of the jobs before it. -/
def schedule (s : Scheduler) (name : String) (job : ScheduledJob) : Except Error Scheduler :=
  if s.closed then .error .closed
  else .ok { s with jobs := s.jobs ++ [(name, job)] }

/-- One millisecond passes, in which some jobs may be held up. -/
def pass (heldUp : Nat → Bool) (s : Scheduler) : Scheduler :=
  { s with jobs := s.jobs.mapIdx fun k entry => (entry.1, entry.2.pass (heldUp k)) }

/-- One millisecond passes in which a worker is free for each job. -/
def tick (s : Scheduler) : Scheduler := s.pass fun _ => false

/-- Time passes until a test holds, but no more than `patience` milliseconds. -/
def waitUntil (test : Scheduler → Bool) : (patience : Nat) → Scheduler → Scheduler
  | 0, s => s
  | patience + 1, s => if test s then s else waitUntil test patience s.tick

def cancelAt (s : Scheduler) (k : Nat) : Scheduler :=
  { s with jobs := s.jobs.modify k fun entry => (entry.1, entry.2.cancel) }

def cancel (s : Scheduler) (name : String) : Scheduler :=
  match s.number? name with
  | some k => s.cancelAt k
  | none => s

/-- Tells those who wait for the end, then stops all jobs.  It is done once. -/
def close (s : Scheduler) : Scheduler :=
  if s.closed then s
  else { s with
    announced := true
    jobs := s.jobs.map fun entry => (entry.1, entry.2.cancel)
    closed := true }

def description (s : Scheduler) : String :=
  "Scheduler \x7b worker_threads: " ++ natText s.workers ++ ", closed: "
    ++ (if s.closed then "true" else "false") ++ " \x7d"

end Scheduler
end TaskWatch.Monitor
