import TaskWatch.Api.Client
import TaskWatch.Monitor.Rounds
import TaskWatch.Monitor.Service
import TaskWatch.Watch.Report
import TaskWatch.Watch.Settings

/-!
# Watching tasks to their ends

A run fetches the tasks behind some links, watches them and has one report for each task.  Two links
may lead to the same task.  A run fails when a task cannot be fetched, and also when a task did not
complete.
-/

namespace TaskWatch.Watch

open TaskWatch.Api (Client Network)
open TaskWatch.Monitor
open TaskWatch.Resource

inductive Failure where
  | config (cause : Config.Error)
  | client (cause : Api.Error)
  | fetch (href : String) (cause : Api.Error)
  | monitor (cause : Monitor.Error)
  /-- So many tasks did not complete. -/
  | unsuccessful (count : Nat)
deriving DecidableEq, Repr

namespace Failure

def message : Failure → String
  | config cause => cause.message
  | client _ => "Failed to create API client"
  | fetch href _ => "Failed to fetch task " ++ href
  | monitor cause => cause.message
  | unsuccessful count =>
    Decimal.natText count ++ " task(s) did not complete successfully"

/-- The cause of a failure, unless the failure is its own. -/
def cause? : Failure → Option String
  | config cause => cause.cause?
  | client cause | fetch _ cause => cause.message?
  | monitor _ | unsuccessful _ => none

end Failure

/-! ## Fetching -/

/-- Fetches the tasks behind links, up to the first one that cannot be fetched. -/
def fetchTasks {σ : Type} (net : Network σ) (c : Client) :
    List String → σ → Except Failure (List RemoteTask) × σ
  | [], s => (.ok [], s)
  | href :: rest, s =>
    match c.fetchTask net href s with
    | (.error e, s) => (.error (.fetch href e), s)
    | (.ok t, s) =>
      let (ts, s) := fetchTasks net c rest s
      (ts.map (t :: ·), s)

/-! ## Watching -/

/-- How many different tasks there are. -/
def taskCount (ts : List RemoteTask) : Nat := (ts.map (·.id)).eraseDups.length

structure Tally where
  /-- One report for each task that has ended. -/
  reports : List Report
  /-- How many tasks have none. -/
  missing : Nat
deriving DecidableEq, Repr

namespace Tally

def ofCall (ts : List RemoteTask) (c : Call RemoteTask) : Tally :=
  let reports := (c.delivered.take (taskCount ts)).map fun d => ⟨d.target, d.outcome⟩
  ⟨reports, taskCount ts - reports.length⟩

def failures (t : Tally) : Nat := (t.reports.filter (!·.isSuccess)).length + t.missing

def lines (t : Tally) : List String := t.reports.map (·.line)

end Tally

def maxWaitMs (a : Arguments) : Option Nat := a.maxWaitSecs.map fun n => n.toNat * 1000

/-- Watches tasks until all have ended, or the deadline comes, or there have been `rounds`
rounds. -/
def watchTasks {σ : Type} (net : Network σ) (c : Client) (s : Monitor.Settings)
    (maxWait : Option Nat)
    (rounds : Nat) (ts : List RemoteTask) (w : σ) : Except Failure Tally × σ :=
  match (Service.start s : Except Error (Service Unit)) >>= fun v => v.watch ts maxWait with
  | .error e => (.error (.monitor e), w)
  | .ok call =>
    let limit :=
      match maxWait with
      | none => rounds
      | some m => min rounds (roundsBefore s.pollDelayMs.toNat m)
    let (call, w) := call.runOut (taskCheck (c.backend net)) limit w
    (.ok (.ofCall ts call), w)

def runWith {σ : Type} (net : Network σ) (rounds : Nat) (s : Settings) (a : Arguments) (w : σ) :
    Except Failure Tally × σ :=
  match Client.connect s.api with
  | .error e => (.error (.client e), w)
  | .ok c =>
    match fetchTasks net c a.tasks w with
    | (.error e, w) => (.error e, w)
    | (.ok ts, w) => watchTasks net c s.monitor (maxWaitMs a) rounds ts w

end TaskWatch.Watch
