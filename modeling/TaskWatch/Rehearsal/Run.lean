import TaskWatch.Api.Script
import TaskWatch.Monitor.Rounds
import TaskWatch.Monitor.Service

/-!
# Running a call against scripts

How many rounds a call can have before its deadline follows from the clock, and how many can matter
is `horizon`: after that many all scripts repeat their last states.
-/

namespace TaskWatch.Rehearsal

open TaskWatch.Api
open TaskWatch.Monitor

/-- How many readings a script takes until it repeats itself. -/
def scriptLength {S : Type} (s : Script S) : Nat := s.failures.toNat + s.upcoming.length + 1

/-- The number of readings after which all scripts repeat themselves. -/
def horizon (s : Scripts) : Nat :=
  max ((s.tasks.map fun t => scriptLength t.script).foldl max 1)
    ((s.machines.map fun m => scriptLength m.2).foldl max 1)

/-- The fewest rounds that are tried of a call with a deadline. -/
def patience : Nat := 1000

def roundLimit (delay : Nat) (maxWait : Option Nat) (s : Scripts) : Nat :=
  match maxWait with
  | none => horizon s
  | some w => min (roundsBefore delay w) (max (horizon s) patience)

/-- A call with all its rounds, and its deadline if objects are left then. -/
def runToEnd {T : Type} (check : Check Scripts T) (delay : Nat) (maxWait : Option Nat) (c : Call T)
    (s : Scripts) : Call T × Scripts := c.runOut check (roundLimit delay maxWait s) s

end TaskWatch.Rehearsal
