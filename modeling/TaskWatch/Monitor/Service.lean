import TaskWatch.Monitor.Bus
import TaskWatch.Monitor.Call
import TaskWatch.Monitor.Latch
import TaskWatch.Monitor.Settings

/-!
# The service

A service starts calls and broadcasts their notices.  A caller may go on at once, or wait until all
objects have ended.  One that waits is let go by a latch, which each callback counts down, and sees
before that whether the service has been closed.
-/

namespace TaskWatch.Monitor

/-- A service whose notices name their sources in `ι`. -/
structure Service (ι : Type) where
  settings : Settings
  closed : Bool
  bus : Bus String (Notice ι)

/-! ## Waiting -/

/-- A call with a caller who waits for it. -/
structure Await (T : Type) where
  call : Call T
  latch : Latch

namespace Await

variable {T : Type}

def start (c : Call T) : Await T := ⟨c, .start c.remaining⟩

/-- The caller is told of one end, which counts the latch down. -/
def deliver (i : Nat) (a : Await T) : Await T :=
  if i < a.call.pending.length then ⟨a.call.deliver i, a.latch.countDown⟩ else a

/-- A change to the call that tells the caller of some ends. -/
def follow (a : Await T) (c : Call T) : Await T :=
  ⟨c, a.latch.countDownBy (c.delivered.length - a.call.delivered.length)⟩

/-- What the caller gets, if it is let go: `waited` says that its own time is over. -/
def result (closed waited : Bool) (a : Await T) : Option (Except Error Unit) :=
  if closed then some (.error .closed)
  else if a.latch.isOpen || waited then some (.ok ())
  else none

end Await

namespace Service

variable {ι T : Type} [Watchable T]

def start (settings : Settings) : Except Error (Service ι) := do
  settings.check
  .ok ⟨settings, false, .start⟩

def close (s : Service ι) : Service ι := { s with closed := true }

/-- Checks the objects of a call and the time it may take. -/
def accept (targets : List T) (maxWait : Option Nat) : Except Error (List (Entry T)) :=
  if targets.isEmpty then .error .noTargets
  else if maxWait = some 0 then .error (.invalidArgument "max wait must be greater than zero")
  else .ok (Call.collect targets)

theorem accept_eq_ok_iff {targets : List T} {maxWait : Option Nat} {active : List (Entry T)} :
    accept targets maxWait = .ok active ↔
      targets ≠ [] ∧ maxWait ≠ some 0 ∧ active = Call.collect targets := by
  unfold accept
  by_cases ht : targets = []
  · simp [ht]
  · by_cases hw : maxWait = some 0
    · simp [ht, hw]
    · rw [if_neg (by simpa using ht), if_neg hw]
      exact ⟨fun h => ⟨ht, hw, (Except.ok.inj h).symm⟩, fun h => h.2.2 ▸ rfl⟩

/-- Starts a call, which has to come to an end within `maxWait` milliseconds if a time is given. -/
def watch (s : Service ι) (targets : List T) (maxWait : Option Nat) : Except Error (Call T) := do
  let active ← accept targets maxWait
  let call := (Call.prepare active maxWait.isSome).launch s.closed
  if call.opening = .refused then .error .closed else .ok call

/-- Waits for a call; `run` says what comes of it. -/
def await {β : Type} (s : Service ι) (targets : List T) (maxWait : Option Nat)
    (run : Await T → Except Error β) : Except Error β := do
  run (.start (← s.watch targets maxWait))

/-- Waits for a call and holds the thread up, which must not be done from within a runtime. -/
def awaitBlocking {β : Type} (s : Service ι) (insideRuntime : Bool) (targets : List T)
    (maxWait : Option Nat) (run : Await T → Except Error β) : Except Error β :=
  if insideRuntime then .error .blockingInAsyncContext
  else if s.closed then .error .closed
  else s.await targets maxWait run

def notices (source : ι) (c : Call T) : List (Notice ι) :=
  c.published.map fun d => ⟨source, d.key, d.outcome⟩

def broadcast (s : Service ι) (news : List (Notice ι)) : Service ι :=
  { s with bus := s.bus.publishAll news }

end Service
end TaskWatch.Monitor
