import TaskWatch.Monitor.Error

/-!
# Settings of a monitor

How long a monitor waits between two rounds of readings, and how many threads it may use.
-/

namespace TaskWatch.Monitor

structure Settings where
  /-- Milliseconds between two rounds. -/
  pollDelayMs : UInt64
  /-- How many threads may be used; none stands for one. -/
  maxThreads : UInt64
deriving DecidableEq, Repr

namespace Settings

def standard : Settings := ⟨5000, 10⟩

/-- There must be a delay between two rounds. -/
def check (s : Settings) : Except Error Unit :=
  if s.pollDelayMs = 0 then .error (.invalidConfig "poll_delay_ms must be greater than 0")
    else .ok ()

theorem check_eq_ok_iff {s : Settings} : s.check = .ok () ↔ s.pollDelayMs ≠ 0 := by
  unfold check
  split <;> simp_all

def workers (s : Settings) : Nat := max 1 s.maxThreads.toNat

end Settings
end TaskWatch.Monitor
