import TaskWatch.Monitor.Call

/-!
# Rounds of a call

A call has one round after another until it has ended.  The first round begins at time zero, and
each later one a delay after the one before.
-/

namespace TaskWatch.Monitor

/-- How many rounds begin before `maxWait`, the first one at time zero and the others `delay`
apart. -/
def roundsBefore (delay maxWait : Nat) : Nat := (maxWait + delay - 1) / delay

namespace Call

/-- At most `rounds` rounds of a call, until it has ended. -/
def pollRounds {σ T : Type} (check : Check σ T) : (rounds : Nat) → Call T → σ → Call T × σ
  | 0, c, s => (c, s)
  | rounds + 1, c, s =>
    if c.isFinished then (c, s)
    else
      let (c, s) := c.round check s
      pollRounds check rounds c s

/-- At most `rounds` rounds of a call, and then its deadline if objects are left. -/
def runOut {σ T : Type} (check : Check σ T) (rounds : Nat) (c : Call T) (s : σ) : Call T × σ :=
  let (c, s) := pollRounds check rounds c s
  (if c.isFinished then c else c.giveUp, s)

end Call
end TaskWatch.Monitor
