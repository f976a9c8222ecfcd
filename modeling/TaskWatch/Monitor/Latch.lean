/-!
# Countdown latches

A latch counts down to zero and lets its waiters go then.  A waiter looks at the count when it comes
and parks if it is not zero; each count-down wakes the parked waiters, and a waiter that was woken
looks again.
-/

namespace TaskWatch.Monitor

inductive Waiter where
  /-- About to look at the count. -/
  | awake
  | parked
  | gone
deriving DecidableEq, Repr

/-- A count with those who wait for it to be zero. -/
structure Latch where
  count : Nat
  waiters : List Waiter
deriving DecidableEq, Repr

namespace Latch

def start (count : Nat) : Latch := ⟨count, []⟩

def join (l : Latch) : Latch := { l with waiters := l.waiters ++ [.awake] }

def lookNow (count : Nat) : Waiter → Waiter
  | .awake => if count = 0 then .gone else .parked
  | w => w

def look (l : Latch) (i : Nat) : Latch := { l with waiters := l.waiters.modify i (lookNow l.count) }

def wake : Waiter → Waiter
  | .parked => .awake
  | w => w

/-- Counts down by one, not below zero, and wakes the waiters. -/
def countDown (l : Latch) : Latch := ⟨l.count - 1, l.waiters.map wake⟩

def countDownBy (l : Latch) : Nat → Latch
  | 0 => l
  | n + 1 => l.countDown.countDownBy n

def lookAll (l : Latch) : Latch := { l with waiters := l.waiters.map (lookNow l.count) }

/-- Several waiters come and look at the count. -/
def joinAll (l : Latch) : Nat → Latch
  | 0 => l.lookAll
  | n + 1 => l.join.joinAll n

def isOpen (l : Latch) : Bool := l.count == 0

def allGone (l : Latch) : Bool := l.waiters.all (· == .gone)

/-! ## The count -/

@[simp] theorem count_countDown (l : Latch) : l.countDown.count = l.count - 1 := rfl

theorem isOpen_iff {l : Latch} : l.isOpen = true ↔ l.count = 0 := beq_iff_eq

end Latch
end TaskWatch.Monitor
