/-!
# How watching ends

Each reading of a watched object is judged, and each object ends in one of three ways.
-/

namespace TaskWatch.Monitor

inductive Verdict where
  | done
  | failed
  /-- The object has to be read again. -/
  | unfinished
deriving DecidableEq, Repr

inductive Outcome where
  | completed
  | failed
  /-- Watching was given up. -/
  | timeout
deriving DecidableEq, Repr

namespace Verdict

def isFinal (v : Verdict) : Bool := v != unfinished

def name : Verdict → String
  | done => "done"
  | failed => "failed"
  | unfinished => "continue"

def outcome? : Verdict → Option Outcome
  | done => some .completed
  | failed => some .failed
  | unfinished => none

end Verdict

def Outcome.name : Outcome → String
  | .completed => "completed"
  | .failed => "failed"
  | .timeout => "timeout"

end TaskWatch.Monitor
