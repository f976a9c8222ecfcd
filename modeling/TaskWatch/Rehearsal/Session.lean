import TaskWatch.Rehearsal.Run

/-!
# Rehearsals

A rehearsal has scripts to read from and a service with calls that are named.  Rounds happen when
they are asked for, and a deadline comes when it is told to.  Waiting for a call lets it have all
its rounds at once.
-/

namespace TaskWatch.Rehearsal

open TaskWatch.Api (Scripts)
open TaskWatch.Monitor
open TaskWatch.Resource

inductive Refusal where
  | noService
  | noCall
  | noSubscriber
  | noDeadline
  | serviceClosed
  /-- The next round is too far away. -/
  | noRound
  /-- The call would go on for ever. -/
  | endless
  | refused (why : Error)
deriving DecidableEq, Repr

inductive Subject where
  | task (t : RemoteTask)
  | machine (m : Machine)
deriving DecidableEq, Repr

/-- The objects of a call, all of one kind. -/
inductive Targets where
  | tasks (ts : List RemoteTask)
  | machines (goal : MachineState) (ms : List Machine)

inductive AnyCall where
  | tasks (c : Call RemoteTask)
  | machines (goal : MachineState) (c : Call Machine)

/-- A call with what has been asked about it. -/
structure NamedCall where
  call : AnyCall
  maxWait : Option Nat
  /-- How many rounds it has had. -/
  rounds : Nat
  /-- How many ends have been reported. -/
  reported : Nat
  /-- How many services there were before the one that runs it. -/
  era : Nat

/-- A bus for the notices of named calls.  The notices of a call that somebody waits for have no
name. -/
abbrev NoticeBus := Bus String (Notice (Option String))

structure Session where
  scripts : Scripts
  service : Option (Service (Option String))
  /-- The buses of services that others have taken the place of.  Their subscribers stay. -/
  pastBuses : List NoticeBus
  calls : List (String × NamedCall)

/-- How far a call has come, with the ends since the last report. -/
structure Progress where
  remaining : Nat
  finished : Bool
  events : List (Outcome × Subject)
deriving DecidableEq, Repr

/-- How an object ended that was waited for, and how often it has been read, where the clock does
not decide that. -/
structure Ending where
  key : String
  outcome : Outcome
  reads : Option UInt32
deriving DecidableEq, Repr

/-! ## Calls of either kind -/

def byKey {T : Type} (ds : List (Delivery T)) : List (Delivery T) :=
  ds.mergeSort fun a b => a.key ≤ b.key

namespace AnyCall

def remaining : AnyCall → Nat
  | .tasks c => c.remaining
  | .machines _ c => c.remaining

/-- The ends that the caller has been told of, but for the first `n`, in the order of their keys. -/
def endsAfter (n : Nat) : AnyCall → List (Outcome × Subject)
  | .tasks c => (byKey (c.delivered.drop n)).map fun d => (d.outcome, .task d.target)
  | .machines _ c => (byKey (c.delivered.drop n)).map fun d => (d.outcome, .machine d.target)

def told : AnyCall → Nat
  | .tasks c => c.delivered.length
  | .machines _ c => c.delivered.length

def round (s : Scripts) : AnyCall → AnyCall × Scripts
  | .tasks c => let (c, s) := c.round (taskCheck Scripts.backend) s; (.tasks c, s)
  | .machines goal c =>
    let (c, s) := c.round (machineCheck Scripts.backend goal) s; (.machines goal c, s)

def giveUp : AnyCall → AnyCall
  | .tasks c => .tasks c.giveUp
  | .machines goal c => .machines goal c.giveUp

def notices (source : Option String) : AnyCall → List (Notice (Option String))
  | .tasks c => Service.notices source c
  | .machines _ c => Service.notices source c

end AnyCall

namespace Session

def empty : Session := ⟨.empty, none, [], []⟩

/-- How many services there were before the present one. -/
def era (s : Session) : Nat := s.pastBuses.length

/-- Starts a service, which takes the place of the one before it.  The calls of that one end where
they are. -/
def startService (s : Session) (settings : Settings) : Except Error Session := do
  let v ← Service.start settings
  .ok { s with
    service := some v
    pastBuses := (s.service.map (·.bus.close)).toList ++ s.pastBuses }

def call? (s : Session) (name : String) : Except Refusal NamedCall :=
  match s.calls.lookup name with
  | some c => .ok c
  | none => .error .noCall

def service? (s : Session) : Except Refusal (Service (Option String)) :=
  match s.service with
  | some v => .ok v
  | none => .error .noService

def putCall (s : Session) (name : String) (c : NamedCall) : Session :=
  { s with calls := (name, c) :: s.calls.filter (·.1 != name) }

/-- Broadcasts the notices that a call has given since an earlier state of it. -/
def broadcast (s : Session) (source : Option String) (before after : AnyCall) : Session :=
  let news := (after.notices source).drop (before.notices source).length
  { s with service := s.service.map (·.broadcast news) }

/-- Subscribes to the notices of the service, and no longer to those of an earlier one. -/
def subscribe (s : Session) (who : String) : Except Refusal Session := do
  let v ← s.service?
  .ok { s with
    service := some { v with bus := v.bus.subscribe who }
    pastBuses := s.pastBuses.map (·.leave who) }

/-- What waits for a subscriber on the one of some buses that it listens to. -/
def drainFirst (who : String) :
    List NoticeBus → Option (List (Received (Notice (Option String))) × List NoticeBus)
  | [] => none
  | b :: rest =>
    match b.drain who with
    | some (got, b) => some (got, b :: rest)
    | none => (drainFirst who rest).map fun (got, rest) => (got, b :: rest)

/-- What waits for a subscriber, whichever service it listens to. -/
def received? (s : Session) (who : String) :
    Option (List (Received (Notice (Option String))) × Session) :=
  let current := s.service.bind fun v =>
    (v.bus.drain who).map fun (got, bus) => (got, { s with service := some { v with bus } })
  current.or ((drainFirst who s.pastBuses).map fun (got, pastBuses) => (got, { s with pastBuses }))

def notices (s : Session) (who : String) :
    Except Refusal ((Nat × List (Notice (Option String))) × Session) :=
  match s.received? who with
  | none => .error .noSubscriber
  | some (got, s) =>
    let missed := got.foldl (fun n r => match r with | .lagged m => n + m | _ => n) 0
    let messages := got.filterMap fun r => match r with | .message m => some m | _ => none
    let sorted := messages.mergeSort fun a b =>
      if a.key = b.key then (a.source.getD "") ≤ (b.source.getD "") else a.key ≤ b.key
    .ok ((missed, sorted), s)

def close (s : Session) : Except Refusal Session := do
  let v ← s.service?
  .ok { s with service := some v.close }

def watch (s : Session) (name : String) (targets : Targets) (maxWait : Option Nat) :
    Except Refusal (AnyCall × Session) := do
  let v ← s.service?
  let call ←
    match targets with
    | .tasks ts => ((v.watch ts maxWait).mapError .refused).map AnyCall.tasks
    | .machines goal ms => ((v.watch ms maxWait).mapError .refused).map (AnyCall.machines goal)
  .ok (call, s.putCall name ⟨call, maxWait, 0, 0, s.era⟩)

def report (s : Session) (name : String) (c : NamedCall) : Progress × Session :=
  (⟨c.call.remaining, c.call.remaining == 0, c.call.endsAfter c.reported⟩,
    s.putCall name { c with reported := c.call.told })

/-- Puts a call in its new state and reports on it. -/
def follow (s : Session) (name : String) (before after : NamedCall) : Progress × Session :=
  (s.broadcast (some name) before.call after.call).report name after

/-- The delay up to which further rounds can be asked for, and the longest time after which a
deadline can be told to come. -/
def reach : Nat := 1000

/-- A call, with the service unless that is closed. -/
def running? (s : Session) (name : String) :
    Except Refusal (NamedCall × Service (Option String)) := do
  let c ← s.call? name
  let v ← s.service?
  if v.closed then .error .serviceClosed else .ok (c, v)

def tick (s : Session) (name : String) : Except Refusal (Progress × Session) := do
  let (c, v) ← s.running? name
  if c.call.remaining = 0 then .ok (s.report name c)
  else if 0 < c.rounds ∧ reach < v.settings.pollDelayMs.toNat then .error .noRound
  else if c.era ≠ s.era then .ok (s.report name c)
  else
    let (call, scripts) := c.call.round s.scripts
    .ok ({ s with scripts }.follow name c { c with call, rounds := c.rounds + 1 })

/-- Several rounds of a call that runs.  One that cannot be had takes the place of all reports. -/
def tickTimes (name : String) : (times : Nat) → Session → Except Refusal (List Progress) × Session
  | 0, s => (.ok [], s)
  | times + 1, s =>
    match s.tick name with
    | .error e => (.error e, s)
    | .ok (p, s) =>
      let (rest, s) := tickTimes name times s
      (rest.map (p :: ·), s)

/-- Several rounds of a call.  It has to run even if there are to be none. -/
def ticks (name : String) (times : Nat) (s : Session) : Except Refusal (List Progress) × Session :=
  match s.running? name with
  | .error e => (.error e, s)
  | .ok _ => tickTimes name times s

def expire (s : Session) (name : String) : Except Refusal (Progress × Session) := do
  let c ← s.call? name
  match c.maxWait with
  | none => .error .noDeadline
  | some w =>
    let v ← s.service?
    if reach < w then .error .noDeadline
    else if v.closed then .error .serviceClosed
    else if c.era ≠ s.era then .ok (s.report name c)
    else .ok (s.follow name c { c with call := c.call.giveUp })

/-! ## Waiting -/

inductive Manner where
  | async
  | blocking
  | blockingInAsync
deriving DecidableEq, Repr

def beginAwait {T : Type} [Watchable T] (v : Service (Option String)) (manner : Manner)
    (targets : List T) (maxWait : Option Nat) : Except Refusal (Await T) :=
  (match manner with
    | .async => v.await targets maxWait .ok
    | .blocking => v.awaitBlocking false targets maxWait .ok
    | .blockingInAsync => v.awaitBlocking true targets maxWait .ok).mapError .refused

def endings {T : Type} (delay : Nat) (reads : T → UInt32) (c : Call T) : List Ending :=
  c.delivered.map fun d =>
    ⟨d.key, d.outcome, if d.outcome = .timeout ∧ delay ≤ reach then none else some (reads d.target)⟩

def awaitCall {T : Type} [Watchable T] (s : Session) (manner : Manner) (check : Check Scripts T)
    (wrap : Call T → AnyCall) (reads : Scripts → T → UInt32) (targets : List T)
    (maxWait : Option Nat) :
    Except Refusal (List Ending × Session) := do
  let v ← s.service?
  let waiting ← beginAwait v manner targets maxWait
  let delay := v.settings.pollDelayMs.toNat
  let (call, scripts) := runToEnd check delay maxWait waiting.call s.scripts
  match (waiting.follow call).result v.closed false with
  | none => .error .endless
  | some (.error e) => .error (.refused e)
  | some (.ok _) =>
    .ok (endings delay (reads scripts) call,
      { s with scripts }.broadcast none (wrap waiting.call) (wrap call))

/-- Waits for objects of either kind.  Only for tasks can a thread be held up. -/
def await (s : Session) (manner : Manner) (targets : Targets) (maxWait : Option Nat) :
    Except Refusal (List Ending × Session) :=
  match targets with
  | .tasks ts =>
    s.awaitCall manner (taskCheck Scripts.backend) .tasks (fun s t => s.taskReads t.id) ts maxWait
  | .machines goal ms =>
    s.awaitCall .async (machineCheck Scripts.backend goal) (.machines goal)
      (fun s m => s.machineReads m.id) ms maxWait

/-- The milliseconds after which the service is closed while somebody waits. -/
def closingTime : Nat := 50

/-- Waits for tasks, with the service being closed meanwhile. -/
def awaitClosing (s : Session) (manner : Manner) (ts : List RemoteTask) (maxWait : Option Nat) :
    Except Refusal Session × Session :=
  match s.service? with
  | .error e => (.error e, s)
  | .ok v =>
    let closed : Session := { s with service := some v.close }
    match beginAwait v manner ts maxWait with
    | .error e => (.error e, closed)
    | .ok waiting =>
      let limit := min (roundsBefore v.settings.pollDelayMs.toNat closingTime) (horizon s.scripts)
      let (call, scripts) := waiting.call.pollRounds (taskCheck Scripts.backend) limit s.scripts
      let after := { closed with scripts }.broadcast none (.tasks waiting.call) (.tasks call)
      match (waiting.follow call).result false false with
      | some (.ok _) => (.ok after, after)
      | _ => (.error (.refused .closed), after)

end Session
end TaskWatch.Rehearsal
