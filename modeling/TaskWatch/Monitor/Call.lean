import TaskWatch.Monitor.Check

/-!
# Calls

A call watches some objects.  It has two jobs: the poll, which reads the objects in rounds, and the
deadline, if there is one, which gives up what is left.  Both work on the set of active objects;
whoever takes an object out of it owes the notice of its end and gives that notice next.

Each definition in `Steps of the poll` and the sections after it is one step that nothing can come
in between; a step that does not apply changes nothing.  `Call.round` puts the steps of a whole
round together.
-/

namespace TaskWatch.Monitor

/-- An active object under its key, as it was seen last. -/
structure Entry (T : Type) where
  key : String
  target : T
deriving DecidableEq, Repr

/-- The end of an object, as it is told to the caller. -/
structure Delivery (T : Type) where
  key : String
  target : T
  outcome : Outcome
deriving DecidableEq, Repr

inductive Poll (T : Type) where
  | unset
  /-- Between two rounds. -/
  | idle
  /-- In a round, with these objects to be read yet. -/
  | between (rest : List (Entry T))
  /-- Waits for the reading of an object. -/
  | reading (now : Entry T) (rest : List (Entry T))
  /-- Has the reading of an object; there is none when it failed. -/
  | answered (now : Entry T) (reading : Option (T × Verdict)) (rest : List (Entry T))
  /-- Has taken an object out and owes its notice. -/
  | owing (owed : Delivery T) (rest : List (Entry T))
  /-- Has seen that no object is active, and tells the deadline to stop. -/
  | leaving
  /-- Ended by itself. -/
  | over
  | cancelled
deriving DecidableEq, Repr

inductive Deadline (T : Type) where
  | unset
  | waiting
  /-- Has taken all objects out and owes their notices. -/
  | drained (owed : List (Delivery T))
  /-- Has told the poll to stop besides. -/
  | telling (owed : List (Delivery T))
  | over
  | cancelled
deriving DecidableEq, Repr

inductive Opening where
  | fresh
  /-- The deadline has been scheduled. -/
  | deadlineSet
  /-- The deadline can be cancelled, or there is none. -/
  | deadlineKept
  /-- The poll has been scheduled. -/
  | pollSet
  /-- The poll can be cancelled: the call has begun. -/
  | begun
  /-- The poll was not taken, and the deadline is told to stop. -/
  | refusing
  | refused
deriving DecidableEq, Repr

structure Call (T : Type) where
  /-- The objects whose end has not been told, with distinct keys. -/
  active : List (Entry T)
  hasDeadline : Bool
  opening : Opening
  poll : Poll T
  deadline : Deadline T
  /-- The poll has been told to stop. -/
  pollStopped : Bool
  /-- The deadline has been told to stop. -/
  deadlineStopped : Bool
  /-- The notices given, the first one first. -/
  published : List (Delivery T)
  /-- What the caller is to be told yet. -/
  pending : List (Delivery T)
  /-- What the caller has been told. -/
  delivered : List (Delivery T)
deriving DecidableEq, Repr

namespace Call

variable {T : Type}

/-! ## The active objects -/

/-- Puts an object in the place of the one with its key, or behind all others. -/
def insertEntry (e : Entry T) : List (Entry T) → List (Entry T)
  | [] => [e]
  | x :: rest => if x.key = e.key then e :: rest else x :: insertEntry e rest

/-- The objects of a call; of several with one key the last one counts. -/
def collect [Watchable T] (targets : List T) : List (Entry T) :=
  targets.foldl (fun es t => insertEntry ⟨Watchable.key t, t⟩ es) []

def isActive (c : Call T) (key : String) : Bool := c.active.any (·.key == key)

def remaining (c : Call T) : Nat := c.active.length

def isFinished (c : Call T) : Bool := c.active.isEmpty

def removeKey (key : String) (es : List (Entry T)) : List (Entry T) := es.filter (·.key != key)

/-- The active objects with another form of one that is among them. -/
def refreshKey (key : String) (target : T) (es : List (Entry T)) : List (Entry T) :=
  es.map fun e => if e.key = key then ⟨e.key, target⟩ else e

/-! ## The beginning -/

def prepare (active : List (Entry T)) (hasDeadline : Bool) : Call T where
  active := active
  hasDeadline := hasDeadline
  opening := .fresh
  poll := .unset
  deadline := .unset
  pollStopped := false
  deadlineStopped := false
  published := []
  pending := []
  delivered := []

/-- Tells the deadline to stop, if it can be. -/
def stopDeadline (c : Call T) : Call T :=
  if c.hasDeadline ∧ c.opening ≠ .fresh ∧ c.opening ≠ .deadlineSet then
    { c with deadlineStopped := true }
  else c

/-- The next step of the beginning.  A closed scheduler takes no jobs, and a call without its poll
is refused. -/
def advanceOpening (closed : Bool) (c : Call T) : Call T :=
  match c.opening with
  | .fresh =>
    if !c.hasDeadline then { c with opening := .deadlineKept }
    else if closed then { c with opening := .refused }
    else { c with opening := .deadlineSet, deadline := .waiting }
  | .deadlineSet => { c with opening := .deadlineKept }
  | .deadlineKept =>
    if closed then { c with opening := .refusing }
    else { c with opening := .pollSet, poll := .idle }
  | .pollSet => { c with opening := .begun }
  | .refusing => { c.stopDeadline with opening := .refused }
  | .begun | .refused => c

/-! ## Steps of the poll -/

/-- Gives a notice, and has the caller told. -/
def tell (d : Delivery T) (c : Call T) : Call T :=
  { c with published := c.published ++ [d], pending := c.pending ++ [d] }

def beginRound (c : Call T) : Call T :=
  match c.poll with
  | .idle => { c with poll := .between c.active }
  | _ => c

/-- Asks for the next reading, or ends the round.  There is no other round when no object is
active. -/
def proceed (c : Call T) : Call T :=
  match c.poll with
  | .between (e :: rest) => { c with poll := .reading e rest }
  | .between [] => { c with poll := if c.active.isEmpty then .leaving else .idle }
  | _ => c

/-- Tells the deadline to stop, and ends the poll. -/
def leave (c : Call T) : Call T :=
  match c.poll with
  | .leaving => { c.stopDeadline with poll := .over }
  | _ => c

/-- A reading comes in, or word that it failed. -/
def answer (reading : Option (T × Verdict)) (c : Call T) : Call T :=
  match c.poll with
  | .reading e rest => { c with poll := .answered e reading rest }
  | _ => c

/-- Does what a reading calls for: an object that has ended is taken out, another one is stored in
its new form.  Nothing is done for an object that is not active any more. -/
def settle (c : Call T) : Call T :=
  match c.poll with
  | .answered e reading rest =>
    match reading with
    | none => { c with poll := .between rest }
    | some (target, verdict) =>
      match verdict.outcome? with
      | none => { c with active := refreshKey e.key target c.active, poll := .between rest }
      | some outcome =>
        if c.isActive e.key then
          { c with
            active := removeKey e.key c.active, poll := .owing ⟨e.key, target, outcome⟩ rest }
        else { c with poll := .between rest }
  | _ => c

def pay (c : Call T) : Call T :=
  match c.poll with
  | .owing d rest => { c.tell d with poll := .between rest }
  | _ => c

/-! ## Steps of the deadline -/

/-- The deadline comes: all objects are taken out. -/
def expire (c : Call T) : Call T :=
  match c.deadline with
  | .waiting =>
    { c with
      active := [], deadline := .drained (c.active.map fun e => ⟨e.key, e.target, .timeout⟩) }
  | _ => c

/-- The deadline tells the poll to stop, if it can be. -/
def stopPoll (c : Call T) : Call T :=
  match c.deadline with
  | .drained owed =>
    { c with pollStopped := c.pollStopped || c.opening == .begun, deadline := .telling owed }
  | _ => c

/-- Gives a notice that the deadline owes, or ends it. -/
def payTimeout (c : Call T) : Call T :=
  match c.deadline with
  | .telling (d :: rest) => { c.tell d with deadline := .telling rest }
  | .telling [] => { c with deadline := .over }
  | _ => c

/-! ## Callbacks and ends that come from outside -/

def deliver (i : Nat) (c : Call T) : Call T :=
  match c.pending[i]? with
  | some d => { c with pending := c.pending.eraseIdx i, delivered := c.delivered ++ [d] }
  | none => c

def dropCallback (i : Nat) (c : Call T) : Call T := { c with pending := c.pending.eraseIdx i }

def dropPoll (c : Call T) : Call T :=
  match c.poll with
  | .idle | .reading _ _ => { c with poll := .cancelled }
  | _ => c

def dropDeadline (c : Call T) : Call T :=
  match c.deadline with
  | .waiting => { c with deadline := .cancelled }
  | _ => c

/-! ## What the steps change -/

section Equations

variable {c : Call T} {e : Entry T} {d : Delivery T} {rest : List (Entry T)}
  {ds : List (Delivery T)}

theorem beginRound_of_idle (h : c.poll = .idle) :
    c.beginRound = { c with poll := .between c.active } := by
  simp [beginRound, h]

theorem proceed_of_cons (h : c.poll = .between (e :: rest)) :
    c.proceed = { c with poll := .reading e rest } := by
  simp [proceed, h]

theorem proceed_of_nil (h : c.poll = .between []) :
    c.proceed = { c with poll := if c.active.isEmpty then .leaving else .idle } := by
  simp [proceed, h]

theorem leave_of_leaving (h : c.poll = .leaving) :
    c.leave = { c.stopDeadline with poll := .over } := by
  simp [leave, h]

theorem answer_of_reading (reading : Option (T × Verdict)) (h : c.poll = .reading e rest) :
    c.answer reading = { c with poll := .answered e reading rest } := by
  simp [answer, h]

theorem pay_of_owing (h : c.poll = .owing d rest) :
    c.pay = { c.tell d with poll := .between rest } := by
  simp [pay, h]

theorem expire_of_waiting (h : c.deadline = .waiting) :
    c.expire = { c with
      active := [], deadline := .drained (c.active.map fun e => ⟨e.key, e.target, .timeout⟩) } := by
  simp [expire, h]

theorem stopPoll_of_drained (h : c.deadline = .drained ds) :
    c.stopPoll = { c with
      pollStopped := c.pollStopped || c.opening == .begun, deadline := .telling ds } := by
  simp [stopPoll, h]

theorem payTimeout_of_cons (h : c.deadline = .telling (d :: ds)) :
    c.payTimeout = { c.tell d with deadline := .telling ds } := by
  simp [payTimeout, h]

theorem payTimeout_of_nil (h : c.deadline = .telling []) :
    c.payTimeout = { c with deadline := .over } := by
  simp [payTimeout, h]

theorem deliver_of_pending {i : Nat} (h : c.pending[i]? = some d) :
    c.deliver i =
      { c with pending := c.pending.eraseIdx i, delivered := c.delivered ++ [d] } := by
  simp [deliver, h]

theorem dropDeadline_of_waiting (h : c.deadline = .waiting) :
    c.dropDeadline = { c with deadline := .cancelled } := by
  simp [dropDeadline, h]

/-- Telling the deadline to stop changes nothing else. -/
theorem stopDeadline_eq (c : Call T) : c.stopDeadline =
    { c with deadlineStopped := c.stopDeadline.deadlineStopped } := by
  unfold stopDeadline
  split <;> rfl

end Equations

/-! ## Whole runs -/

/-- The beginning of a call, in one go. -/
def launch (closed : Bool) (c : Call T) : Call T :=
  advanceOpening closed (advanceOpening closed (advanceOpening closed (advanceOpening closed c)))

/-- Reads the objects one after another and does what each reading calls for. -/
def checkAll {σ : Type} (check : Check σ T) : List (Entry T) → Call T → σ → Call T × σ
  | [], c, s => (c.proceed.leave, s)
  | e :: rest, c, s =>
    let (r, s) := check e.target s
    checkAll check rest (c.proceed.answer r.toOption).settle.pay s

def deliverAll (c : Call T) : Call T :=
  { c with pending := [], delivered := c.delivered ++ c.pending }

/-- A round that nothing comes in between, callbacks included.  A poll that is not between two
rounds does nothing. -/
def round {σ : Type} (check : Check σ T) (c : Call T) (s : σ) : Call T × σ :=
  match c.poll with
  | .idle =>
    let (c, s) := checkAll check c.active c.beginRound s
    (c.deliverAll, s)
  | _ => (c, s)

def payTimeouts : List (Delivery T) → Call T → Call T
  | [], c => c.payTimeout
  | _ :: rest, c => payTimeouts rest c.payTimeout

/-- The deadline, when nothing comes in between, callbacks included.  The poll, told to stop, is
dropped. -/
def giveUp (c : Call T) : Call T :=
  match c.deadline with
  | .waiting =>
    if c.deadlineStopped then c.dropDeadline
    else
      let drained := c.expire.stopPoll
      let paid := payTimeouts (c.active.map fun e => ⟨e.key, e.target, .timeout⟩) drained
      (if paid.pollStopped then paid.dropPoll else paid).deliverAll
  | _ => c

end Call
end TaskWatch.Monitor
