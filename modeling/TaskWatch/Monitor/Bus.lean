import TaskWatch.Monitor.Outcome

/-!
# Broadcasting

A bus carries messages from many publishers to many subscribers.  Each subscriber sees what is
published after it came, in that order.  The bus keeps the last `capacity` messages; a subscriber
that is further behind is told how many it missed and goes on with the oldest one kept.
-/

namespace TaskWatch.Monitor

def Bus.capacity : Nat := 256

/-- A bus for messages in `α` and subscribers in `ν`. -/
structure Bus (ν α : Type) where
  /-- All messages published, the first one first. -/
  log : Array α
  /-- The subscribers, each with the number of the message that comes next for it. -/
  subscribers : List (ν × Nat)
  /-- Nothing more will be published. -/
  closed : Bool

inductive Received (α : Type) where
  | message (a : α)
  /-- So many messages are no longer kept. -/
  | lagged (missed : Nat)
  /-- There is nothing new. -/
  | empty
  /-- There will be nothing new. -/
  | closed
deriving DecidableEq, Repr

namespace Bus

variable {ν α : Type} [BEq ν]

def start : Bus ν α := ⟨#[], [], false⟩

def leave (b : Bus ν α) (who : ν) : Bus ν α :=
  { b with subscribers := b.subscribers.filter fun s => !(s.1 == who) }

/-- A new subscriber comes, in the place of one of that name. -/
def subscribe (b : Bus ν α) (who : ν) : Bus ν α :=
  { b.leave who with subscribers := (who, b.log.size) :: (b.leave who).subscribers }

def publish (b : Bus ν α) (a : α) : Bus ν α := { b with log := b.log.push a }

def publishAll (b : Bus ν α) (messages : List α) : Bus ν α := messages.foldl publish b

def close (b : Bus ν α) : Bus ν α := { b with closed := true }

def moveTo (b : Bus ν α) (who : ν) (next : Nat) : Bus ν α :=
  { b with subscribers := b.subscribers.map fun s => if s.1 == who then (s.1, next) else s }

def oldest (b : Bus ν α) : Nat := b.log.size - capacity

/-- What a subscriber gets whose next message has a number, and the number after that. -/
def next (b : Bus ν α) (cursor : Nat) : Received α × Nat :=
  if cursor < b.oldest then (.lagged (b.oldest - cursor), b.oldest)
  else
    match b.log[cursor]? with
    | some a => (.message a, cursor + 1)
    | none => (if b.closed then .closed else .empty, cursor)

/-- A subscriber takes what comes next for it; nothing when there is no such subscriber. -/
def receive (b : Bus ν α) (who : ν) : Option (Received α × Bus ν α) :=
  (b.subscribers.lookup who).map fun cursor =>
    let (got, cursor) := b.next cursor
    (got, b.moveTo who cursor)

/-! ## The messages -/

@[simp] theorem log_leave (b : Bus ν α) (who : ν) : (b.leave who).log = b.log := rfl

@[simp] theorem log_subscribe (b : Bus ν α) (who : ν) : (b.subscribe who).log = b.log := rfl

@[simp] theorem log_moveTo (b : Bus ν α) (who : ν) (n : Nat) : (b.moveTo who n).log = b.log := rfl

omit [BEq ν] in
@[simp] theorem log_publish (b : Bus ν α) (a : α) : (b.publish a).log = b.log.push a := rfl

/-! ## Taking all there is -/

/-- What a subscriber gets until there is nothing left, in at most `fuel` steps. -/
def drainWithin (b : Bus ν α) : (fuel : Nat) → (cursor : Nat) → List (Received α) × Nat
  | 0, cursor => ([], cursor)
  | fuel + 1, cursor =>
    match b.next cursor with
    | (.empty, cursor) => ([.empty], cursor)
    | (.closed, cursor) => ([.closed], cursor)
    | (got, cursor) =>
      let (rest, cursor) := b.drainWithin fuel cursor
      (got :: rest, cursor)

/-- A subscriber takes all there is for it, up to the word that there is no more. -/
def drain (b : Bus ν α) (who : ν) : Option (List (Received α) × Bus ν α) :=
  (b.subscribers.lookup who).map fun cursor =>
    let (got, cursor) := b.drainWithin (capacity + 2) cursor
    (got, b.moveTo who cursor)

end Bus

/-- That an object has ended, as it is broadcast. -/
structure Notice (ι : Type) where
  /-- The call that watched the object. -/
  source : ι
  key : String
  outcome : Outcome
deriving DecidableEq, Repr

end TaskWatch.Monitor
