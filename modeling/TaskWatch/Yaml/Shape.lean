import TaskWatch.Decimal.Bounded
import TaskWatch.Yaml.Node

/-!
# Shapes of documents

A shape says which nodes stand for values of a type.  A record has a standard value, which its
members change: so all members may be missing, and members with other keys are passed over.  No
member may be given twice.  An empty node stands for the standard value.
-/

namespace TaskWatch.Yaml

open TaskWatch.Decimal (readBounded)

/-- Which nodes of a document stand for which values. -/
structure Shape (α : Type) where
  read : Document → Node → Option α

/-- A member of a record: its key, and how its node changes the record. -/
structure Member (α : Type) where
  key : String
  apply : Document → Node → α → Option α

namespace Shape

/-! ## Scalars -/

/-- Any scalar, taken as a text. -/
def text : Shape String :=
  ⟨fun d n =>
    match d.follow? n with
    | some (.scalar text _ _) => some text
    | _ => none⟩

def integerTag : Tag := .ofString "tag:yaml.org,2002:int"

def mayBeNumber : Style → (tag : Option Tag) → Bool
  | .plain, _ => true
  | .literal, tag => tag == some integerTag
  | _, _ => false

def isSigned (cs : List Char) : Bool := cs.head? == some '+' || cs.head? == some '-'

/-- The bases that a number may name, with their letters. -/
def baseOfLetter? : Char → Option Nat
  | 'x' => some 16
  | 'o' => some 8
  | 'b' => some 2
  | _ => none

/-- Whether there are more digits than one and the first is a zero. -/
def hasLeadingZero (cs : List Char) : Bool :=
  1 < cs.length && cs.head? == some '0' && cs.all Char.isDigit

def readUnsigned? (limit : Nat) (cs : List Char) : Option Nat :=
  let decimal := if isSigned cs || hasLeadingZero cs then none
    else (readBounded 10 limit cs).toOption
  match cs with
  | '0' :: c :: digits =>
    match baseOfLetter? c with
    | some base => if isSigned digits then none else (readBounded base limit digits).toOption
    | none => decimal
  | _ => decimal

/-- The number in a text, which may begin with a plus sign.  A number that is not decimal names its
base behind a zero. -/
def readNumber? (limit : Nat) : List Char → Option Nat
  | '+' :: cs => readUnsigned? limit cs
  | cs => readUnsigned? limit cs

def uint64 : Shape UInt64 :=
  ⟨fun d n =>
    match d.follow? n with
    | some (.scalar text style tag) =>
      if mayBeNumber style tag then (readNumber? UInt64.size text.toList).map UInt64.ofNat else none
    | _ => none⟩

def isNothing (text : String) : Style → Bool
  | .plain => ["", "~", "null", "Null", "NULL"].contains text
  | _ => false

/-- One of some words.  A word may also be the tag of a scalar that says nothing; with a mark for
its tag no other scalar is a word. -/
def choice {α : Type} (words : List (String × α)) : Shape α :=
  ⟨fun d n =>
    match d.follow? n with
    | some (.scalar text style tag) =>
      match tag.bind Tag.word? with
      | some word => if isNothing text style then words.lookup word else none
      | none => words.lookup text
    | _ => none⟩

/-! ## Records -/

/-- Applies members that are given by pairs of nodes; the ones with the keys `seen` have been
given. -/
def applyMembers {α : Type} (members : List (Member α)) (d : Document) :
    (seen : List String) → List (Node × Node) → α → Option α
  | _, [], a => some a
  | seen, (k, v) :: rest, a => do
    let key ← text.read d k
    match members.find? (·.key == key) with
    | none => applyMembers members d seen rest a
    | some m =>
      if seen.contains key then none
      else applyMembers members d (key :: seen) rest (← m.apply d v a)

def record {α : Type} (standard : α) (members : List (Member α)) : Shape α :=
  ⟨fun d n =>
    match d.follow? n with
    | some (.mapping pairs _) => applyMembers members d [] pairs standard
    | some (.scalar "" .plain _) => some standard
    | _ => none⟩

/-- A member of a record that holds a value of its own. -/
def as {α β : Type} (s : Shape β) (key : String) (put : β → α → α) : Member α :=
  ⟨key, fun d n a => (s.read d n).map (put · a)⟩

def ofText? {α : Type} (s : Shape α) (text : String) : Option α := do
  let d ← Document.ofText? text
  s.read d (d.root.getD (.blank none))

end Shape
end TaskWatch.Yaml
