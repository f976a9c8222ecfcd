import TaskWatch.Json.Codec

/-!
# Records in JSON text

A record is an object whose members are its fields, in any order; members of another name are passed
over, and no field may come twice.  It may also be a list of the fields in their own order.  A field
with a value for its absence may be left out of the object, and at the end of the list.
-/

namespace TaskWatch.Json

structure Field (α : Type) where
  name : String
  codec : Codec α
  /-- The value of a field that is left out. -/
  absent : Option α
  /-- The values that are left out in writing. -/
  omitted : α → Bool

inductive Fields : List Type → Type 1 where
  | nil : Fields []
  | cons {α : Type} {types : List Type} (field : Field α) (fields : Fields types) :
    Fields (α :: types)

/-- One value per field. -/
@[reducible] def Row : List Type → Type
  | [] => Unit
  | α :: types => α × Row types

@[reducible] def Slots : List Type → Type
  | [] => Unit
  | α :: types => Option α × Slots types

namespace Fields

def count : {types : List Type} → Fields types → Nat
  | _, .nil => 0
  | _, .cons _ fields => fields.count + 1

def blank : {types : List Type} → Fields types → Slots types
  | _, .nil => ()
  | _, .cons _ fields => (none, fields.blank)

/-- Reads the value of the member `key` into its slot, or gives nothing when no field has this
name. -/
def readMember : {types : List Type} → Fields types → Slots types → String → List Char →
    Except Error (Option (Slots types × List Char))
  | _, .nil, _, _, _ => .ok none
  | _, .cons field fields, (slot, slots), key, cs =>
    if field.name = key then
      if slot.isSome then .error (.data (.duplicateField key))
      else do
        let cs ← expectChar ':' cs
        let (a, cs) ← field.codec.read cs
        .ok (some ((some a, slots), cs))
    else do
      let found ← fields.readMember slots key cs
      .ok (found.map fun (slots, cs) => ((slot, slots), cs))

/-- The row of the values read, with those of the fields left out. -/
def complete : {types : List Type} → Fields types → Slots types → Except Mismatch (Row types)
  | _, .nil, _ => .ok ()
  | _, .cons field fields, (slot, slots) =>
    match slot.or field.absent with
    | none => .error (.missingField field.name)
    | some a => (fields.complete slots).map (a, ·)

/-- Reads the fields as the items of a list, of which `done` have been read already. -/
def readItems (record : String) (total : Nat) : {types : List Type} → Fields types → (done : Nat) →
    Reader (Row types)
  | _, .nil, _, cs => .ok ((), cs)
  | _, .cons field fields, done, cs => do
    let (more, cs) ← nextItem (done == 0) cs
    if more then
      let (a, cs) ← field.codec.read cs
      let (row, cs) ← fields.readItems record total (done + 1) cs
      .ok ((a, row), cs)
    else
      match field.absent with
      | none => .error (.data (.wrongLength done record total))
      | some a =>
        let (row, cs) ← fields.readItems record total (done + 1) cs
        .ok ((a, row), cs)

/-- Puts a value into the slot of the field `key`, if there is one. -/
def fill : {types : List Type} → Fields types → Slots types → String → Value →
    Except Mismatch (Slots types)
  | _, .nil, slots, _, _ => .ok slots
  | _, .cons field fields, (slot, slots), key, v =>
    if field.name = key then
      if slot.isSome then .error (.duplicateField key)
      else (field.codec.ofValue v).map fun a => (some a, slots)
    else (fields.fill slots key v).map (slot, ·)

/-- The fields as the items of a list, of which `done` have been taken already. -/
def ofItems (record : String) (total : Nat) : {types : List Type} → Fields types → (done : Nat) →
    List Value → Except Mismatch (Row types)
  | _, .nil, _, [] => .ok ()
  | _, .nil, done, rest => .error (.surplusItems (done + rest.length))
  | _, .cons field fields, done, v :: rest => do
    let a ← field.codec.ofValue v
    let row ← fields.ofItems record total (done + 1) rest
    .ok (a, row)
  | _, .cons field fields, done, [] =>
    match field.absent with
    | none => .error (.wrongLength done record total)
    | some a => (fields.ofItems record total (done + 1) []).map (a, ·)

def members : {types : List Type} → Fields types → Row types → List (List Char)
  | _, .nil, _ => []
  | _, .cons field fields, (a, row) =>
    let rest := fields.members row
    if field.omitted a then rest else (writeText field.name ++ ':' :: field.codec.write a) :: rest

/-- One member of an object, or its end.  The state says whether it is the first one, and holds the
fields read. -/
def memberStep {types : List Type} (fields : Fields types) (state : Bool × Slots types) :
    Reader (Turn (Bool × Slots types) (Row types)) := fun cs => do
  let (more, cs) ← nextKey state.1 cs
  if more then
    let (key, cs) ← readText cs
    match ← fields.readMember state.2 key cs with
    | some (slots, cs) => .ok (.again (false, slots), cs)
    | none =>
      let cs ← expectChar ':' cs
      let cs ← skipValue cs
      .ok (.again (false, state.2), cs)
  else
    let row ← (fields.complete state.2).mapError .data
    .ok (.done row, cs)

end Fields

structure Record (α : Type) where
  name : String
  types : List Type
  fields : Fields types
  build : Row types → α
  parts : α → Row types

def Record.read {α : Type} (r : Record α) : Reader α := fun cs =>
  match skipBlank cs with
  | [] => .error .eof
  | c :: rest =>
    if c = '[' then do
      let (row, rest) ← r.fields.readItems r.name r.fields.count 0 rest
      let rest ← expectChar ']' rest
      .ok (r.build row, rest)
    else if c = '\x7b' then
      (loop r.fields.memberStep (true, r.fields.blank) rest).map fun (row, rest) =>
        (r.build row, rest)
    else .error (clash (.record r.name) (c :: rest))

def Record.ofValue {α : Type} (r : Record α) : Value → Except Mismatch α
  | .list items => (r.fields.ofItems r.name r.fields.count 0 items).map r.build
  | .object members => do
    let slots ← members.foldlM (fun slots (key, v) => r.fields.fill slots key v) r.fields.blank
    (r.fields.complete slots).map r.build
  | v => .error (.wrongType v.found (.record r.name))

def Codec.record {α : Type} (r : Record α) : Codec α where
  read := r.read
  ofValue := r.ofValue
  write a := '\x7b' :: commaSeparated (r.fields.members (r.parts a)) ++ ['\x7d']

def Field.required {α : Type} (name : String) (codec : Codec α) : Field α :=
  ⟨name, codec, none, fun _ => false⟩

/-- A field that may be left out but is always written. -/
def Field.withDefault {α : Type} (name : String) (codec : Codec α) (absent : α) : Field α :=
  ⟨name, codec, some absent, fun _ => false⟩

def Field.optional {α : Type} (name : String) (codec : Codec α) : Field (Option α) :=
  ⟨name, codec.optional, some none, Option.isNone⟩

end TaskWatch.Json
