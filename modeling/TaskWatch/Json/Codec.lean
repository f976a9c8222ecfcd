import TaskWatch.Json.Skip
import TaskWatch.Json.Value

/-!
# Reading and writing one kind of value

A `Codec` reads and writes the values of one type.  This module has those for strings, integers of a
given width, values that may be `null`, lists, and choices among names.  `Codec.decode` reads a
whole text and allows nothing but blanks behind the value.  `Codec.ofValue` starts from a value that
has been read already, so that only its shape can be wrong.
-/

namespace TaskWatch.Json

open TaskWatch.Decimal (signedDigits)

/-- Two readers and a writer for one type. -/
structure Codec (α : Type) where
  read : Reader α
  ofValue : Value → Except Mismatch α
  write : α → List Char

/-! ## Values of the wrong shape -/

/-- What stands at the front of a text.  Lists and objects are not looked into. -/
def readFound : List Char → Except Error Found
  | [] => .error .eof
  | c :: rest =>
    if c = 'n' then (readWord ['u', 'l', 'l'] rest).map fun _ => .null
    else if c = 't' then (readWord ['r', 'u', 'e'] rest).map fun _ => .boolean true
    else if c = 'f' then (readWord ['a', 'l', 's', 'e'] rest).map fun _ => .boolean false
    else if c = '\x22' then (readText rest).map fun (s, _) => .string s
    else if c = '[' then .ok .sequence
    else if c = '{' then .ok .object
    else if c = '-' ∨ c.isDigit then (readNumber (c :: rest)).map fun (n, _) => n.found
    else .error .malformed

/-- Why a text that starts with another value than the wanted one cannot be read. -/
def clash (wanted : Wanted) (cs : List Char) : Error :=
  match readFound cs with
  | .ok found => .data (.wrongType found wanted)
  | .error e => e

/-! ## Plain values -/

def readString (wanted : Wanted) : Reader String := fun cs =>
  match skipBlank cs with
  | [] => .error .eof
  | c :: rest => if c = '\x22' then readText rest else .error (clash wanted (c :: rest))

def Codec.text : Codec String where
  read := readString .string
  ofValue
    | .string s => .ok s
    | v => .error (.wrongType v.found .string)
  write := writeText

/-- Reads a number that `accept` gives a value for. -/
def readInteger {α : Type} (wanted : Wanted) (accept : Int → Option α) : Reader α := fun cs =>
  match skipBlank cs with
  | [] => .error .eof
  | c :: rest =>
    if c = '-' ∨ c.isDigit then
      match readNumber (c :: rest) with
      | .error e => .error e
      | .ok (.integer n, rest) =>
        match accept n with
        | some a => .ok (a, rest)
        | none => .error (.data (.wrongValue n wanted))
      | .ok (n, _) => .error (.data (.wrongType n.found wanted))
    else .error (clash wanted (c :: rest))

/-- Integers within the bounds that `accept` sets. -/
def Codec.integer {α : Type} (wanted : Wanted) (accept : Int → Option α) (toInt : α → Int) :
    Codec α where
  read := readInteger wanted accept
  ofValue
    | .number (.integer n) =>
      match accept n with
      | some a => .ok a
      | none => .error (.wrongValue n wanted)
    | v => .error (.wrongType v.found wanted)
  write a := signedDigits (toInt a)

def Codec.int64 : Codec Int64 :=
  .integer .int64 (fun n =>
    if Int64.minValue.toInt ≤ n ∧ n ≤ Int64.maxValue.toInt then some (Int64.ofInt n) else none)
    Int64.toInt

def Codec.uint32 : Codec UInt32 :=
  .integer .uint32 (fun n => if 0 ≤ n ∧ n < UInt32.size then some (UInt32.ofNat n.toNat) else none)
    fun a => a.toNat

def Codec.uint64 : Codec UInt64 :=
  .integer .uint64 (fun n => if 0 ≤ n ∧ n < UInt64.size then some (UInt64.ofNat n.toNat) else none)
    fun a => a.toNat

/-- Values of which there may be none, written `null`. -/
def Codec.optional {α : Type} (c : Codec α) : Codec (Option α) where
  read := fun cs =>
    match skipBlank cs with
    | 'n' :: rest => (readWord ['u', 'l', 'l'] rest).map (none, ·)
    | cs => (c.read cs).map fun (a, rest) => (some a, rest)
  ofValue
    | .null => .ok none
    | v => (c.ofValue v).map some
  write
    | none => ['n', 'u', 'l', 'l']
    | some a => c.write a

/-! ## Lists -/

/-- One item of a list, or its end.  The state holds the items read, the last one first. -/
def itemStep {α : Type} (read : Reader α) (items : List α) : Reader (Turn (List α) (List α)) :=
  fun cs =>
  match nextItem items.isEmpty cs with
  | .error e => .error e
  | .ok (false, rest) => (expectChar ']' rest).map (.done items.reverse, ·)
  | .ok (true, rest) => (read rest).map fun (a, rest) => (.again (a :: items), rest)

def commaSeparated : List (List Char) → List Char
  | [] => []
  | [cs] => cs
  | cs :: rest => cs ++ ',' :: commaSeparated rest

def Codec.list {α : Type} (c : Codec α) : Codec (List α) where
  read := fun cs =>
    match skipBlank cs with
    | [] => .error .eof
    | d :: rest => if d = '[' then loop (itemStep c.read) [] rest
        else .error (clash .sequence (d :: rest))
  ofValue
    | .list items => items.mapM c.ofValue
    | v => .error (.wrongType v.found .sequence)
  write items := '[' :: commaSeparated (items.map c.write) ++ [']']

/-! ## Choices -/

/-- Values that have names.  Any other name may stand for `other`. -/
structure Choice (α : Type) where
  /-- The values with their names, in the order in which a message lists them. -/
  names : List (α × String)
  other : Option α

def Choice.name {α : Type} [BEq α] (c : Choice α) (a : α) : String := (c.names.lookup a).getD ""

def Choice.ofName {α : Type} (c : Choice α) (s : String) : Except Mismatch α :=
  match c.names.find? (·.2 == s), c.other with
  | some (a, _), _ => .ok a
  | none, some a => .ok a
  | none, none => .error (.unknownVariant s (c.names.map (·.2)))

/-- Reads a name from behind its opening quote. -/
def Choice.readName {α : Type} (c : Choice α) : Reader α := fun cs =>
  match readText cs with
  | .error e => .error e
  | .ok (s, rest) => ((c.ofName s).mapError .data).map (·, rest)

/-- Passes over a `null` that must come next. -/
def readNull (cs : List Char) : Except Error (List Char) :=
  match skipBlank cs with
  | [] => .error .eof
  | c :: rest => if c = 'n' then readWord ['u', 'l', 'l'] rest else .error (clash .unit (c :: rest))

/-- Reads a name that is a key.  No other value can be one. -/
def Choice.readKey {α : Type} (c : Choice α) : Reader α := fun cs =>
  match skipBlank cs with
  | [] => .error .eof
  | d :: rest => if d = '\x22' then c.readName rest else .error .malformed

/-- Reads a name that is the only key of an object, with `null` as its value. -/
def Choice.readTagged {α : Type} (c : Choice α) : Reader α := fun cs => do
  let (a, cs) ← c.readKey cs
  let cs ← expectChar ':' cs
  let cs ← readNull cs
  let cs ← expectChar '}' cs
  .ok (a, cs)

def Codec.choice {α : Type} [BEq α] (c : Choice α) : Codec α where
  read := fun cs =>
    match skipBlank cs with
    | [] => .error .eof
    | d :: rest =>
      if d = '\x22' then c.readName rest
      else if d = '\x7b' then c.readTagged rest
      else .error .malformed
  ofValue
    | .string s => c.ofName s
    | .object [(s, v)] => do
      let a ← c.ofName s
      match v with
      | .null => .ok a
      | v => .error (.wrongType v.found .unit)
    | .object _ => .error .manyMembers
    | v => .error (.wrongType v.found .stringOrMap)
  write a := writeText (c.name a)

/-! ## Whole texts -/

/-- Reads a text that holds one value and blanks. -/
def Codec.decode {α : Type} (c : Codec α) (text : String) : Except Error α :=
  match c.read text.toList with
  | .error e => .error e
  | .ok (a, rest) => if (skipBlank rest).isEmpty then .ok a else .error .malformed

/-- Writes a value without blanks. -/
def Codec.encode {α : Type} (c : Codec α) (a : α) : String := String.ofList (c.write a)

end TaskWatch.Json
