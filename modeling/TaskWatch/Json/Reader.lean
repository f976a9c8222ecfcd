import TaskWatch.Json.Number

/-!
# Reading from the front of a text

A reader takes a value off the front of a text and gives the value together with what remains.
`loop` repeats a step until it is done; one step more than the text has characters is enough for a
step that always takes some.  `nextItem` and `nextKey` stand before every item of a list and every
member of an object.
-/

namespace TaskWatch.Json

/-- Takes a value off the front of a text. -/
abbrev Reader (α : Type) := List Char → Except Error (α × List Char)

/-! ## Loops -/

inductive Turn (σ β : Type) where
  | again (state : σ)
  | done (result : β)

def loopWithin {σ β : Type} (step : σ → Reader (Turn σ β)) : Nat → σ → Reader β
  | 0, _, _ => .error .malformed
  | fuel + 1, state, cs =>
    match step state cs with
    | .error e => .error e
    | .ok (.done result, rest) => .ok (result, rest)
    | .ok (.again state, rest) => loopWithin step fuel state rest

def loop {σ β : Type} (step : σ → Reader (Turn σ β)) (state : σ) : Reader β := fun cs =>
  loopWithin step (cs.length + 1) state cs

/-! ## Blanks and fixed characters -/

/-- The four characters that may stand between the parts of a text. -/
def isBlank (c : Char) : Bool := c == ' ' || c == '\n' || c == '\t' || c == '\x0d'

def skipBlank (cs : List Char) : List Char := cs.dropWhile isBlank

def readWord : List Char → List Char → Except Error (List Char)
  | [], cs => .ok cs
  | _ :: _, [] => .error .eof
  | w :: word, c :: cs => if c = w then readWord word cs else .error .malformed

def expectChar (expected : Char) (cs : List Char) : Except Error (List Char) :=
  match skipBlank cs with
  | [] => .error .eof
  | c :: rest => if c = expected then .ok rest else .error .malformed

/-! ## Items and members -/

/-- Goes to the next item of a list: whether there is one, and the text from there on, which is the
closing bracket when there is none. -/
def nextItem (first : Bool) (cs : List Char) : Except Error (Bool × List Char) :=
  match skipBlank cs with
  | [] => .error .eof
  | c :: rest =>
    if c = ']' then .ok (false, c :: rest)
    else if first then .ok (true, c :: rest)
    else if c = ',' then
      match skipBlank rest with
      | [] => .error .eof
      | c :: rest => if c = ']' then .error .malformed else .ok (true, c :: rest)
    else .error .malformed

def openKey : List Char → Except Error (Bool × List Char)
  | [] => .error .eof
  | c :: rest => if c = '\x22' then .ok (true, rest) else .error .malformed

/-- Goes to the next member of an object: whether there is one, and the text from inside its key
on, which is what follows the closing brace when there is none. -/
def nextKey (first : Bool) (cs : List Char) : Except Error (Bool × List Char) :=
  match skipBlank cs with
  | [] => .error .eof
  | c :: rest =>
    if c = '}' then .ok (false, rest)
    else if first then openKey (c :: rest)
    else if c = ',' then openKey (skipBlank rest)
    else .error .malformed

end TaskWatch.Json
