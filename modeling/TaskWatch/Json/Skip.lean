import TaskWatch.Json.Text

/-!
# Passing over a value

`skipValue` passes over a value of any shape and depth.  It keeps the brackets that are open, the
innermost one first, and goes from one value to the next until none is left.
-/

namespace TaskWatch.Json

inductive Bracket where
  | list
  | object
deriving DecidableEq, Repr

def Bracket.closing : Bracket → Char
  | .list => ']'
  | .object => '}'

/-- Where a text is being passed over: at a value, or at what may follow an opening bracket or a
value. -/
inductive Place where
  | value
  | inside (fresh : Bool)
deriving DecidableEq, Repr

def skipKey (cs : List Char) : Except Error (List Char) :=
  match skipBlank cs with
  | [] => .error .eof
  | c :: rest =>
    if c = '\x22' then
      match skipText rest with
      | .error e => .error e
      | .ok rest => expectChar ':' rest
    else .error .malformed

def nextValue (bracket : Bracket) (cs : List Char) : Except Error (List Char) :=
  match bracket with
  | .list => .ok cs
  | .object => skipKey cs

def skipPlain (c : Char) (rest : List Char) : Except Error (List Char) :=
  if c = 'n' then readWord ['u', 'l', 'l'] rest
  else if c = 't' then readWord ['r', 'u', 'e'] rest
  else if c = 'f' then readWord ['a', 'l', 's', 'e'] rest
  else if c = '\x22' then skipText rest
  else if c = '-' ∨ c.isDigit then skipNumber (c :: rest)
  else .error .malformed

def skipHead (stack : List Bracket) :
    List Char → Except Error ((List Bracket × Place) × List Char)
  | [] => .error .eof
  | c :: rest =>
    if c = '[' then .ok ((.list :: stack, .inside true), rest)
    else if c = '{' then .ok ((.object :: stack, .inside true), rest)
    else (skipPlain c rest).map ((stack, .inside false), ·)

/-- Closes a bracket, or goes to the next value within it; an item that no comma precedes is taken
in the same step. -/
def skipTail (fresh : Bool) (bracket : Bracket) (stack : List Bracket) :
    List Char → Except Error ((List Bracket × Place) × List Char)
  | [] => .error .eof
  | c :: rest =>
    if c = bracket.closing then .ok ((stack, .inside false), rest)
    else if fresh then
      match bracket with
      | .list => skipHead (.list :: stack) (c :: rest)
      | .object => (skipKey (c :: rest)).map ((.object :: stack, .value), ·)
    else if c = ',' then (nextValue bracket rest).map ((bracket :: stack, .value), ·)
    else .error .malformed

def skipStep (state : List Bracket × Place) : Reader (Turn (List Bracket × Place) Unit) := fun cs =>
  match state with
  | (stack, .value) => (skipHead stack (skipBlank cs)).map fun (next, rest) => (.again next, rest)
  | ([], .inside _) => .ok (.done (), cs)
  | (bracket :: stack, .inside fresh) =>
    (skipTail fresh bracket stack (skipBlank cs)).map fun (next, rest) => (.again next, rest)

def skipValue (cs : List Char) : Except Error (List Char) :=
  (loop skipStep ([], .value) cs).map (·.2)

end TaskWatch.Json
