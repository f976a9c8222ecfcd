import TaskWatch.Json.Codec

/-!
# Reading values of any shape

`Value.ofText?` reads a text as it is, without asking for a type.  The members of an object come in
the order of their keys, and of several members with one key the last one counts.
-/

namespace TaskWatch.Json

/-- Puts a member at its place among others, which are in the order of their keys. -/
def putMember (key : String) (v : Value) : List (String × Value) → List (String × Value)
  | [] => [(key, v)]
  | (k, w) :: rest =>
    if key = k then (key, v) :: rest
    else if key < k then (key, v) :: (k, w) :: rest
    else (k, w) :: putMember key v rest

def readPlainValue (c : Char) (rest : List Char) : Except Error (Value × List Char) :=
  if c = 'n' then (readWord ['u', 'l', 'l'] rest).map (.null, ·)
  else if c = 't' then (readWord ['r', 'u', 'e'] rest).map (.boolean true, ·)
  else if c = 'f' then (readWord ['a', 'l', 's', 'e'] rest).map (.boolean false, ·)
  else if c = '\x22' then (readText rest).map fun (s, rest) => (.string s, rest)
  else if c = '-' ∨ c.isDigit then (readNumber (c :: rest)).map fun (n, rest) => (.number n, rest)
  else .error .malformed

/-- One member of an object, or its end.  The state holds the members read, if any key was. -/
def memberStep (read : Reader Value) (state : Bool × List (String × Value)) :
    Reader (Turn (Bool × List (String × Value)) Value) := fun cs => do
  let (more, cs) ← nextKey (!state.1) cs
  if more then
    let (key, cs) ← readText cs
    let (v, cs) ← read (← expectChar ':' cs)
    .ok (.again (true, putMember key v state.2), cs)
  else .ok (.done (.object state.2), cs)

/-- Reads a value in which fewer than `depth` lists and objects stand inside one another. -/
def readValueWithin : (depth : Nat) → Reader Value
  | 0, _ => .error .malformed
  | depth + 1, cs =>
    match skipBlank cs with
    | [] => .error .eof
    | c :: rest =>
      if c = '[' then (loop (itemStep (readValueWithin depth)) [] rest).map fun (vs, cs) =>
        (.list vs, cs)
      else if c = '{' then loop (memberStep (readValueWithin depth)) (false, []) rest
      else readPlainValue c rest

def readValue : Reader Value := fun cs => readValueWithin (cs.length + 1) cs

/-- The value that a text holds, with nothing but blanks around it. -/
def Value.ofText? (text : String) : Option Value :=
  match readValue text.toList with
  | .ok (v, rest) => if (skipBlank rest).isEmpty then some v else none
  | .error _ => none

end TaskWatch.Json
