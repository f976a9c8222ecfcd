import TaskWatch.Decimal.Bounded
import TaskWatch.Text.Quoted

/-!
# Ids of calls

An id has 32 hexadecimal digits.  `CallId.text` writes them in five groups with hyphens between
them; `CallId.ofText?` also reads them without hyphens, and the groups in braces or behind the name
of their kind.
-/

namespace TaskWatch.Monitor

open TaskWatch.Decimal (digitIn?)
open TaskWatch.Text (hexDigit)

structure CallId where
  digits : List Nat
deriving DecidableEq, Repr

namespace CallId

def zero : CallId := ⟨List.replicate 32 0⟩

def groups : List Nat := [8, 4, 4, 4, 12]

def hyphenated : (sizes : List Nat) → List Char → List Char
  | [], _ => []
  | [size], cs => cs.take size
  | size :: sizes, cs => cs.take size ++ '-' :: hyphenated sizes (cs.drop size)

/-- Splits groups at their hyphens; the last one goes to the end. -/
def joined? : (sizes : List Nat) → List Char → Option (List Char)
  | [], _ => none
  | [_], cs => some cs
  | size :: sizes, cs =>
    match cs.drop size with
    | '-' :: rest => (joined? sizes rest).map (cs.take size ++ ·)
    | _ => none

/-- The id with some digits, which must be 32. -/
def ofDigits? (cs : List Char) : Option CallId :=
  if cs.length = 32 then (cs.mapM (digitIn? 16)).map CallId.mk else none

/-- The digits in a text, without what may stand around and between them. -/
def bare? (cs : List Char) : Option (List Char) :=
  match cs with
  | '{' :: rest => if rest.getLast? = some '}' then joined? groups rest.dropLast else none
  | 'u' :: 'r' :: 'n' :: ':' :: 'u' :: 'u' :: 'i' :: 'd' :: ':' :: rest => joined? groups rest
  | cs => if cs.length = 32 then some cs else joined? groups cs

def ofText? (s : String) : Option CallId := (bare? s.toList).bind ofDigits?

def text (id : CallId) : String := String.ofList (hyphenated groups (id.digits.map hexDigit))

end CallId
end TaskWatch.Monitor
