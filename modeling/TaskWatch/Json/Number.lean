import TaskWatch.Json.Error

/-!
# Numbers in JSON text

`Literal.read` splits a number off the front of a text: an optional minus sign, the whole part, the
digits after a point, and an exponent.  `Literal.value` gives its value.  A number without point and
exponent that fits into 64 bits is an integer; every other one is a floating point number, of which
as many leading digits count as fit into 64 bits.
-/

namespace TaskWatch.Json

open TaskWatch.Decimal

/-- The parts of a number as it is written.  `fraction` is empty when there is no point. -/
structure Literal where
  negative : Bool
  whole : List Char
  fraction : List Char
  /-- Whether the exponent is negative, and its digits. -/
  exponent : Option (Bool × List Char)
deriving DecidableEq, Repr

inductive Number where
  | integer (n : Int)
  | float (negative : Bool) (size : Binary64)
deriving DecidableEq, Repr

def Number.found : Number → Found
  | .integer n => .integer n
  | .float negative size => .float negative size

/-- The digits at the front of a text, of which there must be one, and what follows them. -/
def readDigits (cs : List Char) : Except Error (List Char × List Char) :=
  match cs with
  | [] => .error .eof
  | c :: rest =>
    if c.isDigit then .ok (c :: rest.takeWhile Char.isDigit, rest.dropWhile Char.isDigit)
    else .error .malformed

/-- The whole part: digits that start with a zero only if that is all. -/
def readWhole (cs : List Char) : Except Error (List Char × List Char) := do
  let (ds, rest) ← readDigits cs
  if ds.head? = some '0' ∧ 1 < ds.length then .error .malformed else .ok (ds, rest)

def readFraction : List Char → Except Error (List Char × List Char)
  | '.' :: cs => readDigits cs
  | cs => .ok ([], cs)

/-- The sign of an exponent: whether it is negative, and what follows it. -/
def readSign : List Char → Bool × List Char
  | '+' :: cs => (false, cs)
  | '-' :: cs => (true, cs)
  | cs => (false, cs)

def readExponent (cs : List Char) : Except Error (Option (Bool × List Char) × List Char) :=
  match cs with
  | [] => .ok (none, [])
  | c :: rest =>
    if c = 'e' ∨ c = 'E' then do
      let (negative, rest) := readSign rest
      let (ds, rest) ← readDigits rest
      .ok (some (negative, ds), rest)
    else .ok (none, cs)

/-- The minus sign of a number: whether there is one, and what follows it. -/
def readMinus : List Char → Bool × List Char
  | '-' :: cs => (true, cs)
  | cs => (false, cs)

def Literal.read (cs : List Char) : Except Error (Literal × List Char) := do
  let (negative, cs) := readMinus cs
  let (whole, cs) ← readWhole cs
  let (fraction, cs) ← readFraction cs
  let (exponent, cs) ← readExponent cs
  .ok (⟨negative, whole, fraction, exponent⟩, cs)

/-- Continues `start` by digits as long as the number stays below `limit`, and gives the digits that
are left. -/
def absorb (limit start : Nat) : List Char → Nat × List Char
  | [] => (start, [])
  | c :: cs =>
    let next := start * 10 + digitValue c
    if next < limit then absorb limit next cs else (start, c :: cs)

/-- The value of a number whose exponent does not fit into 32 bits: nothing is left of it, or it is
too large. -/
def Literal.extreme (l : Literal) (significand : Nat) (downward : Bool) : Except Error Number :=
  if significand = 0 ∨ downward then .ok (.float l.negative ⟨0, 0⟩) else .error .malformed

def Literal.scaled (l : Literal) (significand : Nat) (e : Int) : Except Error Number :=
  match Binary64.ofScientific? significand e with
  | some size => .ok (.float l.negative size)
  | none => .error .malformed

/-- The value of a number.  One that is too large for a floating point number is no JSON. -/
def Literal.value (l : Literal) : Except Error Number :=
  let whole := absorb UInt64.size 0 l.whole
  if whole.2 = [] ∧ l.fraction = [] ∧ l.exponent = none then
    if l.negative then
      if 0 < whole.1 ∧ whole.1 ≤ UInt64.size / 2 then .ok (.integer (-whole.1))
        else l.scaled whole.1 0
    else .ok (.integer whole.1)
  else
    let all := absorb UInt64.size whole.1 l.fraction
    let e : Int := whole.2.length - (l.fraction.length - all.2.length : Nat)
    match l.exponent with
    | none => l.scaled all.1 e
    | some (downward, ds) =>
      let size := absorb (UInt32.size / 2) 0 ds
      if size.2 = [] then l.scaled all.1 (if downward then e - size.1 else e + size.1)
      else l.extreme all.1 downward

def readNumber (cs : List Char) : Except Error (Number × List Char) := do
  let (l, cs) ← Literal.read cs
  let n ← l.value
  .ok (n, cs)

/-- Passes over a number.  A number that the end of the text cuts off counts as no JSON here. -/
def skipNumber (cs : List Char) : Except Error (List Char) :=
  match Literal.read cs with
  | .ok (_, rest) => .ok rest
  | .error _ => .error .malformed

end TaskWatch.Json
