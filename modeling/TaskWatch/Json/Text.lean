import TaskWatch.Json.Reader
import TaskWatch.Text.Octets

/-!
# Strings in JSON text

`readText` reads a string and `writeText` writes one.  A reader stands behind the opening quote.
Characters outside the basic plane may be given by two escapes, and an escape for one half of such a
pair must have the other half behind it.  `skipText` only looks for the closing quote: it wants four
digits after `\u` but does not ask whether they stand for a character.
-/

namespace TaskWatch.Json

open TaskWatch.Text (hexDigit octetCount)

def hexValue? (c : Char) : Option Nat :=
  let n := c.toNat
  if 48 ≤ n ∧ n ≤ 57 then some (n - 48)
  else if 97 ≤ n ∧ n ≤ 102 then some (n - 87)
  else if 65 ≤ n ∧ n ≤ 70 then some (n - 55)
  else none

/-- The four digits of an escape.  The text ends too early when it has no four octets any more. -/
def readHex : Reader Nat
  | a :: b :: c :: d :: rest =>
    match hexValue? a, hexValue? b, hexValue? c, hexValue? d with
    | some a, some b, some c, some d => .ok (((a * 16 + b) * 16 + c) * 16 + d, rest)
    | _, _, _, _ => .error .malformed
  | cs => if octetCount cs < 4 then .error .eof else .error .malformed

/-- The second half of a pair of escapes whose first half is `high`. -/
def readLow (high : Nat) : Reader Char
  | [] => .error .eof
  | '\\' :: [] => .error .eof
  | '\\' :: 'u' :: rest =>
    match readHex rest with
    | .error e => .error e
    | .ok (low, rest) =>
      if 0xDC00 ≤ low ∧ low ≤ 0xDFFF then
        .ok (Char.ofNat (0x10000 + (high - 0xD800) * 0x400 + (low - 0xDC00)), rest)
      else .error .malformed
  | _ => .error .malformed

/-- The character that `\u` stands before. -/
def readCodePoint (cs : List Char) : Except Error (Char × List Char) :=
  match readHex cs with
  | .error e => .error e
  | .ok (n, rest) =>
    if 0xDC00 ≤ n ∧ n ≤ 0xDFFF then .error .malformed
    else if 0xD800 ≤ n ∧ n ≤ 0xDBFF then readLow n rest
    else .ok (Char.ofNat n, rest)

/-- The characters that have a letter of their own behind a backslash, or stand for themselves. -/
def shortEscapes : List (Char × Char) :=
  [('\x22', '\x22'), ('\\', '\\'), ('/', '/'), ('b', '\x08'), ('f', '\x0c'), ('n', '\n'),
    ('r', '\x0d'), ('t', '\t')]

def readEscape : Reader Char
  | [] => .error .eof
  | c :: rest =>
    if c = 'u' then readCodePoint rest
    else
      match shortEscapes.lookup c with
      | some d => .ok (d, rest)
      | none => .error .malformed

/-- One character of a string, or its end.  The state holds what has been read, the last character
first. -/
def textStep (read : List Char) : Reader (Turn (List Char) String)
  | [] => .error .eof
  | c :: rest =>
    if c = '\x22' then .ok (.done (String.ofList read.reverse), rest)
    else if c = '\\' then
      match readEscape rest with
      | .error e => .error e
      | .ok (d, rest) => .ok (.again (d :: read), rest)
    else if c.toNat < 0x20 then .error .malformed
    else .ok (.again (c :: read), rest)

/-- Reads a string from behind its opening quote. -/
def readText : Reader String := loop textStep []

def skipEscape : List Char → Except Error (List Char)
  | [] => .error .eof
  | c :: rest =>
    if c = 'u' then (readHex rest).map (·.2)
    else if (shortEscapes.lookup c).isSome then .ok rest
    else .error .malformed

def skipTextStep (_ : Unit) : Reader (Turn Unit Unit)
  | [] => .error .eof
  | c :: rest =>
    if c = '\x22' then .ok (.done (), rest)
    else if c = '\\' then (skipEscape rest).map (.again (), ·)
    else if c.toNat < 0x20 then .error .malformed
    else .ok (.again (), rest)

def skipText (cs : List Char) : Except Error (List Char) := (loop skipTextStep () cs).map (·.2)

def escapeChar (c : Char) : List Char :=
  if c = '\x22' then ['\\', '\x22']
  else if c = '\\' then ['\\', '\\']
  else if c = '\x08' then ['\\', 'b']
  else if c = '\x0c' then ['\\', 'f']
  else if c = '\n' then ['\\', 'n']
  else if c = '\x0d' then ['\\', 'r']
  else if c = '\t' then ['\\', 't']
  else if c.toNat < 0x20 then ['\\', 'u', '0', '0', hexDigit (c.toNat / 16),
    hexDigit (c.toNat % 16)]
  else [c]

def writeText (s : String) : List Char := '\x22' :: s.toList.flatMap escapeChar ++ ['\x22']

end TaskWatch.Json
