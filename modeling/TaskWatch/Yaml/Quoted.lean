import TaskWatch.Yaml.Folding
import TaskWatch.Decimal.Bounded

/-!
# Quoted scalars

A scalar between single quotes has no escapes but the doubled quote; one between double quotes has
escapes for single characters, for code points, and for line breaks that are to leave no trace.
-/

namespace TaskWatch.Yaml

open TaskWatch.Decimal (digitIn?)

def escapes : List (Char × Char) :=
  [('0', '\x00'), ('a', '\x07'), ('b', '\x08'), ('t', '\t'), ('\t', '\t'), ('n', '\n'),
    ('v', '\x0b'), ('f', '\x0c'), ('r', '\x0d'), ('e', '\x1b'), (' ', ' '), ('\x22', '\x22'),
    ('/', '/'), ('\\', '\\'), ('N', '\u0085'), ('_', '\u00a0'), ('L', '\u2028'), ('P', '\u2029')]

/-- The escapes for code points, with the number of their digits. -/
def codeEscapes : List (Char × Nat) := [('x', 2), ('u', 4), ('U', 8)]

def readCode : (count : Nat) → (start : Nat) → List Char → Option (Nat × List Char)
  | 0, n, cs => some (n, cs)
  | _ + 1, _, [] => none
  | count + 1, n, c :: cs => do readCode count (n * 16 + (← digitIn? 16 c)) cs

def charOf? (n : Nat) : Option Char := if h : n.isValidChar then some (Char.ofNatAux n h) else none

/-- The character that a backslash stands before. -/
def readEscape : List Char → Option (Char × List Char)
  | [] => none
  | c :: cs =>
    match escapes.lookup c with
    | some d => some (d, cs)
    | none => do
      let (n, cs) ← readCode (← codeEscapes.lookup c) 0 cs
      some (← charOf? n, cs)

inductive RunEnd where
  | quote
  /-- A blank, a line break, or the end of the document. -/
  | gap
  | escapedBreak
deriving DecidableEq

/-- Reads characters inside single quotes up to a gap or the closing quote. -/
def singleRun : List Char → List Char × RunEnd × List Char
  | [] => ([], .gap, [])
  | '\'' :: '\'' :: cs =>
    let (run, stop, rest) := singleRun cs
    ('\'' :: run, stop, rest)
  | c :: cs =>
    if isBlank c || isBreak c then ([], .gap, c :: cs)
    else if c == '\'' then ([], .quote, cs)
    else
      let (run, stop, rest) := singleRun cs
      (c :: run, stop, rest)

/-- Reads characters inside double quotes up to a gap or the closing quote. -/
def doubleRun : (fuel : Nat) → List Char → Option (List Char × RunEnd × List Char)
  | 0, cs => some ([], .gap, cs)
  | _ + 1, [] => some ([], .gap, [])
  | fuel + 1, c :: cs =>
    if isBlank c || isBreak c then some ([], .gap, c :: cs)
    else if c == '\x22' then some ([], .quote, cs)
    else if c == '\\' then
      if endsLine cs && !cs.isEmpty then some ([], .escapedBreak, cs)
      else do
        let (d, cs) ← readEscape cs
        let (run, stop, rest) ← doubleRun fuel cs
        some (d :: run, stop, rest)
    else do
      let (run, stop, rest) ← doubleRun fuel cs
      some (c :: run, stop, rest)

/-- Reads a quoted scalar from behind its opening quote, in at most `fuel` runs. -/
def readQuotedWithin (single : Bool) : (fuel : Nat) → (text : List Char) → Cursor →
    Option (List Char × Cursor)
  | 0, _, _ => none
  | fuel + 1, text, c =>
    if c.atSeparator || c.rest.isEmpty then none
    else do
      let (run, stop, rest) ← if single then some (singleRun c.rest)
        else doubleRun c.rest.length c.rest
      let c := c.skipTo rest
      match stop with
      | .quote => some (text ++ run, c)
      | .gap =>
        let (g, c) ← readGap 0 .empty c
        readQuotedWithin single fuel (text ++ run ++ g.text) c
      | .escapedBreak =>
        let (g, c) ← readGap 0 .afterEscape c.skipBreak
        readQuotedWithin single fuel (text ++ run ++ g.text) c

def readQuoted (single : Bool) (c : Cursor) : Option (List Char × Cursor) :=
  readQuotedWithin single (c.rest.length + 1) [] (c.skip 1)

end TaskWatch.Yaml
