import TaskWatch.Yaml.Folding

/-!
# Block scalars

A block scalar is made of the indented lines below its head.  Literal ones keep their line breaks
and folded ones do not, but for those around lines that begin with a blank.  The head may give the
depth of the indentation, and what becomes of the line breaks at the end.
-/

namespace TaskWatch.Yaml

/-- What becomes of the line breaks at the end of a block scalar. -/
inductive Chomping where
  /-- None is kept. -/
  | strip
  /-- One is kept. -/
  | clip
  /-- All are kept. -/
  | keep
deriving DecidableEq

structure BlockHead where
  chomping : Chomping
  /-- How much deeper than its surroundings the scalar is indented, if that is given. -/
  depth : Option Nat

def chomping? (c : Char) : Option Chomping :=
  if c == '+' then some .keep else if c == '-' then some .strip else none

/-- A depth, which must not be zero. -/
def readDepth (cs : List Char) : Option (Option Nat × List Char) :=
  match cs with
  | [] => some (none, [])
  | c :: rest =>
    if !c.isDigit then some (none, cs)
    else if c == '0' then none else some (some (c.toNat - 48), rest)

def readChomping (cs : List Char) : Option Chomping × List Char :=
  match cs with
  | [] => (none, [])
  | c :: rest =>
    match chomping? c with
    | some k => (some k, rest)
    | none => (none, cs)

/-- Reads the head of a block scalar from behind its indicator, in either order of its parts. -/
def readBlockHead (c : Cursor) : Option (BlockHead × Cursor) := do
  let (before, rest) := readChomping c.rest
  let (depth, rest) ← readDepth rest
  let (behind, rest) :=
    if before.isNone && depth.isSome then readChomping rest else (none, rest)
  let c ← (c.skipTo rest).finishLine
  some (⟨(before.or behind).getD .clip, depth⟩, c)

/-- Line breaks in front of a line, and the widest indentation on the way. -/
structure Leading where
  breaks : List Char
  widest : Nat

/-- Goes over empty lines and the indentation of the next line, up to the column `indent` if it is
known.  There must be no tab in an indentation. -/
def readLeadingWithin (indent : Option Nat) :
    (fuel : Nat) → Leading → Cursor → Option (Leading × Cursor)
  | 0, l, c => some (l, c)
  | fuel + 1, l, c =>
    let spaces := (c.rest.takeWhile (· == ' ')).length
    let c := c.skip (match indent with
      | some n => min spaces (n - c.column)
      | none => spaces)
    let l := { l with widest := max l.widest c.column }
    let within := match indent with
      | some n => c.column < n
      | none => true
    match c.rest with
    | [] => some (l, c)
    | d :: _ =>
      if within && d == '\t' then none
      else if isBreak d then
        readLeadingWithin indent fuel { l with breaks := l.breaks ++ [breakText d] } c.skipBreak
      else some (l, c)

def readLeading (indent : Option Nat) (c : Cursor) : Option (Leading × Cursor) :=
  readLeadingWithin indent (c.rest.length + 1) ⟨[], 0⟩ c

/-- A block scalar that is being read. -/
structure BlockText where
  text : List Char
  /-- The break at the end of the last line. -/
  lineBreak : List Char
  /-- The empty lines since. -/
  emptyLines : List Char
  /-- Whether the last line began with a blank. -/
  afterBlank : Bool

/-- The text up to a line that begins with a blank or not. -/
def BlockText.joined (folded beginsBlank : Bool) (b : BlockText) : List Char :=
  if folded && b.lineBreak == ['\n'] && !b.afterBlank && !beginsBlank then
    b.text ++ (if b.emptyLines.isEmpty then [' '] else b.emptyLines)
  else b.text ++ b.lineBreak ++ b.emptyLines

/-- Reads the lines of a block scalar, at most `fuel` of them. -/
def readLinesWithin (folded : Bool) (indent : Nat) : (fuel : Nat) → BlockText → Cursor →
    Option (BlockText × Cursor)
  | 0, b, c => some (b, c)
  | fuel + 1, b, c =>
    if c.column == indent && !c.rest.isEmpty then do
      let beginsBlank := match c.rest with
        | d :: _ => isBlank d
        | [] => false
      let line := c.rest.takeWhile fun d => !isBreak d
      let text := b.joined folded beginsBlank ++ line
      let c := c.skip line.length
      let lineBreak := match c.rest with
        | d :: _ => [breakText d]
        | [] => []
      let (leading, c) ← readLeading (some indent) c.skipBreak
      readLinesWithin folded indent fuel ⟨text, lineBreak, leading.breaks, beginsBlank⟩ c
    else some (b, c)

/-- What is kept of the breaks at the end. -/
def BlockText.chomped (k : Chomping) (b : BlockText) : List Char :=
  match k with
  | .strip => b.text
  | .clip => b.text ++ b.lineBreak
  | .keep => b.text ++ b.lineBreak ++ b.emptyLines

/-- Reads a block scalar whose surroundings are indented by `outer` columns, or by none at all. -/
def readBlock (folded : Bool) (outer : Option Nat) (c : Cursor) : Option (List Char × Cursor) := do
  let (head, c) ← readBlockHead (c.skip 1)
  let given := head.depth.map (· + outer.getD 0)
  let (leading, c) ← readLeading given c
  let least := match outer with
    | some n => n + 1
    | none => 0
  let indent := given.getD (max 1 (max least leading.widest))
  let (b, c) ← readLinesWithin folded indent (c.rest.length + 1) ⟨[], [], leading.breaks, false⟩ c
  some (b.chomped head.chomping, c)

end TaskWatch.Yaml
