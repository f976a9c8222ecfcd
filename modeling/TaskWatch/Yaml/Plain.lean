import TaskWatch.Yaml.Folding

/-!
# Plain scalars

A scalar without quotes goes on until a colon that a blank follows, a comment, a line that separates
documents, or, outside flow collections, a line that is not indented enough; inside them, the
indicators of a collection end it too.
-/

namespace TaskWatch.Yaml

/-- The characters that structure flow collections. -/
def isFlowIndicator (c : Char) : Bool := c == ',' || c == '[' || c == ']' || c == '{' || c == '}'

/-- Whether a colon before this text ends a plain scalar in a flow collection in no good way. -/
def afterStrayColon : List Char → Bool
  | [] => false
  | c :: _ => isFlowIndicator c || c == '?'

/-- Reads characters of a plain scalar up to a gap or its end. -/
def plainRun (inFlow : Bool) : List Char → Option (List Char × List Char)
  | [] => some ([], [])
  | c :: cs =>
    if isBlank c || isBreak c then some ([], c :: cs)
    else if c == ':' && inFlow && afterStrayColon cs then none
    else if (c == ':' && endsWord cs) || (inFlow && isFlowIndicator c) then some ([], c :: cs)
    else (plainRun inFlow cs).map fun (run, rest) => (c :: run, rest)

structure PlainScalar where
  text : List Char
  /-- Whether the cursor has come to a later line behind it. -/
  lineBehind : Bool

/-- Reads a plain scalar, of which `text` has been read and `gap` follows, in at most `fuel`
runs. -/
def readPlainWithin (inFlow : Bool) (indent : Nat) :
    (fuel : Nat) → (text : List Char) → Gap → Cursor →
    Option (PlainScalar × Cursor)
  | 0, text, gap, c => some (⟨text, gap.broken⟩, c)
  | fuel + 1, text, gap, c =>
    if c.atSeparator || c.rest.head? == some '#' then some (⟨text, gap.broken⟩, c)
    else do
      let (run, rest) ← plainRun inFlow c.rest
      if run.isEmpty then some (⟨text, gap.broken⟩, c)
      else
        let text := text ++ gap.text ++ run
        let (gap, c) ← readGap indent .empty (c.skipTo rest)
        if gap.blanks.isEmpty && !gap.broken then some (⟨text, false⟩, c)
        else if !inFlow && c.column < indent then some (⟨text, gap.broken⟩, c)
        else readPlainWithin inFlow indent fuel text gap c

/-- Reads a plain scalar in lines of at least `indent` columns of indentation. -/
def readPlain (inFlow : Bool) (indent : Nat) (c : Cursor) : Option (PlainScalar × Cursor) :=
  readPlainWithin inFlow indent c.rest.length [] .empty c

end TaskWatch.Yaml
