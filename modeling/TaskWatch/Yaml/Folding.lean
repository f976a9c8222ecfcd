import TaskWatch.Yaml.Cursor

/-!
# Folding lines

Between two words of a text there are blanks, or line breaks with blanks around them.  A single line
break becomes a space; of several the first one is dropped.
-/

namespace TaskWatch.Yaml

/-- What stands between two words. -/
structure Gap where
  /-- The blanks before the first line break. -/
  blanks : List Char
  /-- The line breaks. -/
  breaks : List Char
  /-- Whether there was a line break, be it one that was escaped. -/
  broken : Bool
  /-- Whether the line before was ended by an escaped line break. -/
  escaped : Bool

namespace Gap

def empty : Gap := ⟨[], [], false, false⟩

def afterEscape : Gap := ⟨[], [], true, true⟩

def text (g : Gap) : List Char :=
  if !g.broken then g.blanks
  else if g.escaped then g.breaks
  else
    match g.breaks with
    | ['\n'] => [' ']
    | '\n' :: more => more
    | breaks => breaks

end Gap

/-- Reads a gap, at most `fuel` characters of it.  In a line that only blanks have come in so far,
there may be no tab before the column `indent`. -/
def readGapWithin (indent : Nat) : (fuel : Nat) → Gap → Cursor → Option (Gap × Cursor)
  | 0, g, c => some (g, c)
  | fuel + 1, g, c =>
    match c.rest with
    | [] => some (g, c)
    | d :: _ =>
      if isBlank d then
        if !g.broken then readGapWithin indent fuel { g with blanks := g.blanks ++ [d] } (c.skip 1)
        else if d == '\t' && c.column < indent then none
        else readGapWithin indent fuel g (c.skip 1)
      else if isBreak d then
        readGapWithin indent fuel
          { g with breaks := g.breaks ++ [breakText d], broken := true } c.skipBreak
      else some (g, c)

def readGap (indent : Nat) (g : Gap) (c : Cursor) : Option (Gap × Cursor) :=
  readGapWithin indent c.rest.length g c

end TaskWatch.Yaml
