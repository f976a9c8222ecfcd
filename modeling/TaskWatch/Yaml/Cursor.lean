import TaskWatch.Text.Octets

/-!
# Places in a document

A cursor is a place in a document: what remains from there on, and how far the place is from the
beginning, in octets and in lines and columns.  A column counts characters.
-/

namespace TaskWatch.Yaml

open TaskWatch.Text (octetCount)

structure Cursor where
  rest : List Char
  /-- The number of octets before the place. -/
  index : Nat
  line : Nat
  column : Nat

/-- The characters that a document may hold. -/
def isAllowed (c : Char) : Bool :=
  let n := c.toNat
  n == 9 || n == 10 || n == 13 || (0x20 ≤ n && n ≤ 0x7E) || n == 0x85 || (0xA0 ≤ n && n ≤ 0xD7FF)
    || (0xE000 ≤ n && n ≤ 0xFFFD) || 0x10000 ≤ n

def isBreak (c : Char) : Bool :=
  c == '\n' || c == '\x0d' || c == '\u0085' || c == '\u2028' || c == '\u2029'

def isBlank (c : Char) : Bool := c == ' ' || c == '\t'

/-- The characters of words: names of anchors, handles and directives. -/
def isWordChar (c : Char) : Bool := c.isAlphanum || c == '_' || c == '-'

/-- What a line break becomes in a text. -/
def breakText (c : Char) : Char := if c == '\u2028' || c == '\u2029' then c else '\n'

/-- Whether a text is over, or goes on with a blank or a line break. -/
def endsWord : List Char → Bool
  | [] => true
  | c :: _ => isBlank c || isBreak c

def endsLine : List Char → Bool
  | [] => true
  | c :: _ => isBreak c

namespace Cursor

def start (cs : List Char) : Cursor := ⟨cs, 0, 0, 0⟩

def skip (n : Nat) (c : Cursor) : Cursor :=
  { c with
    rest := c.rest.drop n
    index := c.index + octetCount (c.rest.take n)
    column := c.column + n }

/-- Goes on within the line to where `rest` remains. -/
def skipTo (rest : List Char) (c : Cursor) : Cursor := c.skip (c.rest.length - rest.length)

/-- Goes on to the next line, if the cursor is at the end of its line. -/
def skipBreak (c : Cursor) : Cursor :=
  match c.rest with
  | '\x0d' :: '\n' :: rest => ⟨rest, c.index + 2, c.line + 1, 0⟩
  | d :: rest => if isBreak d then ⟨rest, c.index + d.utf8Size, c.line + 1, 0⟩ else c
  | [] => c

def skipWhile (p : Char → Bool) (c : Cursor) : Cursor := c.skip (c.rest.takeWhile p).length

def skipBlanks (c : Cursor) : Cursor := c.skipWhile isBlank

def skipComment (c : Cursor) : Cursor :=
  match c.rest with
  | '#' :: _ => c.skipWhile fun d => !isBreak d
  | _ => c

/-- Goes over blanks and a comment to the end of the line, where nothing else may stand. -/
def finishLine (c : Cursor) : Option Cursor :=
  let c := c.skipBlanks.skipComment
  if endsLine c.rest then some c.skipBreak else none

/-- Whether three characters `d` stand here, with nothing behind them. -/
def atTriple (d : Char) (c : Cursor) : Bool :=
  match c.rest with
  | x :: y :: z :: rest => x == d && y == d && z == d && endsWord rest
  | _ => false

/-- Whether a line begins here that separates documents. -/
def atSeparator (c : Cursor) : Bool := c.column == 0 && (c.atTriple '-' || c.atTriple '.')

end Cursor
end TaskWatch.Yaml
