import TaskWatch.Yaml.Block
import TaskWatch.Yaml.Plain
import TaskWatch.Yaml.Tag

/-!
# Reading tokens

`Token.ofText?` reads the tokens of a whole document.  The lexer keeps the indentation of the block
collections that are open.  That a scalar is a key shows only at the colon behind it; until then the
lexer remembers, for each flow collection, where a key may have begun.  Such a key must end in its
own line, within 1024 octets.
-/

namespace TaskWatch.Yaml

structure PossibleKey where
  /-- Whether nothing else may stand there. -/
  required : Bool
  /-- The number of the first token of the key. -/
  token : Nat
  index : Nat
  line : Nat
  column : Nat

structure Lexer where
  cursor : Cursor
  tokens : List Token
  /-- The places where keys may have begun, in the innermost collection and then in each flow
  collection around it. -/
  keys : List (Option PossibleKey)
  /-- The column of the innermost block collection; none is open at `-1`. -/
  indent : Int
  /-- The columns of the block collections around it. -/
  outer : List Int
  /-- Whether a key may begin here. -/
  keyAllowed : Bool

namespace Lexer

def start (text : List Char) : Lexer := ⟨.start text, [], [none], -1, [], true⟩

def inFlow (l : Lexer) : Bool := 1 < l.keys.length

def emit (t : Token) (l : Lexer) : Lexer := { l with tokens := l.tokens ++ [t] }

def emitAt (i : Nat) (t : Token) (l : Lexer) : Lexer :=
  { l with tokens := l.tokens.take i ++ t :: l.tokens.drop i }

def skip (n : Nat) (l : Lexer) : Lexer := { l with cursor := l.cursor.skip n }

def allowKey (b : Bool) (l : Lexer) : Lexer := { l with keyAllowed := b }

/-! ## Keys -/

/-- Forgets the key that may have begun in this collection; a required one must not be missing. -/
def forgetKey (l : Lexer) : Option Lexer :=
  match l.keys with
  | some k :: rest => if k.required then none else some { l with keys := none :: rest }
  | _ => some l

def noteKey (l : Lexer) : Option Lexer :=
  if l.keyAllowed then do
    let l ← l.forgetKey
    let c := l.cursor
    let required := !l.inFlow && l.indent == (c.column : Int)
    some { l with
      keys := some ⟨required, l.tokens.length, c.index, c.line, c.column⟩ :: l.keys.drop 1 }
  else some l

/-- Whether a key cannot end here any more. -/
def isStale (c : Cursor) (k : PossibleKey) : Bool := k.line < c.line || k.index + 1024 < c.index

def forgetStale (l : Lexer) : Option Lexer :=
  let stale := l.keys.filterMap fun k => k.filter (isStale l.cursor)
  if stale.any (·.required) then none
  else some { l with keys := l.keys.map fun k => k.filter fun k => !isStale l.cursor k }

/-! ## Indentation -/

/-- Opens a block collection at a column if it is deeper than the ones that are open. -/
def indentTo (column : Nat) (place : Option Nat) (t : Token) (l : Lexer) : Lexer :=
  if l.inFlow || (column : Int) ≤ l.indent then l
  else
    let l := { l with indent := column, outer := l.indent :: l.outer }
    match place with
    | some i => l.emitAt i t
    | none => l.emit t

/-- Closes the block collections that are deeper than a column. -/
def closeDeeper (column : Int) : List Int → Lexer → Lexer
  | [], l => l
  | i :: outer, l =>
    if column < l.indent then
      closeDeeper column outer { l.emit .blockEnd with indent := i, outer }
    else l

def dedentTo (column : Int) (l : Lexer) : Lexer :=
  if l.inFlow then l else closeDeeper column l.outer l

/-! ## Between tokens -/

/-- Goes over blanks, comments and line breaks, at most `fuel` lines of them.  Tabs count as blanks
only where no block collection can begin. -/
def skipToTokenWithin : (fuel : Nat) → Lexer → Lexer
  | 0, l => l
  | fuel + 1, l =>
    let c := if l.cursor.column == 0 && l.cursor.rest.head? == some '\ufeff' then l.cursor.skip 1
      else l.cursor
    let tabs := l.inFlow || !l.keyAllowed
    let c := (c.skipWhile fun d => d == ' ' || (tabs && d == '\t')).skipComment
    let l := { l with cursor := c }
    if endsLine c.rest && !c.rest.isEmpty then
      skipToTokenWithin fuel
        { l with cursor := c.skipBreak, keyAllowed := l.keyAllowed || !l.inFlow }
    else l

def skipToToken (l : Lexer) : Lexer := skipToTokenWithin (l.cursor.rest.length + 1) l

/-! ## Tokens -/

def finish (l : Lexer) : Option (List Token) := do
  let l ← (l.dedentTo (-1)).forgetKey
  some l.tokens

/-- A token that stands outside all collections. -/
def outside (read : Cursor → Option (Token × Cursor)) (l : Lexer) : Option Lexer := do
  let l ← (l.dedentTo (-1)).forgetKey
  let (t, cursor) ← read l.cursor
  some ({ l with cursor }.allowKey false |>.emit t)

def openFlow (t : Token) (l : Lexer) : Option Lexer := do
  let l ← l.noteKey
  some ({ l with keys := none :: l.keys }.allowKey true |>.skip 1 |>.emit t)

def closeFlow (t : Token) (l : Lexer) : Option Lexer := do
  let l ← l.forgetKey
  let keys := if l.inFlow then l.keys.drop 1 else l.keys
  some ({ l with keys }.allowKey false |>.skip 1 |>.emit t)

def flowEntry (l : Lexer) : Option Lexer := do
  let l ← l.forgetKey
  some ((l.allowKey true).skip 1 |>.emit .flowEntry)

/-- Opens a block collection here for one of its indicators, which must be allowed to stand here. -/
def openBlock (t : Token) (l : Lexer) : Option Lexer :=
  if l.inFlow then some l
  else if l.keyAllowed then some (l.indentTo l.cursor.column none t)
  else none

def blockEntry (l : Lexer) : Option Lexer := do
  let l ← (← l.openBlock .blockListStart).forgetKey
  some ((l.allowKey true).skip 1 |>.emit .blockEntry)

/-- The indicator of a key that is not simple. -/
def explicitKey (l : Lexer) : Option Lexer := do
  let l ← (← l.openBlock .blockMappingStart).forgetKey
  some ((l.allowKey (!l.inFlow)).skip 1 |>.emit .key)

/-- The colon between a key and its value.  A key that may have begun here turns out to be one. -/
def value (l : Lexer) : Option Lexer :=
  match l.keys with
  | some k :: rest =>
    let l := ({ l with keys := none :: rest }.emitAt k.token .key).indentTo k.column (some k.token)
      .blockMappingStart
    some ((l.allowKey false).skip 1 |>.emit .value)
  | _ => do
    let l ← l.openBlock .blockMappingStart
    some ((l.allowKey (!l.inFlow)).skip 1 |>.emit .value)

/-- A token that may begin a key. -/
def inline (read : Cursor → Option (Token × Cursor)) (l : Lexer) : Option Lexer := do
  let l ← l.noteKey
  let (t, cursor) ← read l.cursor
  some ({ l with cursor }.allowKey false |>.emit t)

def quotedScalar (single : Bool) (c : Cursor) : Option (Token × Cursor) :=
  (readQuoted single c).map fun (text, c) =>
    (.scalar (String.ofList text) (if single then .singleQuoted else .doubleQuoted), c)

def blockScalar (folded : Bool) (l : Lexer) : Option Lexer := do
  let l ← l.forgetKey
  let outer := if l.indent < 0 then none else some l.indent.toNat
  let (text, cursor) ← readBlock folded outer l.cursor
  some ({ l with cursor }.allowKey true
    |>.emit (.scalar (String.ofList text) (if folded then .folded else .literal)))

def plainScalar (l : Lexer) : Option Lexer := do
  let l ← l.noteKey
  let (s, cursor) ← readPlain l.inFlow (l.indent + 1).toNat l.cursor
  some ({ l with cursor }.allowKey s.lineBehind |>.emit (.scalar (String.ofList s.text) .plain))

/-- The characters that no plain scalar begins with. -/
def isIndicator (c : Char) : Bool :=
  ['-', '?', ':', ',', '[', ']', '{', '}', '#', '&', '*', '!', '|', '>', '\'', '\x22', '%', '@',
    '\x60'].contains c

def beginsPlain (inFlow : Bool) (c : Char) (rest : List Char) : Bool :=
  (!isBlank c && !isBreak c && !isIndicator c)
    || (c == '-' && !(rest.head?.any isBlank))
    || (!inFlow && (c == '?' || c == ':') && !endsWord rest)

/-- Reads the token that begins with `c` before `rest`. -/
def token (c : Char) (rest : List Char) (l : Lexer) : Option Lexer :=
  if l.cursor.column == 0 && c == '%' then l.outside readDirective
  else if l.cursor.column == 0 && l.cursor.atTriple '-' then
    l.outside fun c => some (.documentStart, c.skip 3)
  else if l.cursor.column == 0 && l.cursor.atTriple '.' then
    l.outside fun c => some (.documentEnd, c.skip 3)
  else if c == '[' then l.openFlow .flowListStart
  else if c == '{' then l.openFlow .flowMappingStart
  else if c == ']' then l.closeFlow .flowListEnd
  else if c == '}' then l.closeFlow .flowMappingEnd
  else if c == ',' then l.flowEntry
  else if c == '-' && endsWord rest then l.blockEntry
  else if c == '?' && (l.inFlow || endsWord rest) then l.explicitKey
  else if c == ':' && (l.inFlow || endsWord rest) then l.value
  else if c == '*' then l.inline fun c => (readName c).map fun (name, c) => (.alias name, c)
  else if c == '&' then l.inline fun c => (readName c).map fun (name, c) => (.anchor name, c)
  else if c == '!' then l.inline (readTag l.inFlow)
  else if c == '|' && !l.inFlow then l.blockScalar false
  else if c == '>' && !l.inFlow then l.blockScalar true
  else if c == '\'' then l.inline (quotedScalar true)
  else if c == '\x22' then l.inline (quotedScalar false)
  else if beginsPlain l.inFlow c rest then l.plainScalar
  else none

def run : (fuel : Nat) → Lexer → Option (List Token)
  | 0, _ => none
  | fuel + 1, l => do
    let l ← l.skipToToken.forgetStale
    let l := l.dedentTo l.cursor.column
    match l.cursor.rest with
    | [] => l.finish
    | c :: rest => run fuel (← l.token c rest)

end Lexer

/-- The tokens of a document, if it holds nothing else. -/
def Token.ofText? (text : String) : Option (List Token) :=
  let cs := text.toList
  if cs.all isAllowed then Lexer.run (cs.length + 1) (.start cs) else none

end TaskWatch.Yaml
