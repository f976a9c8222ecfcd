/-!
# Tokens

The tokens of a document.  Indentation has become brackets: a block collection has a token where it
starts and one where it ends, like a flow collection.  A tag is a row of octets.
-/

namespace TaskWatch.Yaml

inductive Style where
  | plain
  | singleQuoted
  | doubleQuoted
  | literal
  | folded
deriving DecidableEq, Repr

/-- A tag.  Its octets need not be the ones of a text. -/
structure Tag where
  octets : List UInt8
deriving DecidableEq, Repr

namespace Tag

/-- The tag with some octets, of which a zero ends it. -/
def ofOctets (octets : List UInt8) : Tag := ⟨octets.takeWhile (· != 0)⟩

def ofString (s : String) : Tag := .ofOctets s.toUTF8.toList

def mark : Tag := .ofString "!"

def append (t u : Tag) : Tag := ⟨t.octets ++ u.octets⟩

/-- The text behind the mark that a tag begins with.  A tag that is no text has none. -/
def word? (t : Tag) : Option String :=
  match t.octets with
  | 0x21 :: word => String.fromUTF8? ⟨word.toArray⟩
  | _ => none

end Tag

inductive Token where
  | version (major minor : Nat)
  /-- A handle with what it stands for. -/
  | handle (name : String) (expansion : Tag)
  | documentStart
  | documentEnd
  | blockListStart
  | blockMappingStart
  | blockEnd
  | flowListStart
  | flowListEnd
  | flowMappingStart
  | flowMappingEnd
  | blockEntry
  | flowEntry
  | key
  | value
  | alias (name : String)
  | anchor (name : String)
  | tag (handle : String) (suffix : Tag)
  | scalar (text : String) (style : Style)
deriving DecidableEq, Repr

end TaskWatch.Yaml
