import TaskWatch.Yaml.Quoted
import TaskWatch.Yaml.Token

/-!
# Names in a document

Anchors and aliases, tags, and the directives at the head of a document.  A tag is given whole, or
by a handle and a suffix; in both, octets may be escaped by a percent sign.
-/

namespace TaskWatch.Yaml

open TaskWatch.Decimal (digitIn? ofDigits)

/-! ## Addresses -/

/-- The characters of addresses.  Some of them structure flow collections and are allowed only where
an address stands on its own. -/
def isUriChar (alone : Bool) (c : Char) : Bool :=
  isWordChar c || [';', '/', '?', ':', '@', '&', '=', '+', '$', '.', '%', '!', '~', '*', '\'', '(',
    ')'].contains c || (alone && [',', '[', ']'].contains c)

def octetsOf (cs : List Char) : List UInt8 := cs.flatMap String.utf8EncodeChar

def readOctet : List Char → Option (UInt8 × List Char)
  | '%' :: a :: b :: cs => do some (.ofNat ((← digitIn? 16 a) * 16 + (← digitIn? 16 b)), cs)
  | _ => none

/-- The number of octets that follow a leading one. -/
def octetsAfter? (octet : UInt8) : Option Nat :=
  if octet < 0x80 then some 0
  else if octet / 0x20 = 6 then some 1
  else if octet / 0x10 = 14 then some 2
  else if octet / 8 = 30 then some 3
  else none

def readFollowing : (count : Nat) → List Char → Option (List UInt8 × List Char)
  | 0, cs => some ([], cs)
  | count + 1, cs => do
    let (octet, cs) ← readOctet cs
    if octet / 0x40 = 2 then
      let (more, cs) ← readFollowing count cs
      some (octet :: more, cs)
    else none

/-- Reads an escaped leading octet with the ones that follow it.  Whether they encode a character is
not asked. -/
def readOctets (cs : List Char) : Option (List UInt8 × List Char) := do
  let (octet, cs) ← readOctet cs
  let (more, cs) ← readFollowing (← octetsAfter? octet) cs
  some (octet :: more, cs)

/-- Reads an address, at most `fuel` characters of it. -/
def readUriWithin (alone : Bool) : (fuel : Nat) → List Char → Option (List UInt8 × List Char)
  | 0, cs => some ([], cs)
  | _ + 1, [] => some ([], [])
  | fuel + 1, c :: cs =>
    if c == '%' then do
      let (octets, cs) ← readOctets (c :: cs)
      let (rest, cs) ← readUriWithin alone fuel cs
      some (octets ++ rest, cs)
    else if isUriChar alone c then do
      let (rest, cs) ← readUriWithin alone fuel cs
      some (octetsOf [c] ++ rest, cs)
    else some ([], c :: cs)

def readUri (alone : Bool) (cs : List Char) : Option (List UInt8 × List Char) :=
  readUriWithin alone cs.length cs

/-! ## Tags -/

/-- Reads an exclamation mark with the word behind it and the mark that may end that. -/
def readHandle : List Char → Option (List Char × List Char)
  | '!' :: cs =>
    let word := cs.takeWhile isWordChar
    match cs.dropWhile isWordChar with
    | '!' :: rest => some ('!' :: word ++ ['!'], rest)
    | rest => some ('!' :: word, rest)
  | _ => none

/-- Whether what `readHandle` gives is a handle: it ends in a mark of its own. -/
def isHandle (cs : List Char) : Bool := 1 < cs.length && cs.getLast? == some '!'

def readTagParts : List Char → Option ((List Char × Tag) × List Char)
  | '!' :: '<' :: cs => do
    let (uri, cs) ← readUri true cs
    if uri.isEmpty then none
    else
      match cs with
      | '>' :: cs => some (([], .ofOctets uri), cs)
      | _ => none
  | cs => do
    let (handle, cs) ← readHandle cs
    let (more, cs) ← readUri false cs
    if isHandle handle then if more.isEmpty then none else some ((handle, .ofOctets more), cs)
    else
      let suffix := Tag.ofOctets (octetsOf (handle.drop 1) ++ more)
      some (if suffix.octets.isEmpty then ([], .mark) else (['!'], suffix), cs)

/-- Reads a tag, which must be followed by a blank, or by a comma inside flow collections. -/
def readTag (inFlow : Bool) (c : Cursor) : Option (Token × Cursor) := do
  let ((handle, suffix), rest) ← readTagParts c.rest
  if (inFlow && rest.head? == some ',') || endsWord rest then
    some (.tag (String.ofList handle) suffix, c.skipTo rest)
  else none

/-! ## Anchors -/

def mayFollowName : List Char → Bool
  | [] => true
  | c :: _ => isBlank c || isBreak c || ['?', ':', ',', ']', '}', '%', '@', '\x60'].contains c

/-- Reads the name of an anchor or an alias from its indicator on. -/
def readName (c : Cursor) : Option (String × Cursor) :=
  let c := c.skip 1
  let name := c.rest.takeWhile isWordChar
  let rest := c.rest.dropWhile isWordChar
  if name.isEmpty || !mayFollowName rest then none else some (String.ofList name, c.skipTo rest)

/-! ## Directives -/

def readVersionPart (cs : List Char) : Option (Nat × List Char) :=
  let ds := cs.takeWhile Char.isDigit
  if ds.isEmpty || 9 < ds.length then none else some (ofDigits ds, cs.dropWhile Char.isDigit)

def readVersion (cs : List Char) : Option (Token × List Char) := do
  let (major, cs) ← readVersionPart (cs.dropWhile isBlank)
  match cs with
  | '.' :: cs =>
    let (minor, cs) ← readVersionPart cs
    some (.version major minor, cs)
  | _ => none

def readHandleDirective (cs : List Char) : Option (Token × List Char) := do
  let (name, cs) ← readHandle (cs.dropWhile isBlank)
  if !isHandle name && name != ['!'] then none
  else
    match cs with
    | [] => none
    | d :: _ =>
      if !isBlank d then none
      else
        let (uri, cs) ← readUri true (cs.dropWhile isBlank)
        if uri.isEmpty || !endsWord cs then none
        else some (.handle (String.ofList name) (.ofOctets uri), cs)

def readDirective (c : Cursor) : Option (Token × Cursor) := do
  let c := c.skip 1
  let name := c.rest.takeWhile isWordChar
  let rest := c.rest.dropWhile isWordChar
  if !endsWord rest then none
  else
    let (token, rest) ←
      if name = ['Y', 'A', 'M', 'L'] then readVersion rest
      else if name = ['T', 'A', 'G'] then readHandleDirective rest
      else none
    some (token, ← (c.skipTo rest).finishLine)

end TaskWatch.Yaml
