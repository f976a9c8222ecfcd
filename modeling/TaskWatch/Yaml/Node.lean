import TaskWatch.Yaml.Lexer

/-!
# Nodes

`Document.ofText?` reads a text that holds at most one document.  A document is a tree of nodes.  A
node may have an anchor, and an alias stands for a node with the number that the name of the anchor
had at that place.
-/

namespace TaskWatch.Yaml

inductive Node where
  | scalar (text : String) (style : Style) (tag : Option Tag)
  | list (items : List Node) (tag : Option Tag)
  | mapping (members : List (Node × Node)) (tag : Option Tag)
  /-- The node with a number. -/
  | alias (number : Nat)
deriving Inhabited

/-- A scalar that is not there. -/
def Node.blank (tag : Option Tag) : Node := .scalar "" .plain tag

structure Document where
  /-- The top node, unless there is nothing in the text. -/
  root : Option Node
  /-- The nodes with anchors and their numbers, in the order in which they begin. -/
  anchored : List (Nat × Node)

/-- The node that a node stands for: of several with one number the last one. -/
def Document.follow? (d : Document) : Node → Option Node
  | .alias number => (d.anchored.reverse.find? (·.1 == number)).map (·.2)
  | n => some n

/-! ## Reading nodes from tokens -/

/-- What is known when a node is read. -/
structure Surroundings where
  /-- The names of anchors with their numbers, the latest first. -/
  names : List (String × Nat)
  /-- The nodes with anchors; one that is still being read is blank. -/
  anchored : List (Nat × Node)
  /-- The handles of tags and what they stand for. -/
  handles : List (String × Tag)

namespace Surroundings

/-- Gives a name to a node that begins; its number is the count of different names so far. -/
def begin (name : String) (s : Surroundings) : Surroundings :=
  let number := (s.names.map (·.1)).eraseDups.length
  { s with
    names := (name, number) :: s.names
    anchored := s.anchored ++ [(number, .blank none)] }

/-- Sets the node that began as the one with index `i` among those with anchors. -/
def complete (i : Nat) (n : Node) (s : Surroundings) : Surroundings :=
  { s with anchored := s.anchored.modify i fun a => (a.1, n) }

def tag? (handle : String) (suffix : Tag) (s : Surroundings) : Option Tag :=
  if handle = "" then some suffix else (s.handles.lookup handle).map (·.append suffix)

end Surroundings

/-- What stands before the content of a node. -/
structure Properties where
  anchor : Option String
  tag : Option Tag

def readProperties (s : Surroundings) : List Token → Option (Properties × List Token)
  | .anchor a :: .tag h x :: ts => (s.tag? h x).map fun tag => (⟨some a, some tag⟩, ts)
  | .tag h x :: .anchor a :: ts => (s.tag? h x).map fun tag => (⟨some a, some tag⟩, ts)
  | .anchor a :: ts => some (⟨some a, none⟩, ts)
  | .tag h x :: ts => (s.tag? h x).map fun tag => (⟨none, some tag⟩, ts)
  | ts => some (⟨none, none⟩, ts)

/-- Where a node stands, which decides about the block collections it may be. -/
inductive Position where
  | flow
  | block
  /-- In a mapping, where a list need not be indented. -/
  | member
deriving DecidableEq

/-- Whether no node comes before the next member of a block mapping. -/
def endsMember : List Token → Bool
  | [] | .key :: _ | .value :: _ | .blockEnd :: _ => true
  | _ => false

def endsItem : List Token → Bool
  | [] | .blockEntry :: _ | .blockEnd :: _ => true
  | _ => false

/-- Whether no node comes before the next item of a list that is not indented. -/
def endsLooseItem (ts : List Token) : Bool := endsItem ts || endsMember ts

def endsFlowMember : List Token → Bool
  | .value :: _ | .flowEntry :: _ | .flowMappingEnd :: _ => true
  | _ => false

def endsFlowItem : List Token → Bool
  | .flowEntry :: _ | .flowListEnd :: _ => true
  | _ => false

abbrev Parsed (α : Type) := α × List Token × Surroundings

mutual

def readNode (fuel : Nat) (at' : Position) (ts : List Token) (s : Surroundings) :
    Option (Parsed Node) :=
  match fuel with
  | 0 => none
  | fuel + 1 =>
    match ts with
    | .alias name :: ts => (s.names.lookup name).map fun number => (.alias number, ts, s)
    | ts => do
      let (p, ts) ← readProperties s ts
      match p.anchor with
      | none => readContent fuel at' p.tag false ts s
      | some name =>
        let i := s.anchored.length
        let (n, ts, s) ← readContent fuel at' p.tag true ts (s.begin name)
        some (n, ts, s.complete i n)

/-- Reads the content of a node behind its tag and anchor; with one of them it may be missing. -/
def readContent (fuel : Nat) (at' : Position) (tag : Option Tag) (named : Bool) (ts : List Token)
    (s : Surroundings) : Option (Parsed Node) :=
  match fuel with
  | 0 => none
  | fuel + 1 =>
    let missing : Option (Parsed Node) :=
      if named || tag.isSome then some (.blank tag, ts, s) else none
    match ts with
    | .scalar text style :: ts => some (.scalar text style tag, ts, s)
    | .flowListStart :: rest => do
      let (items, rest, s) ← readFlowItems fuel true rest s
      some (.list items tag, rest, s)
    | .flowMappingStart :: rest => do
      let (members, rest, s) ← readFlowMembers fuel true rest s
      some (.mapping members tag, rest, s)
    | .blockEntry :: _ =>
      if at' = .member then do
        let (items, rest, s) ← readLooseItems fuel ts s
        some (.list items tag, rest, s)
      else missing
    | .blockListStart :: rest =>
      if at' = .flow then missing
      else do
        let (items, rest, s) ← readBlockItems fuel rest s
        some (.list items tag, rest, s)
    | .blockMappingStart :: rest =>
      if at' = .flow then missing
      else do
        let (members, rest, s) ← readBlockMembers fuel rest s
        some (.mapping members tag, rest, s)
    | _ => missing

def readBlockItems (fuel : Nat) (ts : List Token) (s : Surroundings) :
    Option (Parsed (List Node)) :=
  match fuel with
  | 0 => none
  | fuel + 1 =>
    match ts with
    | .blockEntry :: ts => do
      let (n, ts, s) ← if endsItem ts then some (.blank none, ts, s) else readNode fuel .block ts s
      let (more, ts, s) ← readBlockItems fuel ts s
      some (n :: more, ts, s)
    | .blockEnd :: ts => some ([], ts, s)
    | _ => none

def readLooseItems (fuel : Nat) (ts : List Token) (s : Surroundings) :
    Option (Parsed (List Node)) :=
  match fuel with
  | 0 => none
  | fuel + 1 =>
    match ts with
    | .blockEntry :: ts => do
      let (n, ts, s) ← if endsLooseItem ts then some (.blank none, ts, s)
        else readNode fuel .block ts s
      let (more, ts, s) ← readLooseItems fuel ts s
      some (n :: more, ts, s)
    | ts => some ([], ts, s)

def readBlockMembers (fuel : Nat) (ts : List Token) (s : Surroundings) :
    Option (Parsed (List (Node × Node))) :=
  match fuel with
  | 0 => none
  | fuel + 1 =>
    match ts with
    | .key :: ts => do
      let (k, ts, s) ← if endsMember ts then some (.blank none, ts, s)
        else readNode fuel .member ts s
      let (v, ts, s) ← readBlockValue fuel ts s
      let (more, ts, s) ← readBlockMembers fuel ts s
      some ((k, v) :: more, ts, s)
    | .blockEnd :: ts => some ([], ts, s)
    | _ => none

/-- Reads the value of a member of a block mapping, if there is one. -/
def readBlockValue (fuel : Nat) (ts : List Token) (s : Surroundings) : Option (Parsed Node) :=
  match fuel with
  | 0 => none
  | fuel + 1 =>
    match ts with
    | .value :: ts =>
      if endsMember ts then some (.blank none, ts, s) else readNode fuel .member ts s
    | ts => some (.blank none, ts, s)

def readFlowItems (fuel : Nat) (first : Bool) (ts : List Token) (s : Surroundings) :
    Option (Parsed (List Node)) :=
  match fuel with
  | 0 => none
  | fuel + 1 =>
    match ts with
    | .flowListEnd :: ts => some ([], ts, s)
    | ts => do
      let ts ← if first then some ts else match ts with
        | .flowEntry :: ts => some ts
        | _ => none
      match ts with
      | .flowListEnd :: ts => some ([], ts, s)
      | .key :: ts =>
        let (n, ts, s) ← readPair fuel ts s
        let (more, ts, s) ← readFlowItems fuel false ts s
        some (n :: more, ts, s)
      | ts =>
        let (n, ts, s) ← readNode fuel .flow ts s
        let (more, ts, s) ← readFlowItems fuel false ts s
        some (n :: more, ts, s)

/-- Reads an item of a flow list that is a mapping with one member. -/
def readPair (fuel : Nat) (ts : List Token) (s : Surroundings) : Option (Parsed Node) :=
  match fuel with
  | 0 => none
  | fuel + 1 => do
    let (k, ts, s) ←
      match ts with
      | .value :: ts | .flowEntry :: ts | .flowListEnd :: ts => some (.blank none, ts, s)
      | ts => readNode fuel .flow ts s
    match ts with
    | .value :: ts =>
      let (v, ts, s) ← if endsFlowItem ts then some (.blank none, ts, s)
        else readNode fuel .flow ts s
      some (.mapping [(k, v)] none, ts, s)
    | ts => some (.mapping [(k, .blank none)] none, ts, s)

def readFlowMembers (fuel : Nat) (first : Bool) (ts : List Token) (s : Surroundings) :
    Option (Parsed (List (Node × Node))) :=
  match fuel with
  | 0 => none
  | fuel + 1 =>
    match ts with
    | .flowMappingEnd :: ts => some ([], ts, s)
    | ts => do
      let ts ← if first then some ts else match ts with
        | .flowEntry :: ts => some ts
        | _ => none
      match ts with
      | .flowMappingEnd :: ts => some ([], ts, s)
      | .key :: ts =>
        let (k, ts, s) ←
          if endsFlowMember ts then some (.blank none, ts, s) else readNode fuel .flow ts s
        let (v, ts, s) ← readFlowValue fuel ts s
        let (more, ts, s) ← readFlowMembers fuel false ts s
        some ((k, v) :: more, ts, s)
      | ts =>
        let (k, ts, s) ← readNode fuel .flow ts s
        let (more, ts, s) ← readFlowMembers fuel false ts s
        some ((k, .blank none) :: more, ts, s)

def readFlowValue (fuel : Nat) (ts : List Token) (s : Surroundings) : Option (Parsed Node) :=
  match fuel with
  | 0 => none
  | fuel + 1 =>
    match ts with
    | .value :: ts =>
      match ts with
      | .flowEntry :: _ | .flowMappingEnd :: _ => some (.blank none, ts, s)
      | ts => readNode fuel .flow ts s
    | ts => some (.blank none, ts, s)

end

/-! ## Whole documents -/

/-- The handles that need no directive. -/
def standardHandles : List (String × Tag) := [("!", .mark), ("!!", .ofString "tag:yaml.org,2002:")]

/-- Reads the directives of a document: at most one version, which must be 1.1 or 1.2, and handles
that differ. -/
def readDirectives (version : Bool) (handles : List (String × Tag)) :
    List Token → Option (List (String × Tag) × List Token)
  | .version major minor :: ts =>
    if version || major != 1 || (minor != 1 && minor != 2) then none
    else readDirectives true handles ts
  | .handle name expansion :: ts =>
    if (handles.lookup name).isSome then none
    else readDirectives version ((name, expansion) :: handles) ts
  | ts => some (handles, ts)

def endsDocument : List Token → Bool
  | [] | .version .. :: _ | .handle .. :: _ | .documentStart :: _ | .documentEnd :: _ => true
  | _ => false

def readRoot (mayBeMissing : Bool) (handles : List (String × Tag)) (ts : List Token) :
    Option (Parsed Node) :=
  let s : Surroundings := ⟨[], [], handles ++ standardHandles⟩
  if mayBeMissing && endsDocument ts then some (.blank none, ts, s)
  else readNode (4 * ts.length + 4) .block ts s

def skipEnds (ts : List Token) : List Token := ts.dropWhile (· == .documentEnd)

def Document.ofTokens? (ts : List Token) : Option Document := do
  let (root, rest, s) ←
    match ts with
    | [] => some (none, [], ⟨[], [], []⟩)
    | .version .. :: _ | .handle .. :: _ | .documentStart :: _ =>
      let (handles, ts) ← readDirectives false [] ts
      match ts with
      | .documentStart :: ts => (readRoot true handles ts).map fun (n, ts, s) => (some n, ts, s)
      | _ => none
    | ts => (readRoot false [] ts).map fun (n, ts, s) => (some n, ts, s)
  if (skipEnds rest).isEmpty then some ⟨root, s.anchored⟩ else none

def Document.ofText? (text : String) : Option Document :=
  do Document.ofTokens? (← Token.ofText? text)

end TaskWatch.Yaml
