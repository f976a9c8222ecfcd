import TaskWatch.Config.Source

/-!
# A tree of files

`FileTree.read` reads the file at a path.  A path is followed name by name from the left, so the
first name that cannot be followed decides about the fault: behind a directory that is missing
nothing else is looked at.  A path as a whole is refused before any name of it is.
-/

namespace TaskWatch.Config

inductive FileTree where
  | directory (entries : List (String × FileTree))
  | text (content : String)
  /-- A file that holds no text. -/
  | binary

namespace FileTree

def longestName : Nat := 255

def longestPath : Nat := 4095

/-- Follows names from a place, whose enclosing directories are given from the inside out.  Empty
names and single dots stay where they are, and two dots go out by one directory. -/
def follow : (outer : List FileTree) → FileTree → List String → Except FileFault FileTree
  | _, here, [] => .ok here
  | outer, here, name :: names =>
    match here with
    | .directory entries =>
      if name = "" ∨ name = "." then follow outer here names
      else if name = ".." then
        match outer with
        | [] => follow [] here names
        | up :: outer => follow outer up names
      else if longestName < name.utf8ByteSize then .error .longName
      else
        match entries.lookup name with
        | none => .error .missing
        | some entry => follow (here :: outer) entry names
    | _ => .error .notDirectory

/-- What stands at a path in the tree below `root`.  A path that does not begin with a slash starts
at the directory with the path `start`. -/
def find (root : FileTree) (start path : String) : Except FileFault FileTree :=
  if path.toList.contains '\x00' then .error .nulInPath
  else if longestPath < path.utf8ByteSize then .error .longName
  else if path = "" then .error .missing
  else
    let names := path.splitOn "/"
    follow [] root (if names.head? = some "" then names else start.splitOn "/" ++ names)

def content : FileTree → Except FileFault String
  | .directory _ => .error .directory
  | .text content => .ok content
  | .binary => .error .notText

def read (root : FileTree) (start : String) : Files := fun path => root.find start path >>= content

end FileTree
end TaskWatch.Config
