/-!
# Trimming texts

Removing blanks on both sides of a text, a character as often as it stands at one side, and a word
as often as it stands at the end.
-/

namespace TaskWatch.Text

/-- The characters that count as blank space in any language. -/
def isSpace (c : Char) : Bool :=
  let n := c.toNat
  (9 ≤ n && n ≤ 13) || n == 0x20 || n == 0x85 || n == 0xA0 || n == 0x1680 ||
    (0x2000 ≤ n && n ≤ 0x200A) || n == 0x2028 || n == 0x2029 || n == 0x202F || n == 0x205F ||
    n == 0x3000

def dropEndWhile (p : Char → Bool) (cs : List Char) : List Char := (cs.reverse.dropWhile p).reverse

/-- Drops a word from the front as often as it stands there, up to `times` times. -/
def dropFrontWord (word : List Char) : (times : Nat) → List Char → List Char
  | 0, cs => cs
  | times + 1, cs =>
    if word.isPrefixOf cs then dropFrontWord word times (cs.drop word.length) else cs

/-- Drops a word from the end as often as it stands there. -/
def dropEndWord (word : List Char) (cs : List Char) : List Char :=
  (dropFrontWord word.reverse cs.length cs.reverse).reverse

def trim (s : String) : String := String.ofList (dropEndWhile isSpace (s.toList.dropWhile isSpace))

def trimEndSlashes (s : String) : String := String.ofList (dropEndWhile (· == '/') s.toList)

def trimFrontSlashes (s : String) : String := String.ofList (s.toList.dropWhile (· == '/'))

def trimEndWord (word s : String) : String := String.ofList (dropEndWord word.toList s.toList)

def startsWith (s front : String) : Bool := front.toList.isPrefixOf s.toList

end TaskWatch.Text
