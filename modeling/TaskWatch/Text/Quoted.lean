import TaskWatch.Text.Printable

/-!
# Quoted text

`quoted s` puts a text between double quotes for a reader's eye: quotes and backslashes get a
backslash, a few control characters have a letter, and every other character without a visible form
of its own is given by its code point.
-/

namespace TaskWatch.Text

def hexDigit (d : Nat) : Char := if d < 10 then Char.ofNat (48 + d) else Char.ofNat (87 + d)

def hexDigits (n : Nat) : List Char :=
  if n < 16 then [hexDigit n] else hexDigits (n / 16) ++ [hexDigit (n % 16)]
termination_by n
decreasing_by omega

def quotedChar (c : Char) : List Char :=
  if c = '\x00' then ['\\', '0']
  else if c = '\t' then ['\\', 't']
  else if c = '\n' then ['\\', 'n']
  else if c = '\x0d' then ['\\', 'r']
  else if c = '\x22' then ['\\', '\x22']
  else if c = '\\' then ['\\', '\\']
  else if isPrintable c && !isCombining c then [c]
  else '\\' :: 'u' :: '\x7b' :: hexDigits c.toNat ++ ['\x7d']

def quoted (s : String) : String :=
  "\x22" ++ String.ofList (s.toList.flatMap quotedChar) ++ "\x22"

end TaskWatch.Text
