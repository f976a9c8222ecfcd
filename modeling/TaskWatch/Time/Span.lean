import TaskWatch.Time.Instant

/-!
# Lengths of time

`spanText` writes a number of milliseconds: in seconds from one second on, with as many decimals as
it needs, else in milliseconds.
-/

namespace TaskWatch.Time

open TaskWatch.Decimal (digits)

/-- The decimals of a thousandth part, without zeros at the end. -/
def decimals (thousandths : Nat) : List Char :=
  ((padded 3 thousandths).reverse.dropWhile (· == '0')).reverse

def spanText (millis : Nat) : String :=
  String.ofList <|
    if millis = 0 then ['0', 'n', 's']
    else if millis < 1000 then digits millis ++ ['m', 's']
    else
      let fraction := decimals (millis % 1000)
      digits (millis / 1000) ++ (if fraction = [] then [] else '.' :: fraction) ++ ['s']

end TaskWatch.Time
