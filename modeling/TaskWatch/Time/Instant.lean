import TaskWatch.Decimal.Digits

/-!
# Points in time

An instant is a number of milliseconds since the start of 1970.  `Instant.text` gives the date and
the time of day in Greenwich, with the milliseconds if there are any.
-/

namespace TaskWatch.Time

open TaskWatch.Decimal (digits)

/-- Milliseconds since the start of 1970. -/
structure Instant where
  millis : Nat
deriving DecidableEq, Repr

structure Date where
  year : Nat
  month : Nat
  day : Nat
deriving DecidableEq, Repr

/-- The days of the calendar from the first of March of the year 0 to the start of 1970. -/
def daysBefore1970 : Nat := 719468

/-- The day that lies `n` days after the start of 1970.  Years are counted from March on, in rows of
400 with 146097 days each, so that a leap day ends its year. -/
def Date.ofDays (n : Nat) : Date :=
  let z := n + daysBefore1970
  let inRow := z % 146097
  let yearInRow := (inRow - inRow / 1460 + inRow / 36524 - inRow / 146096) / 365
  let dayOfYear := inRow - (365 * yearInRow + yearInRow / 4 - yearInRow / 100)
  let fromMarch := (5 * dayOfYear + 2) / 153
  let day := dayOfYear - (153 * fromMarch + 2) / 5 + 1
  let month := if fromMarch < 10 then fromMarch + 3 else fromMarch - 9
  let year := z / 146097 * 400 + yearInRow
  ⟨if month ≤ 2 then year + 1 else year, month, day⟩

/-- The last millisecond of the year 262142. -/
def Instant.last : Instant := ⟨8210266876799999⟩

/-- Whether the calendar, which begins with the year -262143, reaches a point in time.  It is given
in milliseconds since the start of 1970 and may lie before that. -/
def isInCalendar (millis : Int) : Bool :=
  -8334601228800000 ≤ millis && millis ≤ (Instant.last.millis : Int)

def padded (width n : Nat) : List Char :=
  let ds := digits n
  List.replicate (width - ds.length) '0' ++ ds

/-- A year.  One with more than four digits has a sign. -/
def yearText (year : Nat) : List Char :=
  if year ≤ 9999 then padded 4 year else '+' :: digits year

/-- The date and the time of day, in the form of `2023-11-14T22:13:20.500+00:00`. -/
def Instant.text (i : Instant) : String :=
  let seconds := i.millis / 1000
  let date := Date.ofDays (seconds / 86400)
  let time := seconds % 86400
  let fraction := i.millis % 1000
  String.ofList <|
    yearText date.year ++ '-' :: padded 2 date.month ++ '-' :: padded 2 date.day
      ++ 'T' :: padded 2 (time / 3600) ++ ':' :: padded 2 (time / 60 % 60) ++
        ':' :: padded 2 (time % 60)
      ++ (if fraction = 0 then [] else '.' :: padded 3 fraction)
      ++ ['+', '0', '0', ':', '0', '0']

end TaskWatch.Time
