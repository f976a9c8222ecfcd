/-!
# Binary floating point sizes

A finite binary64 size is `mantissa * 2 ^ exponent`.  `nearest?` rounds an exact ratio of natural
numbers to the nearest size, a tie going to the even mantissa, and gives nothing when the nearest
size would be beyond the largest finite one.  `ofScientific?` gives `m * 10 ^ e` in two roundings:
`m` is rounded first, and the result is scaled by the rounded power of ten.
-/

namespace TaskWatch.Decimal

/-- A finite binary64 number without its sign: `mantissa * 2 ^ exponent`, where the mantissa has
at most 53 bits. -/
structure Binary64 where
  mantissa : Nat
  exponent : Int
deriving DecidableEq, Repr

/-- The quotient `num / den` rounded to the nearest natural number, a tie to the even one. -/
def roundHalfEven (num den : Nat) : Nat :=
  let q := num / den
  let r := num % den
  if 2 * r < den then q else if den < 2 * r then q + 1 else q + q % 2

/-- The ratio `num / den / 2 ^ e`, as a numerator and a denominator. -/
def scaleDown (num den : Nat) (e : Int) : Nat × Nat :=
  if 0 ≤ e then (num, den * Nat.pow 2 e.toNat) else (num * Nat.pow 2 (-e).toNat, den)

namespace Binary64

def mantissaBound : Nat := Nat.pow 2 53

def leastExponent : Int := -1074

def greatestExponent : Int := 971

/-- The size nearest to `num / den`, or nothing when that is no finite size. -/
def nearest? (num den : Nat) : Option Binary64 :=
  if num = 0 then some ⟨0, 0⟩
  else
    let low : Int := (num.log2 : Int) - den.log2 - 53
    let fit := scaleDown num den low
    let e := max leastExponent (if fit.1 / fit.2 < mantissaBound then low else low + 1)
    let scaled := scaleDown num den e
    let m := roundHalfEven scaled.1 scaled.2
    let x : Binary64 := if m = mantissaBound then ⟨mantissaBound / 2, e + 1⟩ else ⟨m, e⟩
    if x.exponent ≤ greatestExponent then some x else none

/-- The exact value, as a numerator and a denominator. -/
def ratio (x : Binary64) : Nat × Nat :=
  if 0 ≤ x.exponent then (x.mantissa * Nat.pow 2 x.exponent.toNat, 1)
  else (x.mantissa, Nat.pow 2 (-x.exponent).toNat)

/-- The exact value of the size nearest to `10 ^ k`, for the powers of ten that have one. -/
def tenPower (k : Nat) : Nat × Nat := ((nearest? (Nat.pow 10 k) 1).getD ⟨1, 0⟩).ratio

/-- The greatest power of ten with a finite size. -/
def tenPowerLimit : Nat := 308

/-- The size nearest to `x * 10 ^ k`, the power of ten rounded beforehand. -/
def timesTen? (x : Binary64) (k : Nat) : Option Binary64 :=
  nearest? (x.ratio.1 * (tenPower k).1) (x.ratio.2 * (tenPower k).2)

/-- The size nearest to `x / 10 ^ k`, the power of ten rounded beforehand. -/
def overTen? (x : Binary64) (k : Nat) : Option Binary64 :=
  nearest? (x.ratio.1 * (tenPower k).2) (x.ratio.2 * (tenPower k).1)

/-- Scales by `10 ^ e`: upwards in one step or not at all, downwards in steps of the greatest power
of ten, of which `steps` are enough when nothing is left of `x` after them. -/
def scaleTen? : Nat → Binary64 → Int → Option Binary64
  | 0, _, _ => some ⟨0, 0⟩
  | steps + 1, x, e =>
    if e.natAbs ≤ tenPowerLimit then
      if 0 ≤ e then x.timesTen? e.natAbs else x.overTen? e.natAbs
    else if x.mantissa = 0 then some x
    else if 0 ≤ e then none
    else do scaleTen? steps (← x.overTen? tenPowerLimit) (e + tenPowerLimit)

/-- The size given for `significand * 10 ^ e`, or nothing when it is beyond the finite ones.  Three
steps down by the greatest power of ten leave nothing of a significand below `2 ^ 64`. -/
def ofScientific? (significand : Nat) (e : Int) : Option Binary64 := do
  scaleTen? 4 (← nearest? significand 1) e

end Binary64
end TaskWatch.Decimal
