import TaskWatch.Decimal.Binary64
import TaskWatch.Decimal.Digits

/-!
# The fewest digits that read back

`Binary64.shortest x` is the decimal number with the fewest digits among those that round to `x`,
and of these the nearest to `x`.  The numbers that round to `x` lie between the midpoints to its two
neighbours; the midpoints themselves belong to it when its mantissa is even.  If some point of a
decimal grid lies in there, then so does one of the two grid points around `x`, so only these two
are tried, on coarse grids first.
-/

namespace TaskWatch.Decimal

/-- A positive decimal number `significand * 10 ^ exponent`. -/
structure Scientific where
  significand : Nat
  exponent : Int
deriving DecidableEq, Repr

/-- Compares `a * 10 ^ p` with `t * 2 ^ q`, exactly. -/
def compareScaled (a : Nat) (p : Int) (t : Nat) (q : Int) : Ordering :=
  compare (a * Nat.pow 10 p.toNat * Nat.pow 2 (-q).toNat)
    (t * Nat.pow 2 q.toNat * Nat.pow 10 (-p).toNat)

namespace Binary64

/-- The midpoint to the next smaller size, in quarters of the last place.  Below a power of two the
sizes lie twice as close. -/
def lowerMidpoint (x : Binary64) : Nat :=
  if x.mantissa = mantissaBound / 2 ∧ leastExponent < x.exponent then 4 * x.mantissa - 1
  else 4 * x.mantissa - 2

/-- The midpoint to the next larger size, in quarters of the last place. -/
def upperMidpoint (x : Binary64) : Nat := 4 * x.mantissa + 2

/-- Whether `a * 10 ^ p` rounds to `x`. -/
def reads (x : Binary64) (a : Nat) (p : Int) : Bool :=
  let low := compareScaled a p x.lowerMidpoint (x.exponent - 2)
  let high := compareScaled a p x.upperMidpoint (x.exponent - 2)
  if x.mantissa % 2 = 0 then low != .lt && high != .gt else low == .gt && high == .lt

/-- The exponent `k` with `10 ^ k ≤ num / den < 10 ^ (k + 1)`, searched among those below zero. -/
def leadingBelowOne (num den : Nat) : Nat → Int → Int
  | 0, k => k
  | fuel + 1, k => if den ≤ num * Nat.pow 10 (-k).toNat then k
      else leadingBelowOne num den fuel (k - 1)

/-- The decimal exponent of the leading digit of a positive size. -/
def leadingExponent (x : Binary64) : Int :=
  let r := x.ratio
  if r.2 ≤ r.1 then (digits (r.1 / r.2)).length - 1 else leadingBelowOne r.1 r.2 400 (-1)

/-- The point of the grid `10 ^ p` that reads as `x`; of two the nearer, and of two equally near the
even one. -/
def onGrid? (x : Binary64) (p : Int) : Option Nat :=
  let r := x.ratio
  let num := r.1 * Nat.pow 10 (-p).toNat
  let den := r.2 * Nat.pow 10 p.toNat
  let below := num / den
  match x.reads below p, x.reads (below + 1) p with
  | true, false => some below
  | false, true => some (below + 1)
  | true, true => some (roundHalfEven num den)
  | false, false => none

/-- Tries grids with `count`, `count + 1`, … digits. -/
def shortestFrom (x : Binary64) (lead : Int) : Nat → Nat → Scientific
  | 0, _ => ⟨x.mantissa, 0⟩
  | fuel + 1, count =>
    let p := lead - (count - 1 : Nat)
    match x.onGrid? p with
    | some a => ⟨a, p⟩
    | none => shortestFrom x lead fuel (count + 1)

/-- The decimal number with the fewest digits that reads as `x`.  Seventeen digits always do. -/
def shortest (x : Binary64) : Scientific :=
  if x.mantissa = 0 then ⟨0, 0⟩ else shortestFrom x x.leadingExponent 17 1

end Binary64
end TaskWatch.Decimal
