import TaskWatch.Decimal.Shortest

/-!
# Laying out a floating point number

How the digits of `Binary64.shortest` are put on paper is decided by a `Layout`: for which leading
exponents the point stands among the digits, and how an exponent is written otherwise.
-/

namespace TaskWatch.Decimal

structure Layout where
  /-- The least exponent of the leading digit that is written without an exponent. -/
  positionalFrom : Int
  /-- The greatest exponent of the leading digit that is written without an exponent. -/
  positionalTo : Int
  /-- Whether a positive exponent has a plus sign. -/
  plusSign : Bool

def dropTrailingZeros (cs : List Char) : List Char := (cs.reverse.dropWhile (· == '0')).reverse

/-- The digits `ds` with the leading one at exponent `lead`, in positional notation.  At least one
digit stands on each side of the point. -/
def positional (ds : List Char) (lead : Int) : List Char :=
  if lead < 0 then '0' :: '.' :: List.replicate (-lead - 1).toNat '0' ++ ds
  else
    let whole := lead.toNat + 1
    if ds.length ≤ whole then ds ++ List.replicate (whole - ds.length) '0' ++ ['.', '0']
    else ds.take whole ++ '.' :: ds.drop whole

/-- The digits `ds` with the leading one at exponent `lead`, with the exponent written out. -/
def scientific (layout : Layout) (ds : List Char) (lead : Int) : List Char :=
  let sign := if 0 ≤ lead then (if layout.plusSign then ['+'] else []) else ['-']
  ds.take 1 ++ (if ds.length ≤ 1 then [] else '.' :: ds.drop 1) ++ 'e' :: sign ++ digits lead.natAbs

def Layout.render (layout : Layout) (negative : Bool) (x : Binary64) : List Char :=
  let s := x.shortest
  let all := digits s.significand
  let lead := s.exponent + (all.length - 1 : Nat)
  let ds := if s.significand = 0 then ['0'] else dropTrailingZeros all
  let size :=
    if layout.positionalFrom ≤ lead ∧ lead ≤ layout.positionalTo then positional ds lead
    else scientific layout ds lead
  if negative then '-' :: size else size

end TaskWatch.Decimal
