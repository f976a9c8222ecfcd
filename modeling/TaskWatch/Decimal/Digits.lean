/-!
# Decimal digits

`digits n` writes a natural number in base ten without leading zeros and `ofDigits` reads a row of
digits back, whatever zeros it starts with.  `ofDigits_digits` says the second undoes the first.
-/

namespace TaskWatch.Decimal

def digitChar (d : Nat) : Char := Char.ofNat (48 + d)

def digitValue (c : Char) : Nat := c.toNat - 48

/-- The digits of `n`, the leading one first. -/
def digits (n : Nat) : List Char :=
  if n < 10 then [digitChar n] else digits (n / 10) ++ [digitChar (n % 10)]
termination_by n
decreasing_by omega

def natText (n : Nat) : String := String.ofList (digits n)

/-- The number that a row of digits continues `start` to. -/
def extend (start : Nat) (cs : List Char) : Nat :=
  cs.foldl (fun n c => n * 10 + digitValue c) start

def ofDigits (cs : List Char) : Nat := extend 0 cs

/-- An integer: its digits after a minus sign when it is negative. -/
def signedDigits : Int → List Char
  | .ofNat n => digits n
  | .negSucc n => '-' :: digits (n + 1)

theorem digitValue_digitChar {d : Nat} (h : d < 10) : digitValue (digitChar d) = d := by
  have : ∀ d, d < 10 → digitValue (digitChar d) = d := by decide
  exact this d h

theorem isDigit_digitChar {d : Nat} (h : d < 10) : (digitChar d).isDigit = true := by
  have : ∀ d, d < 10 → (digitChar d).isDigit = true := by decide
  exact this d h

theorem extend_append (start : Nat) (xs ys : List Char) :
    extend start (xs ++ ys) = extend (extend start xs) ys := List.foldl_append

theorem le_extend (start : Nat) (cs : List Char) : start ≤ extend start cs := by
  induction cs generalizing start with
  | nil => exact Nat.le_refl _
  | cons c cs ih =>
    refine Nat.le_trans ?_ (ih (start * 10 + digitValue c))
    omega

theorem digits_ne_nil (n : Nat) : digits n ≠ [] := by
  rw [digits]; split <;> simp

theorem isDigit_of_mem_digits (n : Nat) : ∀ c ∈ digits n, c.isDigit = true := by
  rw [digits]
  split
  · rename_i h
    intro c hc
    rw [List.mem_singleton.1 hc]; exact isDigit_digitChar h
  · intro c hc
    rcases List.mem_append.1 hc with hc | hc
    · exact isDigit_of_mem_digits (n / 10) c hc
    · rw [List.mem_singleton.1 hc]; exact isDigit_digitChar (by omega)
termination_by n
decreasing_by omega

theorem ofDigits_digits (n : Nat) : ofDigits (digits n) = n := by
  rw [digits]
  split
  · rename_i h
    simp [ofDigits, extend, digitValue_digitChar h]
  · have ih : extend 0 (digits (n / 10)) = n / 10 := ofDigits_digits (n / 10)
    rw [ofDigits, extend_append, ih]
    simp only [extend, List.foldl_cons, List.foldl_nil,
      digitValue_digitChar (show n % 10 < 10 by omega)]
    omega
termination_by n
decreasing_by omega

end TaskWatch.Decimal
