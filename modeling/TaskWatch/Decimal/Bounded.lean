import TaskWatch.Decimal.Digits

/-!
# Numbers within bounds

`readBounded` reads a text that is a natural number below a limit, in a base of at most sixteen.
The text is read from left to right, so that of two faults the first one counts.
`readUInt64_eq_ok_iff` says which texts are numbers of 64 bits.
-/

namespace TaskWatch.Decimal

inductive NumberFault where
  | empty
  | badDigit
  | tooLarge
deriving DecidableEq, Repr

def NumberFault.message : NumberFault → String
  | .empty => "cannot parse integer from empty string"
  | .badDigit => "invalid digit found in string"
  | .tooLarge => "number too large to fit in target type"

def digitIn? (base : Nat) (c : Char) : Option Nat :=
  let n := c.toNat
  let value :=
    if 48 ≤ n ∧ n ≤ 57 then n - 48
    else if 97 ≤ n ∧ n ≤ 122 then n - 87
    else if 65 ≤ n ∧ n ≤ 90 then n - 55
    else base
  if value < base then some value else none

def continueBounded (base limit : Nat) : (start : Nat) → List Char → Except NumberFault Nat
  | start, [] => .ok start
  | start, c :: cs =>
    match digitIn? base c with
    | none => .error .badDigit
    | some d =>
      if start * base + d < limit then continueBounded base limit (start * base + d) cs
      else .error .tooLarge

/-- Reads digits that a plus sign may stand before. -/
def readBounded (base limit : Nat) (cs : List Char) : Except NumberFault Nat :=
  match cs with
  | [] => .error .empty
  | '+' :: [] => .error .badDigit
  | '+' :: cs => continueBounded base limit 0 cs
  | cs => continueBounded base limit 0 cs

def readUInt64 (s : String) : Except NumberFault UInt64 :=
  (readBounded 10 UInt64.size s.toList).map UInt64.ofNat

/-! ## What is read -/

/-- A text that is a natural number in decimal digits, which a plus sign may stand before. -/
def Denotes (cs : List Char) (n : Nat) : Prop :=
  ∃ ds, (cs = ds ∨ cs = '+' :: ds) ∧ ds ≠ [] ∧ (∀ c ∈ ds, c.isDigit = true) ∧ ofDigits ds = n

theorem isDigit_iff (c : Char) : c.isDigit = true ↔ 48 ≤ c.toNat ∧ c.toNat ≤ 57 := by
  simp only [Char.isDigit, Bool.and_eq_true, decide_eq_true_eq, ge_iff_le, UInt32.le_iff_toNat_le]
  exact Iff.rfl

theorem digitIn?_ten (c : Char) :
    digitIn? 10 c = if c.isDigit = true then some (digitValue c) else none := by
  unfold digitIn?
  by_cases h : 48 ≤ c.toNat ∧ c.toNat ≤ 57
  · have hlt : c.toNat - 48 < 10 := by omega
    simp only [isDigit_iff, h, and_self, if_true, hlt]
    rfl
  · simp only [isDigit_iff, h, if_false]
    -- The value of a letter is no less than ten.
    refine if_neg ?_
    split
    · omega
    · split
      · omega
      · omega

/-- Digits are read as long as the number stays below the limit, and digits behind it make it no
smaller. -/
theorem continueBounded_eq_ok_iff {limit start n : Nat} {cs : List Char} (h : start < limit) :
    continueBounded 10 limit start cs = .ok n ↔
      (∀ c ∈ cs, c.isDigit = true) ∧ extend start cs = n ∧ n < limit := by
  induction cs generalizing start with
  | nil =>
    constructor
    · intro hn
      obtain rfl := Except.ok.inj hn
      exact ⟨nofun, rfl, h⟩
    · rintro ⟨-, rfl, -⟩
      rfl
  | cons c cs ih =>
    rw [continueBounded, digitIn?_ten]
    by_cases hc : c.isDigit = true
    · rw [if_pos hc]
      by_cases hlt : start * 10 + digitValue c < limit
      · simp only [hlt, if_true]
        rw [ih hlt, List.forall_mem_cons]
        exact ⟨fun ⟨hd, hn⟩ => ⟨⟨hc, hd⟩, hn⟩, fun ⟨hd, hn⟩ => ⟨hd.2, hn⟩⟩
      · have hle : start * 10 + digitValue c ≤ extend start (c :: cs) := le_extend _ cs
        simp only [hlt, if_false]
        constructor
        · nofun
        · rintro ⟨-, rfl, hn⟩
          omega
    · rw [if_neg hc]
      constructor
      · nofun
      · intro hall
        exact absurd (hall.1 c List.mem_cons_self) hc

theorem denotes_plus {cs : List Char} {n : Nat} :
    Denotes ('+' :: cs) n ↔ cs ≠ [] ∧ (∀ c ∈ cs, c.isDigit = true) ∧ ofDigits cs = n := by
  constructor
  · rintro ⟨ds, rfl | h, hne, hd, hn⟩
    · exact absurd (hd '+' List.mem_cons_self) (by decide)
    · obtain rfl := (List.cons.inj h).2
      exact ⟨hne, hd, hn⟩
  · rintro ⟨hne, hd, hn⟩
    exact ⟨cs, Or.inr rfl, hne, hd, hn⟩

theorem denotes_of_head_ne {cs : List Char} {n : Nat} (h : ∀ ds, cs ≠ '+' :: ds) :
    Denotes cs n ↔ cs ≠ [] ∧ (∀ c ∈ cs, c.isDigit = true) ∧ ofDigits cs = n := by
  constructor
  · rintro ⟨ds, rfl | hds, hrest⟩
    · exact hrest
    · exact absurd hds (h ds)
  · intro hrest
    exact ⟨cs, Or.inl rfl, hrest⟩

theorem readBounded_eq_ok_iff {limit n : Nat} {cs : List Char} (h : 0 < limit) :
    readBounded 10 limit cs = .ok n ↔ Denotes cs n ∧ n < limit := by
  have hcontinue : ∀ ds, ds ≠ [] → (continueBounded 10 limit 0 ds = .ok n ↔
      (ds ≠ [] ∧ (∀ c ∈ ds, c.isDigit = true) ∧ ofDigits ds = n) ∧ n < limit) := by
    intro ds hne
    rw [continueBounded_eq_ok_iff h, and_iff_right hne, and_assoc]
    rfl
  unfold readBounded
  split
  · rw [denotes_of_head_ne (by simp)]
    exact ⟨nofun, fun h => absurd rfl h.1.1⟩
  · rw [denotes_plus]
    exact ⟨nofun, fun h => absurd rfl h.1.1⟩
  · rename_i ds hne
    rw [denotes_plus]
    exact hcontinue ds hne
  · rename_i hempty hone hsign
    rw [denotes_of_head_ne hsign]
    exact hcontinue cs hempty

theorem readUInt64_eq_ok_iff {s : String} {n : UInt64} :
    readUInt64 s = .ok n ↔ Denotes s.toList n.toNat := by
  unfold readUInt64
  constructor
  · intro hn
    cases hm : readBounded 10 UInt64.size s.toList with
    | error e => simp [hm, Except.map] at hn
    | ok m =>
      obtain ⟨hd, hlt⟩ := (readBounded_eq_ok_iff (by decide)).mp hm
      obtain rfl : UInt64.ofNat m = n := by simpa [hm, Except.map] using hn
      rwa [UInt64.toNat_ofNat_of_lt' hlt]
  · intro hd
    rw [(readBounded_eq_ok_iff (by decide)).mpr ⟨hd, n.toNat_lt⟩]
    exact congrArg Except.ok (UInt64.ofNat_toNat)

end TaskWatch.Decimal
