import TaskWatch.Api.Script

/-!
# Reading a script many times

A script fails first, then gives its states in a row, and then the last one of them for ever.

* `Script.after`, `Script.reading`: a script after some readings, and what one of them gives.
* `Script.reading_eq`: what each reading gives.  `Script.reads_after`: how they are counted.
* `Script.reading_of_findIdx?_eq_some`, `Script.reading_of_findIdx?_eq_none`: where the first final
  state is read, if there is one.
-/

namespace TaskWatch.Api.Script

variable {S : Type}

/-- The states that are to be read: those that come, or the current one alone when none do. -/
def remaining (p : Script S) : List S := if p.upcoming.isEmpty then [p.current] else p.upcoming

def after (p : Script S) : Nat → Script S
  | 0 => p
  | n + 1 => (p.after n).read.2

/-- What a reading gives; the first one has the number zero. -/
def reading (p : Script S) (n : Nat) : Option S := (p.after n).read.1

theorem after_succ_eq (p : Script S) (n : Nat) : p.after (n + 1) = p.read.2.after n := by
  induction n with
  | zero => rfl
  | succ n ih =>
    show (p.after (n + 1)).read.2 = (p.read.2.after n).read.2
    rw [ih]

theorem reading_succ_eq (p : Script S) (n : Nat) : p.reading (n + 1) = p.read.2.reading n := by
  rw [reading, after_succ_eq]
  rfl

/-! ## One reading -/

theorem read_of_failures {p : Script S} (h : p.failures ≠ 0) :
    p.read = (none, { p with failures := p.failures - 1, reads := p.reads + 1 }) := by
  simp [read, h]

theorem read_of_nil {p : Script S} (h : p.failures = 0) (hu : p.upcoming = []) :
    p.read = (some p.current, { p with reads := p.reads + 1 }) := by
  simp [read, h, hu]

theorem read_of_cons {p : Script S} {x : S} {rest : List S} (h : p.failures = 0)
    (hu : p.upcoming = x :: rest) :
    p.read = (some x, { p with upcoming := rest, current := x, reads := p.reads + 1 }) := by
  simp [read, h, hu]

/-- A reading that fails takes one failure away and no state. -/
theorem toNat_failures_read {p : Script S} (h : p.failures ≠ 0) :
    p.read.2.failures.toNat + 1 = p.failures.toNat ∧ p.read.2.remaining = p.remaining := by
  have hpos : p.failures.toNat ≠ 0 := fun hzero => h (UInt32.toNat_inj.mp hzero)
  have hle : (1 : UInt32) ≤ p.failures := UInt32.le_iff_toNat_le.mpr (Nat.pos_of_ne_zero hpos)
  rw [read_of_failures h]
  refine ⟨?_, rfl⟩
  show (p.failures - 1).toNat + 1 = p.failures.toNat
  rw [UInt32.toNat_sub_of_le _ _ hle, UInt32.toNat_one]
  omega

/-! ## Many readings -/

/-- Each reading fails while failures are due; after these the states come in a row, the last one
again and again. -/
theorem reading_eq (p : Script S) (n : Nat) :
    p.reading n = if n < p.failures.toNat then none
      else p.remaining[min (n - p.failures.toNat) (p.remaining.length - 1)]? := by
  by_cases hf : p.failures = 0
  · have hzero : p.failures.toNat = 0 := by rw [hf]; rfl
    rw [hzero, if_neg (Nat.not_lt_zero n), Nat.sub_zero]
    cases hu : p.upcoming with
    | nil =>
      have hrem : p.remaining = [p.current] := by simp [remaining, hu]
      cases n with
      | zero => simp [reading, after, read_of_nil hf hu, hrem]
      | succ n =>
        have ih := reading_eq { p with reads := p.reads + 1 } n
        rw [reading_succ_eq, read_of_nil hf hu, ih]
        simp [remaining, hf, hu]
    | cons x rest =>
      have hrem : p.remaining = x :: rest := by simp [remaining, hu]
      cases n with
      | zero => simp [reading, after, read_of_cons hf hu, hrem]
      | succ n =>
        have ih := reading_eq { p with upcoming := rest, current := x, reads := p.reads + 1 } n
        rw [reading_succ_eq, read_of_cons hf hu, ih, hrem]
        -- The last state stays when no other one comes after it.
        cases rest with
        | nil => simp [remaining, hf]
        | cons y rest => simp [remaining, hf, Nat.add_min_add_right]
  · have hpos := (toNat_failures_read hf).1
    cases n with
    | zero =>
      rw [if_pos (by omega), reading, after, read_of_failures hf]
    | succ n =>
      have ih := reading_eq p.read.2 n
      rw [reading_succ_eq, ih, (toNat_failures_read hf).2, ← hpos]
      simp only [Nat.add_lt_add_iff_right, Nat.add_sub_add_right]

theorem reads_after (p : Script S) (n : Nat) : (p.after n).reads = p.reads + UInt32.ofNat n := by
  induction n with
  | zero => simp [after]
  | succ n ih =>
    rw [after, reads_read, ih, UInt32.ofNat_add, UInt32.add_assoc]
    rfl

theorem toNat_reads_after {p : Script S} {n : Nat} (h : p.reads.toNat + n < UInt32.size) :
    (p.after n).reads.toNat = p.reads.toNat + n := by
  have hn : n < UInt32.size := by omega
  rw [reads_after, UInt32.toNat_add, UInt32.toNat_ofNat_of_lt' hn]
  exact Nat.mod_eq_of_lt h

/-- Before the first final state no reading is final, and after the failures it is read in its
place. -/
theorem reading_of_findIdx?_eq_some {p : Script S} {final : S → Bool} {j : Nat}
    (h : p.remaining.findIdx? final = some j) :
    p.reading (p.failures.toNat + j) = p.remaining[j]? ∧
      ∀ n < p.failures.toNat + j, ∀ x, p.reading n = some x → final x = false := by
  obtain ⟨hj, -, hbefore⟩ := List.findIdx?_eq_some_iff_getElem.mp h
  constructor
  · rw [reading_eq, if_neg (by omega)]
    congr 1
    omega
  · intro n hn x hx
    rw [reading_eq] at hx
    split at hx
    · cases hx
    · rename_i hlt
      have hmin : min (n - p.failures.toNat) (p.remaining.length - 1) = n - p.failures.toNat := by
        omega
      rw [hmin] at hx
      obtain ⟨hlen, rfl⟩ := List.getElem?_eq_some_iff.mp hx
      simpa using hbefore (n - p.failures.toNat) (by omega)

theorem reading_of_findIdx?_eq_none {p : Script S} {final : S → Bool}
    (h : p.remaining.findIdx? final = none) (n : Nat) :
    ∀ x, p.reading n = some x → final x = false := by
  intro x hx
  rw [reading_eq] at hx
  split at hx
  · cases hx
  · exact List.findIdx?_eq_none_iff.mp h x (List.mem_of_getElem? hx)

end TaskWatch.Api.Script
