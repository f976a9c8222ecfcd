import Mathlib.Data.List.ReduceOption
import TaskWatch.Proofs.Rounds.Readings

/-!
# What a script has been through

Since it was started, a script has been told to fail and has been read.  From that alone it can be
told what the script holds now and what it gives next, as long as its counts stay within their 32
bits.

* `Past`: what a script has been through.  `Past.stateAt`: the states it gives, one after another.
* `Past.Describes`: a script that is as its past says.  `describes_start`, `Describes.ask`,
  `Describes.note`: it is so at the start and stays so.
* `Describes.read_fst`: what the next reading gives.
-/

namespace TaskWatch.Api

/-- What a script has been through since it was started. -/
structure Past (S : Type) where
  initial : S
  /-- The states that the script was given. -/
  states : List S
  /-- How many readings were to fail, all requests together. -/
  asked : Nat
  /-- What the readings gave, the first one first; nothing stands for a failed one. -/
  readings : List (Option S)
deriving DecidableEq, Repr

namespace Past

variable {S : Type}

def start (initial : S) (states : List S) : Past S := ⟨initial, states, 0, []⟩

def ask (count : UInt32) (past : Past S) : Past S := { past with asked := past.asked + count.toNat }

/-- A reading gave something, or failed. -/
def note (r : Option S) (past : Past S) : Past S := { past with readings := past.readings ++ [r] }

def found (past : Past S) : List S := past.readings.reduceOption

def failed (past : Past S) : Nat := past.readings.countP Option.isNone

/-- The state that the script gives in a place: the one that stands there, or the last one when none
does; the one it started with when it was given none. -/
def stateAt (past : Past S) (i : Nat) : S :=
  past.states[min i (past.states.length - 1)]?.getD past.initial

/-- The state read last, or the one before the first reading. -/
def latest (past : Past S) : S := past.found.getLast?.getD past.initial

def Fits (past : Past S) : Prop :=
  past.readings.length < UInt32.size ∧ past.asked - past.failed < UInt32.size

instance (past : Past S) : Decidable past.Fits := inferInstanceAs (Decidable (_ ∧ _))

/-! ## One reading more -/

section Note

variable (past : Past S)

@[simp] theorem found_note_none : (past.note none).found = past.found := by
  simp [found, note, List.reduceOption_append]

@[simp] theorem found_note_some (x : S) : (past.note (some x)).found = past.found ++ [x] := by
  simp [found, note, List.reduceOption_append]

@[simp] theorem failed_note_none : (past.note none).failed = past.failed + 1 := by
  simp [failed, note]

@[simp] theorem failed_note_some (x : S) : (past.note (some x)).failed = past.failed := by
  simp [failed, note]

theorem length_readings : past.readings.length = past.found.length + past.failed := by
  unfold found failed
  induction past.readings with
  | nil => rfl
  | cons r rs ih =>
    cases r with
    | none => simp [List.reduceOption_cons_of_none, ih, Nat.add_assoc]
    | some x =>
      simp [List.reduceOption_cons_of_some, ih]
      omega

end Note

/-! ## Scripts as their pasts say -/

/-- A script that is as its past says. -/
structure Describes (past : Past S) (p : Script S) : Prop where
  reads : p.reads.toNat = past.readings.length
  failures : p.failures.toNat + past.failed = past.asked
  upcoming : p.upcoming = past.states.drop past.found.length
  current : p.current = past.latest
  found : ∀ i < past.found.length, past.found[i]? = some (past.stateAt i)

theorem describes_start (initial : S) (states : List S) :
    (Past.start initial states).Describes (.start initial states) where
  reads := rfl
  failures := rfl
  upcoming := rfl
  current := rfl
  found _ hi := absurd hi (Nat.not_lt_zero _)

/-- Beyond the end of the script the last state stays. -/
theorem stateAt_of_length_le {past : Past S}
    (hfound : ∀ i < past.found.length, past.found[i]? = some (past.stateAt i))
    (h : past.states.length ≤ past.found.length) :
    past.stateAt past.found.length = past.latest := by
  unfold latest
  cases hn : past.found.length with
  | zero =>
    rw [hn] at h
    have hnil : past.found = [] := List.length_eq_zero_iff.mp hn
    have hstates : past.states = [] := List.length_eq_zero_iff.mp (Nat.le_zero.mp h)
    simp [stateAt, hstates, hnil]
  | succ n =>
    rw [List.getLast?_eq_getElem?, hn, Nat.add_sub_cancel, hfound n (by omega), Option.getD_some]
    have hmin : min (n + 1) (past.states.length - 1) = min n (past.states.length - 1) := by omega
    rw [stateAt, hmin, stateAt]

section Steps

variable {past : Past S} {p : Script S}

/-- What the next reading gives. -/
theorem Describes.read_fst (h : past.Describes p) : p.read.1 =
    if past.failed < past.asked then none else some (past.stateAt past.found.length) := by
  have hsum := h.failures
  by_cases hf : p.failures = 0
  · have hzero : p.failures.toNat = 0 := by rw [hf]; rfl
    rw [if_neg (by omega)]
    cases hu : p.upcoming with
    | nil =>
      have hlen : past.states.length ≤ past.found.length :=
        List.drop_eq_nil_iff.mp (h.upcoming ▸ hu)
      rw [Script.read_of_nil hf hu, h.current, stateAt_of_length_le h.found hlen]
    | cons x rest =>
      have hget : past.states[past.found.length]? = some x := by
        rw [← List.head?_drop, ← h.upcoming, hu, List.head?_cons]
      have hlt := (List.getElem?_eq_some_iff.mp hget).1
      rw [Script.read_of_cons hf hu, stateAt, Nat.min_eq_left (by omega), hget, Option.getD_some]
  · have hpos : p.failures.toNat ≠ 0 := fun hzero => hf (UInt32.toNat_inj.mp hzero)
    rw [Script.read_of_failures hf, if_pos (by omega)]

/-- A request for failures adds to those that are due. -/
theorem Describes.ask (h : past.Describes p) {count : UInt32} (hfits : (past.ask count).Fits) :
    (past.ask count).Describes (p.fail count) where
  reads := h.reads
  failures := by
    have hsum := h.failures
    have hlt : past.asked + count.toNat - past.failed < UInt32.size := hfits.2
    have hadd : (p.failures + count).toNat = p.failures.toNat + count.toNat := by
      rw [UInt32.toNat_add]
      exact Nat.mod_eq_of_lt (show _ < UInt32.size by omega)
    show (p.failures + count).toNat + past.failed = past.asked + count.toNat
    omega
  upcoming := h.upcoming
  current := h.current
  found := h.found

/-- A reading takes a failure that is due, or else the next state. -/
theorem Describes.note (h : past.Describes p) (hfits : (past.note p.read.1).Fits) :
    (past.note p.read.1).Describes p.read.2 := by
  have hreads : p.read.2.reads.toNat = (past.note p.read.1).readings.length := by
    have hlt : past.readings.length + 1 < UInt32.size := by simpa [Past.note] using hfits.1
    rw [Script.reads_read, UInt32.toNat_add, UInt32.toNat_one, h.reads]
    simpa [Past.note] using Nat.mod_eq_of_lt hlt
  have hsum := h.failures
  by_cases hf : p.failures = 0
  · have hzero : p.failures.toNat = 0 := by rw [hf]; rfl
    have hfst := h.read_fst
    rw [if_neg (by omega)] at hfst
    have hsnd : p.read.2.failures = 0 ∧ p.read.2.upcoming = p.upcoming.drop 1 ∧
        some p.read.2.current = p.read.1 := by
      cases hu : p.upcoming with
      | nil => simp [Script.read_of_nil hf hu, hf, hu]
      | cons x rest => simp [Script.read_of_cons hf hu, hf]
    obtain ⟨hfail, hup, hcurrent⟩ := hsnd
    rw [hfst] at hcurrent hreads ⊢
    refine ⟨hreads, ?_, ?_, ?_, ?_⟩
    · rw [hfail, failed_note_some]
      show 0 + past.failed = past.asked
      omega
    · rw [hup, h.upcoming, List.drop_drop, found_note_some, List.length_append]
      rfl
    · rw [latest, found_note_some, List.getLast?_concat, Option.getD_some]
      exact Option.some.inj hcurrent
    · intro i hi
      rw [found_note_some] at hi ⊢
      show _ = some (past.stateAt i)
      by_cases hlt : i < past.found.length
      · rw [List.getElem?_append_left hlt]
        exact h.found i hlt
      · have heq : i = past.found.length := by
          rw [List.length_append, List.length_singleton] at hi
          omega
        rw [heq, List.getElem?_concat_length]
  · have hdue := (Script.toNat_failures_read hf).1
    rw [Script.read_of_failures hf] at hreads hdue ⊢
    refine ⟨hreads, ?_, ?_, ?_, ?_⟩
    · rw [failed_note_none]
      show (p.failures - 1).toNat + (past.failed + 1) = past.asked
      have hdue : (p.failures - 1).toNat + 1 = p.failures.toNat := hdue
      omega
    · rw [found_note_none]
      exact h.upcoming
    · rw [latest, found_note_none]
      exact h.current
    · rw [found_note_none]
      exact h.found

end Steps

end Past
end TaskWatch.Api
