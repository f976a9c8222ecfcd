import Mathlib.Data.List.Induction
import TaskWatch.Monitor.Bus

/-!
# Rings

A bus need not keep all its messages.  A ring of `capacity` slots, in which each message takes the
place of the one `capacity` before it, gives every subscriber the same.

* `Ring.Holds`: a ring stands for some messages.  `Ring.Holds.push` keeps this.
* `Ring.next_eq`: what a subscriber gets from the ring is what it gets from the bus.
-/

namespace TaskWatch.Monitor

open Bus (capacity)

/-- Message number `n` stands in slot `n % capacity`, with its number, until another one takes its
place. -/
structure Ring (α : Type) where
  slots : List (Option (Nat × α))
  /-- How many messages there were. -/
  total : Nat

namespace Ring

variable {ν α : Type} {r : Ring α}

def start : Ring α := ⟨List.replicate capacity none, 0⟩

def push (r : Ring α) (a : α) : Ring α :=
  ⟨r.slots.set (r.total % capacity) (some (r.total, a)), r.total + 1⟩

def ofList (messages : List α) : Ring α := messages.foldl push start

/-- What a subscriber gets whose next message has a number, and the number after that.  A slot with
a later message has lost the one that is looked for. -/
def next (r : Ring α) (cursor : Nat) : Received α × Nat :=
  match r.slots[cursor % capacity]?.join with
  | none => (.empty, cursor)
  | some (n, a) =>
    if n = cursor then (.message a, cursor + 1)
    else if n < cursor then (.empty, cursor)
    else (.lagged (r.total - capacity - cursor), r.total - capacity)

/-- A ring that stands for some messages: it has the last ones in their slots. -/
structure Holds (r : Ring α) (log : List α) : Prop where
  total_eq : r.total = log.length
  length_slots : r.slots.length = 256
  kept : ∀ n a, log[n]? = some a → log.length ≤ n + 256 → r.slots[n % 256]? = some (some (n, a))
  free : ∀ i, i < 256 → log.length ≤ i → r.slots[i]? = some none

theorem holds_start : (start : Ring α).Holds [] where
  total_eq := rfl
  length_slots := List.length_replicate
  kept := by
    intro n a h
    cases h
  free := by
    intro i hi _
    exact List.getElem?_replicate_of_lt hi

theorem Holds.push {log : List α} (h : r.Holds log) (a : α) : (r.push a).Holds (log ++ [a]) where
  total_eq := by
    rw [List.length_append, List.length_singleton, ← h.total_eq]
    rfl
  length_slots := List.length_set.trans h.length_slots
  kept := by
    intro n b hn hlast
    rw [List.length_append, List.length_singleton] at hlast
    show (r.slots.set (r.total % 256) _)[n % 256]? = _
    have hlen := h.length_slots
    rcases Nat.lt_or_ge n log.length with hold | hnew
    · -- Slots are apart as long as the numbers are less than 256 apart.
      have hne : r.total % 256 ≠ n % 256 := by
        rw [h.total_eq]
        omega
      rw [List.getElem?_append_left hold] at hn
      rw [List.getElem?_set_ne hne]
      exact h.kept n b hn (by omega)
    · obtain ⟨hlt, -⟩ := List.getElem?_eq_some_iff.mp hn
      obtain rfl : n = log.length := by
        rw [List.length_append, List.length_singleton] at hlt
        omega
      obtain rfl : a = b := by simpa using hn
      rw [h.total_eq, List.getElem?_set_self (by omega)]
  free := by
    intro i hi hlast
    rw [List.length_append, List.length_singleton] at hlast
    have hne : r.total % 256 ≠ i := by
      rw [h.total_eq]
      omega
    exact (List.getElem?_set_ne hne).trans (h.free i hi (by omega))

theorem holds_ofList (messages : List α) : (ofList messages).Holds messages := by
  induction messages using List.reverseRecOn with
  | nil => exact holds_start
  | append_singleton messages a ih =>
    rw [ofList, List.foldl_append]
    exact ih.push a

/-- The message in a slot is the last one with a number that goes there. -/
theorem Holds.slot {log : List α} (h : r.Holds log) (cursor n : Nat)
    (hslot : cursor % 256 = n % 256) (hn : n < log.length) (hlast : log.length ≤ n + 256) :
    r.slots[cursor % capacity]?.join = some (n, log[n]) := by
  have hkept := h.kept n log[n] (List.getElem?_eq_getElem hn) hlast
  show r.slots[cursor % 256]?.join = _
  rw [hslot, hkept]
  rfl

/-- **A ring gives what the bus gives.** -/
theorem next_eq {b : Bus ν α} {cursor : Nat} (hopen : b.closed = false)
    (hle : cursor ≤ b.log.size) :
    (ofList b.log.toList).next cursor = b.next cursor := by
  have h := holds_ofList b.log.toList
  have htotal : (ofList b.log.toList).total = b.log.size := h.total_eq
  have hcapacity : capacity = 256 := rfl
  have hsize : b.log.toList.length = b.log.size := rfl
  unfold next Bus.next Bus.oldest
  rcases Nat.lt_or_ge cursor (b.log.size - 256) with hlag | hkept
  · -- The slot has the last message whose number differs by a multiple of 256.
    have hslot := h.slot cursor (b.log.size - 1 - (b.log.size - 1 - cursor) % 256) (by omega)
      (by omega) (by omega)
    rw [hslot, hcapacity, if_pos hlag, htotal]
    simp only
    rw [if_neg (by omega), if_neg (by omega)]
  · rw [hcapacity, if_neg (by omega)]
    rcases Nat.lt_or_ge cursor b.log.size with hnew | hend
    · have hslot := h.slot cursor cursor rfl hnew (by omega)
      rw [hcapacity] at hslot
      rw [hslot, Array.getElem?_eq_getElem hnew]
      simp
    · obtain rfl : cursor = b.log.size := by omega
      rw [Array.getElem?_eq_none (Nat.le_refl _), hopen]
      rcases Nat.lt_or_ge b.log.size 256 with hfew | hmany
      · have hfree := h.free (b.log.size % 256) (by omega) (by omega)
        rw [hfree]
        rfl
      · have hslot := h.slot b.log.size (b.log.size - 256) (by omega) (by omega) (by omega)
        rw [hcapacity] at hslot
        rw [hslot]
        simp only
        rw [if_neg (by omega), if_pos (by omega)]
        rfl

end Ring
end TaskWatch.Monitor
