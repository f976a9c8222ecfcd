import Mathlib.Data.List.Induction
import TaskWatch.Monitor.Latch

/-!
# The parties at a latch

Those who count a latch down and those who wait at it run side by side, and none of them is done in
one step.  Who counts down changes the count first, and calls the waiters one after another later
on.  A waiter looks at the count; if that is not zero, it asks to be called, sees then whether there
has been a change since it looked, and parks only if there has been none.  Anything may happen
between two steps.

* `Stance`: where a waiter is between two of its steps.  `Gate`: a latch in the middle of all this.
* `Gate.act`: the steps of all parties.  `Gate.afterAll`: any number of them in any order.
* `Stance.Sound`, `Gate.Sound`: what is true at all times.  `Stance.Sound.next`, `Gate.Sound.meet`
  and `Gate.Sound.afterAll`: each step keeps it.
-/

namespace TaskWatch.Monitor

/-! ## Waiters -/

/-- Where a waiter is between two of its steps: `seen` is how many changes there had been when it
looked at the count last, and `called` says whether it has been called since it asked for it. -/
inductive Stance where
  /-- About to look at the count. -/
  | looking
  /-- Has found the count above zero and is about to ask to be called. -/
  | asking (seen : Nat)
  /-- About to see whether there has been a change since it looked. -/
  | checking (seen : Nat) (called : Bool)
  /-- Has found no change and is about to park. -/
  | parking (seen : Nat) (called : Bool)
  | parked (seen : Nat) (called : Bool)
  /-- Has been let go. -/
  | gone
  /-- Has given up, its time being over. -/
  | left (seen : Nat)
deriving DecidableEq

namespace Stance

/-- The next step of a waiter, at a count that has been changed so often.  One that is parked stays
so until it is called. -/
def next (count changes : Nat) : Stance → Stance
  | looking => if count = 0 then gone else asking changes
  | asking seen => checking seen false
  | checking seen called => if seen = changes then parking seen called else looking
  | parking seen called => if called then asking seen else parked seen false
  | parked seen called => if called then asking seen else parked seen false
  | w => w

/-- Calls a waiter, who hears it from when it has asked for it. -/
def call : Stance → Stance
  | checking seen _ => checking seen true
  | parking seen _ => parking seen true
  | parked seen _ => parked seen true
  | w => w

/-- A waiter can give up while it is parked, called or not. -/
def giveUp : Stance → Stance
  | parked seen _ => left seen
  | w => w

/-- How many changes there had been at its last look, after which it stayed. -/
def seen? : Stance → Option Nat
  | asking seen | checking seen _ | parking seen _ | parked seen _ | left seen => some seen
  | looking | gone => none

/-- Whether a waiter is parked, or about to be, and nobody has called it. -/
def dormant : Stance → Bool
  | parking _ called | parked _ called => !called
  | _ => false

end Stance

/-! ## Gates -/

/-- A latch with those who count it down and those who wait at it. -/
structure Gate where
  count : Nat
  /-- How often the count has been changed. -/
  changes : Nat
  /-- For each count-down, the numbers of the waiters that it has yet to call. -/
  calls : List (List Nat)
  waiters : List Stance

namespace Gate

inductive Act where
  /-- A new waiter comes. -/
  | join
  /-- Somebody counts down: the count is changed, and whoever is there has to be called. -/
  | lower
  /-- The count-down with number `j` calls the waiter with number `i`.  A waiter may also be called
  for nothing. -/
  | call (j i : Nat)
  /-- The next step of a waiter. -/
  | move (i : Nat)
  | giveUp (i : Nat)
deriving DecidableEq

def start (count : Nat) : Gate := ⟨count, 0, [], []⟩

def act (g : Gate) : Act → Gate
  | .join => { g with waiters := g.waiters ++ [.looking] }
  | .lower =>
    { g with
      count := g.count - 1, changes := g.changes + 1,
      calls := g.calls ++ [List.range g.waiters.length] }
  | .call j i =>
    { g with calls := g.calls.modify j (·.erase i), waiters := g.waiters.modify i .call }
  | .move i => { g with waiters := g.waiters.modify i (.next g.count g.changes) }
  | .giveUp i => { g with waiters := g.waiters.modify i .giveUp }

def afterAll (g : Gate) (acts : List Act) : Gate := acts.foldl act g

/-- What a step does to the waiter with number `i`. -/
def meet (g : Gate) (i : Nat) (w : Stance) : Act → Stance
  | .call _ k => if k = i then w.call else w
  | .move k => if k = i then w.next g.count g.changes else w
  | .giveUp k => if k = i then w.giveUp else w
  | .join | .lower => w

/-- Somebody who counts down has yet to call the waiter with number `i`. -/
def Owed (g : Gate) (i : Nat) : Prop := ∃ toCall ∈ g.calls, i ∈ toCall

variable {g : Gate} {n i : Nat} {a : Act} {acts : List Act} {w : Stance}

@[simp] theorem afterAll_nil (g : Gate) : g.afterAll [] = g := rfl

@[simp] theorem afterAll_cons (g : Gate) (a : Act) (acts : List Act) :
    g.afterAll (a :: acts) = (g.act a).afterAll acts := rfl

@[simp] theorem afterAll_concat (g : Gate) (acts : List Act) (a : Act) :
    g.afterAll (acts ++ [a]) = (g.afterAll acts).act a := by
  simp [afterAll]

theorem afterAll_append (g : Gate) (acts more : List Act) :
    g.afterAll (acts ++ more) = (g.afterAll acts).afterAll more := by
  simp [afterAll]

/-- The waiters keep their numbers, and each one meets with every step. -/
theorem getElem?_waiters_act (h : g.waiters[i]? = some w) (a : Act) :
    (g.act a).waiters[i]? = some (g.meet i w a) := by
  cases a with
  | join =>
    have hi : i < g.waiters.length := (List.getElem?_eq_some_iff.mp h).1
    exact (List.getElem?_append_left hi).trans h
  | lower => exact h
  | call j k => by_cases hk : k = i <;> simp [act, meet, hk, h]
  | move k => by_cases hk : k = i <;> simp [act, meet, hk, h]
  | giveUp k => by_cases hk : k = i <;> simp [act, meet, hk, h]

theorem length_waiters_act (g : Gate) (a : Act) :
    (g.act a).waiters.length = g.waiters.length + if a = .join then 1 else 0 := by
  cases a <;> simp [act]

/-- A waiter was there before a step, or comes with it. -/
theorem exists_of_getElem?_waiters_act (h : (g.act a).waiters[i]? = some w) :
    (∃ v, g.waiters[i]? = some v ∧ w = g.meet i v a) ∨ w = .looking := by
  cases hi : g.waiters[i]? with
  | some v =>
    rw [getElem?_waiters_act hi a] at h
    exact .inl ⟨v, rfl, (Option.some.inj h).symm⟩
  | none =>
    right
    have hle : g.waiters.length ≤ i := List.getElem?_eq_none_iff.mp hi
    have hlt : i < (g.act a).waiters.length := (List.getElem?_eq_some_iff.mp h).1
    rw [length_waiters_act] at hlt
    by_cases ha : a = .join
    · subst ha
      have hlast : i = g.waiters.length := by
        simp only [if_true] at hlt
        omega
      subst hlast
      simpa [act] using h.symm
    · rw [if_neg ha] at hlt
      omega

theorem changes_act (g : Gate) (a : Act) :
    (g.act a).changes = g.changes + if a = .lower then 1 else 0 := by
  cases a <;> simp [act]

/-- There are as many changes as count-downs. -/
theorem changes_afterAll (n : Nat) (acts : List Act) :
    ((start n).afterAll acts).changes = acts.count .lower := by
  induction acts using List.reverseRecOn with
  | nil => rfl
  | append_singleton acts a ih =>
    rw [afterAll_concat, changes_act, ih, List.count_append, List.count_singleton]
    simp

theorem owed_act_lower (h : i < g.waiters.length) : (g.act .lower).Owed i :=
  ⟨List.range g.waiters.length, List.mem_concat_self, List.mem_range.mpr h⟩

/-- Who calls somebody else still owes its other calls. -/
theorem Owed.call (h : g.Owed i) {k : Nat} (hk : k ≠ i) (j : Nat) : (g.act (.call j k)).Owed i := by
  obtain ⟨toCall, hmem, hi⟩ := h
  obtain ⟨l, hl⟩ := List.mem_iff_getElem?.mp hmem
  have hleft : i ∈ toCall.erase k := (List.mem_erase_of_ne (Ne.symm hk)).mpr hi
  by_cases hjl : j = l
  · refine ⟨toCall.erase k, List.mem_of_getElem? (i := l) ?_, hleft⟩
    simp [act, hjl, hl]
  · refine ⟨toCall, List.mem_of_getElem? (i := l) ?_, hi⟩
    simp [act, hjl, hl]

end Gate

/-! ## What is true at all times -/

namespace Stance

variable {n changes : Nat} {owed owed' : Prop} {w v : Stance}

@[simp] theorem seen?_call (w : Stance) : w.call.seen? = w.seen? := by cases w <;> rfl

@[simp] theorem seen?_giveUp (w : Stance) : w.giveUp.seen? = w.seen? := by cases w <;> rfl

@[simp] theorem call_eq_gone_iff : w.call = gone ↔ w = gone := by cases w <;> simp [call]

@[simp] theorem giveUp_eq_gone_iff : w.giveUp = gone ↔ w = gone := by cases w <;> simp [giveUp]

@[simp] theorem dormant_call (w : Stance) : w.call.dormant = false := by cases w <;> rfl

@[simp] theorem call_call (w : Stance) : w.call.call = w.call := by cases w <;> rfl

theorem dormant_of_dormant_giveUp (h : w.giveUp.dormant = true) : w.dormant = true := by
  cases w with
  | parked seen called => cases h
  | _ => exact h

structure Sound (n changes : Nat) (owed : Prop) (w : Stance) : Prop where
  seen_le : ∀ s, w.seen? = some s → s ≤ changes
  /-- It stayed because it had found the count above zero. -/
  seen_lt : ∀ s, w.seen? = some s → s < n
  gone_le : w = .gone → n ≤ changes
  /-- One that sleeps knows of the last change, or somebody has yet to call it. -/
  awaited : w.dormant = true → w.seen? = some changes ∨ owed

theorem sound_looking (n changes : Nat) (owed : Prop) : looking.Sound n changes owed where
  seen_le s h := by cases h
  seen_lt s h := by cases h
  gone_le h := by cases h
  awaited h := by cases h

theorem sound_gone (h : n ≤ changes) (owed : Prop) : gone.Sound n changes owed where
  seen_le s hs := by cases hs
  seen_lt s hs := by cases hs
  gone_le _ := h
  awaited hd := by cases hd

/-- A waiter that has just found the count above zero. -/
theorem sound_asking (h : changes < n) (owed : Prop) : (asking changes).Sound n changes owed where
  seen_le s hs := by
    cases hs
    exact Nat.le_refl _
  seen_lt s hs := by
    cases hs
    exact h
  gone_le hg := by cases hg
  awaited hd := by cases hd

namespace Sound

/-- What matters of a waiter is what it has seen, whether it has been let go, and whether it
sleeps. -/
theorem of_seen (h : w.Sound n changes owed) (hseen : v.seen? = w.seen?)
    (hgone : v = gone → w = gone) (hawaited : v.dormant = true → w.seen? = some changes ∨ owed') :
    v.Sound n changes owed' where
  seen_le s hs := h.seen_le s (hseen ▸ hs)
  seen_lt s hs := h.seen_lt s (hseen ▸ hs)
  gone_le hv := h.gone_le (hgone hv)
  awaited hv := hseen ▸ hawaited hv

theorem mono (h : w.Sound n changes owed) (howed : owed → owed') : w.Sound n changes owed' :=
  h.of_seen rfl id fun hd => (h.awaited hd).imp_right howed

/-- A change of which everybody has yet to be told. -/
theorem lower (h : w.Sound n changes owed) (howed : owed') : w.Sound n (changes + 1) owed' where
  seen_le s hs := Nat.le_succ_of_le (h.seen_le s hs)
  seen_lt := h.seen_lt
  gone_le hw := Nat.le_succ_of_le (h.gone_le hw)
  awaited _ := .inr howed

theorem of_wakeful (h : w.Sound n changes owed) (hseen : v.seen? = w.seen?)
    (hgone : v = gone → w = gone) (hd : v.dormant = false) : v.Sound n changes owed' := by
  apply h.of_seen hseen hgone
  intro ht
  rw [hd] at ht
  cases ht

/-- Nobody sleeps who has been called. -/
theorem call (h : w.Sound n changes owed) : w.call.Sound n changes owed' :=
  h.of_wakeful (seen?_call w) call_eq_gone_iff.mp (dormant_call w)

theorem giveUp (h : w.Sound n changes owed) : w.giveUp.Sound n changes owed := by
  apply h.of_seen
  · exact seen?_giveUp w
  · exact giveUp_eq_gone_iff.mp
  · intro hd
    exact h.awaited (dormant_of_dormant_giveUp hd)

/-- A waiter takes its next step, at the count that there is after so many changes. -/
theorem next (h : w.Sound n changes owed) :
    (w.next (n - changes) changes).Sound n changes owed := by
  cases w with
  | looking =>
    by_cases hzero : n - changes = 0
    · rw [Stance.next, if_pos hzero]
      exact sound_gone (Nat.le_of_sub_eq_zero hzero) owed
    · rw [Stance.next, if_neg hzero]
      exact sound_asking (by omega) owed
  | asking seen =>
    apply h.of_wakeful
    · rfl
    · intro hg
      cases hg
    · rfl
  | checking seen called =>
    by_cases hseen : seen = changes
    · -- Only who knows of the last change goes on to park.
      rw [Stance.next, if_pos hseen]
      apply h.of_seen
      · rfl
      · intro hg
        cases hg
      · intro _
        exact .inl (congrArg some hseen)
    · rw [Stance.next, if_neg hseen]
      exact sound_looking n changes owed
  | parking seen called | parked seen called =>
    cases called with
    | true =>
      apply h.of_wakeful
      · rfl
      · intro hg
        cases hg
      · rfl
    | false =>
      apply h.of_seen
      · rfl
      · intro hg
        cases hg
      · intro _
        exact h.awaited rfl
  | gone | left seen => exact h

end Sound
end Stance

namespace Gate

variable {g : Gate} {n i : Nat} {w : Stance}

structure Sound (n : Nat) (g : Gate) : Prop where
  count_eq : g.count = n - g.changes
  waiter : ∀ (i : Nat) (w : Stance), g.waiters[i]? = some w → w.Sound n g.changes (g.Owed i)

theorem sound_start (n : Nat) : (start n).Sound n where
  count_eq := rfl
  waiter i w h := by cases h

namespace Sound

theorem exists_waiter (h : g.Sound n) (hw : w ∈ g.waiters) :
    ∃ i, w.Sound n g.changes (g.Owed i) := by
  obtain ⟨i, hi⟩ := List.mem_iff_getElem?.mp hw
  exact ⟨i, h.waiter i w hi⟩

/-- Each step keeps what is true of a waiter. -/
theorem meet (h : g.Sound n) (hw : g.waiters[i]? = some w) (a : Act) :
    (g.meet i w a).Sound n (g.act a).changes ((g.act a).Owed i) := by
  have hsound := h.waiter i w hw
  cases a with
  | join => exact hsound
  | lower => exact hsound.lower (owed_act_lower (List.getElem?_eq_some_iff.mp hw).1)
  | call j k =>
    by_cases hk : k = i
    · rw [Gate.meet, if_pos hk]
      exact hsound.call
    · rw [Gate.meet, if_neg hk]
      exact hsound.mono fun howed => howed.call hk j
  | move k =>
    by_cases hk : k = i
    · rw [Gate.meet, if_pos hk, h.count_eq]
      exact hsound.next
    · rw [Gate.meet, if_neg hk]
      exact hsound
  | giveUp k =>
    by_cases hk : k = i
    · rw [Gate.meet, if_pos hk]
      exact hsound.giveUp
    · rw [Gate.meet, if_neg hk]
      exact hsound

theorem act (h : g.Sound n) (a : Act) : (g.act a).Sound n where
  count_eq := by
    have hcount := h.count_eq
    cases a with
    | lower =>
      show g.count - 1 = n - (g.changes + 1)
      omega
    | _ => exact hcount
  waiter := by
    intro i w hw
    obtain ⟨v, hv, rfl⟩ | rfl := exists_of_getElem?_waiters_act hw
    · exact h.meet hv a
    · exact Stance.sound_looking n _ _

theorem afterAll (h : g.Sound n) (acts : List Act) : (g.afterAll acts).Sound n := by
  induction acts generalizing g with
  | nil => exact h
  | cons a acts ih => exact ih (h.act a)

end Sound
end Gate
end TaskWatch.Monitor
