import Mathlib.Logic.Function.Iterate
import TaskWatch.Proofs.Latch.Outside

/-!
# Parties that are not interrupted

Whatever the operations of a latch bring about, its parties bring about as well: they have only to
take their steps without anybody coming in between.

* `Gate.Settled`: a gate with nobody in the middle of anything.
* `Stance.Rests.settle`, `Gate.Settled.look`: a waiter that is left to itself comes to rest where
  one look at the count takes it.
* `Gate.afterAll_countDown`, `Gate.Settled.countDown`: somebody counts down and calls everybody.
* `Gate.reached_iff`: so the latches that are seen are those that the operations lead to, and no
  others.
-/

namespace TaskWatch.Monitor

/-! ## Nobody in the middle of anything -/

namespace Stance

variable {n count changes : Nat} {owed : Prop} {w : Stance}

/-- A waiter that is not in the middle of a visit: it has not begun, it is over, or the waiter is
parked and has been called exactly if there has been a change. -/
def Rests (changes : Nat) : Stance → Prop
  | looking | gone => True
  | parked seen called => called = (seen != changes)
  | asking _ | checking _ _ | parking _ _ | left _ => False

/-- Where a waiter comes to rest after its look at the count. -/
def lookedAt (count changes : Nat) : Stance := if count = 0 then gone else parked changes false

theorem rests_lookedAt (count changes : Nat) : (lookedAt count changes).Rests changes := by
  by_cases hzero : count = 0
  · simp [lookedAt, hzero, Rests]
  · simp [lookedAt, hzero, Rests]

theorem next_lookedAt (count changes : Nat) :
    next count changes (lookedAt count changes) = lookedAt count changes := by
  by_cases hzero : count = 0
  · simp [lookedAt, hzero, next]
  · simp [lookedAt, hzero, next]

theorem shown_lookedAt (count changes : Nat) :
    (lookedAt count changes).shown changes = Latch.lookNow count .awake := by
  by_cases hzero : count = 0
  · simp [lookedAt, hzero, shown, Latch.lookNow]
  · simp [lookedAt, hzero, shown, seen?, Latch.lookNow]

/-- A visit that nobody interrupts. -/
theorem iterate_next_looking (count changes : Nat) :
    (next count changes)^[4] looking = lookedAt count changes := by
  by_cases hzero : count = 0
  · simp [lookedAt, hzero, next]
  · simp [lookedAt, hzero, next]

/-- A waiter that was called because of a change looks at the count once more. -/
theorem iterate_next_parked {seen : Nat} (h : seen ≠ changes) :
    (next count changes)^[3] (parked seen true) = looking := by
  simp [next, h]

/-- Seven steps in a row take a waiter where one look at the count takes it, and no more steps take
it elsewhere. -/
theorem Rests.settle (h : w.Rests changes) (count : Nat) :
    ((next count changes)^[7] w).Rests changes ∧
    ((next count changes)^[7] w).shown changes = Latch.lookNow count (w.shown changes) := by
  cases w with
  | looking =>
    have hround : (next count changes)^[3 + 4] looking = lookedAt count changes := by
      rw [Function.iterate_add_apply, iterate_next_looking,
        Function.iterate_fixed (next_lookedAt count changes)]
    rw [hround]
    exact ⟨rests_lookedAt count changes, shown_lookedAt count changes⟩
  | parked seen called =>
    have hcalled : called = (seen != changes) := h
    by_cases hseen : seen = changes
    · have hfalse : called = false := by simpa [hseen] using hcalled
      have hfixed : next count changes (parked seen called) = parked seen called := by
        simp [next, hfalse]
      rw [Function.iterate_fixed hfixed]
      exact ⟨h, by simp [shown, seen?, hseen, Latch.lookNow]⟩
    · have htrue : called = true := hcalled.trans (bne_iff_ne.mpr hseen)
      have hround : (next count changes)^[4 + 3] (parked seen called) = lookedAt count changes := by
        rw [htrue, Function.iterate_add_apply, iterate_next_parked hseen, iterate_next_looking]
      have hawake : (parked seen called).shown changes = .awake := by simp [shown, seen?, hseen]
      rw [hround, hawake]
      exact ⟨rests_lookedAt count changes, shown_lookedAt count changes⟩
  | gone =>
    rw [Function.iterate_fixed rfl]
    exact ⟨trivial, rfl⟩
  | asking | checking | parking | left => exact h.elim

/-- A change that everybody is told of finds nobody in the middle of a visit. -/
theorem Rests.call (h : w.Rests changes) (hsound : w.Sound n changes owed) :
    w.call.Rests (changes + 1) := by
  cases w with
  | looking | gone => trivial
  | parked seen called =>
    have hle : seen ≤ changes := hsound.seen_le seen rfl
    have hnew : (seen != changes + 1) = true := by
      rw [bne_iff_ne]
      omega
    exact hnew.symm
  | asking | checking | parking | left => exact h.elim

end Stance

/-- Nobody is in the middle of anything. -/
structure Gate.Settled (g : Gate) : Prop where
  calls_eq : ∀ toCall ∈ g.calls, toCall = []
  rests : ∀ w ∈ g.waiters, w.Rests g.changes

namespace Gate

variable {g : Gate} {n : Nat}

theorem afterAll_moves (g : Gate) (i k : Nat) : g.afterAll (List.replicate k (.move i)) =
    { g with waiters := g.waiters.modify i (Stance.next g.count g.changes)^[k] } := by
  induction k generalizing g with
  | zero =>
    have hid : g.waiters.modify i id = g.waiters := List.modify_id i _
    exact congrArg (fun ws => { g with waiters := ws }) hid.symm
  | succ k ih =>
    rw [List.replicate_succ, afterAll_cons, ih, Function.iterate_succ]
    exact congrArg (fun ws => { g with waiters := ws }) (List.modify_modify_eq _ _ i _)

/-- Calls, one after another, by one who counts down. -/
theorem afterAll_calls (g : Gate) (j : Nat) (ks : List Nat) : g.afterAll (ks.map (.call j)) =
    { g with
      calls := g.calls.modify j fun toCall => ks.foldl List.erase toCall
      waiters := g.waiters.mapIdx fun i w => if i ∈ ks then w.call else w } := by
  induction ks generalizing g with
  | nil =>
    have hcalls : g.calls.modify j (fun toCall => [].foldl List.erase toCall) = g.calls :=
      List.modify_id j _
    have hwaiters : g.waiters.mapIdx (fun i w => if i ∈ [] then w.call else w) = g.waiters := by
      apply List.ext_getElem?
      intro i
      simp
    rw [hcalls, hwaiters]
    rfl
  | cons k ks ih =>
    have hcalls : (g.calls.modify j (·.erase k)).modify j
      (fun toCall => ks.foldl List.erase toCall) =
        g.calls.modify j (fun toCall => (k :: ks).foldl List.erase toCall) :=
          List.modify_modify_eq _ _ j _
    have hwaiters : (g.waiters.modify k .call).mapIdx (fun i w => if i ∈ ks then w.call else w) =
        g.waiters.mapIdx (fun i w => if i ∈ k :: ks then w.call else w) := by
      apply List.ext_getElem?
      intro i
      rw [List.getElem?_mapIdx, List.getElem?_mapIdx, List.getElem?_modify]
      cases g.waiters[i]? with
      | none => rfl
      | some w =>
        by_cases hk : k = i
        · by_cases hi : i ∈ ks <;> simp [hk, hi]
        · by_cases hi : i ∈ ks <;> simp [hk, hi, Ne.symm hk]
    rw [List.map_cons, afterAll_cons, ih, ← hcalls, ← hwaiters]
    rfl

theorem Settled.join (h : g.Settled) : (g.act .join).Settled where
  calls_eq := h.calls_eq
  rests := by
    intro w hw
    rcases List.mem_append.mp hw with hold | hnew
    · exact h.rests w hold
    · rw [List.mem_singleton.mp hnew]
      trivial

/-- A waiter that is left to itself comes to rest where one look at the count takes it. -/
theorem Settled.look (h : g.Settled) (i : Nat) : (g.afterAll (List.replicate 7 (.move i))).Settled ∧
    (g.afterAll (List.replicate 7 (.move i))).latch = g.latch.look i := by
  rw [afterAll_moves]
  refine ⟨⟨h.calls_eq, ?_⟩, ?_⟩
  · intro w hw
    obtain ⟨k, hk⟩ := List.mem_iff_getElem?.mp hw
    rw [List.getElem?_modify] at hk
    obtain ⟨v, hv, rfl⟩ := Option.map_eq_some_iff.mp hk
    have hrests := h.rests v (List.mem_of_getElem? hv)
    by_cases hik : i = k
    · rw [if_pos hik]
      exact (hrests.settle g.count).1
    · rw [if_neg hik]
      exact hrests
  · apply congrArg (Latch.mk g.count)
    apply map_modify_of_eq
    intro w hw
    exact ((h.rests w (List.mem_of_getElem? hw)).settle g.count).2

theorem foldl_erase_self (ks : List Nat) : ks.foldl List.erase ks = [] := by
  induction ks with
  | nil => rfl
  | cons k ks ih => rw [List.foldl_cons, List.erase_cons_head, ih]

theorem modify_length_concat {α : Type} (l : List α) (a : α) (f : α → α) :
    (l ++ [a]).modify l.length f = l ++ [f a] := by
  induction l with
  | nil => rfl
  | cons b l ih => exact congrArg (b :: ·) ih

/-- Somebody counts down and calls everybody with nothing in between. -/
def countDown (g : Gate) : List Act :=
  .lower :: (List.range g.waiters.length).map (.call g.calls.length)

theorem afterAll_countDown (g : Gate) : g.afterAll g.countDown =
    ⟨g.count - 1, g.changes + 1, g.calls ++ [[]], g.waiters.map .call⟩ := by
  have hcalls : (g.act .lower).calls.modify g.calls.length
      (fun toCall => (List.range g.waiters.length).foldl List.erase toCall) = g.calls ++ [[]] := by
    rw [act, modify_length_concat, foldl_erase_self]
  have hwaiters :
    g.waiters.mapIdx (fun i w => if i ∈ List.range g.waiters.length then w.call else w) =
      g.waiters.map .call := by
    apply List.ext_getElem?
    intro i
    rw [List.getElem?_mapIdx, List.getElem?_map]
    cases hw : g.waiters[i]? with
    | none => rfl
    | some w =>
      have hi : i < g.waiters.length := (List.getElem?_eq_some_iff.mp hw).1
      simp [hi]
  rw [countDown, afterAll_cons, afterAll_calls, hcalls]
  exact congrArg (Gate.mk _ _ _) hwaiters

theorem Settled.countDown (h : g.Settled) (hsound : g.Sound n) :
    (g.afterAll g.countDown).Settled ∧ (g.afterAll g.countDown).latch = g.latch.countDown := by
  rw [afterAll_countDown]
  refine ⟨⟨?_, ?_⟩, ?_⟩
  · intro toCall hmem
    rcases List.mem_append.mp hmem with hold | hnew
    · exact h.calls_eq toCall hold
    · exact List.mem_singleton.mp hnew
  · intro w hw
    obtain ⟨v, hv, rfl⟩ := List.mem_map.mp hw
    obtain ⟨i, hv'⟩ := hsound.exists_waiter hv
    exact (h.rests v hv).call hv'
  · -- The calls are not seen, so the change alone wakes the waiters.
    have hwoken : (g.waiters.map Stance.call).map (Stance.shown (g.changes + 1)) =
        (g.waiters.map (Stance.shown g.changes)).map Latch.wake := by
      rw [List.map_map, List.map_map]
      apply List.map_congr_left
      intro w hw
      obtain ⟨i, hw'⟩ := hsound.exists_waiter hw
      exact w.shown_call.trans hw'.shown_lower
    exact congrArg (Latch.mk (g.count - 1)) hwoken

/-- Whatever is done at one stroke can be done step by step. -/
theorem exists_acts (n : Nat) (ops : List Latch.Op) :
    ∃ acts, ((start n).afterAll acts).Settled ∧
      ((start n).afterAll acts).latch = (Latch.start n).performAll ops := by
  induction ops using List.reverseRecOn with
  | nil => exact ⟨[], ⟨by simp [start], by simp [start]⟩, rfl⟩
  | append_singleton ops op ih =>
    obtain ⟨acts, hsettled, hlatch⟩ := ih
    have hsound : ((start n).afterAll acts).Sound n := (sound_start n).afterAll acts
    rw [Latch.performAll_append, ← hlatch, Latch.performAll_singleton]
    cases op with
    | join =>
      refine ⟨acts ++ [.join], ?_⟩
      rw [afterAll_append]
      exact ⟨hsettled.join, latch_act hsound .join⟩
    | look i =>
      refine ⟨acts ++ List.replicate 7 (.move i), ?_⟩
      rw [afterAll_append]
      exact hsettled.look i
    | countDown =>
      refine ⟨acts ++ ((start n).afterAll acts).countDown, ?_⟩
      rw [afterAll_append]
      exact hsettled.countDown hsound

/-- **The parties bring about the latches that the operations of a latch bring about, and no
others.** -/
theorem reached_iff (n : Nat) (l : Latch) :
    (∃ acts, ((start n).afterAll acts).latch = l) ↔ ∃ ops, (Latch.start n).performAll ops = l := by
  constructor
  · rintro ⟨acts, rfl⟩
    exact ⟨(start n).ops acts, (latch_afterAll (sound_start n) acts).symm⟩
  · rintro ⟨ops, rfl⟩
    obtain ⟨acts, -, hlatch⟩ := exists_acts n ops
    exact ⟨acts, hlatch⟩

end Gate
end TaskWatch.Monitor
