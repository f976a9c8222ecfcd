import TaskWatch.Proofs.Latch.Parties

/-!
# Parties seen from outside

From outside, counting down and looking at the count are done at one stroke, as the operations of
`Latch` have it.  A waiter counts as parked as soon as it has found the count above zero, and as
awake again as soon as the count has been changed, wherever it really is.

* `Gate.latch`: what is seen of a gate.  `Stance.shown`: what is seen of a waiter.
* `Stance.Sound.shown_lower`, `Stance.shown_next_looking`: a change is seen, and so is a look at the
  count.  Of the other steps nothing is.
* `Gate.latch_act`, `Gate.latch_afterAll`: so each step is an operation of the latch, or none at
  all.
-/

namespace TaskWatch.Monitor

/-! ## Operations -/

namespace Latch

inductive Op where
  | join
  | look (i : Nat)
  | countDown

def perform (l : Latch) : Op → Latch
  | .join => l.join
  | .look i => l.look i
  | .countDown => l.countDown

def performAll (l : Latch) (ops : List Op) : Latch := ops.foldl perform l

@[simp] theorem performAll_singleton (l : Latch) (op : Op) : l.performAll [op] = l.perform op := rfl

theorem performAll_append (l : Latch) (ops more : List Op) :
    l.performAll (ops ++ more) = (l.performAll ops).performAll more := by
  simp [performAll]

end Latch

/-! ## What is seen -/

namespace Stance

variable {n count changes : Nat} {owed : Prop} {w : Stance}

/-- What is seen of a waiter: one that knows of the last change waits for the next one. -/
def shown (changes : Nat) (w : Stance) : Waiter :=
  if w = gone then .gone else if w.seen? = some changes then .parked else .awake

theorem shown_of_seen {v : Stance} (hseen : v.seen? = w.seen?) (hgone : v = gone ↔ w = gone) :
    v.shown changes = w.shown changes := by
  simp only [shown, hseen, hgone]

theorem shown_call (w : Stance) : w.call.shown changes = w.shown changes :=
  shown_of_seen (seen?_call w) call_eq_gone_iff

theorem shown_giveUp (w : Stance) : w.giveUp.shown changes = w.shown changes :=
  shown_of_seen (seen?_giveUp w) giveUp_eq_gone_iff

theorem seen?_of_shown_eq_parked (h : w.shown changes = .parked) : w.seen? = some changes := by
  by_contra hs
  by_cases hgone : w = gone
  · simp [shown, hgone] at h
  · simp [shown, hgone, hs] at h

/-- A change is seen to wake whoever waits for one. -/
theorem Sound.shown_lower (h : w.Sound n changes owed) :
    w.shown (changes + 1) = Latch.wake (w.shown changes) := by
  have hnew : w.seen? ≠ some (changes + 1) := by
    intro hs
    have hle := h.seen_le _ hs
    omega
  by_cases hgone : w = gone
  · simp [shown, hgone, Latch.wake]
  · by_cases hs : w.seen? = some changes
    · simp [shown, hgone, hs, Latch.wake]
    · simp [shown, hgone, hs, hnew, Latch.wake]

/-- Of the steps of a waiter, only its look at the count is seen. -/
theorem shown_next_looking (count changes : Nat) :
    (looking.next count changes).shown changes = Latch.lookNow count (looking.shown changes) := by
  by_cases hzero : count = 0
  · simp [next, shown, Latch.lookNow, hzero, seen?]
  · simp [next, shown, Latch.lookNow, hzero, seen?]

theorem shown_next_of_ne (h : w ≠ looking) :
    (w.next count changes).shown changes = w.shown changes := by
  cases w with
  | looking => exact absurd rfl h
  | checking seen called =>
    by_cases hseen : seen = changes
    · simp [next, shown, seen?, hseen]
    · simp [next, shown, seen?, hseen]
  | parking seen called | parked seen called => cases called <;> rfl
  | asking seen | gone | left seen => rfl

end Stance

namespace Gate

variable {g : Gate} {n i : Nat}

def latch (g : Gate) : Latch := ⟨g.count, g.waiters.map (Stance.shown g.changes)⟩

def op? (g : Gate) : Act → Option Latch.Op
  | .join => some .join
  | .lower => some .countDown
  | .move i => if g.waiters[i]? = some .looking then some (.look i) else none
  | .call _ _ | .giveUp _ => none

def ops (g : Gate) : List Act → List Latch.Op
  | [] => []
  | a :: acts => (g.op? a).toList ++ (g.act a).ops acts

theorem map_modify_of_eq {α β : Type} {l : List α} {f : α → α} {s : α → β} {t : β → β}
    (h : ∀ a, l[i]? = some a → s (f a) = t (s a)) :
    (l.modify i f).map s = (l.map s).modify i t := by
  apply List.ext_getElem?
  intro k
  by_cases hk : i = k
  · subst hk
    cases ha : l[i]? with
    | none => simp [ha]
    | some a => simp [ha, h a ha]
  · simp [hk]

theorem map_modify_of_eq_self {α β : Type} {l : List α} {f : α → α} {s : α → β}
    (h : ∀ a, l[i]? = some a → s (f a) = s a) : (l.modify i f).map s = l.map s :=
  (map_modify_of_eq (t := id) h).trans (List.modify_id i _)

/-- **Each step of a party is an operation of the latch, or nothing is seen of it.** -/
theorem latch_act (h : g.Sound n) (a : Act) :
    (g.act a).latch = g.latch.performAll (g.op? a).toList := by
  cases a with
  | join => simp [latch, act, op?, Latch.perform, Latch.join, Stance.shown, Stance.seen?]
  | lower =>
    have hwoken : g.waiters.map (Stance.shown (g.changes + 1)) =
        (g.waiters.map (Stance.shown g.changes)).map Latch.wake := by
      rw [List.map_map]
      apply List.map_congr_left
      intro w hw
      obtain ⟨i, hsound⟩ := h.exists_waiter hw
      exact hsound.shown_lower
    exact congrArg (Latch.mk (g.count - 1)) hwoken
  | call j k =>
    have hcalled : (g.waiters.modify k .call).map (Stance.shown g.changes) =
        g.waiters.map (Stance.shown g.changes) := by
      apply map_modify_of_eq_self
      intro w _
      exact w.shown_call
    exact congrArg (Latch.mk g.count) hcalled
  | move k =>
    by_cases hlooking : g.waiters[k]? = some .looking
    · have hlook : (g.waiters.modify k (.next g.count g.changes)).map (Stance.shown g.changes) =
          (g.waiters.map (Stance.shown g.changes)).modify k (Latch.lookNow g.count) := by
        apply map_modify_of_eq
        intro w hw
        rw [hlooking] at hw
        cases hw
        exact Stance.shown_next_looking g.count g.changes
      simp only [op?, if_pos hlooking]
      exact congrArg (Latch.mk g.count) hlook
    · have hkept : (g.waiters.modify k (.next g.count g.changes)).map (Stance.shown g.changes) =
          g.waiters.map (Stance.shown g.changes) := by
        apply map_modify_of_eq_self
        intro w hw
        apply Stance.shown_next_of_ne
        intro hl
        exact hlooking (hl ▸ hw)
      simp only [op?, if_neg hlooking]
      exact congrArg (Latch.mk g.count) hkept
  | giveUp k =>
    have hkept : (g.waiters.modify k .giveUp).map (Stance.shown g.changes) =
        g.waiters.map (Stance.shown g.changes) := by
      apply map_modify_of_eq_self
      intro w _
      exact w.shown_giveUp
    exact congrArg (Latch.mk g.count) hkept

theorem latch_afterAll (h : g.Sound n) (acts : List Act) :
    (g.afterAll acts).latch = g.latch.performAll (g.ops acts) := by
  induction acts generalizing g with
  | nil => rfl
  | cons a acts ih => rw [afterAll_cons, ih (h.act a), latch_act h, ops, Latch.performAll_append]

end Gate

end TaskWatch.Monitor
