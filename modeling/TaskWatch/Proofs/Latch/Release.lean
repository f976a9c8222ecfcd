import TaskWatch.Proofs.Latch.Outside

/-!
# Who is let go, and when

A latch lets nobody go before it has been counted down to zero, and misses nobody after that,
whatever the parties do in whatever order.

* `Gate.Sound.seen_ne`: at zero, nobody who has stayed knows of the last change.
* `Gate.Sound.owed_of_dormant`: so whoever sleeps then has yet to be called.
* `Stance.Nears`: how far a waiter that does not sleep is from being let go.
  `Gate.Sound.nears_afterAll`: each step of its own takes it nearer, and nobody else takes it back.
* `Gate.LetsGo`: what is true of a gate at zero.  `Gate.lets_go_at_zero`: what this comes to for any
  count and any steps.
-/

namespace TaskWatch.Monitor

/-! ## The way out -/

namespace Stance

variable {n changes m : Nat} {owed : Prop} {w : Stance}

/-- With the count at zero, how many steps of its own a waiter takes until it is let go, if it does
not sleep. -/
def stepsLeft : Stance → Nat
  | looking => 1
  | checking _ _ => 2
  | asking _ => 3
  | parking _ _ | parked _ _ => 4
  | gone | left _ => 0

theorem stepsLeft_le (w : Stance) : w.stepsLeft ≤ 4 := by
  cases w <;> simp [stepsLeft]

def hasLeft : Stance → Bool
  | left _ => true
  | _ => false

/-- A waiter that neither sleeps nor has given up, and is so far from being let go. -/
structure Nears (m : Nat) (w : Stance) : Prop where
  wakeful : w.dormant = false
  stays : w.hasLeft = false
  stepsLeft_le : w.stepsLeft ≤ m

theorem Nears.eq_gone (h : w.Nears 0) : w = gone := by
  have hle := h.stepsLeft_le
  cases w with
  | gone => rfl
  | left seen => cases h.stays
  | _ => cases hle

theorem Nears.call (h : w.Nears m) : w.call.Nears m where
  wakeful := dormant_call w
  stays := by
    have hsame : w.call.hasLeft = w.hasLeft := by cases w <;> rfl
    rw [hsame]
    exact h.stays
  stepsLeft_le := by
    have hsame : w.call.stepsLeft = w.stepsLeft := by cases w <;> rfl
    rw [hsame]
    exact h.stepsLeft_le

/-- At zero, each step takes a waiter nearer: having found the count above zero, it does not know of
the last change and so looks once more. -/
theorem Nears.next (h : w.Nears m) (hsound : w.Sound n changes owed) (hzero : n ≤ changes) :
    (w.next 0 changes).Nears (m - 1) := by
  have hless : w.stepsLeft - 1 ≤ m - 1 := Nat.sub_le_sub_right h.stepsLeft_le 1
  cases w with
  | looking => exact ⟨rfl, rfl, hless⟩
  | asking seen => exact ⟨rfl, rfl, hless⟩
  | checking seen called =>
    have hlt : seen < n := hsound.seen_lt seen rfl
    have hne : seen ≠ changes := by omega
    rw [Stance.next, if_neg hne]
    exact ⟨rfl, rfl, hless⟩
  | parking seen called | parked seen called =>
    have hcalled : called = true := by simpa [dormant] using h.wakeful
    rw [Stance.next, if_pos hcalled]
    exact ⟨rfl, rfl, hless⟩
  | gone => exact ⟨rfl, rfl, hless⟩
  | left seen => cases h.stays

end Stance

namespace Gate

variable {g : Gate} {n i m : Nat} {w : Stance}

namespace Sound

theorem le_changes (h : g.Sound n) (hzero : g.count = 0) : n ≤ g.changes := by
  have hcount := h.count_eq
  omega

/-- At zero, nobody who has stayed knows of the last change. -/
theorem seen_ne (h : g.Sound n) (hzero : g.count = 0) (hw : w ∈ g.waiters) :
    w.seen? ≠ some g.changes := by
  intro hs
  obtain ⟨i, hsound⟩ := h.exists_waiter hw
  have hlt := hsound.seen_lt _ hs
  have hle := h.le_changes hzero
  omega

/-- At zero, whoever sleeps has yet to be called. -/
theorem owed_of_dormant (h : g.Sound n) (hzero : g.count = 0) (hw : g.waiters[i]? = some w)
    (hd : w.dormant = true) : g.Owed i := by
  rcases (h.waiter i w hw).awaited hd with hs | howed
  · exact absurd hs (h.seen_ne hzero (List.mem_of_getElem? hw))
  · exact howed

end Sound

theorem count_act_of_zero (hzero : g.count = 0) (a : Act) : (g.act a).count = 0 := by
  cases a with
  | lower =>
    show g.count - 1 = 0
    omega
  | _ => exact hzero

/-- Zero is not left again. -/
theorem count_afterAll_of_zero (hzero : g.count = 0) (more : List Act) :
    (g.afterAll more).count = 0 := by
  induction more generalizing g with
  | nil => exact hzero
  | cons a more ih => exact ih (count_act_of_zero hzero a)

/-- Who has been called does not sleep. -/
theorem dormant_of_called {j : Nat} (hw : (g.act (.call j i)).waiters[i]? = some w) :
    w.dormant = false := by
  have hcalled : (g.act (.call j i)).waiters[i]? = (g.waiters[i]?).map .call := by simp [act]
  rw [hcalled] at hw
  obtain ⟨v, -, rfl⟩ := Option.map_eq_some_iff.mp hw
  exact v.dormant_call

namespace Sound

theorem nears_meet (h : g.Sound n) (hzero : g.count = 0) (hw : g.waiters[i]? = some w)
    (hm : w.Nears m) {a : Act}
    (ha : a ≠ .giveUp i) : (g.meet i w a).Nears (m - if a = .move i then 1 else 0) := by
  cases a with
  | join | lower => exact hm
  | call j k =>
    by_cases hk : k = i
    · simpa [Gate.meet, hk] using hm.call
    · simpa [Gate.meet, hk] using hm
  | move k =>
    by_cases hk : k = i
    · subst hk
      simpa [Gate.meet, hzero] using hm.next (h.waiter k w hw) (h.le_changes hzero)
    · simpa [Gate.meet, hk] using hm
  | giveUp k =>
    have hk : k ≠ i := fun heq => ha (congrArg Act.giveUp heq)
    simpa [Gate.meet, hk] using hm

/-- With each step of its own a waiter comes nearer to being let go, whatever the others do. -/
theorem nears_afterAll (h : g.Sound n) (hzero : g.count = 0) (hw : g.waiters[i]? = some w)
    (hm : w.Nears m) {more : List Act} (hmore : .giveUp i ∉ more) :
    ∃ v, (g.afterAll more).waiters[i]? = some v ∧ v.Nears (m - more.count (.move i)) := by
  induction more generalizing g w m with
  | nil => exact ⟨w, hw, hm⟩
  | cons a more ih =>
    obtain ⟨ha, hrest⟩ := List.ne_and_not_mem_of_not_mem_cons hmore
    have hmeet := h.nears_meet hzero hw hm (Ne.symm ha)
    obtain ⟨v, hv, hnears⟩ :=
      ih (h.act a) (count_act_of_zero hzero a) (getElem?_waiters_act hw a) hmeet hrest
    refine ⟨v, hv, ?_⟩
    have hsplit : m - (if a = .move i then 1 else 0) - more.count (.move i) =
        m - (more.count (.move i) + if a == .move i then 1 else 0) := by
      simp only [beq_iff_eq]
      omega
    rwa [List.count_cons, ← hsplit]

end Sound

/-! ## All of it -/

structure LetsGo (g : Gate) : Prop where
  /-- Its count never changes again. -/
  stays_open : ∀ more, (g.afterAll more).count = 0
  /-- Whoever is parked has been called, or somebody who counts down has yet to call it. -/
  none_missed : ∀ i seen called, g.waiters[i]? = some (.parked seen called) →
    called = true ∨ g.Owed i
  /-- The same goes for whoever is about to park. -/
  owed : ∀ i w, g.waiters[i]? = some w → w.dormant = true → g.Owed i
  /-- Who does not sleep is let go within four steps of its own, whatever the others do, unless it
  gives up. -/
  goes : ∀ i w more, g.waiters[i]? = some w → w.dormant = false → w.hasLeft = false →
    .giveUp i ∉ more → 4 ≤ more.count (.move i) → (g.afterAll more).waiters[i]? = some .gone
  /-- Who comes now is let go by its first step. -/
  comes : ((g.act .join).act (.move g.waiters.length)).waiters[g.waiters.length]? = some .gone
  /-- Nobody is seen parked. -/
  none_shown : .parked ∉ g.latch.waiters

theorem Sound.letsGo (h : g.Sound n) (hzero : g.count = 0) : g.LetsGo where
  stays_open := count_afterAll_of_zero hzero
  none_missed := by
    intro i seen called hparked
    cases called with
    | true => exact .inl rfl
    | false => exact .inr (h.owed_of_dormant hzero hparked rfl)
  owed := by
    intro i w hw hd
    exact h.owed_of_dormant hzero hw hd
  goes := by
    intro i w more hw hd hstays hmore hfour
    obtain ⟨v, hv, hnears⟩ := h.nears_afterAll hzero hw ⟨hd, hstays, w.stepsLeft_le⟩ hmore
    rw [Nat.sub_eq_zero_of_le hfour] at hnears
    rw [hv, hnears.eq_gone]
  comes := by
    have hnew : (g.act .join).waiters[g.waiters.length]? = some .looking :=
      List.getElem?_concat_length
    rw [getElem?_waiters_act hnew, Gate.meet, if_pos rfl]
    exact congrArg some (if_pos hzero)
  none_shown := by
    intro hparked
    obtain ⟨w, hw, hshown⟩ := List.mem_map.mp hparked
    exact h.seen_ne hzero hw (Stance.seen?_of_shown_eq_parked hshown)

/-- **A latch lets go at zero, nobody before and everybody after.**  Let any number of parties count
it down, wait at it and give up, their steps taken in any order.  After `k` count-downs the count is
`n - k`.  Who has been let go was so after `n` of them at least, and who has given up had found the
count above zero.  At zero the count stays, nobody is missed, and everybody is let go.  Who is
called does not sleep, whatever the count.  All that is seen of this are operations of the latch at
one stroke. -/
theorem lets_go_at_zero (n : Nat) (acts : List Act) :
    let g := (start n).afterAll acts
    let k := acts.count .lower
    g.count = n - k ∧
    (.gone ∈ g.waiters → n ≤ k) ∧
    (∀ seen, .left seen ∈ g.waiters → seen ≤ k ∧ 0 < n - seen) ∧
    (g.count = 0 → g.LetsGo) ∧
    (∀ j i w, (g.act (.call j i)).waiters[i]? = some w → w.dormant = false) ∧
    g.latch = (Latch.start n).performAll ((start n).ops acts) := by
  intro g k
  have hsound : g.Sound n := (sound_start n).afterAll acts
  have hchanges : g.changes = k := changes_afterAll n acts
  refine ⟨hchanges ▸ hsound.count_eq, ?_, ?_, hsound.letsGo, ?_,
    latch_afterAll (sound_start n) acts⟩
  · intro hgone
    obtain ⟨i, hw⟩ := hsound.exists_waiter hgone
    exact hchanges ▸ hw.gone_le rfl
  · intro seen hleft
    obtain ⟨i, hw⟩ := hsound.exists_waiter hleft
    have hle := hw.seen_le seen rfl
    have hlt := hw.seen_lt seen rfl
    omega
  · intro j i w hw
    exact dormant_of_called hw

/-- The first waiter has found no change and is about to park when the count comes to zero, the
second one has given up, and the third one has just come. -/
def closeCall : List Act :=
  [.join, .join, .move 0, .move 0, .move 0, .move 1, .move 1, .move 1, .move 1, .giveUp 1, .lower,
    .lower, .move 0, .join]

/-- The first waiter parks at zero, but both count-downs owe it a call.  When one of them has called
it, it is let go in its fourth step, though the count is counted down once more in between. -/
theorem lets_go_after_close_call :
    let g := (start 2).afterAll closeCall
    let called := (start 2).afterAll (closeCall ++ [.call 1 0])
    let more : List Act := [.move 0, .lower, .move 0, .move 2, .move 0, .move 0]
    (g.count = 0 ∧ g.waiters = [.parked 0 false, .left 0, .looking] ∧ g.Owed 0) ∧
    (called.afterAll more).count = 0 ∧ (called.afterAll more).waiters[0]? = some .gone := by
  intro g called more
  obtain ⟨-, -, -, hzero, -⟩ := lets_go_at_zero 2 closeCall
  obtain ⟨-, -, -, hcalled, -⟩ := lets_go_at_zero 2 (closeCall ++ [.call 1 0])
  have howed : g.Owed 0 := (hzero rfl).owed 0 (.parked 0 false) rfl rfl
  refine ⟨⟨rfl, rfl, howed⟩, (hcalled rfl).stays_open more, ?_⟩
  exact (hcalled rfl).goes 0 (.parked 0 true) more rfl rfl rfl (by decide) (by decide)

end Gate
end TaskWatch.Monitor
