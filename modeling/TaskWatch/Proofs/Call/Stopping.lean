import TaskWatch.Proofs.Call.Faithfulness

/-!
# Polling stops

Poll and deadline of a call each tell the other one to stop, and either may come before the call has
got hold of the other.  The poll ends all the same once nothing is active, for its next look at the
active objects is its last one.

* `Poll.Winding`: the steps of a poll while nothing is active.  `Step.winding`: there are no others.
* `Poll.roundsLeft`, `Poll.toGo`: how many rounds and steps such a poll has before it.
* `Step.exists_toGo_lt`: a poll that has been set and not ended can always go on.
* `DeadlineTold`: the deadline of a call whose poll has ended by itself.  `Step.deadlineTold`: every
  step keeps this.
* `Course.polling_stops`: what this comes to.
-/

namespace TaskWatch.Monitor

variable {T : Type} {timed : Bool} {w w' : Scene T} {ev : Event T} {evs : List (Event T)}

/-! ## A poll with nothing to do -/

def Event.isBegan : Event T → Bool
  | .began _ => true
  | _ => false

/-- Whether an event takes a round on to its next object or to its end. -/
def Event.movesRound : Event T → Bool
  | .began _ | .asked _ | .roundEnded => true
  | _ => false

theorem Event.isBegan_of_movesRound_eq_false (h : ev.movesRound = false) : ev.isBegan = false := by
  cases ev with
  | began es => cases h
  | _ => rfl

/-- The steps of a poll while nothing is active, and the steps of others meanwhile. -/
inductive Poll.Winding : Poll T → Event T → Poll T → Prop
  | rest {p : Poll T} {ev : Event T} (h : ev.movesRound = false) : Winding p ev p
  | set : Winding .unset .advanced .idle
  | began : Winding .idle (.began []) (.between [])
  | asked (e : Entry T) (es : List (Entry T)) : Winding (.between (e :: es)) (.asked e)
      (.reading e es)
  | answered (e : Entry T) (r : Option (T × Verdict)) (es : List (Entry T)) :
      Winding (.reading e es) (.answered e r) (.answered e r es)
  | settled (e : Entry T) (r : Option (T × Verdict)) (es : List (Entry T)) :
      Winding (.answered e r es) (.settled e r false) (.between es)
  | paid (d : Delivery T) (es : List (Entry T)) : Winding (.owing d es) (.noticed d) (.between es)
  | roundEnded : Winding (.between []) .roundEnded .leaving
  | left : Winding .leaving .left .over
  | dropped {p : Poll T} (h : p.waits = true) : Winding p .pollDropped .cancelled

theorem Call.settle_of_active_eq_nil {c : Call T} {e : Entry T} {r : Option (T × Verdict)}
    {rest : List (Entry T)} (h : c.poll = .answered e r rest) (ha : c.active = []) :
    c.settle = { c with poll := .between rest } := by
  have hs := settle_settle h
  generalize c.settle = c' at hs
  cases hs with
  | failed | gone => rfl
  | unfinished t => simp [ha, refreshKey]
  | taken t v o hv hlive => simp [isActive, ha] at hlive

/-- While nothing is active, a step makes the poll wind up or leaves it alone. -/
theorem Step.winding (h : Step w ev w') (hw : Orderly timed w) (ha : w.call.active = []) :
    w.call.poll.Winding ev w'.call.poll := by
  replace h := h.change
  cases h with
  | @advance c c' s h =>
    have hunset : c.opening.pollTaken = false → c.poll = .unset := hw.poll_unset
    cases h with
    | pollSet ho =>
      show c.poll.Winding _ .idle
      rw [hunset (ho ▸ rfl)]
      exact .set
    | refused =>
      rw [Call.stopDeadline_eq]
      exact .rest rfl
    | _ => exact .rest rfl
  | @beginRound c s h =>
    rw [show c.active = [] from ha]
    show c.poll.Winding _ _
    rw [h]
    exact .began
  | @ask c s e rest h =>
    show c.poll.Winding _ _
    rw [h]
    exact .asked e rest
  | @endRound c s h =>
    show c.poll.Winding _ (if c.active.isEmpty then _ else _)
    rw [h, if_pos (List.isEmpty_iff.mpr ha)]
    exact .roundEnded
  | @leave c s h =>
    show c.poll.Winding _ _
    rw [h]
    exact .left
  | @answer c s e rest r h =>
    show c.poll.Winding _ _
    rw [h]
    exact .answered e r rest
  | @settle c c' s e r rest h hc =>
    have hlive : c.isActive e.key = false := by simp [Call.isActive, show c.active = [] from ha]
    have hpoll : c'.poll = .between rest := by
      cases hc with
      | taken t v o hv htaken =>
        rw [hlive] at htaken
        cases htaken
      | _ => rfl
    rw [hlive]
    show c.poll.Winding _ c'.poll
    rw [h, hpoll]
    exact .settled e r rest
  | @pay c s d rest h =>
    show c.poll.Winding _ _
    rw [h]
    exact .paid d rest
  | dropPoll h => exact .dropped h
  | _ => exact .rest rfl

/-! ## How far a poll has to go -/

namespace Poll

variable {p p' : Poll T}

/-- How many rounds a poll begins yet once nothing is active. -/
def roundsLeft : Poll T → Nat
  | .unset | .idle => 1
  | _ => 0

/-- How many steps a poll has before it once nothing is active, at most. -/
def toGo : Poll T → Nat
  | .unset | .idle => 3
  | .between rest => 3 * rest.length + 2
  | .owing _ rest | .answered _ _ rest => 3 * rest.length + 3
  | .reading _ rest => 3 * rest.length + 4
  | .leaving => 1
  | .over | .cancelled => 0

theorem toGo_eq_zero_iff : p.toGo = 0 ↔ p = .over ∨ p = .cancelled := by
  cases p <;> simp [toGo]

namespace Winding

theorem roundsLeft_le (h : p.Winding ev p') :
    [ev].countP Event.isBegan + p'.roundsLeft ≤ p.roundsLeft := by
  cases h with
  | rest hev => simp [Event.isBegan_of_movesRound_eq_false hev]
  | _ => simp [Event.isBegan, roundsLeft]

theorem toGo_le (h : p.Winding ev p') : p'.toGo ≤ p.toGo := by
  cases h with
  | rest => exact Nat.le_refl _
  | dropped => exact Nat.zero_le _
  | _ => simp [toGo] <;> omega

theorem owed_subset (h : p.Winding ev p') : p'.owed ⊆ p.owed := by
  cases h with
  | rest => exact List.Subset.refl _
  | _ => exact List.nil_subset _

/-- A round that ends is the last one. -/
theorem hasLeft (h : p.Winding ev p') (hp : p.hasLeft = true ∨ ev = .roundEnded) :
    p'.hasLeft = true := by
  cases h with
  | rest hev =>
    rcases hp with hp | rfl
    · exact hp
    · cases hev
  | roundEnded | left => rfl
  | dropped hw => cases p <;> simp_all [Poll.hasLeft, Poll.waits]
  | _ => simp [Poll.hasLeft] at hp

/-- A poll without objects to read asks for no reading, and gets none. -/
theorem entries_eq_nil (h : p.Winding ev p') (hp : p.entries = [] ∨ ev.isBegan = true) :
    p'.entries = [] ∧ ∀ e, ev ≠ .asked e := by
  cases h with
  | rest hev =>
    rw [Event.isBegan_of_movesRound_eq_false hev] at hp
    refine ⟨hp.resolve_right Bool.false_ne_true, ?_⟩
    rintro e rfl
    cases hev
  | asked | answered | settled => simp [Poll.entries, Event.isBegan] at hp
  | paid d es => simpa [Poll.entries, Event.isBegan] using hp
  | _ => simp [Poll.entries]

end Winding
end Poll

/-- A poll that has been set and not ended can go on by itself. -/
theorem Step.exists_toGo_lt (ha : w.call.active = []) (hset : w.call.poll ≠ .unset)
    (hgo : w.call.poll.toGo ≠ 0) :
    ∃ ev w', Step w ev w' ∧ w'.call.poll.toGo < w.call.poll.toGo := by
  obtain ⟨c, s⟩ := w
  cases h : c.poll with
  | unset => exact absurd h hset
  | idle =>
    refine ⟨_, _, .beginRound h, ?_⟩
    rw [Call.beginRound_of_idle h]
    simp [Poll.toGo, show c.active = [] from ha]
  | between rest =>
    cases rest with
    | nil =>
      refine ⟨_, _, .endRound h, ?_⟩
      rw [Call.proceed_of_nil h]
      simp [Poll.toGo, show c.active = [] from ha]
    | cons e rest =>
      refine ⟨_, _, .ask h, ?_⟩
      rw [Call.proceed_of_cons h]
      simp [Poll.toGo]
      omega
  | reading e rest =>
    refine ⟨_, _, .answer none h, ?_⟩
    rw [Call.answer_of_reading none h]
    simp [Poll.toGo]
  | answered e r rest =>
    refine ⟨_, _, .settle h, ?_⟩
    rw [Call.settle_of_active_eq_nil h ha]
    simp [Poll.toGo]
  | owing d rest =>
    refine ⟨_, _, .pay h, ?_⟩
    rw [Call.pay_of_owing h]
    simp [Poll.toGo]
  | leaving =>
    refine ⟨_, _, .leave h, ?_⟩
    rw [Call.leave_of_leaving h]
    simp [Poll.toGo]
  | _ => simp [h, Poll.toGo] at hgo

/-! ## Courses with nothing active -/

theorem Step.active_eq_nil (h : Step w ev w') (ha : w.call.active = []) : w'.call.active = [] := by
  have hsub := h.active_subset
  rw [ha] at hsub
  exact List.map_eq_nil_iff.mp (List.subset_nil.mp hsub)

/-- What each step of a poll that winds up keeps holds all along once nothing is active. -/
theorem Course.winding {P : List (Event T) → Poll T → Prop} (hw : Orderly timed w)
    (ha : w.call.active = []) (h₀ : P [] w.call.poll)
    (hstep : ∀ {evs p ev p'}, P evs p → p.Winding ev p' → P (evs ++ [ev]) p')
    (h : Course Step w evs w') :
    Orderly timed w' ∧ w'.call.active = [] ∧ P evs w'.call.poll :=
  h.invariant (P := fun evs w => Orderly timed w ∧ w.call.active = [] ∧ P evs w.call.poll)
    ⟨hw, ha, h₀⟩ fun ⟨hw, ha, hp⟩ next =>
      ⟨next.orderly hw, next.active_eq_nil ha, hstep hp (next.winding hw ha)⟩

theorem Course.roundsLeft_le (hw : Orderly timed w) (ha : w.call.active = [])
    (h : Course Step w evs w') :
    evs.countP Event.isBegan + w'.call.poll.roundsLeft ≤ w.call.poll.roundsLeft := by
  refine (h.winding (P := fun evs p => evs.countP Event.isBegan + p.roundsLeft ≤ _) hw ha
    (Nat.le_of_eq (Nat.zero_add _)) fun {evs p ev p'} hp hstep => ?_).2.2
  have hle := hstep.roundsLeft_le
  rw [List.countP_append]
  omega

theorem Course.toGo_le (hw : Orderly timed w) (ha : w.call.active = []) (h : Course Step w evs w') :
    w'.call.poll.toGo ≤ w.call.poll.toGo :=
  (h.winding (P := fun _ p => p.toGo ≤ _) hw ha (Nat.le_refl _) fun hp hstep =>
    Nat.le_trans hstep.toGo_le hp).2.2

/-- The poll owes no more than it did. -/
theorem Course.poll_owed_subset (hw : Orderly timed w) (ha : w.call.active = [])
    (h : Course Step w evs w') : w'.call.poll.owed ⊆ w.call.poll.owed :=
  (h.winding (P := fun _ p => p.owed ⊆ _) hw ha (List.Subset.refl _) fun hp hstep =>
    List.Subset.trans hstep.owed_subset hp).2.2

theorem Course.asked_notMem (hw : Orderly timed w) (ha : w.call.active = [])
    (he : w.call.poll.entries = []) (h : Course Step w evs w') : ∀ e, .asked e ∉ evs := by
  refine (h.winding (P := fun evs p => p.entries = [] ∧ ∀ e, .asked e ∉ evs) hw ha
    ⟨he, fun _ => List.not_mem_nil⟩ fun {evs p ev p'} hp hstep => ?_).2.2.2
  obtain ⟨hentries, hev⟩ := hstep.entries_eq_nil (Or.inl hp.1)
  refine ⟨hentries, fun e hmem => ?_⟩
  rcases List.mem_append.mp hmem with hmem | hmem
  · exact hp.2 e hmem
  · exact hev e (List.mem_singleton.mp hmem).symm

theorem Course.hasLeft_of_roundEnded (hw : Orderly timed w) (ha : w.call.active = [])
    (h : Course Step w evs w') : .roundEnded ∈ evs → w'.call.poll.hasLeft = true := by
  refine (h.winding (P := fun evs p => .roundEnded ∈ evs → p.hasLeft = true) hw ha nofun
    fun {evs p ev p'} hp hstep hmem => ?_).2.2
  rcases List.mem_append.mp hmem with hmem | hmem
  · exact hstep.hasLeft (Or.inl (hp hmem))
  · exact hstep.hasLeft (Or.inr (List.mem_singleton.mp hmem).symm)

/-- A round that begins when nothing is active has nothing to read. -/
theorem Course.began_in_vain {before after : List (Event T)} {es : List (Entry T)}
    (hw : Orderly timed w) (ha : w.call.active = [])
    (h : Course Step w (before ++ .began es :: after) w') : es = [] ∧ ∀ e, .asked e ∉ after := by
  rw [List.append_cons] at h
  obtain ⟨w₂, h₂, hafter⟩ := h.split
  obtain ⟨w₁, hbefore, next⟩ := h₂.unsnoc
  obtain ⟨hw₁, ha₁, -⟩ := hbefore.winding (P := fun _ _ => True) hw ha trivial fun _ _ => trivial
  have hentries := ((next.winding hw₁ ha₁).entries_eq_nil (Or.inr rfl)).1
  refine ⟨?_, hafter.asked_notMem (next.orderly hw₁) (next.active_eq_nil ha₁) hentries⟩
  cases next with
  | beginRound => exact ha₁

/-! ## A deadline that finds nothing active -/

theorem Step.deadline_owed_subset (h : Step w ev w') (ha : w.call.active = []) :
    w'.call.deadline.owed ⊆ w.call.deadline.owed := by
  replace h := h.change
  cases h with
  | advance h =>
    cases h with
    | deadlineSet => exact List.nil_subset _
    | refused => rw [Call.stopDeadline_eq]; exact List.Subset.refl _
    | _ => exact List.Subset.refl _
  | settle h hc => cases hc <;> exact List.Subset.refl _
  | @expire c s h => simp [Deadline.owed, show c.active = [] from ha]
  | stopPoll h => simp [Deadline.owed, h]
  | payTimeout h => simp [Deadline.owed, h]
  | endDeadline | dropDeadline => exact List.nil_subset _
  | _ => exact List.Subset.refl _

theorem Step.mem_owed_of_noticed {d : Delivery T} (h : Step w (.noticed d) w') :
    d ∈ w.call.owed := by
  cases h with
  | pay h => simp [Call.owed, h, Poll.owed]
  | payTimeout h => simp [Call.owed, h, Deadline.owed]

/-- When the deadline owes nothing, all notices come from the poll. -/
theorem Course.noticed_by_poll (hw : Orderly timed w) (ha : w.call.active = [])
    (hd : w.call.deadline.owed = []) (h : Course Step w evs w') :
    w'.call.deadline.owed = [] ∧ ∀ d, .noticed d ∈ evs → d ∈ w.call.poll.owed := by
  induction h with
  | refl => exact ⟨hd, nofun⟩
  | @tail evs w₁ w₂ ev prior next ih =>
    obtain ⟨hd₁, hpoll⟩ := ih
    have ha₁ := (prior.winding (P := fun _ _ => True) hw ha trivial fun _ _ => trivial).2.1
    refine ⟨List.subset_nil.mp (hd₁ ▸ next.deadline_owed_subset ha₁), fun d hmem => ?_⟩
    rcases List.mem_append.mp hmem with hmem | hmem
    · exact hpoll d hmem
    · obtain rfl := List.mem_singleton.mp hmem
      have howed := next.mem_owed_of_noticed
      rw [Call.owed, hd₁, List.append_nil] at howed
      exact prior.poll_owed_subset hw ha howed

/-- A deadline that comes when nothing is active takes nothing out and gives no notices. -/
theorem Course.expired_in_vain {before after : List (Event T)} {es : List (Entry T)}
    (hw : Orderly timed w) (ha : w.call.active = [])
    (h : Course Step w (before ++ .expired es :: after) w') :
    es = [] ∧ ∀ d, .noticed d ∈ after → d ∈ w.call.poll.owed := by
  rw [List.append_cons] at h
  obtain ⟨w₂, h₂, hafter⟩ := h.split
  obtain ⟨w₁, hbefore, next⟩ := h₂.unsnoc
  obtain ⟨-, ha₁, -⟩ := hbefore.winding (P := fun _ _ => True) hw ha trivial fun _ _ => trivial
  obtain ⟨hw₂, ha₂, -⟩ := h₂.winding (P := fun _ _ => True) hw ha trivial fun _ _ => trivial
  have hsub := h₂.poll_owed_subset hw ha
  cases next with
  | @expire c s hwait =>
    have hnone : (⟨c.expire, s⟩ : Scene T).call.deadline.owed = [] := by
      rw [Call.expire_of_waiting hwait]
      simp [Deadline.owed, show c.active = [] from ha₁]
    exact ⟨ha₁, fun d hd => hsub ((hafter.noticed_by_poll hw₂ ha₂ hnone).2 d hd)⟩

/-! ## A poll that has ended by itself -/

/-- Whether the beginning of a call has come past setting its deadline, if that has one. -/
def Opening.deadlinePassed : Opening → Bool
  | .fresh | .refused => false
  | _ => true

/-- A call that is past setting its deadline has one that is set, and a poll that has ended by
itself has told it to stop. -/
structure DeadlineTold (w : Scene T) : Prop where
  deadline_set : w.call.hasDeadline = true → w.call.opening.deadlinePassed = true →
    w.call.deadline ≠ .unset
  told : w.call.hasDeadline = true → w.call.poll = .over → w.call.deadlineStopped = true

/-- Only the beginning sets the deadline, and only a poll that leaves is over. -/
theorem DeadlineTold.frame (hc : DeadlineTold w) (hh : w'.call.hasDeadline = w.call.hasDeadline)
    (ho : w'.call.opening = w.call.opening)
    (hd : w.call.deadline ≠ .unset → w'.call.deadline ≠ .unset)
    (hp : w'.call.poll = .over → w.call.poll = .over)
    (hs : w'.call.deadlineStopped = w.call.deadlineStopped) : DeadlineTold w' where
  deadline_set h h' := hd (hc.deadline_set (hh ▸ h) (ho ▸ h'))
  told h h' := hs ▸ hc.told (hh ▸ h) (hp h')

theorem DeadlineTold.advance {c c' : Call T} {s : Standing} (hc : DeadlineTold ⟨c, s⟩)
    (hw : Orderly timed ⟨c, s⟩) (h : c.Advance (s != .running) c') : DeadlineTold ⟨c', s⟩ := by
  have hset : c.hasDeadline = true → c.opening.deadlinePassed = true → c.deadline ≠ .unset :=
    hc.deadline_set
  have htold : c.hasDeadline = true → c.poll = .over → c.deadlineStopped = true := hc.told
  cases h with
  | noDeadline ho hd => exact ⟨fun h => absurd (hd.symm.trans h) nofun, htold⟩
  | deadlineRefused => exact ⟨nofun, htold⟩
  | deadlineSet => exact ⟨nofun, htold⟩
  | deadlineKept ho | pollRefused ho | pollKept ho => exact ⟨fun h _ => hset h (ho ▸ rfl), htold⟩
  | pollSet ho => exact ⟨fun h _ => hset h (ho ▸ rfl), nofun⟩
  | refused ho =>
    rw [Call.stopDeadline_eq]
    have hp : c.poll = .unset := hw.poll_unset (ho ▸ rfl)
    exact ⟨nofun, fun _ hover => nomatch hp.symm.trans hover⟩
  | stay => exact hc

theorem Call.deadlineStopped_stopDeadline {c : Call T} (hd : c.hasDeadline = true)
    (ho : c.opening.pollTaken = true) : c.stopDeadline.deadlineStopped = true := by
  have hne : c.opening ≠ .fresh ∧ c.opening ≠ .deadlineSet := by
    cases hop : c.opening <;> simp_all [Opening.pollTaken]
  rw [stopDeadline, if_pos ⟨hd, hne⟩]

theorem DeadlineTold.leave {c : Call T} {s : Standing} (hc : DeadlineTold ⟨c, s⟩)
    (hw : Orderly timed ⟨c, s⟩) (h : c.poll = .leaving) : DeadlineTold ⟨c.leave, s⟩ := by
  rw [Call.leave_of_leaving h]
  have htaken : c.opening.pollTaken = true := hw.pollTaken (by simp [h])
  have heq := Call.stopDeadline_eq c
  refine ⟨fun hd ho => ?_, fun hd _ => Call.deadlineStopped_stopDeadline ?_ htaken⟩
  · rw [heq] at hd ho ⊢
    exact hc.deadline_set hd ho
  · rw [heq] at hd
    exact hd

theorem Step.deadlineTold (h : Step w ev w') (hw : Orderly timed w) (hc : DeadlineTold w) :
    DeadlineTold w' := by
  replace h := h.change
  cases h with
  | advance h => exact hc.advance hw h
  | leave h =>
    have hleft := hc.leave hw h
    rw [Call.leave_of_leaving h, Call.stopDeadline_eq] at hleft
    exact hleft
  | endRound h =>
    refine hc.frame rfl rfl id (fun hover => ?_) rfl
    dsimp only at hover
    split at hover <;> cases hover
  | settle h hs => cases hs <;> exact hc.frame rfl rfl id nofun rfl
  | beginRound | ask | answer | pay | dropPoll => exact hc.frame rfl rfl id nofun rfl
  | expire | stopPoll | payTimeout | endDeadline | dropDeadline =>
    exact hc.frame rfl rfl (fun _ => nofun) id rfl
  | arrange | deliver | dropCallback | close | shutDown => exact hc.frame rfl rfl id id rfl

theorem Course.deadlineTold {active : List (Entry T)} {s : Standing}
    (h : Course Step ⟨.prepare active timed, s⟩ evs w) : DeadlineTold w := by
  induction h with
  | refl => exact ⟨nofun, nofun⟩
  | tail prior next ih => exact next.deadlineTold prior.orderly ih

/-! ## Calls -/

/-- **Polling stops.**  Whatever order the steps of a call are taken in, with its deadline as early
as may be: once nothing is active, a round that begins has no objects and no reading is asked for in
it; the poll begins one more round at most, and none if it is in one; a round that ends is its last
one; a poll that has been set goes on until it has ended, after so many steps at most; and a
deadline that comes then gives no notices.  A poll that has ended by itself leaves no deadline
behind that has neither come nor been told to stop. -/
theorem Course.polling_stops {active : List (Entry T)} {s : Standing}
    (h : Course Step ⟨.prepare active timed, s⟩ evs w) :
    (w.call.active = [] → ∀ evs w', Course Step w evs w' →
      w'.call.active = [] ∧
      (∀ before es after, evs = before ++ .began es :: after → es = [] ∧ ∀ e, .asked e ∉ after) ∧
      evs.countP Event.isBegan + w'.call.poll.roundsLeft ≤ w.call.poll.roundsLeft ∧
      (.roundEnded ∈ evs → w'.call.poll = .leaving ∨ w'.call.poll = .over) ∧
      w'.call.poll.toGo ≤ w.call.poll.toGo ∧
      (w'.call.poll = .unset ∨ w'.call.poll = .over ∨ w'.call.poll = .cancelled ∨
        ∃ ev w'', Step w' ev w'' ∧ w''.call.poll.toGo < w'.call.poll.toGo) ∧
      (∀ before es after, evs = before ++ .expired es :: after →
        es = [] ∧ ∀ d, .noticed d ∈ after → d ∈ w.call.poll.owed)) ∧
    (timed = true → w.call.poll = .over → w.call.deadline.fired = true ∨
      w.call.deadlineStopped = true ∧
        (w.call.deadline = .waiting ∨ w.call.deadline = .cancelled)) := by
  have hw := h.orderly
  constructor
  · intro ha evs w' h'
    obtain ⟨-, ha', -⟩ := h'.winding (P := fun _ _ => True) hw ha trivial fun _ _ => trivial
    refine ⟨ha', ?_, h'.roundsLeft_le hw ha, fun hmem => ?_, h'.toGo_le hw ha, ?_, ?_⟩
    · rintro before es after rfl
      exact h'.began_in_vain hw ha
    · have hleft := h'.hasLeft_of_roundEnded hw ha hmem
      cases hp : w'.call.poll <;> simp_all [Poll.hasLeft]
    · by_cases hset : w'.call.poll = .unset
      · exact Or.inl hset
      · by_cases hgo : w'.call.poll.toGo = 0
        · exact Or.inr ((Poll.toGo_eq_zero_iff.mp hgo).imp_right Or.inl)
        · exact Or.inr (Or.inr (Or.inr (Step.exists_toGo_lt ha' hset hgo)))
    · rintro before es after rfl
      exact h'.expired_in_vain hw ha
  · intro ht hover
    have hd : w.call.hasDeadline = true := hw.has_deadline.trans ht
    have hc := h.deadlineTold
    have htaken : w.call.opening.pollTaken = true := hw.pollTaken (by simp [hover])
    have hset : w.call.deadline ≠ .unset := hc.deadline_set hd (by
      cases ho : w.call.opening <;> simp_all [Opening.pollTaken, Opening.deadlinePassed])
    cases hdl : w.call.deadline with
    | unset => exact absurd hdl hset
    | waiting => exact Or.inr ⟨hc.told hd hover, Or.inl rfl⟩
    | cancelled => exact Or.inr ⟨hc.told hd hover, Or.inr rfl⟩
    | _ => exact Or.inl rfl

/-- The deadline comes before the poll is set and cannot tell it to stop: the poll ends in its first
round, without a reading. -/
theorem poll_ends_after_early_deadline :
    ∃ evs w evs' w', Course Step ⟨.prepare (Call.collect twins) true, .running⟩ evs w ∧
      w.call.active = [] ∧ w.call.poll = .unset ∧ Course Step w evs' w' ∧
      w'.call.poll = .over ∧ w'.call.pollStopped = false ∧ evs'.countP Event.isBegan = 1 ∧
      (∀ before es after, evs' = before ++ .began es :: after → es = [] ∧
        ∀ e, .asked e ∉ after) := by
  have h : Course Step ⟨.prepare (Call.collect twins) true, .running⟩ [] _ := .refl
  have h := ((h.tail .advance).tail (.expire rfl)).tail (.stopPoll rfl)
  have h' : Course Step
      ⟨((Call.prepare (Call.collect twins) true).advanceOpening false).expire.stopPoll,
        .running⟩ [] _ :=
    .refl
  have h' := (((h'.tail .advance).tail .advance).tail (.beginRound rfl)).tail (.endRound rfl)
  have h' := (h'.tail (.leave rfl)).tail .advance
  exact ⟨_, _, _, _, h, rfl, rfl, h', rfl, rfl, rfl,
    ((Course.polling_stops h).1 rfl _ _ h').2.1⟩

end TaskWatch.Monitor
