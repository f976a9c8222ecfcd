import TaskWatch.Proofs.Call.Fates

/-!
# Calls that are refused

A call with bad arguments never comes to be.  One that meets a closed scheduler has no poll, but it
may have a deadline already, which is told to stop then; a deadline that has come before that gives
its notices all the same.

* `Beginning`, `Deadline.Moves`: what a step does to the beginning of a call and to its deadline.
* `RolledBack`: a call that has been refused has told its deadline to stop.
* `Stillborn`: a call that met a closed scheduler at once.  `Step.stillborn`: nothing comes of it.
* `Rejected`: a call that ends in an error, with all that happens in it before and after that.
* `Rejected.effects`: what can happen in it.  `notices_of_a_refused_call`: that is not nothing.
-/

namespace TaskWatch.Monitor

variable {T : Type} {timed : Bool} {w w' : Scene T} {ev : Event T} {evs : List (Event T)}

/-! ## The beginning -/

inductive Beginning (w w' : Scene T) : Event T → Prop
  | advanced (h : w.call.Advance (w.standing != .running) w'.call) : Beginning w w' .advanced
  | kept {ev : Event T} (hev : ev ≠ .advanced) (ho : w'.call.opening = w.call.opening)
      (hs : w.call.deadlineStopped = true → w'.call.deadlineStopped = true) : Beginning w w' ev

theorem Call.stopDeadline_of_stopped {c : Call T} (h : c.deadlineStopped = true) :
    c.stopDeadline.deadlineStopped = true := by
  unfold stopDeadline
  split
  · rfl
  · exact h

theorem Step.beginning (h : Step w ev w') : Beginning w w' ev := by
  replace h := h.change
  cases h with
  | advance h => exact .advanced h
  | leave => exact .kept nofun rfl Call.stopDeadline_of_stopped
  | settle h hc => cases hc <;> exact .kept nofun rfl id
  | _ => exact .kept nofun rfl id

/-- A poll that has been taken stays so. -/
theorem Beginning.pollTaken (h : Beginning w w' ev) (ht : w.call.opening.pollTaken = true) :
    w'.call.opening.pollTaken = true := by
  cases h with
  | kept hev ho => rw [ho, ht]
  | advanced h =>
    generalize w'.call = c' at h
    cases h with
    | pollKept => rfl
    | stay => exact ht
    | noDeadline ho | deadlineRefused ho | deadlineSet ho | deadlineKept ho | pollRefused ho
    | refused ho => rw [ho] at ht; cases ht
    | pollSet => rfl

/-! ## The deadline -/

/-- Whether an event is a step of the deadline other than a notice. -/
def Event.ofDeadline : Event T → Bool
  | .expired _ | .pollStopped | .deadlineEnded | .deadlineDropped => true
  | _ => false

inductive Deadline.Moves : Deadline T → Event T → Deadline T → Prop
  | rest {d : Deadline T} {ev : Event T} (h : ev.ofDeadline = false) : Moves d ev d
  | set : Moves .unset .advanced .waiting
  | expired (es : List (Entry T)) (ds : List (Delivery T)) :
      Moves .waiting (.expired es) (.drained ds)
  | pollStopped (ds : List (Delivery T)) : Moves (.drained ds) .pollStopped (.telling ds)
  | noticed (d : Delivery T) (ds : List (Delivery T)) :
      Moves (.telling (d :: ds)) (.noticed d) (.telling ds)
  | ended : Moves (.telling []) .deadlineEnded .over
  | dropped : Moves .waiting .deadlineDropped .cancelled

theorem Step.deadline_moves (h : Step w ev w') (hw : Orderly timed w) :
    w.call.deadline.Moves ev w'.call.deadline := by
  replace h := h.change
  cases h with
  | @advance c c' s h =>
    have hunset : c.opening = .fresh → c.deadline = .unset := hw.deadline_unset
    cases h with
    | deadlineSet ho =>
      show c.deadline.Moves _ .waiting
      rw [hunset ho]
      exact .set
    | refused =>
      rw [Call.stopDeadline_eq]
      exact .rest rfl
    | _ => exact .rest rfl
  | @expire c s h =>
    show c.deadline.Moves _ _
    rw [h]
    exact .expired _ _
  | @stopPoll c s ds h =>
    show c.deadline.Moves _ _
    rw [h]
    exact .pollStopped ds
  | @payTimeout c s d ds h =>
    show c.deadline.Moves _ _
    rw [h]
    exact .noticed d ds
  | @endDeadline c s h =>
    show c.deadline.Moves _ _
    rw [h]
    exact .ended
  | @dropDeadline c s h =>
    show c.deadline.Moves _ _
    rw [h]
    exact .dropped
  | settle h hc => cases hc <;> exact .rest rfl
  | _ => exact .rest rfl

namespace Deadline.Moves

variable {d d' : Deadline T}

/-- A deadline that has come stays so. -/
theorem fired (h : d.Moves ev d') (hd : d.fired = true ∨ ∃ es, ev = .expired es) :
    d'.fired = true := by
  cases h with
  | rest hev =>
    rcases hd with hd | ⟨es, rfl⟩
    · exact hd
    · cases hev
  | expired | pollStopped | noticed | ended => rfl
  | set | dropped =>
    rcases hd with hd | ⟨es, hes⟩
    · cases hd
    · cases hes

/-- A deadline that has been dropped stays so. -/
theorem cancelled (h : d.Moves ev d') (hd : d = .cancelled ∨ ev = .deadlineDropped) :
    d' = .cancelled := by
  cases h with
  | rest hev =>
    rcases hd with hd | rfl
    · exact hd
    · cases hev
  | dropped => rfl
  | _ =>
    rcases hd with hd | hd
    · cases hd
    · cases hd

/-- Only the beginning sets a deadline. -/
theorem ne_unset (h : d.Moves ev d') (hev : ev ≠ .advanced) (hd : d' ≠ .unset) : d ≠ .unset := by
  cases h with
  | rest => exact hd
  | set => exact absurd rfl hev
  | _ => nofun

end Deadline.Moves

/-- A call that has been refused has told its deadline to stop. -/
def RolledBack (w : Scene T) : Prop :=
  w.call.opening = .refused → w.call.deadline ≠ .unset → w.call.deadlineStopped = true

theorem RolledBack.step (hr : RolledBack w) (hw : Orderly timed w) (h : Step w ev w') :
    RolledBack w' := by
  intro hrefused hset
  have hmoves := h.deadline_moves hw
  cases h.beginning with
  | kept hev ho hs => exact hs (hr (ho ▸ hrefused) (hmoves.ne_unset hev hset))
  | advanced hadv =>
    generalize w'.call = c' at hadv hrefused hset
    cases hadv with
    | deadlineRefused ho => exact absurd (hw.deadline_unset ho) hset
    | refused ho =>
      -- A deadline that is set can be reached here, for the call is past keeping it.
      have hset' : w.call.deadline ≠ .unset := by
        rw [Call.stopDeadline_eq] at hset
        exact hset
      have hd : w.call.hasDeadline = true := hw.has_deadline.trans (hw.deadline_given hset')
      have hne : w.call.opening ≠ .fresh ∧ w.call.opening ≠ .deadlineSet := by simp [ho]
      show w.call.stopDeadline.deadlineStopped = true
      rw [Call.stopDeadline, if_pos ⟨hd, hne⟩]
    | stay => exact hr hrefused hset
    | _ => cases hrefused

/-! ## Courses -/

section Courses

variable {es : List (Entry T)} {s : Standing}

theorem Course.rolledBack (h : Course Step ⟨.prepare es timed, s⟩ evs w) : RolledBack w := by
  induction h with
  | refl => intro hrefused; cases hrefused
  | tail prior next ih => exact ih.step prior.orderly next

/-- A deadline that has come has fired, and one that has been dropped is cancelled, whatever
follows. -/
theorem Course.deadline_after (h : Course Step ⟨.prepare es timed, s⟩ evs w) :
    (∀ active, .expired active ∈ evs → w.call.deadline.fired = true) ∧
    (.deadlineDropped ∈ evs → w.call.deadline = .cancelled) := by
  induction h with
  | refl =>
    constructor
    · intro active hmem
      cases hmem
    · intro hmem
      cases hmem
  | tail prior next ih =>
    have hmoves := next.deadline_moves prior.orderly
    constructor
    · intro active hmem
      rcases List.mem_append.mp hmem with hmem | hmem
      · exact hmoves.fired (Or.inl (ih.1 active hmem))
      · exact hmoves.fired (Or.inr ⟨active, (List.mem_singleton.mp hmem).symm⟩)
    · intro hmem
      rcases List.mem_append.mp hmem with hmem | hmem
      · exact hmoves.cancelled (Or.inl (ih.2 hmem))
      · exact hmoves.cancelled (Or.inr (List.mem_singleton.mp hmem).symm)

/-- A call without a deadline does not see one come. -/
theorem Course.timed_of_expired (h : Course Step ⟨.prepare es timed, s⟩ evs w)
    {active : List (Entry T)} (hmem : .expired active ∈ evs) : timed = true := by
  have hfired := h.deadline_after.1 active hmem
  apply h.orderly.deadline_given
  intro hunset
  rw [hunset] at hfired
  cases hfired

/-- A scheduler that is closed has been closed by someone. -/
theorem Step.closing_of_ne_running (h : Step w ev w') (hs : w'.standing ≠ .running) :
    w.standing ≠ .running ∨ ev = .closing := by
  cases h with
  | close => exact Or.inr rfl
  | shutDown | dropCallback => exact Or.inl nofun
  | _ => exact Or.inl hs

theorem Course.closing_of_ne_running {w₀ : Scene T} (h : Course Step w₀ evs w)
    (hs : w.standing ≠ .running) : w₀.standing ≠ .running ∨ .closing ∈ evs :=
  h.held_or_mem (P := fun w => w.standing ≠ .running) Step.closing_of_ne_running hs

end Courses

/-! ## Calls without a poll -/

/-- Whether an event is a step of the poll other than a notice. -/
def Event.ofPoll : Event T → Bool
  | .began _ | .asked _ | .answered _ _ | .settled _ _ _ | .roundEnded | .left
  | .pollDropped => true
  | _ => false

theorem Step.ofPoll_eq_false (h : Step w ev w') (hp : w.call.poll = .unset) :
    ev.ofPoll = false := by
  cases h with
  | beginRound h | ask h | endRound h | leave h | answer r h | settle h =>
    exact nomatch hp.symm.trans h
  | dropPoll h =>
    have hp : (⟨_, _⟩ : Scene T).call.poll = .unset := hp
    rw [hp] at h
    cases h
  | _ => rfl

/-- Until the scheduler has taken its poll, a call takes no step of it. -/
theorem Course.ofPoll_eq_false {es : List (Entry T)} {s : Standing}
    (h : Course Step ⟨.prepare es timed, s⟩ evs w) (hp : w.call.opening.pollTaken = false) :
    ∀ ev ∈ evs, ev.ofPoll = false := by
  induction h with
  | refl => nofun
  | @tail evs w₁ w₂ ev prior next ih =>
    -- A poll that had been taken would be so still.
    have hp₁ : w₁.call.opening.pollTaken = false := by
      by_contra hnot
      have htaken := next.beginning.pollTaken (Bool.not_eq_false _ ▸ hnot)
      exact nomatch hp.symm.trans htaken
    intro ev' hmem
    rcases List.mem_append.mp hmem with hmem | hmem
    · exact ih hp₁ ev' hmem
    · rw [List.mem_singleton.mp hmem]
      exact next.ofPoll_eq_false (prior.orderly.poll_unset hp₁)

/-- Without a reading, a call ends no object but by its deadline, in the form that came with the
call. -/
theorem Course.timedOut_of_ofPoll [Watchable T] {targets : List T} {s : Standing}
    (h : Course Step ⟨.prepare (Call.collect targets) timed, s⟩ evs w)
    (hquiet : ∀ ev ∈ evs, ev.ofPoll = false) {d : Delivery T} (hd : d ∈ w.call.published) :
    d.outcome = .timeout ∧ ⟨d.key, d.target⟩ ∈ Call.collect targets ∧
      ∃ active, .expired active ∈ evs := by
  have hread : ∀ k, readingsOf k evs = [] := by
    apply readingsOf_eq_nil
    intro e r hmem
    cases hquiet _ hmem
  have hends : ∀ v, ¬ EndsWith d.key d.target v evs := by
    rintro v ⟨past, hpast, -⟩
    rw [hread] at hpast
    simp at hpast
  have hdes := h.faithful.deserved d (List.mem_append_right _ hd)
  unfold Deserved at hdes
  cases ho : d.outcome with
  | completed =>
    rw [ho] at hdes
    exact absurd hdes (hends _)
  | failed =>
    rw [ho] at hdes
    exact absurd hdes (hends _)
  | timeout =>
    rw [ho] at hdes
    obtain ⟨before, active, after, rfl, -, hheld⟩ := hdes
    -- Nothing was stored for the object either, so it is held as it came.
    have hstored : before.filterMap (Event.stores? d.key) = [] := by
      rw [List.filterMap_eq_nil_iff]
      intro ev hev
      have hev := hquiet ev (List.mem_append_left _ hev)
      cases ev with
      | settled => cases hev
      | _ => rfl
    rw [heldAfter, hstored] at hheld
    exact ⟨rfl, Call.mem_collect.mpr hheld, active, List.mem_append_right _ List.mem_cons_self⟩

/-! ## Calls that meet a closed scheduler at once -/

/-- A call to a scheduler that takes no more jobs, which has taken none from this call. -/
structure Stillborn (w : Scene T) : Prop where
  closed : w.standing ≠ .running
  opening : w.call.opening.pollTaken = false ∧ w.call.opening ≠ .deadlineSet
  poll : w.call.poll = .unset
  deadline : w.call.deadline = .unset
  pending : w.call.pending = []

theorem Stillborn.prepare {s : Standing} (hs : s ≠ .running) (es : List (Entry T)) (timed : Bool) :
    Stillborn ⟨.prepare es timed, s⟩ :=
  ⟨hs, ⟨rfl, nofun⟩, rfl, rfl, rfl⟩

theorem Stillborn.advance {c c' : Call T} {s : Standing} (hc : Stillborn ⟨c, s⟩)
    (h : c.Advance (s != .running) c') : Stillborn ⟨c', s⟩ := by
  have hclosed : ¬ (s != .running) = false := by simpa using hc.closed
  cases h with
  | noDeadline | deadlineRefused | pollRefused => exact { hc with opening := ⟨rfl, nofun⟩ }
  | deadlineSet _ _ hopen | pollSet _ hopen => exact absurd hopen hclosed
  | deadlineKept ho => exact absurd ho hc.opening.2
  | pollKept ho =>
    have htaken := hc.opening.1
    rw [show c.opening = .pollSet from ho] at htaken
    cases htaken
  | refused =>
    rw [Call.stopDeadline_eq]
    exact { hc with opening := ⟨rfl, nofun⟩ }
  | stay => exact hc

/-- A closed scheduler lets such a call do nothing but come to its refusal. -/
theorem Step.stillborn (h : Step w ev w') (hc : Stillborn w) :
    Stillborn w' ∧ ((ev = .advanced ∨ ev = .arranged) ∧ w'.standing = w.standing ∨
      ev = .shutDown ∧ w.standing = .refusing ∧ w'.standing = .down) := by
  have hpoll := hc.poll
  have hdeadline := hc.deadline
  have hpending := hc.pending
  cases h with
  | advance =>
    exact ⟨hc.advance (Call.advance_advanceOpening _ _), Or.inl ⟨Or.inl rfl, rfl⟩⟩
  | arrange => exact ⟨{ hc with }, Or.inl ⟨Or.inr rfl, rfl⟩⟩
  | shutDown => exact ⟨{ hc with closed := nofun }, Or.inr ⟨rfl, rfl, rfl⟩⟩
  | close => exact absurd rfl hc.closed
  | beginRound h | ask h | endRound h | leave h | answer r h | settle h | pay h =>
    exact nomatch hpoll.symm.trans h
  | dropPoll h =>
    dsimp only at hpoll
    rw [hpoll] at h
    cases h
  | expire h | stopPoll h | payTimeout h | endDeadline h | dropDeadline h =>
    exact nomatch hdeadline.symm.trans h
  | deliver i h | dropCallback i h =>
    dsimp only at hpending
    rw [hpending] at h
    cases h

theorem Course.stillborn {w₀ : Scene T} (hc : Stillborn w₀) (h : Course Step w₀ evs w) :
    Stillborn w :=
  h.invariant (P := fun _ w => Stillborn w) hc fun hc next => (next.stillborn hc).1

/-! ## Rejected calls -/

section Accepted

variable [Watchable T] {targets : List T} {maxWait : Option Nat} {s : Standing} {e : Error}
  {left : Option (Scene T)}

/-- A call that ends in an error, with all that happens in it, before it returns and after, and with
what is left of it: a call whose arguments are bad never comes to be. -/
inductive Rejected (targets : List T) (maxWait : Option Nat) (s : Standing) :
    Error → List (Event T) → Option (Scene T) → Prop
  | arguments {e : Error} (h : Service.accept targets maxWait = .error e) :
      Rejected targets maxWait s e [] none
  | scheduler {active : List (Entry T)} {evs : List (Event T)} {w : Scene T}
      (ha : Service.accept targets maxWait = .ok active)
      (h : Course Step ⟨.prepare active maxWait.isSome, s⟩ evs w)
      (ho : w.call.opening = .refused) : Rejected targets maxWait s .closed evs (some w)

/-- **What comes of a rejected call.**  Whenever the scheduler is closed and whenever the deadline
comes: a call is rejected for its arguments, and then nothing happens, or because somebody closes
the scheduler.  No object is read and no round begins.  Each notice says that time was up, for an
object as it came with the call, and each callback has its notice.  There is none unless the
deadline came: not for a call without one, not on a scheduler that had been closed before, and not
once the deadline has been dropped, which it can be when the call is refused before it comes. -/
theorem Rejected.effects (h : Rejected targets maxWait s e evs left) :
    (Service.accept targets maxWait = .error e ∧ evs = [] ∧ left = none ∨
      e = .closed ∧ (s ≠ .running ∨ .closing ∈ evs)) ∧
    (∀ ev ∈ evs, ev.ofPoll = false) ∧
    ∀ w ∈ left,
      (∀ d ∈ w.call.delivered, d ∈ w.call.published) ∧
      (∀ d ∈ w.call.published, d.outcome = .timeout ∧ ⟨d.key, d.target⟩ ∈ Call.collect targets) ∧
      (w.call.published ≠ [] → maxWait ≠ none ∧ s = .running ∧ .deadlineDropped ∉ evs ∧
        ∃ active, .expired active ∈ evs) ∧
      (w.call.deadline = .waiting → ∃ w', Step w .deadlineDropped w') := by
  cases h with
  | arguments h =>
    refine ⟨Or.inl ⟨h, rfl, rfl⟩, fun ev hev => absurd hev List.not_mem_nil, ?_⟩
    intro w hw
    cases hw
  | @scheduler active evs w ha h ho =>
    obtain ⟨-, -, rfl⟩ := Service.accept_eq_ok_iff.mp ha
    have hw := h.orderly
    have hclosed : w.standing ≠ .running := hw.refused_closed (by rw [ho]; rfl)
    have hquiet := h.ofPoll_eq_false (by rw [ho]; rfl)
    refine ⟨Or.inr ⟨rfl, h.closing_of_ne_running hclosed⟩, hquiet, ?_⟩
    rintro w' hw'
    obtain rfl := Option.some.inj hw'
    refine ⟨h.callbacksKept.delivered_subset, ?_, ?_, ?_⟩
    · intro d hd
      obtain ⟨htimeout, hmem, -⟩ := h.timedOut_of_ofPoll hquiet hd
      exact ⟨htimeout, hmem⟩
    · intro hne
      obtain ⟨d, hd⟩ := List.exists_mem_of_ne_nil _ hne
      obtain ⟨-, -, active, hexp⟩ := h.timedOut_of_ofPoll hquiet hd
      have hfired := h.deadline_after.1 active hexp
      refine ⟨?_, ?_, ?_, active, hexp⟩
      · intro hnone
        rw [hnone] at h
        exact Bool.false_ne_true (h.timed_of_expired hexp)
      · by_contra hs
        have hunset := (h.stillborn (.prepare hs _ _)).deadline
        rw [hunset] at hfired
        cases hfired
      · intro hdropped
        rw [h.deadline_after.2 hdropped] at hfired
        cases hfired
    · intro hwaiting
      have hstopped := h.rolledBack ho (by rw [hwaiting]; nofun)
      exact ⟨_, .dropDeadline hwaiting (Or.inl hstopped)⟩

end Accepted

/-- The scheduler is closed between the deadline and the poll of a call, and the deadline is
dropped. -/
theorem nothing_of_a_call_rolled_back :
    ∃ evs w, Rejected twins (some 5) .running .closed evs (some w) ∧
      .deadlineDropped ∈ evs ∧ w.call.published = [] := by
  have h : Course Step ⟨.prepare (Call.collect twins) true, .running⟩ [] _ := .refl
  have h := ((h.tail .advance).tail .advance).tail .close
  have h := ((h.tail .advance).tail .advance).tail (.dropDeadline rfl (Or.inl rfl))
  have ha : Service.accept twins (some 5) = .ok (Call.collect twins) := rfl
  have hr : Rejected twins (some 5) .running .closed _ (some _) := .scheduler ha h rfl
  refine ⟨_, _, hr, List.mem_append_right _ (List.mem_singleton.mpr rfl), ?_⟩
  by_contra hne
  exact ((hr.effects.2.2 _ rfl).2.2.1 hne).2.2.1
    (List.mem_append_right _ (List.mem_singleton.mpr rfl))

/-- **A refused call has given notices.**  Its deadline comes before it has its poll, one callback
runs, and the scheduler is closed then; the other notice is given after the call has returned. -/
theorem notices_of_a_refused_call :
    ∃ before after w₁ w, Course Step ⟨.prepare (Call.collect twins) true, .running⟩ before w₁ ∧
      w₁.call.opening = .refused ∧ w₁.call.delivered.map Delivery.key = ["a"] ∧
      Course Step w₁ after w ∧ w.call.published.map Delivery.key = ["a", "b"] ∧
      Rejected twins (some 5) .running .closed (before ++ after) (some w) := by
  have h : Course Step ⟨.prepare (Call.collect twins) true, .running⟩ [] _ := .refl
  have h := (((h.tail .advance).tail (.expire rfl)).tail (.stopPoll rfl)).tail (.payTimeout rfl)
  have h := ((h.tail (.deliver 0 rfl)).tail .advance).tail .close
  have h := (h.tail .advance).tail .advance
  refine ⟨_, _, _, _, h, rfl, rfl, Course.refl.tail (.payTimeout rfl), rfl, ?_⟩
  exact .scheduler rfl (h.tail (.payTimeout rfl)) rfl

end TaskWatch.Monitor
