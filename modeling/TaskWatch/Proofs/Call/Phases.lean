import TaskWatch.Proofs.Call.Course

/-!
# Phases of a call

How far the beginning, the poll and the deadline of a call have come is tied together, whatever
order their steps are taken in.

* `Orderly`: these ties.
* `Step.orderly`, `Course.orderly`: every step keeps them, so they hold all along.
* `Orderly.active_eq_nil`: a poll that has ended on a scheduler that runs has left nothing active.
-/

namespace TaskWatch.Monitor

variable {T : Type} {timed : Bool}

def Deadline.fired : Deadline T → Bool
  | .drained _ | .telling _ | .over => true
  | _ => false

/-- Whether a poll has seen that no object is active. -/
def Poll.hasLeft : Poll T → Bool
  | .leaving | .over => true
  | _ => false

/-- Whether the beginning of a call has come as far as its poll. -/
def Opening.pollTaken : Opening → Bool
  | .pollSet | .begun => true
  | _ => false

/-- Whether the beginning of a call has met a scheduler that takes no more jobs. -/
def Opening.isRefusal : Opening → Bool
  | .refusing | .refused => true
  | _ => false

/-- Ties between the parts of a call that has been given a deadline or not, as `timed` says. -/
structure Orderly (timed : Bool) (w : Scene T) : Prop where
  has_deadline : w.call.hasDeadline = timed
  refused_closed : w.call.opening.isRefusal = true → w.standing ≠ .running
  deadline_unset : w.call.opening = .fresh → w.call.deadline = .unset
  deadline_given : w.call.deadline ≠ .unset → timed = true
  poll_unset : w.call.opening.pollTaken = false → w.call.poll = .unset
  active_fired : w.call.deadline.fired = true → w.call.active = []
  active_left : w.call.poll.hasLeft = true → w.call.active = []
  /-- Only a deadline that has come tells the poll to stop. -/
  poll_stopped : w.call.pollStopped = true → w.call.deadline.fired = true
  poll_cancelled : w.call.poll = .cancelled → w.call.pollStopped = true ∨ w.standing = .down

theorem Orderly.prepare (es : List (Entry T)) (timed : Bool) (s : Standing) :
    Orderly timed ⟨.prepare es timed, s⟩ where
  has_deadline := rfl
  refused_closed h := nomatch h
  deadline_unset _ := rfl
  deadline_given h := absurd rfl h
  poll_unset _ := rfl
  active_fired h := nomatch h
  active_left h := nomatch h
  poll_stopped h := nomatch h
  poll_cancelled h := nomatch h

/-- A step of the beginning touches the poll and the deadline only where they are not set. -/
theorem Orderly.advance {c c' : Call T} {s : Standing} (hw : Orderly timed ⟨c, s⟩)
    (h : c.Advance (s != .running) c') : Orderly timed ⟨c', s⟩ := by
  have hpoll : c.opening.pollTaken = false → c.poll = .unset := hw.poll_unset
  cases h with
  | noDeadline ho =>
    exact { hw with
      refused_closed := nofun, deadline_unset := nofun, poll_unset := fun _ => hpoll (ho ▸ rfl) }
  | deadlineRefused ho hd hc | pollRefused ho hc =>
    exact { hw with
      refused_closed := fun _ => bne_iff_ne.mp hc
      deadline_unset := nofun, poll_unset := fun _ => hpoll (ho ▸ rfl) }
  | deadlineSet ho hd =>
    have hs : c.pollStopped ≠ true := fun h =>
      nomatch (congrArg Deadline.fired (hw.deadline_unset ho)).symm.trans (hw.poll_stopped h)
    exact { hw with
      refused_closed := nofun
      deadline_unset := nofun, deadline_given := fun _ => hw.has_deadline.symm.trans hd
      poll_unset := fun _ => hpoll (ho ▸ rfl)
      active_fired := nofun, poll_stopped := fun h => absurd h hs }
  | deadlineKept ho =>
    exact { hw with
      refused_closed := nofun, deadline_unset := nofun, poll_unset := fun _ => hpoll (ho ▸ rfl) }
  | pollSet =>
    exact { hw with
      refused_closed := nofun, deadline_unset := nofun, poll_unset := nofun, active_left := nofun
      poll_cancelled := nofun }
  | pollKept =>
    exact { hw with refused_closed := nofun, deadline_unset := nofun, poll_unset := nofun }
  | refused ho =>
    rw [Call.stopDeadline_eq]
    exact { hw with
      refused_closed := fun _ => hw.refused_closed (ho ▸ rfl)
      deadline_unset := nofun, poll_unset := fun _ => hpoll (ho ▸ rfl) }
  | stay => exact hw

/-! ## All steps -/

variable {w w' : Scene T} {ev : Event T}

theorem Orderly.setPoll {c : Call T} {s : Standing} {p : Poll T} (hw : Orderly timed ⟨c, s⟩)
    (hset : c.poll ≠ .unset) (hleft : p.hasLeft = true → c.active = [])
    (hc : p = .cancelled → c.pollStopped = true ∨ s = .down) :
    Orderly timed ⟨{ c with poll := p }, s⟩ :=
  { hw with
    poll_unset := fun ho => absurd (hw.poll_unset ho) hset
    active_left := hleft
    poll_cancelled := hc }

theorem Orderly.setDeadline {c : Call T} {s : Standing} {d : Deadline T} (hw : Orderly timed ⟨c, s⟩)
    (hset : c.deadline ≠ .unset) (hfired : d.fired = c.deadline.fired) :
    Orderly timed ⟨{ c with deadline := d }, s⟩ :=
  { hw with
    deadline_unset := fun ho => absurd (hw.deadline_unset ho) hset
    deadline_given := fun _ => hw.deadline_given hset
    active_fired := fun h => hw.active_fired (hfired.symm.trans h)
    poll_stopped := fun h => hfired.trans (hw.poll_stopped h) }

theorem Orderly.close {c : Call T} (hw : Orderly timed ⟨c, .running⟩) :
    Orderly timed ⟨c, .refusing⟩ :=
  { hw with
    refused_closed := nofun
    poll_cancelled := fun hp => (hw.poll_cancelled hp).imp_right nofun }

theorem Orderly.shutDown {c : Call T} (hw : Orderly timed ⟨c, .refusing⟩) :
    Orderly timed ⟨c, .down⟩ :=
  { hw with
    refused_closed := nofun
    poll_cancelled := fun _ => Or.inr rfl }

theorem Orderly.settle {c : Call T} {s : Standing} {e : Entry T} {reading : Option (T × Verdict)}
    {rest : List (Entry T)} (hw : Orderly timed ⟨c, s⟩) (h : c.poll = .answered e reading rest) :
    Orderly timed ⟨c.settle, s⟩ := by
  have hset : c.poll ≠ .unset := by simp [h]
  have hs := Call.settle_settle h
  generalize c.settle = c' at hs
  cases hs with
  | failed => exact hw.setPoll hset nofun nofun
  | unfinished t =>
    refine { hw.setPoll (p := .between rest) hset nofun nofun with
      active_fired := fun hd => ?_, active_left := nofun }
    simp [show c.active = [] from hw.active_fired hd, Call.refreshKey]
  | taken t v o hv ha =>
    refine { hw.setPoll (p := .owing ⟨e.key, t, o⟩ rest) hset nofun nofun with
      active_fired := fun hd => ?_, active_left := nofun }
    simp [show c.active = [] from hw.active_fired hd, Call.removeKey]
  | gone t v o hv ha => exact hw.setPoll hset nofun nofun

theorem Step.orderly (h : Step w ev w') (hw : Orderly timed w) : Orderly timed w' := by
  cases h with
  | advance => exact hw.advance (Call.advance_advanceOpening _ _)
  | arrange hp =>
    exact { hw with
      active_fired := fun hd => List.perm_nil.mp (hw.active_fired hd ▸ hp)
      active_left := fun hl => List.perm_nil.mp (hw.active_left hl ▸ hp) }
  | beginRound h =>
    rw [Call.beginRound_of_idle h]
    exact hw.setPoll (by simp [h]) nofun nofun
  | ask h =>
    rw [Call.proceed_of_cons h]
    exact hw.setPoll (by simp [h]) nofun nofun
  | @endRound c s h =>
    rw [Call.proceed_of_nil h]
    refine hw.setPoll (by simp [h]) (fun hl => ?_) (by split <;> nofun)
    by_cases he : c.active.isEmpty = true
    · exact List.isEmpty_iff.mp he
    · simp [he, Poll.hasLeft] at hl
  | leave h =>
    rw [Call.leave_of_leaving h, Call.stopDeadline_eq]
    have ha := hw.active_left (by simp [h, Poll.hasLeft])
    exact { hw.setPoll (p := .over) (by simp [h]) (fun _ => ha) nofun with }
  | answer reading h =>
    rw [Call.answer_of_reading reading h]
    exact hw.setPoll (by simp [h]) nofun nofun
  | settle h => exact hw.settle h
  | pay h =>
    rw [Call.pay_of_owing h]
    exact { hw.setPoll (p := .between _) (by simp [h]) nofun nofun with }
  | expire h =>
    rw [Call.expire_of_waiting h]
    exact { hw with
      deadline_unset := fun ho => by simpa [h] using hw.deadline_unset ho
      deadline_given := fun _ => hw.deadline_given (by simp [h])
      active_fired := fun _ => rfl
      active_left := fun _ => rfl
      poll_stopped := fun _ => rfl }
  | @stopPoll c s ds h =>
    rw [Call.stopPoll_of_drained h]
    have ha := hw.active_fired (by simp [h, Deadline.fired])
    exact { hw with
      deadline_unset := fun ho => by simpa [h] using hw.deadline_unset ho
      deadline_given := fun _ => hw.deadline_given (by simp [h])
      active_fired := fun _ => ha
      poll_stopped := fun _ => rfl
      poll_cancelled := fun hp => (hw.poll_cancelled hp).imp_left fun hs => by
        have hs : c.pollStopped = true := hs
        simp [hs] }
  | payTimeout h =>
    rw [Call.payTimeout_of_cons h]
    exact { hw.setDeadline (d := .telling _) (by simp [h]) (by simp [h, Deadline.fired]) with }
  | endDeadline h =>
    rw [Call.payTimeout_of_nil h]
    exact hw.setDeadline (by simp [h]) (by simp [h, Deadline.fired])
  | deliver i h =>
    rw [Call.deliver_of_pending h]
    exact { hw with }
  | dropCallback i h => exact { hw with }
  | dropPoll h hs =>
    rw [Call.dropPoll_of_waits h]
    exact hw.setPoll (fun hp => by simp [hp, Poll.waits] at h) nofun (fun _ => hs)
  | dropDeadline h hs =>
    rw [Call.dropDeadline_of_waiting h]
    exact hw.setDeadline (by simp [h]) (by simp [h, Deadline.fired])
  | close => exact hw.close
  | shutDown => exact hw.shutDown

theorem Orderly.untimed (hw : Orderly false w) : w.call.deadline = .unset := by
  by_contra hset
  exact Bool.false_ne_true (hw.deadline_given hset)

/-- A poll that has been set has been taken by the scheduler. -/
theorem Orderly.pollTaken (hw : Orderly timed w) (h : w.call.poll ≠ .unset) :
    w.call.opening.pollTaken = true := by
  by_contra hnot
  exact h (hw.poll_unset (Bool.eq_false_iff.mpr hnot))

theorem Course.orderly {es : List (Entry T)} {s : Standing} {evs : List (Event T)}
    (h : Course Step ⟨.prepare es timed, s⟩ evs w) : Orderly timed w :=
  h.invariant (P := fun _ w => Orderly timed w) (.prepare es timed s) fun hw h => h.orderly hw

/-- A poll that has ended on a scheduler that is not down has left nothing active. -/
theorem Orderly.active_eq_nil (hw : Orderly timed w) (hs : w.standing ≠ .down)
    (hp : w.call.poll = .over ∨ w.call.poll = .cancelled) : w.call.active = [] := by
  rcases hp with hp | hp
  · exact hw.active_left (by simp [hp, Poll.hasLeft])
  · have hstop := (hw.poll_cancelled hp).resolve_right hs
    exact hw.active_fired (hw.poll_stopped hstop)

end TaskWatch.Monitor
