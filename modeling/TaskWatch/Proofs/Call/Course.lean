import Mathlib.Data.List.Induction
import TaskWatch.Monitor.Call

/-!
# The course of a call

The steps of a call are taken one at a time: those of its beginning, of its poll and of its deadline
in any order, with callbacks run in between and the scheduler closed at any moment.

* `Step`: the steps that a call can take, each with what happens in it.  Every one is a function of
  `Call`, taken where that function applies.
* `Change`: the same steps, each with the parts of the call that it changes.
* `Course`: steps in a row, with all that happened.
* `Course.trans`, `Course.split`: courses are put together and cut at any place.
* `Course.invariant`: what holds at first and is kept by each step holds all along.
-/

namespace TaskWatch.Monitor

variable {T : Type}

/-! ## Scenes and events -/

inductive Standing where
  | running
  /-- Takes no more jobs. -/
  | refusing
  /-- Has told everyone that it is closed.  Jobs that wait and callbacks may be dropped. -/
  | down
deriving DecidableEq, Repr

/-- A call with the scheduler that runs it. -/
structure Scene (T : Type) where
  call : Call T
  standing : Standing

inductive Event (T : Type) where
  /-- The beginning of the call has come further. -/
  | advanced
  /-- The active objects stand in another order. -/
  | arranged
  /-- A round begins with the objects that are active. -/
  | began (active : List (Entry T))
  | asked (e : Entry T)
  | answered (e : Entry T) (reading : Option (T × Verdict))
  /-- A reading has been acted on; `live` says that its object was still active. -/
  | settled (e : Entry T) (reading : Option (T × Verdict)) (live : Bool)
  | roundEnded
  /-- The poll has ended by itself. -/
  | left
  | noticed (d : Delivery T)
  /-- The deadline has taken out all objects that were active. -/
  | expired (active : List (Entry T))
  /-- The deadline has told the poll to stop. -/
  | pollStopped
  | deadlineEnded
  | delivered (d : Delivery T)
  | callbackDropped (d : Delivery T)
  | pollDropped
  | deadlineDropped
  | closing
  | shutDown

/-- Whether a poll waits, for its next round or for a reading.  It can be dropped only then. -/
def Poll.waits : Poll T → Bool
  | .idle | .reading _ _ => true
  | _ => false

theorem Call.dropPoll_of_waits {c : Call T} (h : c.poll.waits = true) :
    c.dropPoll = { c with poll := .cancelled } := by
  unfold Call.dropPoll
  cases hp : c.poll <;> simp_all [Poll.waits]

/-- Puts the active objects in another order; they have none of their own. -/
def Call.arrange (es : List (Entry T)) (c : Call T) : Call T := { c with active := es }

/-! ## Steps -/

inductive Step : Scene T → Event T → Scene T → Prop
  | advance {c : Call T} {s : Standing} :
      Step ⟨c, s⟩ .advanced ⟨c.advanceOpening (s != .running), s⟩
  | arrange {c : Call T} {s : Standing} {es : List (Entry T)} (h : es.Perm c.active) :
      Step ⟨c, s⟩ .arranged ⟨c.arrange es, s⟩
  | beginRound {c : Call T} {s : Standing} (h : c.poll = .idle) :
      Step ⟨c, s⟩ (.began c.active) ⟨c.beginRound, s⟩
  | ask {c : Call T} {s : Standing} {e : Entry T} {rest : List (Entry T)}
      (h : c.poll = .between (e :: rest)) : Step ⟨c, s⟩ (.asked e) ⟨c.proceed, s⟩
  | endRound {c : Call T} {s : Standing} (h : c.poll = .between []) :
      Step ⟨c, s⟩ .roundEnded ⟨c.proceed, s⟩
  | leave {c : Call T} {s : Standing} (h : c.poll = .leaving) : Step ⟨c, s⟩ .left ⟨c.leave, s⟩
  /-- Any answer is possible. -/
  | answer {c : Call T} {s : Standing} {e : Entry T} {rest : List (Entry T)}
      (reading : Option (T × Verdict)) (h : c.poll = .reading e rest) :
      Step ⟨c, s⟩ (.answered e reading) ⟨c.answer reading, s⟩
  | settle {c : Call T} {s : Standing} {e : Entry T} {reading : Option (T × Verdict)}
      {rest : List (Entry T)} (h : c.poll = .answered e reading rest) :
      Step ⟨c, s⟩ (.settled e reading (c.isActive e.key)) ⟨c.settle, s⟩
  | pay {c : Call T} {s : Standing} {d : Delivery T} {rest : List (Entry T)}
      (h : c.poll = .owing d rest) : Step ⟨c, s⟩ (.noticed d) ⟨c.pay, s⟩
  | expire {c : Call T} {s : Standing} (h : c.deadline = .waiting) :
      Step ⟨c, s⟩ (.expired c.active) ⟨c.expire, s⟩
  | stopPoll {c : Call T} {s : Standing} {ds : List (Delivery T)} (h : c.deadline = .drained ds) :
      Step ⟨c, s⟩ .pollStopped ⟨c.stopPoll, s⟩
  | payTimeout {c : Call T} {s : Standing} {d : Delivery T} {ds : List (Delivery T)}
      (h : c.deadline = .telling (d :: ds)) : Step ⟨c, s⟩ (.noticed d) ⟨c.payTimeout, s⟩
  | endDeadline {c : Call T} {s : Standing} (h : c.deadline = .telling []) :
      Step ⟨c, s⟩ .deadlineEnded ⟨c.payTimeout, s⟩
  /-- Callbacks run in any order. -/
  | deliver {c : Call T} {s : Standing} {d : Delivery T} (i : Nat) (h : c.pending[i]? = some d) :
      Step ⟨c, s⟩ (.delivered d) ⟨c.deliver i, s⟩
  | dropCallback {c : Call T} {d : Delivery T} (i : Nat) (h : c.pending[i]? = some d) :
      Step ⟨c, .down⟩ (.callbackDropped d) ⟨c.dropCallback i, .down⟩
  | dropPoll {c : Call T} {s : Standing} (h : c.poll.waits = true)
      (hs : c.pollStopped = true ∨ s = .down) : Step ⟨c, s⟩ .pollDropped ⟨c.dropPoll, s⟩
  | dropDeadline {c : Call T} {s : Standing} (h : c.deadline = .waiting)
      (hs : c.deadlineStopped = true ∨ s = .down) :
      Step ⟨c, s⟩ .deadlineDropped ⟨c.dropDeadline, s⟩
  | close {c : Call T} : Step ⟨c, .running⟩ .closing ⟨c, .refusing⟩
  | shutDown {c : Call T} : Step ⟨c, .refusing⟩ .shutDown ⟨c, .down⟩

/-! ## Steps that branch -/

inductive Call.Advance (closed : Bool) (c : Call T) : Call T → Prop
  | noDeadline (ho : c.opening = .fresh) (hd : c.hasDeadline = false) :
      c.Advance closed { c with opening := .deadlineKept }
  | deadlineRefused (ho : c.opening = .fresh) (hd : c.hasDeadline = true) (hc : closed = true) :
      c.Advance closed { c with opening := .refused }
  | deadlineSet (ho : c.opening = .fresh) (hd : c.hasDeadline = true) (hc : closed = false) :
      c.Advance closed { c with opening := .deadlineSet, deadline := .waiting }
  | deadlineKept (ho : c.opening = .deadlineSet) :
      c.Advance closed { c with opening := .deadlineKept }
  | pollRefused (ho : c.opening = .deadlineKept) (hc : closed = true) :
      c.Advance closed { c with opening := .refusing }
  | pollSet (ho : c.opening = .deadlineKept) (hc : closed = false) :
      c.Advance closed { c with opening := .pollSet, poll := .idle }
  | pollKept (ho : c.opening = .pollSet) : c.Advance closed { c with opening := .begun }
  | refused (ho : c.opening = .refusing) :
      c.Advance closed { c.stopDeadline with opening := .refused }
  | stay (ho : c.opening = .begun ∨ c.opening = .refused) : c.Advance closed c

theorem Call.advance_advanceOpening (closed : Bool) (c : Call T) :
    c.Advance closed (c.advanceOpening closed) := by
  unfold Call.advanceOpening
  cases ho : c.opening with
  | fresh =>
    by_cases hd : c.hasDeadline = true
    · cases closed with
      | true => simpa [hd] using Advance.deadlineRefused ho hd rfl
      | false => simpa [hd] using Advance.deadlineSet ho hd rfl
    · simpa [hd] using Advance.noDeadline ho (by simpa using hd)
  | deadlineSet => exact .deadlineKept ho
  | deadlineKept =>
    cases closed with
    | true => exact .pollRefused ho rfl
    | false => exact .pollSet ho rfl
  | pollSet => exact .pollKept ho
  | refusing => exact .refused ho
  | begun => exact .stay (Or.inl ho)
  | refused => exact .stay (Or.inr ho)

inductive Call.Settle (c : Call T) (e : Entry T) (rest : List (Entry T)) :
    Option (T × Verdict) → Call T → Prop
  | failed : c.Settle e rest none { c with poll := .between rest }
  | unfinished (t : T) : c.Settle e rest (some (t, .unfinished))
      { c with active := Call.refreshKey e.key t c.active, poll := .between rest }
  | taken (t : T) (v : Verdict) (o : Outcome) (hv : v.outcome? = some o)
      (ha : c.isActive e.key = true) : c.Settle e rest (some (t, v))
      { c with active := Call.removeKey e.key c.active, poll := .owing ⟨e.key, t, o⟩ rest }
  | gone (t : T) (v : Verdict) (o : Outcome) (hv : v.outcome? = some o)
      (ha : c.isActive e.key = false) : c.Settle e rest (some (t, v))
        { c with poll := .between rest }

theorem Call.settle_settle {c : Call T} {e : Entry T} {reading : Option (T × Verdict)}
    {rest : List (Entry T)} (h : c.poll = .answered e reading rest) :
    c.Settle e rest reading c.settle := by
  unfold Call.settle
  rw [h]
  cases reading with
  | none => exact .failed
  | some r =>
    obtain ⟨t, v⟩ := r
    cases hv : v.outcome? with
    | none =>
      obtain rfl : v = .unfinished := by cases v <;> simp_all [Verdict.outcome?]
      exact .unfinished t
    | some o =>
      cases ha : c.isActive e.key with
      | true => simpa [hv, ha] using Settle.taken t v o hv ha
      | false => simpa [hv, ha] using Settle.gone t v o hv ha

/-! ## What each step changes -/

/-- The steps, each with the parts of the call that it changes. -/
inductive Change : Scene T → Event T → Scene T → Prop
  | advance {c c' : Call T} {s : Standing} (h : c.Advance (s != .running) c') :
      Change ⟨c, s⟩ .advanced ⟨c', s⟩
  | arrange {c : Call T} {s : Standing} {es : List (Entry T)} (h : es.Perm c.active) :
      Change ⟨c, s⟩ .arranged ⟨{ c with active := es }, s⟩
  | beginRound {c : Call T} {s : Standing} (h : c.poll = .idle) :
      Change ⟨c, s⟩ (.began c.active) ⟨{ c with poll := .between c.active }, s⟩
  | ask {c : Call T} {s : Standing} {e : Entry T} {rest : List (Entry T)}
      (h : c.poll = .between (e :: rest)) :
      Change ⟨c, s⟩ (.asked e) ⟨{ c with poll := .reading e rest }, s⟩
  | endRound {c : Call T} {s : Standing} (h : c.poll = .between []) :
      Change ⟨c, s⟩ .roundEnded
        ⟨{ c with poll := if c.active.isEmpty then .leaving else .idle }, s⟩
  | leave {c : Call T} {s : Standing} (h : c.poll = .leaving) :
      Change ⟨c, s⟩ .left
        ⟨{ c with deadlineStopped := c.stopDeadline.deadlineStopped, poll := .over }, s⟩
  | answer {c : Call T} {s : Standing} {e : Entry T} {rest : List (Entry T)}
      (reading : Option (T × Verdict)) (h : c.poll = .reading e rest) :
      Change ⟨c, s⟩ (.answered e reading) ⟨{ c with poll := .answered e reading rest }, s⟩
  | settle {c c' : Call T} {s : Standing} {e : Entry T} {reading : Option (T × Verdict)}
      {rest : List (Entry T)} (h : c.poll = .answered e reading rest)
      (hc : c.Settle e rest reading c') :
      Change ⟨c, s⟩ (.settled e reading (c.isActive e.key)) ⟨c', s⟩
  | pay {c : Call T} {s : Standing} {d : Delivery T} {rest : List (Entry T)}
      (h : c.poll = .owing d rest) :
      Change ⟨c, s⟩ (.noticed d) ⟨{ c.tell d with poll := .between rest }, s⟩
  | expire {c : Call T} {s : Standing} (h : c.deadline = .waiting) :
      Change ⟨c, s⟩ (.expired c.active) ⟨{ c with
        active := [], deadline := .drained (c.active.map fun e => ⟨e.key, e.target, .timeout⟩) }, s⟩
  | stopPoll {c : Call T} {s : Standing} {ds : List (Delivery T)} (h : c.deadline = .drained ds) :
      Change ⟨c, s⟩ .pollStopped ⟨{ c with
        pollStopped := c.pollStopped || c.opening == .begun, deadline := .telling ds }, s⟩
  | payTimeout {c : Call T} {s : Standing} {d : Delivery T} {ds : List (Delivery T)}
      (h : c.deadline = .telling (d :: ds)) :
      Change ⟨c, s⟩ (.noticed d) ⟨{ c.tell d with deadline := .telling ds }, s⟩
  | endDeadline {c : Call T} {s : Standing} (h : c.deadline = .telling []) :
      Change ⟨c, s⟩ .deadlineEnded ⟨{ c with deadline := .over }, s⟩
  | deliver {c : Call T} {s : Standing} {d : Delivery T} (i : Nat) (h : c.pending[i]? = some d) :
      Change ⟨c, s⟩ (.delivered d)
        ⟨{ c with pending := c.pending.eraseIdx i, delivered := c.delivered ++ [d] }, s⟩
  | dropCallback {c : Call T} {d : Delivery T} (i : Nat) (h : c.pending[i]? = some d) :
      Change ⟨c, .down⟩ (.callbackDropped d) ⟨{ c with pending := c.pending.eraseIdx i }, .down⟩
  | dropPoll {c : Call T} {s : Standing} (h : c.poll.waits = true)
      (hs : c.pollStopped = true ∨ s = .down) :
      Change ⟨c, s⟩ .pollDropped ⟨{ c with poll := .cancelled }, s⟩
  | dropDeadline {c : Call T} {s : Standing} (h : c.deadline = .waiting)
      (hs : c.deadlineStopped = true ∨ s = .down) :
      Change ⟨c, s⟩ .deadlineDropped ⟨{ c with deadline := .cancelled }, s⟩
  | close {c : Call T} : Change ⟨c, .running⟩ .closing ⟨c, .refusing⟩
  | shutDown {c : Call T} : Change ⟨c, .refusing⟩ .shutDown ⟨c, .down⟩

theorem Step.change {w w' : Scene T} {ev : Event T} (h : Step w ev w') : Change w ev w' := by
  cases h with
  | advance => exact .advance (Call.advance_advanceOpening _ _)
  | arrange h => exact .arrange h
  | beginRound h => exact Call.beginRound_of_idle h ▸ .beginRound h
  | ask h => exact Call.proceed_of_cons h ▸ .ask h
  | endRound h => exact Call.proceed_of_nil h ▸ .endRound h
  | leave h =>
    rw [Call.leave_of_leaving h, Call.stopDeadline_eq]
    exact .leave h
  | answer r h => exact Call.answer_of_reading r h ▸ .answer r h
  | settle h => exact .settle h (Call.settle_settle h)
  | pay h => exact Call.pay_of_owing h ▸ .pay h
  | expire h => exact Call.expire_of_waiting h ▸ .expire h
  | stopPoll h => exact Call.stopPoll_of_drained h ▸ .stopPoll h
  | payTimeout h => exact Call.payTimeout_of_cons h ▸ .payTimeout h
  | endDeadline h => exact Call.payTimeout_of_nil h ▸ .endDeadline h
  | deliver i h => exact Call.deliver_of_pending h ▸ .deliver i h
  | dropCallback i h => exact .dropCallback i h
  | dropPoll h hs => exact Call.dropPoll_of_waits h ▸ .dropPoll h hs
  | dropDeadline h hs => exact Call.dropDeadline_of_waiting h ▸ .dropDeadline h hs
  | close => exact .close
  | shutDown => exact .shutDown

/-! ## Courses -/

section Courses

variable {σ ε : Type}

/-- Steps in a row from `w₀`, with what happened. -/
inductive Course (R : σ → ε → σ → Prop) (w₀ : σ) : List ε → σ → Prop
  | refl : Course R w₀ [] w₀
  | tail {evs : List ε} {w w' : σ} {ev : ε} (prior : Course R w₀ evs w) (next : R w ev w') :
      Course R w₀ (evs ++ [ev]) w'

namespace Course

variable {R : σ → ε → σ → Prop} {w₀ w₁ w : σ} {evs evs₁ evs₂ : List ε}

theorem trans (h₁ : Course R w₀ evs₁ w₁) (h₂ : Course R w₁ evs₂ w) :
    Course R w₀ (evs₁ ++ evs₂) w := by
  induction h₂ with
  | refl => simpa using h₁
  | tail _ next ih =>
    rw [← List.append_assoc]
    exact .tail ih next

theorem unsnoc {ev : ε} (h : Course R w₀ (evs ++ [ev]) w) :
    ∃ w₁, Course R w₀ evs w₁ ∧ R w₁ ev w := by
  generalize he : evs ++ [ev] = all at h
  cases h with
  | refl => simp at he
  | tail prior next =>
    obtain ⟨rfl, h⟩ := List.append_inj' he rfl
    obtain rfl := List.singleton_inj.mp h
    exact ⟨_, prior, next⟩

theorem split (h : Course R w₀ (evs₁ ++ evs₂) w) :
    ∃ w₁, Course R w₀ evs₁ w₁ ∧ Course R w₁ evs₂ w := by
  induction evs₂ using List.reverseRecOn generalizing w with
  | nil => exact ⟨w, by simpa using h, .refl⟩
  | append_singleton evs₂ ev ih =>
    rw [← List.append_assoc] at h
    obtain ⟨w₂, hprior, hnext⟩ := h.unsnoc
    obtain ⟨w₁, h₁, h₂⟩ := ih hprior
    exact ⟨w₁, h₁, .tail h₂ hnext⟩

theorem step_of_append_cons {ev : ε} (h : Course R w₀ (evs₁ ++ ev :: evs₂) w) :
    ∃ w₁ w₂, Course R w₀ evs₁ w₁ ∧ R w₁ ev w₂ := by
  rw [List.append_cons] at h
  obtain ⟨w₂, h, -⟩ := h.split
  obtain ⟨w₁, hprior, hnext⟩ := h.unsnoc
  exact ⟨w₁, w₂, hprior, hnext⟩

/-- What holds at first and is kept by each step holds all along.  What has happened so far may be
part of it. -/
theorem invariant {P : List ε → σ → Prop} (h₀ : P [] w₀)
    (hstep : ∀ {evs w ev w'}, P evs w → R w ev w' → P (evs ++ [ev]) w')
    (h : Course R w₀ evs w) : P evs w := by
  induction h with
  | refl => exact h₀
  | tail _ next ih => exact hstep ih next

/-- What holds at the end held at first, or the event has happened that brings it about. -/
theorem held_or_mem {P : σ → Prop} {ev : ε}
    (hstep : ∀ {w ev' w'}, R w ev' w' → P w' → P w ∨ ev' = ev) (h : Course R w₀ evs w) (hw : P w) :
    P w₀ ∨ ev ∈ evs := by
  induction h with
  | refl => exact Or.inl hw
  | tail prior next ih =>
    rcases hstep next hw with hw | rfl
    · exact (ih hw).imp_right (List.mem_append_left _)
    · exact Or.inr (List.mem_append_right _ (List.mem_singleton.mpr rfl))

end Course
end Courses
end TaskWatch.Monitor
