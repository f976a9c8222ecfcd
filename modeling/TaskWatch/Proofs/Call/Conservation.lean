import Mathlib.Data.List.Perm.Subperm
import TaskWatch.Monitor.Service
import TaskWatch.Proofs.Call.Entries
import TaskWatch.Proofs.Call.Phases

/-!
# No notice is lost or given twice

Each key of a call is in one place: it is active, it has been taken out by the poll or by the
deadline, which holds its notice and gives it next, or its notice has been given.

* `Call.ledger`: the keys in these places.  `Step.ledger_perm`: a step moves keys, it neither drops
  nor adds one.
* `Step.active_subset`: no key becomes active again.
* `CallbacksKept`: for each notice there is one callback, which has run, is pending, or was dropped
  by a scheduler that is down.
* `Course.one_notice_per_key`: what this comes to for a call that has been accepted.
-/

namespace TaskWatch.Monitor

variable {T : Type} {timed : Bool} {w w' : Scene T} {ev : Event T}

/-! ## The ledger -/

def Poll.owed : Poll T → List (Delivery T)
  | .owing d _ => [d]
  | _ => []

theorem Poll.owed_of_waits {p : Poll T} (h : p.waits = true) : p.owed = [] := by
  cases p with
  | owing => simp [Poll.waits] at h
  | _ => rfl

def Deadline.owed : Deadline T → List (Delivery T)
  | .drained ds | .telling ds => ds
  | _ => []

namespace Call

/-- The notices of objects that have been taken out, with whoever is to give them. -/
def owed (c : Call T) : List (Delivery T) := c.poll.owed ++ c.deadline.owed

/-- The keys of a call: those that are active, those taken out, and those with a notice. -/
def ledger (c : Call T) : List String :=
  c.active.map Entry.key ++ (c.owed.map Delivery.key ++ c.published.map Delivery.key)

theorem ledger_setPoll {c : Call T} {p : Poll T} (h : p.owed = c.poll.owed) :
    { c with poll := p }.ledger = c.ledger := by
  simp [ledger, owed, h]

theorem ledger_setDeadline {c : Call T} {d : Deadline T} (h : d.owed = c.deadline.owed) :
    { c with deadline := d }.ledger = c.ledger := by
  simp [ledger, owed, h]

theorem ledger_advance {c c' : Call T} {s : Standing} (hw : Orderly timed ⟨c, s⟩)
    (h : c.Advance (s != .running) c') : c'.ledger = c.ledger := by
  cases h with
  | deadlineSet ho =>
    have hd : c.deadline = .unset := hw.deadline_unset ho
    simp [ledger, owed, hd, Deadline.owed]
  | pollSet ho =>
    have hp : c.poll = .unset := hw.poll_unset (ho ▸ rfl)
    simp [ledger, owed, hp, Poll.owed]
  | refused =>
    rw [stopDeadline_eq]
    rfl
  | _ => rfl

theorem ledger_settle_perm {c : Call T} {e : Entry T} {reading : Option (T × Verdict)}
    {rest : List (Entry T)} (hn : (c.active.map Entry.key).Nodup)
    (h : c.poll = .answered e reading rest) : c.settle.ledger.Perm c.ledger := by
  have hs := settle_settle h
  generalize c.settle = c' at hs
  cases hs with
  | failed | gone => rw [ledger_setPoll (by simp [h, Poll.owed])]
  | unfinished t => simp [ledger, owed, h, Poll.owed]
  | taken t v o hv ha =>
    have hp := cons_map_key_removeKey_perm hn (isActive_iff.mp ha)
    simp only [ledger, owed, h, Poll.owed, List.nil_append, List.map_cons, List.cons_append]
    exact List.perm_middle.trans (hp.append_right _)

theorem ledger_expire {c : Call T} (h : c.deadline = .waiting) :
    c.expire.ledger.Perm c.ledger := by
  have hk : (fun e : Entry T => e.key) = Entry.key := rfl
  rw [expire_of_waiting h]
  simp only [ledger, owed, h, Deadline.owed, List.map_append, List.map_map, List.append_nil,
    List.map_nil, List.nil_append, Function.comp_def, hk]
  rw [List.append_assoc, ← List.append_assoc, ← List.append_assoc]
  exact List.perm_append_comm.append_right _

/-- A notice that is given moves from the one who holds it to the others that were given. -/
theorem ledger_give_perm (as os ds ps : List String) (k : String) :
    (as ++ (os ++ ds ++ (ps ++ [k]))).Perm (as ++ (os ++ k :: ds ++ ps)) := by
  refine List.Perm.append_left as ?_
  have hk : (ps ++ [k]).Perm (k :: ps) := List.perm_append_singleton k ps
  calc os ++ ds ++ (ps ++ [k])
      _ |>.Perm (os ++ ds ++ k :: ps) := hk.append_left _
      _ |>.Perm (k :: (os ++ ds ++ ps)) := List.perm_middle
      _ |>.Perm (os ++ k :: ds ++ ps) := by simpa using List.perm_middle.symm

end Call

theorem Step.ledger_perm (h : Step w ev w') (hw : Orderly timed w)
    (hn : (w.call.active.map Entry.key).Nodup) : w'.call.ledger.Perm w.call.ledger := by
  cases h with
  | advance => rw [Call.ledger_advance hw (Call.advance_advanceOpening _ _)]
  | arrange hp => exact (hp.map _).append_right _
  | beginRound h => rw [Call.beginRound_of_idle h, Call.ledger_setPoll (by simp [h, Poll.owed])]
  | ask h => rw [Call.proceed_of_cons h, Call.ledger_setPoll (by simp [h, Poll.owed])]
  | endRound h =>
    rw [Call.proceed_of_nil h, Call.ledger_setPoll (by split <;> simp [h, Poll.owed])]
  | leave h =>
    rw [Call.leave_of_leaving h, Call.stopDeadline_eq]
    exact .of_eq (Call.ledger_setPoll (p := .over) (by simp [h, Poll.owed]))
  | answer r h =>
    rw [Call.answer_of_reading r h, Call.ledger_setPoll (by simp [h, Poll.owed])]
  | settle h => exact Call.ledger_settle_perm hn h
  | pay h =>
    rw [Call.pay_of_owing h]
    simpa [Call.ledger, Call.owed, Call.tell, h, Poll.owed] using
      Call.ledger_give_perm _ [] _ _ _
  | expire h => exact Call.ledger_expire h
  | stopPoll h =>
    rw [Call.stopPoll_of_drained h]
    exact .of_eq (Call.ledger_setDeadline (by simp [h, Deadline.owed]))
  | payTimeout h =>
    rw [Call.payTimeout_of_cons h]
    simpa [Call.ledger, Call.owed, Call.tell, h, Deadline.owed] using
      Call.ledger_give_perm _ _ _ _ _
  | endDeadline h =>
    rw [Call.payTimeout_of_nil h, Call.ledger_setDeadline (by simp [h, Deadline.owed])]
  | deliver i h => rw [Call.deliver_of_pending h]; rfl
  | dropCallback i h => rfl
  | dropPoll h =>
    rw [Call.dropPoll_of_waits h,
      Call.ledger_setPoll (p := .cancelled) (Poll.owed_of_waits h).symm]
  | dropDeadline h =>
    rw [Call.dropDeadline_of_waiting h, Call.ledger_setDeadline (by simp [h, Deadline.owed])]
  | close => rfl
  | shutDown => rfl

/-! ## The active objects -/

theorem Step.active_subset (h : Step w ev w') :
    w'.call.active.map Entry.key ⊆ w.call.active.map Entry.key := by
  replace h := h.change
  cases h with
  | advance h =>
    cases h with
    | refused => rw [Call.stopDeadline_eq]; exact List.Subset.refl _
    | _ => exact List.Subset.refl _
  | arrange hp => exact (hp.map _).subset
  | settle h hc =>
    cases hc with
    | unfinished t => simp
    | taken => exact List.map_subset _ (List.filter_subset_self _)
    | failed | gone => exact List.Subset.refl _
  | expire => exact List.nil_subset _
  | _ => exact List.Subset.refl _

theorem Course.active_subset {evs : List (Event T)} (h : Course Step w evs w') :
    w'.call.active.map Entry.key ⊆ w.call.active.map Entry.key :=
  h.invariant (P := fun _ w' => w'.call.active.map Entry.key ⊆ w.call.active.map Entry.key)
    (List.Subset.refl _) fun hsub next => List.Subset.trans next.active_subset hsub

/-! ## Callbacks -/

/-- What a step can do to the notices and callbacks of a call. -/
inductive Told (w w' : Scene T) : Event T → Prop
  | same {ev : Event T} (hev : ∀ d, ev ≠ .delivered d)
      (hp : w'.call.published = w.call.published) (hq : w'.call.pending = w.call.pending)
      (hd : w'.call.delivered = w.call.delivered) : Told w w' ev
  /-- A notice that somebody holds is given, with a callback. -/
  | noticed {d : Delivery T} (howed : d ∈ w.call.owed)
      (hp : w'.call.published = w.call.published ++ [d])
      (hq : w'.call.pending = w.call.pending ++ [d])
      (hd : w'.call.delivered = w.call.delivered) : Told w w' (.noticed d)
  | delivered {d : Delivery T} (hp : w'.call.published = w.call.published)
      (hq : (d :: w'.call.pending).Perm w.call.pending)
      (hd : w'.call.delivered = w.call.delivered ++ [d]) : Told w w' (.delivered d)
  | lost {d : Delivery T} (hs : w.standing = .down)
      (hp : w'.call.published = w.call.published)
      (hq : (d :: w'.call.pending).Perm w.call.pending)
      (hd : w'.call.delivered = w.call.delivered) : Told w w' (.callbackDropped d)

theorem cons_eraseIdx_perm {α : Type} {l : List α} {i : Nat} {a : α} (h : l[i]? = some a) :
    (a :: l.eraseIdx i).Perm l := by
  obtain ⟨hi, rfl⟩ := List.getElem?_eq_some_iff.mp h
  exact List.getElem_cons_eraseIdx_perm hi

theorem Step.told (h : Step w ev w') : Told w w' ev := by
  replace h := h.change
  cases h with
  | advance h =>
    cases h with
    | refused => rw [Call.stopDeadline_eq]; exact .same nofun rfl rfl rfl
    | _ => exact .same nofun rfl rfl rfl
  | settle h hc => cases hc <;> exact .same nofun rfl rfl rfl
  | pay h => exact .noticed (by simp [Call.owed, h, Poll.owed]) rfl rfl rfl
  | payTimeout h => exact .noticed (by simp [Call.owed, h, Deadline.owed]) rfl rfl rfl
  | deliver i h => exact .delivered rfl (cons_eraseIdx_perm h) rfl
  | dropCallback i h => exact .lost rfl rfl (cons_eraseIdx_perm h) rfl
  | _ => exact .same nofun rfl rfl rfl

theorem Step.down (h : Step w ev w') (hs : w.standing = .down) : w'.standing = .down := by
  cases h <;> first | exact hs | rfl | cases hs

/-- Each notice has one callback: it has run, it is pending, or it is among the lost ones of a
scheduler that is down. -/
def CallbacksKept (w : Scene T) : Prop :=
  ∃ lost : List (Delivery T), (w.standing ≠ .down → lost = []) ∧
    (w.call.delivered ++ w.call.pending ++ lost).Perm w.call.published

theorem Step.callbacksKept (h : Step w ev w') (hw : CallbacksKept w) : CallbacksKept w' := by
  obtain ⟨lost, hs, hperm⟩ := hw
  have hs' : w'.standing ≠ .down → lost = [] := fun hn => hs fun hd => hn (h.down hd)
  cases h.told with
  | same hev hp hq hd => exact ⟨lost, hs', by rw [hp, hq, hd]; exact hperm⟩
  | @noticed d howed hp hq hd =>
    refine ⟨lost, hs', ?_⟩
    rw [hp, hq, hd]
    have hlost : ([d] ++ lost).Perm (lost ++ [d]) := List.perm_append_comm
    calc w.call.delivered ++ (w.call.pending ++ [d]) ++ lost
        _ |>.Perm (w.call.delivered ++ w.call.pending ++ lost ++ [d]) := by
          simpa using hlost.append_left (w.call.delivered ++ w.call.pending)
        _ |>.Perm (w.call.published ++ [d]) := hperm.append_right _
  | @delivered d hp hq hd =>
    refine ⟨lost, hs', ?_⟩
    rw [hp, hd]
    refine .trans (.append_right _ ?_) hperm
    simpa using hq.append_left w.call.delivered
  | @lost d hdown hp hq hd =>
    refine ⟨d :: lost, fun hn => absurd (h.down hdown) hn, ?_⟩
    rw [hp, hd]
    refine .trans ?_ hperm
    have hq' : (w'.call.pending ++ d :: lost).Perm (w.call.pending ++ lost) :=
      List.perm_middle.trans (hq.append_right lost)
    simpa using hq'.append_left w.call.delivered

theorem CallbacksKept.delivered_subset (h : CallbacksKept w) :
    w.call.delivered ⊆ w.call.published := by
  obtain ⟨lost, -, hperm⟩ := h
  intro d hd
  exact hperm.subset (by simp [hd])

theorem CallbacksKept.nodup_delivered (h : CallbacksKept w)
    (hn : (w.call.published.map Delivery.key).Nodup) :
    (w.call.delivered.map Delivery.key).Nodup := by
  obtain ⟨lost, -, hperm⟩ := h
  have hall := (hperm.map Delivery.key).nodup_iff.mpr hn
  rw [List.map_append, List.map_append] at hall
  exact (List.nodup_append'.mp (List.nodup_append'.mp hall).1).1

/-! ## Calls that have been accepted -/

/-- A key is active, or its notice is held by the step that gives it next, or its notice has been
given: one of these and no other. -/
def Call.InOnePlace (c : Call T) (k : String) : Prop :=
  (k ∈ c.active.map Entry.key ∧ k ∉ c.owed.map Delivery.key ∧ k ∉ c.published.map Delivery.key) ∨
  (k ∉ c.active.map Entry.key ∧ k ∈ c.owed.map Delivery.key ∧ k ∉ c.published.map Delivery.key) ∨
  (k ∉ c.active.map Entry.key ∧ k ∉ c.owed.map Delivery.key ∧ k ∈ c.published.map Delivery.key)

/-- A call whose poll has ended and whose deadline holds no notices. -/
def Call.AtRest (c : Call T) : Prop :=
  (c.poll = .over ∨ c.poll = .cancelled) ∧ c.deadline.owed = []

section Accepted

variable {active : List (Entry T)} {s : Standing} {evs : List (Event T)}

theorem Course.ledger_perm (hn : (active.map Entry.key).Nodup)
    (h : Course Step ⟨.prepare active timed, s⟩ evs w) :
    w.call.ledger.Perm (active.map Entry.key) := by
  -- The phases go along: where a poll or a deadline is set, it must not have held a notice before.
  have hinv : Orderly timed w ∧ w.call.ledger.Perm (active.map Entry.key) := by
    refine h.invariant (P := fun _ w => Orderly timed w ∧ w.call.ledger.Perm (active.map Entry.key))
      ⟨.prepare active timed s, ?_⟩ ?_
    · simp [Call.ledger, Call.owed, Call.prepare, Poll.owed, Deadline.owed]
    · rintro evs w ev w' ⟨hw, hp⟩ next
      have hactive : (w.call.active.map Entry.key).Nodup :=
        (List.nodup_append.mp (hp.nodup_iff.mpr hn)).1
      exact ⟨next.orderly hw, (next.ledger_perm hw hactive).trans hp⟩
  exact hinv.2

theorem Course.nodup_ledger (hn : (active.map Entry.key).Nodup)
    (h : Course Step ⟨.prepare active timed, s⟩ evs w) : w.call.ledger.Nodup :=
  (h.ledger_perm hn).nodup_iff.mpr hn

theorem Course.callbacksKept (h : Course Step ⟨.prepare active timed, s⟩ evs w) :
    CallbacksKept w :=
  h.invariant (P := fun _ w => CallbacksKept w) ⟨[], fun _ => rfl, .refl _⟩
    fun hw next => next.callbacksKept hw

theorem Call.nodup_published {c : Call T} (hn : c.ledger.Nodup) :
    (c.published.map Delivery.key).Nodup :=
  (List.nodup_append'.mp (List.nodup_append'.mp hn).2.1).2.1

theorem Call.inOnePlace {c : Call T} {k : String} (hn : c.ledger.Nodup) (hk : k ∈ c.ledger) :
    c.InOnePlace k := by
  obtain ⟨-, hrest, hactive⟩ := List.nodup_append'.mp hn
  obtain ⟨-, -, howed⟩ := List.nodup_append'.mp hrest
  have ha : k ∈ c.active.map Entry.key →
      k ∉ c.owed.map Delivery.key ∧ k ∉ c.published.map Delivery.key := fun h =>
    ⟨fun ho => hactive h (List.mem_append_left _ ho),
      fun hp => hactive h (List.mem_append_right _ hp)⟩
  have ho : k ∈ c.owed.map Delivery.key → k ∉ c.published.map Delivery.key := fun h hp => howed h hp
  simp only [ledger, List.mem_append] at hk
  unfold InOnePlace
  tauto

theorem Call.AtRest.ledger_eq (hrest : w.call.AtRest) (hw : Orderly timed w)
    (hs : w.standing ≠ .down) :
    w.call.ledger = w.call.published.map Delivery.key := by
  have hpoll : w.call.poll.owed = [] := by
    rcases hrest.1 with h | h <;> simp [h, Poll.owed]
  simp [ledger, owed, hw.active_eq_nil hs hrest.1, hpoll, hrest.2]

/-- **Each key has one notice.**  Whatever order the steps of a call are taken in, its active
objects only become fewer; each key is either active, or held by the one step that is to give its
notice, or has its notice; no key has two notices or two callbacks; and a call at rest, on a
scheduler that is not down, has given a notice for each key. -/
theorem Course.one_notice_per_key [Watchable T] {targets : List T} {maxWait : Option Nat}
    (ha : Service.accept targets maxWait = .ok active)
    (h : Course Step ⟨.prepare active maxWait.isSome, s⟩ evs w) :
    (∀ evs' w', Course Step w evs' w' →
      w'.call.active.map Entry.key ⊆ w.call.active.map Entry.key) ∧
    w.call.ledger.Perm (targets.map Watchable.key).dedup ∧
    (∀ k ∈ targets.map Watchable.key, w.call.InOnePlace k) ∧
    (w.call.published.map Delivery.key).Nodup ∧
    CallbacksKept w ∧ (w.call.delivered.map Delivery.key).Nodup ∧
    (w.call.AtRest → w.standing ≠ .down →
      (w.call.published.map Delivery.key).Perm (targets.map Watchable.key).dedup) := by
  obtain ⟨-, -, rfl⟩ := Service.accept_eq_ok_iff.mp ha
  have hkeys := Call.nodup_map_key_collect targets
  have hledger := (h.ledger_perm hkeys).trans (Call.map_key_collect_perm targets)
  have hn := h.nodup_ledger hkeys
  have hpub := Call.nodup_published hn
  have hkept := h.callbacksKept
  refine ⟨fun _ _ h' => h'.active_subset, hledger, fun k hk => ?_, hpub, hkept,
    hkept.nodup_delivered hpub, fun hrest hs => ?_⟩
  · exact Call.inOnePlace hn (hledger.mem_iff.mpr (List.mem_dedup.mpr hk))
  · rw [← hrest.ledger_eq h.orderly hs]
    exact hledger

/-- The deadline of a call comes while the poll holds the notice of one task, and the other one is
read too late. -/
theorem one_notice_in_a_race :
    ∃ evs w, Course Step ⟨.prepare (Call.collect twins) true, .running⟩ evs w ∧
      w.call.AtRest ∧ w.call.published.map Delivery.key = ["a", "b"] ∧
      (w.call.published.map Delivery.key).Perm (twins.map Watchable.key).dedup := by
  have h : Course Step ⟨.prepare (Call.collect twins) true, .running⟩ [] _ := .refl
  have h := (((h.tail .advance).tail .advance).tail .advance).tail .advance
  have h := ((h.tail (.beginRound rfl)).tail (.ask rfl)).tail
    (.answer (some (.create "a" .deploy 2, .done)) rfl)
  have h := ((h.tail (.settle rfl)).tail (.expire rfl)).tail (.pay rfl)
  have h := ((h.tail (.ask rfl)).tail (.answer (some (.create "b" .reset 2, .done)) rfl)).tail
    (.settle rfl)
  have h := (((h.tail (.endRound rfl)).tail (.stopPoll rfl)).tail (.leave rfl)).tail
    (.payTimeout rfl)
  have ha : Service.accept twins (some 5) = .ok (Call.collect twins) := rfl
  have hrest := (Course.one_notice_per_key ha h).2.2.2.2.2.2
  exact ⟨_, _, h, ⟨Or.inl rfl, rfl⟩, rfl, hrest ⟨Or.inl rfl, rfl⟩ nofun⟩

end Accepted
end TaskWatch.Monitor
