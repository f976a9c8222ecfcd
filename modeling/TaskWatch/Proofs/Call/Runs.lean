import TaskWatch.Monitor.Rounds
import TaskWatch.Monitor.Service
import TaskWatch.Proofs.Call.Course

/-!
# Runs in one go

What is done to a call in one go (its beginning, a round, its deadline) is a row of steps with
nothing in between, so what holds along every course holds after it.  The readings that come in are
those that the check gives.

* `Leads`: one call comes from another one by steps, on a scheduler that stays as it is.
* `leads_launch`, `leads_round`, `leads_giveUp`: the runs in one go.
* `leads_watch`, `leads_runOut`: calls that a service has started, and whole runs of them.
-/

namespace TaskWatch.Monitor

variable {σ T : Type} {s : Standing} {c c' c'' : Call T} {A : T → Option (T × Verdict) → Prop}

/-- A call comes from another one by steps in a row, in which each reading is one that `A` allows
for the object that is read. -/
def Leads (A : T → Option (T × Verdict) → Prop) (s : Standing) (c c' : Call T) : Prop :=
  ∃ evs, Course Step ⟨c, s⟩ evs ⟨c', s⟩ ∧ ∀ e r, .answered e r ∈ evs → A e.target r

def Check.Gives (check : Check σ T) (t : T) (r : Option (T × Verdict)) : Prop :=
  ∃ st, r = (check t st).1.toOption

namespace Leads

theorem refl (s : Standing) (c : Call T) : Leads A s c c := ⟨[], .refl, nofun⟩

theorem of_eq (h : c' = c) : Leads A s c c' := h ▸ .refl s c'

theorem trans (h : Leads A s c c') (h' : Leads A s c' c'') : Leads A s c c'' := by
  obtain ⟨evs, h, hall⟩ := h
  obtain ⟨evs', h', hall'⟩ := h'
  refine ⟨evs ++ evs', h.trans h', ?_⟩
  intro e r hm
  exact (List.mem_append.mp hm).elim (hall e r) (hall' e r)

theorem of_step {ev : Event T} (h : Step ⟨c, s⟩ ev ⟨c', s⟩) (hev : ∀ e r, ev ≠ .answered e r) :
    Leads A s c c' := by
  refine ⟨[ev], Course.refl.tail h, ?_⟩
  intro e r hm
  exact absurd (List.mem_singleton.mp hm).symm (hev e r)

end Leads

/-! ## Single steps, where they apply or not -/

theorem leads_proceed (s : Standing) (c : Call T) : Leads A s c c.proceed := by
  cases h : c.poll with
  | between rest =>
    cases rest with
    | nil => exact .of_step (.endRound h) nofun
    | cons e rest => exact .of_step (.ask h) nofun
  | _ => exact .of_eq (by simp [Call.proceed, h])

theorem leads_leave (s : Standing) (c : Call T) : Leads A s c c.leave := by
  cases h : c.poll with
  | leaving => exact .of_step (.leave h) nofun
  | _ => exact .of_eq (by simp [Call.leave, h])

theorem leads_answer (s : Standing) {e : Entry T} {rest : List (Entry T)} {r : Option (T × Verdict)}
    (h : c.poll = .reading e rest) (hr : A e.target r) : Leads A s c (c.answer r) := by
  refine ⟨_, Course.refl.tail (.answer r h), ?_⟩
  intro e' r' hm
  cases List.mem_singleton.mp hm
  exact hr

theorem leads_settle (s : Standing) (c : Call T) : Leads A s c c.settle := by
  cases h : c.poll with
  | answered e r rest => exact .of_step (.settle h) nofun
  | _ => exact .of_eq (by simp [Call.settle, h])

theorem leads_pay (s : Standing) (c : Call T) : Leads A s c c.pay := by
  cases h : c.poll with
  | owing d rest => exact .of_step (.pay h) nofun
  | _ => exact .of_eq (by simp [Call.pay, h])

theorem leads_stopPoll (s : Standing) (c : Call T) : Leads A s c c.stopPoll := by
  cases h : c.deadline with
  | drained ds => exact .of_step (.stopPoll h) nofun
  | _ => exact .of_eq (by simp [Call.stopPoll, h])

theorem leads_payTimeout (s : Standing) (c : Call T) : Leads A s c c.payTimeout := by
  cases h : c.deadline with
  | telling ds =>
    cases ds with
    | nil => exact .of_step (.endDeadline h) nofun
    | cons d ds => exact .of_step (.payTimeout h) nofun
  | _ => exact .of_eq (by simp [Call.payTimeout, h])

theorem leads_dropPoll (h : c.pollStopped = true) : Leads A s c c.dropPoll := by
  cases hp : c.poll with
  | idle | reading => exact .of_step (.dropPoll (by simp [hp, Poll.waits]) (Or.inl h)) nofun
  | _ => exact .of_eq (by simp [Call.dropPoll, hp])

/-! ## Runs -/

theorem leads_deliverAll (s : Standing) (c : Call T) : Leads A s c c.deliverAll := by
  generalize hp : c.pending = ds
  induction ds generalizing c with
  | nil =>
    exact .of_eq (by cases c; simp_all [Call.deliverAll])
  | cons d ds ih =>
    have hd : c.pending[0]? = some d := by simp [hp]
    have hrest := ih (c.deliver 0) (by simp [Call.deliver_of_pending hd, hp])
    have hall : (c.deliver 0).deliverAll = c.deliverAll := by
      simp [Call.deliver_of_pending hd, Call.deliverAll, hp]
    exact (Leads.of_step (.deliver 0 hd) nofun).trans (hall ▸ hrest)

theorem leads_launch (s : Standing) (c : Call T) : Leads A s c (c.launch (s != .running)) := by
  have hstep : ∀ c : Call T, Leads A s c (c.advanceOpening (s != .running)) := fun _ =>
    .of_step .advance nofun
  exact (((hstep _).trans (hstep _)).trans (hstep _)).trans (hstep _)

/-- A poll that has acted on its reading goes on with the rest of the round. -/
theorem Call.poll_pay_settle {e : Entry T} {r : Option (T × Verdict)} {rest : List (Entry T)}
    (h : c.poll = .answered e r rest) : c.settle.pay.poll = .between rest := by
  have hs := settle_settle h
  generalize c.settle = c' at hs
  cases hs <;> simp [pay, tell]

theorem leads_checkAll (check : Check σ T) (es : List (Entry T)) (c : Call T) (st : σ)
    (h : c.poll = .between es) : Leads check.Gives s c (Call.checkAll check es c st).1 := by
  induction es generalizing c st with
  | nil => exact (leads_proceed s c).trans (leads_leave s _)
  | cons e es ih =>
    have hasked : c.proceed.poll = .reading e es := by rw [Call.proceed_of_cons h]
    have hread : Leads check.Gives s c.proceed (c.proceed.answer (check e.target st).1.toOption) :=
      leads_answer s hasked ⟨st, rfl⟩
    have hacted := (((leads_proceed s c).trans hread).trans (leads_settle s _)).trans
      (leads_pay s _)
    refine hacted.trans (ih _ _ ?_)
    exact Call.poll_pay_settle (by rw [Call.answer_of_reading _ hasked])

theorem leads_round (check : Check σ T) (c : Call T) (st : σ) :
    Leads check.Gives s c (c.round check st).1 := by
  cases h : c.poll with
  | idle =>
    have hround : (c.round check st).1 =
        (Call.checkAll check c.active c.beginRound st).1.deliverAll := by
      simp [Call.round, h]
    have hbegun : c.beginRound.poll = .between c.active := by rw [Call.beginRound_of_idle h]
    rw [hround]
    exact ((Leads.of_step (.beginRound h) nofun).trans (leads_checkAll check _ _ _ hbegun)).trans
      (leads_deliverAll s _)
  | _ => exact .of_eq (by simp [Call.round, h])

theorem leads_payTimeouts (ds : List (Delivery T)) (c : Call T) :
    Leads A s c (Call.payTimeouts ds c) := by
  induction ds generalizing c with
  | nil => exact leads_payTimeout s c
  | cons d ds ih => exact (leads_payTimeout s c).trans (ih _)

theorem leads_giveUp (s : Standing) (c : Call T) : Leads A s c c.giveUp := by
  cases h : c.deadline with
  | waiting =>
    by_cases hs : c.deadlineStopped = true
    · have hdrop : c.giveUp = c.dropDeadline := by simp [Call.giveUp, h, hs]
      exact hdrop ▸ .of_step (.dropDeadline h (Or.inl hs)) nofun
    · have hpaid := ((Leads.of_step (A := A) (.expire h) nofun).trans (leads_stopPoll s _)).trans
        (leads_payTimeouts (c.active.map fun e => ⟨e.key, e.target, .timeout⟩) _)
      simp only [Call.giveUp, h, hs]
      refine hpaid.trans (.trans ?_ (leads_deliverAll s _))
      split
      · rename_i hstopped
        exact leads_dropPoll hstopped
      · exact .refl s _
  | _ => exact .of_eq (by simp [Call.giveUp, h])

theorem leads_pollRounds (check : Check σ T) (n : Nat) (c : Call T) (st : σ) :
    Leads check.Gives s c (Call.pollRounds check n c st).1 := by
  induction n generalizing c st with
  | zero => exact .refl s c
  | succ n ih =>
    rw [Call.pollRounds]
    split
    · exact .refl s c
    · exact (leads_round check c st).trans (ih _ _)

/-- **Whole runs are courses.**  Rounds one after another, and the deadline if objects are left, are
steps in a row. -/
theorem leads_runOut (check : Check σ T) (n : Nat) (c : Call T) (st : σ) :
    Leads check.Gives s c (c.runOut check n st).1 := by
  refine (leads_pollRounds check n c st).trans ?_
  show Leads _ s _ (if (Call.pollRounds check n c st).1.isFinished then _ else _)
  split
  · exact .refl s _
  · exact leads_giveUp s _

theorem Service.closed_of_start {ι : Type} {m : Settings} {v : Service ι}
    (h : Service.start m = .ok v) : v.closed = false := by
  unfold Service.start at h
  cases hm : m.check with
  | error e => simp [hm, bind, Except.bind] at h
  | ok u =>
    simp only [hm, bind, Except.bind] at h
    cases h
    rfl

/-- A scheduler that is not closed takes a call. -/
theorem Call.opening_launch (active : List (Entry T)) (timed : Bool) :
    ((Call.prepare active timed).launch false).opening = .begun := by
  cases timed <;> rfl

def Service.standing {ι : Type} (v : Service ι) : Standing :=
  if v.closed then .refusing else .running

/-- A call that a service has started has come there by steps. -/
theorem leads_watch {ι : Type} [Watchable T] {v : Service ι} {targets : List T}
    {maxWait : Option Nat} (h : v.watch targets maxWait = .ok c) :
    ∃ active, Service.accept targets maxWait = .ok active ∧
      Leads A v.standing (.prepare active maxWait.isSome) c := by
  unfold Service.watch at h
  cases ha : Service.accept targets maxWait with
  | error e => simp [ha, bind, Except.bind] at h
  | ok active =>
    have hclosed : (v.standing != .running) = v.closed := by
      unfold Service.standing
      cases v.closed <;> rfl
    have hlaunch := leads_launch (A := A) v.standing (.prepare active maxWait.isSome)
    rw [hclosed] at hlaunch
    simp only [ha, bind, Except.bind] at h
    split at h
    · cases h
    · exact ⟨active, rfl, Except.ok.inj h ▸ hlaunch⟩

end TaskWatch.Monitor
