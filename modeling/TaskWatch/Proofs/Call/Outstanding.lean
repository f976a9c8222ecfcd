import TaskWatch.Proofs.Call.Stopping

/-!
# Outstanding notices

Whoever takes an object out of the active ones gives its notice only after that, and the deadline
takes them all out first.  So one who looks at a call in between sees it finished with notices
outstanding.

* `Course.unpublished_perm`: the objects without a notice are the active ones and those whose notice
  is held.
* `exists_course_giving`: notices that are held can be given without anything else.
* `finished_before_notices`: a call may be finished without any notice.
* `Course.outstanding_when_finished`: which notices are outstanding then, and that they come.
-/

namespace TaskWatch.Monitor

variable {T : Type} {timed : Bool} {w w' : Scene T} {ev : Event T} {evs : List (Event T)}

/-- Those of some keys whose notice has not been given. -/
def Call.unpublished (c : Call T) (keys : List String) : List String :=
  keys.filter (· ∉ c.published.map Delivery.key)

/-- The places in the ledger of a call are apart from each other. -/
theorem Call.filter_ledger {c : Call T} (hn : c.ledger.Nodup) :
    c.unpublished c.ledger = c.active.map Entry.key ++ c.owed.map Delivery.key := by
  obtain ⟨-, hrest, hactive⟩ := List.nodup_append'.mp hn
  obtain ⟨-, -, howed⟩ := List.nodup_append'.mp hrest
  have hkeep : ∀ {ks : List String}, (∀ k ∈ ks, k ∉ c.published.map Delivery.key) →
      c.unpublished ks = ks := by
    intro ks h
    rw [unpublished, List.filter_eq_self]
    intro k hk
    exact decide_eq_true (h k hk)
  have hdrop : c.unpublished (c.published.map Delivery.key) = [] := by
    rw [unpublished, List.filter_eq_nil_iff]
    intro k hk hnot
    exact of_decide_eq_true hnot hk
  have ha : c.unpublished (c.active.map Entry.key) = c.active.map Entry.key := by
    apply hkeep
    intro k hk hp
    exact hactive hk (List.mem_append_right _ hp)
  have ho : c.unpublished (c.owed.map Delivery.key) = c.owed.map Delivery.key := by
    apply hkeep
    intro k hk hp
    exact howed hk hp
  unfold unpublished at ha ho hdrop ⊢
  rw [ledger, List.filter_append, List.filter_append, ha, ho, hdrop, List.append_nil]

/-! ## Giving what is held -/

/-- Whether an event is a notice, or the step of the deadline before its first one. -/
def Event.gives : Event T → Bool
  | .noticed _ | .pollStopped => true
  | _ => false

/-- A deadline that tells gives its notices one after another. -/
theorem exists_course_telling {c : Call T} {s : Standing} {ds : List (Delivery T)}
    (h : c.deadline = .telling ds) :
    ∃ evs c', Course Step ⟨c, s⟩ evs ⟨c', s⟩ ∧ evs.all Event.gives = true ∧
      evs.length = ds.length ∧ c'.deadline = .telling [] ∧ c'.poll = c.poll := by
  induction ds generalizing c with
  | nil => exact ⟨[], c, .refl, rfl, rfl, h, rfl⟩
  | cons d ds ih =>
    have hpaid := Call.payTimeout_of_cons h
    obtain ⟨evs, c', hcourse, hall, hlen, hdone, hpoll⟩ := ih (c := c.payTimeout) (by rw [hpaid])
    refine ⟨_, c', (Course.refl.tail (.payTimeout h)).trans hcourse, ?_, ?_, hdone, ?_⟩
    · simp [hall, Event.gives]
    · simp [hlen]
    · rw [hpoll, hpaid]
      rfl

/-- A deadline gives all notices that it holds, and tells the poll to stop before that. -/
theorem exists_course_deadline (c : Call T) (s : Standing) :
    ∃ evs c', Course Step ⟨c, s⟩ evs ⟨c', s⟩ ∧ evs.all Event.gives = true ∧
      evs.length ≤ c.deadline.owed.length + 1 ∧ c'.deadline.owed = [] ∧ c'.poll = c.poll := by
  cases h : c.deadline with
  | drained ds =>
    have hstopped := Call.stopPoll_of_drained h
    have htelling : c.stopPoll.deadline = .telling ds := by rw [hstopped]
    obtain ⟨evs, c', hcourse, hall, hlen, hdone, hpoll⟩ := exists_course_telling (s := s) htelling
    refine ⟨_, c', (Course.refl.tail (.stopPoll h)).trans hcourse, ?_, ?_, by rw [hdone]; rfl, ?_⟩
    · simp [hall, Event.gives]
    · simp [hlen, Deadline.owed]
    · rw [hpoll, hstopped]
  | telling ds =>
    obtain ⟨evs, c', hcourse, hall, hlen, hdone, hpoll⟩ := exists_course_telling (s := s) h
    exact ⟨evs, c', hcourse, hall, by simp [hlen, Deadline.owed], by rw [hdone]; rfl, hpoll⟩
  | _ => exact ⟨[], c, .refl, rfl, Nat.zero_le _, by rw [h]; rfl, rfl⟩

/-- Notices that are held are given with at most one step besides. -/
theorem exists_course_giving (w : Scene T) :
    ∃ evs w', Course Step w evs w' ∧ evs.all Event.gives = true ∧
      evs.length ≤ w.call.owed.length + 1 ∧ w'.call.owed = [] := by
  obtain ⟨c, s⟩ := w
  have hsum : c.owed.length = c.poll.owed.length + c.deadline.owed.length := List.length_append
  obtain ⟨evs, c', hcourse, hall, hlen, hdone, hpoll⟩ := exists_course_deadline c s
  cases hp : c.poll with
  | owing d rest =>
    have hp' : c'.poll = .owing d rest := hpoll.trans hp
    refine ⟨_, _, hcourse.tail (.pay hp'), ?_, ?_, ?_⟩
    · simp [hall, Event.gives]
    · simp only [List.length_append, List.length_singleton, hsum, hp, Poll.owed]
      omega
    · rw [Call.pay_of_owing hp']
      simpa [Call.owed, Poll.owed, Call.tell] using hdone
  | _ =>
    refine ⟨evs, ⟨c', s⟩, hcourse, hall, ?_, ?_⟩
    · simp only [hsum]
      omega
    · simpa [Call.owed, hpoll, hp, Poll.owed] using hdone

/-! ## Finished calls -/

theorem Step.owed_subset (h : Step w ev w') (hw : Orderly timed w) (ha : w.call.active = []) :
    w'.call.owed ⊆ w.call.owed := by
  intro d hd
  rcases List.mem_append.mp hd with hd | hd
  · exact List.mem_append_left _ ((h.winding hw ha).owed_subset hd)
  · exact List.mem_append_right _ (h.deadline_owed_subset ha hd)

/-- Once nothing is active, nobody takes another notice to give. -/
theorem Course.owed_subset (hw : Orderly timed w) (ha : w.call.active = [])
    (h : Course Step w evs w') : w'.call.active = [] ∧ w'.call.owed ⊆ w.call.owed := by
  have hinv : Orderly timed w' ∧ w'.call.active = [] ∧ w'.call.owed ⊆ w.call.owed := by
    refine h.invariant
      (P := fun _ w' => Orderly timed w' ∧ w'.call.active = [] ∧ w'.call.owed ⊆ w.call.owed)
      ⟨hw, ha, List.Subset.refl _⟩ ?_
    rintro evs w₁ ev w₂ ⟨hw₁, ha₁, hsub⟩ next
    exact ⟨next.orderly hw₁, next.active_eq_nil ha₁,
      List.Subset.trans (next.owed_subset hw₁ ha₁) hsub⟩
  exact hinv.2

section Accepted

variable [Watchable T] {targets : List T} {maxWait : Option Nat} {active : List (Entry T)}
  {s : Standing}

/-- The keys of a call without a notice are those that are active and those whose notice is held. -/
theorem Course.unpublished_perm (ha : Service.accept targets maxWait = .ok active)
    (h : Course Step ⟨.prepare active maxWait.isSome, s⟩ evs w) :
    (w.call.unpublished (targets.map Watchable.key).dedup).Perm
      (w.call.active.map Entry.key ++ w.call.owed.map Delivery.key) := by
  obtain ⟨-, -, rfl⟩ := Service.accept_eq_ok_iff.mp ha
  have hkeys := Call.nodup_map_key_collect targets
  have hperm : (targets.map Watchable.key).dedup.Perm w.call.ledger :=
    ((h.ledger_perm hkeys).trans (Call.map_key_collect_perm targets)).symm
  rw [← Call.filter_ledger (h.nodup_ledger hkeys)]
  exact hperm.filter _

/-- **What is outstanding when a call is finished.**  Whatever order the steps of a call are taken
in, the objects without a notice are the active ones and those whose notice is held by the poll or
by the deadline; so they are no more than the active ones only while no notice is held.  A call that
is finished stays so, what is outstanding then was held when it finished, and it can be given in so
many steps and at most one more, with no round and no reading in between. -/
theorem Course.outstanding_when_finished (ha : Service.accept targets maxWait = .ok active)
    (h : Course Step ⟨.prepare active maxWait.isSome, s⟩ evs w) :
    (w.call.unpublished (targets.map Watchable.key).dedup).Perm
      (w.call.active.map Entry.key ++ w.call.owed.map Delivery.key) ∧
    ((w.call.unpublished (targets.map Watchable.key).dedup).length ≤ w.call.remaining ↔
      w.call.owed = []) ∧
    (w.call.isFinished = true →
      (∀ evs' w', Course Step w evs' w' → w'.call.isFinished = true ∧
        w'.call.unpublished (targets.map Watchable.key).dedup ⊆ w.call.owed.map Delivery.key) ∧
      ∃ evs' w', Course Step w evs' w' ∧ evs'.all Event.gives = true ∧
        evs'.length ≤ w.call.owed.length + 1 ∧
        w'.call.unpublished (targets.map Watchable.key).dedup = []) := by
  have hperm := Course.unpublished_perm ha h
  refine ⟨hperm, ?_, fun hfin => ?_⟩
  · have hlen := hperm.length_eq
    rw [List.length_append, List.length_map, List.length_map] at hlen
    rw [hlen, Call.remaining, ← List.length_eq_zero_iff]
    omega
  · have hnil : w.call.active = [] := List.isEmpty_iff.mp hfin
    -- Nobody takes out another object, so all that is outstanding later is held now.
    have hlater : ∀ evs' w', Course Step w evs' w' →
        w'.call.active = [] ∧ w'.call.owed ⊆ w.call.owed ∧
        (w'.call.unpublished (targets.map Watchable.key).dedup).Perm
          (w'.call.owed.map Delivery.key) := by
      intro evs' w' h'
      obtain ⟨ha', howed⟩ := h'.owed_subset h.orderly hnil
      have hperm' := Course.unpublished_perm ha (h.trans h')
      rw [ha', List.map_nil, List.nil_append] at hperm'
      exact ⟨ha', howed, hperm'⟩
    constructor
    · intro evs' w' h'
      obtain ⟨ha', howed, hperm'⟩ := hlater evs' w' h'
      exact ⟨List.isEmpty_iff.mpr ha', List.Subset.trans hperm'.subset (List.map_subset _ howed)⟩
    · obtain ⟨evs', w', h', hall, hlen, hnone⟩ := exists_course_giving w
      obtain ⟨-, -, hperm'⟩ := hlater evs' w' h'
      rw [hnone, List.map_nil] at hperm'
      exact ⟨evs', w', h', hall, hlen, hperm'.eq_nil⟩

end Accepted

/-- A call is finished while the poll holds the notice of one task and the deadline that of the
other. -/
theorem both_outstanding :
    ∃ evs w, Course Step ⟨.prepare (Call.collect twins) true, .running⟩ evs w ∧
      w.call.isFinished = true ∧ w.call.poll.owed.map Delivery.key = ["a"] ∧
      w.call.deadline.owed.map Delivery.key = ["b"] ∧
      ∃ evs' w', Course Step w evs' w' ∧ evs'.all Event.gives = true ∧ evs'.length ≤ 3 ∧
        w'.call.unpublished (twins.map Watchable.key).dedup = [] := by
  have h : Course Step ⟨.prepare (Call.collect twins) true, .running⟩ [] _ := .refl
  have h := (((h.tail .advance).tail .advance).tail .advance).tail .advance
  have h := ((h.tail (.beginRound rfl)).tail (.ask rfl)).tail
    (.answer (some (.create "a" .deploy 2, .done)) rfl)
  have h := (h.tail (.settle rfl)).tail (.expire rfl)
  have ha : Service.accept twins (some 5) = .ok (Call.collect twins) := rfl
  exact ⟨_, _, h, rfl, rfl, rfl, ((Course.outstanding_when_finished ha h).2.2 rfl).2⟩

/-- **A call is finished before it has given any notice.**  Nobody has closed the scheduler, and the
one who looks has got the call; the deadline has come and gives its notices next. -/
theorem finished_before_notices :
    ∃ evs w, Course Step ⟨.prepare (Call.collect twins) true, .running⟩ evs w ∧
      Service.accept twins (some 5) = .ok (Call.collect twins) ∧
      w.standing = .running ∧ w.call.opening = .begun ∧
      w.call.isFinished = true ∧ w.call.published = [] ∧
      w.call.remaining < (w.call.unpublished (twins.map Watchable.key).dedup).length := by
  have h : Course Step ⟨.prepare (Call.collect twins) true, .running⟩ [] _ := .refl
  have h := (((h.tail .advance).tail .advance).tail .advance).tail .advance
  have h := h.tail (.expire rfl)
  exact ⟨_, _, h, rfl, rfl, rfl, rfl, rfl, by decide⟩

end TaskWatch.Monitor
