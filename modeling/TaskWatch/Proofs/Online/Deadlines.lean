import TaskWatch.Proofs.Online.Answers

/-!
# What replies make of tasks, deadline or not

The replies to the requests for a task decide how it ends when there is a deadline, too.  The
deadline gives a task up in the form in which some of the replies, the first ones, have left it; one
that comes later does not count.

* `Client.rereads_tasks`: a reading makes of a task what the reply to its request does, whatever
  form the request was for.  So `Course.fate_of_replies` needs no word on when an object is read.
* `Course.held_by_replies`: a call holds a task as the first of the replies have left it.
* `Law.Tells`: what is told of an object, given the replies for it.  `Course.tells`: a call tells
  that.
* `Client.state_of_ended`: the state of a task that replies have ended.
-/

namespace TaskWatch.Monitor

open TaskWatch.Api
open TaskWatch.Resource

variable {T : Type}

/-! ## Fates -/

/-- What is told of an object that came as `t₀`: how the replies have ended it, or that it was given
up as some of them, the first ones, have left it. -/
def Law.Tells (law : Law T) (t₀ : T) (xs : List Exchange) (t : T) (o : Outcome) : Prop :=
  law.fate t₀ xs = .ended t o ∨
    o = .timeout ∧ ∃ front, front <+: xs ∧ law.fate t₀ front = .held t

theorem exists_held_of_goesOn {rs : List (Option (T × Verdict))} (h : ∀ r ∈ rs, GoesOn r) (t₀ : T) :
    ∃ t, rs.foldl Fate.read (.held t₀) = .held t := by
  induction rs generalizing t₀ with
  | nil => exact ⟨t₀, rfl⟩
  | cons r rs ih =>
    obtain ⟨hr, hrs⟩ := List.forall_mem_cons.mp h
    match r with
    | none => exact ih hrs t₀
    | some (t, v) =>
      obtain rfl : v = .unfinished := hr
      exact ih hrs t

/-- Only the last reading counts when no other one was final. -/
theorem fateOf_of_goesOn {k : String} {evs : List (Event T)} {past : List (Option (T × Verdict))}
    {t : T} {v : Verdict} (hpast : readingsOf k evs = past ++ [some (t, v)])
    (hgo : ∀ r ∈ past, GoesOn r) (t₀ : T) :
    fateOf k t₀ evs = (Fate.held t₀).read (some (t, v)) := by
  obtain ⟨t', ht'⟩ := exists_held_of_goesOn hgo t₀
  rw [fateOf, hpast, List.foldl_append, ht']
  rfl

/-- What a step stores has been read. -/
theorem Step.answered_of_stores {w w' : Scene T} {ev : Event T} {k : String} {t : T}
    (h : Step w ev w') (hs : ev.stores? k = some t) :
    ∃ e rest, e.key = k ∧ w.call.poll = .answered e (some (t, .unfinished)) rest := by
  cases h with
  | @settle c s e r rest hp =>
    generalize c.isActive e.key = live at hs
    rcases r with _ | ⟨t', _ | _ | _⟩ <;> cases live <;> simp [Event.stores?] at hs
    obtain ⟨hk, rfl⟩ := hs
    exact ⟨e, rest, hk, hp⟩
  | _ => cases hs

end TaskWatch.Monitor

namespace TaskWatch.Api.Client

open TaskWatch.Monitor
open TaskWatch.Resource

variable (c : Client)

/-- A reading makes of a task what the reply does, whatever has become of the task. -/
theorem rereads_tasks (f : Fate RemoteTask) (t : RemoteTask) (reply : Reply) :
    c.taskLaw.Rereads (fun net => taskCheck (c.backend net)) f t reply := by
  cases hlink : t.selfLink with
  | none => exact Or.inl (c.taskLaw_governs.unlinked (Option.map_eq_none_iff.mpr hlink) _ _)
  | some link =>
    obtain ⟨hread, hsent⟩ := c.taskCheck_linked (.recording reply) [] hlink
    refine Or.inr ⟨c.request link.href taskMediaType, hsent, ?_⟩
    rw [hread]
    exact c.taskLaw_next f reply

/-- A task that has ended has the final state that its end says. -/
theorem state_of_ended {t₀ t : RemoteTask} {xs : List Exchange} {o : Outcome}
    (h : c.taskLaw.fate t₀ xs = .ended t o) :
    o = .completed ∧ t.state = .finishedSuccessfully ∨
      o = .failed ∧ t.state = .finishedUnsuccessfully := by
  induction xs using List.reverseRecOn with
  | nil => cases h
  | append_singleton xs x ih =>
    rw [Law.fate_concat] at h
    generalize c.taskLaw.fate t₀ xs = f at h ih
    cases f with
    | ended => exact ih h
    | held =>
      simp only [Law.next, taskLaw] at h
      split at h
      · cases h
      · rename_i fresh _
        split at h <;> cases h
        · exact Or.inl ⟨rfl, ‹_›⟩
        · exact Or.inr ⟨rfl, ‹_›⟩

end TaskWatch.Api.Client

namespace TaskWatch.Monitor

open TaskWatch.Api
open TaskWatch.Resource

/-! ## Courses -/

section Courses

variable {c : Client} {targets : List RemoteTask} {timed : Bool} {s : Standing}
  {w₀ w : Scene RemoteTask} {log : List (Event RemoteTask × List Exchange)} {k : String}
  {t₀ : RemoteTask}

/-- What the replies make of a task is what its readings do. -/
theorem Course.fate_of_replies
    (h : Course (Online.Step fun net => taskCheck (c.backend net)) w₀ log w) (k : String)
    (t₀ : RemoteTask) :
    c.taskLaw.fate t₀ (exchangesOf k log) = fateOf k t₀ (log.map Prod.fst) :=
  h.fate_of_rereads fun _ _ _ => c.rereads_tasks _ _ _

/-- A call holds a task as the first of the replies have left it. -/
theorem Course.held_by_replies (hk : Call.lastWith k targets = some t₀)
    (h : Course (Online.Step fun net => taskCheck (c.backend net))
      ⟨.prepare (Call.collect targets) timed, s⟩ log w) {t : RemoteTask}
    (ht : heldAfter targets k (log.map Prod.fst) = some t) :
    ∃ front, front <+: exchangesOf k log ∧ c.taskLaw.fate t₀ front = .held t := by
  induction h generalizing t with
  | refl =>
    obtain rfl : t₀ = t := Option.some.inj (hk.symm.trans ht)
    exact ⟨[], List.nil_prefix, rfl⟩
  | @tail log w w' x prior next ih =>
    rw [List.map_append, List.map_singleton, heldAfter_concat] at ht
    obtain ⟨ev, sent⟩ := x
    have hlonger := exchangesOf_prefix_append k log [(ev, sent)]
    cases hstored : ev.stores? k with
    | none =>
      rw [hstored, Option.none_or] at ht
      obtain ⟨front, hfront, hheld⟩ := ih ht
      exact ⟨front, hfront.trans hlonger, hheld⟩
    | some t' =>
      rw [hstored, Option.some_or] at ht
      obtain rfl := Option.some.inj ht
      refine ⟨exchangesOf k log, hlonger, ?_⟩
      rw [prior.fate_of_replies]
      -- What is stored was read just now, and no reading before was final.
      obtain ⟨e, rest, rfl, hp⟩ := next.offline.answered_of_stores hstored
      obtain ⟨past, hpast, hgo⟩ :=
        prior.offline.faithful.unfinished e.key (Or.inr (by simp [hp, Poll.entries]))
      simp only [hp, Poll.news, if_true] at hpast
      exact fateOf_of_goesOn hpast hgo t₀

/-- **A call tells what the replies say.**  Whatever order its steps are taken in, with a deadline
or without one, a notice of a task tells what the replies to the requests for it have made of it. -/
theorem Course.tells
    (h : Course (Online.Step fun net => taskCheck (c.backend net))
      ⟨.prepare (Call.collect targets) timed, s⟩ log w)
    {d : Delivery RemoteTask} (hd : d ∈ w.call.published)
    (hk : Call.lastWith d.key targets = some t₀) :
    c.taskLaw.Tells t₀ (exchangesOf d.key log) d.target d.outcome := by
  have hdeserved := h.offline.faithful.deserved d (List.mem_append_right _ hd)
  obtain ⟨k, t, o⟩ := d
  cases o with
  | completed | failed =>
    obtain ⟨past, hpast, hgo⟩ := hdeserved
    refine Or.inl ?_
    rw [h.fate_of_replies]
    exact fateOf_of_goesOn hpast hgo t₀
  | timeout =>
    obtain ⟨before, active, after, hsplit, -, hheld⟩ := hdeserved
    obtain ⟨log₁, log₂, rfl, rfl, -⟩ := List.map_eq_append_iff.mp hsplit
    obtain ⟨w₁, hprior, -⟩ := h.split
    obtain ⟨front, hfront, hfate⟩ := hprior.held_by_replies hk hheld
    exact Or.inr ⟨rfl, front, hfront.trans (exchangesOf_prefix_append k log₁ log₂), hfate⟩

end Courses

end TaskWatch.Monitor
