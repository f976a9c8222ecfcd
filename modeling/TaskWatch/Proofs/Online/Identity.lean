import TaskWatch.Proofs.Online.Answers

/-!
# Objects under their keys

A call keeps its objects under the keys that they came with.  What is read of an object takes its
place under that key, whatever key it has itself.

* `Call.Has`, `Call.Keyed`: the objects that a caller sees, and that each of them has the key it is
  under.
* `Course.has`: such an object was given with its key, or was read for it.
* `Course.keyed`: a check that gives back what has the same key keeps all objects under their keys.
* `Client.given_or_decoded`: a task under a key was given with it, or came in a reply for it.
* `Client.objects_under_keys`: the checks of machines do that, and those of tasks leave it to the
  server.
* `Client.another_task_comes_back`: where the server gives back another task.
-/

namespace TaskWatch.Monitor

open TaskWatch.Api
open TaskWatch.Resource

variable {T : Type}

/-- An object is under a key: it is active, or there is a notice of it, which the call owes, has
given or has brought to a callback. -/
def Call.Has (c : Call T) (k : String) (t : T) : Prop :=
  ⟨k, t⟩ ∈ c.active ∨ ∃ o, ⟨k, t, o⟩ ∈ c.owed ++ c.published ++ c.delivered

variable [Watchable T]

/-- All objects are under the keys that they have. -/
def Call.Keyed (c : Call T) : Prop := ∀ k t, c.Has k t → Watchable.key t = k

/-! ## Where objects come from -/

section Offline

variable {targets : List T} {timed : Bool} {s : Standing} {evs : List (Event T)} {w w' : Scene T}
  {k : String} {t : T}

/-- A reading that has been acted on was read before. -/
theorem Course.mem_readingsOf_of_settled {e : Entry T} {r : Option (T × Verdict)} {live : Bool}
    (h : Course Step ⟨.prepare (Call.collect targets) timed, s⟩ evs w)
    (hev : .settled e r live ∈ evs) : r ∈ readingsOf e.key evs := by
  obtain ⟨before, after, rfl⟩ := List.append_of_mem hev
  obtain ⟨w₁, w₂, hprior, hnext⟩ := h.step_of_append_cons
  have hlast := hprior.faithful.getLast?_readingsOf hnext
  rw [readingsOf, List.filterMap_append]
  exact List.mem_append_left _ (List.mem_of_getLast? hlast)

/-- An object that was held at some time was given, or was read. -/
theorem Course.read_of_heldAfter {before : List (Event T)}
    (h : Course Step ⟨.prepare (Call.collect targets) timed, s⟩ evs w) (hsub : before ⊆ evs)
    (hheld : heldAfter targets k before = some t) :
    Call.lastWith k targets = some t ∨ ∃ v, some (t, v) ∈ readingsOf k evs := by
  unfold heldAfter at hheld
  cases hlast : (before.filterMap (Event.stores? k)).getLast? with
  | none =>
    rw [hlast] at hheld
    exact Or.inl hheld
  | some x =>
    rw [hlast] at hheld
    obtain rfl : x = t := Option.some_inj.mp hheld
    obtain ⟨ev, hev, hstores⟩ := List.mem_filterMap.mp (List.mem_of_getLast? hlast)
    refine Or.inr ⟨.unfinished, ?_⟩
    unfold Event.stores? at hstores
    split at hstores
    · split at hstores
      · rename_i e t' hk
        obtain rfl := Option.some_inj.mp hstores
        subst hk
        exact h.mem_readingsOf_of_settled (hsub hev)
      · cases hstores
    · cases hstores

/-- **Objects come from somewhere.**  What is under a key was given with it, or was read for it. -/
theorem Course.has (h : Course Step ⟨.prepare (Call.collect targets) timed, s⟩ evs w)
    (hhas : w.call.Has k t) :
    Call.lastWith k targets = some t ∨ ∃ v, some (t, v) ∈ readingsOf k evs := by
  rcases hhas with hactive | ⟨o, hd⟩
  · exact h.read_of_heldAfter (List.Subset.refl _) (h.faithful.held _ hactive)
  · have hd : ⟨k, t, o⟩ ∈ w.call.owed ++ w.call.published := by
      rcases List.mem_append.mp hd with hd | hd
      · exact hd
      · exact List.mem_append_right _ (h.callbacksKept.delivered_subset hd)
    have hdeserved := h.faithful.deserved _ hd
    cases o with
    | completed =>
      obtain ⟨past, hpast, -⟩ := hdeserved
      exact Or.inr ⟨.done, by simp [hpast]⟩
    | failed =>
      obtain ⟨past, hpast, -⟩ := hdeserved
      exact Or.inr ⟨.failed, by simp [hpast]⟩
    | timeout =>
      obtain ⟨before, active, after, rfl, -, hheld⟩ := hdeserved
      exact h.read_of_heldAfter (List.subset_append_left _ _) hheld

/-- An object that is being read was given, or was read before. -/
theorem Course.has_of_answered {e : Entry T} {r : Option (T × Verdict)}
    (h : Course Step ⟨.prepare (Call.collect targets) timed, s⟩ evs w)
    (hnext : Step w (.answered e r) w') :
    Call.lastWith e.key targets = some e.target ∨
      ∃ v, some (e.target, v) ∈ readingsOf e.key evs := by
  cases hnext with
  | answer _ hp =>
    obtain ⟨before, active, after, rfl, -, -, hheld⟩ :=
      h.faithful.inRound e (by simp [hp, Poll.entries])
    exact h.read_of_heldAfter (List.subset_append_left _ _) hheld

theorem Call.key_of_lastWith (h : Call.lastWith k targets = some t) : Watchable.key t = k :=
  Call.key_of_mem_collect (e := ⟨k, t⟩) (Call.mem_collect.mpr h)

theorem Course.keyed_of_readings (h : Course Step ⟨.prepare (Call.collect targets) timed, s⟩ evs w)
    (hread : ∀ k t v, some (t, v) ∈ readingsOf k evs → Watchable.key t = k) : w.call.Keyed := by
  intro k t hhas
  rcases h.has hhas with hgiven | ⟨v, hv⟩
  · exact Call.key_of_lastWith hgiven
  · exact hread k t v hv

omit [Watchable T] in
/-- A reading that is acted on while its object is active puts what was read under the key of the
object. -/
theorem Step.has_of_settled {e : Entry T} {v : Verdict}
    (h : Step w (.settled e (some (t, v)) true) w') :
    w'.call.Has e.key t := by
  generalize hev : Event.settled e (some (t, v)) true = ev at h
  cases h.change with
  | settle hp hc =>
    obtain ⟨rfl, rfl, hlive⟩ := Event.settled.inj hev
    cases hc with
    | unfinished =>
      have hk := Call.isActive_iff.mp hlive.symm
      exact Or.inl (Call.mem_refreshKey.mpr (Or.inr ⟨rfl, rfl, hk⟩))
    | taken _ _ o =>
      refine Or.inr ⟨o, List.mem_append_left _ (List.mem_append_left _ ?_)⟩
      exact List.mem_append_left _ List.mem_cons_self
    | gone _ _ _ _ ha => exact absurd (hlive.trans ha) (by decide)
  | _ => cases hev

end Offline

/-! ## Online -/

section Online

variable {check : {σ : Type} → Network σ → Check σ T} {log : List (Event T × List Exchange)}
  {targets : List T} {timed : Bool} {s : Standing} {w₀ w : Scene T} {k : String}

omit [Watchable T] in
/-- A reading comes in by a step in which its object is asked for. -/
theorem Online.Step.exists_answered {x : Event T × List Exchange} {r : Option (T × Verdict)}
    (h : Online.Step check w₀ x w) (hr : r ∈ (x.1.reading? k).toList) :
    ∃ e reply, e.key = k ∧ r = (check (.recording reply) e.target []).1.toOption ∧
      x.2 = (check (.recording reply) e.target []).2 ∧ Monitor.Step w₀ (.answered e r) w := by
  cases h with
  | other h hev =>
    rw [Event.reading?_of_isAnswered_eq_false hev] at hr
    cases hr
  | @read _ e reply h =>
    by_cases hk : e.key = k
    · have hr : r = (check (.recording reply) e.target []).1.toOption := by
        simpa [Event.reading?, hk] using hr
      exact ⟨e, reply, hk, hr, rfl, hr ▸ h⟩
    · simp [Event.reading?, hk] at hr

omit [Watchable T] in
/-- What was read came from a reply to one of the requests for its object. -/
theorem Course.mem_readingsOf (h : Course (Online.Step check) w₀ log w) {r : Option (T × Verdict)}
    (hr : r ∈ readingsOf k (log.map Prod.fst)) :
    ∃ t reply, r = (check (.recording reply) t []).1.toOption ∧
      (check (.recording reply) t []).2 ⊆ exchangesOf k log := by
  induction h with
  | refl => cases hr
  | @tail log w w' x prior next ih =>
    rw [List.map_append, List.map_singleton, readingsOf_concat] at hr
    rcases List.mem_append.mp hr with hr | hnew
    · obtain ⟨t, reply, hread, hsent⟩ := ih hr
      refine ⟨t, reply, hread, List.Subset.trans hsent ?_⟩
      simp [exchangesOf]
    · obtain ⟨e, reply, -, hread, hsent, -⟩ := next.exists_answered hnew
      have hsome : (x.1.reading? k).isSome := Option.isSome_iff_exists.mpr ⟨r, by simpa using hnew⟩
      refine ⟨e.target, reply, hread, ?_⟩
      rw [exchangesOf_concat, if_pos hsome, hsent]
      exact List.subset_append_right _ _

/-- A check gives back objects with the keys of those that it was asked about. -/
def KeepsKeys (check : {σ : Type} → Network σ → Check σ T) : Prop :=
  ∀ {σ : Type} (net : Network σ) (m : T) (s : σ) {t : T} {v : Verdict},
    (check net m s).1.toOption = some (t, v) → Watchable.key t = Watchable.key m

/-- With such a check all objects are under their keys all along. -/
theorem Course.keyed (hc : KeepsKeys check)
    (h : Course (Online.Step check) ⟨.prepare (Call.collect targets) timed, s⟩ log w) :
    w.call.Keyed := by
  refine h.offline.keyed_of_readings ?_
  induction h with
  | refl =>
    intro k t v hr
    cases hr
  | @tail log w w' x prior next ih =>
    intro k t v hr
    rw [List.map_append, List.map_singleton, readingsOf_concat] at hr
    rcases List.mem_append.mp hr with hr | hnew
    · exact ih k t v hr
    · obtain ⟨e, reply, rfl, hread, -, hstep⟩ := next.exists_answered hnew
      rw [hc _ _ _ hread.symm]
      -- What was asked about is itself as it was given, or from a reading before.
      rcases prior.offline.has_of_answered hstep with hgiven | ⟨v', hbefore⟩
      · exact Call.key_of_lastWith hgiven
      · exact ih e.key e.target v' hbefore

end Online

end TaskWatch.Monitor

namespace TaskWatch.Api.Client

open TaskWatch.Monitor
open TaskWatch.Resource

/-! ## Tasks and machines -/

/-- The state of a machine is all that is read of it. -/
theorem keepsKeys_machines (c : Client) (goal : MachineState) :
    KeepsKeys fun net => machineCheck (c.backend net) goal := by
  intro σ net m s t v h
  have h : (((c.readState net m s).1.map fun state =>
      ({ m with state }, machineVerdict goal state)).toOption) = some (t, v) := h
  rw [toOption_map] at h
  obtain ⟨state, -, hm⟩ := Option.map_eq_some_iff.mp h
  obtain ⟨rfl, -⟩ := Prod.mk.inj hm
  rfl

/-- What is read of a task is what a reply to the request for it says. -/
theorem decoded_of_taskCheck (c : Client) {t fresh : RemoteTask} {v : Verdict} {reply : Reply}
    (h : (taskCheck (c.backend (.recording reply)) t []).1.toOption = some (fresh, v)) :
    reply.decoded? RemoteTask.codec = some fresh ∧
      ∃ x ∈ (taskCheck (c.backend (.recording reply)) t []).2, x.reply = reply := by
  cases hlink : t.selfLink with
  | none =>
    have hquiet : c.taskLaw.request? t = none := Option.map_eq_none_iff.mpr hlink
    rw [(c.taskLaw_governs.unlinked hquiet (.recording reply) []).1] at h
    cases h
  | some link =>
    obtain ⟨hread, hsent⟩ := c.taskCheck_linked (.recording reply) [] hlink
    rw [hread] at h
    obtain ⟨fresh', hfresh, hv⟩ := Option.map_eq_some_iff.mp h
    obtain ⟨rfl, -⟩ := Prod.mk.inj hv
    refine ⟨hfresh, ⟨c.request link.href taskMediaType, reply⟩, ?_, rfl⟩
    rw [hsent]
    exact List.mem_cons_self

section Replies

variable {c : Client} {targets : List RemoteTask} {timed : Bool} {s : Standing}
  {w₀ w : Scene RemoteTask} {log : List (Event RemoteTask × List Exchange)} {k : String}
  {t : RemoteTask}

theorem decoded_of_mem_readingsOf
    (h : Course (Online.Step fun net => taskCheck (c.backend net)) w₀ log w) {v : Verdict}
    (hr : some (t, v) ∈ readingsOf k (log.map Prod.fst)) :
    ∃ x ∈ exchangesOf k log, x.reply.decoded? RemoteTask.codec = some t := by
  obtain ⟨asked, reply, hread, hsent⟩ := h.mem_readingsOf hr
  obtain ⟨hdecoded, x, hx, hreply⟩ := c.decoded_of_taskCheck hread.symm
  exact ⟨x, hsent hx, hreply ▸ hdecoded⟩

/-- A task under a key was given with it, or is what a reply to one of the requests for it says. -/
theorem given_or_decoded
    (h : Course (Online.Step fun net => taskCheck (c.backend net))
      ⟨.prepare (Call.collect targets) timed, s⟩ log w)
    (hhas : w.call.Has k t) :
    Call.lastWith k targets = some t ∨
      ∃ x ∈ exchangesOf k log, x.reply.decoded? RemoteTask.codec = some t := by
  rcases h.offline.has hhas with hgiven | ⟨v, hv⟩
  · exact Or.inl hgiven
  · exact Or.inr (decoded_of_mem_readingsOf h hv)

end Replies

/-- **Objects under their keys.**  Whatever the replies are and whatever order the steps of a call
are taken in, with a deadline or without one: all machines are under the keys that they have.  What
is under a key for a task was given with that key, or is what a reply to one of the requests for it
says; so all tasks are under the keys that they have as long as each such reply is about the task
that was asked for.  Nothing sees to that: a reply about another task, acted on while the one that
was asked for is active, takes its place. -/
theorem objects_under_keys (c : Client) {maxWait : Option Nat} {s : Standing} :
    (∀ {goal targets active log w}, Service.accept targets maxWait = .ok active →
      Course (Online.Step fun net => machineCheck (c.backend net) goal)
        ⟨.prepare active maxWait.isSome, s⟩ log w → w.call.Keyed) ∧
    (∀ {targets active log w}, Service.accept targets maxWait = .ok active →
      Course (Online.Step fun net => taskCheck (c.backend net))
        ⟨.prepare active maxWait.isSome, s⟩ log w →
      (∀ k t, w.call.Has k t → Call.lastWith k targets = some t ∨
        ∃ x ∈ exchangesOf k log, x.reply.decoded? RemoteTask.codec = some t) ∧
      ((∀ k, ∀ x ∈ exchangesOf k log, ∀ t, x.reply.decoded? RemoteTask.codec = some t → t.id = k) →
        w.call.Keyed) ∧
      ∀ e t v w', Step w (.settled e (some (t, v)) true) w' →
        w'.call.Has e.key t ∧ (t.id ≠ e.key → ¬ w'.call.Keyed)) := by
  constructor
  · intro goal targets active log w ha h
    obtain ⟨-, -, rfl⟩ := Service.accept_eq_ok_iff.mp ha
    exact h.keyed (c.keepsKeys_machines goal)
  · intro targets active log w ha h
    obtain ⟨-, -, rfl⟩ := Service.accept_eq_ok_iff.mp ha
    refine ⟨fun k t => given_or_decoded h, ?_, ?_⟩
    · intro hids
      refine h.offline.keyed_of_readings fun k t v hr => ?_
      obtain ⟨x, hx, hdecoded⟩ := decoded_of_mem_readingsOf h hr
      exact hids k x hx t hdecoded
    · intro e t v w' next
      exact ⟨next.has_of_settled, fun hne hkeyed => hne (hkeyed _ _ next.has_of_settled)⟩

/-- A task that the link of the task `a` may lead to. -/
def behindLink (id : String) (state : TaskState) : RemoteTask :=
  { linkedTask "tasks/1" state with id }

/-- The task `a` is asked for twice, and what comes back is started first and has finished then. -/
theorem course_behindLink (id : String) :
    ∃ log₁ log₂ w₁ w₂,
      Course (Online.Step fun net => taskCheck (atHome.backend net))
        ⟨.prepare (Call.collect [linkedTask "tasks/1" .pending]) false, .running⟩ log₁ w₁ ∧
      w₁.call.active = [⟨"a", behindLink id .started⟩] ∧
      Course (Online.Step fun net => taskCheck (atHome.backend net))
        ⟨.prepare (Call.collect [linkedTask "tasks/1" .pending]) false, .running⟩ log₂ w₂ ∧
      w₂.call.published = [⟨"a", behindLink id .finishedSuccessfully, .completed⟩] ∧
      w₂.call.delivered = w₂.call.published ∧
      ∀ k, (exchangesOf k log₂).map (·.reply) = if "a" = k then
        [behindLink id .started, behindLink id .finishedSuccessfully].map fun t =>
          .document 200 (some (RemoteTask.codec.encode t)) else [] := by
  have h : Course (Online.Step fun net => taskCheck (atHome.backend net))
      ⟨.prepare (Call.collect [linkedTask "tasks/1" .pending]) false, .running⟩ [] _ := .refl
  have h := ((h.tail (.other .advance rfl)).tail (.other .advance rfl)).tail (.other .advance rfl)
  have h := (h.tail (.other (.beginRound rfl) rfl)).tail (.other (.ask rfl) rfl)
  have h₁ := ((h.tail (.of_reading _ rfl (atHome.taskCheck_written rfl
    (behindLink id .started)))).tail (.other (.settle rfl) rfl)).tail (.other (.endRound rfl) rfl)
  have h₂ := (h₁.tail (.other (.beginRound rfl) rfl)).tail (.other (.ask rfl) rfl)
  have h₂ := (h₂.tail (.of_reading _ rfl (atHome.taskCheck_written rfl
    (behindLink id .finishedSuccessfully)))).tail (.other (.settle rfl) rfl)
  have h₂ := (h₂.tail (.other (.pay rfl) rfl)).tail (.other (.deliver 0 rfl) rfl)
  refine ⟨_, _, _, _, h₁, rfl, h₂, rfl, rfl, fun k => ?_⟩
  by_cases hk : "a" = k
  · subst hk
    rfl
  · have hkey : Watchable.key (linkedTask "tasks/1" .pending) = "a" := rfl
    simp [exchangesOf, Event.reading?, hkey, hk]

/-- The server gives back the task `b` for the task `a`: it is active under the key of the other
one, and then its end is told as that of the other one. -/
theorem another_task_comes_back :
    ∃ log₁ log₂ w₁ w₂,
      Course (Online.Step fun net => taskCheck (atHome.backend net))
        ⟨.prepare (Call.collect [linkedTask "tasks/1" .pending]) false, .running⟩ log₁ w₁ ∧
      w₁.call.active = [⟨"a", behindLink "b" .started⟩] ∧ ¬ w₁.call.Keyed ∧
      Course (Online.Step fun net => taskCheck (atHome.backend net))
        ⟨.prepare (Call.collect [linkedTask "tasks/1" .pending]) false, .running⟩ log₂ w₂ ∧
      w₂.call.delivered = [⟨"a", behindLink "b" .finishedSuccessfully, .completed⟩] ∧
      ¬ w₂.call.Keyed := by
  obtain ⟨log₁, log₂, w₁, w₂, h₁, hactive, h₂, hpublished, hdelivered, -⟩ := course_behindLink "b"
  rw [hpublished] at hdelivered
  refine ⟨log₁, log₂, w₁, w₂, h₁, hactive, fun hkeyed => ?_, h₂, hdelivered, fun hkeyed => ?_⟩
  · have hkey := hkeyed "a" (behindLink "b" .started) (Or.inl (by simp [hactive]))
    exact absurd hkey (by decide)
  · have hkey := hkeyed "a" (behindLink "b" .finishedSuccessfully)
      (Or.inr ⟨.completed, by simp [hdelivered]⟩)
    exact absurd hkey (by decide)

/-- The server gives back the task that it was asked for, and the state of a machine. -/
theorem right_objects_come_back :
    (∃ log w, Course (Online.Step fun net => taskCheck (atHome.backend net))
        ⟨.prepare (Call.collect [linkedTask "tasks/1" .pending]) false, .running⟩ log w ∧
      w.call.delivered = [⟨"a", behindLink "a" .finishedSuccessfully, .completed⟩] ∧
      w.call.Keyed) ∧
    ∃ log w, Course (Online.Step fun net => machineCheck (atHome.backend net) deployed)
        ⟨.prepare [⟨"7", linkedMachine .off⟩] true, .running⟩ log w ∧
      w.call.poll.owed.map (·.target) = [linkedMachine .on] ∧ w.call.Keyed := by
  constructor
  · obtain ⟨-, log, -, w, -, -, h, hpublished, hdelivered, hreplies⟩ := course_behindLink "a"
    have ha : Service.accept [linkedTask "tasks/1" .pending] none = .ok _ := rfl
    obtain ⟨-, hkeyed, -⟩ := atHome.objects_under_keys.2 ha h
    refine ⟨log, w, h, hdelivered.trans hpublished, hkeyed fun k x hx t hdecoded => ?_⟩
    have hmem := List.mem_map_of_mem (f := fun x : Exchange => x.reply) hx
    rw [hreplies k] at hmem
    split at hmem
    · rename_i hk
      obtain ⟨sent, hsent, hreply⟩ := List.mem_map.mp hmem
      rw [← hreply, ← Reply.toOption_answer _ "", Reply.answer_encode readsBack_task] at hdecoded
      obtain rfl := Option.some_inj.mp hdecoded
      rw [List.mem_cons, List.mem_singleton] at hsent
      rcases hsent with rfl | rfl
      · exact hk
      · exact hk
    · cases hmem
  · have hkey : Watchable.key (linkedMachine .off) = "7" := by
      show Decimal.natText 7 = "7"
      rw [Decimal.natText, Decimal.digits]
      rfl
    have ha : Service.accept [linkedMachine .off] (some 1) = .ok [⟨"7", linkedMachine .off⟩] := by
      rw [← hkey]
      rfl
    have h : Course (Online.Step fun net => machineCheck (atHome.backend net) deployed)
        ⟨.prepare [⟨"7", linkedMachine .off⟩] true, .running⟩ [] _ := .refl
    have h := (((h.tail (.other .advance rfl)).tail (.other .advance rfl)).tail
      (.other .advance rfl)).tail (.other .advance rfl)
    have h := (h.tail (.other (.beginRound rfl) rfl)).tail (.other (.ask rfl) rfl)
    have h := (h.tail (.of_reading _ rfl (atHome.machineCheck_written deployed rfl ⟨.on⟩))).tail
      (.other (.settle rfl) rfl)
    exact ⟨_, _, h, rfl, atHome.objects_under_keys.1 ha h⟩

end TaskWatch.Api.Client
