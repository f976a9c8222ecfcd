import TaskWatch.Monitor.Service
import TaskWatch.Proofs.Json.RoundTrip
import TaskWatch.Proofs.Online.Exchange

/-!
# Calls over a network

A call whose readings come over a network, where each request may get any reply.  Without a deadline
the replies for an object, one after another, decide what becomes of it and what is asked next.

* `Online.Step`: the steps of a call with the requests that each of them sends.
* `Course.offline`: what a call goes through online is a course of its own.
* `exchangesOf`: the requests for one object, with the replies.
* `Course.fate_of_rereads`: the replies make of an object what its readings do, if each reading does
  what its reply says (`Law.Rereads`).
* `Law.Obeyed`: what a law says of a course, an object at a time.
* `Course.obeys`: a call whose check keeps a law obeys it.
* `Client.replies_decide`: what this comes to for the tasks and the machines of a client.
-/

namespace TaskWatch.Monitor

open TaskWatch.Api
open TaskWatch.Resource

variable {T : Type}

/-! ## Steps online -/

def Event.isAnswered : Event T → Bool
  | .answered _ _ => true
  | _ => false

/-- The steps of a call online, each with what it sends. -/
inductive Online.Step (check : {σ : Type} → Network σ → Check σ T) :
    Scene T → Event T × List Exchange → Scene T → Prop
  | other {w w' : Scene T} {ev : Event T} (h : Monitor.Step w ev w') (hev : ev.isAnswered = false) :
      Step check w (ev, []) w'
  /-- Any reply is possible, and a reading comes from it. -/
  | read {w w' : Scene T} {e : Entry T} (reply : Reply)
      (h : Monitor.Step w (.answered e (check (.recording reply) e.target []).1.toOption) w') :
      Step check w (.answered e (check (.recording reply) e.target []).1.toOption,
        (check (.recording reply) e.target []).2) w'

/-- The requests for an object, with the replies. -/
def exchangesOf (k : String) (log : List (Event T × List Exchange)) : List Exchange :=
  log.flatMap fun x => if (x.1.reading? k).isSome then x.2 else []

theorem exchangesOf_concat (k : String) (log : List (Event T × List Exchange)) (ev : Event T)
    (sent : List Exchange) : exchangesOf k (log ++ [(ev, sent)]) =
      exchangesOf k log ++ if (ev.reading? k).isSome then sent else [] := by
  simp [exchangesOf]

theorem exchangesOf_prefix_append (k : String) (log more : List (Event T × List Exchange)) :
    exchangesOf k log <+: exchangesOf k (log ++ more) := by
  rw [exchangesOf, exchangesOf, List.flatMap_append]
  exact List.prefix_append _ _

theorem Event.reading?_of_isAnswered_eq_false {ev : Event T} (h : ev.isAnswered = false)
    (k : String) :
    ev.reading? k = none := by
  cases ev with
  | answered => cases h
  | _ => rfl

theorem concat_eq_append_cons {α : Type} {xs before after : List α} {x y : α}
    (h : xs ++ [x] = before ++ y :: after) :
    (before = xs ∧ y = x) ∨ ∃ after', xs = before ++ y :: after' := by
  rcases List.eq_nil_or_concat after with rfl | ⟨after', z, rfl⟩
  · obtain ⟨rfl, hy⟩ := List.append_inj' h rfl
    exact Or.inl ⟨rfl, (List.singleton_inj.mp hy).symm⟩
  · have h' : xs ++ [x] = (before ++ y :: after') ++ [z] := by simpa using h
    exact Or.inr ⟨after', (List.append_inj' h' rfl).1⟩

/-! ## What a law says -/

section Laws

variable (law : Law T) (check : {σ : Type} → Network σ → Check σ T)

/-- What a law says of a course and of the object that came as `t₀` under the key `k`. -/
structure Law.Obeyed (k : String) (t₀ : T) (log : List (Event T × List Exchange)) (w : Scene T) :
    Prop where
  /-- Each request is the one that the object calls for in the form that the replies before have
  left it in; none comes after its end. -/
  requests : ∀ before x after, exchangesOf k log = before ++ x :: after →
    ∃ t, law.fate t₀ before = .held t ∧ law.request? t = some x.request
  /-- The call shows what the replies have made of the object, once the last one has been acted
  on. -/
  shows : w.call.settle.pay.Shows k (law.fate t₀ (exchangesOf k log))
  /-- One more reading sends what the object calls for, and changes nothing but the object. -/
  reads : ∀ e r sent w', e.key = k → Online.Step check w (.answered e r, sent) w' →
    law.fate t₀ (exchangesOf k log) = .held e.target ∧
    (law.request? e.target = none ∧ sent = [] ∧
        w'.call.settle.pay.active = w.call.active ∧
        w'.call.settle.pay.published = w.call.published ∨
      ∃ q reply, law.request? e.target = some q ∧ sent = [⟨q, reply⟩] ∧
        w.call.Became w'.call.settle.pay k (law.after e.target reply) ∧
        (law.after e.target reply = .held e.target →
          w'.call.settle.pay.active = w.call.active))

end Laws

variable {law : Law T} {check : {σ : Type} → Network σ → Check σ T}
  {w₀ w w' : Scene T} {log : List (Event T × List Exchange)}

theorem Online.Step.offline {x : Event T × List Exchange} (h : Online.Step check w x w') :
    Monitor.Step w x.1 w' := by
  cases h with
  | other h => exact h
  | read reply h => exact h

/-- A reading comes in that is known. -/
theorem Online.Step.of_reading {c : Call T} {s : Standing} {e : Entry T} {rest : List (Entry T)}
    {r : Option (T × Verdict)} (reply : Reply) (hp : c.poll = .reading e rest)
    (hr : (check (.recording reply) e.target []).1.toOption = r) :
    Online.Step check ⟨c, s⟩ (.answered e r, (check (.recording reply) e.target []).2)
      ⟨c.answer r, s⟩ := by
  subst hr
  exact .read reply (.answer _ hp)

/-- What a call goes through online is a course of its own. -/
theorem Course.offline (h : Course (Online.Step check) w₀ log w) :
    Course Step w₀ (log.map Prod.fst) w := by
  induction h with
  | refl => exact .refl
  | tail _ next ih =>
    rw [List.map_append]
    exact ih.tail next.offline

/-- What one reading of an object sends, and what it makes of the object. -/
theorem Law.Governs.recording (hg : law.Governs check) (t : T) (reply : Reply) :
    law.request? t = none ∧ (check (.recording reply) t []).1.toOption = none ∧
      (check (.recording reply) t []).2 = [] ∨
    ∃ q, law.request? t = some q ∧ (check (.recording reply) t []).2 = [⟨q, reply⟩] ∧
      (Fate.held t).read (check (.recording reply) t []).1.toOption = law.after t reply := by
  cases hq : law.request? t with
  | none => exact Or.inl ⟨rfl, hg.unlinked hq _ _⟩
  | some q =>
    obtain ⟨hread, hsent⟩ := hg.linked hq (.recording reply) []
    exact Or.inr ⟨q, rfl, hsent, hread⟩

/-- A reading of `t` sends nothing and fails, or it makes of a fate what the reply does. -/
def Law.Rereads (law : Law T) (check : {σ : Type} → Network σ → Check σ T) (f : Fate T) (t : T)
    (reply : Reply) : Prop :=
  (check (.recording reply) t []).1.toOption = none ∧ (check (.recording reply) t []).2 = [] ∨
    ∃ q, (check (.recording reply) t []).2 = [⟨q, reply⟩] ∧
      f.read (check (.recording reply) t []).1.toOption = law.next f reply

/-- The replies make of an object what its readings do, if each reading does what its reply says. -/
theorem Course.fate_of_rereads {k : String} {t₀ : T} (h : Course (Online.Step check) w₀ log w)
    (hread : ∀ {log₁ w₁ w₂ e reply}, Course (Online.Step check) w₀ log₁ w₁ →
      Monitor.Step w₁ (.answered e (check (.recording reply) e.target []).1.toOption) w₂ →
      e.key = k → law.Rereads check (fateOf k t₀ (log₁.map Prod.fst)) e.target reply) :
    law.fate t₀ (exchangesOf k log) = fateOf k t₀ (log.map Prod.fst) := by
  induction h with
  | refl => rfl
  | tail prior next ih =>
    rw [List.map_append, List.map_singleton, fateOf_concat, ← ih]
    cases next with
    | other h hev =>
      have hnone := Event.reading?_of_isAnswered_eq_false hev k
      simp [exchangesOf_concat, hnone]
    | @read _ e reply h =>
      rw [exchangesOf_concat]
      by_cases hek : e.key = k
      · have hrereads := hread prior h hek
        rw [← ih] at hrereads
        rcases hrereads with ⟨hnone, hsent⟩ | ⟨q, hsent, hnext⟩
        · simp [Event.reading?, hek, hnone, hsent]
        · simp [Event.reading?, hek, hsent, Law.fate_concat, hnext]
      · simp [Event.reading?, hek]

/-! ## Calls without a deadline -/

section Accepted

variable [Watchable T] {targets : List T} {s : Standing} {k : String} {t₀ : T}

/-- What the replies make of an object is what its readings make of it. -/
theorem Course.fate_exchangesOf (hg : law.Governs check) (hk : Call.lastWith k targets = some t₀)
    (h : Course (Online.Step check) ⟨.prepare (Call.collect targets) false, s⟩ log w) :
    law.fate t₀ (exchangesOf k log) = fateOf k t₀ (log.map Prod.fst) := by
  refine h.fate_of_rereads fun {_ _ _ e reply} prior next hek => ?_
  subst hek
  rw [prior.offline.reads_held next hk]
  rcases hg.recording e.target reply with ⟨-, hread, hsent⟩ | ⟨q, -, hsent, hread⟩
  · exact Or.inl ⟨hread, hsent⟩
  · exact Or.inr ⟨q, hsent, hread⟩

theorem Course.requests (hg : law.Governs check) (hk : Call.lastWith k targets = some t₀)
    (h : Course (Online.Step check) ⟨.prepare (Call.collect targets) false, s⟩ log w) :
    ∀ before x after, exchangesOf k log = before ++ x :: after →
      ∃ t, law.fate t₀ before = .held t ∧ law.request? t = some x.request := by
  induction h with
  | refl =>
    intro before x after hsplit
    simp [exchangesOf] at hsplit
  | @tail log w w' x prior next ih =>
    intro before y after hsplit
    cases next with
    | other h hev =>
      rw [exchangesOf_concat, ite_self, List.append_nil] at hsplit
      exact ih before y after hsplit
    | @read _ e reply h =>
      rw [exchangesOf_concat] at hsplit
      by_cases hek : e.key = k
      · subst hek
        rcases hg.recording e.target reply with ⟨-, -, hsent⟩ | ⟨q, hq, hsent, -⟩
        · rw [hsent, ite_self, List.append_nil] at hsplit
          exact ih before y after hsplit
        · simp only [Event.reading?, if_true, Option.isSome_some, hsent] at hsplit
          rcases concat_eq_append_cons hsplit with ⟨rfl, rfl⟩ | ⟨after', hbefore⟩
          · refine ⟨e.target, ?_, hq⟩
            rw [prior.fate_exchangesOf hg hk]
            exact prior.offline.reads_held h hk
          · exact ih before y after' hbefore
      · simp only [Event.reading?, hek, if_false, Option.isSome_none, Bool.false_eq_true,
          List.append_nil] at hsplit
        exact ih before y after hsplit

/-- A call whose check keeps a law obeys it. -/
theorem Course.obeys (hg : law.Governs check) (hk : Call.lastWith k targets = some t₀)
    (h : Course (Online.Step check) ⟨.prepare (Call.collect targets) false, s⟩ log w) :
    law.Obeyed check k t₀ log w where
  requests := h.requests hg hk
  shows := by
    rw [h.fate_exchangesOf hg hk]
    exact h.offline.shows hk
  reads := by
    intro e r sent w' hek next
    subst hek
    have hheld := h.offline.reads_held next.offline hk
    have hbecame := h.offline.became next.offline hk
    refine ⟨(h.fate_exchangesOf hg hk).trans hheld, ?_⟩
    cases next with
    | other _ hev => cases hev
    | read reply _ =>
      rcases hg.recording e.target reply with ⟨hq, hread, hsent⟩ | ⟨q, hq, hsent, hread⟩
      · rw [hread] at hbecame
        exact Or.inl ⟨hq, hsent, hbecame.2 rfl, hbecame.1.2⟩
      · rw [hread] at hbecame
        exact Or.inr ⟨q, reply, hq, hsent, hbecame⟩

end Accepted

end TaskWatch.Monitor

namespace TaskWatch.Api

/-- A text that has been written is the answer in a reply. -/
theorem Reply.answer_encode {α : Type} {codec : Json.Codec α} (hc : codec.ReadsBack) (a : α)
    (url : String) : (Reply.document 200 (some (codec.encode a))).answer codec url = .ok a := by
  have hok : (200 : UInt16) ≤ 200 ∧ (200 : UInt16) < 300 := by decide
  simp [Reply.answer, hok, hc.decode_encode, Except.mapError]

namespace Client

open TaskWatch.Monitor
open TaskWatch.Resource

/-! ## Tasks and machines -/

/-- **Replies decide.**  Whatever order the steps of a call without a deadline are taken in and
whatever the replies to its requests are: a task is asked for by the link that it has in the form
that the replies before have left it in; it stays active, in that form, up to the first reply that
decodes to a final state, and then ends as that state says; a reply that does not decode leaves
everything as it is, and so does a task without a link, for which nothing is sent.  The same goes
for machines, with the state that is waited for. -/
theorem replies_decide (c : Client) :
    (∀ {targets active s log w k t₀},
      Service.accept targets none = .ok active → Call.lastWith k targets = some t₀ →
      Course (Online.Step fun net => taskCheck (c.backend net)) ⟨.prepare active false, s⟩ log w →
      c.taskLaw.Obeyed (fun net => taskCheck (c.backend net)) k t₀ log w) ∧
    (∀ {goal targets active s log w k m₀},
      Service.accept targets none = .ok active → Call.lastWith k targets = some m₀ →
      Course (Online.Step fun net => machineCheck (c.backend net) goal)
        ⟨.prepare active false, s⟩ log
        w →
      (c.machineLaw goal).Obeyed (fun net => machineCheck (c.backend net) goal) k m₀ log w) := by
  constructor
  · intro targets active s log w k t₀ ha hk h
    obtain ⟨-, -, rfl⟩ := Service.accept_eq_ok_iff.mp ha
    exact h.obeys c.taskLaw_governs hk
  · intro goal targets active s log w k m₀ ha hk h
    obtain ⟨-, -, rfl⟩ := Service.accept_eq_ok_iff.mp ha
    exact h.obeys (c.machineLaw_governs goal) hk

theorem fetchTask_written (c : Client) (href : String) (t : RemoteTask) :
    (c.fetchTask (.recording (.document 200 (some (RemoteTask.codec.encode t)))) href []).1 =
      .ok t := by
  simp only [fetchTask, fetch, Network.recording, Reply.answer_encode readsBack_task]

/-- A reply with a written task is read as this task. -/
theorem taskCheck_written (c : Client) {t : RemoteTask} {link : Link}
    (hlink : t.selfLink = some link) (fresh : RemoteTask) :
    (taskCheck (c.backend (.recording (.document 200 (some (RemoteTask.codec.encode fresh))))) t
      []).1.toOption = some (fresh, taskVerdict fresh.state) := by
  rw [(c.taskCheck_linked _ [] hlink).1, ← Reply.toOption_answer _ "", Network.recording,
    Reply.answer_encode readsBack_task]
  rfl

/-- A reply with a written state is read as this state. -/
theorem machineCheck_written (c : Client) {m : Machine} {link : Link} (goal : MachineState)
    (hlink : m.selfLink = some link) (fresh : MachineReading) :
    (machineCheck
      (c.backend (.recording (.document 200 (some (MachineReading.codec.encode fresh)))))
      goal m []).1.toOption =
      some ({ m with state := fresh.state }, machineVerdict goal fresh.state) := by
  rw [(c.machineCheck_linked _ [] goal hlink).1, ← Reply.toOption_answer _ "", Network.recording,
    Reply.answer_encode readsBack_reading]
  rfl

def atHome : Client := ⟨"http://localhost/api", "admin", ""⟩

def linkedTask (href : String) (state : TaskState) : RemoteTask :=
  ((RemoteTask.create "a" .deploy 0).addLink ⟨relSelf, href, none, none⟩).withState state

def linkedMachine (state : MachineState) : Machine :=
  { Machine.create 7 "m" with state, links := [⟨relSelf, "machines/7/", none, none⟩] }

/-- A task cannot be found once, has moved, and has failed at its new place; a machine has been
deployed. -/
theorem replies_decide_after_moving :
    (∃ log w, Course (Online.Step fun net => taskCheck (atHome.backend net))
        ⟨.prepare (Call.collect [linkedTask "tasks/1" .pending]) false, .running⟩ log w ∧
      (exchangesOf "a" log).map (·.request.url) = ["http://localhost/api/tasks/1",
        "http://localhost/api/tasks/1", "http://localhost/api/tasks/2"] ∧
      w.call.published = [⟨"a", linkedTask "tasks/2" .finishedUnsuccessfully, .failed⟩] ∧
      atHome.taskLaw.Obeyed (fun net => taskCheck (atHome.backend net)) "a"
        (linkedTask "tasks/1" .pending) log w) ∧
    (∃ log w, Course (Online.Step fun net => machineCheck (atHome.backend net) deployed)
        ⟨.prepare [⟨"7", linkedMachine .off⟩] false, .running⟩ log w ∧
      (exchangesOf "7" log).map (·.request.url) = ["http://localhost/api/machines/7/state"] ∧
      w.call.published = [⟨"7", linkedMachine .on, .completed⟩] ∧
      (atHome.machineLaw deployed).Obeyed
        (fun net => machineCheck (atHome.backend net) deployed) "7"
        (linkedMachine .off) log w) := by
  constructor
  · have h : Course (Online.Step fun net => taskCheck (atHome.backend net))
        ⟨.prepare (Call.collect [linkedTask "tasks/1" .pending]) false, .running⟩ [] _ := .refl
    have h := ((h.tail (.other .advance rfl)).tail (.other .advance rfl)).tail
      (.other .advance rfl)
    have h := (h.tail (.other (.beginRound rfl) rfl)).tail (.other (.ask rfl) rfl)
    have h := ((h.tail (.of_reading (r := none) (.document 404 none) rfl rfl)).tail
      (.other (.settle rfl) rfl)).tail (.other (.endRound rfl) rfl)
    have h := (h.tail (.other (.beginRound rfl) rfl)).tail (.other (.ask rfl) rfl)
    have h := ((h.tail (.of_reading _ rfl (atHome.taskCheck_written rfl
      (linkedTask "tasks/2" .started)))).tail (.other (.settle rfl) rfl)).tail
      (.other (.endRound rfl) rfl)
    have h := (h.tail (.other (.beginRound rfl) rfl)).tail (.other (.ask rfl) rfl)
    have h := ((h.tail (.of_reading _ rfl (atHome.taskCheck_written rfl
      (linkedTask "tasks/2" .finishedUnsuccessfully)))).tail (.other (.settle rfl) rfl)).tail
      (.other (.pay rfl) rfl)
    have ha : Service.accept [linkedTask "tasks/1" .pending] none = .ok _ := rfl
    exact ⟨_, _, h, rfl, rfl, atHome.replies_decide.1 ha rfl h⟩
  · have hkey : Watchable.key (linkedMachine .off) = "7" := by
      show Decimal.natText 7 = "7"
      rw [Decimal.natText, Decimal.digits]
      rfl
    have ha : Service.accept [linkedMachine .off] none = .ok [⟨"7", linkedMachine .off⟩] := by
      rw [← hkey]
      rfl
    have hk : Call.lastWith "7" [linkedMachine .off] = some (linkedMachine .off) := by
      simp [Call.lastWith, hkey]
    have h : Course (Online.Step fun net => machineCheck (atHome.backend net) deployed)
        ⟨.prepare [⟨"7", linkedMachine .off⟩] false, .running⟩ [] _ := .refl
    have h := ((h.tail (.other .advance rfl)).tail (.other .advance rfl)).tail
      (.other .advance rfl)
    have h := (h.tail (.other (.beginRound rfl) rfl)).tail (.other (.ask rfl) rfl)
    have h := ((h.tail (.of_reading _ rfl (atHome.machineCheck_written deployed rfl ⟨.on⟩))).tail
      (.other (.settle rfl) rfl)).tail (.other (.pay rfl) rfl)
    exact ⟨_, _, h, rfl, rfl, atHome.replies_decide.2 ha hk h⟩

end Client
end TaskWatch.Api
