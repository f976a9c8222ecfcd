import TaskWatch.Proofs.Online.Answers
import TaskWatch.Watch.Program

/-!
# The stages of a run

A run of the program step by step: its tasks are fetched in any order, and once they are watched the
steps of the call, its callbacks and the loop that gets their reports come in any order.  Each
request may get any reply, and nobody but the run itself closes the scheduler.

* `Watcher`: a run that watches its tasks.  `Stage`: how far a run has come.
* `Stage.Step`: the steps of a run.  `callLog`: what its call has gone through.
* `Watcher.Sound`: what ties a watcher to the links it began with and to its call.
* `Stage.Step.sound`: every step keeps it.
-/

namespace TaskWatch.Monitor

/-- Whether a poll has been set and has not ended. -/
def Poll.goesOn {T : Type} : Poll T → Bool
  | .unset | .over | .cancelled => false
  | _ => true

def Deadline.goesOn {T : Type} : Deadline T → Bool
  | .unset | .over | .cancelled => false
  | _ => true

end TaskWatch.Monitor

namespace TaskWatch.Watch

open TaskWatch.Api (Client Exchange Network Reply)
open TaskWatch.Monitor
open TaskWatch.Resource

/-! ## Watchers -/

def reportOf (d : Delivery RemoteTask) : Report := ⟨d.target, d.outcome⟩

structure Watcher where
  client : Client
  /-- The tasks that the links led to. -/
  tasks : List RemoteTask
  scene : Scene RemoteTask
  /-- The call has been handed over, and the run gets the reports. -/
  listening : Bool
  /-- What callbacks have sent and the run has not got. -/
  inbox : List (Delivery RemoteTask)
  received : List (Delivery RemoteTask)

namespace Watcher

def begin (client : Client) (tasks : List RemoteTask) (active : List (Entry RemoteTask))
    (timed : Bool) : Watcher :=
  ⟨client, tasks, ⟨.prepare active timed, .running⟩, false, [], []⟩

/-- Who can still send reports: the run itself, which keeps the call with its callback, the poll and
the deadline of the call while they go on, and callbacks that have not run. -/
def senders (p : Watcher) : Nat :=
  p.listening.toNat + p.scene.call.poll.goesOn.toNat + p.scene.call.deadline.goesOn.toNat +
    p.scene.call.pending.length

/-- What the run returns when it has got a report for each task. -/
def tally (p : Watcher) (missing : Nat) : Tally := ⟨p.received.map reportOf, missing⟩

end Watcher

inductive Stage where
  | starting
  /-- With the tasks that have come in, in the order of the links. -/
  | fetching (client : Client) (fetched : List (Option RemoteTask))
  | watching (p : Watcher)
  | returned (p : Watcher) (t : Tally)
  | failed (why : Failure)

inductive Happening where
  | connected
  | fetched (i : Nat) (sent : List Exchange)
  | accepted
  | call (ev : Event RemoteTask) (sent : List Exchange)
  | listened
  | received (d : Delivery RemoteTask)
  | returned
  | gaveUp

/-- Whether an event is one of the call itself: no callback runs and nobody closes the scheduler. -/
def ofCall : Event RemoteTask → Bool
  | .delivered _ | .closing | .shutDown => false
  | _ => true

abbrev tasksOnline (c : Client) {σ : Type} (net : Network σ) : Check σ RemoteTask :=
  taskCheck (c.backend net)

/-! ## Steps -/

inductive Stage.Step (s : Settings) (a : Arguments) : Stage → Happening → Stage → Prop
  | connect {c : Client} (h : Client.connect s.api = .ok c) :
      Step s a .starting .connected (.fetching c (a.tasks.map fun _ => none))
  | unconnected {e : Api.Error} (h : Client.connect s.api = .error e) :
      Step s a .starting .gaveUp (.failed (.client e))
  | fetch {c : Client} {fetched : List (Option RemoteTask)} {i : Nat} {href : String}
      {t : RemoteTask} (reply : Reply) (hi : a.tasks[i]? = some href)
      (hn : fetched[i]? = some none)
      (h : (c.fetchTask (.recording reply) href []).1 = .ok t) :
      Step s a (.fetching c fetched) (.fetched i (c.fetchTask (.recording reply) href []).2)
        (.fetching c (fetched.set i (some t)))
  | unfetched {c : Client} {fetched : List (Option RemoteTask)} {i : Nat} {href : String}
      {e : Api.Error} (reply : Reply) (hi : a.tasks[i]? = some href) (hn : fetched[i]? = some none)
      (h : (c.fetchTask (.recording reply) href []).1 = .error e) :
      Step s a (.fetching c fetched) .gaveUp (.failed (.fetch href e))
  | accept {c : Client} {ts : List RemoteTask} {v : Service Unit} {active : List (Entry RemoteTask)}
      (hv : Service.start s.monitor = .ok v) (h : Service.accept ts (maxWaitMs a) = .ok active) :
      Step s a (.fetching c (ts.map some)) .accepted
        (.watching (.begin c ts active (maxWaitMs a).isSome))
  | unaccepted {c : Client} {ts : List RemoteTask} {e : Monitor.Error}
      (h : ((Service.start s.monitor : Except Monitor.Error (Service Unit)) >>= fun _ =>
        Service.accept ts (maxWaitMs a)) = .error e) :
      Step s a (.fetching c (ts.map some)) .gaveUp (.failed (.monitor e))
  | call {p : Watcher} {ev : Event RemoteTask} {sent : List Exchange} {w : Scene RemoteTask}
      (h : Online.Step (tasksOnline p.client) p.scene (ev, sent) w) (hev : ofCall ev = true) :
      Step s a (.watching p) (.call ev sent) (.watching { p with scene := w })
  /-- A callback runs and sends its report. -/
  | deliver {p : Watcher} {d : Delivery RemoteTask} (i : Nat)
      (h : p.scene.call.pending[i]? = some d) :
      Step s a (.watching p) (.call (.delivered d) []) (.watching { p with
        scene := ⟨p.scene.call.deliver i, p.scene.standing⟩, inbox := p.inbox ++ [d] })
  | listen {p : Watcher} (h : p.listening = false) (ho : p.scene.call.opening = .begun) :
      Step s a (.watching p) .listened (.watching { p with listening := true })
  | unwatched {p : Watcher} (h : p.listening = false) (ho : p.scene.call.opening = .refused) :
      Step s a (.watching p) .gaveUp (.failed (.monitor .closed))
  | receive {p : Watcher} {d : Delivery RemoteTask} {rest : List (Delivery RemoteTask)}
      (hl : p.listening = true) (hw : p.received.length < taskCount p.tasks)
      (h : p.inbox = d :: rest) :
      Step s a (.watching p) (.received d)
        (.watching { p with inbox := rest, received := p.received ++ [d] })
  /-- Nobody can send any more reports: those that are missing count as failures. -/
  | hangUp {p : Watcher} (hl : p.listening = true) (hw : p.received.length < taskCount p.tasks)
      (h : p.inbox = []) (hs : p.senders = 0) :
      Step s a (.watching p) .returned (.returned p (p.tally p.scene.call.remaining))
  | finish {p : Watcher} (hl : p.listening = true) (h : p.received.length = taskCount p.tasks) :
      Step s a (.watching p) .returned (.returned p (p.tally 0))

/-! ## What is kept -/

/-- What a happening is for the call of a run. -/
def Happening.ofCall? : Happening → Option (Event RemoteTask × List Exchange)
  | .call ev sent => some (ev, sent)
  | _ => none

/-- What the call of a run has gone through, with what was sent for it. -/
def callLog (ns : List Happening) : List (Event RemoteTask × List Exchange) :=
  ns.filterMap Happening.ofCall?

theorem callLog_concat (ns : List Happening) (n : Happening) :
    callLog (ns ++ [n]) = callLog ns ++ n.ofCall?.toList := by
  rw [callLog, List.filterMap_append, callLog]
  cases h : n.ofCall? <;> simp [h]

/-- A task came in a reply to a request for the document behind a link. -/
def Fetches (c : Client) (href : String) (t : RemoteTask) : Prop :=
  ∃ reply, (c.fetchTask (.recording reply) href []).1 = .ok t

/-- What ties a watcher to the links it began with and to its call. -/
structure Watcher.Sound (a : Arguments) (ns : List Happening) (p : Watcher) : Prop where
  fetched : List.Forall₂ (Fetches p.client) a.tasks p.tasks
  course : Course (Online.Step (tasksOnline p.client))
    ⟨.prepare (Call.collect p.tasks) (maxWaitMs a).isSome, .running⟩ (callLog ns) p.scene
  sent : p.scene.call.delivered = p.received ++ p.inbox

def Stage.Sound (a : Arguments) (ns : List Happening) : Stage → Prop
  | .starting => callLog ns = []
  | .fetching c fetched => callLog ns = [] ∧
    List.Forall₂ (fun href o => ∀ t, o = some t → Fetches c href t) a.tasks fetched
  | .watching p => p.Sound a ns
  | .returned p t => p.Sound a ns ∧ p.received.length = taskCount p.tasks ∧ t = p.tally 0
  | .failed _ => True

theorem forall₂_set {α β : Type} {R : α → β → Prop} {xs : List α} {ys : List β} {i : Nat} {x : α}
    {y : β} (h : List.Forall₂ R xs ys) (hx : xs[i]? = some x) (hr : R x y) :
    List.Forall₂ R xs (ys.set i y) := by
  induction h generalizing i with
  | nil => simp at hx
  | cons hab hrest ih =>
    cases i with
    | zero =>
      obtain rfl : _ = x := by simpa using hx
      exact .cons hr hrest
    | succ i => exact .cons hab (ih (by simpa using hx))

/-- A call tells nothing more by a step of its own. -/
theorem Watcher.delivered_call {w w' : Scene RemoteTask} {ev : Event RemoteTask}
    (h : Monitor.Step w ev w') (hev : ofCall ev = true) : w'.call.delivered = w.call.delivered := by
  cases h.told with
  | same _ _ _ hd | noticed _ _ _ hd | lost _ _ _ hd => exact hd
  | delivered => cases hev

section Kept

variable {a : Arguments} {ns : List Happening} {p : Watcher}

theorem Watcher.Sound.call {ev : Event RemoteTask} {sent : List Exchange} {w : Scene RemoteTask}
    (hp : p.Sound a ns) (h : Online.Step (tasksOnline p.client) p.scene (ev, sent) w)
    (hev : ofCall ev = true) :
    Watcher.Sound a (ns ++ [.call ev sent]) { p with scene := w } where
  fetched := hp.fetched
  course := by
    rw [callLog_concat]
    exact hp.course.tail h
  sent := (delivered_call h.offline hev).trans hp.sent

theorem Watcher.Sound.deliver {d : Delivery RemoteTask} {i : Nat} (hp : p.Sound a ns)
    (h : p.scene.call.pending[i]? = some d) :
    Watcher.Sound a (ns ++ [.call (.delivered d) []]) { p with
      scene := ⟨p.scene.call.deliver i, p.scene.standing⟩, inbox := p.inbox ++ [d] } where
  fetched := hp.fetched
  course := by
    have next : Online.Step (tasksOnline p.client) p.scene (.delivered d, [])
        ⟨p.scene.call.deliver i, p.scene.standing⟩ := .other (.deliver i h) rfl
    rw [callLog_concat]
    exact hp.course.tail next
  sent := by
    show (p.scene.call.deliver i).delivered = p.received ++ (p.inbox ++ [d])
    rw [Call.deliver_of_pending h, ← List.append_assoc, ← hp.sent]

/-- What is none of the call's business leaves what it has gone through. -/
theorem Watcher.Sound.pass {n : Happening} (hp : p.Sound a ns) (hn : n.ofCall? = none) :
    p.Sound a (ns ++ [n]) where
  fetched := hp.fetched
  course := by
    rw [callLog_concat, hn, Option.toList_none, List.append_nil]
    exact hp.course
  sent := hp.sent

end Kept

/-- A run that listens keeps the call, and so somebody can always send. -/
theorem Watcher.senders_pos {p : Watcher} (h : p.listening = true) : 0 < p.senders := by
  rw [senders, h, Bool.toNat_true]
  omega

theorem Stage.Step.sound {s : Settings} {a : Arguments} {ns : List Happening} {g g' : Stage}
    {n : Happening} (h : Stage.Step s a g n g') (hg : g.Sound a ns) : g'.Sound a (ns ++ [n]) := by
  cases h with
  | connect h =>
    refine ⟨by simp [callLog_concat, show callLog ns = [] from hg, Happening.ofCall?], ?_⟩
    rw [List.forall₂_map_right_iff]
    exact List.forall₂_same.mpr fun _ _ _ ht => nomatch ht
  | fetch reply hi hn h =>
    refine ⟨by simp [callLog_concat, hg.1, Happening.ofCall?], ?_⟩
    refine forall₂_set hg.2 hi fun t ht => ?_
    obtain rfl := Option.some.inj ht
    exact ⟨reply, h⟩
  | @accept c ts v active hv h =>
    obtain ⟨-, -, rfl⟩ := Service.accept_eq_ok_iff.mp h
    have hlog : callLog (ns ++ [.accepted]) = [] := by
      simp [callLog_concat, hg.1, Happening.ofCall?]
    have hfetched : List.Forall₂ (Fetches c) a.tasks ts :=
      (List.forall₂_map_right_iff.mp hg.2).imp fun _ t ht => ht t rfl
    refine ⟨hfetched, ?_, rfl⟩
    rw [hlog]
    exact .refl
  | call h hev => exact Watcher.Sound.call hg h hev
  | deliver i h => exact Watcher.Sound.deliver hg h
  | listen =>
    have hsame := Watcher.Sound.pass hg (n := .listened) rfl
    exact ⟨hsame.fetched, hsame.course, hsame.sent⟩
  | @receive p d rest hl hw h =>
    have hsame := Watcher.Sound.pass hg (n := .received d) rfl
    refine ⟨hsame.fetched, hsame.course, ?_⟩
    show p.scene.call.delivered = p.received ++ [d] ++ rest
    rw [hg.sent, h, List.append_assoc]
    rfl
  | hangUp hl _ _ hs => exact absurd hs (Nat.ne_of_gt (Watcher.senders_pos hl))
  | finish hl h => exact ⟨Watcher.Sound.pass hg rfl, h, rfl⟩
  | unconnected | unfetched | unaccepted | unwatched => trivial

end TaskWatch.Watch
