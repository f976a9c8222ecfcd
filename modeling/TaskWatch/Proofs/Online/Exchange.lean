import TaskWatch.Api.Client
import TaskWatch.Monitor.Check
import TaskWatch.Proofs.Call.Fates

/-!
# Requests and replies

What a client asks for an object, and what a reply makes of it, said without the network that is
between them.

* `Exchange`: a request with its reply.
* `Reply.decoded?`: the replies that have something to say.  All others are the same to a call.
* `Law`: which request an object calls for, and what the reply to it makes of the object.
* `Client.taskLaw`, `Client.machineLaw`: the laws for tasks and for machines.
* `Client.taskLaw_governs`, `Client.machineLaw_governs`: over each network the checks keep them.
-/

namespace TaskWatch.Api

open TaskWatch.Json (Codec)

structure Exchange where
  request : Request
  reply : Reply
deriving DecidableEq, Repr

/-- A network that gives one reply to all requests and writes them down. -/
def Network.recording (reply : Reply) : Network (List Exchange) :=
  ⟨fun request log => (reply, log ++ [⟨request, reply⟩])⟩

/-- What a reply says: it has a status of success and a body that can be decoded, or it says
nothing. -/
def Reply.decoded? {α : Type} (codec : Codec α) : Reply → Option α
  | .document status (some text) =>
    if 200 ≤ status ∧ status < 300 then (codec.decode text).toOption else none
  | _ => none

/-- Why there is no answer in a reply does not matter. -/
theorem Reply.toOption_answer {α : Type} (codec : Codec α) (url : String) (reply : Reply) :
    (reply.answer codec url).toOption = reply.decoded? codec := by
  cases reply with
  | nothing => rfl
  | document status body =>
    unfold Reply.answer
    by_cases hmissing : status = 404
    · subst hmissing
      cases body <;> simp [Reply.decoded?, Except.toOption]
    · by_cases hok : 200 ≤ status ∧ status < 300
      · cases body with
        | none => simp [Reply.decoded?, hmissing, hok, Except.toOption]
        | some text =>
          simp only [Reply.decoded?, hmissing, hok, if_false, if_true, and_self]
          cases codec.decode text <;> rfl
      · cases body <;> simp [Reply.decoded?, hmissing, hok, Except.toOption]

def Client.request (c : Client) (href mediaType : String) : Request :=
  ⟨c.resolve href, mediaType, c.username, c.password⟩

end TaskWatch.Api

namespace TaskWatch.Monitor

open TaskWatch.Api

/-! ## Laws -/

/-- Which request an object calls for, if any, and what the reply makes of the object. -/
structure Law (T : Type) where
  request? : T → Option Request
  after : T → Reply → Fate T

namespace Law

variable {T : Type}

def next (law : Law T) : Fate T → Reply → Fate T
  | .held t, reply => law.after t reply
  | .ended t o, _ => .ended t o

/-- What replies make of an object, one after another. -/
def fate (law : Law T) (t₀ : T) (xs : List Exchange) : Fate T :=
  xs.foldl (fun f x => law.next f x.reply) (.held t₀)

theorem fate_concat (law : Law T) (t₀ : T) (xs : List Exchange) (x : Exchange) :
    law.fate t₀ (xs ++ [x]) = law.next (law.fate t₀ xs) x.reply := by
  simp [fate]

/-- A check keeps a law: over each network it sends the request that the object calls for, or none,
and its reading makes of the object what the law says. -/
structure Governs (law : Law T) (check : {σ : Type} → Network σ → Check σ T) : Prop where
  unlinked : ∀ {t}, law.request? t = none → ∀ {σ : Type} (net : Network σ) (s : σ),
    (check net t s).1.toOption = none ∧ (check net t s).2 = s
  linked : ∀ {t q}, law.request? t = some q → ∀ {σ : Type} (net : Network σ) (s : σ),
    (Fate.held t).read (check net t s).1.toOption = law.after t (net.send q s).1 ∧
    (check net t s).2 = (net.send q s).2

end Law
end TaskWatch.Monitor

namespace TaskWatch.Api.Client

open TaskWatch.Monitor
open TaskWatch.Resource
open TaskWatch.Text (trimEndSlashes)

/-! ## Tasks and machines -/

/-- A task is asked for by its first link to itself.  It ends by a reply in which it has a final
state; one in which it has another state stores it in that form, and every other reply leaves it as
it is. -/
def taskLaw (c : Client) : Law RemoteTask where
  request? t := t.selfLink.map fun link => c.request link.href taskMediaType
  after t reply :=
    match reply.decoded? RemoteTask.codec with
    | none => .held t
    | some fresh =>
      match fresh.state with
      | .pending | .started => .held fresh
      | .finishedSuccessfully => .ended fresh .completed
      | .finishedUnsuccessfully => .ended fresh .failed

/-- The state of a machine is asked for below its first link to itself.  The machine ends by a reply
with the state that is waited for, or with an unknown state; one with another state stores that, and
every other reply leaves the machine as it is. -/
def machineLaw (c : Client) (goal : MachineState) : Law Machine where
  request? m := m.selfLink.map fun link =>
    c.request (trimEndSlashes link.href ++ "/state") stateMediaType
  after m reply :=
    match reply.decoded? MachineReading.codec with
    | none => .held m
    | some reading =>
      let fresh := { m with state := reading.state }
      if reading.state = goal then .ended fresh .completed
      else if reading.state = .unknown then .ended fresh .failed
      else .held fresh

section Checks

variable {σ : Type} (c : Client) (net : Network σ) (s : σ) {link : Link}

theorem taskCheck_linked {t : RemoteTask} (hlink : t.selfLink = some link) :
    (taskCheck (c.backend net) t s).1.toOption =
        ((net.send (c.request link.href taskMediaType) s).1.decoded? RemoteTask.codec).map
          (fun fresh => (fresh, taskVerdict fresh.state)) ∧
      (taskCheck (c.backend net) t s).2 = (net.send (c.request link.href taskMediaType) s).2 := by
  have hread : c.readTask net t = c.fetchTask net link.href := by simp [readTask, hlink]
  constructor
  · show ((c.readTask net t s).1.map _).toOption = _
    rw [hread, toOption_map]
    exact congrArg _ (Reply.toOption_answer _ _ _)
  · show (c.readTask net t s).2 = _
    rw [hread]
    rfl

theorem machineCheck_linked {m : Machine} (goal : MachineState) (hlink : m.selfLink = some link) :
    (machineCheck (c.backend net) goal m s).1.toOption =
        ((net.send (c.request (trimEndSlashes link.href ++ "/state") stateMediaType) s).1.decoded?
          MachineReading.codec).map
          (fun fresh => ({ m with state := fresh.state }, machineVerdict goal fresh.state)) ∧
      (machineCheck (c.backend net) goal m s).2 =
        (net.send (c.request (trimEndSlashes link.href ++ "/state") stateMediaType) s).2 := by
  constructor
  · show ((c.readState net m s).1.map _).toOption = _
    simp only [readState, hlink, toOption_map, Option.map_map]
    exact congrArg _ (Reply.toOption_answer _ _ _)
  · show (c.readState net m s).2 = _
    simp only [readState, hlink]
    rfl

end Checks

/-- The task in a reply decides, whatever has become of the one that was asked for. -/
theorem taskLaw_next (c : Client) (f : Fate RemoteTask) (reply : Reply) :
    f.read ((reply.decoded? RemoteTask.codec).map fun fresh => (fresh, taskVerdict fresh.state)) =
      c.taskLaw.next f reply := by
  cases f with
  | ended => rfl
  | held t =>
    simp only [Law.next, taskLaw]
    cases reply.decoded? RemoteTask.codec with
    | none => rfl
    | some fresh => cases h : fresh.state <;> simp [Fate.read, taskVerdict, Verdict.outcome?, h]

theorem taskLaw_governs (c : Client) : c.taskLaw.Governs fun net => taskCheck (c.backend net) where
  unlinked := by
    intro t hq σ net s
    have hlink : t.selfLink = none := Option.map_eq_none_iff.mp hq
    simp [taskCheck, backend, readTask, hlink, Except.map, Except.toOption]
  linked := by
    intro t q hq σ net s
    obtain ⟨link, hlink, rfl⟩ := Option.map_eq_some_iff.mp hq
    obtain ⟨hread, hsent⟩ := c.taskCheck_linked net s hlink
    refine ⟨?_, hsent⟩
    rw [hread]
    exact c.taskLaw_next (.held t) _

theorem machineLaw_governs (c : Client) (goal : MachineState) :
    (c.machineLaw goal).Governs fun net => machineCheck (c.backend net) goal where
  unlinked := by
    intro m hq σ net s
    have hlink : m.selfLink = none := Option.map_eq_none_iff.mp hq
    simp [machineCheck, backend, readState, hlink, Except.map, Except.toOption]
  linked := by
    intro m q hq σ net s
    obtain ⟨link, hlink, rfl⟩ := Option.map_eq_some_iff.mp hq
    obtain ⟨hread, hsent⟩ := c.machineCheck_linked net s goal hlink
    refine ⟨?_, hsent⟩
    simp only [hread, machineLaw]
    cases (net.send _ s).1.decoded? MachineReading.codec with
    | none => rfl
    | some reading =>
      by_cases hgoal : reading.state = goal
      · simp [Fate.read, machineVerdict, Verdict.outcome?, hgoal]
      · by_cases hlost : reading.state = .unknown
        · simp [Fate.read, machineVerdict, Verdict.outcome?, hlost, hlost ▸ hgoal]
        · simp [Fate.read, machineVerdict, Verdict.outcome?, hgoal, hlost]

end TaskWatch.Api.Client
