import TaskWatch.Api.Backend
import TaskWatch.Api.Settings
import TaskWatch.Text.Quoted

/-!
# Asking over a network

A client turns a question into a request and a reply into an answer.  How requests are carried is up
to a `Network`; over each of them `Client.backend` is a backend.
-/

namespace TaskWatch.Api

open TaskWatch.Json (Codec)
open TaskWatch.Resource
open TaskWatch.Text

/-! ## Networks -/

structure Request where
  url : String
  /-- The media type of the document. -/
  accept : String
  username : String
  password : String
deriving DecidableEq, Repr

inductive Reply where
  | nothing
  /-- A status and the body, unless it broke off. -/
  | document (status : UInt16) (body : Option String)
deriving DecidableEq, Repr

/-- A way of sending requests, with states in `σ`. -/
structure Network (σ : Type) where
  send : Request → σ → Reply × σ

def Network.unreachable : Network Unit := ⟨fun _ _ => (.nothing, ())⟩

/-! ## Clients -/

structure Client where
  /-- The address of the server, without slashes at its end. -/
  endpoint : String
  username : String
  password : String
deriving DecidableEq, Repr

def taskMediaType : String := "application/vnd.abiquo.task+json"

def tasksMediaType : String := "application/vnd.abiquo.tasks+json"

def stateMediaType : String := "application/vnd.abiquo.virtualmachinestate+json"

def Reply.answer {α : Type} (codec : Codec α) (url : String) : Reply → Except Error α
  | .nothing => .error .noAnswer
  | .document status body =>
    if status = 404 then .error (.notFound url)
    else if 200 ≤ status ∧ status < 300 then
      match body with
      | none => .error .noAnswer
      | some text => (codec.decode text).mapError .undecodable
    else .error (.status status (body.getD ""))

namespace Client

/-- A client with acceptable settings. -/
def connect (s : Settings) : Except Error Client := do
  s.check
  .ok ⟨trimEndSlashes s.endpoint, s.username, s.password⟩

/-- The address that a link means. -/
def resolve (c : Client) (href : String) : String :=
  if isAbsolute href then href else c.endpoint ++ "/" ++ trimFrontSlashes href

/-- A description of a client, without the password. -/
def description (c : Client) : String :=
  "AbiquoClient \x7b endpoint: " ++ quoted c.endpoint ++ ", username: " ++ quoted c.username
    ++ ", .. \x7d"

def fetch {σ α : Type} (c : Client) (net : Network σ) (codec : Codec α) (mediaType href : String) :
    Answer σ α := fun s =>
  let url := c.resolve href
  let (reply, s) := net.send ⟨url, mediaType, c.username, c.password⟩ s
  (reply.answer codec url, s)

def fetchTask {σ : Type} (c : Client) (net : Network σ) (href : String) : Answer σ RemoteTask :=
  c.fetch net RemoteTask.codec taskMediaType href

def readTask {σ : Type} (c : Client) (net : Network σ) (t : RemoteTask) : Answer σ RemoteTask :=
  match t.selfLink with
  | none => fun s => (.error (.missingLink ("task " ++ t.id) relSelf), s)
  | some link => c.fetchTask net link.href

/-- Asks for the state of a machine below its link to itself. -/
def readState {σ : Type} (c : Client) (net : Network σ) (m : Machine) : Answer σ MachineState :=
  match m.selfLink with
  | none => fun s => (.error (.missingLink ("virtual machine " ++ Machine.idText m.id) relSelf), s)
  | some link => fun s =>
    let (r, s) :=
      c.fetch net MachineReading.codec stateMediaType (trimEndSlashes link.href ++ "/state") s
    (r.map (·.state), s)

def tasksOf {σ : Type} (c : Client) (net : Network σ) (owner : String) :
    Answer σ (List RemoteTask) := fun s =>
  let (r, s) := c.fetch net TaskPage.codec tasksMediaType (trimEndSlashes owner ++ "/tasks") s
  (r.map (·.tasks), s)

def backend {σ : Type} (c : Client) (net : Network σ) : Backend σ :=
  ⟨c.readTask net, c.readState net, c.tasksOf net⟩

end Client
end TaskWatch.Api
