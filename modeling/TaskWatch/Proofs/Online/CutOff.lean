import TaskWatch.Proofs.Json.CutNested
import TaskWatch.Proofs.Online.Answers

/-!
# Replies that break off

A reply of success whose body is the front of the text of a resource says nothing.  Wherever the
text breaks off, reading it fails because it ends too early, and no other fault comes first.  To a
call this is a reading that failed.

* `endsEarly_task`, `endsEarly_page` and others: each kind of resource.
* `Unanswered`: what becomes of the texts of a codec that are cut off.
* `Overlooks`: a check from which a call learns no more than that the text ended too early.
* `Client.cut_off_replies_say_nothing`: what this comes to for tasks, pages, machines and readings,
  and for calls.
-/

namespace TaskWatch.Resource

open TaskWatch.Json

/-! ## Kinds of resources -/

theorem endsWithin_text : Codec.text.EndsWithin := endsEarly_text.endsWithin

theorem endsWithin_optionalText : Codec.text.optional.EndsWithin :=
  endsWithin_text.optional readsBack_text rfl fun _ => by simp [Codec.text, writeText]

theorem endsEarly_link : Link.codec.EndsEarly :=
  endsEarly_record sound_link
    ⟨endsWithin_text, endsWithin_text, endsWithin_optionalText, endsWithin_optionalText, trivial⟩

theorem endsEarly_links : (Codec.list Link.codec).EndsEarly :=
  endsEarly_list readsBack_link endsEarly_link.endsWithin

theorem endsEarly_job : Job.codec.EndsEarly :=
  endsEarly_record sound_job
    ⟨endsWithin_text, endsWithin_optionalText, (endsEarly_choice _).endsWithin, endsWithin_text,
      endsWithin_int64, trivial⟩

theorem endsEarly_jobs : (Codec.record jobsRecord).EndsEarly :=
  endsEarly_record sound_jobs
    ⟨(endsEarly_list readsBack_job endsEarly_job.endsWithin).endsWithin, trivial⟩

theorem endsEarly_task : RemoteTask.codec.EndsEarly :=
  endsEarly_record sound_task
    ⟨endsWithin_text, endsWithin_text, endsWithin_text, (endsEarly_choice _).endsWithin,
      (endsEarly_choice _).endsWithin, endsEarly_jobs.endsWithin, endsWithin_int64,
      endsEarly_links.endsWithin, trivial⟩

theorem endsEarly_page : TaskPage.codec.EndsEarly :=
  endsEarly_record sound_page
    ⟨(endsEarly_list readsBack_task endsEarly_task.endsWithin).endsWithin,
      endsWithin_uint64.optional readsBack_uint64 rfl head?_write_uint64, trivial⟩

theorem endsEarly_machine : Machine.codec.EndsEarly :=
  endsEarly_record sound_machine
    ⟨endsWithin_uint32, endsWithin_text, (endsEarly_choice _).endsWithin,
      endsEarly_links.endsWithin, trivial⟩

theorem endsEarly_reading : MachineReading.codec.EndsEarly :=
  endsEarly_record sound_reading ⟨(endsEarly_choice _).endsWithin, trivial⟩

end TaskWatch.Resource

namespace TaskWatch.Monitor

variable {σ T : Type} {check : Check σ T} {t : T} {s : σ}

/-- A reading that failed lets the poll go on, and changes nothing else. -/
theorem Call.pay_settle_answer_none {c : Call T} {e : Entry T} {rest : List (Entry T)}
    (h : c.poll = .reading e rest) :
    (c.answer none).settle.pay = { c with poll := .between rest } := by
  rw [answer_of_reading none h]
  rfl

/-- A check finds that the text of the reply ends too early, and a call that waits for this reading
goes on with the others as if there had been none. -/
def Overlooks (check : Check σ T) (t : T) (s : σ) : Prop :=
  (check t s).1 = .error (.undecodable .eof) ∧
  ∀ (call : Call T) (key : String) (rest : List (Entry T)), call.poll = .reading ⟨key, t⟩ rest →
    (call.answer (check t s).1.toOption).settle.pay = { call with poll := .between rest }

theorem overlooks_of_error (h : (check t s).1 = .error (.undecodable .eof)) :
    Overlooks check t s := by
  refine ⟨h, fun call key rest hp => ?_⟩
  rw [h]
  exact Call.pay_settle_answer_none hp

end TaskWatch.Monitor

namespace TaskWatch.Api

open TaskWatch.Json
open TaskWatch.Monitor
open TaskWatch.Resource
open TaskWatch.Text (trimEndSlashes)

/-! ## Replies -/

def IsSuccess (status : UInt16) : Prop := 200 ≤ status ∧ status < 300

/-- What becomes of the texts that a codec has written and that are cut off: each one ends too
early, and a reply of success with it has no answer for this reason. -/
def Unanswered {α : Type} (codec : Codec α) : Prop :=
  ∀ (a : α) (front : String), Cut front.toList (codec.encode a).toList →
    codec.decode front = .error .eof ∧
    ∀ url status, IsSuccess status →
      (Reply.document status (some front)).answer codec url = .error (.undecodable .eof)

theorem unanswered {α : Type} {codec : Codec α} (h : codec.EndsEarly) : Unanswered codec := by
  intro a front hcut
  have hread : codec.read front.toList = .error .eof := by
    rw [Codec.encode, String.toList_ofList] at hcut
    exact h a _ hcut
  have hdecode : codec.decode front = .error .eof := by
    rw [Codec.decode, hread]
  refine ⟨hdecode, fun url status hs => ?_⟩
  have hfound : status ≠ 404 := by
    rintro rfl
    exact absurd hs.2 (by decide)
  have hs : 200 ≤ status ∧ status < 300 := hs
  rw [Reply.answer, if_neg hfound, if_pos hs]
  simp only [hdecode]
  rfl

namespace Client

section Fetching

variable {σ : Type} (c : Client) (net : Network σ) (s : σ) {status : UInt16} {front : String}

theorem fetch_cut_off {α : Type} {codec : Codec α} (h : codec.EndsEarly) {a : α}
    (hcut : Cut front.toList (codec.encode a).toList) (hs : IsSuccess status)
    {mediaType href : String}
    (hsend : (net.send (c.request href mediaType) s).1 = .document status (some front)) :
    (c.fetch net codec mediaType href s).1 = .error (.undecodable .eof) := by
  show (net.send (c.request href mediaType) s).1.answer codec (c.resolve href) = _
  rw [hsend]
  exact (unanswered h a front hcut).2 _ _ hs

end Fetching

/-- **Replies that break off say nothing.**  The text written for a task, a page of tasks, a machine
or a reading of one, cut off anywhere, ends too early, and no reply of success with it has an
answer.  A call that asks for a task or for a machine and gets such a reply keeps all its objects
and gives no notice. -/
theorem cut_off_replies_say_nothing :
    Unanswered RemoteTask.codec ∧ Unanswered TaskPage.codec ∧ Unanswered Machine.codec ∧
    Unanswered MachineReading.codec ∧
    ∀ (c : Client) {σ : Type} (net : Network σ) (s : σ) (status : UInt16) (front : String),
      IsSuccess status →
      (∀ (fresh t : RemoteTask) (link : Link),
        Cut front.toList (RemoteTask.codec.encode fresh).toList →
        t.selfLink = some link →
        (net.send (c.request link.href taskMediaType) s).1 = .document status (some front) →
        Overlooks (taskCheck (c.backend net)) t s) ∧
      (∀ (goal : MachineState) (fresh : MachineReading) (m : Machine) (link : Link),
        Cut front.toList (MachineReading.codec.encode fresh).toList → m.selfLink = some link →
        (net.send (c.request (trimEndSlashes link.href ++ "/state") stateMediaType) s).1 =
          .document status (some front) →
        Overlooks (machineCheck (c.backend net) goal) m s) ∧
      (∀ (page : TaskPage) (owner : String), Cut front.toList (TaskPage.codec.encode page).toList →
        (net.send (c.request (trimEndSlashes owner ++ "/tasks") tasksMediaType) s).1 =
          .document status (some front) →
        (c.tasksOf net owner s).1 = .error (.undecodable .eof)) := by
  refine ⟨unanswered endsEarly_task, unanswered endsEarly_page, unanswered endsEarly_machine,
    unanswered endsEarly_reading, fun c σ net s status front hs => ⟨?_, ?_, ?_⟩⟩
  · intro fresh t link hcut hlink hsend
    have hread : (c.readTask net t s).1 = .error (.undecodable .eof) := by
      rw [readTask, hlink]
      exact c.fetch_cut_off net s endsEarly_task hcut hs hsend
    refine overlooks_of_error ?_
    show (c.readTask net t s).1.map _ = _
    rw [hread]
    rfl
  · intro goal fresh m link hcut hlink hsend
    have hread : (c.readState net m s).1 = .error (.undecodable .eof) := by
      rw [readState, hlink]
      show (c.fetch net MachineReading.codec stateMediaType _ s).1.map _ = _
      rw [c.fetch_cut_off net s endsEarly_reading hcut hs hsend]
      rfl
    refine overlooks_of_error ?_
    show (c.readState net m s).1.map _ = _
    rw [hread]
    rfl
  · intro page owner hcut hsend
    show (c.fetch net TaskPage.codec tasksMediaType _ s).1.map _ = _
    rw [c.fetch_cut_off net s endsEarly_page hcut hs hsend]
    rfl

/-- The text of a task that has ended, cut off inside the name of its state. -/
def frontOfTask : String :=
  "\x7b\"taskId\":\"a\",\"ownerId\":\"\",\"userId\":\"\",\"type\":\"DEPLOY\",\"state\":\"FINISHED_"

/-- The text of a page without tasks, cut off inside the word for no total. -/
def frontOfPage : String := "\x7b\"collection\":[],\"totalSize\":nul"

/-- The text of a reading, cut off inside the name of the state `ON`. -/
def frontOfReading : String := "\x7b\"state\":\"O"

theorem cut_frontOfTask : Cut frontOfTask.toList
    (RemoteTask.codec.encode (linkedTask "tasks/1" .finishedSuccessfully)).toList := by
  rw [Codec.encode, String.toList_ofList]
  exact ⟨by decide, by decide⟩

theorem cut_frontOfPage : Cut frontOfPage.toList (TaskPage.codec.encode ⟨[], none⟩).toList := by
  rw [Codec.encode, String.toList_ofList]
  exact ⟨by decide, by decide⟩

theorem cut_frontOfReading :
    Cut frontOfReading.toList (MachineReading.codec.encode ⟨.on⟩).toList := by
  rw [Codec.encode, String.toList_ofList]
  exact ⟨by decide, by decide⟩

/-- A task that has ended well and a machine that has been deployed, and neither is told. -/
theorem ends_go_untold_when_cut_off :
    Cut frontOfTask.toList
      (RemoteTask.codec.encode (linkedTask "tasks/1" .finishedSuccessfully)).toList ∧
    RemoteTask.codec.decode frontOfTask = .error .eof ∧
    Overlooks (taskCheck (atHome.backend (.recording (.document 200 (some frontOfTask)))))
      (linkedTask "tasks/1" .started) [] ∧
    Overlooks (machineCheck (atHome.backend (.recording (.document 200 (some frontOfReading))))
      deployed)
      (linkedMachine .off) [] ∧
    (atHome.tasksOf (.recording (.document 206 (some frontOfPage))) "machines/7/" []).1 =
      .error (.undecodable .eof) := by
  obtain ⟨htask, -, -, -, hclient⟩ := cut_off_replies_say_nothing
  have hok : IsSuccess 200 := by unfold IsSuccess; decide
  have hpartial : IsSuccess 206 := by unfold IsSuccess; decide
  obtain ⟨htasks, -, -⟩ := hclient atHome (.recording (.document 200 (some frontOfTask)))
    [] 200 _ hok
  obtain ⟨-, hmachines, -⟩ :=
    hclient atHome (.recording (.document 200 (some frontOfReading))) [] 200 _ hok
  obtain ⟨-, -, hpages⟩ :=
    hclient atHome (.recording (.document 206 (some frontOfPage))) [] 206 _ hpartial
  exact ⟨cut_frontOfTask, (htask _ _ cut_frontOfTask).1, htasks _ _ _ cut_frontOfTask rfl rfl,
    hmachines deployed _ _ _ cut_frontOfReading rfl rfl, hpages _ _ cut_frontOfPage rfl⟩

end Client
end TaskWatch.Api
