import Mathlib.Logic.Relation
import TaskWatch.Proofs.Json.Rewording
import TaskWatch.Resource.Task

/-!
# Tasks in other words

Servers of other versions write the same task in other ways: members come in another order, there
are more of them, and some are left out where they say nothing.  They also know operations and
states of jobs that have no name here, but no states of tasks.

* `Link.agrees`, `Job.agrees`, `RemoteTask.agrees`: the texts of tasks are read as their trees are
  taken.
* `RemoteTask.Edit`: what may be changed.  `RemoteTask.keeps`: nothing of this is seen.
* `RemoteTask.has_operation` and the like: fields whose values may be others.  `JobStateSwap`: the
  state of one job.
* `RemoteTask.decode_reworded`: what comes of all this for the texts of tasks.
-/

namespace TaskWatch.Resource

open TaskWatch.Json

/-! ## What the codecs ask for -/

theorem Link.record_agree : Link.record.fields.Agree :=
  ⟨agrees_text, agrees_text, agrees_text.optional, agrees_text.optional, trivial⟩

theorem Job.record_agree : Job.record.fields.Agree :=
  ⟨agrees_text, agrees_text.optional, agrees_choice _, agrees_text, agrees_integer _ _ _, trivial⟩

theorem Job.agrees : Job.codec.Agrees := agrees_record Job.record_agree

theorem Link.agrees : Link.codec.Agrees := agrees_record Link.record_agree

theorem jobsRecord_agree : jobsRecord.fields.Agree := ⟨Job.agrees.list, trivial⟩

theorem RemoteTask.record_agree : RemoteTask.record.fields.Agree :=
  ⟨agrees_text, agrees_text, agrees_text, agrees_choice _, agrees_choice _,
    agrees_record jobsRecord_agree, agrees_integer _ _ _, Link.agrees.list, trivial⟩

theorem RemoteTask.agrees : RemoteTask.codec.Agrees := agrees_record RemoteTask.record_agree

/-! ## Changes that are not seen -/

def Link.memberNames : List String := ["rel", "href", "type", "title"]

/-- A link without a type has none, and so it is with its title. -/
def Link.Defaults (name : String) (V : Tree) : Prop :=
  (name = "type" ∨ name = "title") ∧ Codec.text.optional.Gives V none

def Link.Edit : Tree → Tree → Prop := RecordEdit memberNames Defaults fun _ _ _ => False

def Job.memberNames : List String := ["id", "type", "state", "description", "timestamp"]

/-- A job without a type has none, and one without a description or a time has an empty one or the
time zero. -/
def Job.Defaults (name : String) (V : Tree) : Prop :=
  name = "type" ∧ Codec.text.optional.Gives V none ∨ name = "description" ∧ Codec.text.Gives V "" ∨
    name = "timestamp" ∧ Codec.int64.Gives V 0

def Job.Edit : Tree → Tree → Prop := RecordEdit memberNames Defaults fun _ _ _ => False

/-- What holds the jobs is changed by itself, or in one of the jobs.  Without a collection it holds
none. -/
def JobsEdit : Tree → Tree → Prop :=
  RecordEdit ["collection"] (fun name V => name = "collection" ∧ Job.codec.list.Gives V [])
    fun _ => InList Job.Edit

namespace RemoteTask

def memberNames : List String :=
  ["taskId", "ownerId", "userId", "type", "state", "jobs", "timestamp", "links"]

/-- A task without an owner or a user has an empty one, one without jobs or links has none, and one
without a time has the time zero. -/
def Defaults (name : String) (V : Tree) : Prop :=
  (name = "ownerId" ∨ name = "userId") ∧ Codec.text.Gives V "" ∨
    name = "jobs" ∧ (Codec.record jobsRecord).Gives V [] ∨
      name = "timestamp" ∧ Codec.int64.Gives V 0 ∨
      name = "links" ∧ Link.codec.list.Gives V []

def Inner (name : String) (V V' : Tree) : Prop :=
  name = "jobs" ∧ JobsEdit V V' ∨ name = "links" ∧ InList Link.Edit V V'

/-- A task is changed by itself, in its jobs or in one of its links. -/
def Edit : Tree → Tree → Prop := RecordEdit memberNames Defaults Inner

end RemoteTask

theorem Link.keeps : Link.codec.Keeps Link.Edit := by
  refine keeps_record rfl (by decide) Link.record_agree ?_
    ⟨keeps_nothing, keeps_nothing, keeps_nothing, keeps_nothing, trivial⟩
  rintro name V ⟨rfl | rfl, h⟩
  · exact ⟨_, _, _, _, .tail (by decide) (.tail (by decide) .head), rfl, rfl, h⟩
  · exact ⟨_, _, _, _, .tail (by decide) (.tail (by decide) (.tail (by decide) .head)), rfl, rfl, h⟩

theorem Job.keeps : Job.codec.Keeps Job.Edit := by
  refine keeps_record rfl (by decide) Job.record_agree ?_
    ⟨keeps_nothing, keeps_nothing, keeps_nothing, keeps_nothing, keeps_nothing, trivial⟩
  rintro name V (⟨rfl, h⟩ | ⟨rfl, h⟩ | ⟨rfl, h⟩)
  · exact ⟨_, _, _, _, .tail (by decide) .head, rfl, rfl, h⟩
  · exact ⟨_, _, _, _, .tail (by decide) (.tail (by decide) (.tail (by decide) .head)), rfl, rfl, h⟩
  · exact ⟨_, _, _, _, .tail (by decide)
      (.tail (by decide) (.tail (by decide) (.tail (by decide) .head))), rfl, rfl, h⟩

theorem jobsRecord_keeps : (Codec.record jobsRecord).Keeps JobsEdit := by
  refine keeps_record rfl (by decide) jobsRecord_agree ?_ ⟨Job.keeps.list, trivial⟩
  rintro name V ⟨rfl, h⟩
  exact ⟨_, _, _, _, .head, rfl, rfl, h⟩

theorem RemoteTask.keeps : RemoteTask.codec.Keeps RemoteTask.Edit := by
  have hplain : ∀ {α : Type} {c : Codec α} {name : String}, name ≠ "jobs" → name ≠ "links" →
      c.Keeps (RemoteTask.Inner name) := fun hjobs hlinks =>
    keeps_of_not fun _ _ h => h.elim (fun h => hjobs h.1) fun h => hlinks h.1
  have hjobs : (Codec.record jobsRecord).Keeps (RemoteTask.Inner "jobs") := by
    rintro T T' jobs (⟨-, h⟩ | ⟨h, -⟩) hjobs
    · exact jobsRecord_keeps h hjobs
    · exact absurd h (by decide)
  have hlinks : Link.codec.list.Keeps (RemoteTask.Inner "links") := by
    rintro T T' links (⟨h, -⟩ | ⟨-, h⟩) hlinks
    · exact absurd h (by decide)
    · exact Link.keeps.list h hlinks
  refine keeps_record rfl (by decide) RemoteTask.record_agree ?_
    ⟨hplain ?_ ?_, hplain ?_ ?_, hplain ?_ ?_, hplain ?_ ?_, hplain ?_ ?_, hjobs, hplain ?_ ?_,
      hlinks, trivial⟩
  · rintro name V (⟨rfl | rfl, h⟩ | ⟨rfl, h⟩ | ⟨rfl, h⟩ | ⟨rfl, h⟩)
    · exact ⟨_, _, _, _, .tail (by decide) .head, rfl, rfl, h⟩
    · exact ⟨_, _, _, _, .tail (by decide) (.tail (by decide) .head), rfl, rfl, h⟩
    · exact ⟨_, _, _, _, .tail (by decide) (.tail (by decide) (.tail (by decide) (.tail (by decide)
        (.tail (by decide) .head)))), rfl, rfl, h⟩
    · exact ⟨_, _, _, _, .tail (by decide) (.tail (by decide) (.tail (by decide) (.tail (by decide)
        (.tail (by decide) (.tail (by decide) .head))))), rfl, rfl, h⟩
    · exact ⟨_, _, _, _, .tail (by decide) (.tail (by decide) (.tail (by decide) (.tail (by decide)
        (.tail (by decide) (.tail (by decide) (.tail (by decide) .head)))))), rfl, rfl, h⟩
  all_goals decide

/-! ## Values of some fields -/

theorem RemoteTask.has_operation :
    RemoteTask.record.Has (.required "type" Operation.codec) fun t o => { t with operation := o } :=
  ⟨_, .tail (by decide) (.tail (by decide) (.tail (by decide) .head)), fun _ _ => rfl⟩

theorem RemoteTask.has_state :
    RemoteTask.record.Has (.required "state" TaskState.codec) fun t s => { t with state := s } :=
  ⟨_, .tail (by decide) (.tail (by decide) (.tail (by decide) (.tail (by decide) .head))),
    fun _ _ => rfl⟩

theorem RemoteTask.has_jobs :
    RemoteTask.record.Has (.withDefault "jobs" (.record jobsRecord) []) fun t jobs =>
      { t with jobs } :=
  ⟨_, .tail (by decide) (.tail (by decide)
    (.tail (by decide) (.tail (by decide) (.tail (by decide) .head)))),
    fun _ _ => rfl⟩

theorem jobsRecord_has :
    jobsRecord.Has (.withDefault "collection" (.list Job.codec) []) fun _ jobs => jobs :=
  ⟨_, .head, fun _ _ => rfl⟩

theorem Job.has_state : Job.record.Has (.required "state" JobState.codec) fun j s =>
    { j with state := s } :=
  ⟨_, .tail (by decide) (.tail (by decide) .head), fun _ _ => rfl⟩

def Operation.known : List String :=
  ["DEPLOY", "UNDEPLOY", "RECONFIGURE", "POWER_ON", "POWER_OFF", "PAUSE", "RESUME", "RESET",
    "SNAPSHOT", "INSTANCE"]

def JobState.known : List String :=
  ["PENDING", "STARTED", "DONE", "FAILED", "ROLLBACK_DONE", "ROLLBACK_FAILED"]

/-- Another value stands for the state of the job at the place `i`. -/
def JobStateSwap (i : Nat) (V V' T T' : Tree) : Prop :=
  ∃ l J J' r W W', l.length = i ∧ Swap Job.memberNames "state" V V' J J' ∧
    Swap ["collection"] "collection" (.list (l ++ J :: r)) (.list (l ++ J' :: r)) W W' ∧
      Swap RemoteTask.memberNames "jobs" W W' T T'

section Tasks

variable {V V' T T' : Tree} {t : RemoteTask} {i : Nat}

theorem JobStateSwap.ofValue (hs : JobStateSwap i V V' T T')
    (h : RemoteTask.codec.ofValue T.value = .ok t) {s : JobState}
    (hV' : JobState.codec.ofValue V'.value = .ok s) :
    ∃ job, t.jobs[i]? = some job ∧
      RemoteTask.codec.ofValue T'.value =
        .ok { t with jobs := t.jobs.set i { job with state := s } } := by
  obtain ⟨l, J, J', r, W, W', rfl, hjob, hlist, htask⟩ := hs
  obtain ⟨jobs, hjobs, hW, hnext⟩ := RemoteTask.has_jobs.swap (by decide) htask h
  obtain ⟨_, rfl, hitems, hnextList⟩ := jobsRecord_has.swap (by decide) hlist hW
  obtain ⟨before, job, after, rfl, hlen, hJ, hnextItem⟩ := ofValue_list_mid hitems
  obtain ⟨_, -, -, hnextJob⟩ := Job.has_state.swap (by decide) hjob hJ
  have hall := hnext _ (hnextList _ (hnextItem J' _ (hnextJob s hV')))
  have hplace : t.jobs = before ++ job :: after := (congrArg RemoteTask.jobs hjobs).symm
  refine ⟨job, ?_, ?_⟩
  · rw [hplace, ← hlen, List.getElem?_append_right (Nat.le_refl _), Nat.sub_self]
    rfl
  · rw [hplace, ← hlen, List.set_append_right _ _ (Nat.le_refl _), Nat.sub_self]
    exact hall

/-- **Tasks in other words.**  Let a text be read as a task.  However often its members are put into
another order, members of no field are added and members that say nothing are left out, in the task,
in what holds its jobs, in each job and in each link, and wherever there are blanks, the text is
still read as this task.  With any other operation in it, or any other state of one of its jobs, the
text is read as the task with an unknown one; with any other state of the task it is not read, and
the error is that of the name.  (A string with half a pair of escapes stands for no text, so it is
no other name.) -/
theorem RemoteTask.decode_reworded {s : String} (hs : T.Text s)
    (ht : RemoteTask.codec.decode s = .ok t) :
    (∀ T' s', Relation.ReflTransGen RemoteTask.Edit T T' → T'.Text s' →
      RemoteTask.codec.decode s' = .ok t) ∧
    (∀ T' s' V q name, q.text? = some name → name ∉ Operation.known →
      Swap RemoteTask.memberNames "type" V (.string q) T T' → T'.Text s' →
      RemoteTask.codec.decode s' = .ok { t with operation := .unknown }) ∧
    (∀ T' s' i V q name, q.text? = some name → name ∉ JobState.known →
      JobStateSwap i V (.string q) T T' → T'.Text s' →
      ∃ job, t.jobs[i]? = some job ∧
        RemoteTask.codec.decode s' =
          .ok { t with jobs := t.jobs.set i { job with state := .unknown } }) ∧
    ∀ T' s' V q name, q.text? = some name →
      name ∉ ["PENDING", "STARTED", "FINISHED_SUCCESSFULLY", "FINISHED_UNSUCCESSFULLY"] →
      Swap RemoteTask.memberNames "state" V (.string q) T T' → T'.Text s' →
      RemoteTask.codec.decode s' = .error (.data (.unknownVariant name
        ["PENDING", "STARTED", "FINISHED_SUCCESSFULLY", "FINISHED_UNSUCCESSFULLY"])) := by
  have hT := ((RemoteTask.agrees.decode_iff hs).1 t).mp ht
  refine ⟨fun T' s' hedits hs' => ?_, fun T' s' V q name hq hname hswap hs' => ?_,
    fun T' s' i V q name hq hname hswap hs' => ?_, fun T' s' V q name hq hname hswap hs' => ?_⟩
  · refine ((RemoteTask.agrees.decode_iff hs').1 t).mpr ?_
    clear hs'
    induction hedits with
    | refl => exact hT
    | tail _ hedit ih => exact RemoteTask.keeps hedit ih
  · obtain ⟨_, -, -, hnext⟩ := RemoteTask.has_operation.swap (by decide) hswap hT
    have hunknown := (ofValue_quote hq).trans
      (ofName_other (c := Operation.choice) rfl (by decide) hname)
    exact ((RemoteTask.agrees.decode_iff hs').1 _).mpr (hnext _ hunknown)
  · have hunknown := (ofValue_quote hq).trans
      (ofName_other (c := JobState.choice) rfl (by decide) hname)
    obtain ⟨job, hjob, hT'⟩ := hswap.ofValue hT hunknown
    exact ⟨job, hjob, ((RemoteTask.agrees.decode_iff hs').1 _).mpr hT'⟩
  · obtain ⟨set, hat, -⟩ := RemoteTask.has_state
    have hunknown := (ofValue_quote hq).trans (ofName_unknown (c := TaskState.choice) rfl hname)
    exact (RemoteTask.agrees.decode_iff hs').2 _ trivial (Swap.record_error hat hswap hT hunknown)

end Tasks

def taskMembers (operation state job : String) : List (Quote × Tree) :=
  [(.plain "taskId", .string (.plain "t")), (.plain "type", .string (.plain operation)),
    (.plain "state", .string (.plain state)),
    (.plain "jobs", .object [(.plain "collection",
      .list [.object [(.plain "id", .string (.plain "j")),
        (.plain "state", .string (.plain job))]])])]

/-- A task from a text, from another order with a member more, and with one name after the other
that is not known. -/
theorem RemoteTask.decode_one_job :
    let t : RemoteTask := ⟨"t", "", "", .deploy, .pending, [⟨"j", none, .done, "", 0⟩], 0, []⟩
    RemoteTask.codec.decode (Tree.object (taskMembers "DEPLOY" "PENDING" "DONE")).compact = .ok t ∧
    RemoteTask.codec.decode
      (Tree.object ((.plain "more", .list [.null]) ::
        (taskMembers "DEPLOY" "PENDING" "DONE").reverse)).compact =
      .ok t ∧
    RemoteTask.codec.decode (Tree.object (taskMembers "LOST" "PENDING" "DONE")).compact =
      .ok { t with operation := .unknown } ∧
    (∃ job, t.jobs[0]? = some job ∧
      RemoteTask.codec.decode (Tree.object (taskMembers "DEPLOY" "PENDING" "LOST")).compact =
        .ok { t with jobs := t.jobs.set 0 { job with state := .unknown } }) ∧
    RemoteTask.codec.decode (Tree.object (taskMembers "DEPLOY" "LOST" "DONE")).compact =
      .error (.data (.unknownVariant "LOST"
        ["PENDING", "STARTED", "FINISHED_SUCCESSFULLY", "FINISHED_UNSUCCESSFULLY"])) := by
  have hread :
    RemoteTask.codec.decode (Tree.object (taskMembers "DEPLOY" "PENDING" "DONE")).compact =
      .ok ⟨"t", "", "", .deploy, .pending, [⟨"j", none, .done, "", 0⟩], 0, []⟩ := rfl
  obtain ⟨hedits, hoperation, hjob, hstate⟩ :=
    RemoteTask.decode_reworded (Tree.text_compact _) hread
  have hlost : (Quote.plain "LOST").text? = some "LOST" := rfl
  refine ⟨hread, hedits _ _ ?_ (Tree.text_compact _),
    hoperation _ _ (.string (.plain "DEPLOY")) (.plain "LOST") "LOST" hlost (by decide) ?_
      (Tree.text_compact _),
    hjob _ _ 0 (.string (.plain "DONE")) (.plain "LOST") "LOST" hlost (by decide) ?_
      (Tree.text_compact _),
    hstate _ _ (.string (.plain "PENDING")) (.plain "LOST") "LOST" hlost (by decide) ?_
      (Tree.text_compact _)⟩
  · have hmore : (Quote.plain "more").text? = some "more" := rfl
    refine .tail (.single (.permuted (List.reverse_perm _).symm)) ?_
    exact RecordEdit.extended (l := []) hmore (by decide) _
  · exact Swap.member (l := [_]) rfl
  · exact ⟨[], _, _, [], _, _, rfl, Swap.member (l := [_]) rfl, Swap.member (l := []) rfl,
      Swap.member (l := [_, _, _]) rfl⟩
  · exact Swap.member (l := [_, _]) rfl

end TaskWatch.Resource
