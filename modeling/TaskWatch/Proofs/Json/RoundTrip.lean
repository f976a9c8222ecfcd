import TaskWatch.Proofs.Json.Nested
import TaskWatch.Resource.Machine
import TaskWatch.Resource.Task

/-!
# Resources read back

The text written for a resource is read back as this resource, whatever strings, numbers and lists
it has.

* `ofName_name`: the name of a state or an operation stands for it.
* `sound_link`, `sound_job`, `sound_task` and others: the fields of each kind of resource.
* `readsBack_link`, `readsBack_job`, `readsBack_task` and others: each kind of resource.
* `decode_encode_resources`: whole texts.
-/

namespace TaskWatch.Resource

open TaskWatch.Json

/-! ## Names -/

theorem TaskState.ofName_name (s : TaskState) : choice.ofName (choice.name s) = .ok s := by
  cases s <;> rfl

theorem Operation.ofName_name (o : Operation) : choice.ofName (choice.name o) = .ok o := by
  cases o <;> rfl

theorem JobState.ofName_name (s : JobState) : choice.ofName (choice.name s) = .ok s := by
  cases s <;> rfl

theorem MachineState.ofName_name (s : MachineState) : choice.ofName (choice.name s) = .ok s := by
  cases s <;> rfl

/-! ## Kinds of resources -/

theorem readsBack_optionalText : Codec.text.optional.ReadsBack :=
  readsBack_text.optional fun _ => by simp [Codec.text, writeText]

theorem sound_link : Link.record.fields.Sound :=
  ⟨Field.sound_required _ readsBack_text, by decide,
    Field.sound_required _ readsBack_text, by decide,
    Field.sound_optional _ readsBack_optionalText, by decide,
    Field.sound_optional _ readsBack_optionalText, by decide, trivial⟩

theorem readsBack_link : Link.codec.ReadsBack := readsBack_record sound_link fun _ => rfl

theorem sound_job : Job.record.fields.Sound :=
  ⟨Field.sound_required _ readsBack_text, by decide,
    Field.sound_optional _ readsBack_optionalText, by decide,
    Field.sound_required _ (readsBack_choice JobState.ofName_name), by decide,
    Field.sound_withDefault _ _ readsBack_text, by decide,
    Field.sound_withDefault _ _ readsBack_int64, by decide, trivial⟩

theorem readsBack_job : Job.codec.ReadsBack := readsBack_record sound_job fun _ => rfl

theorem sound_jobs : jobsRecord.fields.Sound :=
  ⟨Field.sound_withDefault _ _ (readsBack_list readsBack_job), by decide, trivial⟩

theorem readsBack_jobs : (Codec.record jobsRecord).ReadsBack :=
  readsBack_record sound_jobs fun _ => rfl

theorem sound_task : RemoteTask.record.fields.Sound :=
  ⟨Field.sound_required _ readsBack_text, by decide,
    Field.sound_withDefault _ _ readsBack_text, by decide,
    Field.sound_withDefault _ _ readsBack_text, by decide,
    Field.sound_required _ (readsBack_choice Operation.ofName_name), by decide,
    Field.sound_required _ (readsBack_choice TaskState.ofName_name), by decide,
    Field.sound_withDefault _ _ readsBack_jobs, by decide,
    Field.sound_withDefault _ _ readsBack_int64, by decide,
    Field.sound_withDefault _ _ (readsBack_list readsBack_link), by decide, trivial⟩

theorem readsBack_task : RemoteTask.codec.ReadsBack := readsBack_record sound_task fun _ => rfl

theorem sound_page : TaskPage.record.fields.Sound :=
  ⟨Field.sound_withDefault _ _ (readsBack_list readsBack_task), by decide,
    Field.sound_withDefault _ _ (readsBack_uint64.optional head?_write_uint64), by decide, trivial⟩

theorem readsBack_page : TaskPage.codec.ReadsBack := readsBack_record sound_page fun _ => rfl

theorem sound_machine : Machine.record.fields.Sound :=
  ⟨Field.sound_required _ readsBack_uint32, by decide,
    Field.sound_required _ readsBack_text, by decide,
    Field.sound_required _ (readsBack_choice MachineState.ofName_name), by decide,
    Field.sound_withDefault _ _ (readsBack_list readsBack_link), by decide, trivial⟩

theorem readsBack_machine : Machine.codec.ReadsBack := readsBack_record sound_machine fun _ => rfl

theorem sound_reading : MachineReading.record.fields.Sound :=
  ⟨Field.sound_required _ (readsBack_choice MachineState.ofName_name), by decide, trivial⟩

theorem readsBack_reading : MachineReading.codec.ReadsBack :=
  readsBack_record sound_reading fun _ => rfl

/-! ## Whole texts -/

/-- **Resources are read back.**  Reading the text written for a resource succeeds and gives this
resource: for links, jobs, tasks, pages of tasks, machines and readings of machines. -/
theorem decode_encode_resources :
    (∀ l : Link, Link.codec.decode (Link.codec.encode l) = .ok l) ∧
    (∀ j : Job, Job.codec.decode (Job.codec.encode j) = .ok j) ∧
    (∀ t : RemoteTask, RemoteTask.codec.decode (RemoteTask.codec.encode t) = .ok t) ∧
    (∀ p : TaskPage, TaskPage.codec.decode (TaskPage.codec.encode p) = .ok p) ∧
    (∀ m : Machine, Machine.codec.decode (Machine.codec.encode m) = .ok m) ∧
    (∀ r : MachineReading, MachineReading.codec.decode (MachineReading.codec.encode r) = .ok r) :=
  ⟨readsBack_link.decode_encode, readsBack_job.decode_encode, readsBack_task.decode_encode,
    readsBack_page.decode_encode, readsBack_machine.decode_encode, readsBack_reading.decode_encode⟩

end TaskWatch.Resource
