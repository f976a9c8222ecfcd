import TaskWatch.Proofs.Rounds.Law

/-!
# Scripts in use

Scripts start out empty and are used step by step.  A use registers a task, or at most changes the
script and the state of one that is there, so what is registered can be told from the history.

* `Scripts.Use`, `Scripts.afterAll`: the uses that can change scripts, and what they leave.
* `Scripts.tasks_after`: what one use does to the tasks.
* `Scripts.keyed_afterAll`: each id is registered once.  `Scripts.frame?_afterAll`: under it is the
  task that was registered last, but for its state.
-/

namespace TaskWatch.Api.Scripts

open TaskWatch.Resource

/-! ## Uses -/

/-- A use of scripts.  Counting readings is none, for it only looks at them. -/
inductive Use where
  | scriptTask (t : RemoteTask) (states : List TaskState)
  | failTask (id : String) (count : UInt32)
  | readTask (t : RemoteTask)
  | scriptMachine (m : Machine) (states : List MachineState)
  | failMachine (id : UInt32) (count : UInt32)
  | readState (m : Machine)
  | tasksOf (owner : String)
deriving DecidableEq, Repr

/-- What a use leaves; one that is refused leaves all as it was. -/
def after (s : Scripts) : Use → Scripts
  | .scriptTask t states => s.scriptTask t states
  | .failTask id count => (s.failTask id count).toOption.getD s
  | .readTask t => (readTask t s).2
  | .scriptMachine m states => s.scriptMachine m states
  | .failMachine id count => (s.failMachine id count).toOption.getD s
  | .readState m => (readState m s).2
  | .tasksOf owner => (tasksOf owner s).2

def afterAll (us : List Use) : Scripts := us.foldl after empty

theorem afterAll_concat (us : List Use) (u : Use) :
    afterAll (us ++ [u]) = (afterAll us).after u := by
  rw [afterAll, List.foldl_append, List.foldl_cons, List.foldl_nil, afterAll]

def Use.registers? : Use → Option RemoteTask
  | .scriptTask t _ => some t
  | _ => none

/-- The task that a history has registered last under an id. -/
def registered? (us : List Use) (id : String) : Option RemoteTask :=
  us.reverse.findSome? fun u => u.registers?.filter (·.id == id)

theorem registered?_concat (us : List Use) (u : Use) (id : String) :
    registered? (us ++ [u]) id = (u.registers?.filter (·.id == id)).or (registered? us id) := by
  rw [registered?, List.reverse_append, List.reverse_singleton, List.singleton_append,
    List.findSome?_cons]
  cases u.registers?.filter (·.id == id) <;> rfl

/-! ## One use -/

/-- A task in the place of one that is there, with at most another state. -/
def Renews (s : Scripts) (p : ScriptedTask) : Prop :=
  ∃ old, s.task? p.task.id = some old ∧ p.task = old.task.withState p.task.state

/-- A use registers a task, leaves the tasks alone or renews one of them. -/
theorem tasks_after (s : Scripts) (u : Use) :
    (∃ t states, u = .scriptTask t states) ∨
    u.registers? = none ∧
      ((s.after u).tasks = s.tasks ∨ ∃ p, s.Renews p ∧ s.after u = s.putTask p) := by
  cases u with
  | scriptTask t states => exact .inl ⟨t, states, rfl⟩
  | failTask id count =>
    refine .inr ⟨rfl, ?_⟩
    cases h : s.task? id with
    | none => exact .inl (by simp [after, failTask, h, Except.toOption])
    | some old =>
      obtain rfl := task_id_of_task? h
      refine .inr ⟨{ old with script := old.script.fail count }, ⟨old, h, rfl⟩, ?_⟩
      simp [after, failTask, h, Except.toOption]
  | readTask t =>
    refine .inr ⟨rfl, ?_⟩
    cases h : s.task? t.id with
    | none => exact .inl (by simp [after, readTask, h])
    | some old =>
      have hid := task_id_of_task? h
      rw [← hid] at h
      rcases hread : old.script.read with ⟨_ | state, script⟩
      · refine .inr ⟨{ old with script }, ⟨old, h, rfl⟩, ?_⟩
        simp [after, readTask, ← hid, h, hread]
      · refine .inr ⟨⟨old.task.withState state, script⟩, ⟨old, h, rfl⟩, ?_⟩
        simp [after, readTask, ← hid, h, hread]
  | scriptMachine m states => exact .inr ⟨rfl, .inl rfl⟩
  | failMachine id count =>
    refine .inr ⟨rfl, .inl ?_⟩
    cases h : s.machine? id <;> simp [after, failMachine, h, Except.toOption, putMachine]
  | readState m =>
    refine .inr ⟨rfl, .inl ?_⟩
    cases h : s.machine? m.id with
    | none => simp [after, readState, h]
    | some script =>
      rcases hread : script.read with ⟨_ | _, _⟩ <;> simp [after, readState, h, hread, putMachine]
  | tasksOf owner => exact .inr ⟨rfl, .inl rfl⟩

/-! ## Ids -/

/-- Each id is registered once. -/
def Keyed (s : Scripts) : Prop := (s.tasks.map (·.task.id)).Nodup

theorem keyed_putTask {s : Scripts} (h : s.Keyed) (p : ScriptedTask) : (s.putTask p).Keyed := by
  unfold Keyed putTask
  rw [List.map_cons, List.nodup_cons]
  constructor
  · intro hmem
    obtain ⟨q, hq, hid⟩ := List.mem_map.mp hmem
    have hne := (List.mem_filter.mp hq).2
    simp [hid] at hne
  · exact h.sublist (List.filter_sublist.map _)

theorem Keyed.after {s : Scripts} (h : s.Keyed) (u : Use) : (s.after u).Keyed := by
  rcases s.tasks_after u with ⟨t, states, rfl⟩ | ⟨_, hsame | ⟨p, _, hput⟩⟩
  · exact keyed_putTask h _
  · unfold Keyed
    rw [hsame]
    exact h
  · rw [hput]
    exact keyed_putTask h p

theorem keyed_afterAll (us : List Use) : (afterAll us).Keyed := by
  induction us using List.reverseRecOn with
  | nil => exact List.nodup_nil
  | append_singleton us u ih =>
    rw [afterAll_concat]
    exact ih.after u

/-- Where each id is registered once, a task is found by its own. -/
theorem Keyed.mem_iff {s : Scripts} (h : s.Keyed) {p : ScriptedTask} :
    p ∈ s.tasks ↔ s.task? p.task.id = some p := by
  constructor
  · intro hp
    unfold Keyed at h
    unfold task?
    generalize s.tasks = ps at h hp ⊢
    induction ps with
    | nil => cases hp
    | cons q ps ih =>
      rw [List.map_cons, List.nodup_cons] at h
      rcases List.mem_cons.mp hp with rfl | hp
      · simp
      · have hne : q.task.id ≠ p.task.id := fun heq => h.1 (heq ▸ List.mem_map_of_mem hp)
        rw [List.find?_cons_of_neg (by simpa using hne)]
        exact ih h.2 hp
  · exact List.mem_of_find?_eq_some

/-! ## What is registered -/

/-- The task with an id but for its state, which readings change. -/
def frame? (s : Scripts) (id : String) : Option RemoteTask :=
  (s.task? id).map (·.task.withState .pending)

theorem frame?_putTask (s : Scripts) (p : ScriptedTask) (id : String) :
    (s.putTask p).frame? id = if id = p.task.id then some (p.task.withState .pending)
      else s.frame? id := by
  unfold frame?
  split
  · rename_i h
    rw [h, task?_putTask_self, Option.map_some]
  · rename_i h
    rw [task?_putTask_of_ne s p h]

theorem Renews.frame?_putTask {s : Scripts} {p : ScriptedTask} (h : s.Renews p) (id : String) :
    (s.putTask p).frame? id = s.frame? id := by
  obtain ⟨old, hold, hp⟩ := h
  rw [Scripts.frame?_putTask]
  split
  · rename_i hid
    rw [hid, frame?, hold, Option.map_some, hp]
    rfl
  · rfl

theorem frame?_after (s : Scripts) (u : Use) (id : String) :
    (s.after u).frame? id =
      ((u.registers?.filter (·.id == id)).map (·.withState .pending)).or (s.frame? id) := by
  rcases s.tasks_after u with ⟨t, states, rfl⟩ | ⟨hnone, hsame | ⟨p, hp, hput⟩⟩
  · have hafter : s.after (.scriptTask t states) = s.putTask ⟨t, .start t.state states⟩ := rfl
    rw [hafter, frame?_putTask, Use.registers?, Option.filter_some]
    by_cases hid : t.id = id
    · rw [if_pos hid.symm, if_pos (beq_iff_eq.mpr hid)]
      rfl
    · rw [if_neg (Ne.symm hid), if_neg (by simpa using hid)]
      rfl
  · rw [hnone, frame?, task?, hsame]
    rfl
  · rw [hnone, hput, hp.frame?_putTask]
    rfl

/-- Under an id is the task that was registered last, but for its state. -/
theorem frame?_afterAll (us : List Use) (id : String) :
    (afterAll us).frame? id = (registered? us id).map (·.withState .pending) := by
  induction us using List.reverseRecOn with
  | nil => rfl
  | append_singleton us u ih =>
    rw [afterAll_concat, frame?_after, ih, registered?_concat, Option.map_or]

end TaskWatch.Api.Scripts
