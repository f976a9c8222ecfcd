import TaskWatch.Proofs.Scripts.Histories
import TaskWatch.Proofs.Scripts.Pasts

/-!
# What a use asks of a script

A use is about one script, or about none.  That script is started, told to fail or read, as it would
be alone; all others stay as they are.

* `Demand`: what is asked of a script.  `Use.onTask`, `Use.onMachine`: which script a use is about.
* `after_cases`: what a use can change.  `InStep`: a task is in the state that its script gave last.
* `Heeds`: how a script meets a demand.  `heeds_task`, `heeds_machine`: one use.
* `pastAfter`: what a script has been through then.  `Heeds.described`: it is as its past says.
-/

namespace TaskWatch.Api.Scripts

open TaskWatch.Resource

/-! ## Demands -/

inductive Demand (S : Type) where
  | start (initial : S) (states : List S)
  | fail (count : UInt32)
  /-- A reading, with what it gave. -/
  | read (answer : Option S)

/-- What a use asks of the script of a task. -/
def Use.onTask (id : String) (s : Scripts) : Use → Option (Demand TaskState)
  | .scriptTask t states => if t.id = id then some (.start t.state states) else none
  | .failTask i count => if i = id then some (.fail count) else none
  | .readTask t => if t.id = id then some (.read ((Scripts.readTask t s).1.toOption.map (·.state)))
      else none
  | _ => none

def Use.onMachine (id : UInt32) (s : Scripts) : Use → Option (Demand MachineState)
  | .scriptMachine m states => if m.id = id then some (.start m.state states) else none
  | .failMachine i count => if i = id then some (.fail count) else none
  | .readState m => if m.id = id then some (.read (Scripts.readState m s).1.toOption) else none
  | _ => none

section Demands

variable {S : Type}

/-- How a script meets a demand, if there is one: where there is no script, only a start makes
one. -/
def Heeds (p p' : Option (Script S)) : Option (Demand S) → Prop
  | none => p' = p
  | some (.start initial states) => p' = some (.start initial states)
  | some (.fail count) => p' = p.map (·.fail count)
  | some (.read answer) => p' = p.map (·.read.2) ∧ answer = p.bind (·.read.1)

/-- What a script has been through after a demand. -/
def pastAfter (past : Option (Past S)) : Option (Demand S) → Option (Past S)
  | none => past
  | some (.start initial states) => some (.start initial states)
  | some (.fail count) => past.map (·.ask count)
  | some (.read answer) => past.map (·.note answer)

def pastIn (on : Scripts → Use → Option (Demand S)) (us : List Use) : Option (Past S) :=
  (us.foldl (fun r u => (r.1.after u, pastAfter r.2 (on r.1 u))) (empty, none)).2

theorem pastIn_concat (on : Scripts → Use → Option (Demand S)) (us : List Use) (u : Use) :
    pastIn on (us ++ [u]) = pastAfter (pastIn on us) (on (afterAll us) u) := by
  have hfst : ∀ (s : Scripts) (past : Option (Past S)),
      (us.foldl (fun r u => (r.1.after u, pastAfter r.2 (on r.1 u))) (s, past)).1 =
        us.foldl after s := by
    induction us with
    | nil => exact fun _ _ => rfl
    | cons v us ih => exact fun s past => ih _ _
  rw [pastIn, List.foldl_append, List.foldl_cons, List.foldl_nil, hfst]
  rfl

/-- A script is as its past says, and there is one where there is the other. -/
def Described (past : Option (Past S)) (p : Option (Script S)) : Prop :=
  (past = none ∧ p = none) ∨ ∃ a b, past = some a ∧ p = some b ∧ a.Describes b

theorem Heeds.described {past : Option (Past S)} {p p' : Option (Script S)} {d : Option (Demand S)}
    (h : Heeds p p' d) (hd : Described past p) (hfits : ∀ a ∈ pastAfter past d, a.Fits) :
    Described (pastAfter past d) p' := by
  cases d with
  | none =>
    obtain rfl := h
    exact hd
  | some d =>
    cases d with
    | start initial states => exact .inr ⟨_, _, rfl, h, Past.describes_start initial states⟩
    | fail count =>
      rcases hd with ⟨rfl, rfl⟩ | ⟨a, b, rfl, rfl, hab⟩
      · exact .inl ⟨rfl, h⟩
      · exact .inr ⟨_, _, rfl, h, hab.ask (hfits _ rfl)⟩
    | read answer =>
      obtain ⟨hp, hanswer⟩ := h
      rcases hd with ⟨rfl, rfl⟩ | ⟨a, b, rfl, rfl, hab⟩
      · exact .inl ⟨rfl, hp⟩
      · obtain rfl : answer = b.read.1 := hanswer
        exact .inr ⟨_, _, rfl, hp, hab.note (hfits _ rfl)⟩

end Demands

/-! ## One use -/

/-- A task is in the state that its script gave last. -/
def InStep (p : ScriptedTask) : Prop := p.task.state = p.script.current

theorem current_read {S : Type} (p : Script S) : p.read.2.current = p.read.1.getD p.current := by
  unfold Script.read
  split
  · split <;> rfl
  · rfl

section Use

variable (s : Scripts)

/-- A use changes nothing, or a task that it is about, or a machine that it is about. -/
theorem after_cases (u : Use) :
    s.after u = s ∨
    (∃ p, s.after u = s.putTask p ∧ u.onTask p.task.id s ≠ none ∧
      ((∀ q ∈ s.tasks, InStep q) → InStep p)) ∨
    ∃ id q, s.after u = s.putMachine id q ∧ u.onMachine id s ≠ none := by
  cases u with
  | scriptTask t states =>
      exact .inr (.inl ⟨⟨t, .start t.state states⟩, rfl, by simp [Use.onTask], fun _ => rfl⟩)
  | failTask id count =>
    cases hfound : s.task? id with
    | none => exact .inl (by simp [after, failTask, hfound, Except.toOption])
    | some q =>
      refine .inr (.inl ⟨{ q with script := q.script.fail count }, ?_, ?_, fun h => ?_⟩)
      · simp [after, failTask, hfound, Except.toOption]
      · simp [Use.onTask, task_id_of_task? hfound]
      · exact h q (List.mem_of_find?_eq_some hfound)
  | readTask t =>
    cases hfound : s.task? t.id with
    | none => exact .inl (by simp [after, readTask, hfound])
    | some q =>
      have hid := task_id_of_task? hfound
      have hcurrent := current_read q.script
      rcases hread : q.script.read with ⟨_ | state, script⟩
      · rw [hread] at hcurrent
        refine .inr (.inl ⟨{ q with script }, ?_, ?_, fun h => ?_⟩)
        · simp [after, readTask, hfound, hread]
        · simp [Use.onTask, hid]
        · exact Eq.trans (h q (List.mem_of_find?_eq_some hfound)) hcurrent.symm
      · rw [hread] at hcurrent
        refine .inr (.inl ⟨⟨q.task.withState state, script⟩, ?_, ?_, fun _ => hcurrent.symm⟩)
        · simp [after, readTask, hfound, hread]
        · simp [Use.onTask, RemoteTask.withState, hid]
  | scriptMachine m states => exact .inr (.inr ⟨m.id, _, rfl, by simp [Use.onMachine]⟩)
  | failMachine id count =>
    cases hfound : s.machine? id with
    | none => exact .inl (by simp [after, failMachine, hfound, Except.toOption])
    | some q =>
      refine .inr (.inr ⟨id, q.fail count, ?_, ?_⟩)
      · simp [after, failMachine, hfound, Except.toOption]
      · simp [Use.onMachine]
  | readState m =>
    cases hfound : s.machine? m.id with
    | none => exact .inl (by simp [after, readState, hfound])
    | some q =>
      refine .inr (.inr ⟨m.id, q.read.2, ?_, ?_⟩)
      · rcases hread : q.read with ⟨_ | _, _⟩ <;> simp [after, readState, hfound, hread]
      · simp [Use.onMachine]
  | tasksOf owner => exact .inl rfl

/-- What a use about other things leaves of a task. -/
theorem task?_after_of_onTask {id : String} {u : Use} (h : u.onTask id s = none) :
    (s.after u).task? id = s.task? id := by
  rcases s.after_cases u with hsame | ⟨p, hput, habout, -⟩ | ⟨i, q, hput, -⟩
  · rw [hsame]
  · rw [hput]
    exact task?_putTask_of_ne s p fun hid : id = p.task.id => habout (hid ▸ h)
  · rw [hput]
    rfl

theorem machine?_putMachine (i : UInt32) (q : Script MachineState) (id : UInt32) :
    (s.putMachine i q).machine? id = if id = i then some q else s.machine? id := by
  rw [← machineScript?_idText, machineScript?_putMachine, machineScript?_idText]
  by_cases h : id = i
  · rw [if_pos h, if_pos (by rw [h])]
  · rw [if_neg h, if_neg fun hid => h (idText_injective hid)]

/-- What a use about other things leaves of a machine. -/
theorem machine?_after_of_onMachine {id : UInt32} {u : Use} (h : u.onMachine id s = none) :
    (s.after u).machine? id = s.machine? id := by
  rcases s.after_cases u with hsame | ⟨p, hput, -⟩ | ⟨i, q, hput, habout⟩
  · rw [hsame]
  · rw [hput]
    rfl
  · rw [hput, machine?_putMachine]
    exact if_neg fun hid : id = i => habout (hid ▸ h)

theorem inStep_after {s : Scripts} (h : ∀ p ∈ s.tasks, InStep p) (u : Use) :
    ∀ p ∈ (s.after u).tasks, InStep p := by
  rcases s.after_cases u with hsame | ⟨q, hput, -, hstep⟩ | ⟨i, q, hput, -⟩
  · rw [hsame]
    exact h
  · rw [hput]
    intro p hp
    rcases List.mem_cons.mp hp with rfl | hp
    · exact hstep h
    · exact h p (List.mem_filter.mp hp).1
  · rw [hput]
    exact h

/-- The script of a task meets what a use asks of it, and nothing else. -/
theorem heeds_task (id : String) (u : Use) :
    Heeds (s.taskScript? id) ((s.after u).taskScript? id) (u.onTask id s) := by
  have hother : u.onTask id s = none →
      Heeds (s.taskScript? id) ((s.after u).taskScript? id) (u.onTask id s) := by
    intro h
    rw [h, taskScript?, taskScript?, task?_after_of_onTask s h]
    rfl
  cases u with
  | scriptTask t states =>
    by_cases hid : t.id = id
    · rw [Use.onTask, if_pos hid]
      show (s.scriptTask t states).taskScript? id = _
      rw [scriptTask, taskScript?_putTask, if_pos hid.symm]
    · exact hother (if_neg hid)
  | failTask i count =>
    by_cases hid : i = id
    · rw [Use.onTask, if_pos hid, ← hid]
      show _ = (s.taskScript? i).map _
      cases hfound : s.task? i with
      | none => simp [after, failTask, hfound, Except.toOption, taskScript?]
      | some p =>
        have hp := task_id_of_task? hfound
        have hput := taskScript?_putTask s { p with script := p.script.fail count } i
        rw [if_pos hp.symm] at hput
        simpa [after, failTask, hfound, Except.toOption, taskScript?] using hput
    · exact hother (if_neg hid)
  | readTask t =>
    by_cases hid : t.id = id
    · rw [Use.onTask, if_pos hid, ← hid]
      obtain ⟨hanswer, hscript⟩ := readTask_spec t s
      have hstates := congrArg (Option.map Prod.snd) hanswer
      rw [Option.map_map, Option.map_bind] at hstates
      refine ⟨(hscript t.id).trans (if_pos rfl), hstates.trans ?_⟩
      simp [Function.comp_def, Option.map_map]
    · exact hother (if_neg hid)
  | _ => exact hother rfl

/-- The script of a machine meets what a use asks of it, and nothing else. -/
theorem heeds_machine (id : UInt32) (u : Use) :
    Heeds (s.machine? id) ((s.after u).machine? id) (u.onMachine id s) := by
  have hother : u.onMachine id s = none →
      Heeds (s.machine? id) ((s.after u).machine? id) (u.onMachine id s) := by
    intro h
    rw [h, machine?_after_of_onMachine s h]
    rfl
  cases u with
  | scriptMachine m states =>
    by_cases hid : m.id = id
    · rw [Use.onMachine, if_pos hid]
      exact (machine?_putMachine s _ _ id).trans (if_pos hid.symm)
    · exact hother (if_neg hid)
  | failMachine i count =>
    by_cases hid : i = id
    · rw [Use.onMachine, if_pos hid, ← hid]
      show _ = (s.machine? i).map _
      cases hfound : s.machine? i <;>
        simp [after, failMachine, hfound, Except.toOption, machine?_putMachine]
    · exact hother (if_neg hid)
  | readState m =>
    by_cases hid : m.id = id
    · rw [Use.onMachine, if_pos hid, ← hid]
      obtain ⟨hanswer, hscript⟩ := readState_spec m s
      have hsnd := (hscript (Machine.idText m.id)).trans (if_pos rfl)
      rw [machineScript?_idText, machineScript?_idText] at hsnd
      rw [machineScript?_idText] at hanswer
      exact ⟨hsnd, hanswer⟩
    · exact hother (if_neg hid)
  | _ => exact hother rfl

end Use
end TaskWatch.Api.Scripts
