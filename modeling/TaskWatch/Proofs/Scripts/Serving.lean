import Mathlib.Data.List.Infix
import TaskWatch.Proofs.Scripts.Demands
import TaskWatch.Proofs.Scripts.Owners

/-!
# Scripts serve their states

Whatever tasks and machines are registered, told to fail, read and listed in between: what is
registered under an id goes on as it does alone.

* `taskPast?`, `machinePast?`: what a script has been through, told from the history.  `TaskFits`,
  `MachineFits`: its counts have stayed within 32 bits.
* `described_afterAll`: a script is as its past says.  `task?_afterAll`: so is the task it belongs
  to.
* `Serves`: what a script counts and gives.  `ListedAs`: what lists show of a task.
* `ServesTask`, `ServesMachine`: both for what is registered under an id.
* `served_as_scripted`: what histories come to.
-/

namespace TaskWatch.Api.Scripts

open TaskWatch.Resource

/-! ## Histories -/

section Histories

variable {S : Type} {on : Scripts → Use → Option (Demand S)} {script? : Scripts → Option (Script S)}

/-- A script that heeds each use is as its past says after all of them. -/
theorem described_afterAll (hempty : script? empty = none)
    (hheeds : ∀ s u, Heeds (script? s) (script? (s.after u)) (on s u)) (us : List Use)
    (hfits : ∀ front, front <+: us → ∀ past ∈ pastIn on front, past.Fits) :
    Described (pastIn on us) (script? (afterAll us)) := by
  induction us using List.reverseRecOn with
  | nil => exact .inl ⟨rfl, hempty⟩
  | append_singleton us u ih =>
    have hlast := hfits _ (List.prefix_refl _)
    rw [pastIn_concat] at hlast ⊢
    rw [afterAll_concat]
    exact (hheeds _ u).described
      (ih fun front h => hfits front (h.trans (List.prefix_append _ _))) hlast

/-- What the script of a task has been through. -/
def taskPast? (us : List Use) (id : String) : Option (Past TaskState) :=
  pastIn (fun s u => u.onTask id s) us

def machinePast? (us : List Use) (id : UInt32) : Option (Past MachineState) :=
  pastIn (fun s u => u.onMachine id s) us

/-- The counts of a task's script have always been within 32 bits. -/
def TaskFits (us : List Use) (id : String) : Prop :=
  ∀ front, front <+: us → ∀ past ∈ taskPast? front id, past.Fits

def MachineFits (us : List Use) (id : UInt32) : Prop :=
  ∀ front, front <+: us → ∀ past ∈ machinePast? front id, past.Fits

theorem described_task {us : List Use} {id : String} (h : TaskFits us id) :
    Described (taskPast? us id) ((afterAll us).taskScript? id) :=
  described_afterAll rfl (fun s u => heeds_task s id u) us h

theorem described_machine {us : List Use} {id : UInt32} (h : MachineFits us id) :
    Described (machinePast? us id) ((afterAll us).machine? id) :=
  described_afterAll rfl (fun s u => heeds_machine s id u) us h

end Histories

/-! ## Tasks beside their scripts -/

theorem inStep_afterAll (us : List Use) : ∀ p ∈ (afterAll us).tasks, InStep p := by
  induction us using List.reverseRecOn with
  | nil => nofun
  | append_singleton us u ih =>
    rw [afterAll_concat]
    exact inStep_after ih u

/-- The task under an id is the one that was registered last, in the state that its script gave
last. -/
theorem task?_afterAll {us : List Use} {id : String} {p : Script TaskState}
    (h : (afterAll us).taskScript? id = some p) :
    ∃ r, registered? us id = some r ∧ (afterAll us).task? id = some ⟨r.withState p.current, p⟩ := by
  obtain ⟨q, hq, rfl⟩ := Option.map_eq_some_iff.mp h
  have hframe := frame?_afterAll us id
  rw [frame?, hq, Option.map_some] at hframe
  obtain ⟨r, hr, heq⟩ := Option.map_eq_some_iff.mp hframe.symm
  have hstate : r.withState q.task.state = q.task := congrArg (·.withState q.task.state) heq
  have hstep : q.task.state = q.script.current :=
    inStep_afterAll us q (List.mem_of_find?_eq_some hq)
  refine ⟨r, hr, ?_⟩
  rw [← hstep, hstate]
  exact hq

theorem taskPast?_concat (us : List Use) (u : Use) (id : String) :
    taskPast? (us ++ [u]) id = pastAfter (taskPast? us id) (u.onTask id (afterAll us)) :=
  pastIn_concat _ us u

/-- A task's script starts in the state that the task was registered in. -/
theorem initial_taskPast? (us : List Use) (id : String) :
    (taskPast? us id).map (·.initial) = (registered? us id).map (·.state) := by
  induction us using List.reverseRecOn with
  | nil => rfl
  | append_singleton us u ih =>
    have hkept : ∀ (f : Past TaskState → Past TaskState),
        (∀ past, (f past).initial = past.initial) →
        ((taskPast? us id).map f).map (·.initial) = (registered? us id).map (·.state) := by
      intro f hf
      rw [← ih, Option.map_map]
      exact congrArg (fun g => (taskPast? us id).map g) (funext hf)
    rw [taskPast?_concat, registered?_concat]
    cases u with
    | scriptTask t states =>
      rw [Use.onTask, Use.registers?, Option.filter_some]
      by_cases hid : t.id = id
      · rw [if_pos hid, if_pos (beq_iff_eq.mpr hid)]
        rfl
      · rw [if_neg hid, if_neg (by simpa using hid)]
        exact ih
    | failTask | readTask =>
      rw [Use.onTask]
      split
      · exact hkept _ fun _ => rfl
      · exact ih
    | _ => exact ih

/-! ## What is served -/

def due {S : Type} (p : Option (Script S)) : Nat := (p.map (·.failures.toNat)).getD 0

/-- A script with this past, of which so many readings are counted: what it counts and what it
gives.  Whoever asks for a reading gets what `give` makes of a state, or a failure. -/
structure Serves {S R A : Type} (past : Past S) (script : Option (Script S)) (count : UInt32)
    (asks : R → Prop) (read : R → Except Error A) (failure : R → Error) (give : S → A) : Prop where
  count : count.toNat = past.found.length + past.failed
  due : due script + past.failed = past.asked
  found : ∀ i < past.found.length, past.found[i]? = some (past.stateAt i)
  answer : ∀ x, asks x → read x =
    if past.failed < past.asked then .error (failure x)
    else .ok (give (past.stateAt past.found.length))
  settled : past.states.length ≤ past.found.length → past.stateAt past.found.length = past.latest

/-- In the list of an owner there is this task under its id if it is the owner's, and none
otherwise; listing changes nothing. -/
def ListedAs (s : Scripts) (id : String) (t : RemoteTask) : Prop :=
  ∀ owner, ∃ ts, tasksOf owner s = (.ok ts, s) ∧
    ts.filter (·.id == id) = if isOwnedBy owner t then [t] else []

def ServesTask (s : Scripts) (id : String) (r : RemoteTask) (past : Past TaskState) : Prop :=
  Serves past (s.taskScript? id) (s.taskReads id) (fun t : RemoteTask => t.id = id)
      (fun t => (readTask t s).1) (fun _ => scriptedFailure id) r.withState ∧
    ListedAs s id (r.withState past.latest)

def ServesMachine (s : Scripts) (id : UInt32) (past : Past MachineState) : Prop :=
  Serves past (s.machine? id) (s.machineReads id) (fun m : Machine => m.id = id)
    (fun m => (readState m s).1) (fun m => scriptedFailure m.name) fun state => state

/-- A script that is as its past says is served so, if one who asks for a reading gets the next
one. -/
theorem Serves.of_describes {S R A : Type} {past : Past S} {p : Script S} {asks : R → Prop}
    {read : R → Except Error A} {failure : R → Error} {give : S → A} (h : past.Describes p)
    (hread : ∀ x, asks x → read x = (p.read.1.map give).elim (.error (failure x)) .ok) :
    Serves past (some p) p.reads asks read failure give where
  count := by rw [h.reads, past.length_readings]
  due := h.failures
  found := h.found
  answer x hx := by
    rw [hread x hx, h.read_fst]
    split <;> rfl
  settled := Past.stateAt_of_length_le h.found

theorem listedAs_of_task? {us : List Use} {id : String} {p : ScriptedTask}
    (h : (afterAll us).task? id = some p) : ListedAs (afterAll us) id p.task := by
  obtain rfl := task_id_of_task? h
  have hkeyed := keyed_afterAll us
  have hmem : p.task ∈ (afterAll us).tasks.map (·.task) :=
    List.mem_map_of_mem (hkeyed.mem_iff.mpr h)
  intro owner
  refine ⟨owned owner (afterAll us), tasksOf_eq owner _, ?_⟩
  by_cases howner : isOwnedBy owner p.task = true
  · rw [if_pos howner]
    exact Monitor.filter_eq_singleton (hkeyed.nodup_owned owner) (mem_owned_iff.mpr ⟨hmem, howner⟩)
  · rw [if_neg howner, List.filter_eq_nil_iff]
    intro t ht hid
    obtain ⟨hregistered, hown⟩ := mem_owned_iff.mp ht
    obtain ⟨q, hq, rfl⟩ := List.mem_map.mp hregistered
    have hfound := hkeyed.mem_iff.mp hq
    rw [beq_iff_eq.mp hid, h] at hfound
    exact howner (Option.some.inj hfound ▸ hown)

theorem servesTask_afterAll {us : List Use} {id : String} {past : Past TaskState}
    (hfits : TaskFits us id) (hpast : taskPast? us id = some past) :
    ∃ r, registered? us id = some r ∧ r.state = past.initial ∧
      ServesTask (afterAll us) id r past := by
  rcases described_task hfits with ⟨hnone, -⟩ | ⟨a, p, ha, hp, hdescribes⟩
  · rw [hpast] at hnone
    cases hnone
  obtain rfl : past = a := Option.some.inj (hpast.symm.trans ha)
  obtain ⟨r, hr, htask⟩ := task?_afterAll hp
  have hinitial := initial_taskPast? us id
  rw [hpast, hr, Option.map_some, Option.map_some] at hinitial
  refine ⟨r, hr, (Option.some.inj hinitial).symm, ?_, ?_⟩
  · have hcount : (afterAll us).taskReads id = p.reads := by
      rw [taskReads, htask]
      rfl
    rw [hp, hcount]
    refine Serves.of_describes hdescribes ?_
    rintro t rfl
    -- What is found is `r` in its last state, which the next reading replaces.
    rcases hread : p.read with ⟨_ | state, script⟩ <;>
      simp [readTask, htask, hread, RemoteTask.withState]
  · rw [← hdescribes.current]
    exact listedAs_of_task? htask

theorem servesMachine_afterAll {us : List Use} {id : UInt32} {past : Past MachineState}
    (hfits : MachineFits us id) (hpast : machinePast? us id = some past) :
    ServesMachine (afterAll us) id past := by
  rcases described_machine hfits with ⟨hnone, -⟩ | ⟨a, p, ha, hp, hdescribes⟩
  · rw [hpast] at hnone
    cases hnone
  obtain rfl : past = a := Option.some.inj (hpast.symm.trans ha)
  have hcount : (afterAll us).machineReads id = p.reads := by
    rw [machineReads, hp]
    rfl
  rw [ServesMachine, hp, hcount]
  refine Serves.of_describes hdescribes ?_
  rintro m rfl
  rcases hread : p.read with ⟨_ | state, script⟩ <;> simp [readState, hp, hread]

def faultOf {ε α : Type} : Except ε α → Option ε
  | .error e => some e
  | .ok _ => none

def Use.fault? (s : Scripts) : Use → Option Error
  | .failTask id count => faultOf (s.failTask id count)
  | .readTask t => faultOf (Scripts.readTask t s).1
  | .failMachine id count => faultOf (s.failMachine id count)
  | .readState m => faultOf (Scripts.readState m s).1
  | _ => none

/-- What is not found is not changed. -/
theorem after_of_notFound {s : Scripts} {u : Use} {what : String}
    (h : u.fault? s = some (.notFound what)) : s.after u = s := by
  cases u with
  | failTask id count =>
    cases hfound : s.task? id with
    | none => simp [after, failTask, hfound, Except.toOption]
    | some p => simp [Use.fault?, failTask, hfound, faultOf] at h
  | readTask t =>
    cases hfound : s.task? t.id with
    | none => simp [after, readTask, hfound]
    | some p =>
      rcases hread : p.script.read with ⟨_ | _, _⟩ <;>
        simp [Use.fault?, readTask, hfound, hread, faultOf, scriptedFailure] at h
  | failMachine id count =>
    cases hfound : s.machine? id with
    | none => simp [after, failMachine, hfound, Except.toOption]
    | some p => simp [Use.fault?, failMachine, hfound, faultOf] at h
  | readState m =>
    cases hfound : s.machine? m.id with
    | none => simp [after, readState, hfound]
    | some p =>
      rcases hread : p.read with ⟨_ | _, _⟩ <;>
        simp [Use.fault?, readState, hfound, hread, faultOf, scriptedFailure] at h
  | _ => cases h

/-- **Scripts are served as they were given.**  Let anything be done in any order.  As long as the
counts of a script fit into 32 bits, what it does is told by what it has been through since it was
given: it has counted the readings that succeeded and those that failed; as many failures are due as
have been asked for, all requests together, less those that have come; the next reading fails
exactly if some are, and gives the next state in the row otherwise, or the last one again and again
when there is no other.  For a task that is the task as it was registered, but for its state; the
list of each owner shows it, in the state read last, exactly if it is the owner's, and listing
changes nothing.  Uses that are about something else leave all of this alone, and so do those whose
object is not found. -/
theorem served_as_scripted (us : List Use) :
    (∀ id past, TaskFits us id → taskPast? us id = some past →
      ∃ r, registered? us id = some r ∧ r.state = past.initial ∧
        ServesTask (afterAll us) id r past) ∧
    (∀ id past, MachineFits us id → machinePast? us id = some past →
      ServesMachine (afterAll us) id past) ∧
    (∀ id u, u.onTask id (afterAll us) = none →
      (afterAll (us ++ [u])).task? id = (afterAll us).task? id) ∧
    (∀ id u, u.onMachine id (afterAll us) = none →
      (afterAll (us ++ [u])).machine? id = (afterAll us).machine? id) ∧
    ∀ u what, u.fault? (afterAll us) = some (.notFound what) →
      afterAll (us ++ [u]) = afterAll us := by
  refine ⟨fun id past => servesTask_afterAll, fun id past => servesMachine_afterAll,
    fun id u h => ?_, fun id u h => ?_, fun u what h => ?_⟩
  · rw [afterAll_concat, task?_after_of_onTask _ h]
  · rw [afterAll_concat, machine?_after_of_onMachine _ h]
  · rw [afterAll_concat, after_of_notFound h]

/-- A task that is read until its script has run out, and a machine that is given another script. -/
def busyHistory : List Use :=
  let a := taskUnder "machines/7/tasks" "a" 0
  let m := Machine.create 7 "web"
  [.scriptTask a [.started, .finishedSuccessfully], .failTask "a" 1, .scriptMachine m [.on],
    .readTask a, .readTask (.create "b" .deploy 0), .failTask "a" 1, .readTask a, .readState m,
    .readTask a, .scriptMachine m [.locked, .off], .failMachine 7 2, .tasksOf "machines/7",
    .readState m, .readTask a, .failMachine 8 1, .readTask a]

/-- The task was read five times, two of them in vain, and stays at its end, in its owner's list
too; the machine's new script has failed once and will do so once more. -/
theorem busy_history_served :
    (afterAll busyHistory).taskReads "a" = 5 ∧
    (readTask (.create "a" .reset 9) (afterAll busyHistory)).1 =
      .ok ((taskUnder "machines/7/tasks" "a" 0).withState .finishedSuccessfully) ∧
    (∃ ts, tasksOf "machines/7/" (afterAll busyHistory) = (.ok ts, afterAll busyHistory) ∧
      ts.filter (·.id == "a") =
        [(taskUnder "machines/7/tasks" "a" 0).withState .finishedSuccessfully]) ∧
    (∃ ts, tasksOf "machines/8" (afterAll busyHistory) = (.ok ts, afterAll busyHistory) ∧
      ts.filter (·.id == "a") = []) ∧
    (afterAll busyHistory).machineReads 7 = 1 ∧
    (readState (.create 7 "db") (afterAll busyHistory)).1 = .error (scriptedFailure "db") := by
  obtain ⟨htasks, hmachines, -⟩ := served_as_scripted busyHistory
  have hfits : TaskFits busyHistory "a" := by
    intro front hfront
    have hall : ∀ front ∈ busyHistory.inits, ∀ past ∈ taskPast? front "a", past.Fits := by decide
    exact hall front (List.mem_inits _ _ |>.mpr hfront)
  have hfits' : MachineFits busyHistory 7 := by
    intro front hfront
    have hall : ∀ front ∈ busyHistory.inits, ∀ past ∈ machinePast? front 7, past.Fits := by decide
    exact hall front (List.mem_inits _ _ |>.mpr hfront)
  have hpast : taskPast? busyHistory "a" = some ⟨.pending, [.started, .finishedSuccessfully], 2,
      [none, none, some .started, some .finishedSuccessfully, some .finishedSuccessfully]⟩ := by
    decide
  have hpast' : machinePast? busyHistory 7 =
      some ⟨.notAllocated, [.locked, .off], 2, [none]⟩ := by decide
  obtain ⟨r, hr, -, hserves, hlisted⟩ := htasks "a" _ hfits hpast
  have hserves' := hmachines 7 _ hfits' hpast'
  have hregistered : registered? busyHistory "a" = some (taskUnder "machines/7/tasks" "a" 0) := by
    decide
  obtain rfl := Option.some.inj (hr.symm.trans hregistered)
  exact ⟨UInt32.toNat_inj.mp hserves.count, hserves.answer (.create "a" .reset 9) rfl,
    hlisted "machines/7/", hlisted "machines/8", UInt32.toNat_inj.mp hserves'.count,
    hserves'.answer (.create 7 "db") rfl⟩

end TaskWatch.Api.Scripts
