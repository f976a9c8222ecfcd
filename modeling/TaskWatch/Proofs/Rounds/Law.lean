import TaskWatch.Monitor.Service
import TaskWatch.Proofs.Rounds.Turns

/-!
# Calls that follow scripts

What becomes of a call without a deadline, round by round, can be told from the scripts of its
objects.

* `Scripts.follows_tasks`, `Scripts.follows_machines`: checks on scripts take their readings from
  them.
* `RunsByScript`: how the rounds of a call go.  `Call.runsByScript`: they go so when its check
  follows scripts.
* `Service.watch_runs_by_script`: what this comes to for tasks and machines.
-/

namespace TaskWatch.Api.Scripts

open TaskWatch.Resource

/-! ## The scripts by their keys -/

def taskScript? (s : Scripts) (id : String) : Option (Script TaskState) :=
  (s.task? id).map (·.script)

def machineScript? (s : Scripts) (k : String) : Option (Script MachineState) :=
  (s.machines.find? (Machine.idText ·.1 == k)).map (·.2)

theorem task?_putTask_self (s : Scripts) (t : ScriptedTask) :
    (s.putTask t).task? t.task.id = some t := by
  simp [task?, putTask]

theorem task?_putTask_of_ne (s : Scripts) (t : ScriptedTask) {id : String} (h : id ≠ t.task.id) :
    (s.putTask t).task? id = s.task? id := by
  simp only [task?, putTask, List.find?_cons, beq_false_of_ne (Ne.symm h)]
  induction s.tasks with
  | nil => rfl
  | cons x xs ih =>
    by_cases hx : x.task.id = t.task.id
    · simp [hx, Ne.symm h, ih]
    · simp [List.find?_cons, hx, ih]

theorem task_id_of_task? {s : Scripts} {id : String} {t : ScriptedTask} (h : s.task? id = some t) :
    t.task.id = id := by
  have hfound := List.find?_some h
  simpa using hfound

theorem taskScript?_putTask (s : Scripts) (t : ScriptedTask) (id : String) :
    (s.putTask t).taskScript? id = if id = t.task.id then some t.script else s.taskScript? id := by
  by_cases h : id = t.task.id
  · subst h
    rw [if_pos rfl, taskScript?, task?_putTask_self]
    rfl
  · rw [if_neg h, taskScript?, task?_putTask_of_ne s t h]
    rfl

theorem idText_injective {a b : UInt32} (h : Machine.idText a = Machine.idText b) : a = b := by
  have hdigits : Decimal.digits a.toNat = Decimal.digits b.toNat := String.ofList_injective h
  have hnat := congrArg Decimal.ofDigits hdigits
  rw [Decimal.ofDigits_digits, Decimal.ofDigits_digits] at hnat
  exact UInt32.toNat_inj.mp hnat

theorem machineScript?_idText (s : Scripts) (id : UInt32) :
    s.machineScript? (Machine.idText id) = s.machine? id := by
  unfold machineScript? machine?
  induction s.machines with
  | nil => rfl
  | cons x xs ih =>
    by_cases hx : x.1 = id
    · rw [List.find?_cons_of_pos (by simp [hx]), List.lookup_cons, beq_iff_eq.mpr hx.symm]
      rfl
    · have hne : Machine.idText x.1 ≠ Machine.idText id := fun h => hx (idText_injective h)
      rw [List.find?_cons_of_neg (by simpa using hne), List.lookup_cons,
        beq_false_of_ne (Ne.symm hx), ih]

theorem machineScript?_putMachine (s : Scripts) (id : UInt32) (p : Script MachineState)
    (k : String) : (s.putMachine id p).machineScript? k =
      if k = Machine.idText id then some p else s.machineScript? k := by
  by_cases h : k = Machine.idText id
  · subst h
    rw [if_pos rfl, machineScript?_idText]
    simp [machine?, putMachine]
  · rw [if_neg h]
    simp only [machineScript?, putMachine, List.find?_cons, beq_false_of_ne (Ne.symm h)]
    congr 1
    induction s.machines with
    | nil => rfl
    | cons x xs ih =>
      by_cases hx : x.1 = id
      · simp [hx, Ne.symm h, ih]
      · simp [List.find?_cons, hx, ih]

/-! ## Readings -/

/-- A reading of a task takes one reading of its script, and none of another one. -/
theorem readTask_spec (t : RemoteTask) (s : Scripts) :
    (readTask t s).1.toOption.map (fun fresh => (fresh.id, fresh.state)) =
        (s.taskScript? t.id).bind (fun p => p.read.1.map fun x => (t.id, x)) ∧
      ∀ id, (readTask t s).2.taskScript? id =
        if id = t.id then (s.taskScript? t.id).map (·.read.2) else s.taskScript? id := by
  cases ht : s.task? t.id with
  | none =>
    have hs : s.taskScript? t.id = none := by simp [taskScript?, ht]
    have hread : readTask t s = (.error (unknownTask t.id), s) := by simp [readTask, ht]
    rw [hread, hs]
    refine ⟨rfl, fun id => ?_⟩
    by_cases hid : id = t.id
    · rw [if_pos hid, hid, hs]
      rfl
    · rw [if_neg hid]
  | some found =>
    have hid := task_id_of_task? ht
    have hs : s.taskScript? t.id = some found.script := by simp [taskScript?, ht]
    rw [hs]
    cases hr : found.script.read with
    | mk r next =>
      cases r with
      | none =>
        have hread : readTask t s = (.error (scriptedFailure t.id),
            s.putTask ⟨found.task, next⟩) := by
          simp [readTask, ht, hr]
        rw [hread]
        refine ⟨by simp [hr, Except.toOption], fun id => ?_⟩
        rw [taskScript?_putTask, hid, Option.map_some, hr]
      | some x =>
        have hread : readTask t s =
            (.ok (found.task.withState x), s.putTask ⟨found.task.withState x, next⟩) := by
          simp [readTask, ht, hr]
        have hfresh : (found.task.withState x).id = t.id := hid
        rw [hread]
        refine ⟨?_, fun id => ?_⟩
        · simp only [Except.toOption, Option.map_some, Option.bind_some, hr, hfresh]
          rfl
        · rw [taskScript?_putTask, hfresh, Option.map_some, hr]

theorem readState_spec (m : Machine) (s : Scripts) :
    (readState m s).1.toOption = (s.machineScript? (Machine.idText m.id)).bind (·.read.1) ∧
      ∀ k, (readState m s).2.machineScript? k = if k = Machine.idText m.id
        then (s.machineScript? (Machine.idText m.id)).map (·.read.2) else s.machineScript? k := by
  rw [machineScript?_idText]
  cases hm : s.machine? m.id with
  | none =>
    have hread : readState m s = (.error (unknownMachine m.id), s) := by simp [readState, hm]
    rw [hread]
    refine ⟨rfl, fun k => ?_⟩
    by_cases hk : k = Machine.idText m.id
    · rw [if_pos hk, hk, machineScript?_idText, hm]
      rfl
    · rw [if_neg hk]
  | some p =>
    cases hr : p.read with
    | mk r next =>
      cases r with
      | none =>
        have hread : readState m s = (.error (scriptedFailure m.name), s.putMachine m.id next) := by
          simp [readState, hm, hr]
        rw [hread]
        refine ⟨by simp [hr, Except.toOption], fun k => ?_⟩
        rw [machineScript?_putMachine, Option.map_some, hr]
      | some x =>
        have hread : readState m s = (.ok x, s.putMachine m.id next) := by simp [readState, hm, hr]
        rw [hread]
        refine ⟨by simp [hr, Except.toOption], fun k => ?_⟩
        rw [machineScript?_putMachine, Option.map_some, hr]

end TaskWatch.Api.Scripts

namespace TaskWatch.Monitor

open TaskWatch.Api TaskWatch.Resource

/-! ## Checks on scripts -/

theorem follows_tasks (ks : List String) :
    FollowsScripts (taskCheck Scripts.backend) Scripts.taskScript? taskVerdict ks where
  reading t s _ := by
    have hcheck : (taskCheck Scripts.backend t s).1 =
        (Scripts.readTask t s).1.map fun fresh => (fresh, taskVerdict fresh.state) := rfl
    have hread := congrArg (Option.map fun x : String × TaskState => (x.1, taskVerdict x.2))
      (Scripts.readTask_spec t s).1
    rw [Option.map_map, Option.map_bind] at hread
    rw [hcheck, toOption_map, Option.map_map]
    refine hread.trans ?_
    simp only [Function.comp_def, Option.map_map]
    rfl
  script t s _ := by
    show (Scripts.readTask t s).2.taskScript? t.id = (s.taskScript? t.id).map _
    rw [(Scripts.readTask_spec t s).2, if_pos rfl]
  others t s k _ _ hne := by
    have hne : k ≠ t.id := hne
    show (Scripts.readTask t s).2.taskScript? k = s.taskScript? k
    rw [(Scripts.readTask_spec t s).2, if_neg hne]

theorem follows_machines (goal : MachineState) (ks : List String) :
    FollowsScripts (machineCheck Scripts.backend goal) Scripts.machineScript? (machineVerdict goal)
      ks where
  reading m s _ := by
    have hcheck : (machineCheck Scripts.backend goal m s).1 = (Scripts.readState m s).1.map
        fun state => ({ m with state }, machineVerdict goal state) := rfl
    rw [hcheck, toOption_map, Option.map_map, (Scripts.readState_spec m s).1, Option.map_bind]
    rfl
  script m s _ := by
    show (Scripts.readState m s).2.machineScript? (Machine.idText m.id) =
      (s.machineScript? (Machine.idText m.id)).map _
    rw [(Scripts.readState_spec m s).2, if_pos rfl]
  others m s k _ _ hne := by
    have hne : k ≠ Machine.idText m.id := hne
    show (Scripts.readState m s).2.machineScript? k = s.machineScript? k
    rw [(Scripts.readState_spec m s).2, if_neg hne]

/-- Others who leave the scripts of a call alone change none of its readings. -/
theorem FollowsScripts.amid {σ T S : Type} [Watchable T] {check : Check σ T}
    {script? : σ → String → Option (Script S)} {judge : S → Verdict} {ks : List String}
    (hf : FollowsScripts check script? judge ks) {others : Nat → σ → σ}
    (ho : ∀ n s, ∀ k ∈ ks, script? (others n s) k = script? s k) :
    FollowsScripts (check.amid others) (fun s k => script? s.1 k) judge ks where
  reading t s ht := by
    rw [← ho s.2 s.1 _ ht]
    exact hf.reading t (others s.2 s.1) ht
  script t s ht := by
    rw [← ho s.2 s.1 _ ht]
    exact hf.script t (others s.2 s.1) ht
  others t s k ht hk hne := by
    rw [← ho s.2 s.1 k hk]
    exact hf.others t (others s.2 s.1) k ht hk hne

/-! ## The law -/

variable {σ T S : Type}

/-- How a call over the keys `ks` goes round by round; it begins with scripts in `s₀`.  The states
that end an object are the final ones, some of them with success. -/
structure RunsByScript (script? : σ → String → Option (Script S)) (final success : S → Bool)
    (ks : List String) (s₀ : σ) (run : Nat → Call T × σ) : Prop where
  /-- An object whose first final state comes at `j` ends in the round after its failures and the
  states before, as this state says, and is read in each round up to this one. -/
  ends : ∀ k ∈ ks, ∀ p j, script? s₀ k = some p → p.remaining.findIdx? final = some j → ∀ n,
    (k ∈ (run n).1.active.map Entry.key ↔ n < p.failures.toNat + j + 1) ∧
    (∀ x, p.remaining[j]? = some x → (run n).1.outcomes k =
      if n < p.failures.toNat + j + 1 then [] else [if success x then .completed else .failed]) ∧
    ∃ q, script? (run n).2 k = some q ∧
      q.reads = p.reads + UInt32.ofNat (min n (p.failures.toNat + j + 1)) ∧
      (p.reads.toNat + (p.failures.toNat + j + 1) < UInt32.size →
        q.reads.toNat = p.reads.toNat + min n (p.failures.toNat + j + 1))
  /-- An object without a final state or without a script goes on. -/
  goes_on : ∀ k ∈ ks, (∀ p, script? s₀ k = some p → p.remaining.findIdx? final = none) → ∀ n,
    k ∈ (run n).1.active.map Entry.key ∧ (run n).1.outcomes k = []
  /-- If all objects end, the poll is over after the last round of them and not before. -/
  over_iff : ∀ last : String → Nat, (∀ k ∈ ks, ∃ p j, script? s₀ k = some p ∧
      p.remaining.findIdx? final = some j ∧ last k = p.failures.toNat + j + 1) →
    ∀ n, (run n).1.poll = .over ↔ (ks.map last).foldr max 0 ≤ n
  never_over : (∃ k ∈ ks, ∀ p, script? s₀ k = some p → p.remaining.findIdx? final = none) →
    ∀ n, (run n).1.poll = .idle

/-- A verdict ends an object in the final states, and well in those with success. -/
def Judges (judge : S → Verdict) (final success : S → Bool) : Prop :=
  ∀ x, (judge x).outcome? =
    if final x then some (if success x then .completed else .failed) else none

theorem judges_tasks : Judges taskVerdict TaskState.isFinal TaskState.isSuccess := by
  intro x
  cases x <;> rfl

theorem judges_machines (goal : MachineState) :
    Judges (machineVerdict goal) (fun x => x == goal || x == .unknown) (· == goal) := by
  intro x
  by_cases hx : x = goal
  · simp [machineVerdict, Verdict.outcome?, hx]
  · by_cases hu : x = .unknown
    · subst hu
      simp [machineVerdict, Verdict.outcome?, hx]
    · simp [machineVerdict, Verdict.outcome?, hx, hu]

theorem foldr_max_le_iff (l : List Nat) (n : Nat) : l.foldr max 0 ≤ n ↔ ∀ x ∈ l, x ≤ n := by
  induction l with
  | nil => simp
  | cons a l ih =>
    rw [List.foldr_cons, Nat.max_le, ih]
    simp

section Run

variable [Watchable T] {check : Check σ T} {script? : σ → String → Option (Script S)}
  {judge : S → Verdict} {final success : S → Bool} {ks : List String} {c : Call T} {s : σ}
  {order : Nat → List (Entry T) → List (Entry T)}

theorem endOf_eq_none (hj : Judges judge final success) {r : Option S}
    (h : ∀ x, r = some x → final x = false) : endOf judge r = none := by
  cases r with
  | none => rfl
  | some x =>
    show (judge x).outcome? = none
    rw [hj x, h x rfl]
    rfl

theorem Call.Resting.poll_eq_over_iff (hc : c.Resting ks) :
    c.poll = .over ↔ ∀ k ∈ ks, k ∉ c.active.map Entry.key := by
  have hpoll := hc.poll_eq
  constructor
  · intro hover k _ hk
    have hempty : c.active = [] := by
      by_contra hne
      rw [hover, resting, if_neg (by simpa using hne)] at hpoll
      cases hpoll
    simp [hempty] at hk
  · intro hnone
    have hempty : c.active = [] := List.eq_nil_iff_forall_not_mem.mpr fun e he =>
      hnone e.key (hc.known e he) (List.mem_map_of_mem he)
    rw [hpoll, resting, if_pos (by simp [hempty])]

theorem Call.Resting.poll_eq_idle {k : String} (hc : c.Resting ks)
    (hk : k ∈ c.active.map Entry.key) : c.poll = .idle := by
  have hne : c.active ≠ [] := by
    intro hempty
    simp [hempty] at hk
  rw [hc.poll_eq, resting, if_neg (by simpa using hne)]

/-- An object that is to end is read up to its first final state, and not after it. -/
theorem View.iterate_step_of_findIdx? (hj : Judges judge final success) {p : Script S} {j : Nat}
    {x : S} (hend : p.remaining.findIdx? final = some j) (hx : p.remaining[j]? = some x) (n : Nat) :
    (View.step judge)^[n] ⟨some p, true, []⟩ =
      ⟨some (p.after (min n (p.failures.toNat + j + 1))), decide (n < p.failures.toNat + j + 1),
        if n < p.failures.toNat + j + 1 then []
        else [if success x then .completed else .failed]⟩ := by
  obtain ⟨hlast, hbefore⟩ := Script.reading_of_findIdx?_eq_some hend
  have hnone : ∀ i < p.failures.toNat + j, endOf judge (p.reading i) = none := fun i hi =>
    endOf_eq_none hj (hbefore i hi)
  have hfinal : final x = true := by
    obtain ⟨hlt, hfin, -⟩ := List.findIdx?_eq_some_iff_getElem.mp hend
    rw [List.getElem?_eq_getElem hlt] at hx
    exact Option.some.inj hx ▸ hfin
  have hsome : endOf judge (p.reading (p.failures.toNat + j)) =
      some (if success x then .completed else .failed) := by
    rw [hlast, hx]
    show (judge x).outcome? = _
    rw [hj x, if_pos hfinal]
  by_cases hn : n < p.failures.toNat + j + 1
  · rw [View.iterate_step_of_unfinished fun i hi => hnone i (by omega), if_pos hn,
      Nat.min_eq_left (Nat.le_of_lt hn), decide_eq_true hn]
  · rw [View.iterate_step_of_final hnone hsome (by omega), if_neg hn,
      Nat.min_eq_right (by omega), decide_eq_false hn]
    rfl

theorem View.iterate_step_of_forall_none (hj : Judges judge final success) {o : Option (Script S)}
    (h : ∀ p, o = some p → p.remaining.findIdx? final = none) (n : Nat) :
    ∃ o', (View.step judge)^[n] ⟨o, true, []⟩ = ⟨o', true, []⟩ := by
  cases o with
  | none => exact ⟨none, View.iterate_step_of_unscripted n _ rfl⟩
  | some p =>
    refine ⟨some (p.after n), View.iterate_step_of_unfinished fun i _ => ?_⟩
    exact endOf_eq_none hj (Script.reading_of_findIdx?_eq_none (h p rfl) i)

theorem Call.runsByScript (hf : FollowsScripts check script? judge ks)
    (hj : Judges judge final success) (hc : c.Resting ks) (hall : ∀ k ∈ ks, c.isActive k = true)
    (hpub : c.published = []) (ho : ∀ n es, (order n es).Perm es) :
    RunsByScript script? final success ks s (c.turns check order s) := by
  have hrest : ∀ n, (c.turns check order s n).1.Resting ks := fun n => (turns_spec hf hc ho n).1
  have hview : ∀ k ∈ ks, ∀ n, (c.turns check order s n).1.view script? k
    (c.turns check order s n).2 =
      (View.step judge)^[n] ⟨script? s k, true, []⟩ := by
    intro k hk n
    rw [(turns_spec hf hc ho n).2 k hk]
    simp [view, outcomes, hall k hk, hpub]
  have hends : ∀ k ∈ ks, ∀ p j x, script? s k = some p → p.remaining.findIdx? final = some j →
      p.remaining[j]? = some x → ∀ n,
      (c.turns check order s n).1.view script? k (c.turns check order s n).2 =
        ⟨some (p.after (min n (p.failures.toNat + j + 1))), decide (n < p.failures.toNat + j + 1),
          if n < p.failures.toNat + j + 1 then []
          else [if success x then .completed else .failed]⟩ := by
    intro k hk p j x hp hend hx n
    rw [hview k hk n, hp]
    exact View.iterate_step_of_findIdx? hj hend hx n
  have hactive : ∀ k ∈ ks, ∀ p j, script? s k = some p → p.remaining.findIdx? final = some j →
      ∀ n, (k ∈ (c.turns check order s n).1.active.map Entry.key ↔
        n < p.failures.toNat + j + 1) := by
    intro k hk p j hp hend n
    have hx := List.getElem?_eq_getElem (List.findIdx?_eq_some_iff_getElem.mp hend).1
    have ha := congrArg View.active (hends k hk p j _ hp hend hx n)
    rw [← isActive_iff]
    exact (Bool.eq_iff_iff.mp ha).trans decide_eq_true_iff
  have hgo : ∀ k ∈ ks, (∀ p, script? s k = some p → p.remaining.findIdx? final = none) → ∀ n,
      k ∈ (c.turns check order s n).1.active.map Entry.key ∧
        (c.turns check order s n).1.outcomes k = [] := by
    intro k hk hnone n
    obtain ⟨o, ho⟩ := View.iterate_step_of_forall_none hj hnone n
    have hv := (hview k hk n).trans ho
    exact ⟨isActive_iff.mp (congrArg View.active hv), congrArg View.outcomes hv⟩
  exact {
    ends := by
      intro k hk p j hp hend n
      have hx := List.getElem?_eq_getElem (List.findIdx?_eq_some_iff_getElem.mp hend).1
      refine ⟨hactive k hk p j hp hend n,
        fun x hx => congrArg View.outcomes (hends k hk p j x hp hend hx n),
        _, congrArg View.script (hends k hk p j _ hp hend hx n), Script.reads_after _ _,
        fun hlt => ?_⟩
      exact Script.toNat_reads_after (by omega)
    goes_on := hgo
    over_iff := by
      intro last hlast n
      rw [(hrest n).poll_eq_over_iff, foldr_max_le_iff, List.forall_mem_map]
      refine forall₂_congr fun k hk => ?_
      obtain ⟨p, j, hp, hend, hl⟩ := hlast k hk
      rw [hactive k hk p j hp hend n, hl, Nat.not_lt]
    never_over := by
      rintro ⟨k, hk, hnone⟩ n
      exact (hrest n).poll_eq_idle (hgo k hk hnone n).1 }

end Run
/-! ## Tasks and machines -/

section Accepted

variable {ι : Type} [Watchable T] {v : Service ι} {targets : List T}

theorem Service.watch_of_open (hv : v.closed = false) (ht : targets ≠ []) :
    v.watch targets none =
      .ok { Call.prepare (Call.collect targets) false with opening := .begun, poll := .idle } := by
  have haccept : accept targets none = .ok (Call.collect targets) :=
    accept_eq_ok_iff.mpr ⟨ht, nofun, rfl⟩
  unfold Service.watch
  rw [haccept, hv]
  rfl

theorem Call.Resting.begin (ht : targets ≠ []) :
    { Call.prepare (Call.collect targets) false with
      opening := .begun, poll := .idle }.Resting (targets.map Watchable.key) where
  nodup := nodup_map_key_collect targets
  keyed e he := key_of_mem_collect he
  known e he := mem_map_key_collect.mp (List.mem_map_of_mem he)
  poll_eq := by
    obtain ⟨t, ht⟩ := List.exists_mem_of_ne_nil _ ht
    have hk : Watchable.key t ∈ (Call.collect targets).map Entry.key :=
      mem_map_key_collect.mpr (List.mem_map_of_mem ht)
    have hne : Call.collect targets ≠ [] := by
      intro hempty
      simp [hempty] at hk
    refine (if_neg ?_).symm
    rw [List.isEmpty_iff]
    exact hne

end Accepted

/-- **Calls go by their scripts.**  A service that is open starts a call over some tasks, or over
some machines that are to come to a state, and without a deadline it goes round by round as the
scripts of its objects say: in whatever order each round reads the objects, and whatever others do
on the same backend meanwhile, as long as they leave these scripts alone. -/
theorem Service.watch_runs_by_scripts {ι : Type} {v : Service ι} (hv : v.closed = false)
    (s : Scripts) (others : Nat → Scripts → Scripts) :
    (∀ (tasks : List RemoteTask) (order : Nat → List (Entry RemoteTask) → List (Entry RemoteTask)),
      tasks ≠ [] → (∀ n es, (order n es).Perm es) →
      (∀ n s, ∀ k ∈ tasks.map Watchable.key, (others n s).taskScript? k = s.taskScript? k) →
      ∃ c, v.watch tasks none = .ok c ∧
        RunsByScript (fun s k => s.1.taskScript? k) TaskState.isFinal TaskState.isSuccess
          (tasks.map Watchable.key) (s, 0)
          (c.turns ((taskCheck Scripts.backend).amid others) order (s, 0))) ∧
    (∀ (goal : MachineState) (machines : List Machine)
        (order : Nat → List (Entry Machine) → List (Entry Machine)),
      machines ≠ [] → (∀ n es, (order n es).Perm es) →
      (∀ n s, ∀ k ∈ machines.map Watchable.key, (others n s).machineScript? k =
        s.machineScript? k) →
      ∃ c, v.watch machines none = .ok c ∧
        RunsByScript (fun s k => s.1.machineScript? k) (fun x => x == goal || x == .unknown)
          (· == goal) (machines.map Watchable.key) (s, 0)
          (c.turns ((machineCheck Scripts.backend goal).amid others) order (s, 0))) := by
  constructor
  · intro tasks order ht ho hothers
    refine ⟨_, watch_of_open hv ht, ?_⟩
    exact Call.runsByScript ((follows_tasks _).amid hothers) judges_tasks (.begin ht)
      (fun k hk => Call.isActive_iff.mpr (Call.mem_map_key_collect.mpr hk)) rfl ho
  · intro goal machines order ht ho hothers
    refine ⟨_, watch_of_open hv ht, ?_⟩
    exact Call.runsByScript ((follows_machines goal _).amid hothers)
      (judges_machines goal) (.begin ht)
      (fun k hk => Call.isActive_iff.mpr (Call.mem_map_key_collect.mpr hk)) rfl ho

/-- Scripts for two tasks: the readings of one fail once and it ends well later, the other one
fails. -/
def twinScripts : Scripts where
  tasks := [⟨.create "a" .deploy 0, ⟨[.started, .finishedSuccessfully], .pending, 1, 0⟩⟩,
    ⟨.create "b" .reset 0, ⟨[.finishedUnsuccessfully], .pending, 0, 0⟩⟩]
  machines := []

/-- The poll of a call over both tasks is over after three rounds. -/
theorem twins_run_by_their_scripts :
    ∃ c, (⟨.standard, false, .start⟩ : Service String).watch twins none = .ok c ∧
      ∀ n, (c.turns ((taskCheck Scripts.backend).amid fun _ s => s) (fun _ es => es.reverse)
        (twinScripts, 0) n).1.poll = .over ↔ 3 ≤ n := by
  obtain ⟨c, hc, hrun⟩ := (Service.watch_runs_by_scripts
      (v := (⟨.standard, false, .start⟩ : Service String)) rfl twinScripts fun _ s => s).1 twins
    (fun _ es => es.reverse) nofun (fun _ es => es.reverse_perm) fun _ _ _ _ => rfl
  refine ⟨c, hc, fun n => ?_⟩
  have hkeys : twins.map Watchable.key = ["a", "b", "a"] := rfl
  rw [hkeys] at hrun
  refine hrun.over_iff (fun k => if k = "a" then 3 else 1) (fun k hk => ?_) n
  have hab : k = "a" ∨ k = "b" := by
    simp only [List.mem_cons, List.not_mem_nil, or_false] at hk
    tauto
  rcases hab with rfl | rfl
  · exact ⟨_, 1, rfl, rfl, rfl⟩
  · exact ⟨_, 0, rfl, rfl, rfl⟩

end TaskWatch.Monitor
