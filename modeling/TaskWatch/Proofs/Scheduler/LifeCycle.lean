import TaskWatch.Proofs.Scheduler.Jobs

/-!
# The life of a scheduler

Jobs are scheduled and cancelled, time passes, and at some time the scheduler is closed, in any
order.  Each job hears of this what concerns it, and no job hears of what is done to another one.

* `Scheduler.Act`: what can be done.  `Act.tells`: what a job hears of it.
* `entry_act`, `entry_afterAll`: what a job becomes is what it becomes by what it hears.
* `closed_afterAll`: a scheduler is closed, and says so, from the first time on that it is closed.
* `life_cycle`: what becomes of the jobs and of the scheduler itself.
-/

namespace TaskWatch.Monitor.Scheduler

open ScheduledJob

inductive Plan where
  | fixedDelay (initial delay : Nat) (breaks : Nat → Bool)
  | once (delay : Nat)

def Plan.job : Plan → ScheduledJob
  | .fixedDelay initial delay breaks => .fixedDelay initial delay breaks
  | .once delay => .once delay

theorem Plan.new (plan : Plan) : plan.job.New := by
  cases plan with
  | fixedDelay initial delay breaks => exact new_fixedDelay initial delay breaks
  | once delay => exact new_fixedDelay delay 0 _

inductive Act where
  | schedule (name : String) (plan : Plan)
  | cancel (k : Nat)
  | close
  /-- A millisecond passes, in which some jobs may be held up. -/
  | pass (heldUp : Nat → Bool)

def act (s : Scheduler) : Act → Scheduler
  | .schedule name plan => (s.schedule name plan.job).toOption.getD s
  | .cancel k => s.cancelAt k
  | .close => s.close
  | .pass heldUp => s.pass heldUp

def afterAll (s : Scheduler) (us : List Act) : Scheduler := us.foldl act s

/-- What the job of a number hears of it. -/
def Act.tells (k : Nat) : Act → Option Event
  | .schedule _ _ => none
  | .cancel i => if i = k then some .stops else none
  | .close => some .stops
  | .pass heldUp => some (.passes (heldUp k))

def heardBy (k : Nat) (us : List Act) : List Event := us.filterMap (Act.tells k)

@[simp] theorem afterAll_nil (s : Scheduler) : s.afterAll [] = s := rfl

@[simp] theorem afterAll_concat (s : Scheduler) (us : List Act) (u : Act) :
    s.afterAll (us ++ [u]) = (s.afterAll us).act u := by simp [afterAll]

theorem stops_mem_heardBy_iff {k : Nat} {us : List Act} :
    Event.stops ∈ heardBy k us ↔ Act.cancel k ∈ us ∨ Act.close ∈ us := by
  rw [heardBy, List.mem_filterMap]
  constructor
  · rintro ⟨u, hmem, htells⟩
    cases u with
    | schedule name plan => cases htells
    | cancel i =>
      by_cases hik : i = k
      · exact .inl (hik ▸ hmem)
      · rw [Act.tells, if_neg hik] at htells
        cases htells
    | close => exact .inr hmem
    | pass heldUp => cases htells
  · rintro (hmem | hmem)
    · exact ⟨_, hmem, if_pos rfl⟩
    · exact ⟨_, hmem, rfl⟩

/-! ## Closing -/

/-- A closed scheduler has said so, and all of its jobs have ended. -/
structure Coherent (s : Scheduler) : Prop where
  announced : s.announced = s.closed
  finished : s.closed = true → ∀ entry ∈ s.jobs, entry.2.finished = true

theorem schedule_of_closed {s : Scheduler} (h : s.closed = true) (name : String)
    (job : ScheduledJob) :
    s.schedule name job = .error .closed := if_pos h

theorem schedule_of_open {s : Scheduler} (h : s.closed = false) (name : String)
    (job : ScheduledJob) :
    s.schedule name job = .ok { s with jobs := s.jobs ++ [(name, job)] } := by
  rw [schedule, h]
  rfl

theorem close_of_closed {s : Scheduler} (h : s.closed = true) : s.close = s := if_pos h

theorem act_schedule_of_closed {s : Scheduler} (h : s.closed = true) (name : String) (plan : Plan) :
    s.act (.schedule name plan) = s := by
  rw [act, schedule_of_closed h]
  rfl

theorem act_schedule_of_open {s : Scheduler} (h : s.closed = false) (name : String) (plan : Plan) :
    s.act (.schedule name plan) = { s with jobs := s.jobs ++ [(name, plan.job)] } := by
  rw [act, schedule_of_open h]
  rfl

/-- All that closing can do. -/
theorem close_cases (s : Scheduler) :
    (s.closed = true ∧ s.close = s) ∨
    (s.closed = false ∧ s.close.closed = true ∧ s.close.announced = true ∧
      s.close.jobs = s.jobs.map fun entry => (entry.1, entry.2.cancel)) := by
  cases h : s.closed with
  | true => exact .inl ⟨rfl, close_of_closed h⟩
  | false => exact .inr ⟨rfl, by simp [close, h]⟩

theorem coherent_start (threads : Nat) : (start threads).Coherent := ⟨rfl, fun h => by cases h⟩

theorem Coherent.act {s : Scheduler} (h : s.Coherent) (u : Act) : (s.act u).Coherent := by
  cases u with
  | schedule name plan =>
    cases hs : s.closed with
    | true =>
      rw [act_schedule_of_closed hs]
      exact h
    | false =>
      rw [act_schedule_of_open hs]
      exact ⟨h.announced, fun hc => absurd (hs.symm.trans hc) Bool.false_ne_true⟩
  | cancel k =>
    refine ⟨h.announced, fun hc => ?_⟩
    intro entry hmem
    obtain ⟨i, hi⟩ := List.mem_iff_getElem?.mp hmem
    rw [Scheduler.act, cancelAt, List.getElem?_modify] at hi
    obtain ⟨before, hbefore, rfl⟩ := Option.map_eq_some_iff.mp hi
    by_cases hki : k = i
    · simp [hki, ScheduledJob.cancel]
    · simpa [hki] using h.finished hc before (List.mem_of_getElem? hbefore)
  | close =>
    change s.close.Coherent
    obtain ⟨-, heq⟩ | ⟨-, hclosed, hannounced, hjobs⟩ := s.close_cases
    · rw [heq]
      exact h
    · refine ⟨hannounced.trans hclosed.symm, fun _ entry hmem => ?_⟩
      rw [hjobs] at hmem
      obtain ⟨before, -, rfl⟩ := List.mem_map.mp hmem
      rfl
  | pass heldUp =>
    refine ⟨h.announced, fun hc => ?_⟩
    intro entry hmem
    obtain ⟨i, hi⟩ := List.mem_iff_getElem?.mp hmem
    rw [Scheduler.act, pass, List.getElem?_mapIdx] at hi
    obtain ⟨before, hbefore, rfl⟩ := Option.map_eq_some_iff.mp hi
    have hended := h.finished hc before (List.mem_of_getElem? hbefore)
    change (before.2.heed (.passes (heldUp i))).finished = true
    rw [heed_of_finished _ hended]
    exact hended

theorem coherent_afterAll (threads : Nat) (us : List Act) :
    ((start threads).afterAll us).Coherent := by
  induction us using List.reverseRecOn with
  | nil => exact coherent_start threads
  | append_singleton us u ih =>
    rw [afterAll_concat]
    exact ih.act u

theorem closed_act (s : Scheduler) (u : Act) :
    (s.act u).closed = true ↔ s.closed = true ∨ u = .close := by
  cases u with
  | schedule name plan =>
    cases hs : s.closed with
    | true => simp [act_schedule_of_closed hs, hs]
    | false => simp [act_schedule_of_open hs, hs]
  | cancel k => simp [act, cancelAt]
  | close =>
    obtain ⟨hclosed, heq⟩ | ⟨-, hclosed, -⟩ := s.close_cases
    · simp [act, heq, hclosed]
    · simp [act, hclosed]
  | pass heldUp => simp [act, pass]

/-- A scheduler is closed as soon as it has been closed once. -/
theorem closed_afterAll (threads : Nat) (us : List Act) :
    ((start threads).afterAll us).closed = true ↔ Act.close ∈ us := by
  induction us using List.reverseRecOn with
  | nil => simp [start]
  | append_singleton us u ih =>
    rw [afterAll_concat, closed_act, ih, List.mem_append, List.mem_singleton, eq_comm (a := u)]

/-! ## What a job hears -/

/-- A job becomes what it becomes by what it hears. -/
theorem entry_act {s : Scheduler} (h : s.Coherent) (u : Act) {k : Nat} {name : String}
    {j : ScheduledJob} (hk : s.jobs[k]? = some (name, j)) :
    (s.act u).jobs[k]? = some (name, j.after (u.tells k).toList) := by
  cases u with
  | schedule name plan =>
    cases hs : s.closed with
    | true =>
      rw [act_schedule_of_closed hs]
      exact hk
    | false =>
      have hlt : k < s.jobs.length := (List.getElem?_eq_some_iff.mp hk).1
      rw [act_schedule_of_open hs, List.getElem?_append_left hlt]
      exact hk
  | cancel i =>
    rw [act, cancelAt, List.getElem?_modify, hk]
    by_cases hik : i = k
    · simp [Act.tells, hik, after, heed]
    · simp [Act.tells, hik, after]
  | close =>
    change s.close.jobs[k]? = some (name, j.cancel)
    obtain ⟨hclosed, heq⟩ | ⟨-, -, -, hjobs⟩ := s.close_cases
    · have hended : j.finished = true := h.finished hclosed _ (List.mem_of_getElem? hk)
      have hsame : j.cancel = j := heed_of_finished .stops hended
      rw [heq, hsame]
      exact hk
    · rw [hjobs, List.getElem?_map, hk]
      rfl
  | pass heldUp =>
    rw [act, pass, List.getElem?_mapIdx, hk]
    rfl

theorem entry_afterAll {s : Scheduler} (h : s.Coherent) (us : List Act) {k : Nat} {name : String}
    {j : ScheduledJob} (hk : s.jobs[k]? = some (name, j)) :
    (s.afterAll us).jobs[k]? = some (name, j.after (heardBy k us)) := by
  induction us generalizing s j with
  | nil => exact hk
  | cons u us ih =>
    have hheard : heardBy k (u :: us) = (u.tells k).toList ++ heardBy k us := by
      cases htells : u.tells k <;> simp [heardBy, htells]
    rw [hheard, after_append]
    exact ih (h.act u) (entry_act h u hk)

/-- A job after it was scheduled, and after all that was done then. -/
theorem entry_of_schedule {s s' : Scheduler} (h : s.Coherent) {name : String} {plan : Plan}
    (hs : s.schedule name plan.job = .ok s') (us : List Act) :
    (s'.afterAll us).jobs[s.jobs.length]? =
      some (name, plan.job.after (heardBy s.jobs.length us)) := by
  have hact : s' = s.act (.schedule name plan) := by
    rw [act, hs]
    rfl
  have hopen : s.closed = false := by
    refine Bool.eq_false_iff.mpr fun hclosed => ?_
    rw [schedule_of_closed hclosed] at hs
    cases hs
  have hcoherent : s'.Coherent := hact ▸ h.act _
  refine entry_afterAll hcoherent us ?_
  rw [hact, act_schedule_of_open hopen]
  simp

theorem length_jobs_of_closed {s : Scheduler} (h : s.closed = true) (u : Act) :
    (s.act u).jobs.length = s.jobs.length := by
  cases u with
  | schedule name plan => rw [act_schedule_of_closed h]
  | cancel k => simp [act, cancelAt]
  | close => rw [act, close_of_closed h]
  | pass heldUp => simp [act, pass]

/-- Nothing that is done with a closed scheduler changes anything. -/
theorem act_of_closed {s : Scheduler} (h : s.Coherent) (hclosed : s.closed = true) (u : Act) :
    s.act u = s := by
  have hjobs : (s.act u).jobs = s.jobs := by
    refine List.ext_getElem? fun k => ?_
    cases hk : s.jobs[k]? with
    | none =>
      rw [List.getElem?_eq_none_iff] at hk ⊢
      exact Nat.le_trans (Nat.le_of_eq (length_jobs_of_closed hclosed u)) hk
    | some entry =>
      have hended : entry.2.finished = true := h.finished hclosed entry (List.mem_of_getElem? hk)
      rw [entry_act h u hk, after_of_finished _ hended]
  cases u with
  | schedule name plan => exact act_schedule_of_closed hclosed name plan
  | cancel k => exact congrArg (fun jobs => { s with jobs := jobs }) hjobs
  | close => exact close_of_closed hclosed
  | pass heldUp => exact congrArg (fun jobs => { s with jobs := jobs }) hjobs

theorem afterAll_of_closed {s : Scheduler} (h : s.Coherent) (hclosed : s.closed = true)
    (us : List Act) :
    s.afterAll us = s := by
  induction us with
  | nil => rfl
  | cons u us ih =>
    have hcons : s.afterAll (u :: us) = (s.act u).afterAll us := rfl
    rw [hcons, act_of_closed h hclosed, ih]

/-- A job hears nothing of it when another one is cancelled. -/
theorem entry_cancelAt_of_ne (s : Scheduler) {i k : Nat} (h : i ≠ k) :
    (s.cancelAt k).jobs[i]? = s.jobs[i]? := by
  rw [cancelAt, List.getElem?_modify]
  simp [h.symm]

/-! ## All of it -/

/-- The first run in which a plan breaks off. -/
structure Plan.FirstBreak (plan : Plan) (m : Nat) : Prop where
  pos : 0 < m
  breaks : plan.job.breaks m = true
  goes_on : ∀ n, 0 < n → n < m → plan.job.breaks n = false

theorem Plan.firstBreak_once (delay : Nat) : (Plan.once delay).FirstBreak 1 :=
  ⟨Nat.one_pos, rfl, fun _ hpos hlt => absurd hlt (Nat.not_lt_of_le hpos)⟩

/-- What there is to say of the job `j` of number `k`, which was scheduled by a plan before `rest`
was done. -/
structure Plan.Lives (plan : Plan) (k : Nat) (rest : List Act) (j : ScheduledJob) : Prop where
  /-- There are no more runs than up to the first one that breaks off. -/
  runs_le : ∀ m, plan.FirstBreak m → j.runs ≤ m
  /-- No run comes before it is due. -/
  in_time : 0 < j.runs → plan.job.due j.runs ≤ elapsed (heardBy k rest)
  /-- It has ended exactly if its last run broke off, it was cancelled, or the scheduler was
  closed. -/
  finished_iff : j.finished = true ↔
    plan.FirstBreak j.runs ∨ Act.cancel k ∈ rest ∨ Act.close ∈ rest
  /-- If it is left alone, it ends by itself, as soon as it has had the time for it. -/
  left_alone : Act.cancel k ∉ rest → Act.close ∉ rest → ∀ m, plan.FirstBreak m →
    plan.job.due m ≤ unhindered (heardBy k rest) → j.runs = m ∧ j.finished = true

theorem Plan.lives (plan : Plan) (k : Nat) (rest : List Act) :
    plan.Lives k rest (plan.job.after (heardBy k rest)) := by
  have hled := led_after plan.new (heardBy k rest)
  refine ⟨fun m hm => hled.runs_le hm.pos hm.breaks, hled.due_le, ?_,
    fun hcancel hclose m hm htime => ?_⟩
  · rw [hled.finished_iff, stops_mem_heardBy_iff]
    refine or_congr_left ⟨fun ⟨hpos, hbreaks⟩ => ⟨hpos, hbreaks, hled.unbroken⟩,
      fun hm => ⟨hm.pos, hm.breaks⟩⟩
  · have halone : Event.stops ∉ heardBy k rest := fun hmem =>
      (stops_mem_heardBy_iff.mp hmem).elim hcancel hclose
    exact hled.breaks_off halone hm.pos hm.breaks hm.goes_on htime

/-- **The life of a scheduler and its jobs.**  Let anything be done with a scheduler in any order.
A job that is then scheduled lives by its plan, whatever is done later: it never runs more often
than up to the first run that breaks off, and so at most once if it is to run once; left alone, it
comes to that and ends; it has ended exactly if it broke off, was cancelled, or the scheduler was
closed; and from then on it does not change.  Cancelling a job changes no other one.  A scheduler is
closed, and has said so, exactly if it was closed before; it then takes no more jobs, and nothing at
all changes it, while an open one takes every job. -/
theorem life_cycle (threads : Nat) (us : List Act) :
    let s := (start threads).afterAll us
    (∀ name (plan : Plan) s', s.schedule name plan.job = .ok s' → ∀ rest, ∃ j,
      (s'.afterAll rest).jobs[s.jobs.length]? = some (name, j) ∧
      plan.Lives s.jobs.length rest j ∧ (∀ delay, plan = .once delay → j.runs ≤ 1) ∧
      (j.finished = true → ∀ more, (s'.afterAll (rest ++ more)).jobs[s.jobs.length]? =
        some (name, j))) ∧
    (∀ i k, i ≠ k → (s.act (.cancel k)).jobs[i]? = s.jobs[i]?) ∧
    (s.closed = true ↔ Act.close ∈ us) ∧ (s.announced = true ↔ Act.close ∈ us) ∧
    (Act.close ∈ us → (∀ name job, s.schedule name job = .error .closed) ∧
      ∀ more, s.afterAll more = s) ∧
    (Act.close ∉ us → ∀ name job, s.schedule name job =
      .ok { s with jobs := s.jobs ++ [(name, job)] }) := by
  intro s
  have hcoherent : s.Coherent := coherent_afterAll threads us
  have hclosed : s.closed = true ↔ Act.close ∈ us := closed_afterAll threads us
  refine ⟨fun name plan s' hs rest => ?_, fun i k hik => entry_cancelAt_of_ne s hik, hclosed, ?_,
    fun hclose => ?_, fun hclose => ?_⟩
  · have hlives := plan.lives s.jobs.length rest
    refine ⟨_, entry_of_schedule hcoherent hs rest, hlives, fun delay hplan => ?_,
      fun hended more => ?_⟩
    · exact hlives.runs_le 1 (hplan ▸ Plan.firstBreak_once delay)
    · have hheard : heardBy s.jobs.length (rest ++ more) =
          heardBy s.jobs.length rest ++ heardBy s.jobs.length more := List.filterMap_append
      rw [entry_of_schedule hcoherent hs, hheard, after_append, after_of_finished _ hended]
  · rw [hcoherent.announced]
    exact hclosed
  · exact ⟨schedule_of_closed (hclosed.mpr hclose),
      afterAll_of_closed hcoherent (hclosed.mpr hclose)⟩
  · exact schedule_of_open (Bool.eq_false_iff.mpr (mt hclosed.mp hclose))

/-- The second job is often held up, while the first and the third one are cancelled. -/
def busyDays : List Act :=
  let free : Act := .pass fun _ => false
  let late : Act := .pass (· == 1)
  [free, .schedule "short" (.once 2), late, free, .cancel 0, late, free, late, free,
    free, .cancel 2]

/-- The second job has run three times and has ended, and nothing comes after this; what comes after
the end of the scheduler is refused. -/
theorem life_cycle_on_busy_days :
    let first : List Act := [.schedule "long" (.once 9), .pass fun _ => false]
    let second : Plan := .fixedDelay 1 2 fun n => n % 3 == 0
    let s := (((start 2).afterAll first).act (.schedule "second" second)).afterAll busyDays
    (s.jobs[1]?.map fun entry => (entry.2.runs, entry.2.finished)) = some (3, true) ∧
    (s.act .close).jobs[1]? = s.jobs[1]? ∧
    ((start 2).afterAll (first ++ [.close])).schedule "late" second.job = .error .closed := by
  intro first second s
  obtain ⟨hjobs, -⟩ := life_cycle 2 first
  obtain ⟨-, -, -, -, hclosed, -⟩ := life_cycle 2 (first ++ [.close])
  have hgoes : ∀ n, 0 < n → n < 3 → second.job.breaks n = false := by
    intro n hpos hlt
    obtain rfl | rfl : n = 1 ∨ n = 2 := by omega
    · rfl
    · rfl
  obtain ⟨j, hj, hlives, -, hstays⟩ := hjobs "second" second _ rfl busyDays
  have hcancel : Act.cancel 1 ∉ busyDays := by simp [busyDays]
  have hclose : Act.close ∉ busyDays := by simp [busyDays]
  obtain ⟨hruns, hended⟩ := hlives.left_alone hcancel hclose 3 ⟨by decide, rfl, hgoes⟩ (by decide)
  have hs : s.jobs[1]? = some ("second", j) := hj
  refine ⟨?_, (hstays hended [.close]).trans hj.symm, (hclosed (by simp)).1 "late" second.job⟩
  rw [hs, Option.map_some, hruns, hended]

end TaskWatch.Monitor.Scheduler
