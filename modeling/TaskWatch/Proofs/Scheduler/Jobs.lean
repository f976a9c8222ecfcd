import Mathlib.Data.List.Induction
import TaskWatch.Monitor.Scheduler

/-!
# The life of a job

A job is told that time passes, in which it may be held up, and it may be told to stop.  Whatever it
is told in whatever order, its runs and its end can be read off from that.

* `ScheduledJob.due`: the millisecond in which a run is due, with nothing in its way.
* `ScheduledJob.Led`: what has become of a job.  `Led.heed` and `led_after`: it is kept by each
  event, and so holds at all times.
* `Led.runs_le`, `Led.le_runs`, `Led.breaks_off`: no run comes after the first one that breaks off,
  and time brings this one about.
* `after_of_finished`: a job that has ended does not change any more.
-/

namespace TaskWatch.Monitor.ScheduledJob

inductive Event where
  /-- A millisecond passes, in which the job may be held up. -/
  | passes (heldUp : Bool)
  /-- It is to stop. -/
  | stops
deriving DecidableEq, Repr

def Event.isPassing : Event → Bool
  | .passes _ => true
  | .stops => false

def heed (j : ScheduledJob) : Event → ScheduledJob
  | .passes heldUp => j.pass heldUp
  | .stops => j.cancel

def after (j : ScheduledJob) (es : List Event) : ScheduledJob := es.foldl heed j

def elapsed (es : List Event) : Nat := es.countP Event.isPassing

/-- In how many of them the job was not held up. -/
def unhindered (es : List Event) : Nat := es.count (.passes false)

/-- The millisecond in which a run of a new job is due, counted from one. -/
def due (j : ScheduledJob) (n : Nat) : Nat := max 1 j.wait + (n - 1) * max 1 j.delay

/-- A job of which nothing has happened yet. -/
structure New (j : ScheduledJob) : Prop where
  runs : j.runs = 0
  unfinished : j.finished = false

theorem new_fixedDelay (initial delay : Nat) (breaks : Nat → Bool) :
    (fixedDelay initial delay breaks).New :=
  ⟨rfl, rfl⟩

/-! ## Single events -/

section Single

variable (j : ScheduledJob) (e : Event) (es : List Event)

@[simp] theorem after_concat : j.after (es ++ [e]) = (j.after es).heed e := by simp [after]

theorem after_append (es' : List Event) : j.after (es ++ es') = (j.after es).after es' := by
  simp [after]

@[simp] theorem elapsed_concat_passes (heldUp : Bool) :
    elapsed (es ++ [.passes heldUp]) = elapsed es + 1 := by
  simp [elapsed, Event.isPassing]

@[simp] theorem elapsed_concat_stops : elapsed (es ++ [.stops]) = elapsed es := by
  simp [elapsed, Event.isPassing]

@[simp] theorem unhindered_concat_free :
    unhindered (es ++ [.passes false]) = unhindered es + 1 := by
  simp [unhindered]

@[simp] theorem unhindered_concat_heldUp : unhindered (es ++ [.passes true]) = unhindered es := by
  simp [unhindered]

theorem unhindered_concat_le (heldUp : Bool) :
    unhindered (es ++ [.passes heldUp]) ≤ unhindered es + 1 := by
  cases heldUp <;> simp

/-- All that a millisecond can do. -/
theorem pass_cases (heldUp : Bool) :
    (j.finished = true ∧ j.pass heldUp = j) ∨
    (j.finished = false ∧ 1 < j.wait ∧ j.pass heldUp = { j with wait := j.wait - 1 }) ∨
    (j.finished = false ∧ j.wait ≤ 1 ∧ heldUp = true ∧ j.pass heldUp = j) ∨
    (j.finished = false ∧ j.wait ≤ 1 ∧ heldUp = false ∧ j.pass heldUp = j.run) := by
  unfold pass
  by_cases hfinished : j.finished = true
  · exact .inl ⟨hfinished, if_pos hfinished⟩
  · have hunfinished : j.finished = false := Bool.eq_false_iff.mpr hfinished
    rw [if_neg hfinished]
    by_cases hwait : 1 < j.wait
    · exact .inr (.inl ⟨hunfinished, hwait, if_pos hwait⟩)
    · have hle : j.wait ≤ 1 := Nat.le_of_not_lt hwait
      rw [if_neg hwait]
      cases heldUp with
      | true => exact .inr (.inr (.inl ⟨hunfinished, hle, rfl, rfl⟩))
      | false => exact .inr (.inr (.inr ⟨hunfinished, hle, rfl, rfl⟩))

variable {j}

theorem heed_of_finished (h : j.finished = true) : j.heed e = j := by
  cases e with
  | passes heldUp => exact if_pos h
  | stops =>
    obtain ⟨wait, delay, breaks, runs, finished⟩ := j
    cases h
    rfl

/-- A job that has ended stays as it is. -/
theorem after_of_finished (h : j.finished = true) : j.after es = j := by
  induction es with
  | nil => rfl
  | cons e es ih => exact (congrArg (after · es) (heed_of_finished e h)).trans ih

end Single

theorem due_one (j : ScheduledJob) : j.due 1 = max 1 j.wait := by simp [due]

theorem due_succ (j : ScheduledJob) {n : Nat} (h : 0 < n) :
    j.due (n + 1) = j.due n + max 1 j.delay := by
  obtain ⟨m, rfl⟩ : ∃ m, n = m + 1 := ⟨n - 1, by omega⟩
  simp only [due, Nat.add_sub_cancel, Nat.succ_mul]
  omega

theorem due_mono (j : ScheduledJob) {m n : Nat} (h : m ≤ n) : j.due m ≤ j.due n :=
  Nat.add_le_add_left (Nat.mul_le_mul_right _ (Nat.sub_le_sub_right h 1)) _

/-! ## What becomes of a job -/

/-- What a new job `first` has become by some events. -/
structure Led (first : ScheduledJob) (es : List Event) (j : ScheduledJob) : Prop where
  delay : j.delay = first.delay
  breaks : j.breaks = first.breaks
  /-- No run but the last one broke off. -/
  unbroken : ∀ n, 0 < n → n < j.runs → first.breaks n = false
  /-- It has ended exactly if its last run broke off or it was told to stop. -/
  finished_iff : j.finished = true ↔ (0 < j.runs ∧ first.breaks j.runs = true) ∨ Event.stops ∈ es
  /-- No run came before it was due. -/
  due_le : 0 < j.runs → first.due j.runs ≤ elapsed es
  /-- Nor will the next one. -/
  due_next_le : j.finished = false → first.due (j.runs + 1) ≤ elapsed es + max 1 j.wait
  /-- Only what holds it up can make the next run late. -/
  le_due_next : j.finished = false → unhindered es + max 1 j.wait ≤ first.due (j.runs + 1)

variable {first j : ScheduledJob} {es : List Event} {m : Nat}

theorem led_new (h : first.New) : Led first [] first where
  delay := rfl
  breaks := rfl
  unbroken n _ hn := absurd hn (by rw [h.runs]; exact Nat.not_lt_zero n)
  finished_iff := by simp [h.runs, h.unfinished]
  due_le hpos := absurd hpos (by rw [h.runs]; exact Nat.lt_irrefl 0)
  due_next_le _ := by simp [h.runs, due_one, elapsed]
  le_due_next _ := by simp [h.runs, due_one, unhindered]

namespace Led

/-- A job that goes on has not broken off, nor been told to stop. -/
theorem of_unfinished (h : Led first es j) (hf : j.finished = false) :
    (0 < j.runs → first.breaks j.runs = false) ∧ Event.stops ∉ es := by
  have hneither := mt h.finished_iff.mpr (Bool.eq_false_iff.mp hf)
  exact ⟨fun hpos => Bool.eq_false_iff.mpr fun hbreaks => hneither (.inl ⟨hpos, hbreaks⟩),
    fun hstops => hneither (.inr hstops)⟩

/-- Time passes without a run. -/
theorem without_run (h : Led first es j) {heldUp : Bool} {wait : Nat}
    (hless : j.finished = false → max 1 j.wait ≤ 1 + max 1 wait)
    (htime : j.finished = false → unhindered (es ++ [.passes heldUp]) + max 1 wait ≤
      unhindered es + max 1 j.wait) :
    Led first (es ++ [.passes heldUp]) { j with wait := wait } where
  delay := h.delay
  breaks := h.breaks
  unbroken := h.unbroken
  finished_iff := by simpa using h.finished_iff
  due_le hpos := by
    have hdue := h.due_le hpos
    simp only [elapsed_concat_passes]
    omega
  due_next_le hf := by
    have hnext := h.due_next_le hf
    have hwait := hless hf
    simp only [elapsed_concat_passes]
    omega
  le_due_next hf := Nat.le_trans (htime hf) (h.le_due_next hf)

/-- The run that is due takes place, and the next one is due a delay later. -/
theorem run (h : Led first es j) (hf : j.finished = false) (hw : j.wait ≤ 1) :
    Led first (es ++ [.passes false]) j.run := by
  obtain ⟨hunbroken, hstops⟩ := h.of_unfinished hf
  have hdue := h.due_next_le hf
  have hnext := h.le_due_next hf
  have hsucc : first.due (j.runs + 1 + 1) = first.due (j.runs + 1) + max 1 j.delay := by
    rw [h.delay]
    exact due_succ first (Nat.succ_pos _)
  refine ⟨h.delay, h.breaks, fun n hpos hn => ?_, ?_, fun _ => ?_, fun _ => ?_, fun _ => ?_⟩
  · obtain hn | rfl := Nat.lt_or_eq_of_le (Nat.le_of_lt_succ hn)
    · exact h.unbroken n hpos hn
    · exact hunbroken hpos
  · simp [ScheduledJob.run, h.breaks, hstops]
  all_goals
    simp only [ScheduledJob.run, elapsed_concat_passes, unhindered_concat_free, hsucc]
    omega

theorem cancel (h : Led first es j) : Led first (es ++ [.stops]) j.cancel where
  delay := h.delay
  breaks := h.breaks
  unbroken := h.unbroken
  finished_iff := by simp [ScheduledJob.cancel]
  due_le hpos := Nat.le_trans (h.due_le hpos) (Nat.le_of_eq (elapsed_concat_stops es).symm)
  due_next_le hf := absurd hf.symm Bool.false_ne_true
  le_due_next hf := absurd hf.symm Bool.false_ne_true

/-- One event more. -/
theorem heed (h : Led first es j) (e : Event) : Led first (es ++ [e]) (j.heed e) := by
  cases e with
  | stops => exact h.cancel
  | passes heldUp =>
    change Led first _ (j.pass heldUp)
    obtain ⟨hf, heq⟩ | ⟨-, hw, heq⟩ | ⟨-, -, rfl, heq⟩ | ⟨hf, hw, rfl, heq⟩ := j.pass_cases heldUp
    · have hended : j.finished ≠ false := by simp [hf]
      rw [heq]
      exact h.without_run (fun hu => absurd hu hended) (fun hu => absurd hu hended)
    · rw [heq]
      have hcount := unhindered_concat_le es heldUp
      exact h.without_run (fun _ => by omega) (fun _ => by omega)
    · rw [heq]
      have hcount := unhindered_concat_heldUp es
      exact h.without_run (fun _ => by omega) (fun _ => by omega)
    · rw [heq]
      exact h.run hf hw

end Led

/-- What a new job becomes is told by what has happened to it. -/
theorem led_after (h : first.New) (es : List Event) : Led first es (first.after es) := by
  induction es using List.reverseRecOn with
  | nil => exact led_new h
  | append_singleton es e ih =>
    rw [after_concat]
    exact ih.heed e

/-! ## Runs and the end -/

namespace Led

/-- There are no more runs than up to one that breaks off. -/
theorem runs_le (h : Led first es j) (hm : 0 < m) (hbreaks : first.breaks m = true) :
    j.runs ≤ m := by
  refine Nat.le_of_not_lt fun hlt => ?_
  exact Bool.false_ne_true ((h.unbroken m hm hlt).symm.trans hbreaks)

/-- A job that is left alone runs in time unless it is held up, as long as no run breaks off. -/
theorem le_runs (h : Led first es j) (halone : Event.stops ∉ es)
    (hgoes : ∀ n, 0 < n → n < m → first.breaks n = false) (htime : first.due m ≤ unhindered es) :
    m ≤ j.runs := by
  refine Nat.le_of_not_lt fun hlt => ?_
  have hunfinished : j.finished = false := by
    refine Bool.eq_false_iff.mpr fun hf => ?_
    obtain ⟨hpos, hbreaks⟩ | hstops := h.finished_iff.mp hf
    · exact Bool.false_ne_true ((hgoes _ hpos hlt).symm.trans hbreaks)
    · exact halone hstops
  have hnext := h.le_due_next hunfinished
  have hmono : first.due (j.runs + 1) ≤ first.due m := first.due_mono hlt
  omega

/-- A job that is left alone breaks off in its time, in the first run that does. -/
theorem breaks_off (h : Led first es j) (halone : Event.stops ∉ es) (hm : 0 < m)
    (hbreaks : first.breaks m = true) (hgoes : ∀ n, 0 < n → n < m → first.breaks n = false)
    (htime : first.due m ≤ unhindered es) : j.runs = m ∧ j.finished = true := by
  have hruns : j.runs = m := Nat.le_antisymm (h.runs_le hm hbreaks) (h.le_runs halone hgoes htime)
  exact ⟨hruns, h.finished_iff.mpr (.inl (by rw [hruns]; exact ⟨hm, hbreaks⟩))⟩

end Led
end TaskWatch.Monitor.ScheduledJob
