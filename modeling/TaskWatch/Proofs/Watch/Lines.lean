import TaskWatch.Proofs.Text.Splitting
import TaskWatch.Watch.Program

/-!
# Reading reports back

A program that reads the output takes it apart at line breaks and each line at tabs.  The texts of
the server stand in a line as they are, so the fields are told apart as long as these texts have no
tab, and the lines as long as they have no line break.

* `Report.told`: the texts of the server in a line.  `Report.fields`: what a line is put together
  from.
* `Report.countIn_fields`: the tabs and line breaks in the fields are those of the server.
* `lines_tell_reports`: what can be read back, and exactly when.
-/

namespace TaskWatch.Watch

open TaskWatch.Monitor (Call Outcome)
open TaskWatch.Resource
open TaskWatch.Text

/-! ## Fields -/

/-- Whether a job of a task failed, in doing its work or in taking it back. -/
def HasFailedJob (t : RemoteTask) : Prop :=
  ∃ j ∈ t.jobs, j.state = .failed ∨ j.state = .rollbackFailed

instance (t : RemoteTask) : Decidable (HasFailedJob t) := List.decidableBEx _ _

theorem failedJobs_eq_nil_iff {t : RemoteTask} : t.failedJobs = [] ↔ ¬HasFailedJob t := by
  simp [RemoteTask.failedJobs, HasFailedJob, JobState.isFailure]

namespace Report

def told (r : Report) : List String :=
  r.task.id :: r.task.failedJobs.flatMap fun j => [j.id, j.description]

def failureField (r : Report) : String :=
  "failed jobs: " ++ ", ".intercalate (r.task.failedJobs.map failedJobText)

def fields (r : Report) : List String :=
  [r.task.id, r.task.operation.label, r.outcome.name, r.task.state.name] ++
    if HasFailedJob r.task then [r.failureField] else []

theorem fields_ne_nil (r : Report) : r.fields ≠ [] := List.cons_ne_nil _ _

theorem length_fields (r : Report) : r.fields.length = if HasFailedJob r.task then 5 else 4 := by
  unfold fields
  split <;> rfl

theorem failures_eq (r : Report) :
    r.failures = if HasFailedJob r.task then "\t" ++ r.failureField else "" := by
  unfold failures failureField
  split
  · rename_i hnil
    rw [if_neg (failedJobs_eq_nil_iff.mp hnil)]
  · rename_i hne
    rw [if_pos (not_not.mp fun h => hne (failedJobs_eq_nil_iff.mpr h)), ← String.append_assoc]
    rfl

/-- A line is its fields with tabs between them. -/
theorem line_eq_intercalate (r : Report) :
    r.line = (String.singleton '\t').intercalate r.fields := by
  have htab : String.singleton '\t' = "\t" := rfl
  rw [line, failures_eq, fields, htab]
  split
  · simp [String.append_assoc]
  · rw [String.append_empty, List.append_nil]

end Report

/-! ## Separators -/

def lineBreaks : List Char := ['\n', '\x0b', '\x0c', '\r', '\u0085', '\u2028', '\u2029']

/-- Whether a text has neither tabs nor line breaks. -/
def Unbroken (s : String) : Prop := ∀ c ∈ '\t' :: lineBreaks, s.toList.count c = 0

instance (s : String) : Decidable (Unbroken s) := List.decidableBAll _ _

theorem unbroken_label (o : Operation) : Unbroken o.label := by cases o <;> decide

theorem unbroken_outcome (o : Outcome) : Unbroken o.name := by cases o <;> decide

theorem unbroken_state (s : TaskState) : Unbroken s.name := by cases s <;> decide

section Counts

variable {c : Char}

/-- What stands between the texts of a job is not a separator. -/
theorem count_failedJobText (hc : c ∈ '\t' :: lineBreaks) (j : Job) :
    (failedJobText j).toList.count c = countIn c [j.id, j.description] := by
  have hopen : Unbroken " (" := by decide
  have hclose : Unbroken ")" := by decide
  unfold failedJobText
  split
  · rename_i h
    simp [h]
  · simp only [String.toList_append, List.count_append, hopen c hc, hclose c hc,
      countIn_cons, countIn_nil, Nat.add_zero]

theorem countIn_failedJobTexts (hc : c ∈ '\t' :: lineBreaks) (jobs : List Job) :
    countIn c (jobs.map failedJobText) =
      countIn c (jobs.flatMap fun j => [j.id, j.description]) := by
  induction jobs with
  | nil => rfl
  | cons j jobs ih =>
    rw [List.map_cons, countIn_cons, count_failedJobText hc, ih, List.flatMap_cons, countIn_append]

/-- The tabs and line breaks in the fields are those of the server. -/
theorem Report.countIn_fields (hc : c ∈ '\t' :: lineBreaks) (r : Report) :
    countIn c r.fields = countIn c r.told := by
  have hcomma : Unbroken ", " := by decide
  have hhead : Unbroken "failed jobs: " := by decide
  have hfailure : r.failureField.toList.count c =
      countIn c (r.task.failedJobs.flatMap fun j => [j.id, j.description]) := by
    rw [failureField, String.toList_append, List.count_append, hhead c hc, Nat.zero_add,
      count_intercalate (hcomma c hc), countIn_failedJobTexts hc]
  rw [fields, countIn_append, countIn_cons, countIn_cons, countIn_cons, countIn_cons,
    unbroken_label _ c hc, unbroken_outcome _ c hc, unbroken_state _ c hc, told, countIn_cons]
  split
  · rw [countIn_cons, hfailure]
    simp
  · rename_i hfailed
    rw [failedJobs_eq_nil_iff.mpr hfailed]
    rfl

/-- The line breaks in a line are those of the server, for a tab is none. -/
theorem Report.count_line (hc : c ∈ lineBreaks) (r : Report) :
    r.line.toList.count c = countIn c r.told := by
  have htab : '\t' ∉ lineBreaks := by decide
  have hnone : (String.singleton '\t').toList.count c = 0 := by
    rw [String.toList_singleton, List.count_eq_zero, List.mem_singleton]
    rintro rfl
    exact htab hc
  rw [r.line_eq_intercalate, count_intercalate hnone, r.countIn_fields (List.mem_cons_of_mem _ hc)]

end Counts

/-! ## Reading -/

/-- What a reader gets from the first four fields of a line. -/
def readLine? (line : String) : Option (String × Operation × Outcome × TaskState) :=
  match partsAt '\t' line with
  | id :: operation :: outcome :: state :: _ => do
    let operation ← (Operation.choice.names.map (·.1)).find? (·.label == operation)
    let outcome ← [Outcome.completed, .failed, .timeout].find? (·.name == outcome)
    let state ← (TaskState.choice.names.map (·.1)).find? (·.name == state)
    return (id, operation, outcome, state)
  | _ => none

def Report.summary (r : Report) : String × Operation × Outcome × TaskState :=
  (r.task.id, r.task.operation, r.outcome, r.task.state)

theorem find?_label (o : Operation) :
    (Operation.choice.names.map (·.1)).find? (·.label == o.label) = some o := by
  cases o <;> decide

theorem find?_outcome (o : Outcome) :
    [Outcome.completed, .failed, .timeout].find? (·.name == o.name) = some o := by
  cases o <;> decide

theorem find?_state (s : TaskState) :
    (TaskState.choice.names.map (·.1)).find? (·.name == s.name) = some s := by
  cases s <;> decide

/-- A reader gets an id only from the first part of a line, so one with a tab never. -/
theorem not_mem_of_readLine? {line id : String} {rest : Operation × Outcome × TaskState}
    (h : readLine? line = some (id, rest)) : '\t' ∉ id.toList := by
  unfold readLine? at h
  split at h
  · rename_i first operation outcome state more hparts
    simp only [Option.bind_eq_bind, Option.bind_eq_some_iff, Option.pure_def, Option.some.injEq,
      Prod.mk.injEq] at h
    obtain ⟨_, _, _, _, _, _, rfl, _⟩ := h
    exact not_mem_of_mem_partsAt (hparts ▸ List.mem_cons_self)
  · cases h

theorem Report.readLine?_eq_some_iff (r : Report) :
    readLine? r.line = some r.summary ↔ '\t' ∉ r.task.id.toList := by
  constructor
  · exact not_mem_of_readLine?
  · intro h
    have hword : ∀ {s : String}, Unbroken s → partsAt '\t' s = [s] := fun hs =>
      partsAt_of_not_mem (List.count_eq_zero.mp (hs _ List.mem_cons_self))
    rw [readLine?, r.line_eq_intercalate, partsAt_intercalate r.fields_ne_nil, fields,
      List.flatMap_append, List.flatMap_cons, List.flatMap_cons, List.flatMap_cons,
      List.flatMap_singleton, partsAt_of_not_mem h, hword (unbroken_label _),
      hword (unbroken_outcome _), hword (unbroken_state _)]
    simp only [List.cons_append, List.nil_append, find?_label, find?_outcome, find?_state]
    rfl

/-! ## What is printed -/

/-- What is printed about a run that has come to its end. -/
def Tally.text (t : Tally) : String := printed (Ending.ofRun (.ok t)).output

theorem Ending.output_ofRun (t : Tally) :
    (Ending.ofRun (.ok t)).output = t.reports.map Report.line := by
  by_cases h : t.failures = 0
  · rw [ofRun, if_pos h]
    rfl
  · rw [ofRun, if_neg h]
    rfl

theorem Tally.linesIn_text (t : Tally) :
    linesIn t.text = (t.reports.map Report.line).flatMap (partsAt '\n') := by
  rw [text, linesIn_printed, Ending.output_ofRun]

theorem countIn_lines (rs : List Report) :
    countIn '\n' (rs.map Report.line) = countIn '\n' (rs.flatMap Report.told) := by
  induction rs with
  | nil => rfl
  | cons r rs ih =>
    rw [List.map_cons, countIn_cons, r.count_line List.mem_cons_self, ih, List.flatMap_cons,
      countIn_append]

theorem Tally.length_linesIn_text (t : Tally) :
    (linesIn t.text).length = t.reports.length + countIn '\n' (t.reports.flatMap Report.told) := by
  rw [linesIn_text, length_flatMap_partsAt, List.length_map, countIn_lines]

/-- The lines of the output are those of the reports if no text of the server has a line break. -/
theorem Tally.linesIn_text_eq_iff (t : Tally) :
    linesIn t.text = t.reports.map Report.line ↔
      countIn '\n' (t.reports.flatMap Report.told) = 0 := by
  rw [linesIn_text, flatMap_partsAt_eq_iff, ← countIn_eq_zero_iff, countIn_lines]

/-- Each task has its report, or is missing. -/
theorem Tally.length_reports_ofCall (ts : List RemoteTask) (c : Call RemoteTask) :
    (ofCall ts c).reports.length + (ofCall ts c).missing = taskCount ts := by
  simp only [ofCall, List.length_map, List.length_take]
  omega

/-- A reader of the output gets what it is to get from all lines if no text of the server has a line
break and no id a tab. -/
theorem Tally.map_readLine?_eq_iff (t : Tally) :
    (linesIn t.text).map readLine? = t.reports.map (fun r => some r.summary) ↔
      countIn '\n' (t.reports.flatMap Report.told) = 0 ∧
        ∀ r ∈ t.reports, '\t' ∉ r.task.id.toList := by
  have hread : (t.reports.map Report.line).map readLine? = t.reports.map (fun r => some r.summary) ↔
      ∀ r ∈ t.reports, '\t' ∉ r.task.id.toList := by
    simp only [List.map_map, List.map_inj_left, Function.comp_apply, Report.readLine?_eq_some_iff]
  constructor
  · intro h
    have hlen := congrArg List.length h
    rw [List.length_map, List.length_map, t.length_linesIn_text] at hlen
    have hcount : countIn '\n' (t.reports.flatMap Report.told) = 0 := by omega
    rw [t.linesIn_text_eq_iff.mpr hcount] at h
    exact ⟨hcount, hread.mp h⟩
  · rintro ⟨hcount, hid⟩
    rw [t.linesIn_text_eq_iff.mpr hcount]
    exact hread.mpr hid

/-- **What lines tell.**  A line breaks exactly where a text of the server does, and tabs divide it
in four fields, or five if a job failed, and one more for each tab of the server: they are the
fields it was put together from if and only if the server has sent no tab, and id, operation,
outcome and state can be read back if and only if there is none in the id.  The output of a run has
one line for each report, of which each task has one unless it is missing, and one more for each
line break of the server: the lines and what they tell can be read back if and only if there is
none. -/
theorem lines_tell_reports (r : Report) (t : Tally) (ts : List RemoteTask) (c : Call RemoteTask) :
    ((∃ b ∈ lineBreaks, b ∈ r.line.toList) ↔ ∃ b ∈ lineBreaks, ∃ s ∈ r.told, b ∈ s.toList) ∧
    (partsAt '\t' r.line).length = (if HasFailedJob r.task then 5 else 4) + countIn '\t' r.told ∧
    (partsAt '\t' r.line = r.fields ↔ ∀ s ∈ r.told, '\t' ∉ s.toList) ∧
    (readLine? r.line = some r.summary ↔ '\t' ∉ r.task.id.toList) ∧
    (linesIn t.text).length = t.reports.length + countIn '\n' (t.reports.flatMap Report.told) ∧
    (linesIn t.text = t.reports.map Report.line ↔
      ∀ s ∈ t.reports.flatMap Report.told, '\n' ∉ s.toList) ∧
    ((linesIn t.text).map readLine? = t.reports.map (fun r => some r.summary) ↔
      (∀ s ∈ t.reports.flatMap Report.told, '\n' ∉ s.toList) ∧
        ∀ r ∈ t.reports, '\t' ∉ r.task.id.toList) ∧
    (Tally.ofCall ts c).reports.length + (Tally.ofCall ts c).missing = taskCount ts := by
  have hbreaks : ∀ b ∈ lineBreaks, (b ∈ r.line.toList ↔ ∃ s ∈ r.told, b ∈ s.toList) := by
    intro b hb
    rw [← List.count_pos_iff, r.count_line hb, countIn_pos_iff]
  have hparts : partsAt '\t' r.line = r.fields.flatMap (partsAt '\t') := by
    rw [r.line_eq_intercalate, partsAt_intercalate r.fields_ne_nil]
  refine ⟨?_, ?_, ?_, r.readLine?_eq_some_iff, t.length_linesIn_text, ?_, ?_,
    Tally.length_reports_ofCall ts c⟩
  · exact exists_congr fun b => and_congr_right (hbreaks b)
  · rw [hparts, length_flatMap_partsAt, r.length_fields, r.countIn_fields List.mem_cons_self]
  · rw [hparts, flatMap_partsAt_eq_iff, ← countIn_eq_zero_iff, r.countIn_fields List.mem_cons_self,
      countIn_eq_zero_iff]
  · rw [t.linesIn_text_eq_iff, countIn_eq_zero_iff]
  · rw [t.map_readLine?_eq_iff, countIn_eq_zero_iff]

/-- A task that was not finished successfully, with an id that looks like a line and the beginning
of another one. -/
def forging : Report where
  task := { RemoteTask.create "a\tDeploy\tcompleted\tFINISHED_SUCCESSFULLY\nb" .deploy 0 with
    state := .finishedUnsuccessfully }
  outcome := .failed

/-- One report without failed jobs has more than four fields and is printed as two lines, of which
the first one tells of another task that was completed. -/
theorem forging_tells_of_two_tasks :
    ¬HasFailedJob forging.task ∧ '\n' ∈ forging.line.toList ∧
      (partsAt '\t' forging.line).length = 7 ∧
    (linesIn (Tally.text ⟨[forging], 0⟩)).map readLine? =
      [some ("a", .deploy, .completed, .finishedSuccessfully),
        some ("b", .deploy, .failed, .finishedUnsuccessfully)] := by
  decide

end TaskWatch.Watch
