import TaskWatch.Proofs.Rounds.Law

/-!
# Rounds at once

A round reads its objects one after another, and acts on each reading before it asks for the next
one.  When no reading depends on what was read of other objects, this comes to taking all readings
at once and acting on them together, so the order of a round makes no difference.

* `Entry.left?`, `Entry.notice?`: what a reading leaves of its object, and the notice that it
  brings.
* `Call.atOnce`: a call after a round whose readings are all acted on together.
* `Call.checkAll_eq`, `Call.round_eq_atOnce`: readings one after another come to that.
* `Check.noting`: a check that notes what it was asked about.
* `Call.round_in_any_order`: what this comes to for rounds in any order.
-/

namespace TaskWatch.Monitor

variable {σ T : Type}

/-! ## One reading -/

/-- What a reading leaves of an object: the object as it is, its new form, or nothing when it has
ended. -/
def Entry.left? (e : Entry T) : Option (T × Verdict) → Option (Entry T)
  | none => some e
  | some (t, .unfinished) => some ⟨e.key, t⟩
  | some (_, .done) | some (_, .failed) => none

def Entry.notice? (e : Entry T) : Option (T × Verdict) → Option (Delivery T)
  | none | some (_, .unfinished) => none
  | some (t, .done) => some ⟨e.key, t, .completed⟩
  | some (t, .failed) => some ⟨e.key, t, .failed⟩

def leftBy (read : Entry T → Option (T × Verdict)) (es : List (Entry T)) : List (Entry T) :=
  es.filterMap fun e => e.left? (read e)

def noticesBy (read : Entry T → Option (T × Verdict)) (es : List (Entry T)) : List (Delivery T) :=
  es.filterMap fun e => e.notice? (read e)

section Lists

variable {read : Entry T → Option (T × Verdict)} {e : Entry T} {es es' : List (Entry T)}

theorem leftBy_cons : leftBy read (e :: es) = (e.left? (read e)).toList ++ leftBy read es := by
  unfold leftBy
  rw [List.filterMap_cons]
  cases e.left? (read e) <;> rfl

theorem noticesBy_cons :
    noticesBy read (e :: es) = (e.notice? (read e)).toList ++ noticesBy read es := by
  unfold noticesBy
  rw [List.filterMap_cons]
  cases e.notice? (read e) <;> rfl

/-- An object that is left has kept its key. -/
theorem map_key_left?_sublist (r : Option (T × Verdict)) :
    ((e.left? r).toList.map Entry.key).Sublist [e.key] := by
  rcases r with - | ⟨t, _ | _ | _⟩ <;> simp [Entry.left?]

end Lists

namespace Call

/-- Of the active objects, a reading changes the one that was read. -/
theorem heed_eq {c : Call T} {e : Entry T} {before after : List (Entry T)}
    (ha : c.active = before ++ e :: after) (hn : (c.active.map Entry.key).Nodup)
    (r : Option (T × Verdict)) : c.heed e r = { c with
      active := before ++ (e.left? r).toList ++ after
      published := c.published ++ (e.notice? r).toList
      pending := c.pending ++ (e.notice? r).toList } := by
  rw [ha, List.map_append, List.map_cons, List.nodup_append'] at hn
  obtain ⟨-, hrest, hapart⟩ := hn
  have hbefore : e.key ∉ before.map Entry.key := fun h => hapart h List.mem_cons_self
  have hafter : e.key ∉ after.map Entry.key := (List.nodup_cons.mp hrest).1
  have hremove : removeKey e.key c.active = before ++ after := by
    have happend : removeKey e.key c.active = removeKey e.key before ++ removeKey e.key after := by
      simp [ha, removeKey]
    rw [happend, removeKey_of_notMem hbefore, removeKey_of_notMem hafter]
  have hrefresh : ∀ t, refreshKey e.key t c.active = before ++ ⟨e.key, t⟩ :: after := by
    intro t
    have happend : refreshKey e.key t c.active =
        refreshKey e.key t before ++ ⟨e.key, t⟩ :: refreshKey e.key t after := by
      simp [ha, refreshKey]
    rw [happend, refreshKey_of_notMem t hbefore, refreshKey_of_notMem t hafter]
  rcases r with - | ⟨t, _ | _ | _⟩
  · simp [heed, Entry.left?, Entry.notice?, ← ha]
  · simp [heed, conclude, tell, Entry.left?, Entry.notice?, hremove]
  · simp [heed, conclude, tell, Entry.left?, Entry.notice?, hremove]
  · simp [heed, Entry.left?, Entry.notice?, hrefresh]

end Call

/-! ## Readings that do not depend on each other -/

/-- Checking `u` makes no difference to what a check says about `t`. -/
def Check.Spares (check : Check σ T) (u t : T) : Prop :=
  ∀ s, (check t (check u s).2).1 = (check t s).1

def Check.reading (check : Check σ T) (s : σ) (e : Entry T) : Option (T × Verdict) :=
  (check e.target s).1.toOption

/-- What checking some objects in a row does to the backend. -/
def Check.readAll (check : Check σ T) (es : List (Entry T)) (s : σ) : σ :=
  es.foldl (fun s e => (check e.target s).2) s

/-- A check that notes what it was asked about. -/
def Check.noting (check : Check σ T) : Check (σ × List T) T := fun t s =>
  ((check t s.1).1, (check t s.1).2, s.2 ++ [t])

namespace Call

/-- Ends a round.  When no object is active the poll ends as well, and tells the deadline to
stop. -/
def rest (c : Call T) : Call T :=
  if c.active.isEmpty then { c.stopDeadline with poll := .over } else { c with poll := .idle }

/-- Acts on one reading of each active object, all together. -/
def atOnce (read : Entry T → Option (T × Verdict)) (c : Call T) : Call T :=
  rest { c with
    active := leftBy read c.active
    published := c.published ++ noticesBy read c.active
    pending := []
    delivered := c.delivered ++ (c.pending ++ noticesBy read c.active) }

theorem rest_eq (c : Call T) :
    c.rest = { c with poll := c.resting, deadlineStopped := c.rest.deadlineStopped } := by
  unfold rest resting
  split
  · rw [stopDeadline_eq]
  · rfl

theorem leave_proceed_eq_rest {c : Call T} (h : c.poll = .between []) :
    c.proceed.leave = c.rest := by
  rw [proceed_of_nil h]
  unfold rest
  by_cases ha : c.active.isEmpty = true
  · rw [if_pos ha, if_pos ha, leave_of_leaving rfl]
    unfold stopDeadline
    split <;> rfl
  · rw [if_neg ha, if_neg ha]
    rfl

/-- The rest of a round, with the objects `es` to be read yet: they and what the round has left of
the others are active, and no reading to come depends on those before it. -/
theorem checkAll_eq {check : Check σ T} {read : Entry T → Option (T × Verdict)} {c : Call T} {s : σ}
    {before es : List (Entry T)} (hp : c.poll = .between es) (ha : c.active = before ++ es)
    (hn : (c.active.map Entry.key).Nodup)
    (hi : es.Pairwise fun e e' => check.Spares e.target e'.target)
    (hr : ∀ e ∈ es, check.reading s e = read e) :
    checkAll check es c s = ({ c with
      active := before ++ leftBy read es
      published := c.published ++ noticesBy read es
      pending := c.pending ++ noticesBy read es
      poll := .between [] }.rest, check.readAll es s) := by
  induction es generalizing c s before with
  | nil =>
    have hc : { c with
        active := before ++ leftBy read []
        published := c.published ++ noticesBy read []
        pending := c.pending ++ noticesBy read []
        poll := .between [] } = c := by
      cases c
      simp_all [leftBy, noticesBy]
    rw [hc, ← leave_proceed_eq_rest hp]
    rfl
  | cons e rest ih =>
    obtain ⟨hspared, hi⟩ := List.pairwise_cons.mp hi
    have hactive : c.isActive e.key = true := isActive_iff.mpr (by simp [ha])
    have hread : (check e.target s).1.toOption = read e := hr e List.mem_cons_self
    have hheed := heed_eq ha hn (read e)
    -- One object has been dealt with, and what is left of it joins the others.
    have hstep : checkAll check (e :: rest) c s =
        checkAll check rest { c.heed e (read e) with poll := .between rest }
          (check e.target s).2 := by
      rw [← pay_settle_answer_proceed _ hp hactive, ← hread]
      rfl
    have hkeys : ((before ++ (e.left? (read e)).toList ++ rest).map Entry.key).Nodup := by
      refine hn.sublist ?_
      rw [ha, List.append_assoc, List.map_append, List.map_append, List.map_append]
      exact ((map_key_left?_sublist (read e)).append (List.Sublist.refl _)).append_left _
    have hreads : ∀ e' ∈ rest, check.reading (check e.target s).2 e' = read e' := fun e' he' =>
      (congrArg Except.toOption (hspared e' he' s)).trans (hr e' (List.mem_cons_of_mem _ he'))
    rw [hstep, hheed, ih rfl rfl hkeys hi hreads, leftBy_cons, noticesBy_cons]
    simp only [List.append_assoc]
    rfl

/-- A round whose readings do not depend on each other acts on all of them together. -/
theorem round_eq_atOnce {check : Check σ T} {c : Call T} (s : σ) (hp : c.poll = .idle)
    (hn : (c.active.map Entry.key).Nodup)
    (hi : c.active.Pairwise fun e e' => check.Spares e.target e'.target) :
    c.round check s = (c.atOnce (check.reading s), check.readAll c.active s) := by
  have hnone : c.active = [] ++ c.active := rfl
  have hall := checkAll_eq (c := { c with poll := .between c.active }) (s := s) rfl hnone hn hi
    fun e _ => rfl
  unfold round
  rw [hp]
  simp only [beginRound_of_idle hp, hall, List.nil_append]
  rw [atOnce, rest, rest]
  by_cases hleft : (leftBy (check.reading s) c.active).isEmpty = true
  · rw [if_pos hleft, if_pos hleft]
    unfold stopDeadline
    split <;> rfl
  · rw [if_neg hleft, if_neg hleft]
    rfl

/-! ## Any order -/

/-- A round asks about each object that it reads once, in the order of the round. -/
theorem checkAll_noting (check : Check σ T) (es : List (Entry T)) (c : Call T) (s : σ)
    (asked : List T) : checkAll check.noting es c (s, asked) =
      ((checkAll check es c s).1, (checkAll check es c s).2, asked ++ es.map Entry.target) := by
  induction es generalizing c s asked with
  | nil => simp [checkAll]
  | cons e rest ih =>
    simp only [checkAll, Check.noting, List.map_cons]
    rw [ih, List.append_assoc]
    rfl

theorem round_noting (check : Check σ T) {c : Call T} (s : σ) (hp : c.poll = .idle) :
    c.round check.noting (s, []) =
      ((c.round check s).1, (c.round check s).2, c.active.map Entry.target) := by
  simp only [round, hp, checkAll_noting, List.nil_append]

/-- **A round is the same in any order.**  The readings of a call do not depend on each other, and
it makes a round that nothing comes in between, in any order of its active objects.  Then these are
left: an object whose reading failed, as it is, and one that is not finished, in its new form.  For
each other one there is one notice, and a callback, with the form that was read.  Each active object
is asked about once, and nothing else is.  The poll is over after the round exactly when no object
is left. -/
theorem round_in_any_order {check : Check σ T} {c c' : Call T} {s s' : σ} {es : List (Entry T)}
    (hp : c.poll = .idle) (hn : (c.active.map Entry.key).Nodup)
    (hi : ∀ e ∈ c.active, ∀ e' ∈ c.active, e.key ≠ e'.key → check.Spares e.target e'.target)
    (hes : es.Perm c.active) (h : (c.arrange es).round check s = (c', s')) :
    c'.active.Perm (leftBy (check.reading s) c.active) ∧
    (∃ notices, notices.Perm (noticesBy (check.reading s) c.active) ∧
      c'.published = c.published ++ notices ∧
      c'.delivered = c.delivered ++ (c.pending ++ notices)) ∧
    (c.arrange es).round check.noting (s, []) = (c', s', es.map Entry.target) ∧
    (c'.poll = .over ↔ c'.active = []) ∧ (c'.poll = .idle ↔ c'.active ≠ []) := by
  have hkeys : (es.map Entry.key).Nodup := (hes.map _).nodup_iff.mpr hn
  have hpair : es.Pairwise fun e e' => check.Spares e.target e'.target := by
    refine (List.pairwise_map.mp hkeys).imp_of_mem fun he he' hne => ?_
    exact hi _ (hes.subset he) _ (hes.subset he') hne
  have hround := round_eq_atOnce (c := c.arrange es) s hp hkeys hpair
  have hnoting := round_noting check (c := c.arrange es) s hp
  rw [h] at hround hnoting
  obtain ⟨rfl, rfl⟩ := Prod.mk.inj hround
  refine ⟨?_, ⟨noticesBy (check.reading s) es, hes.filterMap _, ?_, ?_⟩, hnoting, ?_, ?_⟩
  · rw [atOnce, rest_eq]
    exact hes.filterMap _
  · rw [atOnce, rest_eq]
    rfl
  · rw [atOnce, rest_eq]
    rfl
  · rw [atOnce, rest_eq, resting]
    split <;> simp_all
  · rw [atOnce, rest_eq, resting]
    split <;> simp_all

end Call
end TaskWatch.Monitor

namespace TaskWatch.Api.Scripts

open TaskWatch.Monitor
open TaskWatch.Resource

/-- A reading of a task leaves the other ones alone. -/
theorem task?_readTask_of_ne (t : RemoteTask) (s : Scripts) {id : String} (h : id ≠ t.id) :
    (readTask t s).2.task? id = s.task? id := by
  cases ht : s.task? t.id with
  | none => simp [readTask, ht]
  | some found =>
    have hid : id ≠ found.task.id := task_id_of_task? ht ▸ h
    cases hr : found.script.read with
    | mk r next =>
      cases r with
      | none =>
        simp only [readTask, ht, hr]
        exact task?_putTask_of_ne s ⟨found.task, next⟩ hid
      | some x =>
        simp only [readTask, ht, hr]
        exact task?_putTask_of_ne s ⟨found.task.withState x, next⟩ hid

/-- What is read of a task hangs on nothing but its own script. -/
theorem readTask_fst_congr {t : RemoteTask} {s s' : Scripts} (h : s'.task? t.id = s.task? t.id) :
    (readTask t s').1 = (readTask t s).1 := by
  simp only [readTask, h]
  split
  · rfl
  · split <;> rfl

/-- Tasks with scripts of their own do not depend on each other. -/
theorem spares_tasks {t u : RemoteTask} (h : t.id ≠ u.id) : (taskCheck backend).Spares u t := by
  intro s
  have hread : (readTask t (readTask u s).2).1 = (readTask t s).1 :=
    readTask_fst_congr (task?_readTask_of_ne u s h)
  exact congrArg (Except.map fun fresh => (fresh, taskVerdict fresh.state)) hread

end TaskWatch.Api.Scripts

namespace TaskWatch.Monitor

open TaskWatch.Api

/-- Two tasks are read in the other order.  The reading of one fails, so that it stays as it is; the
other one has failed. -/
theorem twins_round_in_reverse :
    ∃ c s, (Call.arrange (Call.collect twins).reverse
        { Call.prepare (Call.collect twins) false with opening := .begun, poll := .idle }).round
          (taskCheck Scripts.backend) twinScripts = (c, s) ∧
      c.active.map Entry.key = ["a"] ∧ c.published.map (·.outcome) = [.failed] ∧
      c.active.Perm (leftBy ((taskCheck Scripts.backend).reading twinScripts)
        (Call.collect twins)) ∧
      c.poll = .idle := by
  have hkeys := Call.nodup_map_key_collect twins
  have hspares : ∀ e ∈ Call.collect twins, ∀ e' ∈ Call.collect twins, e.key ≠ e'.key →
      (taskCheck Scripts.backend).Spares e.target e'.target := by
    intro e he e' he' hne
    refine Scripts.spares_tasks ?_
    have hk : e.target.id = e.key := Call.key_of_mem_collect he
    have hk' : e'.target.id = e'.key := Call.key_of_mem_collect he'
    rw [hk, hk']
    exact hne.symm
  obtain ⟨hleft, -, -, -, hidle⟩ := Call.round_in_any_order
    (c := { Call.prepare (Call.collect twins) false with opening := .begun, poll := .idle })
    (s := twinScripts) rfl hkeys hspares (List.reverse_perm _) rfl
  exact ⟨_, _, rfl, rfl, rfl, hleft, hidle.mpr nofun⟩

end TaskWatch.Monitor
