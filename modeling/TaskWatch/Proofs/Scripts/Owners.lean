import TaskWatch.Proofs.Scripts.Histories
import TaskWatch.Proofs.Text.Trimming

/-!
# Tasks by their owners

The tasks of an owner are listed at the owner's address with one more word.  Scripts tell the owner
of a task from its parent link, and take that word away as often as it stands there, where it was
added once.

* `isOwnedBy_iff`: which tasks count as the owner's.  `isOwnedBy_iff_of_own`,
  `isOwnedBy_iff_of_other`: whether these are the tasks listed at the owner's address.
* `tasksOf_selects`: what is listed after any history.
-/

namespace TaskWatch.Api.Scripts

open TaskWatch.Resource
open TaskWatch.Text

/-! ## Owners -/

def parent? (t : RemoteTask) : Option String := (t.link relParent).map (·.href)

def listAddress (owner : String) : String := trimEndSlashes owner ++ "/tasks"

section

variable {o p : String} {t : RemoteTask}

theorem isOwnedBy_iff :
    isOwnedBy o t = true ↔
      ¬EndsIn (trimEndSlashes o) "/tasks" ∧
        ∃ k, parent? t = some (trimEndSlashes o ++ repeated "/tasks" k) := by
  unfold isOwnedBy parent?
  cases t.link relParent with
  | none => simp
  | some link => simp [trimEndWord_eq_iff]

/-- The tasks listed at an owner's address count as the owner's, unless the word is there
already. -/
theorem isOwnedBy_iff_of_own (ht : parent? t = some (listAddress o)) :
    isOwnedBy o t = true ↔ ¬EndsIn (trimEndSlashes o) "/tasks" := by
  rw [isOwnedBy_iff, and_iff_left_iff_imp]
  intro _
  exact ⟨1, by rw [ht, listAddress, repeated_one]⟩

/-- The tasks listed at another address count as the owner's if that is the owner's with the
word. -/
theorem isOwnedBy_iff_of_other (hp : trimEndSlashes p ≠ trimEndSlashes o)
    (ht : parent? t = some (listAddress p)) :
    isOwnedBy o t = true ↔
      ¬EndsIn (trimEndSlashes o) "/tasks" ∧
        ∃ k, trimEndSlashes p = trimEndSlashes o ++ repeated "/tasks" (k + 1) := by
  rw [isOwnedBy_iff]
  refine and_congr_right fun hends => ?_
  rw [ht]
  constructor
  · rintro ⟨k, hk⟩
    have hk : trimEndSlashes p ++ "/tasks" = trimEndSlashes o ++ repeated "/tasks" k :=
      Option.some.inj hk
    match k with
    | 0 =>
      rw [repeated_zero, String.append_empty] at hk
      exact absurd (hk ▸ endsIn_append _ _) hends
    | 1 =>
      rw [repeated_one, String.append_left_inj] at hk
      exact absurd hk hp
    | k + 2 =>
      rw [repeated_succ, ← String.append_assoc, String.append_left_inj] at hk
      exact ⟨k, hk⟩
  · rintro ⟨k, hk⟩
    exact ⟨k + 2, by rw [listAddress, hk, repeated_succ _ (k + 1), String.append_assoc]⟩

end

/-! ## Order -/

section

variable {a b c : RemoteTask}

theorem earlier_iff :
    earlier a b = true ↔ a.timestamp.toInt < b.timestamp.toInt ∨
      a.timestamp.toInt = b.timestamp.toInt ∧ a.id ≤ b.id := by
  unfold earlier
  rw [Int64.toInt_inj]
  by_cases h : a.timestamp = b.timestamp
  · rw [if_pos h]
    simp [h]
  · have hne : a.timestamp.toInt ≠ b.timestamp.toInt := fun heq => h (Int64.toInt_inj.mp heq)
    rw [if_neg h, decide_eq_true_iff, Int64.le_iff_toInt_le]
    simp only [h, false_and, or_false]
    omega

theorem earlier_trans (hab : earlier a b = true) (hbc : earlier b c = true) :
    earlier a c = true := by
  rw [earlier_iff] at hab hbc ⊢
  rcases hab with hab | ⟨hab, hid⟩ <;> rcases hbc with hbc | ⟨hbc, hid'⟩
  · exact .inl (by omega)
  · exact .inl (by omega)
  · exact .inl (by omega)
  · exact .inr ⟨by omega, String.le_trans hid hid'⟩

theorem earlier_total (a b : RemoteTask) : (earlier a b || earlier b a) = true := by
  rw [Bool.or_eq_true, earlier_iff, earlier_iff]
  rcases Int.lt_trichotomy a.timestamp.toInt b.timestamp.toInt with h | h | h
  · exact .inl (.inl h)
  · rcases String.le_total a.id b.id with hid | hid
    · exact .inl (.inr ⟨h, hid⟩)
    · exact .inr (.inr ⟨h.symm, hid⟩)
  · exact .inr (.inl h)

theorem timestamp_le_of_earlier (h : earlier a b = true) : a.timestamp ≤ b.timestamp := by
  rw [Int64.le_iff_toInt_le]
  rcases earlier_iff.mp h with h | ⟨h, _⟩ <;> omega

end

/-! ## Listing -/

def owned (o : String) (s : Scripts) : List RemoteTask :=
  ((s.tasks.map (·.task)).filter (isOwnedBy o)).mergeSort earlier

theorem tasksOf_eq (o : String) (s : Scripts) : tasksOf o s = (.ok (owned o s), s) := rfl

theorem owned_perm (o : String) (s : Scripts) :
    (owned o s).Perm ((s.tasks.map (·.task)).filter (isOwnedBy o)) := List.mergeSort_perm _ _

theorem pairwise_owned (o : String) (s : Scripts) :
    (owned o s).Pairwise fun a b => a.timestamp ≤ b.timestamp := by
  have hsorted : (owned o s).Pairwise fun a b => earlier a b = true := by
    apply List.pairwise_mergeSort
    · intro a b c
      exact earlier_trans
    · exact earlier_total
  exact hsorted.imp timestamp_le_of_earlier

theorem mem_owned_iff {o : String} {s : Scripts} {t : RemoteTask} :
    t ∈ owned o s ↔ t ∈ s.tasks.map (·.task) ∧ isOwnedBy o t = true := by
  rw [(owned_perm o s).mem_iff, List.mem_filter]

theorem Keyed.nodup_owned {s : Scripts} (h : s.Keyed) (o : String) :
    ((owned o s).map (·.id)).Nodup := by
  rw [((owned_perm o s).map _).nodup_iff]
  have hkeys : ((s.tasks.map (·.task)).map (·.id)).Nodup := by
    rw [List.map_map]
    exact h
  exact hkeys.sublist (List.filter_sublist.map _)

/-! ## After a history -/

/-- Whether a task is registered after a history, as it then stands. -/
def Registered (us : List Use) (t : RemoteTask) : Prop := t ∈ (afterAll us).tasks.map (·.task)

theorem Registered.exists_registered? {us : List Use} {t : RemoteTask} (h : Registered us t) :
    ∃ r, registered? us t.id = some r ∧ t = r.withState t.state := by
  obtain ⟨p, hp, rfl⟩ := List.mem_map.mp h
  have hframe := frame?_afterAll us p.task.id
  rw [frame?, (keyed_afterAll us).mem_iff.mp hp, Option.map_some] at hframe
  obtain ⟨r, hr, heq⟩ := Option.map_eq_some_iff.mp hframe.symm
  refine ⟨r, hr, ?_⟩
  have hstate := congrArg (·.withState p.task.state) heq
  exact hstate.symm

theorem exists_registered_of_registered? {us : List Use} {id : String} {r : RemoteTask}
    (h : registered? us id = some r) : ∃ state, Registered us (r.withState state) := by
  have hframe := frame?_afterAll us id
  rw [h, Option.map_some] at hframe
  obtain ⟨p, hp, heq⟩ := Option.map_eq_some_iff.mp hframe
  have hstate := congrArg (·.withState p.task.state) heq
  refine ⟨p.task.state, List.mem_map.mpr ⟨p, List.mem_of_find?_eq_some hp, ?_⟩⟩
  exact hstate

theorem mem_owned_afterAll {us : List Use} {o : String} {t : RemoteTask} :
    t ∈ owned o (afterAll us) ↔ Registered us t ∧ isOwnedBy o t = true := mem_owned_iff

/-- **Listing selects.**  After any history the tasks of an owner are listed, each once and in the
order of their times, and nothing changes.  What is registered are the tasks that were scripted last
under their ids, but for their states; of these are listed the ones whose parent is the owner's
address with any number of copies of the word for lists behind it, or none at all if that address
ends in the word itself.  So of the tasks with the owner's own list as parent all are there unless
it does, and of those with another owner's list as parent none unless the address of that one is the
owner's with more of the words. -/
theorem tasksOf_selects (us : List Use) (o : String) :
    ∃ ts, tasksOf o (afterAll us) = (.ok ts, afterAll us) ∧
      ts.Pairwise (fun a b => a.timestamp ≤ b.timestamp) ∧ (ts.map (·.id)).Nodup ∧
      (∀ t, Registered us t → ∃ r, registered? us t.id = some r ∧ t = r.withState t.state) ∧
      (∀ id r, registered? us id = some r → ∃ state, Registered us (r.withState state)) ∧
      (∀ t, t ∈ ts ↔ Registered us t ∧ ¬EndsIn (trimEndSlashes o) "/tasks" ∧
        ∃ k, parent? t = some (trimEndSlashes o ++ repeated "/tasks" k)) ∧
      (∀ t, Registered us t → parent? t = some (listAddress o) →
        (t ∈ ts ↔ ¬EndsIn (trimEndSlashes o) "/tasks")) ∧
      (∀ p t, trimEndSlashes p ≠ trimEndSlashes o → Registered us t → parent? t =
        some (listAddress p) →
        (t ∈ ts ↔ ¬EndsIn (trimEndSlashes o) "/tasks" ∧
          ∃ k, trimEndSlashes p = trimEndSlashes o ++ repeated "/tasks" (k + 1))) := by
  refine ⟨owned o (afterAll us), tasksOf_eq o _, pairwise_owned o _,
    (keyed_afterAll us).nodup_owned o,
    fun t ht => ht.exists_registered?, fun id r hr =>
      exists_registered_of_registered? hr, ?_, ?_, ?_⟩
  · intro t
    rw [mem_owned_afterAll, isOwnedBy_iff]
  · intro t ht hparent
    rw [mem_owned_afterAll, and_iff_right ht, isOwnedBy_iff_of_own hparent]
  · intro p t hp ht hparent
    rw [mem_owned_afterAll, and_iff_right ht, isOwnedBy_iff_of_other hp hparent]

def taskUnder (parent id : String) (timestamp : Int64) : RemoteTask :=
  (RemoteTask.create id .deploy timestamp).addLink ⟨relParent, parent, none, none⟩

/-- Two tasks of one owner, of which one is read, and one of another owner. -/
def twoOwners : List Use :=
  [.scriptTask (taskUnder "machines/1/tasks" "a" 2) [.started],
    .scriptTask (taskUnder "machines/1/tasks" "b" 1) [],
    .scriptTask (taskUnder "machines/2/tasks" "c" 0) [], .readTask (.create "a" .deploy 0)]

/-- The first owner's tasks are listed, the one that was read in its new state, and the other's is
not. -/
theorem two_owners_told_apart :
    ∃ ts, (tasksOf "machines/1//" (afterAll twoOwners)).1 = .ok ts ∧
      taskUnder "machines/1/tasks" "b" 1 ∈ ts ∧
      (taskUnder "machines/1/tasks" "a" 2).withState .started ∈ ts ∧
      taskUnder "machines/2/tasks" "c" 0 ∉ ts := by
  obtain ⟨ts, hts, _, _, _, _, _, hown, hother⟩ := tasksOf_selects twoOwners "machines/1//"
  have hends : ¬EndsIn (trimEndSlashes "machines/1//") "/tasks" := by decide
  have hends' : ¬EndsIn (trimEndSlashes "machines/2") "/tasks" := by decide
  have hregistered : ∀ t ∈ [taskUnder "machines/1/tasks" "b" 1,
      (taskUnder "machines/1/tasks" "a" 2).withState .started, taskUnder "machines/2/tasks" "c" 0],
      Registered twoOwners t := by
    unfold Registered
    decide
  refine ⟨ts, congrArg Prod.fst hts, ?_, ?_, ?_⟩
  · exact (hown _ (hregistered _ (by decide)) (by decide)).mpr hends
  · exact (hown _ (hregistered _ (by decide)) (by decide)).mpr hends
  · intro hc
    have hlonger :=
      (hother "machines/2" _ (by decide) (hregistered _ (by decide)) (by decide)).mp hc
    obtain ⟨_, k, hk⟩ := hlonger
    exact hends' (hk ▸ endsIn_append_repeated_succ _ _ k)

/-- The only task is the one with the list of an owner as its parent whose address ends in the word
for lists: that owner has no tasks, and another one has this task. -/
theorem task_under_wrong_owner :
    let us := [Use.scriptTask (taskUnder "clouds/tasks/tasks" "a" 0) []]
    Registered us (taskUnder "clouds/tasks/tasks" "a" 0) ∧
    parent? (taskUnder "clouds/tasks/tasks" "a" 0) = some (listAddress "clouds/tasks") ∧
    trimEndSlashes "clouds/tasks" ≠ trimEndSlashes "clouds" ∧
    (tasksOf "clouds/tasks" (afterAll us)).1 = .ok [] ∧
    (tasksOf "clouds" (afterAll us)).1 = .ok [taskUnder "clouds/tasks/tasks" "a" 0] := by
  intro us
  have hmissing : ((afterAll us).tasks.map (·.task)).filter (isOwnedBy "clouds/tasks") =
    [] := by decide
  have hfound : ((afterAll us).tasks.map (·.task)).filter (isOwnedBy "clouds") =
      [taskUnder "clouds/tasks/tasks" "a" 0] := by decide
  refine ⟨List.mem_cons_self, by decide, by decide, ?_, ?_⟩
  · rw [tasksOf, hmissing, List.mergeSort_nil]
  · rw [tasksOf, hfound, List.mergeSort_singleton]

end TaskWatch.Api.Scripts
