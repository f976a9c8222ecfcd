import TaskWatch.Proofs.Call.Vigil
import TaskWatch.Proofs.Online.Deadlines
import TaskWatch.Proofs.Online.Identity
import TaskWatch.Proofs.Watch.Stages

/-!
# The verdict of a run

A run that returns has got one report for each id that its links led to, and each report says what
the replies to the requests for that id make of the task.  Whether that is still the task with this
id is up to the server.

* `taskCount_eq`: a run waits for as many reports as there are ids.
* `Watcher.Sound.received_perm`: the reports that a run has got when it has enough of them.
* `Watcher.Tells`: what a report says, given the replies.  `Watcher.Sound.tells`: each report says
  that.
* `Watcher.Sound.id_eq`, `Watcher.Tells.state_eq`: the id and the state of the task in a report.
* `returned_verdict`: what this comes to for the whole program.
* `verdict_on_another_task`: where the server gives back another task.
-/

namespace TaskWatch.Watch

open TaskWatch.Api (Reply)
open TaskWatch.Api.Client (atHome behindLink given_or_decoded linkedTask)
open TaskWatch.Monitor
open TaskWatch.Resource

/-! ## How many reports there are -/

theorem nodup_eraseDups (ks : List String) : ks.eraseDups.Nodup := by
  induction hn : ks.length using Nat.strongRecOn generalizing ks with
  | ind n ih =>
    cases ks with
    | nil => exact .nil
    | cons k ks =>
      rw [List.eraseDups_cons, List.nodup_cons, List.mem_eraseDups]
      refine ⟨by simp, ih _ ?_ _ rfl⟩
      have hle := List.length_filter_le (fun b => !b == k) ks
      rw [List.length_cons] at hn
      omega

/-- A run waits for as many reports as its tasks have ids. -/
theorem taskCount_eq (ts : List RemoteTask) :
    taskCount ts = (ts.map Watchable.key).dedup.length := by
  refine List.Perm.length_eq ?_
  rw [List.perm_ext_iff_of_nodup (nodup_eraseDups _) (List.nodup_dedup _)]
  intro k
  rw [List.mem_eraseDups, List.mem_dedup]
  rfl

/-! ## Runs that return -/

variable {a : Arguments} {ns : List Happening} {p : Watcher}

/-- No more reports are sent than a run waits for. -/
theorem Watcher.Sound.subperm (hp : p.Sound a ns) :
    ((p.received ++ p.inbox).map Delivery.key).Subperm (p.tasks.map Watchable.key).dedup := by
  have hcall := hp.course.offline
  have hpub := Call.nodup_published (hcall.nodup_ledger (Call.nodup_map_key_collect _))
  rw [← hp.sent]
  exact (hcall.callbacksKept.nodup_delivered hpub).subperm hcall.delivered_subset_dedup

theorem Watcher.Sound.length_le (hp : p.Sound a ns) :
    p.received.length + p.inbox.length ≤ taskCount p.tasks := by
  have hle := hp.subperm.length_le
  rwa [List.length_map, List.length_append, ← taskCount_eq] at hle

/-- A run that has as many reports as it waits for has one for each id, and all there are. -/
theorem Watcher.Sound.received_perm (hp : p.Sound a ns)
    (hl : p.received.length = taskCount p.tasks) :
    p.inbox = [] ∧ (p.received.map Delivery.key).Perm (p.tasks.map Watchable.key).dedup := by
  have hle := hp.length_le
  have hinbox : p.inbox = [] := List.length_eq_zero_iff.mp (by omega)
  have hsub := hp.subperm
  rw [hinbox, List.append_nil] at hsub
  refine ⟨hinbox, hsub.perm_of_length_le (Nat.le_of_eq ?_)⟩
  rw [List.length_map, hl, taskCount_eq]

/-! ## What reports say -/

/-- A report says what the replies to the requests for an id make of the task that a link led to.
Where several did, the last one counts. -/
def Watcher.Tells (p : Watcher) (ns : List Happening) (id : String) (r : Report) : Prop :=
  ∃ t, Call.lastWith id p.tasks = some t ∧
    p.client.taskLaw.Tells t (exchangesOf id (callLog ns)) r.task r.outcome

theorem Watcher.Sound.tells (hp : p.Sound a ns) {d : Delivery RemoteTask}
    (hd : d ∈ p.scene.call.delivered) : p.Tells ns d.key (reportOf d) := by
  have hcall := hp.course.offline
  have hkey := hcall.delivered_subset_dedup (List.mem_map_of_mem hd)
  have hkey := Call.mem_map_key_collect.mpr (List.mem_dedup.mp hkey)
  obtain ⟨e, he, hek⟩ := List.mem_map.mp hkey
  have hlast := Call.mem_collect.mp he
  rw [hek] at hlast
  exact ⟨e.target, hlast, hp.course.tells (hcall.callbacksKept.delivered_subset hd) hlast⟩

/-- The replies to the requests for an id are about the task with this id. -/
def AnswersAbout (ns : List Happening) (id : String) : Prop :=
  ∀ x ∈ exchangesOf id (callLog ns), ∀ t, x.reply.decoded? RemoteTask.codec = some t → t.id = id

/-- A report for an id is about the task with this id as long as the replies are. -/
theorem Watcher.Sound.id_eq (hp : p.Sound a ns) {d : Delivery RemoteTask}
    (hd : d ∈ p.scene.call.delivered) (hns : AnswersAbout ns d.key) : d.target.id = d.key := by
  have hhas : p.scene.call.Has d.key d.target := Or.inr ⟨d.outcome, List.mem_append_right _ hd⟩
  rcases given_or_decoded hp.course hhas with hgiven | ⟨x, hx, hdecoded⟩
  · exact Call.key_of_lastWith hgiven
  · exact hns x hx _ hdecoded

theorem Watcher.Tells.state_eq {id : String} {r : Report} (h : p.Tells ns id r) :
    (r.outcome = .completed → r.task.state = .finishedSuccessfully) ∧
    (r.outcome = .failed → r.task.state = .finishedUnsuccessfully) := by
  obtain ⟨t, -, hended | ⟨ho, -⟩⟩ := h
  · rcases p.client.state_of_ended hended with ⟨ho, hs⟩ | ⟨ho, hs⟩ <;> simp [ho, hs]
  · simp [ho]

/-- A run with all its reports counts those that do not say that a task was completed. -/
theorem Watcher.failures_tally (p : Watcher) :
    (p.tally 0).failures = (p.tally 0).reports.countP (·.outcome ≠ .completed) := by
  have hsame : (fun r : Report => !r.isSuccess) = fun r => decide (r.outcome ≠ .completed) := by
    funext r
    cases h : r.outcome <;> simp [Report.isSuccess, h]
  rw [List.countP_eq_length_filter, ← hsame]
  rfl

theorem Ending.status_ofRun (t : Tally) : (Ending.ofRun (.ok t)).status = 0 ↔ t.failures = 0 := by
  unfold Ending.ofRun
  by_cases h : t.failures = 0 <;> simp [h, Ending.status]

/-- **The verdict of a run.**  Whatever the server replies and whatever order the steps of a run are
taken in: if the run returns, it has fetched a task for each link, and has got one report for each
of their ids and no other one.  The report for an id says what the replies to the requests for it
make of the task: how they have ended it, or that it was given up as some of them have left it.  So
the reports are about the tasks with these ids, each of them once, as long as the replies are;
nothing else sees to that.  The run counts the reports that do not say that a task was completed; a
task that one says was completed has finished successfully, and one that failed unsuccessfully; and
the program exits with success if and only if that count is zero. -/
theorem returned_verdict {cfg : Settings} {t : Tally}
    (h : Course (Stage.Step cfg a) .starting ns (.returned p t)) :
    List.Forall₂ (Fetches p.client) a.tasks p.tasks ∧
    t.reports = p.scene.call.delivered.map reportOf ∧
    (∃ ids : List String, ids.Perm (p.tasks.map RemoteTask.id).dedup ∧
      List.Forall₂ (p.Tells ns) ids t.reports) ∧
    ((∀ id ∈ p.tasks.map RemoteTask.id, AnswersAbout ns id) →
      (t.reports.map (·.task.id)).Perm (p.tasks.map RemoteTask.id).dedup) ∧
    t.failures = t.reports.countP (·.outcome ≠ .completed) ∧
    (∀ r ∈ t.reports, (r.outcome = .completed → r.task.state = .finishedSuccessfully) ∧
      (r.outcome = .failed → r.task.state = .finishedUnsuccessfully)) ∧
    ((Ending.ofRun (.ok t)).status = 0 ↔ t.failures = 0) := by
  have hsound : (Stage.returned p t).Sound a ns :=
    h.invariant (P := fun ns g => g.Sound a ns) rfl fun hg next => next.sound hg
  obtain ⟨hp, hl, rfl⟩ := hsound
  obtain ⟨hinbox, hperm⟩ := hp.received_perm hl
  have hsent : p.scene.call.delivered = p.received := by
    rw [hp.sent, hinbox, List.append_nil]
  have htells : ∀ d ∈ p.received, p.Tells ns d.key (reportOf d) := fun d hd =>
    hp.tells (hsent ▸ hd)
  refine ⟨hp.fetched, by rw [hsent]; rfl, ⟨p.received.map Delivery.key, hperm, ?_⟩,
    fun hns => ?_, p.failures_tally, ?_, Ending.status_ofRun _⟩
  · show List.Forall₂ _ _ (p.received.map reportOf)
    rw [List.forall₂_map_left_iff, List.forall₂_map_right_iff]
    exact List.forall₂_same.mpr htells
  · have hids : (p.received.map reportOf).map (·.task.id) = p.received.map Delivery.key := by
      rw [List.map_map]
      refine List.map_congr_left fun d hd => hp.id_eq (hsent ▸ hd) (hns _ ?_)
      exact List.mem_dedup.mp (hperm.subset (List.mem_map_of_mem hd))
    exact hids ▸ hperm
  · intro r hr
    obtain ⟨d, hd, rfl⟩ := List.mem_map.mp hr
    exact (htells d hd).state_eq

/-- Three links, of which the first two lead to one task, and a minute for them. -/
def threeLinks : Arguments :=
  { Arguments.empty with tasks := ["tasks/1", "tasks/2", "tasks/3"], maxWaitSecs := some 60 }

/-- One task finishes.  The other one cannot be read, for it has no link to itself, and is given up:
the run counts one failure. -/
theorem returned_verdict_of_three_links :
    ∃ ns p t, Course (Stage.Step .standard threeLinks) .starting ns (.returned p t) ∧
      t.reports = [⟨linkedTask "tasks/4" .finishedSuccessfully, .completed⟩,
        ⟨.create "b" .reset 0, .timeout⟩] ∧
      t.failures = 1 ∧ (t.reports.map (·.task.id)).Perm (p.tasks.map RemoteTask.id).dedup ∧
      ((Ending.ofRun (.ok t)).status = 0 ↔ t.failures = 0) := by
  have h : Course (Stage.Step .standard threeLinks) .starting [] _ := .refl
  have h := h.tail (.connect (c := atHome) rfl)
  have h := h.tail (.fetch (i := 2) _ rfl rfl (atHome.fetchTask_written _ (.create "b" .reset 0)))
  have h := h.tail (.fetch (i := 0) _ rfl rfl
    (atHome.fetchTask_written _ (linkedTask "tasks/1" .pending)))
  have h := h.tail (.fetch (i := 1) _ rfl rfl
    (atHome.fetchTask_written _ (linkedTask "tasks/2" .started)))
  have accepted : Stage.Step .standard threeLinks
      (.fetching atHome ([linkedTask "tasks/1" .pending, linkedTask "tasks/2" .started,
        .create "b" .reset 0].map some)) .accepted _ := .accept rfl rfl
  have h := h.tail accepted
  have h := ((h.tail (.call (.other .advance rfl) rfl)).tail (.call (.other .advance rfl) rfl)).tail
    (.call (.other .advance rfl) rfl)
  have h := h.tail (.call (.other .advance rfl) rfl)
  have h := ((h.tail (.listen rfl rfl)).tail (.call (.other (.beginRound rfl) rfl) rfl)).tail
    (.call (.other (.ask rfl) rfl) rfl)
  have h := (h.tail (.call (.of_reading _ rfl (atHome.taskCheck_written rfl
    (linkedTask "tasks/4" .finishedSuccessfully))) rfl)).tail (.call (.other (.settle rfl) rfl) rfl)
  have h := ((h.tail (.call (.other (.pay rfl) rfl) rfl)).tail (.deliver 0 rfl)).tail
    (.call (.other (.ask rfl) rfl) rfl)
  have h := ((h.tail (.call (.of_reading (r := none) .nothing rfl rfl) rfl)).tail
    (.call (.other (.settle rfl) rfl) rfl)).tail (.call (.other (.endRound rfl) rfl) rfl)
  have h := ((h.tail (.call (.other (.expire rfl) rfl) rfl)).tail
    (.call (.other (.stopPoll rfl) rfl) rfl)).tail (.call (.other (.payTimeout rfl) rfl) rfl)
  have h := ((h.tail (.receive rfl (by decide) rfl)).tail (.deliver 0 rfl)).tail
    (.receive rfl (by decide) rfl)
  have h := h.tail (.finish rfl rfl)
  obtain ⟨-, -, -, hids, -, -, hstatus⟩ := returned_verdict h
  refine ⟨_, _, _, h, rfl, rfl, hids ?_, hstatus⟩
  -- One reply came, and that was about `a`; for `b` nothing was sent.
  intro id hid x hx t hdecoded
  have hid : id ∈ ["a", "a", "b"] := hid
  obtain rfl | rfl : id = "a" ∨ id = "b" := by simpa using hid
  · obtain rfl := List.mem_singleton.mp hx
    rw [← Reply.toOption_answer _ "", Reply.answer_encode readsBack_task] at hdecoded
    rw [← Option.some.inj hdecoded]
    rfl
  · cases hx

def oneLink : Arguments := { Arguments.empty with tasks := ["tasks/1"] }

/-- The link leads to the task `a`, and a request for it is answered with the task `b`, which has
finished: the only report is about `b`, and the program exits with success. -/
theorem verdict_on_another_task :
    ∃ ns p t, Course (Stage.Step .standard oneLink) .starting ns (.returned p t) ∧
      p.tasks = [linkedTask "tasks/1" .pending] ∧
      t.reports = [⟨behindLink "b" .finishedSuccessfully, .completed⟩] ∧
      (Ending.ofRun (.ok t)).status = 0 ∧
      ¬ (t.reports.map (·.task.id)).Perm (p.tasks.map RemoteTask.id).dedup := by
  have h : Course (Stage.Step .standard oneLink) .starting [] _ := .refl
  have h := h.tail (.connect (c := atHome) rfl)
  have h := h.tail (.fetch (i := 0) _ rfl rfl
    (atHome.fetchTask_written _ (linkedTask "tasks/1" .pending)))
  have accepted : Stage.Step .standard oneLink
      (.fetching atHome ([linkedTask "tasks/1" .pending].map some)) .accepted _ := .accept rfl rfl
  have h := h.tail accepted
  have h := ((h.tail (.call (.other .advance rfl) rfl)).tail (.call (.other .advance rfl) rfl)).tail
    (.call (.other .advance rfl) rfl)
  have h := ((h.tail (.listen rfl rfl)).tail (.call (.other (.beginRound rfl) rfl) rfl)).tail
    (.call (.other (.ask rfl) rfl) rfl)
  have h := (h.tail (.call (.of_reading _ rfl (atHome.taskCheck_written rfl
    (behindLink "b" .finishedSuccessfully))) rfl)).tail (.call (.other (.settle rfl) rfl) rfl)
  have h := ((h.tail (.call (.other (.pay rfl) rfl) rfl)).tail (.deliver 0 rfl)).tail
    (.receive rfl (by decide) rfl)
  have h := h.tail (.finish rfl rfl)
  refine ⟨_, _, _, h, rfl, rfl, rfl, fun hperm => ?_⟩
  exact absurd (hperm.mem_iff (a := "b")) (by decide)

end TaskWatch.Watch
