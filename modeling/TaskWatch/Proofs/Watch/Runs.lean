import TaskWatch.Proofs.Online.Runs
import TaskWatch.Proofs.Watch.Verdict

/-!
# Runs of the program in one go

What the program does in one go is a row of steps of a run: it fetches one task after another, takes
the rounds of the call with nothing in between, and gets all reports at the end.

* `Stage.Reaches`: one stage comes from another one by steps in a row.
* `reaches_fetchTasks`, `reaches_calls`, `reaches_receiveAll`: the parts of a run.
* `reaches_runWith`: what a whole run gives.
-/

namespace TaskWatch.Watch

open TaskWatch.Api (Client Exchange Network Reply)
open TaskWatch.Monitor
open TaskWatch.Resource

variable {σ : Type} {s : Settings} {a : Arguments}

/-- One stage comes from another one by steps in a row. -/
def Stage.Reaches (s : Settings) (a : Arguments) (g g' : Stage) : Prop :=
  ∃ ns, Course (Stage.Step s a) g ns g'

namespace Stage.Reaches

theorem refl (g : Stage) : Reaches s a g g := ⟨[], .refl⟩

theorem tail {g g' g'' : Stage} {n : Happening} (h : Reaches s a g g')
    (next : Stage.Step s a g' n g'') : Reaches s a g g'' := by
  obtain ⟨ns, h⟩ := h
  exact ⟨_, h.tail next⟩

theorem trans {g g' g'' : Stage} (h : Reaches s a g g') (h' : Reaches s a g' g'') :
    Reaches s a g g'' := by
  obtain ⟨ns, h⟩ := h
  obtain ⟨ns', h'⟩ := h'
  exact ⟨ns ++ ns', h.trans h'⟩

theorem of_step {g g' : Stage} {n : Happening} (h : Stage.Step s a g n g') : Reaches s a g g' :=
  (refl g).tail h

theorem sound {g : Stage} (h : Reaches s a .starting g) : ∃ ns, g.Sound a ns := by
  obtain ⟨ns, h⟩ := h
  exact ⟨ns, h.invariant (P := fun ns g => g.Sound a ns) rfl fun hg next => next.sound hg⟩

end Stage.Reaches

/-! ## Fetching -/

/-- Where a run that has some tasks comes to by fetching the others. -/
def Stage.afterFetching (c : Client) (ts : List RemoteTask) :
    Except Failure (List RemoteTask) → Stage
  | .ok ts' => .fetching c ((ts ++ ts').map some)
  | .error e => .failed e

theorem Stage.afterFetching_map_cons (c : Client) (ts : List RemoteTask) (t : RemoteTask)
    (r : Except Failure (List RemoteTask)) :
    Stage.afterFetching c ts (r.map (t :: ·)) = Stage.afterFetching c (ts ++ [t]) r := by
  cases r with
  | error e => rfl
  | ok ts' => simp [Except.map, afterFetching]

/-- Fetching the tasks behind the rest of the links, one after another. -/
theorem reaches_fetchTasks (net : Network σ) (c : Client) (before hrefs : List String)
    (ts : List RemoteTask) (w : σ) (ha : a.tasks = before ++ hrefs)
    (hl : ts.length = before.length) :
    Stage.Reaches s a (.fetching c (ts.map some ++ hrefs.map fun _ => none))
      (.afterFetching c ts (fetchTasks net c hrefs w).1) := by
  induction hrefs generalizing before ts w with
  | nil => simpa [fetchTasks, Stage.afterFetching] using Stage.Reaches.refl _
  | cons href rest ih =>
    have hi : a.tasks[ts.length]? = some href := by simp [ha, hl]
    have hn : (ts.map some ++ (href :: rest).map fun _ => none)[ts.length]? =
        some (none : Option RemoteTask) := by simp
    -- The reply is all that the network has to do with the step.
    obtain ⟨reply, hreply⟩ : ∃ reply,
        (c.fetchTask (.recording reply) href []).1 = (c.fetchTask net href w).1 := ⟨_, rfl⟩
    rw [fetchTasks]
    generalize c.fetchTask net href w = answer at hreply
    obtain ⟨r, w'⟩ := answer
    cases r with
    | error e => exact .of_step (.unfetched reply hi hn hreply)
    | ok t =>
      have hset : (ts.map some ++ (href :: rest).map fun _ => none).set ts.length (some t) =
          (ts ++ [t]).map some ++ rest.map fun _ => none := by simp
      have hfirst := Stage.Step.fetch (s := s) reply hi hn hreply
      rw [hset] at hfirst
      have hrest := ih (before ++ [href]) (ts ++ [t]) w' (by simp [ha]) (by simp [hl])
      dsimp only
      rw [Stage.afterFetching_map_cons]
      exact (Stage.Reaches.of_step hfirst).trans hrest

/-! ## Watching -/

/-- An event is one of the call itself, or a callback runs, or somebody closes the scheduler. -/
theorem ofCall_or (ev : Event RemoteTask) :
    ofCall ev = true ∨ (∃ d, ev = .delivered d) ∨ ev = .closing ∨ ev = .shutDown := by
  cases ev with
  | delivered d => exact Or.inr (Or.inl ⟨d, rfl⟩)
  | closing => exact Or.inr (Or.inr (Or.inl rfl))
  | shutDown => exact Or.inr (Or.inr (Or.inr rfl))
  | _ => exact Or.inl rfl

/-- What a call goes through online, a run goes through with it, if nobody closes the scheduler. -/
theorem reaches_calls {p : Watcher} {log : List (Event RemoteTask × List Exchange)}
    {w : Scene RemoteTask} (h : Course (Online.Step (tasksOnline p.client)) p.scene log w)
    (hs : w.standing = .running) :
    ∃ sent, w.call.delivered = p.scene.call.delivered ++ sent ∧ Stage.Reaches s a (.watching p)
      (.watching { p with scene := w, inbox := p.inbox ++ sent }) := by
  induction h with
  | refl => exact ⟨[], by simp, by simpa using Stage.Reaches.refl _⟩
  | @tail log w w' x prior next ih =>
    obtain ⟨ev, out⟩ := x
    have hstep : Monitor.Step w ev w' := next.offline
    have hrunning : w.standing = .running := by
      by_contra hne
      exact hstep.standing_ne_running hne hs
    obtain ⟨sent, hsent, hreach⟩ := ih hrunning
    rcases ofCall_or ev with hev | ⟨d, rfl⟩ | rfl | rfl
    · have hsame := Watcher.delivered_call hstep hev
      exact ⟨sent, hsame.trans hsent, hreach.tail (.call next hev)⟩
    · cases hstep with
      | @deliver c s _ i hi =>
        refine ⟨sent ++ [d], ?_, ?_⟩
        · rw [Call.deliver_of_pending hi, ← List.append_assoc]
          exact congrArg (· ++ [d]) hsent
        · rw [← List.append_assoc]
          exact hreach.tail (.deliver i hi)
    · cases hstep with
      | close => cases hs
    · cases hstep with
      | shutDown => cases hs

/-- A run that listens gets all that is in its inbox. -/
theorem reaches_receiveAll {p : Watcher} {ds : List (Delivery RemoteTask)} (hl : p.listening = true)
    (hi : p.inbox = ds) (hw : p.received.length + ds.length ≤ taskCount p.tasks) :
    Stage.Reaches s a (.watching p)
      (.watching { p with inbox := [], received := p.received ++ ds }) := by
  induction ds generalizing p with
  | nil =>
    cases p
    cases hi
    simpa using Stage.Reaches.refl _
  | cons d ds ih =>
    rw [List.length_cons] at hw
    have hfirst : Stage.Step s a (.watching p) (.received d)
        (.watching { p with inbox := ds, received := p.received ++ [d] }) :=
      .receive hl (by omega) hi
    have hrest := ih (p := { p with inbox := ds, received := p.received ++ [d] }) hl rfl (by
      simp only [List.length_append, List.length_singleton]
      omega)
    simpa using (Stage.Reaches.of_step hfirst).trans hrest

/-- What a call has told, as a run that has got all of it tells it. -/
theorem tally_ofCall {c : Call RemoteTask} {p : Watcher} (hd : c.delivered = p.received)
    (hl : p.received.length ≤ taskCount p.tasks) :
    Tally.ofCall p.tasks c = p.tally (taskCount p.tasks - p.received.length) := by
  simp [Tally.ofCall, Watcher.tally, hd, List.take_of_length_le hl, reportOf]

/-! ## Whole runs -/

/-- What a run gives at a stage: it has failed or returned, or it still waits for some reports and
gives those that there are. -/
def Stage.Gives : Stage → Except Failure Tally → Prop
  | .failed e, .error e' => e = e'
  | .returned _ t, .ok t' => t = t'
  | .watching p, .ok t => p.received.length < taskCount p.tasks ∧
    p.scene.call.delivered = p.received ∧ t = p.tally (taskCount p.tasks - p.received.length)
  | _, _ => False

/-- A run whose call has begun listens to it. -/
theorem reaches_listening {c : Client} {ts : List RemoteTask} {v : Service Unit}
    {call : Call RemoteTask} (hreach : Stage.Reaches s a .starting (.fetching c (ts.map some)))
    (hv : Service.start s.monitor = .ok v) (hw : v.watch ts (maxWaitMs a) = .ok call) :
    ∃ inbox, Stage.Reaches s a .starting
      (.watching ⟨c, ts, ⟨call, .running⟩, true, inbox, []⟩) := by
  have hopen := Service.closed_of_start hv
  have hstanding : v.standing = .running := by simp [Service.standing, hopen]
  obtain ⟨active, haccept, hleads⟩ :=
    leads_watch (A := Check.Gives (tasksOnline c (.recording .nothing))) hw
  rw [hstanding] at hleads
  obtain ⟨log, hlog⟩ := hleads.online (consults_tasks c)
  have hbegin := hreach.tail (.accept hv haccept)
  obtain ⟨sent, -, hcalls⟩ := reaches_calls (s := s) (a := a)
    (p := .begin c ts active (maxWaitMs a).isSome) hlog rfl
  have hbegun : call.opening = .begun := by
    unfold Service.watch at hw
    simp only [haccept, bind, Except.bind, hopen, Call.opening_launch, reduceCtorEq, if_false] at hw
    rw [← Except.ok.inj hw, Call.opening_launch]
  exact ⟨_, (hbegin.trans hcalls).tail (.listen rfl hbegun)⟩

/-- A run that listens gets all that its call tells. -/
theorem reaches_gives {p : Watcher} {log : List (Event RemoteTask × List Exchange)}
    {call : Call RemoteTask} (hreach : Stage.Reaches s a .starting (.watching p))
    (hl : p.listening = true) (hr : p.received = [])
    (h : Course (Online.Step (tasksOnline p.client)) p.scene log ⟨call, .running⟩) :
    ∃ g, Stage.Reaches s a .starting g ∧ g.Gives (.ok (.ofCall p.tasks call)) := by
  obtain ⟨sent, hsent, hcalls⟩ := reaches_calls (s := s) (a := a) h rfl
  have hwatched := hreach.trans hcalls
  obtain ⟨ns, hsound⟩ := hwatched.sound
  have hle := Watcher.Sound.length_le hsound
  have hdelivered : call.delivered = p.inbox ++ sent := by
    have h := hsound.sent
    dsimp only at h
    rwa [hr, List.nil_append] at h
  have hall := hwatched.trans (reaches_receiveAll hl rfl hle)
  simp only [hr, List.nil_append, ← hdelivered] at hall
  have hfew : call.delivered.length ≤ taskCount p.tasks := by
    simpa [hr, hdelivered] using hle
  have htally := tally_ofCall (c := call)
    (p := { p with scene := ⟨call, .running⟩, inbox := [], received := call.delivered }) rfl hfew
  rw [htally]
  rcases Nat.lt_or_eq_of_le hfew with hlt | heq
  · exact ⟨_, hall, hlt, rfl, rfl⟩
  · refine ⟨_, hall.tail (.finish hl heq), ?_⟩
    simp [Stage.Gives, heq]

/-- Watching tasks for some rounds and then getting all reports. -/
theorem reaches_watchTasks (net : Network σ) {c : Client} {ts : List RemoteTask} (rounds : Nat)
    (w : σ) (hreach : Stage.Reaches s a .starting (.fetching c (ts.map some))) :
    ∃ g, Stage.Reaches s a .starting g ∧
      g.Gives (watchTasks net c s.monitor (maxWaitMs a) rounds ts w).1 := by
  cases hv : (Service.start s.monitor : Except Monitor.Error (Service Unit)) with
  | error e =>
    refine ⟨_, hreach.tail (.unaccepted (e := e) (by simp [hv, bind, Except.bind])), ?_⟩
    simp [watchTasks, hv, bind, Except.bind, Stage.Gives]
  | ok v =>
    have hopen := Service.closed_of_start hv
    cases hw : v.watch ts (maxWaitMs a) with
    | error e =>
      have haccept : Service.accept ts (maxWaitMs a) = .error e := by
        unfold Service.watch at hw
        cases ha : Service.accept ts (maxWaitMs a) with
        | error e' => simpa [ha, bind, Except.bind] using hw
        | ok active => simp [ha, bind, Except.bind, hopen, Call.opening_launch] at hw
      refine ⟨_, hreach.tail (.unaccepted (e := e) (by simp [hv, haccept, bind, Except.bind])), ?_⟩
      simp [watchTasks, hv, hw, bind, Except.bind, Stage.Gives]
    | ok call =>
      obtain ⟨inbox, hlisten⟩ := reaches_listening hreach hv hw
      simp only [watchTasks, hv, hw, bind, Except.bind]
      obtain ⟨log, hlog⟩ := (leads_runOut (s := .running) (tasksOnline c net) _ call w).online
        (consults_tasks c)
      exact reaches_gives hlisten rfl rfl hlog

/-- **Whole runs are courses.**  What the program gives in one go, over any network and in so many
rounds, a run gives that has come there by steps. -/
theorem reaches_runWith (net : Network σ) (rounds : Nat) (w : σ) :
    ∃ g, Stage.Reaches s a .starting g ∧ g.Gives (runWith net rounds s a w).1 := by
  unfold runWith
  cases hc : Client.connect s.api with
  | error e => exact ⟨_, .of_step (.unconnected hc), rfl⟩
  | ok c =>
    have hconnect : Stage.Reaches s a .starting (.fetching c (a.tasks.map fun _ => none)) :=
      .of_step (.connect hc)
    have hfetch := reaches_fetchTasks (s := s) net c [] a.tasks [] w rfl rfl
    have hfetched := hconnect.trans hfetch
    dsimp only
    generalize fetchTasks net c a.tasks w = answer at hfetched
    obtain ⟨r, w'⟩ := answer
    cases r with
    | error e => exact ⟨_, hfetched, rfl⟩
    | ok ts => exact reaches_watchTasks net rounds w' hfetched

end TaskWatch.Watch
