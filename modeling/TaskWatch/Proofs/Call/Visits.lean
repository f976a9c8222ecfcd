import TaskWatch.Proofs.Call.Refusal
import TaskWatch.Proofs.Call.Runs
import TaskWatch.Proofs.Call.Vigil

/-!
# Two ways to wait

A caller can wait for a call at once, or hold its thread up, for which it has to come from outside
of any runtime, looks whether the scheduler is closed, and builds a runtime of its own.  Anything
may happen between these steps.

* `Visit`: a caller of either kind.  `Visit.Step`: its steps.
* `outerRun`: a run as others see it, without the steps that a caller takes on its way in.
* `Visit.plain`: a caller that holds its thread up, taken for one that does not.
  `Visit.Step.plain`: its steps are steps of the other one, or are not seen.
* `Barred`: a caller that came to a closed scheduler.  `Visit.Step.barred`: it might as well have
  been turned away.
* `stands_await`, `stands_awaitBlocking`: what a service does in one go are such steps.
* `blocking_agrees`: both kinds of callers get the same, but for one case, shown by
  `closed_before_no_targets`.
-/

namespace TaskWatch.Monitor

variable {T : Type}

/-! ## Callers -/

/-- Where a caller is that has not begun to wait. -/
inductive Door where
  /-- About to see whether its thread is inside a runtime. -/
  | arriving (inside : Bool)
  /-- About to look whether the scheduler has been closed. -/
  | knocking
  /-- About to build the runtime that it waits in. -/
  | preparing
  /-- About to have its objects and its time checked. -/
  | asking
  | turnedAway (why : Error)

/-- A caller who waits for a call, or wants to. -/
inductive Visit (T : Type) where
  | outside (door : Door) (s : Standing)
  | within (v : Vigil T)

def Visit.result? : Visit T → Option (Except Error Unit)
  | .outside (.turnedAway e) _ => some (.error e)
  | .outside _ _ => none
  | .within v =>
    match v.caller with
    | .returned r => some r
    | _ => none

def Visit.standing : Visit T → Standing
  | .outside _ s => s
  | .within v => v.standing

section Steps

variable [Watchable T]

/-- The steps of a caller, those outside of a call without an incident; `fault?` says why no runtime
can be built, if none can. -/
inductive Visit.Step (targets : List T) (maxWait : Option Nat) (fault? : Option String) :
    Visit T → Option (Incident T) → Visit T → Prop
  | arrive {inside : Bool} {s : Standing} :
      Step targets maxWait fault? (.outside (.arriving inside) s) none
        (.outside (if inside then .turnedAway .blockingInAsyncContext else .knocking) s)
  | knock {s : Standing} :
      Step targets maxWait fault? (.outside .knocking s) none
        (.outside (if s = .running then .preparing else .turnedAway .closed) s)
  | prepare {s : Standing} (h : fault? = none) :
      Step targets maxWait fault? (.outside .preparing s) none (.outside .asking s)
  | fail {s : Standing} {why : String} (h : fault? = some why) :
      Step targets maxWait fault? (.outside .preparing s) none
        (.outside (.turnedAway (.runtime why)) s)
  | reject {s : Standing} {e : Error} (h : Service.accept targets maxWait = .error e) :
      Step targets maxWait fault? (.outside .asking s) none (.outside (.turnedAway e) s)
  | accept {s : Standing} {active : List (Entry T)}
      (h : Service.accept targets maxWait = .ok active) :
      Step targets maxWait fault? (.outside .asking s) none (.within (.begin active maxWait s))
  | close {door : Door} :
      Step targets maxWait fault? (.outside door .running) (some (.call .closing))
        (.outside door .refusing)
  | shutDown {door : Door} :
      Step targets maxWait fault? (.outside door .refusing) (some (.call .shutDown))
        (.outside door .down)
  | tick {door : Door} {s : Standing} :
      Step targets maxWait fault? (.outside door s) (some .ticked) (.outside door s)
  | wait {v v' : Vigil T} {n : Incident T} (h : Vigil.Step v n v') :
      Step targets maxWait fault? (.within v) (some n) (.within v')

end Steps

/-- What others see of a step: not those that a caller takes on its way in, and not how the active
objects stand. -/
def outer? : Option (Incident T) → Option (Incident T)
  | none | some (.call .advanced) | some (.call .arranged) | some .started | some .refused => none
  | some n => some n

def outerRun (ls : List (Option (Incident T))) : List (Incident T) := ls.filterMap outer?

theorem outerRun_append (ls ls' : List (Option (Incident T))) :
    outerRun (ls ++ ls') = outerRun ls ++ outerRun ls' := List.filterMap_append

variable [Watchable T] {targets : List T} {maxWait : Option Nat} {fault? : Option String}
  {s : Standing} {x x' y : Visit T} {l : Option (Incident T)} {ls : List (Option (Incident T))}
  {ns : List (Incident T)} {r : Except Error Unit}

/-- A caller comes to `x` in some run that others see as `ns`. -/
def Reaches (targets : List T) (maxWait : Option Nat) (fault? : Option String) (door : Door)
    (s : Standing) (ns : List (Incident T)) (x : Visit T) : Prop :=
  ∃ ls, Course (Visit.Step targets maxWait fault?) (.outside door s) ls x ∧ outerRun ls = ns

/-- A caller gets `r` in some run that others see as `ns`. -/
def Returns (targets : List T) (maxWait : Option Nat) (fault? : Option String) (door : Door)
    (s : Standing) (ns : List (Incident T)) (r : Except Error Unit) : Prop :=
  ∃ x, Reaches targets maxWait fault? door s ns x ∧ x.result? = some r

theorem Reaches.start {door : Door} :
    Reaches targets maxWait fault? door s [] (.outside door s) := ⟨[], .refl, rfl⟩

theorem Reaches.step {door : Door} (h : Reaches targets maxWait fault? door s ns x)
    (next : Visit.Step targets maxWait fault? x l x') :
    Reaches targets maxWait fault? door s (ns ++ (outer? l).toList) x' := by
  obtain ⟨ls, hcourse, rfl⟩ := h
  refine ⟨_, hcourse.tail next, ?_⟩
  rw [outerRun_append]
  rfl

theorem Reaches.unseen {door : Door} (h : Reaches targets maxWait fault? door s ns x)
    (next : Visit.Step targets maxWait fault? x l x') (hl : outer? l = none) :
    Reaches targets maxWait fault? door s ns x' := by
  have hstep := h.step next
  rw [hl, Option.toList_none, List.append_nil] at hstep
  exact hstep

/-- Let each step of a caller be one of another caller, or be seen by nobody and none of it.  Then
the other one comes along in runs that are seen as the same. -/
theorem Reaches.follow {f : Visit T → Visit T} {fault?' : Option String} {door door' : Door}
    {P : Visit T → Prop} (h : Reaches targets maxWait fault? door s ns x)
    (hP : P (.outside door s))
    (h₀ : Reaches targets maxWait fault?' door' s [] (f (.outside door s)))
    (hstep : ∀ {x l x'}, P x → Visit.Step targets maxWait fault? x l x' →
      P x' ∧ (outer? l = none ∧ f x' = f x ∨
        Visit.Step targets maxWait fault?' (f x) l (f x'))) :
    P x ∧ Reaches targets maxWait fault?' door' s ns (f x) := by
  obtain ⟨ls, hcourse, rfl⟩ := h
  induction hcourse with
  | refl => exact ⟨hP, h₀⟩
  | @tail ls x₁ x₂ l prior next ih =>
    obtain ⟨hP₁, hreach⟩ := ih
    obtain ⟨hP₂, hmoved⟩ := hstep hP₁ next
    refine ⟨hP₂, ?_⟩
    have hrun : outerRun (ls ++ [l]) = outerRun ls ++ (outer? l).toList := outerRun_append _ _
    rw [hrun]
    rcases hmoved with ⟨hl, hsame⟩ | hmoved
    · rw [hsame, hl, Option.toList_none, List.append_nil]
      exact hreach
    · exact hreach.step hmoved

/-! ## Entries in one go -/

/-- A caller whose call has come through its beginning, with nothing in between. -/
def Vigil.entered (active : List (Entry T)) (maxWait : Option Nat) (s : Standing) : Vigil T :=
  { Vigil.begin active maxWait s with
    await := .start ((Call.prepare active maxWait.isSome).launch (s != .running)) }

omit [Watchable T] in
theorem Call.active_launch (active : List (Entry T)) (timed closed : Bool) :
    ((Call.prepare active timed).launch closed).active = active := by
  cases timed <;> cases closed <;> rfl

omit [Watchable T] in
theorem Call.opening_launch_closed (active : List (Entry T)) (timed : Bool) :
    ((Call.prepare active timed).launch true).opening = .refused := by
  cases timed <;> rfl

theorem Reaches.entered {door : Door} {s' : Standing} {active : List (Entry T)}
    (ha : Service.accept targets maxWait = .ok active)
    (h : Reaches targets maxWait fault? door s ns (.outside .asking s')) :
    Reaches targets maxWait fault? door s ns (.within (.entered active maxWait s')) := by
  have hin := h.unseen (.accept ha) rfl
  have hin := (hin.unseen (.wait (.call .advance nofun)) rfl).unseen
    (.wait (.call .advance nofun)) rfl
  have hin := (hin.unseen (.wait (.call .advance nofun)) rfl).unseen
    (.wait (.call .advance nofun)) rfl
  -- The latch was set before the beginning of the call, which leaves the active objects alone.
  have hlatch : Await.start ((Call.prepare active maxWait.isSome).launch (s' != .running)) =
      ⟨(Call.prepare active maxWait.isSome).launch (s' != .running), .start active.length⟩ := by
    rw [Await.start, Call.remaining, Call.active_launch]
  rw [Vigil.entered, hlatch]
  exact hin

/-- A caller that asks on a closed scheduler can be refused at once. -/
theorem Reaches.refused {door : Door} {s' : Standing} {active : List (Entry T)}
    (ha : Service.accept targets maxWait = .ok active) (hs : s' ≠ .running)
    (h : Reaches targets maxWait fault? door s ns (.outside .asking s')) :
    Returns targets maxWait fault? door s ns (.error .closed) := by
  have hclosed : (s' != .running) = true := bne_iff_ne.mpr hs
  have ho : (Vigil.entered active maxWait s').await.call.opening = .refused := by
    show ((Call.prepare active maxWait.isSome).launch (s' != .running)).opening = .refused
    rw [hclosed, Call.opening_launch_closed]
  exact ⟨_, (h.entered ha).unseen (.wait (.refuse rfl ho)) rfl, rfl⟩

/-! ## A caller that holds its thread up, taken for one that does not -/

/-- The same caller at the door of those who do not hold their thread up. -/
def Visit.plain : Visit T → Visit T
  | .outside _ s => .outside .asking s
  | .within v => .within v

theorem Visit.Step.plain (h : Visit.Step targets maxWait fault? x l x') :
    outer? l = none ∧ x'.plain = x.plain ∨ Visit.Step targets maxWait none x.plain l x'.plain := by
  cases h with
  | arrive | knock | prepare | fail | reject => exact Or.inl ⟨rfl, rfl⟩
  | accept h => exact Or.inr (.accept h)
  | close => exact Or.inr .close
  | shutDown => exact Or.inr .shutDown
  | tick => exact Or.inr .tick
  | wait h => exact Or.inr (.wait h)

theorem Reaches.plain {door : Door} (h : Reaches targets maxWait fault? door s ns x) :
    Reaches targets maxWait none .asking s ns x.plain :=
  (h.follow (P := fun _ => True) trivial .start fun _ next => ⟨trivial, next.plain⟩).2

/-- What is known of a caller from outside of any runtime: how far it has come, and why it was
turned away. -/
def Visit.Reasoned (targets : List T) (maxWait : Option Nat) (fault? : Option String) :
    Visit T → Prop
  | .outside (.arriving inside) _ => inside = false
  | .outside .knocking _ | .outside .preparing _ => True
  | .outside .asking _ | .within _ => fault? = none
  | .outside (.turnedAway e) s =>
    fault? = none ∧ Service.accept targets maxWait = .error e ∨ e = .closed ∧ s ≠ .running ∨
      ∃ why, fault? = some why ∧ e = .runtime why

theorem Visit.Step.reasoned (h : Visit.Step targets maxWait fault? x l x')
    (hx : x.Reasoned targets maxWait fault?) : x'.Reasoned targets maxWait fault? := by
  have hmoved : ∀ {door : Door} {s s' : Standing}, (s ≠ .running → s' ≠ .running) →
      (Visit.outside door s : Visit T).Reasoned targets maxWait fault? →
      (Visit.outside door s' : Visit T).Reasoned targets maxWait fault? := by
    intro door s s' hs hx
    cases door with
    | turnedAway e => exact hx.imp_right (Or.imp_left (And.imp_right hs))
    | _ => exact hx
  cases h with
  | @arrive inside s =>
    obtain rfl : inside = false := hx
    trivial
  | @knock s =>
    by_cases hs : s = .running
    · rw [if_pos hs]
      trivial
    · rw [if_neg hs]
      exact Or.inr (Or.inl ⟨rfl, hs⟩)
  | prepare h => exact h
  | fail h => exact Or.inr (Or.inr ⟨_, h, rfl⟩)
  | reject h => exact Or.inl ⟨hx, h⟩
  | accept => exact hx
  | close => exact hmoved (fun _ => nofun) hx
  | shutDown => exact hmoved (fun _ => nofun) hx
  | tick => exact hx
  | wait => exact hx

theorem Reaches.reasoned (h : Reaches targets maxWait fault? (.arriving false) s ns x) :
    x.Reasoned targets maxWait fault? := by
  obtain ⟨ls, hcourse, -⟩ := h
  exact hcourse.invariant (P := fun _ x => x.Reasoned targets maxWait fault?) rfl
    fun hx next => next.reasoned hx

omit [Watchable T] in
theorem Incident.eq_call {n : Incident T} {ev : Event T} (h : n.call? = some ev) :
    n = .call ev := by
  cases n with
  | call ev' => exact congrArg Incident.call (Option.some.inj h)
  | _ => cases h

theorem Visit.Step.closing_of_ne_running (h : Visit.Step targets maxWait fault? x l x')
    (hs : x'.standing ≠ .running) : x.standing ≠ .running ∨ l = some (.call .closing) := by
  cases h with
  | close => exact Or.inr rfl
  | shutDown => exact Or.inl nofun
  | @wait v v' n hv =>
    rcases hv.scene with ⟨ev, hev, hstep⟩ | ⟨-, hscene⟩
    · rcases hstep.closing_of_ne_running hs with hs | rfl
      · exact Or.inl hs
      · exact Or.inr (congrArg some (Incident.eq_call hev))
    · have hsame : v'.standing = v.standing := congrArg Scene.standing hscene
      exact Or.inl fun hv => hs (hsame.trans hv)
  | _ => exact Or.inl hs

/-- A scheduler that is closed had been closed before, or is closed in a step that others see. -/
theorem Reaches.closing {door : Door} (h : Reaches targets maxWait fault? door s ns x)
    (hs : x.standing ≠ .running) : s ≠ .running ∨ .call .closing ∈ ns := by
  obtain ⟨ls, hcourse, rfl⟩ := h
  have hmem := hcourse.held_or_mem (P := fun x => x.standing ≠ .running)
    Visit.Step.closing_of_ne_running hs
  exact hmem.imp_right fun hmem => List.mem_filterMap.mpr ⟨_, hmem, rfl⟩

/-! ## Callers on a closed scheduler -/

/-- A caller that came to a closed scheduler, and has not got anything else than word of that. -/
inductive Barred : Visit T → Prop
  | outside {s : Standing} (hs : s ≠ .running) : Barred (.outside .asking s)
  | within {v : Vigil T} (hv : Stillborn v.scene)
      (hc : v.caller = .starting ∨ v.caller = .returned (.error .closed)) : Barred (.within v)

/-- The same caller, if it had been turned away before. -/
def Visit.turnedAway (x : Visit T) : Visit T := .outside (.turnedAway .closed) x.standing

/-- Such a caller takes no step that it could not have taken outside. -/
theorem Visit.Step.barred (h : Visit.Step targets maxWait none x l x')
    (ha : ∀ e, Service.accept targets maxWait ≠ .error e) (hx : Barred x) :
    Barred x' ∧ (outer? l = none ∧ x'.turnedAway = x.turnedAway ∨
      Visit.Step targets maxWait none x.turnedAway l x'.turnedAway) := by
  cases hx with
  | @outside s hs =>
    cases h with
    | reject h => exact absurd h (ha _)
    | accept => exact ⟨.within (.prepare hs _ _) (Or.inl rfl), Or.inl ⟨rfl, rfl⟩⟩
    | close => exact absurd rfl hs
    | shutDown => exact ⟨.outside nofun, Or.inr .shutDown⟩
    | tick => exact ⟨.outside hs, Or.inr .tick⟩
  | @within v hv hc =>
    cases h with
    | wait h =>
      cases h with
      | @call ev w h hev =>
        -- Of what such a call does, others see only that the scheduler goes down.
        obtain ⟨hw, hmoved⟩ := h.stillborn hv
        refine ⟨.within hw hc, ?_⟩
        rcases hmoved with ⟨hev | hev, hsame⟩ | ⟨rfl, hfrom, hto⟩
        · refine Or.inl ⟨by rw [hev]; rfl, ?_⟩
          exact congrArg (Visit.outside _) hsame
        · refine Or.inl ⟨by rw [hev]; rfl, ?_⟩
          exact congrArg (Visit.outside _) hsame
        · refine Or.inr ?_
          show Visit.Step _ _ _ (.outside _ v.standing) _ (.outside _ w.standing)
          rw [show v.standing = .refusing from hfrom, hto]
          exact .shutDown
      | @deliver d i h =>
        have hnone : v.await.call.pending = [] := hv.pending
        rw [hnone] at h
        cases h
      | start h ho =>
        have htaken := hv.opening.1
        rw [show v.scene.call.opening = .begun from ho] at htaken
        cases htaken
      | refuse h ho => exact ⟨.within hv (Or.inr rfl), Or.inl ⟨rfl, rfl⟩⟩
      | glance h | look h =>
        rw [h] at hc
        rcases hc with hc | hc <;> cases hc
      | tick => exact ⟨.within hv hc, Or.inr .tick⟩

omit [Watchable T] in
theorem Barred.result (hx : Barred x) (hr : x.result? = some r) : r = .error .closed := by
  cases hx with
  | outside => cases hr
  | @within v hv hc =>
    rcases hc with hc | hc
    · simp [Visit.result?, hc] at hr
    · simp only [Visit.result?, hc, Option.some.injEq] at hr
      exact hr.symm

theorem Reaches.trans {door door' : Door} {s' : Standing} {ns' : List (Incident T)}
    (h : Reaches targets maxWait fault? door s ns (.outside door' s'))
    (h' : Reaches targets maxWait fault? door' s' ns' x) :
    Reaches targets maxWait fault? door s (ns ++ ns') x := by
  obtain ⟨ls, hcourse, rfl⟩ := h
  obtain ⟨ls', hcourse', rfl⟩ := h'
  exact ⟨ls ++ ls', hcourse.trans hcourse', outerRun_append ls ls'⟩

/-- A caller that holds its thread up is turned away from a closed scheduler before anything
else. -/
theorem Reaches.shut (hs : s ≠ .running) :
    Reaches targets maxWait fault? (.arriving false) s [] (.outside (.turnedAway .closed) s) := by
  have hknock : Reaches targets maxWait fault? (.arriving false) s [] (.outside .knocking s) :=
    Reaches.start.unseen .arrive rfl
  have hshut := hknock.unseen .knock rfl
  rw [if_neg hs] at hshut
  exact hshut

/-- On a scheduler that runs it comes to ask as any other caller. -/
theorem Reaches.asking :
    Reaches targets maxWait none (.arriving false) .running [] (.outside .asking .running) := by
  have hknock : Reaches targets maxWait none (.arriving false) .running []
    (.outside .knocking .running) :=
    Reaches.start.unseen .arrive rfl
  exact (hknock.unseen .knock rfl).unseen (.prepare rfl) rfl

theorem Reaches.barred (ha : ∀ e, Service.accept targets maxWait ≠ .error e) (hs : s ≠ .running)
    (h : Reaches targets maxWait none .asking s ns x) :
    Barred x ∧ Reaches targets maxWait none (.arriving false) s ns x.turnedAway :=
  h.follow (.outside hs) (.shut hs) fun hx next => next.barred ha hx

/-! ## Both ways -/

theorem Returns.of_blocking (h : Returns targets maxWait none (.arriving false) s ns r) :
    Returns targets maxWait none .asking s ns r ∨
      (∃ e, Service.accept targets maxWait = .error e) ∧ r = .error .closed ∧
        (s ≠ .running ∨ .call .closing ∈ ns) := by
  obtain ⟨x, hx, hr⟩ := h
  have hplain := hx.plain
  have hreason := hx.reasoned
  cases x with
  | within v => exact Or.inl ⟨_, hplain, hr⟩
  | outside door s' =>
    cases door with
    | turnedAway e =>
      obtain rfl := Option.some.inj hr
      rcases hreason with ⟨-, he⟩ | ⟨rfl, hs⟩ | ⟨why, hnone, -⟩
      · exact Or.inl ⟨_, hplain.unseen (.reject he) rfl, rfl⟩
      · -- The other caller asks at this moment, and its call is refused all the same.
        cases ha : Service.accept targets maxWait with
        | ok active => exact Or.inl (hplain.refused ha hs)
        | error e => exact Or.inr ⟨⟨e, rfl⟩, rfl, hx.closing hs⟩
      · cases hnone
    | _ => cases hr

theorem Returns.blocking (h : Returns targets maxWait none .asking s ns r)
    (hs : s = .running ∨ ∃ active, Service.accept targets maxWait = .ok active) :
    Returns targets maxWait none (.arriving false) s ns r := by
  obtain ⟨x, hx, hr⟩ := h
  by_cases hrunning : s = .running
  · subst hrunning
    have hin := Reaches.asking.trans hx
    exact ⟨x, hin, hr⟩
  · obtain ⟨active, ha⟩ := hs.resolve_left hrunning
    obtain ⟨hbarred, hreach⟩ := hx.barred (fun e he => nomatch ha.symm.trans he) hrunning
    rw [hbarred.result hr]
    exact ⟨_, hreach, rfl⟩

/-- A caller whose arguments are bad is still asking, or has been told so. -/
theorem Returns.eq_error {e : Error} (he : Service.accept targets maxWait = .error e)
    (h : Returns targets maxWait fault? .asking s ns r) : r = .error e := by
  obtain ⟨x, ⟨ls, hcourse, -⟩, hr⟩ := h
  have hinv : ∃ s', x = .outside .asking s' ∨ x = .outside (.turnedAway e) s' := by
    refine hcourse.invariant
      (P := fun _ x => ∃ s', x = .outside .asking s' ∨ x = .outside (.turnedAway e) s')
      ⟨s, Or.inl rfl⟩ ?_
    rintro ls x₁ l x₂ ⟨s', rfl | rfl⟩ next
    · cases next with
      | reject h =>
        obtain rfl := Except.error.inj (h.symm.trans he)
        exact ⟨s', Or.inr rfl⟩
      | accept h => exact nomatch h.symm.trans he
      | close | shutDown | tick => exact ⟨_, Or.inl rfl⟩
    · cases next with
      | close | shutDown | tick => exact ⟨_, Or.inr rfl⟩
  obtain ⟨s', rfl | rfl⟩ := hinv
  · cases hr
  · exact (Option.some.inj hr).symm

/-- A caller that holds its thread up gets nothing else from a scheduler that was closed when it
came. -/
theorem Returns.eq_closed (hs : s ≠ .running)
    (h : Returns targets maxWait fault? (.arriving false) s ns r) : r = .error .closed := by
  obtain ⟨x, ⟨ls, hcourse, -⟩, hr⟩ := h
  have hinv : ∃ door s', x = .outside door s' ∧ s' ≠ .running ∧
      (door = .arriving false ∨ door = .knocking ∨ door = .turnedAway .closed) := by
    refine hcourse.invariant
      (P := fun _ x => ∃ door s', x = .outside door s' ∧ s' ≠ .running ∧
        (door = .arriving false ∨ door = .knocking ∨ door = .turnedAway .closed))
      ⟨_, s, rfl, hs, Or.inl rfl⟩ ?_
    rintro ls x₁ l x₂ ⟨door, s', rfl, hs', hdoor⟩ next
    cases next with
    | arrive =>
      simp only [Door.arriving.injEq, reduceCtorEq, or_false] at hdoor
      exact ⟨_, s', rfl, hs', Or.inr (Or.inl (by rw [hdoor]; rfl))⟩
    | knock => exact ⟨_, s', rfl, hs', Or.inr (Or.inr (if_neg hs'))⟩
    | close => exact absurd rfl hs'
    | shutDown => exact ⟨_, _, rfl, nofun, hdoor⟩
    | tick => exact ⟨_, s', rfl, hs', hdoor⟩
    | prepare | fail | reject | accept => simp at hdoor
  obtain ⟨door, s', rfl, -, rfl | rfl | rfl⟩ := hinv
  · cases hr
  · cases hr
  · exact (Option.some.inj hr).symm

/-- Without a runtime nobody holds a thread up. -/
theorem Returns.eq_runtime {why : String}
    (h : Returns targets maxWait (some why) (.arriving false) s ns r) :
    r = .error (.runtime why) ∨ r = .error .closed ∧ (s ≠ .running ∨ .call .closing ∈ ns) := by
  obtain ⟨x, hx, hr⟩ := h
  have hreason := hx.reasoned
  cases x with
  | within v => cases hreason
  | outside door s' =>
    cases door with
    | turnedAway e =>
      obtain rfl := Option.some.inj hr
      rcases hreason with ⟨hnone, -⟩ | ⟨rfl, hs⟩ | ⟨why', hwhy, rfl⟩
      · cases hnone
      · exact Or.inr ⟨rfl, hx.closing hs⟩
      · obtain rfl := Option.some.inj hwhy
        exact Or.inl rfl
    | _ => cases hr

/-! ## What a service does in one go -/

section Services

variable {ι : Type} {v : Service ι}

theorem Service.bne_running_standing (v : Service ι) : (v.standing != .running) = v.closed := by
  unfold Service.standing
  cases v.closed <;> rfl

/-- A caller can come to what a service gives it when nothing comes in between. -/
def Visit.Stands (targets : List T) (maxWait : Option Nat) (door : Door) (s : Standing) :
    Except Error (Await T) → Prop
  | .error e => Returns targets maxWait none door s [] (.error e)
  | .ok a => Reaches targets maxWait none door s [] (.within ⟨a, s, .awake, maxWait, false⟩)

theorem stands_await : Visit.Stands targets maxWait .asking v.standing
    (v.await targets maxWait .ok) := by
  have hstart : Reaches targets maxWait none .asking v.standing []
    (.outside .asking v.standing) := .start
  unfold Service.await Service.watch
  cases ha : Service.accept targets maxWait with
  | error e => exact ⟨_, hstart.unseen (.reject ha) rfl, rfl⟩
  | ok active =>
    have hin := hstart.entered ha
    rw [Vigil.entered, v.bne_running_standing] at hin
    cases hc : v.closed with
    | true =>
      have ho := Call.opening_launch_closed active maxWait.isSome
      simp only [bind, Except.bind, if_pos ho]
      rw [hc] at hin
      exact ⟨_, hin.unseen (.wait (.refuse rfl ho)) rfl, rfl⟩
    | false =>
      have ho := Call.opening_launch active maxWait.isSome
      simp only [bind, Except.bind, ho, reduceCtorEq, if_false]
      rw [hc] at hin
      exact hin.unseen (.wait (.start rfl ho)) rfl

theorem stands_awaitBlocking (inside : Bool) :
    Visit.Stands targets maxWait (.arriving inside) v.standing
    (v.awaitBlocking inside targets maxWait .ok) := by
  unfold Service.awaitBlocking
  cases inside with
  | true => exact ⟨_, Reaches.start.unseen .arrive rfl, rfl⟩
  | false =>
    cases hc : v.closed with
    | true =>
      have hs : v.standing ≠ .running := by simp [Service.standing, hc]
      exact ⟨_, Reaches.shut hs, rfl⟩
    | false =>
      have hs : v.standing = .running := by simp [Service.standing, hc]
      have hask : Reaches targets maxWait none (.arriving false) v.standing []
          (.outside .asking v.standing) := by
        rw [hs]
        exact .asking
      have hstands : Visit.Stands targets maxWait .asking v.standing
        (v.await targets maxWait .ok) :=
        stands_await
      rw [if_neg (by simp), if_neg (by simp)]
      cases hr : v.await targets maxWait .ok with
      | error e =>
        rw [hr] at hstands
        obtain ⟨x, hx, hgot⟩ := hstands
        exact ⟨x, hask.trans hx, hgot⟩
      | ok a =>
        rw [hr] at hstands
        exact hask.trans hstands

end Services

/-- **Both ways to wait come to the same.**  Let the scheduler be as it may when a caller comes, and
let it be closed at any moment, whatever is read and whatever order all steps are taken in.

With arguments that are good, a caller that holds its thread up gets a result in some run if and
only if one that does not gets that result in a run that others see as the same.  With bad arguments
the latter gets word of these, always; the former gets the same word, or is told first that the
scheduler is closed: always if that was so when it came, and never if it was not and nobody closes
it.  If it cannot have a runtime to wait in, it is told that, or that the scheduler is closed.  What
a service does for either of them in one go is such a run. -/
theorem blocking_agrees (targets : List T) (maxWait : Option Nat) (s : Standing)
    (ns : List (Incident T)) (r : Except Error Unit) :
    (∀ active, Service.accept targets maxWait = .ok active →
      (Returns targets maxWait none (.arriving false) s ns r ↔
        Returns targets maxWait none .asking s ns r)) ∧
    (∀ e, Service.accept targets maxWait = .error e →
      (Returns targets maxWait none .asking s ns r → r = .error e) ∧
      (Returns targets maxWait none (.arriving false) s ns r →
        r = .error e ∧ Returns targets maxWait none .asking s ns r ∨
        r = .error .closed ∧ (s ≠ .running ∨ .call .closing ∈ ns)) ∧
      (s = .running → Returns targets maxWait none .asking s ns r →
        Returns targets maxWait none (.arriving false) s ns r) ∧
      (s ≠ .running → Returns targets maxWait none (.arriving false) s ns r → r = .error .closed)) ∧
    (∀ why, Returns targets maxWait (some why) (.arriving false) s ns r →
      r = .error (.runtime why) ∨ r = .error .closed ∧ (s ≠ .running ∨ .call .closing ∈ ns)) ∧
    ∀ {ι : Type} (v : Service ι),
      Visit.Stands targets maxWait .asking v.standing (v.await targets maxWait .ok) ∧
      Visit.Stands targets maxWait (.arriving false) v.standing
        (v.awaitBlocking false targets maxWait .ok) := by
  refine ⟨?_, ?_, fun why h => h.eq_runtime, fun v => ⟨stands_await, stands_awaitBlocking false⟩⟩
  · intro active ha
    constructor
    · intro h
      refine h.of_blocking.resolve_right ?_
      rintro ⟨⟨e, he⟩, -⟩
      exact nomatch ha.symm.trans he
    · intro h
      exact h.blocking (Or.inr ⟨active, ha⟩)
  · intro e he
    refine ⟨Returns.eq_error he, fun h => ?_, fun hs h => h.blocking (Or.inl hs),
      fun hs h => h.eq_closed hs⟩
    rcases h.of_blocking with h | ⟨-, hr⟩
    · exact Or.inl ⟨h.eq_error he, h⟩
    · exact Or.inr hr

omit [Watchable T] in
/-- A task is read once and is done; a caller that holds its thread up is let go as any other
one. -/
theorem blocking_waits_for_a_task :
    ∃ ns, Returns [Resource.RemoteTask.create "a" .deploy 0] none none (.arriving false) .running ns
      (.ok ()) := by
  have ha : Service.accept [Resource.RemoteTask.create "a" .deploy 0] none =
      .ok [⟨"a", .create "a" .deploy 0⟩] := rfl
  have h : Reaches [Resource.RemoteTask.create "a" .deploy 0] none none .asking .running [] _ :=
    Reaches.start.entered ha
  have h := (h.step (.wait (.start rfl rfl))).step (.wait (.call (.beginRound rfl) nofun))
  have h := (h.step (.wait (.call (.ask rfl) nofun))).step
    (.wait (.call (.answer (some (.create "a" .deploy 2, .done)) rfl) nofun))
  have h := (h.step (.wait (.call (.settle rfl) nofun))).step (.wait (.call (.pay rfl) nofun))
  have h := ((h.step (.wait (.deliver 0 rfl))).step (.wait (.glance rfl))).step (.wait (.look rfl))
  exact ⟨_, ((blocking_agrees _ _ _ _ _).1 _ ha).mpr ⟨_, h, rfl⟩⟩

omit [Watchable T] in
/-- **No targets on a closed service.**  A caller that waits at once is told that it has no targets;
one that holds its thread up is told that the service is closed, and nothing else. -/
theorem closed_before_no_targets :
    ∃ v : Service Unit, Service.start .standard = .ok v ∧
      v.close.await ([] : List Resource.RemoteTask) none .ok = .error .noTargets ∧
      v.close.awaitBlocking false ([] : List Resource.RemoteTask) none .ok = .error .closed ∧
      Returns ([] : List Resource.RemoteTask) none none .asking v.close.standing []
        (.error .noTargets) ∧
      ¬ Returns ([] : List Resource.RemoteTask) none none (.arriving false) v.close.standing []
        (.error .noTargets) := by
  refine ⟨⟨.standard, false, .start⟩, rfl, rfl, rfl, ?_, ?_⟩
  · have hstands : Visit.Stands ([] : List Resource.RemoteTask) none .asking _ _ :=
      stands_await (v := (⟨.standard, true, .start⟩ : Service Unit))
    exact hstands
  · intro h
    have hs : (⟨.standard, true, .start⟩ : Service Unit).standing ≠ .running := nofun
    cases Returns.eq_closed hs h

end TaskWatch.Monitor
