import Mathlib.Logic.Function.Iterate
import TaskWatch.Monitor.Rounds
import TaskWatch.Proofs.Call.Course
import TaskWatch.Proofs.Call.Entries
import TaskWatch.Proofs.Rounds.Readings

/-!
# Rounds over scripts

When the readings of a call come from scripts, what happens to one of its objects depends on the
script of that object alone, in whatever order each round reads the objects.

* `Call.turns`: rounds, each with an order of its own.
* `FollowsScripts`: a check whose readings come from scripts.
* `View`: what can be seen of an object.  `View.step`: what a round does to it.
* `Call.view_checkAll`, `Call.view_turns`: the objects go their ways one by one.
* `View.iterate_step_of_unfinished`, `View.iterate_step_of_final`: where each way leads.
-/

namespace TaskWatch.Monitor

open TaskWatch.Api (Script)

variable {σ T S : Type}

/-! ## Rounds in any order -/

/-- Rounds of a call, each of which reads the active objects in an order of its own. -/
def Call.turns (check : Check σ T) (order : Nat → List (Entry T) → List (Entry T)) (c : Call T)
    (s : σ) : Nat → Call T × σ
  | 0 => (c, s)
  | n + 1 =>
    let (c, s) := c.turns check order s n
    { c with active := order n c.active }.round check s

/-- A check while others work on the same backend: before reading number `n` they do `others n`. -/
def Check.amid (check : Check σ T) (others : Nat → σ → σ) : Check (σ × Nat) T := fun t s =>
  let (r, s') := check t (others s.2 s.1)
  (r, (s', s.2 + 1))

/-! ## What can be seen of an object -/

/-- The script of an object, whether it is active, and how its notices say it ended. -/
structure View (S : Type) where
  script : Option (Script S)
  active : Bool
  outcomes : List Outcome

def endOf (judge : S → Verdict) (r : Option S) : Option Outcome := r.bind (judge · |>.outcome?)

/-- An active object is read, and ends if the reading says so. -/
def View.step (judge : S → Verdict) (v : View S) : View S :=
  match v.active, v.script with
  | true, some p =>
    let ended := endOf judge p.read.1
    ⟨some p.read.2, ended.isNone, v.outcomes ++ ended.toList⟩
  | _, _ => v

theorem View.step_of_inactive {judge : S → Verdict} {v : View S} (h : v.active = false) :
    v.step judge = v := by
  unfold View.step
  rw [h]

theorem View.step_of_active {judge : S → Verdict} {p : Script S} {os : List Outcome} :
    View.step judge ⟨some p, true, os⟩ =
      ⟨some p.read.2, (endOf judge p.read.1).isNone, os ++ (endOf judge p.read.1).toList⟩ := rfl

/-- How the notices of an object say it ended. -/
def Call.outcomes (k : String) (c : Call T) : List Outcome :=
  (c.published.filter (·.key == k)).map Delivery.outcome

def Call.view (script? : σ → String → Option (Script S)) (k : String) (c : Call T) (s : σ) :
    View S where
  script := script? s k
  active := c.isActive k
  outcomes := c.outcomes k

/-- A check whose readings of the objects with keys in `ks` come from scripts, one for each key. -/
structure FollowsScripts [Watchable T] (check : Check σ T)
    (script? : σ → String → Option (Script S)) (judge : S → Verdict) (ks : List String) : Prop where
  reading : ∀ t s, Watchable.key t ∈ ks →
    (check t s).1.toOption.map (fun r => (Watchable.key r.1, r.2)) =
      (script? s (Watchable.key t)).bind fun p =>
        p.read.1.map fun x => (Watchable.key t, judge x)
  script : ∀ t s, Watchable.key t ∈ ks →
    script? (check t s).2 (Watchable.key t) = (script? s (Watchable.key t)).map (·.read.2)
  others : ∀ t s k, Watchable.key t ∈ ks → k ∈ ks → k ≠ Watchable.key t →
    script? (check t s).2 k = script? s k

/-! ## One object of a round -/

namespace Call

def conclude (d : Delivery T) (c : Call T) : Call T :=
  { c with active := removeKey d.key c.active }.tell d

/-- What the reading of an active object does to a call. -/
def heed (e : Entry T) (r : Option (T × Verdict)) (c : Call T) : Call T :=
  match r with
  | none => c
  | some (t, .unfinished) => { c with active := refreshKey e.key t c.active }
  | some (t, .done) => c.conclude ⟨e.key, t, .completed⟩
  | some (t, .failed) => c.conclude ⟨e.key, t, .failed⟩

variable {c : Call T} {e : Entry T} {rest : List (Entry T)}

/-- The steps for one object that is active, in a row. -/
theorem pay_settle_answer_proceed (r : Option (T × Verdict)) (h : c.poll = .between (e :: rest))
    (ha : c.isActive e.key = true) :
    (c.proceed.answer r).settle.pay = { c.heed e r with poll := .between rest } := by
  rw [proceed_of_cons h, answer_of_reading r rfl]
  have hs := settle_settle (c := { c with poll := .answered e r rest }) rfl
  generalize settle _ = c' at hs
  cases hs with
  | failed | unfinished => rfl
  | taken t v o hv =>
    cases v with
    | unfinished => cases hv
    | done | failed => cases hv; rfl
  | gone t v o hv hg =>
    have hg : c.isActive e.key = false := hg
    exact absurd (ha.symm.trans hg) nofun

theorem isActive_eq (c : Call T) (k : String) :
    c.isActive k = decide (k ∈ c.active.map Entry.key) := by
  rw [Bool.eq_iff_iff, isActive_iff, decide_eq_true_eq]

theorem isActive_heed (r : Option (T × Verdict)) (k : String) :
    (c.heed e r).isActive k =
      if k = e.key then c.isActive k && (r.bind (·.2.outcome?)).isNone else c.isActive k := by
  rw [isActive_eq, isActive_eq]
  by_cases hk : k = e.key
  · subst hk
    rcases r with - | ⟨t, _ | _ | _⟩ <;>
      simp [heed, conclude, tell, Verdict.outcome?, map_key_removeKey]
  · rcases r with - | ⟨t, _ | _ | _⟩ <;>
      simp [heed, conclude, tell, map_key_removeKey, hk]

theorem outcomes_heed (r : Option (T × Verdict)) (k : String) :
    (c.heed e r).outcomes k =
      c.outcomes k ++ if k = e.key then (r.bind (·.2.outcome?)).toList else [] := by
  unfold outcomes
  by_cases hk : k = e.key
  · subst hk
    rcases r with - | ⟨t, _ | _ | _⟩ <;> simp [heed, conclude, tell, Verdict.outcome?]
  · rcases r with - | ⟨t, _ | _ | _⟩ <;> simp [heed, conclude, tell, hk, Ne.symm hk]

/-- The active objects of a call that goes by rounds: each key once and among `ks`, with an object
that has it. -/
structure Steady [Watchable T] (ks : List String) (c : Call T) : Prop where
  nodup : (c.active.map Entry.key).Nodup
  keyed : ∀ e ∈ c.active, Watchable.key e.target = e.key
  known : ∀ e ∈ c.active, e.key ∈ ks

variable [Watchable T] {ks : List String}

theorem Steady.conclude (hc : c.Steady ks) (d : Delivery T) : (c.conclude d).Steady ks where
  nodup := hc.nodup.sublist (List.filter_sublist.map _)
  keyed x hx := hc.keyed x (mem_removeKey.mp hx).1
  known x hx := hc.known x (mem_removeKey.mp hx).1

/-- A reading of an active object that has its key keeps the active objects in order. -/
theorem Steady.heed {r : Option (T × Verdict)} (hc : c.Steady ks)
    (hr : ∀ t v, r = some (t, v) → Watchable.key t = e.key) : (c.heed e r).Steady ks := by
  rcases r with - | ⟨t, _ | _ | _⟩
  · exact hc
  · exact hc.conclude _
  · exact hc.conclude _
  · have hmem : ∀ x ∈ refreshKey e.key t c.active,
        Watchable.key x.target = x.key ∧ x.key ∈ ks := by
      intro x hx
      rcases mem_refreshKey.mp hx with ⟨-, hx⟩ | ⟨hk, rfl, hin⟩
      · exact ⟨hc.keyed x hx, hc.known x hx⟩
      · obtain ⟨y, hy, hyk⟩ := List.mem_map.mp hin
        exact ⟨(hr _ _ rfl).trans hk.symm, hk ▸ hyk ▸ hc.known y hy⟩
    have hnodup : ((refreshKey e.key t c.active).map Entry.key).Nodup := by
      rw [map_key_refreshKey]
      exact hc.nodup
    exact ⟨hnodup, fun x hx => (hmem x hx).1, fun x hx => (hmem x hx).2⟩

/-- Where the poll of a call goes after a round. -/
def resting (c : Call T) : Poll T := if c.active.isEmpty then .over else .idle

omit [Watchable T] in
theorem leave_proceed_of_nil (h : c.poll = .between []) :
    c.proceed.leave.active = c.active ∧ c.proceed.leave.published = c.published ∧
      c.proceed.leave.poll = c.resting := by
  rw [proceed_of_nil h]
  by_cases ha : c.active.isEmpty = true
  · rw [if_pos ha, leave_of_leaving rfl, stopDeadline_eq]
    exact ⟨rfl, rfl, (if_pos ha).symm⟩
  · rw [if_neg ha]
    exact ⟨rfl, rfl, (if_neg ha).symm⟩

end Call

/-! ## Views -/

section Views

variable [Watchable T] {check : Check σ T} {script? : σ → String → Option (Script S)}
  {judge : S → Verdict} {ks : List String} {c : Call T} {s : σ}

namespace FollowsScripts

theorem key_eq (hf : FollowsScripts check script? judge ks) {t fresh : T} {v : Verdict}
    (ht : Watchable.key t ∈ ks) (h : (check t s).1.toOption = some (fresh, v)) :
    Watchable.key fresh = Watchable.key t := by
  have hread := hf.reading t s ht
  rw [h, Option.map_some] at hread
  obtain ⟨p, -, hp⟩ := Option.bind_eq_some_iff.mp hread.symm
  obtain ⟨x, -, hx⟩ := Option.map_eq_some_iff.mp hp
  exact (congrArg Prod.fst hx).symm

/-- A reading ends its object when what comes from the script says so. -/
theorem outcome?_eq (hf : FollowsScripts check script? judge ks) {t : T}
    (ht : Watchable.key t ∈ ks) :
    (check t s).1.toOption.bind (·.2.outcome?) =
      (script? s (Watchable.key t)).bind fun p => endOf judge p.read.1 := by
  have hread := congrArg (Option.bind · (·.2.outcome?)) (hf.reading t s ht)
  simpa [Option.bind_map, Option.bind_assoc, Function.comp_def, endOf] using hread

end FollowsScripts

/-- An object that is read makes one step. -/
theorem Call.view_heed_self (hf : FollowsScripts check script? judge ks) {e : Entry T}
    (hk : Watchable.key e.target = e.key) (hin : e.key ∈ ks) (ha : c.isActive e.key = true) :
    (c.heed e (check e.target s).1.toOption).view script? e.key (check e.target s).2 =
      (c.view script? e.key s).step judge := by
  have hend := hf.outcome?_eq (s := s) (hk ▸ hin)
  have hscript := hf.script e.target s (hk ▸ hin)
  rw [hk] at hend hscript
  simp only [Call.view, isActive_heed, outcomes_heed, if_true, hend, hscript, ha, View.step]
  cases script? s e.key <;> simp

theorem Call.view_heed_of_ne (hf : FollowsScripts check script? judge ks) {e : Entry T} {k : String}
    (hk : Watchable.key e.target = e.key) (hin : e.key ∈ ks) (hkin : k ∈ ks) (hne : k ≠ e.key) :
    (c.heed e (check e.target s).1.toOption).view script? k (check e.target s).2 =
      c.view script? k s := by
  have hscript := hf.others e.target s k (hk ▸ hin) hkin (hk ▸ hne)
  simp only [Call.view, isActive_heed, outcomes_heed, hne, if_false, hscript, List.append_nil]

/-- The readings of a round: each object of it makes one step, in whatever order they stand, and the
poll rests afterwards. -/
theorem Call.checkAll_spec (hf : FollowsScripts check script? judge ks) (es : List (Entry T))
    (hc : c.Steady ks) (hn : (es.map Entry.key).Nodup)
    (hes : ∀ e ∈ es, Watchable.key e.target = e.key ∧ c.isActive e.key = true)
    (hp : c.poll = .between es) :
    (checkAll check es c s).1.Steady ks ∧
      (checkAll check es c s).1.poll = (checkAll check es c s).1.resting ∧
      ∀ k ∈ ks, (checkAll check es c s).1.view script? k (checkAll check es c s).2 =
        if k ∈ es.map Entry.key then (c.view script? k s).step judge else c.view script? k s := by
  induction es generalizing c s with
  | nil =>
    obtain ⟨hactive, hpub, hpoll⟩ := leave_proceed_of_nil hp
    refine ⟨⟨hactive ▸ hc.nodup, hactive ▸ hc.keyed, hactive ▸ hc.known⟩, ?_, fun k _ => ?_⟩
    · show c.proceed.leave.poll = c.proceed.leave.resting
      rw [hpoll, resting, resting, hactive]
    · show c.proceed.leave.view script? k s = _
      simp [view, outcomes, isActive, hactive, hpub]
  | cons e rest ih =>
    obtain ⟨hkey, ha⟩ := hes e List.mem_cons_self
    have hin : e.key ∈ ks := by
      obtain ⟨x, hx, hxk⟩ := List.mem_map.mp (isActive_iff.mp ha)
      exact hxk ▸ hc.known x hx
    rw [List.map_cons, List.nodup_cons] at hn
    -- What is still to be read stays active, for each key stands in the round once.
    have hne : ∀ x ∈ rest, x.key ≠ e.key := fun x hx h => hn.1 (h ▸ List.mem_map_of_mem hx)
    have hstep : checkAll check (e :: rest) c s =
        checkAll check rest { c.heed e (check e.target s).1.toOption with poll := .between rest }
          (check e.target s).2 := by
      rw [← pay_settle_answer_proceed _ hp ha]
      rfl
    have hsteady : (c.heed e (check e.target s).1.toOption).Steady ks :=
      hc.heed fun t v hr => (hf.key_eq (hkey ▸ hin) hr).trans hkey
    have hrest : ∀ x ∈ rest, Watchable.key x.target = x.key ∧
        (c.heed e (check e.target s).1.toOption).isActive x.key = true := by
      intro x hx
      obtain ⟨hxkey, hxa⟩ := hes x (List.mem_cons_of_mem _ hx)
      rw [isActive_heed, if_neg (hne x hx)]
      exact ⟨hxkey, hxa⟩
    rw [hstep]
    obtain ⟨h₁, h₂, h₃⟩ :=
      ih (c := { c.heed e (check e.target s).1.toOption with poll := .between rest })
        ⟨hsteady.nodup, hsteady.keyed, hsteady.known⟩ hn.2 hrest rfl
    refine ⟨h₁, h₂, fun k hk => (h₃ k hk).trans ?_⟩
    show (if k ∈ rest.map Entry.key then
        ((c.heed e (check e.target s).1.toOption).view script? k (check e.target s).2).step judge
      else (c.heed e (check e.target s).1.toOption).view script? k (check e.target s).2) = _
    rw [List.map_cons]
    by_cases hke : k = e.key
    · subst hke
      rw [if_neg hn.1, view_heed_self hf hkey hin ha, if_pos List.mem_cons_self]
    · rw [view_heed_of_ne hf hkey hin hk hke]
      simp only [List.mem_cons, hke, false_or]

structure Call.Resting (ks : List String) (c : Call T) : Prop extends c.Steady ks where
  poll_eq : c.poll = c.resting

theorem Call.round_spec (hf : FollowsScripts check script? judge ks) (hc : c.Resting ks)
    {es : List (Entry T)} (hes : es.Perm c.active) :
    (({ c with active := es }.round check s).1).Resting ks ∧
      ∀ k ∈ ks, ({ c with active := es }.round check s).1.view script? k
        ({ c with active := es }.round check s).2 = (c.view script? k s).step judge := by
  have hkeys : (es.map Entry.key).Perm (c.active.map Entry.key) := hes.map _
  have hactive : ∀ k, k ∈ es.map Entry.key ↔ c.isActive k = true := fun k =>
    hkeys.mem_iff.trans isActive_iff.symm
  have hview : ∀ k p, { c with active := es, poll := p }.view script? k s = c.view script? k s := by
    intro k p
    have ha : { c with active := es, poll := p }.isActive k = c.isActive k := by
      rw [Bool.eq_iff_iff, isActive_iff]
      exact hactive k
    simp only [view, outcomes, ha]
  have hsteady : ∀ p, { c with active := es, poll := p }.Steady ks := fun p =>
    ⟨hkeys.nodup_iff.mpr hc.nodup, fun e he => hc.keyed e (hes.subset he),
      fun e he => hc.known e (hes.subset he)⟩
  by_cases hempty : c.active.isEmpty = true
  · -- The poll is over, and a round does nothing.
    have hp : c.poll = .over := hc.poll_eq.trans (if_pos hempty)
    obtain rfl : es = [] := List.perm_nil.mp (List.isEmpty_iff.mp hempty ▸ hes)
    have hround : { c with active := [] }.round check s = ({ c with active := [] }, s) := by
      simp [round, hp]
    rw [hround]
    refine ⟨⟨hsteady c.poll, hp⟩, fun k hk => ?_⟩
    have hnot : (c.view script? k s).active = false := by
      show c.isActive k = false
      simp [isActive, List.isEmpty_iff.mp hempty]
    rw [View.step_of_inactive hnot]
    exact hview k c.poll
  · have hp : c.poll = .idle := hc.poll_eq.trans (if_neg hempty)
    have hround : { c with active := es }.round check s =
        ((checkAll check es { c with active := es, poll := .between es } s).1.deliverAll,
          (checkAll check es { c with active := es, poll := .between es } s).2) := by
      simp [round, beginRound, hp]
    rw [hround]
    have hall : ∀ e ∈ es, Watchable.key e.target = e.key ∧
        { c with active := es, poll := .between es }.isActive e.key = true := fun e he =>
      ⟨hc.keyed e (hes.subset he), isActive_iff.mpr (List.mem_map_of_mem he)⟩
    obtain ⟨h₁, h₂, h₃⟩ := checkAll_spec hf es (hsteady (.between es)) (s := s)
      (hsteady c.poll).nodup hall rfl
    refine ⟨⟨⟨h₁.nodup, h₁.keyed, h₁.known⟩, h₂⟩, fun k hk => (h₃ k hk).trans ?_⟩
    rw [hview]
    by_cases hk' : k ∈ es.map Entry.key
    · rw [if_pos hk']
    · rw [if_neg hk', View.step_of_inactive]
      exact Bool.eq_false_iff.mpr fun ha => hk' ((hactive k).mpr ha)

/-- Rounds, one after another: each object makes one step in each of them. -/
theorem Call.turns_spec (hf : FollowsScripts check script? judge ks) (hc : c.Resting ks)
    {order : Nat → List (Entry T) → List (Entry T)} (ho : ∀ n es, (order n es).Perm es) (n : Nat) :
    (c.turns check order s n).1.Resting ks ∧
      ∀ k ∈ ks, (c.turns check order s n).1.view script? k (c.turns check order s n).2 =
        (View.step judge)^[n] (c.view script? k s) := by
  induction n with
  | zero => exact ⟨hc, fun _ _ => rfl⟩
  | succ n ih =>
    obtain ⟨hrest, hview⟩ := ih
    obtain ⟨hrest', hview'⟩ := round_spec hf hrest (ho n _) (s := (c.turns check order s n).2)
    refine ⟨hrest', fun k hk => ?_⟩
    rw [Function.iterate_succ_apply', ← hview k hk]
    exact hview' k hk

end Views
/-! ## Where an object gets to -/

namespace View

variable {judge : S → Verdict} {p : Script S} {os : List Outcome}

/-- Until a reading ends it, an object is read in each round. -/
theorem iterate_step_of_unfinished {n : Nat} (h : ∀ i < n, endOf judge (p.reading i) = none) :
    (step judge)^[n] ⟨some p, true, os⟩ = ⟨some (p.after n), true, os⟩ := by
  induction n with
  | zero => rfl
  | succ n ih =>
    have hlast : endOf judge (p.after n).read.1 = none := h n (Nat.lt_succ_self n)
    rw [Function.iterate_succ_apply', ih fun i hi => h i (Nat.lt_succ_of_lt hi), step_of_active,
      hlast, Option.toList_none, List.append_nil]
    rfl

/-- Once a reading has ended it, an object stays as it is. -/
theorem iterate_step_of_final {m n : Nat} {o : Outcome}
    (h : ∀ i < m, endOf judge (p.reading i) = none) (hm : endOf judge (p.reading m) = some o)
    (hn : m < n) :
    (step judge)^[n] ⟨some p, true, os⟩ = ⟨some (p.after (m + 1)), false, os ++ [o]⟩ := by
  have hlast : endOf judge (p.after m).read.1 = some o := hm
  induction hn with
  | refl =>
    rw [Function.iterate_succ_apply', iterate_step_of_unfinished h, step_of_active, hlast]
    rfl
  | step _ ih => rw [Function.iterate_succ_apply', ih, step_of_inactive rfl]

theorem iterate_step_of_unscripted (n : Nat) (v : View S) (hv : v.script = none) :
    (step judge)^[n] v = v := by
  have hstep : step judge v = v := by
    unfold step
    rw [hv]
    cases v.active <;> rfl
  exact Function.iterate_fixed hstep n

end View
end TaskWatch.Monitor
