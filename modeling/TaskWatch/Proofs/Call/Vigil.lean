import TaskWatch.Proofs.Call.Faithfulness

/-!
# Callers who wait

A caller who waits for a call looks, whenever it is woken, first whether the scheduler is closed and
then at the latch.  It may be woken at any time, also for nothing, and anything may happen between
its two looks.

* `Vigil`: a call with a caller who waits for it.  `Vigil.Step`: its steps, those of the call among
  them.
* `Course.scene`: what the call goes through is a course of its own.
* `Vigil.Honest`: why a caller has been let go.  `Vigil.Step.honest`: every step keeps it.
* `Course.waits_for_all`: what this comes to for a call that has been accepted.
-/

namespace TaskWatch.Monitor

variable {T : Type}

/-! ## The caller -/

inductive Caller where
  /-- Its call is beginning. -/
  | starting
  /-- About to look whether the scheduler is closed. -/
  | awake
  /-- Has seen that it is not, and is about to look at the latch. -/
  | looking
  | returned (result : Except Error Unit)

/-- A caller goes on waiting unless there is something to return. -/
def Caller.after : Option (Except Error Unit) → Caller
  | some r => .returned r
  | none => .awake

/-- A call with a caller who waits for it. -/
structure Vigil (T : Type) where
  await : Await T
  standing : Standing
  caller : Caller
  /-- How long the caller waits yet, if not for ever. -/
  left : Option Nat
  /-- The time of the caller passes; it does from its first look at the latch on. -/
  timing : Bool

inductive Incident (T : Type) where
  | call (ev : Event T)
  | started
  | refused
  /-- The caller has looked whether the scheduler is closed. -/
  | glanced (s : Standing)
  /-- The caller has looked at the latch. -/
  | looked
  | ticked

namespace Vigil

def begin (active : List (Entry T)) (maxWait : Option Nat) (s : Standing) : Vigil T where
  await := .start (.prepare active maxWait.isSome)
  standing := s
  caller := .starting
  left := maxWait
  timing := false

def scene (v : Vigil T) : Scene T := ⟨v.await.call, v.standing⟩

/-- The caller looks whether the scheduler has been closed. -/
def glance (v : Vigil T) : Vigil T :=
  match v.caller with
  | .awake =>
    { v with caller := if v.standing = .down then .returned (.error .closed) else .looking }
  | _ => v

/-- The caller looks at the latch and whether its time is over. -/
def look (v : Vigil T) : Vigil T :=
  match v.caller with
  | .looking =>
    { v with timing := true, caller := .after (v.await.result false (v.left == some 0)) }
  | _ => v

def tick (v : Vigil T) : Vigil T :=
  { v with left := if v.timing then v.left.map (· - 1) else v.left }

theorem glance_of_awake {v : Vigil T} (h : v.caller = .awake) :
    v.glance =
      { v with caller := if v.standing = .down then .returned (.error .closed) else .looking } := by
  simp [glance, h]

theorem look_of_looking {v : Vigil T} (h : v.caller = .looking) :
    v.look =
      { v with timing := true, caller := .after (v.await.result false (v.left == some 0)) } := by
  simp [look, h]

/-! ## Steps -/

inductive Step : Vigil T → Incident T → Vigil T → Prop
  /-- Anything else than a callback. -/
  | call {v : Vigil T} {ev : Event T} {w : Scene T} (h : Monitor.Step v.scene ev w)
      (hev : ∀ d, ev ≠ .delivered d) :
      Step v (.call ev) { v with await := { v.await with call := w.call }, standing := w.standing }
  /-- A callback runs and counts the latch down. -/
  | deliver {v : Vigil T} {d : Delivery T} (i : Nat) (h : v.await.call.pending[i]? = some d) :
      Step v (.call (.delivered d)) { v with await := v.await.deliver i }
  | start {v : Vigil T} (h : v.caller = .starting) (ho : v.await.call.opening = .begun) :
      Step v .started { v with caller := .awake }
  | refuse {v : Vigil T} (h : v.caller = .starting) (ho : v.await.call.opening = .refused) :
      Step v .refused { v with caller := .returned (.error .closed) }
  | glance {v : Vigil T} (h : v.caller = .awake) : Step v (.glanced v.standing) v.glance
  | look {v : Vigil T} (h : v.caller = .looking) : Step v .looked v.look
  | tick {v : Vigil T} : Step v .ticked v.tick

end Vigil

def Incident.call? : Incident T → Option (Event T)
  | .call ev => some ev
  | _ => none

variable {v v' : Vigil T} {n : Incident T} {ns : List (Incident T)}

theorem Vigil.await_deliver {a : Await T} {i : Nat} {d : Delivery T}
    (h : a.call.pending[i]? = some d) : a.deliver i = ⟨a.call.deliver i, a.latch.countDown⟩ := by
  obtain ⟨hi, -⟩ := List.getElem?_eq_some_iff.mp h
  exact if_pos hi

theorem Vigil.Step.scene (h : Vigil.Step v n v') :
    (∃ ev, n.call? = some ev ∧ Monitor.Step v.scene ev v'.scene) ∨
      n.call? = none ∧ v'.scene = v.scene := by
  cases h with
  | call h hev => exact Or.inl ⟨_, rfl, h⟩
  | deliver i h =>
    refine Or.inl ⟨_, rfl, ?_⟩
    rw [Vigil.await_deliver h]
    exact .deliver i h
  | start | refuse | tick => exact Or.inr ⟨rfl, rfl⟩
  | glance h =>
    rw [Vigil.glance_of_awake h]
    exact Or.inr ⟨rfl, rfl⟩
  | look h =>
    rw [Vigil.look_of_looking h]
    exact Or.inr ⟨rfl, rfl⟩

/-- What the call goes through is a course of its own. -/
theorem Course.scene {v₀ : Vigil T} (h : Course Vigil.Step v₀ ns v) :
    Course Step v₀.scene (ns.filterMap Incident.call?) v.scene := by
  induction h with
  | refl => exact .refl
  | tail _ next ih =>
    rw [List.filterMap_append]
    rcases next.scene with ⟨ev, hev, hstep⟩ | ⟨hn, hv⟩
    · simpa [hev] using ih.tail hstep
    · simpa [hn, hv] using ih

/-! ## What has been seen -/

namespace Incident

def isLook : Incident T → Bool
  | .looked => true
  | _ => false

def isTick : Incident T → Bool
  | .ticked => true
  | _ => false

/-- The scheduler as the caller has seen it. -/
def seen? : Incident T → Option Standing
  | .glanced s => some s
  | _ => none

end Incident

/-- How long the caller has waited since it looked at the latch first. -/
def timeSpent (ns : List (Incident T)) : Nat :=
  (ns.dropWhile (!·.isLook)).countP Incident.isTick

def lastSeen (ns : List (Incident T)) : Option Standing := (ns.filterMap Incident.seen?).getLast?

theorem timeSpent_concat (ns : List (Incident T)) (n : Incident T) :
    timeSpent (ns ++ [n]) = timeSpent ns + if ns.any Incident.isLook && n.isTick then 1 else 0 := by
  induction ns with
  | nil => cases n <;> rfl
  | cons a ns ih =>
    by_cases ha : a.isLook = true
    · have hcons : ∀ ms, timeSpent (a :: ms) = (a :: ms).countP Incident.isTick := by
        intro ms
        rw [timeSpent, List.dropWhile_cons_of_neg (by simp [ha])]
      rw [List.cons_append, hcons, hcons, ← List.cons_append, List.countP_append,
        List.countP_singleton]
      simp [ha]
    · have hcons : ∀ ms, timeSpent (a :: ms) = timeSpent ms := by
        intro ms
        rw [timeSpent, List.dropWhile_cons_of_pos (by simp [ha])]
        rfl
      rw [List.cons_append, hcons, hcons, ih]
      simp [ha]

theorem lastSeen_concat (ns : List (Incident T)) (n : Incident T) :
    lastSeen (ns ++ [n]) = n.seen?.or (lastSeen ns) := by
  rw [lastSeen, List.filterMap_append, lastSeen]
  cases h : n.seen? <;> simp [h]

/-! ## Why a caller is let go -/

/-- Why a caller that may wait for `maxWait` has got what it got. -/
structure Vigil.Honest (maxWait : Option Nat) (ns : List (Incident T)) (v : Vigil T) : Prop where
  timing : v.timing = ns.any Incident.isLook
  left : v.left = maxWait.map (· - timeSpent ns)
  seen : v.caller = .looking ∨ v.caller = .returned (.ok ()) →
    ∃ s, lastSeen ns = some s ∧ s ≠ .down
  done : v.caller = .returned (.ok ()) →
    v.await.latch.count = 0 ∨ ∃ m, maxWait = some m ∧ m ≤ timeSpent ns
  closed : ∀ e, v.caller = .returned (.error e) → e = .closed ∧ v.standing ≠ .running

theorem Vigil.Honest.begin (active : List (Entry T)) (maxWait : Option Nat) (s : Standing) :
    Vigil.Honest maxWait [] (.begin active maxWait s) where
  timing := rfl
  left := by cases maxWait <;> rfl
  seen h := by rcases h with h | h <;> cases h
  done h := nomatch h
  closed _ h := nomatch h

theorem Step.standing_ne_running {w w' : Scene T} {ev : Event T} (h : Step w ev w')
    (hs : w.standing ≠ .running) : w'.standing ≠ .running := by
  cases h with
  | close | shutDown => nofun
  | dropCallback => nofun
  | _ => exact hs

theorem Vigil.Honest.frame {maxWait : Option Nat} (hv : v.Honest maxWait ns)
    (hn : n.isLook = false ∧ n.isTick = false ∧ n.seen? = none)
    (hc : v'.caller = v.caller ∧ v'.left = v.left ∧ v'.timing = v.timing)
    (hl : v.await.latch.count = 0 → v'.await.latch.count = 0)
    (hs : v.standing ≠ .running → v'.standing ≠ .running) : v'.Honest maxWait (ns ++ [n]) := by
  obtain ⟨hlook, htick, hseen⟩ := hn
  obtain ⟨hcaller, hleft, htiming⟩ := hc
  have htime : timeSpent (ns ++ [n]) = timeSpent ns := by simp [timeSpent_concat, htick]
  have hlast : lastSeen (ns ++ [n]) = lastSeen ns := by simp [lastSeen_concat, hseen]
  exact {
    timing := by simp [htiming, hv.timing, hlook]
    left := by rw [hleft, hv.left, htime]
    seen := by
      rw [hcaller, hlast]
      exact hv.seen
    done := by
      rw [hcaller, htime]
      exact fun h => (hv.done h).imp_left hl
    closed := by
      rw [hcaller]
      exact fun e h => (hv.closed e h).imp_right hs }

theorem Vigil.Honest.glance {maxWait : Option Nat} (hv : v.Honest maxWait ns)
    (h : v.caller = .awake) : v.glance.Honest maxWait (ns ++ [.glanced v.standing]) := by
  have htime : timeSpent (ns ++ [.glanced v.standing]) = timeSpent ns := by
    simp [timeSpent_concat, Incident.isTick]
  rw [Vigil.glance_of_awake h]
  by_cases hs : v.standing = .down
  · rw [if_pos hs]
    exact {
      timing := by simp [hv.timing, Incident.isLook]
      left := by rw [htime]; exact hv.left
      seen := nofun
      done := nofun
      closed := fun e he => ⟨by cases he; rfl, by simp [hs]⟩ }
  · rw [if_neg hs]
    exact {
      timing := by simp [hv.timing, Incident.isLook]
      left := by rw [htime]; exact hv.left
      seen := fun _ => ⟨v.standing, by simp [lastSeen_concat, Incident.seen?], hs⟩
      done := nofun
      closed := nofun }

/-- The caller is let go by its look at the latch only when that is open or its time is over. -/
theorem Vigil.Honest.look {maxWait : Option Nat} (hv : v.Honest maxWait ns)
    (h : v.caller = .looking) : v.look.Honest maxWait (ns ++ [.looked]) := by
  have htime : timeSpent (ns ++ [.looked]) = timeSpent ns := by
    simp [timeSpent_concat, Incident.isTick]
  have hresult : ∀ r, Caller.after (v.await.result false (v.left == some 0)) = .returned r →
      r = .ok () ∧ (v.await.latch.count = 0 ∨ v.left = some 0) := by
    intro r hr
    unfold Await.result at hr
    split at hr
    · contradiction
    · split at hr
      · rename_i hopen
        rw [Bool.or_eq_true, Latch.isOpen_iff, beq_iff_eq] at hopen
        cases hr
        exact ⟨rfl, hopen⟩
      · cases hr
  rw [Vigil.look_of_looking h]
  exact {
    timing := by simp [Incident.isLook]
    left := by rw [htime]; exact hv.left
    seen := fun _ => by
      rw [lastSeen_concat]
      exact hv.seen (Or.inl h)
    done := fun hc => by
      refine (hresult _ hc).2.imp_right fun hleft => ?_
      rw [hv.left] at hleft
      obtain ⟨m, hm, hzero⟩ := Option.map_eq_some_iff.mp hleft
      exact ⟨m, hm, by rw [htime]; omega⟩
    closed := fun e hc => nomatch (hresult _ hc).1 }

theorem Vigil.Honest.tick {maxWait : Option Nat} (hv : v.Honest maxWait ns) :
    v.tick.Honest maxWait (ns ++ [.ticked]) where
  timing := by
    simp [Vigil.tick, hv.timing, Incident.isLook]
  left := by
    rw [timeSpent_concat, Vigil.tick, ← hv.timing, hv.left]
    cases v.timing <;> cases maxWait <;> simp [Incident.isTick]
    omega
  seen h := by
    rw [lastSeen_concat]
    exact hv.seen h
  done h := by
    rw [timeSpent_concat]
    refine (hv.done h).imp_right ?_
    rintro ⟨m, hm, hle⟩
    exact ⟨m, hm, Nat.le_add_right_of_le hle⟩
  closed := hv.closed

theorem Vigil.Step.honest {maxWait : Option Nat} {timed : Bool} (h : Vigil.Step v n v')
    (hw : Orderly timed v.scene) (hv : v.Honest maxWait ns) : v'.Honest maxWait (ns ++ [n]) := by
  cases h with
  | call h =>
    exact hv.frame ⟨rfl, rfl, rfl⟩ ⟨rfl, rfl, rfl⟩ id h.standing_ne_running
  | deliver i h =>
    rw [Vigil.await_deliver h]
    refine hv.frame ⟨rfl, rfl, rfl⟩ ⟨rfl, rfl, rfl⟩ (fun hzero => ?_) id
    show v.await.latch.count - 1 = 0
    rw [hzero]
  | start h ho =>
    exact {
      timing := by simp [hv.timing, Incident.isLook]
      left := by simp [hv.left, timeSpent_concat, Incident.isTick]
      seen := nofun
      done := nofun
      closed := nofun }
  | refuse h ho =>
    have hs : v.standing ≠ .running :=
      hw.refused_closed (by simp [Vigil.scene, ho, Opening.isRefusal])
    exact {
      timing := by simp [hv.timing, Incident.isLook]
      left := by simp [hv.left, timeSpent_concat, Incident.isTick]
      seen := nofun
      done := nofun
      closed := fun e he => ⟨by cases he; rfl, hs⟩ }
  | glance h => exact hv.glance h
  | look h => exact hv.look h
  | tick => exact hv.tick

/-! ## The count of the latch -/

/-- A latch over `total` objects is short of the callbacks that have run. -/
theorem Vigil.Step.count_latch {total : Nat} (h : Vigil.Step v n v')
    (hv : v.await.latch.count = total - v.await.call.delivered.length) :
    v'.await.latch.count = total - v'.await.call.delivered.length := by
  cases h with
  | @call ev w h hev =>
    have hd : w.call.delivered = v.await.call.delivered := by
      cases h.told with
      | same _ _ _ hd | noticed _ _ _ hd | lost _ _ _ hd => exact hd
      | delivered => exact absurd rfl (hev _)
    rw [hd]
    exact hv
  | @deliver d i h =>
    rw [Vigil.await_deliver h, Call.deliver_of_pending h]
    -- Neither the latch nor this difference goes below zero.
    show v.await.latch.count - 1 = total - (v.await.call.delivered ++ [d]).length
    rw [List.length_append, List.length_singleton, hv]
    omega
  | start | refuse | tick => exact hv
  | glance h =>
    rw [Vigil.glance_of_awake h]
    exact hv
  | look h =>
    rw [Vigil.look_of_looking h]
    exact hv

theorem length_filter_notMem {ks ds : List String} (hk : ks.Nodup) (hd : ds.Nodup) (hs : ds ⊆ ks) :
    (ks.filter (· ∉ ds)).length = ks.length - ds.length := by
  have hin : (ks.filter (· ∈ ds)).Perm ds := by
    rw [List.perm_ext_iff_of_nodup (hk.filter _) hd]
    intro k
    rw [List.mem_filter, decide_eq_true_eq]
    exact ⟨And.right, fun h => ⟨hs h, h⟩⟩
  have hsum := List.length_eq_length_filter_add (l := ks) (· ∈ ds)
  have hout : ks.filter (fun k => !decide (k ∈ ds)) = ks.filter (· ∉ ds) := by
    simp
  rw [hin.length_eq, hout] at hsum
  omega

/-! ## Calls that have been accepted -/

/-- An object is not active any more, and the caller has been told how it ended. -/
def Call.Ended (c : Call T) (k : String) (o : Outcome) : Prop :=
  k ∉ c.active.map Entry.key ∧ ∃ d ∈ c.delivered, d.key = k ∧ d.outcome = o

section Accepted

variable [Watchable T] {targets : List T} {maxWait : Option Nat} {active : List (Entry T)}
  {s : Standing}

theorem Course.delivered_subset_dedup {timed : Bool} {w : Scene T} {evs : List (Event T)}
    (h : Course Step ⟨.prepare (Call.collect targets) timed, s⟩ evs w) :
    w.call.delivered.map Delivery.key ⊆ (targets.map Watchable.key).dedup := by
  intro k hk
  have hpub := List.map_subset _ h.callbacksKept.delivered_subset hk
  have hledger : k ∈ w.call.ledger := List.mem_append_right _ (List.mem_append_right _ hpub)
  have hperm := h.ledger_perm (Call.nodup_map_key_collect targets)
  exact (hperm.trans (Call.map_key_collect_perm targets)).subset hledger

theorem Course.count_latch (h : Course Vigil.Step (.begin (Call.collect targets) maxWait s) ns v) :
    v.await.latch.count = ((targets.map Watchable.key).dedup.filter
      (· ∉ v.await.call.delivered.map Delivery.key)).length := by
  have hcall := h.scene
  have hpub := Call.nodup_published (hcall.nodup_ledger (Call.nodup_map_key_collect targets))
  have hdel : (v.await.call.delivered.map Delivery.key).Nodup :=
    hcall.callbacksKept.nodup_delivered hpub
  have hcount := h.invariant
    (P := fun _ v => v.await.latch.count =
      (targets.map Watchable.key).dedup.length - v.await.call.delivered.length)
    (by
      have hlen := (Call.map_key_collect_perm targets).length_eq
      rw [List.length_map] at hlen
      exact hlen)
    fun hv next => next.count_latch hv
  rw [length_filter_notMem (List.nodup_dedup _) hdel hcall.delivered_subset_dedup, List.length_map]
  exact hcount

omit [Watchable T] in
theorem Course.honest (h : Course Vigil.Step (.begin active maxWait s) ns v) :
    v.Honest maxWait ns := by
  induction h with
  | refl => exact .begin active maxWait s
  | tail prior next ih => exact next.honest prior.scene.orderly ih

/-- With its latch at zero, a call has come to its end. -/
theorem Course.ended_of_count_eq_zero
    (h : Course Vigil.Step (.begin (Call.collect targets) maxWait s) ns v)
    (hzero : v.await.latch.count = 0) :
    ∀ k ∈ targets.map Watchable.key, ∃ o, v.await.call.Ended k o ∧
      (maxWait = none → o ≠ .timeout) := by
  intro k hk
  have hcall := h.scene
  have hdel : k ∈ v.await.call.delivered.map Delivery.key := by
    rw [h.count_latch, List.length_eq_zero_iff, List.filter_eq_nil_iff] at hzero
    simpa using hzero k (List.mem_dedup.mpr hk)
  obtain ⟨d, hd, rfl⟩ := List.mem_map.mp hdel
  have hpub : d ∈ v.await.call.published := hcall.callbacksKept.delivered_subset hd
  have hn := hcall.nodup_ledger (Call.nodup_map_key_collect targets)
  refine ⟨d.outcome, ⟨?_, d, hd, rfl, rfl⟩, fun hnone => ?_⟩
  · exact Call.key_notMem_active hn (List.mem_append_right _ hpub)
  · subst hnone
    exact Course.outcome_ne_timeout hcall d hpub

/-- **A caller waits for all objects.**  Whatever is read and whatever order the steps of a call, of
its callbacks, of the scheduler and of the caller are taken in: the latch counts the keys whose
callback has not run.  A caller gets `ok` only if the scheduler was not closed when it looked last,
and either each object has ended and its callback has run, or the time that the caller gave itself
is over; an object ends without being read so only if there is such a time.  It gets an error only
from a scheduler that has been closed. -/
theorem Course.waits_for_all (ha : Service.accept targets maxWait = .ok active)
    (h : Course Vigil.Step (.begin active maxWait s) ns v) :
    v.await.latch.count = ((targets.map Watchable.key).dedup.filter
      (· ∉ v.await.call.delivered.map Delivery.key)).length ∧
    (v.caller = .returned (.ok ()) → ∃ s, lastSeen ns = some s ∧ s ≠ .down) ∧
    (maxWait = none → v.caller = .returned (.ok ()) → ∀ k ∈ targets.map Watchable.key,
      v.await.call.Ended k .completed ∨ v.await.call.Ended k .failed) ∧
    (∀ m, maxWait = some m → v.caller = .returned (.ok ()) →
      (∀ k ∈ targets.map Watchable.key, ∃ o, v.await.call.Ended k o) ∨ m ≤ timeSpent ns) ∧
    (∀ e, v.caller = .returned (.error e) → e = .closed ∧ v.standing ≠ .running) := by
  obtain ⟨-, -, rfl⟩ := Service.accept_eq_ok_iff.mp ha
  have hv := h.honest
  refine ⟨h.count_latch, fun hc => hv.seen (Or.inr hc), fun hm hc k hk => ?_, fun m hm hc => ?_,
    hv.closed⟩
  · have hzero : v.await.latch.count = 0 := by
      refine (hv.done hc).resolve_right ?_
      rintro ⟨m, hsome, -⟩
      exact nomatch hm.symm.trans hsome
    obtain ⟨o, hended, ho⟩ := h.ended_of_count_eq_zero hzero k hk
    cases o with
    | completed => exact Or.inl hended
    | failed => exact Or.inr hended
    | timeout => exact absurd rfl (ho hm)
  · rcases hv.done hc with hzero | ⟨m', hm', hle⟩
    · refine Or.inl fun k hk => ?_
      obtain ⟨o, hended, -⟩ := h.ended_of_count_eq_zero hzero k hk
      exact ⟨o, hended⟩
    · obtain rfl := Option.some.inj (hm.symm.trans hm')
      exact Or.inr hle

end Accepted

/-- A caller who may wait for ever looks too early once, and is let go after both callbacks. -/
theorem waits_for_both_callbacks :
    ∃ ns v, Course Vigil.Step (.begin (Call.collect twins) none .running) ns v ∧
      v.caller = .returned (.ok ()) ∧
      ∀ k ∈ twins.map Watchable.key,
        v.await.call.Ended k .completed ∨ v.await.call.Ended k .failed := by
  have h : Course Vigil.Step (.begin (Call.collect twins) none .running) [] _ := .refl
  have h := ((h.tail (.call .advance nofun)).tail (.call .advance nofun)).tail
    (.call .advance nofun)
  have h := (h.tail (.start rfl rfl)).tail (.call (.beginRound rfl) nofun)
  have h := ((h.tail (.call (.ask rfl) nofun)).tail
    (.call (.answer (some (.create "a" .deploy 2, .done)) rfl) nofun)).tail
    (.call (.settle rfl) nofun)
  have h := ((h.tail (.call (.pay rfl) nofun)).tail (.deliver 0 rfl)).tail (.glance rfl)
  have h := (h.tail (.look rfl)).tail (.call (.ask rfl) nofun)
  have h := ((h.tail
    (.call (.answer (some (.create "b" .reset 2, .failed)) rfl) nofun)).tail
    (.call (.settle rfl) nofun)).tail (.call (.pay rfl) nofun)
  have h := ((h.tail (.deliver 0 rfl)).tail (.glance rfl)).tail (.look rfl)
  have ha : Service.accept twins none = .ok (Call.collect twins) := rfl
  exact ⟨_, _, h, rfl, (Course.waits_for_all ha h).2.2.1 rfl rfl⟩

end TaskWatch.Monitor
