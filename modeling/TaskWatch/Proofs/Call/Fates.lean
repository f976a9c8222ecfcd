import TaskWatch.Proofs.Call.Faithfulness
import TaskWatch.Proofs.Call.Runs

/-!
# What becomes of an object without a deadline

In a call without a deadline the readings of an object, one after another, decide what becomes of
it, whatever else happens.

* `Fate`: what has become of an object.  `Fate.read`: what one more reading makes of that.
* `Tracked`: what ties the fates of all objects to a call.  `Tracked.step`: every step keeps it.
* `Course.shows`: after each course a call shows the fate of each object.
* `Course.reads_held`: an object is read in the form that its readings so far have left it in.
* `Course.became`: what a call becomes by acting on one reading.
-/

namespace TaskWatch.Monitor

variable {T : Type}

/-! ## Fates -/

inductive Fate (T : Type) where
  /-- It is watched, and was seen last in this form. -/
  | held (t : T)
  /-- It has ended in this form. -/
  | ended (t : T) (o : Outcome)
deriving DecidableEq, Repr

/-- What a reading of an object makes of its fate.  One that failed changes nothing. -/
def Fate.read : Fate T → Option (T × Verdict) → Fate T
  | .held t, none => .held t
  | .held _, some (t, v) =>
    match v.outcome? with
    | none => .held t
    | some o => .ended t o
  | .ended t o, _ => .ended t o

@[simp] theorem Fate.read_none (f : Fate T) : f.read none = f := by
  cases f <;> rfl

/-- The fate of an object that came with the call as `t₀`. -/
def fateOf (k : String) (t₀ : T) (evs : List (Event T)) : Fate T :=
  (readingsOf k evs).foldl Fate.read (.held t₀)

theorem fateOf_concat (k : String) (t₀ : T) (evs : List (Event T)) (ev : Event T) :
    fateOf k t₀ (evs ++ [ev]) = (ev.reading? k).toList.foldl Fate.read (fateOf k t₀ evs) := by
  rw [fateOf, readingsOf_concat, List.foldl_append]
  rfl

/-- The place of an object with a fate: it is active, or has a notice that is given or held. -/
def Fate.In (k : String) (c : Call T) : Fate T → Prop
  | .held t => ⟨k, t⟩ ∈ c.active
  | .ended t o => ⟨k, t, o⟩ ∈ c.owed ++ c.published

/-- A call shows the fate of an object: it is active in that form and has no notice, or it has that
one notice and is not active. -/
def Call.Shows (c : Call T) (k : String) : Fate T → Prop
  | .held t => c.active.filter (·.key == k) = [⟨k, t⟩] ∧ c.published.filter (·.key == k) = []
  | .ended t o => c.active.filter (·.key == k) = [] ∧ c.published.filter (·.key == k) = [⟨k, t, o⟩]

/-- What a call becomes by a new fate of one object: the other active objects and the notices stay
as they are. -/
def Call.Became (c c' : Call T) (k : String) : Fate T → Prop
  | .held t => c'.active = refreshKey k t c.active ∧ c'.published = c.published
  | .ended t o => c'.active = removeKey k c.active ∧ c'.published = c.published ++ [⟨k, t, o⟩]

/-- When nobody holds a notice, an object in its place is shown there and nowhere else. -/
theorem Fate.In.shows {f : Fate T} {k : String} {c : Call T} (h : f.In k c) (hn : c.ledger.Nodup)
    (howed : c.owed = []) : c.Shows k f := by
  obtain ⟨hactive, -, hdisjoint⟩ := List.nodup_append'.mp hn
  rw [howed] at hdisjoint
  cases f with
  | held t =>
    have hk : k ∉ c.published.map Delivery.key := fun hk =>
      hdisjoint (List.mem_map_of_mem h) hk
    exact ⟨filter_eq_singleton hactive h, filter_eq_nil_of_notMem hk⟩
  | ended t o =>
    have h : ⟨k, t, o⟩ ∈ c.published := by simpa [Fate.In, howed] using h
    have hk : k ∉ c.active.map Entry.key := fun hk =>
      hdisjoint hk (List.mem_map_of_mem (f := Delivery.key) h)
    exact ⟨filter_eq_nil_of_notMem hk, filter_eq_singleton (Call.nodup_published hn) h⟩

/-! ## What is kept -/

/-- Each object is in the place of its fate, up to the reading of it that has just come in, and
those of the round are in the form that they have there. -/
def Tracked [Watchable T] (targets : List T) (evs : List (Event T)) (w : Scene T) : Prop :=
  ∀ k t₀, Call.lastWith k targets = some t₀ → ∃ f : Fate T, f.In k w.call ∧
    fateOf k t₀ evs = (w.call.poll.news k).foldl Fate.read f ∧
    ∀ e ∈ w.call.poll.entries, e.key = k → f = .held e.target

variable [Watchable T] {targets : List T} {w w' : Scene T} {ev : Event T} {evs : List (Event T)}

theorem Tracked.prepare (timed : Bool) (s : Standing) :
    Tracked targets [] ⟨.prepare (Call.collect targets) timed, s⟩ := fun _ t₀ h =>
  ⟨.held t₀, Call.mem_collect.mpr h, rfl, nofun⟩

omit [Watchable T] in
theorem Fate.In.mono {f : Fate T} {k : String} {c c' : Call T} (h : f.In k c)
    (ha : c.active ⊆ c'.active) (hd : c.owed ++ c.published ⊆ c'.owed ++ c'.published) :
    f.In k c' := by
  cases f with
  | held => exact ha h
  | ended => exact hd h

/-- A step that brings nothing new for the objects keeps what is kept. -/
theorem Tracked.frame (ht : Tracked targets evs w) (hev : ev.silent = true)
    (ha : w.call.active ⊆ w'.call.active)
    (he : w'.call.poll.entries ⊆ w.call.poll.entries)
    (hn : ∀ k, w'.call.poll.news k = w.call.poll.news k)
    (hd : w.call.owed ++ w.call.published ⊆ w'.call.owed ++ w'.call.published) :
    Tracked targets (evs ++ [ev]) w' := by
  intro k t₀ hk
  obtain ⟨f, hin, hfate, hround⟩ := ht k t₀ hk
  refine ⟨f, hin.mono ha hd, ?_, fun e hm => hround e (he hm)⟩
  rw [fateOf_concat, Event.reading?_of_silent hev, hn]
  exact hfate

/-- A step that leaves the poll alone and takes no object out. -/
theorem Tracked.keepPoll {c c' : Call T} {s s' : Standing} (ht : Tracked targets evs ⟨c, s⟩)
    (hev : ev.silent = true) (hp : c'.poll = c.poll) (ha : c.active ⊆ c'.active)
    (hd : c.owed ++ c.published ⊆ c'.owed ++ c'.published) :
    Tracked targets (evs ++ [ev]) ⟨c', s'⟩ :=
  ht.frame hev ha (by simp [hp]) (by simp [hp]) hd

theorem Tracked.setPoll {c : Call T} {s : Standing} {p : Poll T} (ht : Tracked targets evs ⟨c, s⟩)
    (hev : ev.silent = true) (he : p.entries ⊆ c.poll.entries)
    (hn : ∀ k, p.news k = c.poll.news k) (ho : p.owed = c.poll.owed) :
    Tracked targets (evs ++ [ev]) ⟨{ c with poll := p }, s⟩ :=
  ht.frame hev (List.Subset.refl _) he hn (by simp [Call.owed, ho])

/-! ## Steps that bring something new -/

section Steps

variable {c : Call T} {s : Standing} {e : Entry T} {r : Option (T × Verdict)}
  {rest : List (Entry T)}

theorem Tracked.beginRound (ht : Tracked targets evs ⟨c, s⟩) (hn : c.ledger.Nodup)
    (h : c.poll = .idle) : Tracked targets (evs ++ [.began c.active]) ⟨c.beginRound, s⟩ := by
  rw [Call.beginRound_of_idle h]
  intro k t₀ hk
  obtain ⟨f, hin, hfate, -⟩ := ht k t₀ hk
  refine ⟨f, ?_, ?_, fun e he hek => ?_⟩
  · exact hin.mono (List.Subset.refl _) (by simp [Call.owed, h, Poll.owed])
  · rw [fateOf_concat]
    simpa [Event.reading?, Poll.news, h] using hfate
  · subst hek
    have he : e ∈ c.active := he
    cases f with
    | held t =>
      have heq := List.inj_on_of_nodup_map (List.nodup_append'.mp hn).1 hin he rfl
      rw [← heq]
    | ended t o => exact absurd (List.mem_map_of_mem he) (Call.key_notMem_active hn hin)

/-- A reading that comes in is news of its object and of no other. -/
theorem Tracked.answer (ht : Tracked targets evs ⟨c, s⟩) (h : c.poll = .reading e rest) :
    Tracked targets (evs ++ [.answered e r]) ⟨c.answer r, s⟩ := by
  rw [Call.answer_of_reading r h]
  intro k t₀ hk
  obtain ⟨f, hin, hfate, hround⟩ := ht k t₀ hk
  refine ⟨f, ?_, ?_, fun x hx => hround x (by simpa [h, Poll.entries] using hx)⟩
  · exact hin.mono (List.Subset.refl _) (by simp [Call.owed, h, Poll.owed])
  · have hfate : fateOf k t₀ evs = f := by simpa [h, Poll.news] using hfate
    rw [fateOf_concat, hfate]
    by_cases hek : e.key = k <;> simp [Event.reading?, Poll.news, hek]

omit [Watchable T] in
theorem Call.refreshKey_self {es : List (Entry T)} (hn : (es.map Entry.key).Nodup) (he : e ∈ es) :
    refreshKey e.key e.target es = es := by
  have hid : ∀ x ∈ es, (if x.key = e.key then ⟨x.key, e.target⟩ else x) = id x := fun x hx => by
    split
    · rename_i hk
      rw [List.inj_on_of_nodup_map hn hx he hk, id]
    · rfl
  rw [refreshKey, List.map_congr_left hid, List.map_id]

omit [Watchable T] in
/-- What acting on a reading does to the place of an object: that of the one read moves with its
fate, and the others stay where they are. -/
theorem Fate.In.settle {f : Fate T} {k : String} {c' : Call T} (hin : f.In k c)
    (hs : c.Settle e rest r c') (h : c.poll = .answered e r rest)
    (he : e.key = k → f = .held e.target) :
    ((c.poll.news k).foldl Fate.read f).In k c' := by
  have howed : { c with poll := .between rest }.owed = c.owed := by
    simp [Call.owed, h, Poll.owed]
  by_cases hek : e.key = k
  · obtain rfl := he hek
    subst hek
    have hactive : e.key ∈ c.active.map Entry.key := List.mem_map_of_mem (f := Entry.key) hin
    simp only [h, Poll.news, if_true, List.foldl_cons, List.foldl_nil]
    cases hs with
    | failed => exact hin
    | unfinished t => exact Call.mem_refreshKey.mpr (Or.inr ⟨rfl, rfl, hactive⟩)
    | taken t v o hv ha =>
      simp only [Fate.read, hv]
      simp [Fate.In, Call.owed, Poll.owed]
    | gone t v o hv ha =>
      exact absurd (ha.symm.trans (Call.isActive_iff.mpr hactive)) Bool.false_ne_true
  · have hnews : c.poll.news k = [] := by simp [h, Poll.news, hek]
    have hne : k ≠ e.key := Ne.symm hek
    rw [hnews, List.foldl_nil]
    cases hs with
    | failed | gone => exact hin.mono (List.Subset.refl _) (by rw [howed]; exact List.Subset.refl _)
    | unfinished t =>
      cases f with
      | held => exact Call.mem_refreshKey.mpr (Or.inl ⟨hne, hin⟩)
      | ended => simpa [Fate.In, Call.owed, h, Poll.owed] using hin
    | taken t v o hv ha =>
      cases f with
      | held => exact Call.mem_removeKey.mpr ⟨hin, hne⟩
      | ended =>
        exact List.mem_cons_of_mem _ (by simpa [Fate.In, Call.owed, h, Poll.owed] using hin)

theorem Tracked.settle (ht : Tracked targets evs ⟨c, s⟩)
    (hn : (c.poll.entries.map Entry.key).Nodup) (h : c.poll = .answered e r rest) :
    Tracked targets (evs ++ [.settled e r (c.isActive e.key)]) ⟨c.settle, s⟩ := by
  have hs := Call.settle_settle h
  generalize c.settle = c' at hs
  have hold : c.poll.entries = e :: rest := by simp [h, Poll.entries]
  have hnew : c'.poll.entries = rest ∧ ∀ k, c'.poll.news k = [] := by
    cases hs <;> exact ⟨rfl, fun _ => rfl⟩
  rw [hold, List.map_cons, List.nodup_cons] at hn
  intro k t₀ hk
  obtain ⟨f, hin, hfate, hround⟩ := ht k t₀ hk
  have he : e.key = k → f = .held e.target := hround e (hold ▸ List.mem_cons_self)
  refine ⟨(c.poll.news k).foldl Fate.read f, hin.settle hs h he, ?_, fun x hx hxk => ?_⟩
  · rw [fateOf_concat, hnew.2]
    exact hfate
  · -- The object that has been read is none of the rest, so there are no news of `x`.
    have hx : x ∈ rest := hnew.1 ▸ hx
    have hek : e.key ≠ k := fun hek => hn.1 (hek ▸ hxk ▸ List.mem_map_of_mem hx)
    have hnews : c.poll.news k = [] := by simp [h, Poll.news, hek]
    rw [hnews]
    exact hround x (hold ▸ List.mem_cons_of_mem _ hx) hxk

theorem Tracked.advance {timed : Bool} {c' : Call T} (ht : Tracked targets evs ⟨c, s⟩)
    (hw : Orderly timed ⟨c, s⟩) (h : c.Advance (s != .running) c') :
    Tracked targets (evs ++ [.advanced]) ⟨c', s⟩ := by
  cases h with
  | deadlineSet ho =>
    have hd : c.deadline = .unset := hw.deadline_unset ho
    exact ht.keepPoll rfl rfl (List.Subset.refl _) (by simp [Call.owed, hd, Deadline.owed])
  | pollSet ho =>
    have hp : c.poll = .unset := hw.poll_unset (ho ▸ rfl)
    exact ht.frame rfl (List.Subset.refl _) (List.nil_subset _) (by simp [hp, Poll.news])
      (by simp [Call.owed, hp, Poll.owed])
  | refused =>
    rw [Call.stopDeadline_eq]
    exact ht.keepPoll rfl rfl (List.Subset.refl _) (List.Subset.refl _)
  | _ => exact ht.keepPoll rfl rfl (List.Subset.refl _) (List.Subset.refl _)

end Steps

/-- Without a deadline only readings move objects. -/
theorem Tracked.step (ht : Tracked targets evs w) (hw : Orderly false w) (hn : w.call.ledger.Nodup)
    (hr : (w.call.poll.entries.map Entry.key).Nodup) (h : Step w ev w') :
    Tracked targets (evs ++ [ev]) w' := by
  have hunset : w.call.deadline = .unset := hw.untimed
  cases h with
  | advance => exact ht.advance hw (Call.advance_advanceOpening _ _)
  | arrange hp => exact ht.keepPoll rfl rfl hp.symm.subset (List.Subset.refl _)
  | beginRound h => exact ht.beginRound hn h
  | ask h =>
    rw [Call.proceed_of_cons h]
    exact ht.setPoll rfl (by simp [h, Poll.entries]) (by simp [h, Poll.news])
      (by simp [h, Poll.owed])
  | endRound h =>
    rw [Call.proceed_of_nil h]
    refine ht.setPoll rfl ?_ ?_ ?_ <;> split <;> simp [h, Poll.entries, Poll.news, Poll.owed]
  | leave h =>
    rw [Call.leave_of_leaving h, Call.stopDeadline_eq]
    exact ht.frame rfl (List.Subset.refl _) (List.nil_subset _) (by simp [h, Poll.news])
      (by simp [Call.owed, h, Poll.owed])
  | answer r h => exact ht.answer h
  | settle h => exact ht.settle hr h
  | pay h =>
    rw [Call.pay_of_owing h]
    exact ht.frame rfl (List.Subset.refl _) (by simp [h, Poll.entries]) (by simp [h, Poll.news])
      (by simp [Call.owed, Call.tell, h, Poll.owed])
  | expire h | stopPoll h | payTimeout h | endDeadline h | dropDeadline h =>
    cases hunset.symm.trans h
  | deliver i h =>
    rw [Call.deliver_of_pending h]
    exact ht.keepPoll rfl rfl (List.Subset.refl _) (List.Subset.refl _)
  | dropPoll h =>
    rw [Call.dropPoll_of_waits h]
    exact ht.setPoll (p := .cancelled) rfl (List.nil_subset _)
      (fun k => (Poll.news_of_waits h k).symm) (Poll.owed_of_waits h).symm
  | dropCallback | close | shutDown =>
    exact ht.keepPoll rfl rfl (List.Subset.refl _) (List.Subset.refl _)

/-! ## Acting on what has come in -/

section Acting

omit [Watchable T]

theorem readingsOf_append (k : String) (evs evs' : List (Event T)) :
    readingsOf k (evs ++ evs') = readingsOf k evs ++ readingsOf k evs' := List.filterMap_append

/-- Where no reading comes in there is none of an object. -/
theorem readingsOf_eq_nil {evs : List (Event T)} (h : ∀ e r, .answered e r ∉ evs) (k : String) :
    readingsOf k evs = [] := by
  rw [readingsOf, List.filterMap_eq_nil_iff]
  intro ev hev
  cases ev with
  | answered e r => exact absurd hev (h e r)
  | _ => rfl

/-- A call comes to act on the reading it has without another one. -/
theorem exists_settle_pay (w : Scene T) :
    ∃ evs, Course Step w evs ⟨w.call.settle.pay, w.standing⟩ ∧ ∀ k, readingsOf k evs = [] := by
  have hsettle : Leads (fun _ _ => False) w.standing w.call w.call.settle := leads_settle _ _
  obtain ⟨evs, h, hquiet⟩ := hsettle.trans (leads_pay _ _)
  exact ⟨evs, h, readingsOf_eq_nil hquiet⟩

/-- A poll that has acted on its reading has no news and owes nothing. -/
theorem Call.poll_settle_pay (c : Call T) :
    (∀ k, c.settle.pay.poll.news k = []) ∧ c.settle.pay.poll.owed = [] := by
  cases h : c.poll with
  | answered e r rest => simp [poll_pay_settle h, Poll.news, Poll.owed]
  | _ => simp [settle, pay, tell, h, Poll.news, Poll.owed]

end Acting

/-! ## Calls without a deadline -/

section Accepted

variable {s : Standing} {k : String} {t₀ : T}

theorem Course.tracked (h : Course Step ⟨.prepare (Call.collect targets) false, s⟩ evs w) :
    Tracked targets evs w := by
  induction h with
  | refl => exact .prepare false s
  | tail prior next ih =>
    have hn := prior.nodup_ledger (Call.nodup_map_key_collect targets)
    exact ih.step prior.orderly hn prior.faithful.nodup next

/-- An object is read in the form that its readings so far have left it in. -/
theorem Course.reads_held (h : Course Step ⟨.prepare (Call.collect targets) false, s⟩ evs w)
    {e : Entry T} {r : Option (T × Verdict)} (next : Step w (.answered e r) w')
    (hk : Call.lastWith e.key targets = some t₀) : fateOf e.key t₀ evs = .held e.target := by
  obtain ⟨f, -, hfate, hround⟩ := h.tracked e.key t₀ hk
  cases next with
  | @answer c s _ rest r hp =>
    have hf : f = .held e.target := hround e (by simp [hp, Poll.entries]) rfl
    simpa [hp, Poll.news, hf] using hfate

/-- What a call becomes by acting on one reading. -/
theorem Course.became (h : Course Step ⟨.prepare (Call.collect targets) false, s⟩ evs w)
    {e : Entry T} {r : Option (T × Verdict)} (next : Step w (.answered e r) w')
    (hk : Call.lastWith e.key targets = some t₀) :
    w.call.Became w'.call.settle.pay e.key ((Fate.held e.target).read r) ∧
    ((Fate.held e.target).read r = .held e.target →
      w'.call.settle.pay.active = w.call.active) := by
  have hn := (List.nodup_append'.mp (h.nodup_ledger (Call.nodup_map_key_collect targets))).1
  obtain ⟨f, hin, -, hround⟩ := h.tracked e.key t₀ hk
  cases next with
  | @answer c s _ rest r hp =>
    obtain rfl : f = .held e.target := hround e (by simp [hp, Poll.entries]) rfl
    have he : e ∈ c.active := hin
    have hself : Call.refreshKey e.key e.target c.active = c.active := Call.refreshKey_self hn he
    have hactive : c.isActive e.key = true := Call.isActive_iff.mpr (List.mem_map_of_mem he)
    rw [Call.answer_of_reading r hp]
    have hs := Call.settle_settle (c := { c with poll := .answered e r rest }) rfl
    dsimp only
    generalize { c with poll := .answered e r rest }.settle = c' at hs
    cases hs with
    | failed => exact ⟨⟨hself.symm, rfl⟩, fun _ => rfl⟩
    | unfinished t =>
      refine ⟨⟨rfl, rfl⟩, fun ht => ?_⟩
      obtain rfl : t = e.target := by simpa [Fate.read, Verdict.outcome?] using ht
      exact hself
    | taken t v o hv ha =>
      simp only [Fate.read, hv]
      refine ⟨⟨rfl, rfl⟩, fun hheld => ?_⟩
      cases hheld
    | gone t v o hv ha => exact absurd (ha.symm.trans hactive) Bool.false_ne_true

/-- **Without a deadline readings decide.**  Whatever order the steps of a call are taken in, once
it has acted on the reading that has come in, if one has, it shows the fate that the readings of
each object have brought to it. -/
theorem Course.shows (h : Course Step ⟨.prepare (Call.collect targets) false, s⟩ evs w)
    (hk : Call.lastWith k targets = some t₀) :
    w.call.settle.pay.Shows k (fateOf k t₀ evs) := by
  obtain ⟨evs', h', hquiet⟩ := exists_settle_pay w
  have hall := h.trans h'
  have hfate : fateOf k t₀ (evs ++ evs') = fateOf k t₀ evs := by
    rw [fateOf, readingsOf_append, hquiet, List.append_nil, fateOf]
  obtain ⟨hnews, howed⟩ := Call.poll_settle_pay w.call
  obtain ⟨f, hin, hf, -⟩ := hall.tracked k t₀ hk
  rw [hnews, List.foldl_nil, hfate] at hf
  have hunset : w.call.settle.pay.deadline = .unset := hall.orderly.untimed
  rw [hf]
  refine hin.shows (hall.nodup_ledger (Call.nodup_map_key_collect targets)) ?_
  rw [Call.owed, howed, hunset]
  rfl

end Accepted
end TaskWatch.Monitor
