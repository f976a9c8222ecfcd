import TaskWatch.Proofs.Call.Conservation

/-!
# Notices say what was read

What a notice says about an object follows from the readings of it, and every reading is asked for
with the object as it was known when its round began.

* `readingsOf`, `heldAfter`: the readings of an object in a course, and what is held for it then.
* `Deserved`: what must have happened for a notice with each outcome.
* `Faithful`: what ties a call to its course.  `Faithful.step`: every step keeps it.
* `Course.notices_are_faithful`: what this comes to for a call that has been accepted.
-/

namespace TaskWatch.Monitor

variable {T : Type} {timed : Bool} {w w' : Scene T} {ev : Event T} {evs : List (Event T)}

/-! ## Readings and held objects -/

/-- The reading of an object that an event brings. -/
def Event.reading? (k : String) : Event T → Option (Option (T × Verdict))
  | .answered e r => if e.key = k then some r else none
  | _ => none

/-- The new form of an object that an event stores: one that is not finished and still active. -/
def Event.stores? (k : String) : Event T → Option T
  | .settled e (some (t, .unfinished)) true => if e.key = k then some t else none
  | _ => none

def readingsOf (k : String) (evs : List (Event T)) : List (Option (T × Verdict)) :=
  evs.filterMap (Event.reading? k)

/-- The object that is held for a key: the one stored last, or else the last one given. -/
def heldAfter [Watchable T] (targets : List T) (k : String) (evs : List (Event T)) : Option T :=
  (evs.filterMap (Event.stores? k)).getLast?.or (Call.lastWith k targets)

theorem readingsOf_concat (k : String) (evs : List (Event T)) (ev : Event T) :
    readingsOf k (evs ++ [ev]) = readingsOf k evs ++ (ev.reading? k).toList := by
  rw [readingsOf, List.filterMap_append, readingsOf]
  cases h : ev.reading? k <;> simp [h]

theorem heldAfter_concat [Watchable T] (targets : List T) (k : String) (evs : List (Event T))
    (ev : Event T) :
    heldAfter targets k (evs ++ [ev]) = (ev.stores? k).or (heldAfter targets k evs) := by
  rw [heldAfter, List.filterMap_append, heldAfter]
  cases h : ev.stores? k <;> simp [h]

/-- A reading after which an object has to be read again. -/
def GoesOn : Option (T × Verdict) → Prop
  | none => True
  | some (_, v) => v = .unfinished

/-- The last reading of an object gave `t` and `v`, and none before it was final. -/
def EndsWith (k : String) (t : T) (v : Verdict) (evs : List (Event T)) : Prop :=
  ∃ past, readingsOf k evs = past ++ [some (t, v)] ∧ ∀ r ∈ past, GoesOn r

/-- The deadline came while an object was active and held in the form `t`. -/
def TimedOut [Watchable T] (targets : List T) (k : String) (t : T) (evs : List (Event T)) : Prop :=
  ∃ before active after, evs = before ++ .expired active :: after ∧ ⟨k, t⟩ ∈ active ∧
    heldAfter targets k before = some t

/-- What must have happened for a notice. -/
def Deserved [Watchable T] (targets : List T) (evs : List (Event T)) (d : Delivery T) : Prop :=
  match d.outcome with
  | .completed => EndsWith d.key d.target .done evs
  | .failed => EndsWith d.key d.target .failed evs
  | .timeout => TimedOut targets d.key d.target evs

/-- A round that began with `e`, held in that form, is under way. -/
def InRound [Watchable T] (targets : List T) (evs : List (Event T)) (e : Entry T) : Prop :=
  ∃ before active after, evs = before ++ .began active :: after ∧
    (∀ es, .began es ∉ after) ∧ e ∈ active ∧ heldAfter targets e.key before = some e.target

/-! ## The round of a poll -/

namespace Poll

/-- The objects of a round that have not been dealt with. -/
def entries : Poll T → List (Entry T)
  | .between rest | .owing _ rest => rest
  | .reading e rest | .answered e _ rest => e :: rest
  | _ => []

def unread : Poll T → List (Entry T)
  | .between rest | .owing _ rest | .answered _ _ rest => rest
  | .reading e rest => e :: rest
  | _ => []

/-- The reading of an object that has not been acted on. -/
def news (k : String) : Poll T → List (Option (T × Verdict))
  | .answered e r _ => if e.key = k then [r] else []
  | _ => []

theorem news_of_waits {p : Poll T} (h : p.waits = true) (k : String) : p.news k = [] := by
  cases p with
  | answered => cases h
  | _ => rfl

end Poll

/-! ## What is kept -/

/-- What ties a call to its course so far. -/
structure Faithful [Watchable T] (targets : List T) (evs : List (Event T))
    (w : Scene T) : Prop where
  held : ∀ e ∈ w.call.active, heldAfter targets e.key evs = some e.target
  nodup : (w.call.poll.entries.map Entry.key).Nodup
  inRound : ∀ e ∈ w.call.poll.entries, InRound targets evs e
  /-- No reading was final of an object that is active or still to be dealt with, but for one that
  has just come in. -/
  unfinished : ∀ k, k ∈ w.call.active.map Entry.key ∨ k ∈ w.call.poll.entries.map Entry.key →
    ∃ past, readingsOf k evs = past ++ w.call.poll.news k ∧ ∀ r ∈ past, GoesOn r
  deserved : ∀ d ∈ w.call.owed ++ w.call.published, Deserved targets evs d
  /-- An object that has ended by a reading is not read again. -/
  ended : ∀ d ∈ w.call.owed ++ w.call.published, d.outcome ≠ .timeout →
    d.key ∉ w.call.poll.unread.map Entry.key

variable [Watchable T] {targets : List T}

theorem Faithful.prepare (timed : Bool) (s : Standing) :
    Faithful targets [] ⟨.prepare (Call.collect targets) timed, s⟩ where
  held e he := by simpa [heldAfter] using Call.mem_collect.mp he
  nodup := .nil
  inRound e he := nomatch he
  unfinished k _ := ⟨[], rfl, nofun⟩
  deserved d hd := nomatch hd
  ended d hd := nomatch hd

/-- Whether an event brings no reading, stores nothing and begins no round. -/
def Event.silent : Event T → Bool
  | .began _ | .answered _ _ | .settled _ _ _ => false
  | _ => true

namespace Event

omit [Watchable T]

theorem reading?_of_silent (h : ev.silent = true) (k : String) : ev.reading? k = none := by
  cases ev with
  | answered => cases h
  | _ => rfl

theorem stores?_of_silent (h : ev.silent = true) (k : String) : ev.stores? k = none := by
  cases ev with
  | settled => cases h
  | _ => rfl

theorem ne_began_of_silent (h : ev.silent = true) (es : List (Entry T)) : ev ≠ .began es := by
  rintro rfl
  cases h

end Event

theorem InRound.concat {e : Entry T} (h : InRound targets evs e) (hev : ∀ es, ev ≠ .began es) :
    InRound targets (evs ++ [ev]) e := by
  obtain ⟨before, active, after, rfl, hafter, he, hheld⟩ := h
  refine ⟨before, active, after ++ [ev], by simp, fun es hes => ?_, he, hheld⟩
  rcases List.mem_append.mp hes with hes | hes
  · exact hafter es hes
  · exact hev es (List.mem_singleton.mp hes).symm

/-- A notice stays deserved unless its object is read once more. -/
theorem Deserved.concat {d : Delivery T} (h : Deserved targets evs d)
    (hev : d.outcome ≠ .timeout → ev.reading? d.key = none) : Deserved targets (evs ++ [ev]) d := by
  unfold Deserved at h ⊢
  cases ho : d.outcome with
  | completed | failed =>
    simp only [ho] at h ⊢
    obtain ⟨past, hpast, hgo⟩ := h
    refine ⟨past, ?_, hgo⟩
    simp [readingsOf_concat, hpast, hev (by simp [ho])]
  | timeout =>
    simp only [ho] at h ⊢
    obtain ⟨before, active, after, rfl, hin, hheld⟩ := h
    exact ⟨before, active, after ++ [ev], by simp, hin, hheld⟩

/-- A step that brings nothing new for the objects keeps what is kept. -/
theorem Faithful.frame (hf : Faithful targets evs w) (hev : ev.silent = true)
    (ha : w'.call.active ⊆ w.call.active)
    (he : w'.call.poll.entries.Sublist w.call.poll.entries)
    (hu : w'.call.poll.unread ⊆ w.call.poll.unread)
    (hn : ∀ k, w'.call.poll.news k = w.call.poll.news k)
    (hd : w'.call.owed ++ w'.call.published ⊆ w.call.owed ++ w.call.published) :
    Faithful targets (evs ++ [ev]) w' where
  held e hm := by
    rw [heldAfter_concat, Event.stores?_of_silent hev, Option.none_or]
    exact hf.held e (ha hm)
  nodup := hf.nodup.sublist (he.map Entry.key)
  inRound e hm := (hf.inRound e (he.subset hm)).concat (Event.ne_began_of_silent hev)
  unfinished k hk := by
    rw [readingsOf_concat, Event.reading?_of_silent hev, hn]
    obtain ⟨past, hpast, hgo⟩ := hf.unfinished k
      (hk.imp (fun h => List.map_subset _ ha h) fun h => List.map_subset _ he.subset h)
    exact ⟨past, by simpa using hpast, hgo⟩
  deserved d hm := (hf.deserved d (hd hm)).concat fun _ => Event.reading?_of_silent hev _
  ended d hm ho h := hf.ended d (hd hm) ho (List.map_subset _ hu h)

/-! ## Steps that bring something new -/

section Steps

variable {c : Call T} {s : Standing} {e : Entry T} {r : Option (T × Verdict)}
  {rest : List (Entry T)}

omit [Watchable T] in
theorem Call.key_notMem_active {d : Delivery T} (hn : c.ledger.Nodup)
    (hd : d ∈ c.owed ++ c.published) : d.key ∉ c.active.map Entry.key := fun ha =>
  (List.nodup_append'.mp hn).2.2 ha (by
    rw [← List.map_append]
    exact List.mem_map_of_mem hd)

theorem Faithful.beginRound (hf : Faithful targets evs ⟨c, s⟩) (hn : c.ledger.Nodup)
    (h : c.poll = .idle) : Faithful targets (evs ++ [.began c.active]) ⟨c.beginRound, s⟩ := by
  rw [Call.beginRound_of_idle h]
  have howed : { c with poll := .between c.active }.owed = c.owed := by
    simp [Call.owed, h, Poll.owed]
  exact {
    held := fun e hm => by
      rw [heldAfter_concat]
      exact hf.held e hm
    nodup := (List.nodup_append'.mp hn).1
    inRound := fun e hm =>
      ⟨evs, c.active, [], rfl, fun _ => List.not_mem_nil, hm, hf.held e hm⟩
    unfinished := fun k hk => by
      obtain ⟨past, hpast, hgo⟩ := hf.unfinished k (Or.inl (hk.elim id id))
      exact ⟨past, by simpa [readingsOf_concat, Event.reading?, Poll.news, h] using hpast, hgo⟩
    deserved := fun d hm => (hf.deserved d (howed ▸ hm)).concat fun _ => rfl
    ended := fun d hm _ => Call.key_notMem_active hn (howed ▸ hm) }

/-- A reading that comes in is news of its object and of no other. -/
theorem Faithful.answer (hf : Faithful targets evs ⟨c, s⟩) (h : c.poll = .reading e rest) :
    Faithful targets (evs ++ [.answered e r]) ⟨c.answer r, s⟩ := by
  rw [Call.answer_of_reading r h]
  have howed : { c with poll := .answered e r rest }.owed = c.owed := by
    simp [Call.owed, h, Poll.owed]
  have hentries : c.poll.entries = e :: rest := by simp [h, Poll.entries]
  have hunread : c.poll.unread = e :: rest := by simp [h, Poll.unread]
  exact {
    held := fun x hm => by
      rw [heldAfter_concat]
      exact hf.held x hm
    nodup := by
      have hn : (c.poll.entries.map Entry.key).Nodup := hf.nodup
      rw [hentries] at hn
      exact hn
    inRound := fun x hm => (hf.inRound x (by rw [hentries]; exact hm)).concat (by simp)
    unfinished := fun k hk => by
      obtain ⟨past, hpast, hgo⟩ := hf.unfinished k (hk.imp_right fun hk => by
        rw [hentries]
        exact hk)
      refine ⟨past, ?_, hgo⟩
      have hold : readingsOf k evs = past := by simpa [h, Poll.news] using hpast
      by_cases hk : e.key = k <;> simp [readingsOf_concat, Event.reading?, Poll.news, hk, hold]
    deserved := fun d hm => (hf.deserved d (howed ▸ hm)).concat fun ho => by
      have hd := hf.ended d (howed ▸ hm) ho
      rw [hunread] at hd
      have hne : e.key ≠ d.key := fun hk => hd (List.mem_map.mpr ⟨e, List.mem_cons_self, hk⟩)
      simp [Event.reading?, hne]
    ended := fun d hm ho hd => hf.ended d (howed ▸ hm) ho (by
      rw [hunread]
      exact List.mem_cons_of_mem _ hd) }

theorem Faithful.expire (hf : Faithful targets evs ⟨c, s⟩) (h : c.deadline = .waiting) :
    Faithful targets (evs ++ [.expired c.active]) ⟨c.expire, s⟩ := by
  rw [Call.expire_of_waiting h]
  have howed : ∀ d, d ∈ c.poll.owed ++ c.active.map (fun e => ⟨e.key, e.target, .timeout⟩)
      ++ c.published → d ∈ c.owed ++ c.published ∨
        ∃ e ∈ c.active, (⟨e.key, e.target, .timeout⟩ : Delivery T) = d := by
    intro d hd
    simp only [List.mem_append, List.mem_map] at hd
    rcases hd with (hd | hd) | hd
    · exact Or.inl (List.mem_append_left _ (List.mem_append_left _ hd))
    · exact Or.inr hd
    · exact Or.inl (List.mem_append_right _ hd)
  exact {
    held := nofun
    nodup := hf.nodup
    inRound := fun e hm => (hf.inRound e hm).concat nofun
    unfinished := fun k hk => by
      obtain ⟨past, hpast, hgo⟩ := hf.unfinished k (Or.inr (hk.resolve_left nofun))
      exact ⟨past, by simpa [readingsOf_concat, Event.reading?] using hpast, hgo⟩
    deserved := fun d hm => by
      rcases howed d hm with hd | ⟨e, he, rfl⟩
      · exact (hf.deserved d hd).concat fun _ => rfl
      · exact ⟨evs, c.active, [], rfl, he, hf.held e he⟩
    ended := fun d hm ho => by
      rcases howed d hm with hd | ⟨e, he, rfl⟩
      · exact hf.ended d hd ho
      · exact absurd rfl ho }

/-- An object that has been read is dealt with: its notice is deserved, or it goes on, or it was not
active any more. -/
theorem Faithful.dealt {c' : Call T} {live : Bool} (hf : Faithful targets evs ⟨c, s⟩)
    (h : c.poll = .answered e r rest)
    (hp : c'.poll.entries = rest ∧ c'.poll.unread = rest ∧ ∀ k, c'.poll.news k = [])
    (hheld : ∀ x ∈ c'.active,
      heldAfter targets x.key (evs ++ [.settled e r live]) = some x.target)
    (ha : c'.active.map Entry.key ⊆ c.active.map Entry.key)
    (hgo : e.key ∈ c'.active.map Entry.key → GoesOn r)
    (howed : ∀ d ∈ c'.owed ++ c'.published,
      d ∈ c.owed ++ c.published ∨ d.key = e.key ∧ Deserved targets evs d) :
    Faithful targets (evs ++ [.settled e r live]) ⟨c', s⟩ := by
  obtain ⟨hentries, hunread, hnews⟩ := hp
  have hold : c.poll.entries = e :: rest := by simp [h, Poll.entries]
  have hn : (c.poll.entries.map Entry.key).Nodup := hf.nodup
  rw [hold, List.map_cons, List.nodup_cons] at hn
  exact {
    held := hheld
    nodup := by
      rw [hentries]
      exact hn.2
    inRound := fun x hm => by
      rw [hentries] at hm
      refine (hf.inRound x ?_).concat nofun
      rw [hold]
      exact List.mem_cons_of_mem _ hm
    unfinished := fun k hk => by
      rw [hentries] at hk
      obtain ⟨past, hpast, hall⟩ := hf.unfinished k (hk.imp (fun hk => ha hk) fun hk => by
        rw [hold]
        exact List.mem_cons_of_mem _ hk)
      refine ⟨readingsOf k evs, by simp [readingsOf_concat, Event.reading?, hnews], ?_⟩
      rw [hpast]
      intro x hx
      rcases List.mem_append.mp hx with hx | hx
      · exact hall x hx
      · -- The news is of `e`, which is not among the rest.
        by_cases hek : e.key = k
        · subst hek
          obtain rfl : x = r := by simpa [h, Poll.news] using hx
          exact hgo (hk.resolve_right hn.1)
        · simp [h, Poll.news, hek] at hx
    deserved := fun d hm => by
      rcases howed d hm with hd | ⟨-, hd⟩
      · exact (hf.deserved d hd).concat fun _ => rfl
      · exact hd.concat fun _ => rfl
    ended := fun d hm ho => by
      rw [hunread]
      rcases howed d hm with hd | ⟨hk, -⟩
      · have hnot := hf.ended d hd ho
        simpa [h, Poll.unread] using hnot
      · exact hk ▸ hn.1 }

theorem EndsWith.deserved {k : String} {t : T} {v : Verdict} {o : Outcome}
    (h : EndsWith k t v evs) (hv : v.outcome? = some o) : Deserved targets evs ⟨k, t, o⟩ := by
  cases v with
  | unfinished => simp [Verdict.outcome?] at hv
  | done | failed =>
    obtain rfl := Option.some_inj.mp hv
    exact h

/-- Acting on a reading stores the object that was read, or takes it out in that form. -/
theorem Faithful.settle (hf : Faithful targets evs ⟨c, s⟩) (h : c.poll = .answered e r rest) :
    Faithful targets (evs ++ [.settled e r (c.isActive e.key)]) ⟨c.settle, s⟩ := by
  have hp : ∀ p : Poll T, p = .between rest ∨ (∃ d, p = .owing d rest) →
      p.entries = rest ∧ p.unread = rest ∧ ∀ k, p.news k = [] := by
    rintro p (rfl | ⟨d, rfl⟩) <;> exact ⟨rfl, rfl, fun _ => rfl⟩
  have howed : { c with poll := .between rest }.owed = c.owed := by
    simp [Call.owed, h, Poll.owed]
  have hs := Call.settle_settle h
  generalize c.settle = c' at hs
  cases hs with
  | failed =>
    refine hf.dealt h (hp _ (Or.inl rfl)) (fun x hx => ?_) (List.Subset.refl _) (fun _ => trivial)
      fun d hd => Or.inl (howed ▸ hd)
    rw [heldAfter_concat]
    exact hf.held x hx
  | unfinished t =>
    refine hf.dealt h (hp _ (Or.inl rfl)) (fun x hx => ?_) (by simp) (fun _ => rfl)
      fun d hd => Or.inl (howed ▸ hd)
    rw [heldAfter_concat]
    rcases Call.mem_refreshKey.mp hx with ⟨hk, hx⟩ | ⟨hk, ht, hx⟩
    · have hnone : (Event.settled e (some (t, .unfinished)) (c.isActive e.key)).stores? x.key =
          none := by
        cases c.isActive e.key <;> simp [Event.stores?, Ne.symm hk]
      rw [hnone]
      exact hf.held x hx
    · simp [Event.stores?, Call.isActive_iff.mpr hx, hk, ht]
  | taken t v o hv ha =>
    have hnews : EndsWith e.key t v evs := by
      obtain ⟨past, hpast, hall⟩ := hf.unfinished e.key (Or.inl (Call.isActive_iff.mp ha))
      exact ⟨past, by simpa [h, Poll.news] using hpast, hall⟩
    refine hf.dealt h (hp _ (Or.inr ⟨_, rfl⟩)) (fun x hx => ?_)
      (List.map_subset _ (List.filter_subset_self _)) (fun hk => ?_) fun d hd => ?_
    · rw [heldAfter_concat]
      have hnone : (Event.settled e (some (t, v)) (c.isActive e.key)).stores? x.key = none := by
        cases v <;> simp_all [Event.stores?, Verdict.outcome?]
      rw [hnone]
      exact hf.held x (Call.mem_removeKey.mp hx).1
    · simp [Call.map_key_removeKey] at hk
    · simp only [Call.owed, Poll.owed, List.cons_append, List.nil_append, List.mem_cons] at hd
      rcases hd with rfl | hd
      · exact Or.inr ⟨rfl, hnews.deserved hv⟩
      · exact Or.inl (by simpa [Call.owed, h, Poll.owed] using hd)
  | gone t v o hv ha =>
    refine hf.dealt h (hp _ (Or.inl rfl)) (fun x hx => ?_) (List.Subset.refl _) (fun hk => ?_)
      fun d hd => Or.inl (howed ▸ hd)
    · rw [heldAfter_concat, ha]
      cases v <;> exact hf.held x hx
    · exact absurd (ha.symm.trans (Call.isActive_iff.mpr hk)) Bool.false_ne_true

theorem Faithful.setPoll {p : Poll T} (hf : Faithful targets evs ⟨c, s⟩) (hev : ev.silent = true)
    (he : p.entries.Sublist c.poll.entries) (hu : p.unread ⊆ c.poll.unread)
    (hn : ∀ k, p.news k = c.poll.news k) (ho : p.owed = c.poll.owed) :
    Faithful targets (evs ++ [ev]) ⟨{ c with poll := p }, s⟩ :=
  hf.frame hev (List.Subset.refl _) he hu hn (by simp [Call.owed, ho])

/-- A step that leaves the poll alone and takes no object out. -/
theorem Faithful.keepPoll {c' : Call T} {s' : Standing} (hf : Faithful targets evs ⟨c, s⟩)
    (hev : ev.silent = true) (hp : c'.poll = c.poll) (ha : c'.active ⊆ c.active)
    (hd : c'.owed ++ c'.published ⊆ c.owed ++ c.published) :
    Faithful targets (evs ++ [ev]) ⟨c', s'⟩ :=
  hf.frame hev ha (by simp [hp]) (by simp [hp]) (by simp [hp]) hd

theorem Faithful.advance {c' : Call T} (hf : Faithful targets evs ⟨c, s⟩)
    (hw : Orderly timed ⟨c, s⟩) (h : c.Advance (s != .running) c') :
    Faithful targets (evs ++ [.advanced]) ⟨c', s⟩ := by
  cases h with
  | deadlineSet ho =>
    have hd : c.deadline = .unset := hw.deadline_unset ho
    exact hf.keepPoll rfl rfl (List.Subset.refl _) (by simp [Call.owed, hd, Deadline.owed])
  | pollSet ho =>
    have hp : c.poll = .unset := hw.poll_unset (ho ▸ rfl)
    exact hf.frame rfl (List.Subset.refl _) (List.nil_sublist _) (List.nil_subset _)
      (by simp [hp, Poll.news]) (by simp [Call.owed, hp, Poll.owed])
  | refused =>
    rw [Call.stopDeadline_eq]
    exact hf.keepPoll rfl rfl (List.Subset.refl _) (List.Subset.refl _)
  | _ => exact hf.keepPoll rfl rfl (List.Subset.refl _) (List.Subset.refl _)

end Steps

theorem Faithful.step (hf : Faithful targets evs w) (hw : Orderly timed w)
    (hn : w.call.ledger.Nodup) (h : Step w ev w') : Faithful targets (evs ++ [ev]) w' := by
  cases h with
  | advance => exact hf.advance hw (Call.advance_advanceOpening _ _)
  | arrange hp =>
    exact hf.keepPoll rfl rfl hp.subset (List.Subset.refl _)
  | beginRound h => exact hf.beginRound hn h
  | ask h =>
    rw [Call.proceed_of_cons h]
    exact hf.setPoll rfl (by simp [h, Poll.entries])
      (by simp [h, Poll.unread]) (by simp [h, Poll.news]) (by simp [h, Poll.owed])
  | endRound h =>
    rw [Call.proceed_of_nil h]
    refine hf.setPoll rfl ?_ ?_ ?_ ?_ <;>
      split <;> simp [h, Poll.entries, Poll.unread, Poll.news, Poll.owed]
  | leave h =>
    rw [Call.leave_of_leaving h, Call.stopDeadline_eq]
    exact hf.frame rfl (List.Subset.refl _) (List.nil_sublist _)
      (List.nil_subset _) (by simp [h, Poll.news]) (by simp [Call.owed, h, Poll.owed])
  | answer r h => exact hf.answer h
  | settle h => exact hf.settle h
  | pay h =>
    rw [Call.pay_of_owing h]
    exact hf.frame rfl (List.Subset.refl _)
      (by simp [h, Poll.entries]) (by simp [h, Poll.unread]) (by simp [h, Poll.news])
      (by simp [Call.owed, Call.tell, h, Poll.owed])
  | expire h => exact hf.expire h
  | stopPoll h =>
    rw [Call.stopPoll_of_drained h]
    exact hf.keepPoll rfl rfl (List.Subset.refl _)
      (by simp [Call.owed, h, Deadline.owed])
  | payTimeout h =>
    rw [Call.payTimeout_of_cons h]
    refine hf.keepPoll rfl rfl (List.Subset.refl _) fun x hx => ?_
    simp only [Call.owed, Call.tell, h, Deadline.owed, List.mem_append, List.mem_cons,
      List.not_mem_nil, or_false] at hx ⊢
    tauto
  | endDeadline h =>
    rw [Call.payTimeout_of_nil h]
    exact hf.keepPoll rfl rfl (List.Subset.refl _)
      (by simp [Call.owed, h, Deadline.owed])
  | deliver i h =>
    rw [Call.deliver_of_pending h]
    exact hf.keepPoll rfl rfl (List.Subset.refl _)
      (List.Subset.refl _)
  | dropPoll h =>
    rw [Call.dropPoll_of_waits h]
    exact hf.setPoll (p := .cancelled) rfl (List.nil_sublist _) (List.nil_subset _)
      (fun k => (Poll.news_of_waits h k).symm) (Poll.owed_of_waits h).symm
  | dropDeadline h =>
    rw [Call.dropDeadline_of_waiting h]
    exact hf.keepPoll rfl rfl (List.Subset.refl _)
      (by simp [Call.owed, h, Deadline.owed])
  | dropCallback | close | shutDown =>
    exact hf.keepPoll rfl rfl (List.Subset.refl _)
      (List.Subset.refl _)

/-! ## Calls that have been accepted -/

theorem Course.faithful {s : Standing}
    (h : Course Step ⟨.prepare (Call.collect targets) timed, s⟩ evs w) :
    Faithful targets evs w := by
  induction h with
  | refl => exact .prepare timed s
  | tail prior next ih =>
    have hn := Call.nodup_map_key_collect targets
    exact ih.step prior.orderly (prior.nodup_ledger hn) next

theorem Course.outcome_ne_timeout {s : Standing}
    (h : Course Step ⟨.prepare (Call.collect targets) false, s⟩ evs w) :
    ∀ d ∈ w.call.published, d.outcome ≠ .timeout := by
  intro d hd ho
  have hdes := h.faithful.deserved d (List.mem_append_right _ hd)
  unfold Deserved at hdes
  rw [ho] at hdes
  obtain ⟨before, active, after, rfl, -, -⟩ := hdes
  obtain ⟨w₁, w₂, hprior, hnext⟩ := h.step_of_append_cons
  cases hnext with
  | expire hwait => exact nomatch hprior.orderly.deadline_given (by simp [hwait])

theorem Faithful.getLast?_readingsOf {e : Entry T} {r : Option (T × Verdict)} {live : Bool}
    (hf : Faithful targets evs w) (h : Step w (.settled e r live) w') :
    (readingsOf e.key evs).getLast? = some r := by
  cases h with
  | settle h =>
    obtain ⟨past, hpast, -⟩ := hf.unfinished e.key (Or.inr (by simp [h, Poll.entries]))
    simp [hpast, h, Poll.news]

theorem Faithful.asked {e : Entry T} (hf : Faithful targets evs w) (h : Step w (.asked e) w') :
    InRound targets evs e := by
  cases h with
  | ask h => exact hf.inRound e (by simp [h, Poll.entries])

omit [Watchable T] in
theorem Step.active_eq_of_failed {e : Entry T} {live : Bool}
    (hev : ev = .answered e none ∨ ev = .settled e none live) (h : Step w ev w') :
    w'.call.active = w.call.active := by
  rcases hev with rfl | rfl
  · cases h with
    | answer _ h => rw [Call.answer_of_reading _ h]
  · cases h with
    | @settle c s e _ rest h =>
      have hs := Call.settle_settle h
      generalize c.settle = c' at hs
      cases hs with
      | failed => rfl

/-- **Notices say what was read.**  Whatever is read and whatever order the steps of a call are
taken in: an object whose notice says that it was completed, or has failed, was last read so and
given in that form, and no reading before was final; one whose notice says that time was up was
active when the deadline came, and is given in the form stored last, or else as it came with the
call.  Callbacks get what the notices say.  A reading is asked for with the object as it was held
when the round began, it is the last one of the object when it is acted on, and one that failed
changes nothing. -/
theorem Course.notices_are_faithful {maxWait : Option Nat} {active : List (Entry T)} {s : Standing}
    (ha : Service.accept targets maxWait = .ok active)
    (h : Course Step ⟨.prepare active maxWait.isSome, s⟩ evs w) :
    (∀ d ∈ w.call.published,
      (d.outcome = .completed → EndsWith d.key d.target .done evs) ∧
      (d.outcome = .failed → EndsWith d.key d.target .failed evs) ∧
      (d.outcome = .timeout → TimedOut targets d.key d.target evs)) ∧
    (∀ d ∈ w.call.delivered, d ∈ w.call.published) ∧
    (∀ e ∈ w.call.active, heldAfter targets e.key evs = some e.target) ∧
    (∀ e w', Step w (.asked e) w' → InRound targets evs e) ∧
    (∀ e r live w', Step w (.settled e r live) w' →
      (readingsOf e.key evs).getLast? = some r ∧ live = w.call.isActive e.key) ∧
    (∀ e live ev w', Step w ev w' → ev = .answered e none ∨ ev = .settled e none live →
      w'.call.active = w.call.active ∧
      ∀ k, heldAfter targets k (evs ++ [ev]) = heldAfter targets k evs) := by
  obtain ⟨-, -, rfl⟩ := Service.accept_eq_ok_iff.mp ha
  have hf := h.faithful
  refine ⟨fun d hd => ?_, h.callbacksKept.delivered_subset, hf.held, fun e w' => hf.asked,
    fun e r live w' next => ?_,
    fun e live ev w' next hev => ⟨next.active_eq_of_failed hev, fun k => ?_⟩⟩
  · have hdes := hf.deserved d (List.mem_append_right _ hd)
    unfold Deserved at hdes
    refine ⟨fun ho => ?_, fun ho => ?_, fun ho => ?_⟩ <;> simpa only [ho] using hdes
  · refine ⟨hf.getLast?_readingsOf next, ?_⟩
    cases next
    rfl
  · rw [heldAfter_concat]
    rcases hev with rfl | rfl <;> rfl

/-- One task is done after a reading that failed; the deadline comes while the other one is read,
and what comes of that reading is too late. -/
theorem late_reading_is_left_out :
    ∃ evs w, Course Step ⟨.prepare (Call.collect twins) true, .running⟩ evs w ∧
      w.call.published = [⟨"a", .create "a" .deploy 2, .completed⟩,
        ⟨"b", .create "b" .reset 3, .timeout⟩] ∧
      EndsWith "a" (.create "a" .deploy 2) .done evs ∧
      TimedOut twins "b" (.create "b" .reset 3) evs := by
  have h : Course Step ⟨.prepare (Call.collect twins) true, .running⟩ [] _ := .refl
  have h := (((h.tail .advance).tail .advance).tail .advance).tail .advance
  have h := (((h.tail (.beginRound rfl)).tail (.ask rfl)).tail (.answer none rfl)).tail
    (.settle rfl)
  have h := (((h.tail (.ask rfl)).tail
    (.answer (some (.create "b" .reset 3, .unfinished)) rfl)).tail (.settle rfl)).tail
    (.endRound rfl)
  have h := ((((h.tail (.beginRound rfl)).tail (.ask rfl)).tail
    (.answer (some (.create "a" .deploy 2, .done)) rfl)).tail (.settle rfl)).tail (.pay rfl)
  have h := (((h.tail (.ask rfl)).tail (.expire rfl)).tail
    (.answer (some (.create "b" .reset 4, .unfinished)) rfl)).tail (.settle rfl)
  have h := (h.tail (.stopPoll rfl)).tail (.payTimeout rfl)
  have ha : Service.accept twins (some 5) = .ok (Call.collect twins) := rfl
  have hf := (Course.notices_are_faithful ha h).1
  exact ⟨_, _, h, rfl, (hf _ List.mem_cons_self).1 rfl,
    (hf _ (List.mem_cons_of_mem _ List.mem_cons_self)).2.2 rfl⟩

end TaskWatch.Monitor
