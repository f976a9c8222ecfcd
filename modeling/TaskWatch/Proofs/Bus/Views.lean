import Mathlib.Data.List.DropRight
import TaskWatch.Proofs.Bus.Inbox
import TaskWatch.Proofs.Bus.Ring

/-!
# What subscribers see

A subscriber sees all that is published while it stays, in that order, but for what it is told that
it has missed.

* `Spells`: what a subscriber got stands for some messages, a lag for as many as it says.
* `exists_past`: what came out of an inbox spells out all that was put into it, but for what is
  left.
* `exists_subscribe`: who can receive has come at some time and stayed since.
* `views_are_exact`: what this comes to for a bus and any acts.
-/

namespace TaskWatch.Monitor.Bus

variable {ν α : Type}

/-! ## Spelling -/

/-- What was got spells out some messages: each one stands for itself, and a lag for as many as it
says, whatever they were. -/
inductive Spells : List (Received α) → List α → Prop
  | nil : Spells [] []
  | message (a : α) {got : List (Received α)} {sent : List α} (h : Spells got sent) :
      Spells (.message a :: got) (a :: sent)
  | lagged (missed : List α) {got : List (Received α)} {sent : List α} (h : Spells got sent) :
      Spells (.lagged missed.length :: got) (missed ++ sent)
  | empty {got : List (Received α)} {sent : List α} (h : Spells got sent) :
      Spells (.empty :: got) sent

theorem Spells.append {got got' : List (Received α)} {sent sent' : List α} (h : Spells got sent)
    (h' : Spells got' sent') : Spells (got ++ got') (sent ++ sent') := by
  induction h with
  | nil => exact h'
  | message a _ ih => exact .message a ih
  | lagged missed _ ih =>
    rw [List.append_assoc]
    exact .lagged missed ih
  | empty _ ih => exact .empty ih

theorem spells_lagged (missed : List α) : Spells [.lagged missed.length] missed := by
  have h := Spells.lagged missed .nil
  rwa [List.append_nil] at h

/-- What comes out of an inbox spells out what has gone from it. -/
theorem takeNext_spells (unread : List α) :
    ∃ gone, unread = gone ++ (takeNext unread).2 ∧ Spells [(takeNext unread).1] gone := by
  unfold takeNext
  generalize capacity = most
  split
  · have hlen : (unread.take (unread.length - most)).length = unread.length - most := by
      rw [List.length_take]
      omega
    have hgone := spells_lagged (unread.take (unread.length - most))
    rw [hlen] at hgone
    exact ⟨_, (List.take_append_drop _ _).symm, hgone⟩
  · cases unread with
    | nil => exact ⟨[], rfl, .empty .nil⟩
    | cons a rest => exact ⟨[a], rfl, .message a .nil⟩

def Turn.brings? : Turn α → Option α
  | .arrival a => some a
  | .taking => none

theorem exists_past (unread : List α) (turns : List (Turn α)) :
    ∃ past, unread ++ turns.filterMap Turn.brings? = past ++ (takeTurns unread turns).2 ∧
      Spells (takeTurns unread turns).1 past := by
  induction turns generalizing unread with
  | nil => exact ⟨[], List.append_nil unread, .nil⟩
  | cons t turns ih =>
    cases t with
    | arrival a =>
      obtain ⟨past, hall, hspells⟩ := ih (unread ++ [a])
      refine ⟨past, ?_, hspells⟩
      have hbrings : (Turn.arrival a :: turns).filterMap Turn.brings? =
          a :: turns.filterMap Turn.brings? := List.filterMap_cons_some rfl
      rw [hbrings, List.append_cons]
      exact hall
    | taking =>
      obtain ⟨gone, hgone, hnext⟩ := takeNext_spells unread
      obtain ⟨past, hall, hspells⟩ := ih (takeNext unread).2
      refine ⟨gone ++ past, ?_, hnext.append hspells⟩
      rw [List.filterMap_cons_none rfl, List.append_assoc]
      calc unread ++ turns.filterMap Turn.brings?
          _ = gone ++ (takeNext unread).2 ++ turns.filterMap Turn.brings? := by rw [← hgone]
          _ = gone ++ ((takeNext unread).2 ++ turns.filterMap Turn.brings?) :=
            List.append_assoc _ _ _
          _ = _ := by rw [hall]; rfl

theorem takeTurns_of_arrivals {turns : List (Turn α)} (h : .taking ∉ turns) (unread : List α) :
    takeTurns unread turns = ([], unread ++ turns.filterMap Turn.brings?) := by
  induction turns generalizing unread with
  | nil => simp [takeTurns]
  | cons t turns ih =>
    obtain ⟨hne, hrest⟩ := not_or.mp (mt List.mem_cons.mpr h)
    cases t with
    | arrival a => simp [takeTurns, Turn.take, ih hrest, Turn.brings?]
    | taking => exact absurd rfl hne

theorem takeNext_fst (unread : List α) : (takeNext unread).1 =
    if 256 < unread.length then .lagged (unread.length - 256)
    else (unread.head?.map .message).getD .empty := by
  have hcapacity : capacity = 256 := rfl
  unfold takeNext
  rw [hcapacity]
  by_cases h : 256 < unread.length
  · rw [if_pos h, if_pos h]
  · rw [if_neg h, if_neg h]
    cases unread <;> rfl

/-! ## Who can receive -/

section Subscribers

variable [BEq ν] [LawfulBEq ν] {who : ν}

theorem isSome_place?_act {b : Bus ν α} {a : Act ν α} (h : a.stays who = true) :
    ((b.act a).place? who).isSome = (b.place? who).isSome := by
  cases a with
  | subscribe w => rw [act, place?_subscribe_of_ne (by simpa [Act.stays] using h)]
  | publish a => rfl
  | receive w =>
    simp only [act, receive_eq]
    cases hw : b.place? w with
    | none => rfl
    | some cursor =>
      show ((b.moveTo w _).place? who).isSome = _
      by_cases hwho : w = who
      · subst hwho
        rw [place?_moveTo_self, Option.isSome_map]
      · rw [place?_moveTo_of_ne hwho]
  | leave w => rw [act, place?_leave_of_ne (by simpa [Act.stays] using h)]

/-- Who has a place has come at some time and stayed since. -/
theorem exists_subscribe {as : List (Act ν α)} (h : ((start.acts as).place? who).isSome = true) :
    ∃ before after, as = before ++ .subscribe who :: after ∧ ∀ a ∈ after, a.stays who = true := by
  induction as using List.reverseRecOn with
  | nil => cases h
  | append_singleton as a ih =>
    rw [acts_append] at h
    by_cases ha : a.stays who = true
    · obtain ⟨before, after, rfl, hstay⟩ := ih ((isSome_place?_act ha).symm.trans h)
      refine ⟨before, after ++ [a], by simp, ?_⟩
      intro x hx
      rcases List.mem_append.mp hx with hx | hx
      · exact hstay x hx
      · exact List.mem_singleton.mp hx ▸ ha
    · cases a with
      | subscribe w =>
        obtain rfl : w = who := by simpa [Act.stays] using ha
        exact ⟨as, [], rfl, fun x hx => absurd hx List.not_mem_nil⟩
      | leave w =>
        obtain rfl : w = who := by simpa [Act.stays] using ha
        have h : (((start.acts as).leave w).place? w).isSome = true := h
        rw [place?_leave_self] at h
        cases h
      | publish a => exact absurd rfl ha
      | receive w => exact absurd rfl ha

/-! ## Views -/

def joined (before : List (Act ν α)) (who : ν) : Bus ν α := (start.acts before).subscribe who

theorem filterMap_brings? (who : ν) (as : List (Act ν α)) :
    (as.filterMap (Act.turn? who)).filterMap Turn.brings? = as.filterMap Act.sent? := by
  rw [List.filterMap_filterMap]
  congr 1
  funext a
  cases a with
  | receive w =>
    by_cases hw : w = who
    · simp [Act.turn?, hw, Turn.brings?, Act.sent?]
    · simp [Act.turn?, hw, Act.sent?]
  | _ => rfl

theorem takeNext_snd {unread : List α} (h : 256 < unread.length) :
    (takeNext unread).2 = unread.rtake 256 := by
  have hcapacity : capacity = 256 := rfl
  unfold takeNext
  rw [hcapacity, if_pos h, List.rtake]

theorem rtake_append_of_le {l l' : List α} {n : Nat} (h : n ≤ l'.length) :
    (l ++ l').rtake n = l'.rtake n := by
  rw [List.rtake, List.rtake, List.length_append, Nat.add_sub_assoc h, List.drop_length_add_append]

/-- What is received after a lag: the oldest message kept, or word of another lag. -/
theorem receive_after_lag {b : Bus ν α} {unread : List α} {others : List (Act ν α)} (hb : b.Sound)
    (hu : b.unread? who = some unread) (hlag : 256 < unread.length)
    (hothers : ∀ a ∈ others, a.stays who = true ∧ a.turn? who ≠ some .taking) :
    ((b.acts (.receive who :: others)).receive who).map Prod.fst =
      if (others.filterMap Act.sent?).isEmpty then (unread.rtake 256).head?.map .message
      else some (.lagged (others.filterMap Act.sent?).length) := by
  obtain ⟨-, hleft⟩ := receive_eq_of_unread? hb hu
  rw [takeNext_snd hlag] at hleft
  obtain ⟨-, hend⟩ := seen_eq (hb.act (.receive who)) hleft fun a ha => (hothers a ha).1
  have htaking : .taking ∉ others.filterMap (Act.turn? who) := by
    intro hmem
    obtain ⟨a, ha, hturn⟩ := List.mem_filterMap.mp hmem
    exact (hothers a ha).2 hturn
  rw [takeTurns_of_arrivals htaking, filterMap_brings?] at hend
  have hsound := (hb.act (.receive who)).acts others
  obtain ⟨hget, -⟩ := receive_eq_of_unread? hsound hend
  have hkept : (unread.rtake 256).length = 256 := by
    rw [List.rtake, List.length_drop]
    omega
  rw [acts_cons, hget, takeNext_fst, List.length_append, hkept]
  cases hmore : others.filterMap Act.sent? with
  | nil =>
    cases hold : unread.rtake 256 with
    | nil =>
      rw [hold] at hkept
      cases hkept
    | cons a rest => simp
  | cons a more =>
    rw [if_pos (by simp), List.isEmpty_cons, if_neg Bool.false_ne_true]
    simp

/-- **Every subscriber's view is exact.**  Whatever is done with a bus: who can receive has come at
some time and stayed since, and what it has got since then spells out what was published meanwhile,
in that order, up to some place.  It hears of a lag only when more than 256 messages stand behind
that place, and then of as many as exceed these; what it receives next is the oldest of the last
256, or word of what has been published since.  What it gets depends on nothing else than what was
published since it came and when it received, and a ring with slots for the last messages is enough
to give it. -/
theorem views_are_exact (before : List (Act ν α)) {after : List (Act ν α)}
    (hstay : ∀ a ∈ after, a.stays who = true) :
    (∀ acts : List (Act ν α), (start.acts acts).receive who ≠ none → ∃ before after,
      acts = before ++ .subscribe who :: after ∧ ∀ a ∈ after, a.stays who = true) ∧
    (∃ past unread, after.filterMap Act.sent? = past ++ unread ∧
      Spells (seen who (joined before who) after) past ∧
      (((joined before who).acts after).receive who).map Prod.fst = some
        (if 256 < unread.length then .lagged (unread.length - 256)
        else (unread.head?.map .message).getD .empty) ∧
      (256 < unread.length → ∀ others : List (Act ν α),
        (∀ a ∈ others, a.stays who = true ∧ a.turn? who ≠ some .taking) →
        (((joined before who).acts (after ++ .receive who :: others)).receive who).map Prod.fst =
          if (others.filterMap Act.sent?).isEmpty then
            ((after.filterMap Act.sent?).rtake 256).head?.map .message
          else some (.lagged (others.filterMap Act.sent?).length))) ∧
    (∀ before' after' : List (Act ν α), (∀ a ∈ after', a.stays who = true) →
      after'.filterMap (Act.turn? who) = after.filterMap (Act.turn? who) →
      seen who (joined before' who) after' = seen who (joined before who) after) ∧
    ∀ cursor ≤ ((joined before who).acts after).log.size,
      (Ring.ofList ((joined before who).acts after).log.toList).next cursor =
        ((joined before who).acts after).next cursor := by
  have hsound : ∀ before : List (Act ν α), (joined before who).Sound := fun before =>
    (sound_start.acts before).act (.subscribe who)
  have hempty : ∀ before : List (Act ν α), (joined before who).unread? who = some [] := fun _ =>
    unread?_subscribe_self
  have hafter := (hsound before).acts after
  obtain ⟨hseen, hend⟩ := seen_eq (hsound before) (hempty before) hstay
  refine ⟨?_, ?_, ?_, fun cursor hle => Ring.next_eq hafter.is_open hle⟩
  · intro acts h
    apply exists_subscribe
    rw [Option.isSome_iff_ne_none]
    intro hnone
    apply h
    rw [receive_eq, hnone]
    rfl
  · obtain ⟨past, hall, hspells⟩ := exists_past [] (after.filterMap (Act.turn? who))
    rw [List.nil_append, filterMap_brings?] at hall
    rw [← hseen] at hspells
    generalize (takeTurns [] (after.filterMap (Act.turn? who))).2 = unread at hall hend
    refine ⟨past, unread, hall, hspells, ?_, ?_⟩
    · rw [(receive_eq_of_unread? hafter hend).1, takeNext_fst]
    · intro hlag others hothers
      have hkept : (past ++ unread).rtake 256 = unread.rtake 256 :=
        rtake_append_of_le (Nat.le_of_lt hlag)
      rw [acts_append, receive_after_lag hafter hend hlag hothers, hall, hkept]
  · intro before' after' hstay' hturns
    rw [(seen_eq (hsound before') (hempty before') hstay').1, hturns, hseen]

end Subscribers

/-- One message more than a bus keeps, with another subscriber coming and going. -/
def crowd : List (Act Nat Nat) :=
  .receive 7 :: .subscribe 8 :: (List.range 257).map .publish ++ [.leave 8]

/-- A subscriber that is one message behind the last 256 is told so, and goes on with the next
one. -/
theorem goes_on_after_lag :
    (∀ a ∈ crowd, a.stays 1 = true) ∧
    (((joined [.subscribe 7, .publish 0] 1).acts crowd).receive 1).map Prod.fst = some (.lagged 1) ∧
    (((joined [.subscribe 7, .publish 0] 1).acts (crowd ++ [.receive 1])).receive 1).map Prod.fst =
      some (.message 1) := by
  have hstay : ∀ a ∈ crowd, a.stays 1 = true := by decide +kernel
  have hnothing : seen 1 (joined [.subscribe 7, .publish 0] 1) crowd = [] := by decide +kernel
  have hsent : crowd.filterMap Act.sent? = List.range 257 := by decide +kernel
  obtain ⟨-, ⟨past, unread, hall, hspells, hget, hnext⟩, -⟩ :=
    views_are_exact [.subscribe 7, .publish 0] hstay
  rw [hnothing] at hspells
  cases hspells
  rw [hsent, List.nil_append] at hall
  subst hall
  have hlength : (List.range 257).length = 257 := List.length_range
  have holdest : ((List.range 257).rtake 256).head? = some 1 := by decide +kernel
  rw [hlength] at hget hnext
  have hgo := hnext (by decide) [] nofun
  rw [hsent, holdest] at hgo
  exact ⟨hstay, hget, hgo⟩

end TaskWatch.Monitor.Bus
