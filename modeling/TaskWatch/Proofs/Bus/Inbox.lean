import Mathlib.Data.List.DropRight
import TaskWatch.Monitor.Bus

/-!
# Inboxes

All subscribers of a bus share its messages, but each sees what it would see with an inbox of its
own: what is published is put into it, and a lag throws out all but the last messages.

* `Bus.unread?`: the inbox of a subscriber.  Each operation has one equation, and those of other
  subscribers leave it alone.
* `Bus.receive_eq_of_unread?`: receiving takes the next thing out of the inbox, as `takeNext` says.
* `Bus.drain_eq`: taking all there is empties the inbox, after one word of a lag if it is too full.
* `Bus.seen_eq`: so what a subscriber sees while it stays is a matter of what is published and of
  when it receives.
-/

namespace TaskWatch.Monitor.Bus

variable {ν α : Type}

/-! ## Acts -/

inductive Act (ν α : Type) where
  | subscribe (who : ν)
  | publish (a : α)
  | receive (who : ν)
  | leave (who : ν)

/-- What an act is for one subscriber. -/
inductive Turn (α : Type) where
  | arrival (a : α)
  | taking

namespace Act

def sent? : Act ν α → Option α
  | publish a => some a
  | _ => none

variable [BEq ν]

/-- Whether a subscriber stays by an act, and does not come anew. -/
def stays (who : ν) : Act ν α → Bool
  | subscribe w | leave w => !(w == who)
  | _ => true

def turn? (who : ν) : Act ν α → Option (Turn α)
  | publish a => some (.arrival a)
  | receive w => if w == who then some .taking else none
  | _ => none

end Act

section Acts

variable [BEq ν]

def act (b : Bus ν α) : Act ν α → Bus ν α
  | .subscribe who => b.subscribe who
  | .publish a => b.publish a
  | .receive who => ((b.receive who).map Prod.snd).getD b
  | .leave who => b.leave who

def acts (b : Bus ν α) (as : List (Act ν α)) : Bus ν α := as.foldl act b

def got? (b : Bus ν α) (who : ν) : Act ν α → Option (Received α)
  | .receive w => if w == who then (b.receive w).map Prod.fst else none
  | _ => none

def seen (who : ν) (b : Bus ν α) : List (Act ν α) → List (Received α)
  | [] => []
  | a :: rest => (b.got? who a).toList ++ seen who (b.act a) rest

theorem acts_append (b : Bus ν α) (as as' : List (Act ν α)) :
    b.acts (as ++ as') = (b.acts as).acts as' :=
  List.foldl_append

theorem acts_cons (b : Bus ν α) (a : Act ν α) (as : List (Act ν α)) :
    b.acts (a :: as) = (b.act a).acts as := rfl

end Acts

/-! ## Places -/

section Places

variable [BEq ν] {b : Bus ν α} {who w : ν}

/-- The number of the message that comes next for a subscriber. -/
def place? (b : Bus ν α) (who : ν) : Option Nat := b.subscribers.lookup who

theorem receive_eq (b : Bus ν α) (who : ν) : b.receive who =
    (b.place? who).map fun cursor => ((b.next cursor).1, b.moveTo who (b.next cursor).2) := by
  rw [receive, place?]

variable [LawfulBEq ν]

theorem lookup_filter_self (l : List (ν × Nat)) :
    (l.filter fun s => !(s.1 == who)).lookup who = none := by
  induction l with
  | nil => rfl
  | cons s l ih =>
    by_cases hs : s.1 = who
    · simpa [hs] using ih
    · rw [List.filter_cons_of_pos (by simpa using hs), List.lookup_cons,
        beq_eq_false_iff_ne.mpr (Ne.symm hs)]
      exact ih

theorem lookup_filter_of_ne (h : w ≠ who) (l : List (ν × Nat)) :
    (l.filter fun s => !(s.1 == w)).lookup who = l.lookup who := by
  induction l with
  | nil => rfl
  | cons s l ih =>
    by_cases hs : s.1 = w
    · have hwho : (who == s.1) = false := beq_eq_false_iff_ne.mpr (hs ▸ Ne.symm h)
      rw [List.filter_cons_of_neg (by simpa using hs), List.lookup_cons, hwho]
      exact ih
    · rw [List.filter_cons_of_pos (by simpa using hs), List.lookup_cons, List.lookup_cons, ih]

theorem lookup_map_of_ne (h : w ≠ who) (n : Nat) (l : List (ν × Nat)) :
    (l.map fun s => if s.1 == w then (s.1, n) else s).lookup who = l.lookup who := by
  induction l with
  | nil => rfl
  | cons s l ih =>
    rw [List.map_cons, List.lookup_cons, List.lookup_cons, ih]
    by_cases hs : s.1 = w
    · have hwho : (who == s.1) = false := beq_eq_false_iff_ne.mpr (hs ▸ Ne.symm h)
      rw [if_pos (beq_iff_eq.mpr hs), hwho]
    · rw [if_neg (by simpa using hs)]

theorem lookup_map_self (n : Nat) (l : List (ν × Nat)) :
    (l.map fun s => if s.1 == who then (s.1, n) else s).lookup who =
      (l.lookup who).map fun _ => n := by
  induction l with
  | nil => rfl
  | cons s l ih =>
    rw [List.map_cons, List.lookup_cons, List.lookup_cons, ih]
    by_cases hs : s.1 = who
    · simp [hs]
    · have hwho : (who == s.1) = false := beq_eq_false_iff_ne.mpr (Ne.symm hs)
      simp [hs, hwho]

theorem place?_leave_self : (b.leave who).place? who = none := lookup_filter_self _

theorem place?_leave_of_ne (h : w ≠ who) : (b.leave w).place? who = b.place? who :=
  lookup_filter_of_ne h _

theorem place?_subscribe_self : (b.subscribe who).place? who = some b.log.size := by
  simp [place?, subscribe]

theorem place?_subscribe_of_ne (h : w ≠ who) : (b.subscribe w).place? who = b.place? who := by
  have hwho : (who == w) = false := beq_eq_false_iff_ne.mpr (Ne.symm h)
  simp only [place?, subscribe, List.lookup_cons, hwho]
  exact lookup_filter_of_ne h _

theorem place?_moveTo_self (n : Nat) :
    (b.moveTo who n).place? who = (b.place? who).map fun _ => n :=
  lookup_map_self n _

theorem place?_moveTo_of_ne (h : w ≠ who) (n : Nat) : (b.moveTo w n).place? who = b.place? who :=
  lookup_map_of_ne h n _

end Places

/-! ## Inboxes -/

/-- What comes out of an inbox, the oldest message standing first, and what is left in it. -/
def takeNext (unread : List α) : Received α × List α :=
  if capacity < unread.length then
    (.lagged (unread.length - capacity), unread.drop (unread.length - capacity))
  else
    match unread with
    | a :: rest => (.message a, rest)
    | [] => (.empty, [])

def Turn.take (unread : List α) : Turn α → Option (Received α) × List α
  | .arrival a => (none, unread ++ [a])
  | .taking => (some (takeNext unread).1, (takeNext unread).2)

def takeTurns : (unread : List α) → List (Turn α) → List (Received α) × List α
  | unread, [] => ([], unread)
  | unread, t :: turns =>
    let (rs, left) := takeTurns (t.take unread).2 turns
    ((t.take unread).1.toList ++ rs, left)

/-- The number of a message tells whether it is kept, and the inbox tells the same. -/
theorem takeNext_drop {b : Bus ν α} (hopen : b.closed = false) {cursor : Nat}
    (hle : cursor ≤ b.log.size) :
    takeNext (b.log.toList.drop cursor) =
      ((b.next cursor).1, b.log.toList.drop (b.next cursor).2) := by
  have hlen : (b.log.toList.drop cursor).length = b.log.size - cursor := by simp
  unfold takeNext next oldest
  rw [hlen]
  by_cases hlag : cursor < b.log.size - capacity
  · have hgap : b.log.size - cursor - capacity = b.log.size - capacity - cursor := by omega
    have hto : cursor + (b.log.size - cursor - capacity) = b.log.size - capacity := by omega
    rw [if_pos hlag, if_pos (by omega), List.drop_drop, hto, hgap]
  · rw [if_neg hlag, if_neg (by omega)]
    by_cases hnew : cursor < b.log.size
    · rw [List.drop_eq_getElem_cons (by simpa using hnew), Array.getElem?_eq_getElem hnew]
      simp
    · rw [List.drop_eq_nil_of_le (by simp; omega), Array.getElem?_eq_none (by omega)]
      simp [hopen]
      omega

theorem next_le (b : Bus ν α) {cursor : Nat} (h : cursor ≤ b.log.size) :
    (b.next cursor).2 ≤ b.log.size := by
  unfold next oldest
  split
  · exact Nat.sub_le _ _
  · split
    · rename_i a ha
      obtain ⟨hlt, -⟩ := Array.getElem?_eq_some_iff.mp ha
      exact hlt
    · exact h

-- Where `next` may be unfolded, so is the subtraction of `capacity` in it, one by one.
seal next in
theorem drainWithin_succ (b : Bus ν α) (fuel cursor : Nat) : b.drainWithin (fuel + 1) cursor =
    match b.next cursor with
    | (.empty, cursor) => ([.empty], cursor)
    | (.closed, cursor) => ([.closed], cursor)
    | (got, cursor) => (got :: (b.drainWithin fuel cursor).1, (b.drainWithin fuel cursor).2) := rfl

/-- Within the messages that are kept, taking on gives each of them and the word that there is no
more. -/
theorem drainWithin_of_kept {b : Bus ν α} (hopen : b.closed = false) {fuel cursor : Nat}
    (hkept : b.log.size - capacity ≤ cursor) (hle : cursor ≤ b.log.size)
    (hfuel : b.log.size - cursor < fuel) :
    b.drainWithin fuel cursor =
      ((b.log.toList.drop cursor).map .message ++ [.empty], b.log.size) := by
  induction fuel generalizing cursor with
  | zero => omega
  | succ fuel ih =>
    have hold : ¬ cursor < b.log.size - capacity := Nat.not_lt.mpr hkept
    by_cases hnew : cursor < b.log.size
    · have hnext : b.next cursor = (.message b.log[cursor], cursor + 1) := by
        unfold next oldest
        rw [if_neg hold, Array.getElem?_eq_getElem hnew]
      rw [drainWithin_succ, hnext, List.drop_eq_getElem_cons (by simpa using hnew)]
      simp only
      rw [ih (by omega) (by omega) (by omega)]
      simp
    · obtain rfl : cursor = b.log.size := by omega
      have hnext : b.next b.log.size = (.empty, b.log.size) := by
        unfold next oldest
        rw [if_neg hold, Array.getElem?_eq_none (Nat.le_refl _), hopen]
        rfl
      rw [drainWithin_succ, hnext, List.drop_eq_nil_of_le (by simp)]
      rfl

/-- A lag comes once at most, and takes one step more. -/
theorem drainWithin_eq {b : Bus ν α} (hopen : b.closed = false) {fuel cursor : Nat}
    (hle : cursor ≤ b.log.size) (hfuel : capacity + 1 < fuel) :
    b.drainWithin fuel cursor =
      ((if capacity < b.log.size - cursor then [.lagged (b.log.size - cursor - capacity)]
        else []) ++
        ((b.log.toList.drop cursor).rtake capacity).map .message ++ [.empty], b.log.size) := by
  have hlen : (b.log.toList.drop cursor).length = b.log.size - cursor := by simp
  rw [List.rtake, hlen, List.drop_drop]
  by_cases hlag : capacity < b.log.size - cursor
  · -- After the lag the oldest message kept comes next.
    obtain ⟨fuel, rfl⟩ : ∃ n, fuel = n + 1 := Nat.exists_eq_add_one.mpr (by omega)
    have hfrom : cursor + (b.log.size - cursor - capacity) = b.log.size - capacity := by omega
    have hgap : b.log.size - cursor - capacity = b.log.size - capacity - cursor := by omega
    have hold : cursor < b.log.size - capacity := by omega
    have hnext : b.next cursor =
        (.lagged (b.log.size - capacity - cursor), b.log.size - capacity) := if_pos hold
    rw [hfrom, if_pos hlag, hgap, drainWithin_succ, hnext]
    simp only
    rw [drainWithin_of_kept hopen (Nat.le_refl _) (Nat.sub_le _ _) (by omega)]
    simp
  · have hnone : b.log.size - cursor - capacity = 0 := by omega
    rw [drainWithin_of_kept hopen (by omega) hle (by omega), if_neg hlag, hnone, Nat.add_zero,
      List.nil_append]

/-- A bus that is open, with no subscriber ahead of the messages. -/
structure Sound [BEq ν] (b : Bus ν α) : Prop where
  is_open : b.closed = false
  place_le : ∀ {who cursor}, b.place? who = some cursor → cursor ≤ b.log.size

section Inboxes

variable [BEq ν] {b : Bus ν α} {who w : ν} {unread : List α}

/-- The messages that a subscriber has not come to. -/
def unread? (b : Bus ν α) (who : ν) : Option (List α) := (b.place? who).map b.log.toList.drop

theorem unread?_eq_some_iff :
    b.unread? who = some unread ↔ ∃ n, b.place? who = some n ∧ b.log.toList.drop n = unread :=
  Option.map_eq_some_iff

theorem unread?_publish (hb : b.Sound) (a : α) :
    (b.publish a).unread? who = (b.unread? who).map (· ++ [a]) := by
  show (b.place? who).map (b.log.push a).toList.drop = ((b.place? who).map _).map _
  cases hp : b.place? who with
  | none => rfl
  | some cursor =>
    have hle : cursor ≤ b.log.toList.length := hb.place_le hp
    simp [List.drop_append_of_le_length hle]

theorem sound_start : (start : Bus ν α).Sound := ⟨rfl, nofun⟩

/-- Soundness of a bus whose messages have not become fewer, by the places of its subscribers. -/
theorem Sound.frame {b' : Bus ν α} (hb : b.Sound) (hopen : b'.closed = b.closed)
    (hsize : b.log.size ≤ b'.log.size)
    (hplace : ∀ who cursor, b'.place? who = some cursor →
      b.place? who = some cursor ∨ cursor ≤ b'.log.size) : b'.Sound := by
  refine ⟨hopen.trans hb.is_open, ?_⟩
  intro who cursor hp
  rcases hplace who cursor hp with h | h
  · exact Nat.le_trans (hb.place_le h) hsize
  · exact h

variable [LawfulBEq ν]

theorem unread?_subscribe_self : (b.subscribe who).unread? who = some [] := by
  rw [unread?, place?_subscribe_self]
  simp

theorem unread?_subscribe_of_ne (h : w ≠ who) : (b.subscribe w).unread? who = b.unread? who := by
  rw [unread?, place?_subscribe_of_ne h, log_subscribe]
  rfl

theorem unread?_leave_of_ne (h : w ≠ who) : (b.leave w).unread? who = b.unread? who := by
  rw [unread?, place?_leave_of_ne h, log_leave]
  rfl

theorem unread?_moveTo_of_ne (h : w ≠ who) (n : Nat) :
    (b.moveTo w n).unread? who = b.unread? who := by
  rw [unread?, place?_moveTo_of_ne h, log_moveTo]
  rfl

/-- Receiving takes the next thing out of the inbox. -/
theorem receive_eq_of_unread? (hb : b.Sound) (hu : b.unread? who = some unread) :
    (b.receive who).map Prod.fst = some (takeNext unread).1 ∧
      (b.act (.receive who)).unread? who = some (takeNext unread).2 := by
  obtain ⟨cursor, hp, rfl⟩ := unread?_eq_some_iff.mp hu
  have hnext := takeNext_drop hb.is_open (hb.place_le hp)
  have hreceive : b.receive who = some ((b.next cursor).1, b.moveTo who (b.next cursor).2) := by
    rw [receive_eq, hp, Option.map_some]
  constructor
  · rw [hreceive, hnext]
    rfl
  · simp only [act, hreceive, Option.map_some, Option.getD_some, hnext]
    rw [unread?, place?_moveTo_self, hp, log_moveTo]
    rfl

/-- Taking all there is empties the inbox: one word of a lag, if there is one, the messages that are
kept, and the word that there is no more. -/
theorem drain_eq (hb : b.Sound) (hu : b.unread? who = some unread) :
    (b.drain who).map Prod.fst = some
      ((if capacity < unread.length then [.lagged (unread.length - capacity)] else []) ++
        (unread.rtake capacity).map .message ++ [.empty]) ∧
      (b.drain who).bind (·.2.unread? who) = some [] := by
  obtain ⟨cursor, hp, rfl⟩ := unread?_eq_some_iff.mp hu
  have hle := hb.place_le hp
  have hlen : (b.log.toList.drop cursor).length = b.log.size - cursor := by simp
  rw [drain, show b.subscribers.lookup who = some cursor from hp, Option.map_some,
    drainWithin_eq hb.is_open hle (Nat.lt_succ_self _), hlen]
  refine ⟨rfl, ?_⟩
  rw [Option.bind_some, unread?, place?_moveTo_self, hp, log_moveTo]
  simp

theorem unread?_act_receive_of_ne (h : w ≠ who) :
    (b.act (.receive w)).unread? who = b.unread? who := by
  simp only [act, receive_eq]
  cases b.place? w with
  | none => rfl
  | some cursor => exact unread?_moveTo_of_ne h _

/-! ## What a subscriber sees -/

theorem Sound.act (hb : b.Sound) (a : Act ν α) : (b.act a).Sound := by
  cases a with
  | subscribe w =>
    refine hb.frame rfl (Nat.le_refl _) ?_
    intro who cursor hp
    by_cases h : w = who
    · subst h
      have hp : (b.subscribe w).place? w = some cursor := hp
      rw [place?_subscribe_self] at hp
      exact Or.inr (Option.some.inj hp ▸ Nat.le_refl _)
    · exact Or.inl ((place?_subscribe_of_ne h).symm.trans hp)
  | publish a =>
    have hsize : (b.log.push a).size = b.log.size + 1 := Array.size_push a
    exact hb.frame rfl (hsize ▸ Nat.le_succ _) fun who cursor hp => Or.inl hp
  | receive w =>
    simp only [Bus.act, receive_eq]
    cases hw : b.place? w with
    | none => exact hb
    | some at_ =>
      refine hb.frame rfl (Nat.le_refl _) ?_
      intro who cursor hp
      have hp : (b.moveTo w (b.next at_).2).place? who = some cursor := hp
      by_cases h : w = who
      · subst h
        rw [place?_moveTo_self, hw, Option.map_some] at hp
        exact Or.inr (Option.some.inj hp ▸ b.next_le (hb.place_le hw))
      · rw [place?_moveTo_of_ne h] at hp
        exact Or.inl hp
  | leave w =>
    refine hb.frame rfl (Nat.le_refl _) ?_
    intro who cursor hp
    have hp : (b.leave w).place? who = some cursor := hp
    by_cases h : w = who
    · subst h
      rw [place?_leave_self] at hp
      cases hp
    · exact Or.inl ((place?_leave_of_ne h).symm.trans hp)

theorem Sound.acts (hb : b.Sound) (as : List (Act ν α)) : (b.acts as).Sound := by
  induction as generalizing b with
  | nil => exact hb
  | cons a as ih => exact ih (hb.act a)

/-- An act that is no turn of a subscriber that stays gives it nothing and leaves its inbox
alone. -/
theorem act_of_turn?_eq_none {a : Act ν α} (hstay : a.stays who = true)
    (hturn : a.turn? who = none) :
    b.got? who a = none ∧ (b.act a).unread? who = b.unread? who := by
  cases a with
  | subscribe w => exact ⟨rfl, unread?_subscribe_of_ne (by simpa [Act.stays] using hstay)⟩
  | leave w => exact ⟨rfl, unread?_leave_of_ne (by simpa [Act.stays] using hstay)⟩
  | publish a => cases hturn
  | receive w =>
    have hw : w ≠ who := by
      rintro rfl
      simp [Act.turn?] at hturn
    refine ⟨?_, unread?_act_receive_of_ne hw⟩
    rw [got?, if_neg (by simpa using hw)]

theorem act_of_turn?_eq_some {a : Act ν α} {t : Turn α} (hb : b.Sound)
    (hu : b.unread? who = some unread) (hturn : a.turn? who = some t) :
    b.got? who a = (t.take unread).1 ∧ (b.act a).unread? who = some (t.take unread).2 := by
  cases a with
  | subscribe w => cases hturn
  | leave w => cases hturn
  | publish a =>
    cases hturn
    refine ⟨rfl, (unread?_publish hb a).trans ?_⟩
    rw [hu]
    rfl
  | receive w =>
    by_cases hw : w = who
    · subst hw
      obtain rfl : .taking = t := by simpa [Act.turn?] using hturn
      obtain ⟨hgot, hleft⟩ := receive_eq_of_unread? hb hu
      rw [got?, if_pos (beq_self_eq_true w)]
      exact ⟨hgot, hleft⟩
    · rw [Act.turn?, if_neg (by simpa using hw)] at hturn
      cases hturn

/-- **A subscriber that stays sees what comes out of its inbox.**  Other subscribers do not come
into it. -/
theorem seen_eq {as : List (Act ν α)} (hb : b.Sound) (hu : b.unread? who = some unread)
    (hstay : ∀ a ∈ as, a.stays who = true) :
    seen who b as = (takeTurns unread (as.filterMap (Act.turn? who))).1 ∧
      (b.acts as).unread? who = some (takeTurns unread (as.filterMap (Act.turn? who))).2 := by
  induction as generalizing b unread with
  | nil => exact ⟨rfl, hu⟩
  | cons a as ih =>
    have hrest : ∀ a ∈ as, a.stays who = true := fun a ha => hstay a (List.mem_cons_of_mem _ ha)
    rw [acts_cons, seen]
    cases hturn : a.turn? who with
    | none =>
      obtain ⟨hgot, hsame⟩ := act_of_turn?_eq_none (b := b) (hstay a List.mem_cons_self) hturn
      rw [hgot, List.filterMap_cons_none hturn]
      exact ih (hb.act a) (hsame.trans hu) hrest
    | some t =>
      obtain ⟨hgot, hleft⟩ := act_of_turn?_eq_some hb hu hturn
      obtain ⟨hseen, hend⟩ := ih (hb.act a) hleft hrest
      rw [hgot, List.filterMap_cons_some hturn, hseen]
      exact ⟨rfl, hend⟩

end Inboxes
end TaskWatch.Monitor.Bus
