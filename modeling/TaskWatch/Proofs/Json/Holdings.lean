import Mathlib.Data.List.Basic
import TaskWatch.Proofs.Json.Grammar
import TaskWatch.Proofs.Json.Nested
import TaskWatch.Proofs.Results

/-!
# What a value holds for the fields of a record

The order of members, and members of no field, do not matter for the record that is taken from an
object.  All that matters is what the object holds for each field: nothing, or one value.  A list
holds its items for the fields in their own order.

* `Field.Holds`, `Fields.Holds`: the values of fields, told from what there is for each of them.
* `Fields.foldlM_fill_iff`, `Fields.ofItems_iff`: the members of an object, and the items of a list.
* `Tree.held`, `ofValue_record_iff`: a record is taken from what its tree holds.
* `Fields.At`: a field in its place.  `At.holds`, `At.holds_set`: its value in a row, and another
  one in its place.
-/

namespace TaskWatch.Json

/-- A field has the only value that there is for it, or without any the one for its absence. -/
inductive Field.Holds {α : Type} (field : Field α) : List Value → α → Prop
  | absent {a : α} (h : field.absent = some a) : field.Holds [] a
  | value {v : Value} {a : α} (h : field.codec.ofValue v = .ok a) : field.Holds [v] a

/-- A slot stays as it is, or is empty and takes the only value that there is for it. -/
inductive Field.Takes {α : Type} (field : Field α) : Option α → List Value → Option α → Prop
  | nothing (slot : Option α) : field.Takes slot [] slot
  | value {v : Value} {a : α} (h : field.codec.ofValue v = .ok a) : field.Takes none [v] (some a)

section Slots

variable {α : Type} {field : Field α} {slot slot' : Option α} {v : Value}
  {vs : List Value} {a b : α}

theorem Field.holds_iff :
    field.Holds vs a ↔ ∃ slot, field.Takes none vs slot ∧ slot.or field.absent = some a := by
  constructor
  · rintro (h | h)
    · exact ⟨none, .nothing none, h⟩
    · exact ⟨some a, .value h, rfl⟩
  · rintro ⟨slot, h | h, hslot⟩
    · exact .absent hslot
    · cases hslot
      exact .value h

/-- A value that there is for a field is the only one, and the field has it. -/
theorem Field.Holds.of_mid {l r : List Value} (h : field.Holds (l ++ v :: r) a) :
    l = [] ∧ r = [] ∧ field.codec.ofValue v = .ok a := by
  cases l with
  | nil =>
    cases h with
    | value h => exact ⟨rfl, rfl, h⟩
  | cons u l =>
    cases l <;> cases h

/-- Values are taken one after another. -/
theorem Field.takes_append_iff {us : List Value} :
    field.Takes slot (us ++ vs) slot' ↔
      ∃ mid, field.Takes slot us mid ∧ field.Takes mid vs slot' := by
  constructor
  · intro h
    cases us with
    | nil => exact ⟨slot, .nothing slot, h⟩
    | cons u us =>
      -- there is one value at most, so none is left
      cases us <;> cases vs <;> cases h
      exact ⟨_, .value ‹_›, .nothing _⟩
  · rintro ⟨mid, hfirst, hrest⟩
    cases hfirst with
    | nothing => exact hrest
    | value h =>
      cases hrest
      exact .value h

end Slots

namespace Fields

def valuesOf (name : String) (vs : List (String × Value)) : List Value :=
  vs.filterMap fun m => if m.1 = name then some m.2 else none

/-- The values of fields, where `pick` says what there is for each name. -/
def Holds (pick : String → List Value) : {types : List Type} → Fields types → Row types → Prop
  | _, .nil, _ => True
  | _, .cons field fields, row => field.Holds (pick field.name) row.1 ∧ fields.Holds pick row.2

section Members

variable {α : Type} {types : List Type} {field : Field α} {fields : Fields types}
  {pick pick' : String → List Value} {row : Row types}

theorem Holds.congr (h : ∀ name ∈ fields.names, pick name = pick' name) :
    fields.Holds pick row ↔ fields.Holds pick' row := by
  induction fields with
  | nil => exact Iff.rfl
  | cons field fields ih =>
    rw [Holds, Holds, h field.name List.mem_cons_self,
      ih fun name hname => h name (List.mem_cons_of_mem _ hname)]

theorem valuesOf_cons (name : String) (m : String × Value) (vs : List (String × Value)) :
    valuesOf name (m :: vs) = valuesOf name [m] ++ valuesOf name vs :=
  List.filterMap_append (l := [m])

theorem valuesOf_cons_of_eq {name : String} {m : String × Value} {vs : List (String × Value)}
    (h : m.1 = name) :
    valuesOf name (m :: vs) = m.2 :: valuesOf name vs := List.filterMap_cons_some (if_pos h)

theorem valuesOf_cons_of_ne {name : String} {m : String × Value} {vs : List (String × Value)}
    (h : m.1 ≠ name) :
    valuesOf name (m :: vs) = valuesOf name vs := List.filterMap_cons_none (if_neg h)

theorem fill_cons_iff (hname : field.name ∉ fields.names) (m : String × Value)
    (slot slot' : Option α) (slots slots' : Slots types) :
    (Fields.cons field fields).fill (slot, slots) m.1 m.2 = .ok (slot', slots') ↔
      field.Takes slot (valuesOf field.name [m]) slot' ∧
        fields.fill slots m.1 m.2 = .ok slots' := by
  rw [fill]
  by_cases hm : field.name = m.1
  · rw [valuesOf_cons_of_eq hm.symm, if_pos hm, fill_of_not_mem (hm ▸ hname)]
    cases slot with
    | some a =>
      constructor <;> intro h
      · cases h
      · cases h.1
    | none =>
      constructor
      · intro h
        obtain ⟨a, ha, hslots⟩ := map_eq_ok_iff.mp h
        cases hslots
        exact ⟨.value ha, rfl⟩
      · rintro ⟨⟨h⟩, hslots⟩
        cases hslots
        exact map_eq_ok_iff.mpr ⟨_, ‹_›, rfl⟩
  · rw [valuesOf_cons_of_ne (Ne.symm hm), if_neg hm, map_eq_ok_iff]
    constructor
    · rintro ⟨next, hnext, heq⟩
      cases heq
      exact ⟨.nothing slot, hnext⟩
    · rintro ⟨h, hslots⟩
      cases h
      exact ⟨slots', hslots, rfl⟩

/-- The members are taken into the slot of the first field and, all of them, into the other
slots. -/
theorem foldlM_fill_cons (hname : field.name ∉ fields.names) (vs : List (String × Value))
    (slot : Option α) {slot' : Option α} (slots : Slots types) {slots' : Slots types} :
    vs.foldlM (fun slots m => (Fields.cons field fields).fill slots m.1 m.2) (slot, slots) =
      .ok (slot', slots') ↔
      field.Takes slot (valuesOf field.name vs) slot' ∧
        vs.foldlM (fun slots m => fields.fill slots m.1 m.2) slots = .ok slots' := by
  induction vs generalizing slot slots with
  | nil =>
    constructor
    · intro h
      cases h
      exact ⟨.nothing _, rfl⟩
    · rintro ⟨h, hslots⟩
      cases h
      cases hslots
      rfl
  | cons m vs ih =>
    rw [List.foldlM_cons, List.foldlM_cons, bind_eq_ok_iff, bind_eq_ok_iff, valuesOf_cons,
      Field.takes_append_iff]
    constructor
    · rintro ⟨⟨slot, slots⟩, hm, hvs⟩
      obtain ⟨hslot, hslots⟩ := (fill_cons_iff hname m _ _ _ _).mp hm
      obtain ⟨hslot', hslots'⟩ := (ih slot slots).mp hvs
      exact ⟨⟨slot, hslot, hslot'⟩, slots, hslots, hslots'⟩
    · rintro ⟨⟨slot, hslot, hslot'⟩, slots, hslots, hslots'⟩
      exact ⟨(slot, slots), (fill_cons_iff hname m _ _ _ _).mpr ⟨hslot, hslots⟩,
        (ih slot slots).mpr ⟨hslot', hslots'⟩⟩

theorem complete_cons_iff (slot : Option α) (slots : Slots types) (r : Row (α :: types)) :
    (Fields.cons field fields).complete (slot, slots) = .ok r ↔
      slot.or field.absent = some r.1 ∧ fields.complete slots = .ok r.2 := by
  rw [complete]
  cases hslot : slot.or field.absent with
  | none => simp
  | some a =>
    cases fields.complete slots with
    | error e => simp [Except.map]
    | ok row =>
      obtain ⟨b, row'⟩ := r
      simp [Except.map]

theorem foldlM_fill_nil (vs : List (String × Value)) :
    vs.foldlM (fun slots m => Fields.nil.fill slots m.1 m.2) () = .ok () := by
  induction vs with
  | nil => rfl
  | cons m vs ih => exact ih

/-- The slots that the members of an object are taken into come to the row that the members hold. -/
theorem exists_foldlM_fill_iff (hnames : fields.names.Nodup) (vs : List (String × Value))
    (row : Row types) :
    (∃ slots, vs.foldlM (fun slots m => fields.fill slots m.1 m.2) fields.blank = .ok slots ∧
      fields.complete slots = .ok row) ↔ fields.Holds (valuesOf · vs) row := by
  induction fields with
  | nil => exact ⟨fun _ => trivial, fun _ => ⟨(), foldlM_fill_nil vs, rfl⟩⟩
  | cons field fields ih =>
    obtain ⟨hname, hnames⟩ := List.nodup_cons.mp hnames
    constructor
    · rintro ⟨⟨slot, slots⟩, hfold, hcomplete⟩
      obtain ⟨htakes, hslots⟩ := (foldlM_fill_cons hname vs none fields.blank).mp hfold
      obtain ⟨hslot, hrow⟩ := (complete_cons_iff slot slots row).mp hcomplete
      exact ⟨Field.holds_iff.mpr ⟨slot, htakes, hslot⟩, (ih hnames row.2).mp ⟨slots, hslots, hrow⟩⟩
    · rintro ⟨hfield, hfields⟩
      obtain ⟨slot, htakes, hslot⟩ := Field.holds_iff.mp hfield
      obtain ⟨slots, hslots, hrow⟩ := (ih hnames row.2).mpr hfields
      exact ⟨(slot, slots), (foldlM_fill_cons hname vs none fields.blank).mpr ⟨htakes, hslots⟩,
        (complete_cons_iff slot slots row).mpr ⟨hslot, hrow⟩⟩

/-- **Objects.**  The row that the members of an object come to is the one that they hold. -/
theorem foldlM_fill_iff (hnames : fields.names.Nodup) (vs : List (String × Value))
    (row : Row types) :
    (vs.foldlM (fun slots m => fields.fill slots m.1 m.2) fields.blank >>= fields.complete) =
      .ok row ↔
      fields.Holds (valuesOf · vs) row := by
  rw [bind_eq_ok_iff, exists_foldlM_fill_iff hnames]

end Members

/-! ## Lists in the place of objects -/

/-- What a list has for the fields with some names, in this order. -/
def itemOf (names : List String) (vs : List Value) (name : String) : List Value :=
  vs[names.idxOf name]?.toList

section Items

variable {α : Type} {types : List Type} {field : Field α} {fields : Fields types}
  {names : List String} {name : String} {v : Value} {vs : List Value}

theorem itemOf_head : itemOf (name :: names) (v :: vs) name = [v] := by
  rw [itemOf, List.idxOf_cons_self]
  rfl

theorem itemOf_tail {other : String} (h : other ≠ name) :
    itemOf (other :: names) (v :: vs) name = itemOf names vs name := by
  rw [itemOf, List.idxOf_cons_ne _ h]
  rfl

theorem ofItems_cons_iff (record : String) (total done : Nat) (v : Value) (vs : List Value)
    (row : Row (α :: types)) :
    (Fields.cons field fields).ofItems record total done (v :: vs) = .ok row ↔
      field.codec.ofValue v = .ok row.1 ∧
        fields.ofItems record total (done + 1) vs = .ok row.2 := by
  obtain ⟨a, row⟩ := row
  rw [ofItems]
  cases field.codec.ofValue v with
  | error e => simp [bind, Except.bind]
  | ok b => cases fields.ofItems record total (done + 1) vs <;> simp [bind, Except.bind]

theorem ofItems_end_iff (record : String) (total done : Nat) (row : Row (α :: types)) :
    (Fields.cons field fields).ofItems record total done [] = .ok row ↔
      field.absent = some row.1 ∧ fields.ofItems record total (done + 1) [] = .ok row.2 := by
  obtain ⟨a, row⟩ := row
  rw [ofItems]
  cases field.absent with
  | none => simp
  | some b => cases fields.ofItems record total (done + 1) [] <;> simp [Except.map]

/-- **Lists.**  The row that the items of a list come to is the one that they hold, if they are not
too many. -/
theorem ofItems_iff (record : String) (total : Nat) (hnames : fields.names.Nodup) (done : Nat)
    (vs : List Value) (row : Row types) :
    fields.ofItems record total done vs = .ok row ↔
      vs.length ≤ fields.names.length ∧ fields.Holds (itemOf fields.names vs) row := by
  induction fields generalizing done vs with
  | nil =>
    cases vs with
    | nil => exact ⟨fun _ => ⟨Nat.le_refl 0, trivial⟩, fun _ => rfl⟩
    | cons v vs => exact ⟨fun h => (by cases h), fun h => absurd h.1 (Nat.not_succ_le_zero _)⟩
  | cons field fields ih =>
    obtain ⟨hname, hnames⟩ := List.nodup_cons.mp hnames
    cases vs with
    | nil =>
      rw [ofItems_end_iff, ih hnames]
      constructor
      · rintro ⟨h, -, hrest⟩
        exact ⟨Nat.zero_le _, .absent h, hrest⟩
      · rintro ⟨-, ⟨h⟩, hrest⟩
        exact ⟨h, Nat.zero_le _, hrest⟩
    | cons v vs =>
      have hcongr : fields.Holds (itemOf (field.name :: fields.names) (v :: vs)) row.2 ↔
          fields.Holds (itemOf fields.names vs) row.2 :=
        Holds.congr fun name hmem => itemOf_tail fun heq => hname (heq ▸ hmem)
      rw [ofItems_cons_iff, ih hnames, names, Holds, itemOf_head, hcongr]
      constructor
      · rintro ⟨h, hlen, hrest⟩
        exact ⟨Nat.succ_le_succ hlen, .value h, hrest⟩
      · rintro ⟨hlen, ⟨h⟩, hrest⟩
        exact ⟨‹_›, Nat.le_of_succ_le_succ hlen, hrest⟩

end Items

/-! ## A field in its place -/

/-- A field is the first one of its name, and `set` puts a value of it into a row. -/
inductive At {α : Type} (field : Field α) :
    {types : List Type} → Fields types → (Row types → α → Row types) → Prop
  | head {types : List Type} {fields : Fields types} : At field (.cons field fields) fun row a =>
      (a, row.2)
  | tail {β : Type} {types : List Type} {other : Field β} {fields : Fields types}
    {set : Row types → α → Row types} (hne : other.name ≠ field.name) (h : At field fields set) :
    At field (.cons other fields) fun row a => (row.1, set row.2 a)

section Places

variable {α : Type} {types : List Type} {field : Field α} {fields : Fields types}
  {set : Row types → α → Row types}
  {pick pick' : String → List Value} {row : Row types} {v v' : Value} {m : Mismatch}

theorem exists_at {name : String} (h : name ∈ fields.names) :
    ∃ (α : Type) (field : Field α) (set : Row types → α → Row types), At field fields set ∧
      field.name = name := by
  induction fields with
  | nil => cases h
  | cons other fields ih =>
    by_cases hname : other.name = name
    · exact ⟨_, other, _, .head, hname⟩
    · obtain ⟨α, field, set, hat, rfl⟩ :=
        ih ((List.mem_cons.mp h).resolve_left fun heq => hname heq.symm)
      exact ⟨α, field, _, .tail hname hat, rfl⟩

/-- A row has a value for each field. -/
theorem At.holds (h : At field fields set) (hholds : fields.Holds pick row) :
    ∃ a, field.Holds (pick field.name) a ∧ set row a = row := by
  induction h with
  | head => exact ⟨row.1, hholds.1, rfl⟩
  | tail _ _ ih =>
    obtain ⟨a, ha, hset⟩ := ih hholds.2
    exact ⟨a, ha, congrArg (row.1, ·) hset⟩

/-- Another value for one field is another value in the row. -/
theorem At.holds_set (h : At field fields set) (hnames : fields.names.Nodup)
    (hholds : fields.Holds pick row)
    (hother : ∀ name ∈ fields.names, name ≠ field.name → pick name = pick' name) {a : α}
    (ha : field.Holds (pick' field.name) a) : fields.Holds pick' (set row a) := by
  induction h with
  | head =>
    obtain ⟨hname, -⟩ := List.nodup_cons.mp hnames
    refine ⟨ha, (Holds.congr fun name hmem => ?_).mp hholds.2⟩
    exact hother name (List.mem_cons_of_mem _ hmem) fun heq => hname (heq ▸ hmem)
  | tail hne _ ih =>
    obtain ⟨-, hnames⟩ := List.nodup_cons.mp hnames
    refine ⟨hother _ List.mem_cons_self hne ▸ hholds.1, ih hnames hholds.2 fun name hmem => ?_⟩
    exact hother name (List.mem_cons_of_mem _ hmem)

/-- A value that a field does not take is not taken in the place of one that was. -/
theorem At.fill_error (h : At field fields set) {slots slots' : Slots types}
    (hv : fields.fill slots field.name v = .ok slots') (hv' : field.codec.ofValue v' = .error m) :
    fields.fill slots field.name v' = .error m := by
  induction h with
  | head =>
    obtain ⟨slot, slots⟩ := slots
    rw [fill, if_pos rfl] at hv ⊢
    cases hslot : slot.isSome with
    | true =>
      rw [hslot, if_pos rfl] at hv
      cases hv
    | false =>
      rw [if_neg Bool.false_ne_true, hv']
      rfl
  | @tail _ _ _ fields _ hne _ ih =>
    obtain ⟨slot, slots⟩ := slots
    rw [fill, if_neg hne] at hv ⊢
    cases hfill : fields.fill slots field.name v with
    | error e =>
      rw [hfill] at hv
      cases hv
    | ok next =>
      rw [ih hfill]
      rfl

/-- A value that a field does not take is not taken in the place of an item that was. -/
theorem At.ofItems_error (h : At field fields set) {record : String} {total done : Nat}
    {l r : List Value} (hl : l.length = fields.names.idxOf field.name)
    (hv : fields.ofItems record total done (l ++ v :: r) = .ok row)
    (hv' : field.codec.ofValue v' = .error m) :
    fields.ofItems record total done (l ++ v' :: r) = .error m := by
  induction h generalizing l done with
  | head =>
    rw [names, List.idxOf_cons_self] at hl
    obtain rfl := List.length_eq_zero_iff.mp hl
    rw [List.nil_append, ofItems, hv']
    rfl
  | tail hne _ ih =>
    rw [names, List.idxOf_cons_ne _ hne] at hl
    obtain ⟨u, l, rfl⟩ := List.exists_cons_of_length_eq_add_one hl
    obtain ⟨hu, hrest⟩ := (ofItems_cons_iff record total done u (l ++ v :: r) row).mp hv
    rw [List.cons_append, ofItems, hu]
    simp only [bind, Except.bind, ih (Nat.succ.inj hl) hrest]

end Places
end Fields

/-! ## Trees -/

/-- What a tree has for each field of a record. -/
def Tree.held (names : List String) : Tree → String → List Value
  | .object members, name =>
      members.filterMap fun m => if m.1.text? = some name then some m.2.value else none
  | .list items, name => Fields.itemOf names (itemValues items) name
  | _, _ => []

/-- A tree is an object whose keys are texts, or a list with no more items than there are fields. -/
def Tree.Fits (names : List String) : Tree → Prop
  | .object members => ∀ m ∈ members, m.1.text?.isSome = true
  | .list items => items.length ≤ names.length
  | _ => False

section Held

variable {names : List String} {name : String} {k : Quote} {T : Tree} {l r : List (Quote × Tree)}

theorem held_object_append :
    (Tree.object (l ++ r)).held names name =
      (Tree.object l).held names name ++ (Tree.object r).held names name :=
  List.filterMap_append

theorem held_object_cons_of_eq (h : k.text? = some name) :
    (Tree.object ((k, T) :: r)).held names name = T.value :: (Tree.object r).held names name := by
  simp [Tree.held, h]

theorem held_object_cons_of_ne (h : k.text? ≠ some name) :
    (Tree.object ((k, T) :: r)).held names name = (Tree.object r).held names name := by
  simp [Tree.held, h]

end Held

section Records

variable {members : List (Quote × Tree)} {vs : List (String × Value)}

theorem length_itemValues (items : List Tree) : (itemValues items).length = items.length := by
  induction items with
  | nil => rfl
  | cons T items ih => rw [itemValues, List.length_cons, List.length_cons, ih]

theorem exists_memberValues? (h : ∀ m ∈ members, m.1.text?.isSome = true) :
    ∃ vs, memberValues? members = some vs := by
  induction members with
  | nil => exact ⟨[], rfl⟩
  | cons m members ih =>
    obtain ⟨key, hkey⟩ := Option.isSome_iff_exists.mp (h m List.mem_cons_self)
    obtain ⟨vs, hvs⟩ := ih fun m' hm => h m' (List.mem_cons_of_mem _ hm)
    exact ⟨_, by rw [memberValues?, hkey, hvs]⟩

/-- The values of the members with one name are the same before and after the keys have been
read. -/
theorem valuesOf_memberValues? (h : memberValues? members = some vs) (names : List String)
    (name : String) :
    (Tree.object members).Fits names ∧
      Fields.valuesOf name vs = (Tree.object members).held names name := by
  induction members generalizing vs with
  | nil =>
    cases h
    exact ⟨fun m hm => absurd hm List.not_mem_nil, rfl⟩
  | cons m members ih =>
    rw [memberValues?] at h
    cases hkey : m.1.text? with
    | none => simp only [hkey] at h; cases h
    | some key =>
      cases hmore : memberValues? members with
      | none => simp only [hkey, hmore] at h; cases h
      | some more =>
        simp only [hkey, hmore] at h
        cases h
        obtain ⟨hfits, hheld⟩ := ih hmore
        refine ⟨List.forall_mem_cons.mpr ⟨by rw [hkey]; rfl, hfits⟩, ?_⟩
        by_cases hname : key = name
        · rw [Fields.valuesOf_cons_of_eq hname, hheld, held_object_cons_of_eq (hname ▸ hkey)]
        · rw [Fields.valuesOf_cons_of_ne hname, hheld, held_object_cons_of_ne]
          rw [hkey]
          exact fun heq => hname (Option.some.inj heq)

/-- **Records.**  A record is taken from what a tree holds for its fields, and from nothing else. -/
theorem ofValue_record_iff {α : Type} {r : Record α} (hnames : r.fields.names.Nodup) (T : Tree)
    (a : α) :
    (Codec.record r).ofValue T.value = .ok a ↔
      T.Fits r.fields.names ∧ ∃ row, r.fields.Holds (T.held r.fields.names) row ∧
        r.build row = a := by
  have hplain : ∀ {v : Value},
      (Codec.record r).ofValue v = .error (.wrongType v.found (.record r.name)) →
      ∀ {p : Prop}, ((Codec.record r).ofValue v = .ok a ↔ False ∧ p) := by
    intro v hv p
    rw [hv]
    exact ⟨fun h => (by cases h), fun h => absurd h.1 id⟩
  cases T with
  | null => exact hplain rfl
  | boolean b => exact hplain rfl
  | number n =>
    rw [Tree.value]
    cases n.literal.value <;> exact hplain rfl
  | string q =>
    rw [Tree.value]
    cases q.text? <;> exact hplain rfl
  | list items =>
    have hvalue : (Codec.record r).ofValue (Tree.list items).value =
        (r.fields.ofItems r.name r.fields.count 0 (itemValues items)).map r.build := rfl
    rw [hvalue, map_eq_ok_iff]
    simp only [Fields.ofItems_iff r.name r.fields.count hnames, length_itemValues, and_assoc]
    exact exists_and_left
  | object members =>
    cases hvs : memberValues? members with
    | none =>
      rw [Tree.value, hvs]
      refine ⟨fun h => (by cases h), fun h => ?_⟩
      obtain ⟨hfits, -⟩ := h
      obtain ⟨vs, h⟩ := exists_memberValues? hfits
      rw [h] at hvs
      cases hvs
    | some vs =>
      have hheld := valuesOf_memberValues? hvs r.fields.names
      rw [Tree.value, hvs]
      simp only [ofValue_object, map_eq_ok_iff]
      simp only [Fields.foldlM_fill_iff hnames, (hheld "").1, true_and,
        Fields.Holds.congr fun name _ => (hheld name).2]

end Records
end TaskWatch.Json
