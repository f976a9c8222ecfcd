import TaskWatch.Proofs.Json.AgreeNested
import TaskWatch.Proofs.Json.Holdings

/-!
# Trees that are taken as one value

The members of an object may stand in another order, there may be more of them, some may be left
out, and some values may be written in other words.  A record that is taken from it stays the same.
All this is told from what a tree holds.

* `Swap`: another value for one field.  `Swap.record`, `Record.Has.swap`, `Swap.record_error`: what
  comes of it.
* `ofName_other`, `ofName_unknown`: names that are not known.
* `RecordEdit`, `InList`: the changes that are not seen.
* `Codec.Keeps`: what is said of such a change.  `keeps_record`, `Codec.Keeps.list`: by induction on
  the codec.
-/

namespace TaskWatch.Json

/-! ## Another value for one field -/

/-- The value of a member with some name, or the item of a list that has its place, is another
one. -/
inductive Swap (names : List String) (name : String) (V V' : Tree) : Tree → Tree → Prop
  | member {k : Quote} {l r : List (Quote × Tree)} (hk : k.text? = some name) :
    Swap names name V V' (.object (l ++ (k, V) :: r)) (.object (l ++ (k, V') :: r))
  | item {l r : List Tree} (hl : l.length = names.idxOf name) :
    Swap names name V V' (.list (l ++ V :: r)) (.list (l ++ V' :: r))

section Swaps

variable {names : List String} {name : String} {V V' T T' : Tree}

theorem itemValues_append (l r : List Tree) :
    itemValues (l ++ r) = itemValues l ++ itemValues r := by
  induction l with
  | nil => rfl
  | cons T l ih => rw [List.cons_append, itemValues, itemValues, ih, List.cons_append]

theorem Swap.fits (h : Swap names name V V' T T') (hT : T.Fits names) : T'.Fits names := by
  cases h with
  | member hk =>
    obtain ⟨hl, hr⟩ := List.forall_mem_append.mp hT
    exact List.forall_mem_append.mpr ⟨hl, List.forall_mem_cons.mpr (List.forall_mem_cons.mp hr)⟩
  | item hl =>
    rw [Tree.Fits, List.length_append, List.length_cons] at hT ⊢
    exact hT

/-- There is as much for the field as before. -/
theorem Swap.held_self (h : Swap names name V V' T T') :
    ∃ before after, T.held names name = before ++ V.value :: after ∧
      T'.held names name = before ++ V'.value :: after := by
  cases h with
  | member hk =>
    exact ⟨_, _, by rw [held_object_append, held_object_cons_of_eq hk],
      by rw [held_object_append, held_object_cons_of_eq hk]⟩
  | item hl =>
    refine ⟨[], [], ?_, ?_⟩ <;>
    · rw [Tree.held, Fields.itemOf, itemValues_append, itemValues, ← hl, ← length_itemValues,
        List.getElem?_append_right (Nat.le_refl _), Nat.sub_self]
      rfl

/-- There is the same for other fields. -/
theorem Swap.held_of_ne (h : Swap names name V V' T T') {other : String} (hmem : other ∈ names)
    (hne : other ≠ name) :
    T.held names other = T'.held names other := by
  cases h with
  | @member k l r hk =>
    have hother : k.text? ≠ some other := fun heq => hne (Option.some.inj (heq.symm.trans hk))
    simp only [held_object_append, held_object_cons_of_ne hother]
  | @item l r hl =>
    have hidx : (itemValues l).length ≠ names.idxOf other := by
      rw [length_itemValues, hl]
      exact fun heq => hne ((List.idxOf_inj hmem).mp heq.symm)
    have hset : itemValues (l ++ V' :: r) =
        (itemValues (l ++ V :: r)).set (itemValues l).length V'.value := by
      simp [itemValues_append, itemValues]
    rw [Tree.held, Tree.held, Fields.itemOf, Fields.itemOf, hset, List.getElem?_set_ne hidx]

end Swaps

/-- The keys are texts whatever one of the values is. -/
theorem memberValues?_mid {l r : List (Quote × Tree)} {k : Quote} {key : String} {V : Tree}
    {vs : List (String × Value)} (hk : k.text? = some key)
    (h : memberValues? (l ++ (k, V) :: r) = some vs) :
    ∃ before after, vs = before ++ (key, V.value) :: after ∧
      ∀ V' : Tree, memberValues? (l ++ (k, V') :: r) =
        some (before ++ (key, V'.value) :: after) := by
  induction l generalizing vs with
  | nil =>
    rw [List.nil_append, memberValues?, hk] at h
    cases hr : memberValues? r with
    | none =>
      rw [hr] at h
      cases h
    | some after =>
      rw [hr] at h
      cases h
      exact ⟨[], after, rfl, fun V' => by rw [List.nil_append, memberValues?, hk, hr]; rfl⟩
  | cons m l ih =>
    rw [List.cons_append, memberValues?] at h
    cases hm : m.1.text? with
    | none => simp [hm] at h
    | some first =>
      cases hl : memberValues? (l ++ (k, V) :: r) with
      | none => simp [hm, hl] at h
      | some more =>
        obtain ⟨before, after, rfl, hswap⟩ := ih hl
        simp only [hm, hl, Option.some.injEq] at h
        refine ⟨(first, m.2.value) :: before, after, h.symm, fun V' => ?_⟩
        rw [List.cons_append, memberValues?, hm, hswap V']
        rfl

section Records

variable {α β : Type} {r : Record α} {field : Field β} {set : Row r.types → β → Row r.types}
  {V V' T T' : Tree} {a : α}

/-- **Another value.**  A record with another value for one field has another value there, and the
same ones elsewhere. -/
theorem Swap.record (hat : r.fields.At field set) (hnames : r.fields.names.Nodup)
    (hs : Swap r.fields.names field.name V V' T T') (h : (Codec.record r).ofValue T.value = .ok a) :
    ∃ row b, r.build row = a ∧ set row b = row ∧ field.codec.ofValue V.value = .ok b ∧
      ∀ c, field.codec.ofValue V'.value = .ok c →
        (Codec.record r).ofValue T'.value = .ok (r.build (set row c)) := by
  obtain ⟨hfits, row, hholds, hrow⟩ := (ofValue_record_iff hnames T a).mp h
  obtain ⟨b, hb, hset⟩ := hat.holds hholds
  obtain ⟨before, after, hheld, hheld'⟩ := hs.held_self
  obtain ⟨rfl, rfl, hV⟩ := (hheld ▸ hb).of_mid
  refine ⟨row, b, hrow, hset, hV,
    fun c hc => (ofValue_record_iff hnames T' _).mpr ⟨hs.fits hfits, _, ?_, rfl⟩⟩
  exact hat.holds_set hnames hholds (fun _ => hs.held_of_ne) (hheld' ▸ .value hc)

/-- A record has a field, and `put` replaces its value. -/
def Record.Has (r : Record α) (field : Field β) (put : α → β → α) : Prop :=
  ∃ set, r.fields.At field set ∧ ∀ row b, r.build (set row b) = put (r.build row) b

theorem Record.Has.swap {put : α → β → α} (hfield : r.Has field put) (hnames : r.fields.names.Nodup)
    (hs : Swap r.fields.names field.name V V' T T') (h : (Codec.record r).ofValue T.value = .ok a) :
    ∃ b, put a b = a ∧ field.codec.ofValue V.value = .ok b ∧
      ∀ c, field.codec.ofValue V'.value = .ok c →
        (Codec.record r).ofValue T'.value = .ok (put a c) := by
  obtain ⟨set, hat, hput⟩ := hfield
  obtain ⟨row, b, rfl, hset, hb, hnext⟩ := Swap.record hat hnames hs h
  refine ⟨b, ?_, hb, fun c hc => ?_⟩
  · rw [← hput, hset]
  · rw [← hput]
    exact hnext c hc

/-- A value that a field does not take is not taken in the place of one that was. -/
theorem Swap.record_error (hat : r.fields.At field set)
    (hs : Swap r.fields.names field.name V V' T T') (h : (Codec.record r).ofValue T.value = .ok a)
    {m : Mismatch} (hm : field.codec.ofValue V'.value = .error m) :
    (Codec.record r).ofValue T'.value = .error m := by
  cases hs with
  | @member k l more hk =>
    cases hvs : memberValues? (l ++ (k, V) :: more) with
    | none =>
      rw [Tree.value, hvs] at h
      cases h
    | some vs =>
      obtain ⟨before, after, rfl, hswap⟩ := memberValues?_mid hk hvs
      rw [Tree.value, hvs] at h
      obtain ⟨row, hrow, -⟩ := map_eq_ok_iff.mp ((ofValue_object r _).symm.trans h)
      obtain ⟨slots, hfold, -⟩ := bind_eq_ok_iff.mp hrow
      rw [List.foldlM_append] at hfold
      obtain ⟨mid, hbefore, hrest⟩ := bind_eq_ok_iff.mp hfold
      rw [List.foldlM_cons] at hrest
      obtain ⟨next, hfill, -⟩ := bind_eq_ok_iff.mp hrest
      rw [Tree.value, hswap V']
      simp only [ofValue_object, List.foldlM_append, hbefore, List.foldlM_cons, bind, Except.bind,
        hat.fill_error hfill hm]
      rfl
  | @item l more hl =>
    obtain ⟨row, hrow, -⟩ := map_eq_ok_iff.mp h
    rw [itemValues_append, itemValues] at hrow
    have herror := hat.ofItems_error (by rw [length_itemValues, hl]) hrow hm
    change (r.fields.ofItems r.name r.fields.count 0 (itemValues (l ++ V' :: more))).map r.build = _
    rw [itemValues_append, itemValues, herror]
    rfl

end Records

/-! ## Names that are not known -/

section Names

variable {α : Type} {c : Choice α} {q : Quote} {name : String}

theorem ofValue_quote [BEq α] (hq : q.text? = some name) :
    (Codec.choice c).ofValue (Tree.string q).value = c.ofName name := by
  rw [Tree.value, hq]
  rfl

/-- A name that no other value has stands for what stands for all others. -/
theorem ofName_other {a : α} {known : List String} (hother : c.other = some a)
    (hknown : ∀ entry ∈ c.names, entry.1 = a ∨ entry.2 ∈ known) (h : name ∉ known) :
    c.ofName name = .ok a := by
  rw [Choice.ofName]
  cases hfind : c.names.find? (·.2 == name) with
  | none => simp only [hother]
  | some entry =>
    have hname : entry.2 = name := by simpa using List.find?_some hfind
    have hentry : entry.1 = a :=
      (hknown entry (List.mem_of_find?_eq_some hfind)).resolve_right fun hmem => h (hname ▸ hmem)
    simp only [hentry]

theorem ofName_unknown (hother : c.other = none) (h : name ∉ c.names.map (·.2)) :
    c.ofName name = .error (.unknownVariant name (c.names.map (·.2))) := by
  have hfind : c.names.find? (·.2 == name) = none :=
    List.find?_eq_none.mpr fun entry hentry heq =>
      h (List.mem_map.mpr ⟨entry, hentry, eq_of_beq heq⟩)
  rw [Choice.ofName, hfind, hother]

end Names

/-! ## Changes that are not seen -/

/-- A text of a tree is read as a value. -/
def Codec.Gives {α : Type} (c : Codec α) (T : Tree) (a : α) : Prop :=
  ∃ s, T.Text s ∧ c.decode s = .ok a

/-- A change of an object or a list that stands for a record with some names of fields.  `defaults`
says which members are as good as none, and `inner` what may change within the values of the
fields. -/
inductive RecordEdit (names : List String) (defaults : String → Tree → Prop)
    (inner : String → Tree → Tree → Prop) : Tree → Tree → Prop
  /-- The members stand in another order. -/
  | permuted {members members' : List (Quote × Tree)} (h : members.Perm members') :
    RecordEdit names defaults inner (.object members) (.object members')
  /-- There is a member more, of no field. -/
  | extended {l m : List (Quote × Tree)} {k : Quote} {name : String} (hk : k.text? = some name)
    (hname : name ∉ names) (T : Tree) :
    RecordEdit names defaults inner (.object (l ++ m)) (.object (l ++ (k, T) :: m))
  /-- A member that is as good as none is left out. -/
  | shortened {l m : List (Quote × Tree)} {k : Quote} {name : String} {T : Tree}
    (hk : k.text? = some name) (h : defaults name T) :
    RecordEdit names defaults inner (.object (l ++ (k, T) :: m)) (.object (l ++ m))
  /-- What stands for one of the fields is changed. -/
  | within {name : String} {V V' T T' : Tree} (hname : name ∈ names) (h : inner name V V')
    (hs : Swap names name V V' T T') : RecordEdit names defaults inner T T'

/-- One item of a list is changed. -/
inductive InList (edit : Tree → Tree → Prop) : Tree → Tree → Prop
  | item {l r : List Tree} {T T' : Tree} (h : edit T T') :
    InList edit (.list (l ++ T :: r)) (.list (l ++ T' :: r))

/-- A value that is taken from a tree is taken from the changed one. -/
def Codec.Keeps {α : Type} (c : Codec α) (edit : Tree → Tree → Prop) : Prop :=
  ∀ ⦃T T' : Tree⦄ ⦃a : α⦄, edit T T' → c.ofValue T.value = .ok a → c.ofValue T'.value = .ok a

/-- What stands for a field is read as the value that it has without any. -/
def Fields.Default {types : List Type} (fields : Fields types) (name : String) (T : Tree) : Prop :=
  ∃ (β : Type) (field : Field β) (set : Row types → β → Row types) (b : β),
    fields.At field set ∧ field.name = name ∧ field.absent = some b ∧ field.codec.Gives T b

/-- Fields whose values are kept when what stands for them is changed. -/
def Fields.Keep (inner : String → Tree → Tree → Prop) : {types : List Type} → Fields types → Prop
  | _, .nil => True
  | _, .cons field fields => field.codec.Keeps (inner field.name) ∧ fields.Keep inner

theorem keeps_of_not {α : Type} {c : Codec α} {edit : Tree → Tree → Prop} (h : ∀ T T', ¬edit T T') :
    c.Keeps edit :=
  fun _ _ _ hedit _ => absurd hedit (h _ _)

theorem keeps_nothing {α : Type} {c : Codec α} : c.Keeps fun _ _ => False :=
  keeps_of_not fun _ _ => id

/-! ### Lists -/

section Lists

variable {α : Type} {c : Codec α} {T : Tree} {l r : List Tree} {xs : List α}

theorem ofValue_list_cons_iff {items : List Tree} :
    c.list.ofValue (Tree.list (T :: items)).value = .ok xs ↔
    ∃ a ys, c.ofValue T.value = .ok a ∧ c.list.ofValue (Tree.list items).value = .ok ys ∧
      xs = a :: ys := by
  change (itemValues (T :: items)).mapM c.ofValue = .ok xs ↔
    ∃ a ys, c.ofValue T.value = .ok a ∧ (itemValues items).mapM c.ofValue = .ok ys ∧ xs = a :: ys
  rw [itemValues, List.mapM_cons, bind_eq_ok_iff]
  constructor
  · rintro ⟨a, ha, h⟩
    obtain ⟨ys, hys, heq⟩ := bind_eq_ok_iff.mp h
    exact ⟨a, ys, ha, hys, (Except.ok.inj heq).symm⟩
  · rintro ⟨a, ys, ha, hys, rfl⟩
    exact ⟨a, ha, bind_eq_ok_iff.mpr ⟨ys, hys, rfl⟩⟩

/-- An item of a list can be another one. -/
theorem ofValue_list_mid (h : c.list.ofValue (Tree.list (l ++ T :: r)).value = .ok xs) :
    ∃ before a after, xs = before ++ a :: after ∧ before.length = l.length ∧
      c.ofValue T.value = .ok a ∧
      ∀ T' b, c.ofValue (Tree.value T') = .ok b →
        c.list.ofValue (Tree.list (l ++ T' :: r)).value = .ok (before ++ b :: after) := by
  induction l generalizing xs with
  | nil =>
    obtain ⟨a, after, ha, hafter, rfl⟩ := ofValue_list_cons_iff.mp h
    exact ⟨[], a, after, rfl, rfl, ha,
      fun T' b hb => ofValue_list_cons_iff.mpr ⟨b, after, hb, hafter, rfl⟩⟩
  | cons U l ih =>
    obtain ⟨u, more, hu, hmore, rfl⟩ := ofValue_list_cons_iff.mp h
    obtain ⟨before, a, after, rfl, hlen, ha, hswap⟩ := ih hmore
    exact ⟨u :: before, a, after, rfl, congrArg Nat.succ hlen, ha, fun T' b hb =>
      ofValue_list_cons_iff.mpr ⟨u, _, hu, hswap T' b hb, rfl⟩⟩

theorem Codec.Keeps.list {edit : Tree → Tree → Prop} (hc : c.Keeps edit) :
    c.list.Keeps (InList edit) := by
  rintro _ _ xs ⟨hedit⟩ h
  obtain ⟨before, a, after, rfl, -, ha, hswap⟩ := ofValue_list_mid h
  exact hswap _ a (hc hedit ha)

end Lists

/-! ### Records -/

section Records

variable {α β : Type} {types : List Type} {fields : Fields types} {field : Field β}
  {set : Row types → β → Row types}
  {inner : String → Tree → Tree → Prop} {pick pick' : String → List Value} {row : Row types}
  {name : String} {T : Tree}

theorem Fields.At.agrees (h : fields.At field set) (hfields : fields.Agree) :
    field.codec.Agrees := by
  induction h with
  | head => exact hfields.1
  | tail _ _ ih => exact ih hfields.2

theorem Fields.At.keeps (h : fields.At field set) (hkeep : fields.Keep inner) :
    field.codec.Keeps (inner field.name) := by
  induction h with
  | head => exact hkeep.1
  | tail _ _ ih => exact ih hkeep.2

theorem Field.Holds.perm {vs vs' : List Value} {b : β} (h : field.Holds vs b)
    (hperm : vs.Perm vs') :
    field.Holds vs' b := by
  cases h with
  | absent h =>
    obtain rfl := List.nil_perm.mp hperm
    exact .absent h
  | value h =>
    obtain rfl := List.singleton_perm.mp hperm
    exact .value h

theorem Fields.Holds.perm (h : fields.Holds pick row)
    (hperm : ∀ name, (pick name).Perm (pick' name)) :
    fields.Holds pick' row := by
  induction fields with
  | nil => trivial
  | cons field fields ih => exact ⟨h.1.perm (hperm field.name), ih h.2⟩

theorem Codec.Agrees.ofValue_of_gives {c : Codec β} (hc : c.Agrees) {b : β} (h : c.Gives T b) :
    c.ofValue T.value = .ok b := by
  obtain ⟨s, hs, hdecode⟩ := h
  exact ((hc.decode_iff hs).1 b).mp hdecode

/-- **Changes of records.**  They are not seen where those of the fields are not. -/
theorem keeps_record {r : Record α} {names : List String} {defaults : String → Tree → Prop}
    (hr : r.fields.names = names) (hnames : names.Nodup) (hfields : r.fields.Agree)
    (hdefaults : ∀ name T, defaults name T → r.fields.Default name T)
    (hkeep : r.fields.Keep inner) :
    (Codec.record r).Keeps (RecordEdit names defaults inner) := by
  intro T T' a hedit h
  subst hr
  cases hedit with
  | permuted hperm =>
    obtain ⟨hfits, row, hholds, hrow⟩ := (ofValue_record_iff hnames _ a).mp h
    refine (ofValue_record_iff hnames _ a).mpr
      ⟨fun m hm => hfits m (hperm.mem_iff.mpr hm), row, ?_, hrow⟩
    exact hholds.perm fun name => hperm.filterMap _
  | @extended l m k name hk hname V =>
    obtain ⟨hfits, row, hholds, hrow⟩ := (ofValue_record_iff hnames _ a).mp h
    obtain ⟨hbefore, hafter⟩ := List.forall_mem_append.mp hfits
    refine (ofValue_record_iff hnames _ a).mpr
      ⟨?_, row, (Fields.Holds.congr fun other hmem => ?_).mp hholds, hrow⟩
    · exact List.forall_mem_append.mpr ⟨hbefore, List.forall_mem_cons.mpr ⟨by rw [hk]; rfl, hafter⟩⟩
    · have hne : k.text? ≠ some other :=
        fun heq => hname (Option.some.inj (hk.symm.trans heq) ▸ hmem)
      rw [held_object_append, held_object_append, held_object_cons_of_ne hne]
  | @shortened l m k name V hk hdefault =>
    obtain ⟨hfits, row, hholds, hrow⟩ := (ofValue_record_iff hnames _ a).mp h
    obtain ⟨β, field, set, b, hat, rfl, hb, hgives⟩ := hdefaults name V hdefault
    have hvalue := (hat.agrees hfields).ofValue_of_gives hgives
    obtain ⟨c, hc, hset⟩ := hat.holds hholds
    rw [held_object_append, held_object_cons_of_eq hk] at hc
    obtain ⟨hbefore, hafter, hc⟩ := hc.of_mid
    obtain rfl := Except.ok.inj (hvalue.symm.trans hc)
    have hfits' := List.forall_mem_append.mp hfits
    refine (ofValue_record_iff hnames _ a).mpr
      ⟨?_, set row b, ?_, (congrArg r.build hset).trans hrow⟩
    · exact List.forall_mem_append.mpr ⟨hfits'.1, (List.forall_mem_cons.mp hfits'.2).2⟩
    · refine hat.holds_set hnames hholds (fun other _ hne => ?_) ?_
      · have hother : k.text? ≠ some other := fun heq => hne (Option.some.inj (heq.symm.trans hk))
        rw [held_object_append, held_object_append, held_object_cons_of_ne hother]
      · rw [held_object_append, hbefore, hafter]
        exact .absent hb
  | @within name V V' T T' hname hinner hswap =>
    obtain ⟨β, field, set, hat, rfl⟩ := Fields.exists_at hname
    obtain ⟨row, b, hrow, hset, hb, hnext⟩ := Swap.record hat hnames hswap h
    rw [hnext b (hat.keeps hkeep hinner hb), hset, hrow]

end Records
end TaskWatch.Json
