import TaskWatch.Json.Record
import TaskWatch.Proofs.Json.Plain

/-!
# Lists and records read back

The items of a list and the members of an object stand one after another with commas between them,
and are read in a loop.

* `joined`: what is left of such a row.
* `Loops.items`, `readsBack_list`: lists of values that are read back.
* `Fields.Sound`: fields that tell their members apart and leave out only what is put in again.
  `Fields.Within`: fields at the end of others, whose slots stand in the slots of all.
* `Loops.members`, `readsBack_record`: records with such fields.
-/

namespace TaskWatch.Json

/-- The texts of a row that are left: a comma stands before each one but the first of all. -/
def joined : (first : Bool) → List (List Char) → List Char
  | true, texts => commaSeparated texts
  | false, texts => texts.flatMap (',' :: ·)

theorem commaSeparated_cons (text : List Char) (texts : List (List Char)) :
    commaSeparated (text :: texts) = text ++ joined false texts := by
  induction texts generalizing text with
  | nil => simp [commaSeparated, joined]
  | cons next texts ih =>
    rw [commaSeparated, ih next]
    · simp [joined]
    · exact List.cons_ne_nil _ _

def lead (first : Bool) : List Char := if first then [] else [',']

theorem joined_cons (first : Bool) (text : List Char) (texts : List (List Char)) :
    joined first (text :: texts) = lead first ++ (text ++ joined false texts) := by
  cases first with
  | true => exact commaSeparated_cons text texts
  | false => simp [joined, lead]

@[simp] theorem joined_nil (first : Bool) : joined first [] = [] := by
  cases first <;> rfl

theorem parted_joined_append (texts : List (List Char)) {c : Char} (rest : List Char)
    (hc : c = ']' ∨ c = '}') : Parted (joined false texts ++ c :: rest) := by
  cases texts with
  | nil => exact parted_cons (Or.inr hc)
  | cons text texts => exact parted_cons (Or.inl rfl)

/-! ## Lists -/

section Lists

variable {α : Type} {c : Codec α}

theorem nextItem_lead {first : Bool} {d : Char} {cs : List Char} (hblank : isBlank d = false)
    (hd : d ≠ ']') : nextItem first (lead first ++ d :: cs) = .ok (true, d :: cs) := by
  cases first with
  | true => simp [lead, nextItem, skipBlank_cons hblank, hd]
  | false =>
    have hcomma : isBlank ',' = false := rfl
    simp [lead, nextItem, skipBlank_cons hblank, skipBlank_cons hcomma, hd]

/-- An item of a list takes one step. -/
theorem itemStep_lead (xs : List α) {d : Char} (ds : List Char) (hblank : isBlank d = false)
    (hd : d ≠ ']') : itemStep c.read xs (lead xs.isEmpty ++ d :: ds) =
      (c.read (d :: ds)).map fun (a, rest) => (.again (a :: xs), rest) := by
  rw [itemStep, nextItem_lead hblank hd]

theorem Loops.items (hc : c.ReadsBack) (xs items : List α) (rest : List Char) :
    Loops (itemStep c.read) xs (joined xs.isEmpty (items.map c.write) ++ ']' :: rest)
      (xs.reverse ++ items) rest := by
  induction items generalizing xs with
  | nil =>
    refine .done ?_
    rw [List.map_nil, joined_nil, List.nil_append, List.append_nil, itemStep]
    have hnext : nextItem xs.isEmpty (']' :: rest) = .ok (false, ']' :: rest) := by
      simp [nextItem, skipBlank_cons (show isBlank ']' = false from rfl)]
    rw [hnext]
    rfl
  | cons a items ih =>
    obtain ⟨d, ds, h, hblank, hd⟩ := hc.head a
    have hread := hc.read_write a _ (parted_joined_append (items.map c.write) rest (Or.inl rfl))
    have hstep : itemStep c.read xs
        (joined xs.isEmpty ((a :: items).map c.write) ++ ']' :: rest) =
        .ok (.again (a :: xs), joined false (items.map c.write) ++ ']' :: rest) := by
      rw [h, List.cons_append] at hread
      rw [List.map_cons, joined_cons, h, List.append_assoc, List.append_assoc, List.cons_append,
        itemStep_lead xs _ hblank hd, hread]
      rfl
    refine .again hstep ?_ ?_
    · rw [List.map_cons, joined_cons, h]
      simp only [List.length_append, List.length_cons]
      omega
    · simpa using ih (a :: xs)

theorem readsBack_list (hc : c.ReadsBack) : c.list.ReadsBack where
  head items := ⟨'[', _, rfl, rfl, by decide⟩
  read_write items rest _ := by
    have h := (Loops.items hc [] items rest).loop_eq
    show c.list.read ('[' :: commaSeparated (items.map c.write) ++ [']'] ++ rest) =
      .ok (items, rest)
    rw [List.cons_append, List.cons_append, List.append_assoc, List.singleton_append, Codec.list]
    simp only [skipBlank_cons (show isBlank '[' = false from rfl), if_true]
    exact h

end Lists

/-! ## Fields -/

/-- A field that is read back, and left out only when its absence stands for its value. -/
structure Field.Sound {α : Type} (field : Field α) : Prop where
  codec : field.codec.ReadsBack
  omitted : ∀ a, field.omitted a = true → field.absent = some a

theorem Field.sound_required {α : Type} {c : Codec α} (name : String) (hc : c.ReadsBack) :
    (Field.required name c).Sound := ⟨hc, fun _ => nofun⟩

theorem Field.sound_withDefault {α : Type} {c : Codec α} (name : String) (absent : α)
    (hc : c.ReadsBack) : (Field.withDefault name c absent).Sound := ⟨hc, fun _ => nofun⟩

theorem Field.sound_optional {α : Type} {c : Codec α} (name : String) (hc : c.optional.ReadsBack) :
    (Field.optional name c).Sound := by
  refine ⟨hc, fun a ha => ?_⟩
  cases a with
  | none => rfl
  | some a => cases ha

namespace Fields

def names : {types : List Type} → Fields types → List String
  | _, .nil => []
  | _, .cons field fields => field.name :: fields.names

/-- A member of no field is passed over. -/
theorem fill_of_not_mem {types : List Type} {fields : Fields types} {key : String}
    (h : key ∉ fields.names)
    (slots : Slots types) (v : Value) : fields.fill slots key v = .ok slots := by
  induction fields with
  | nil => rfl
  | cons field fields ih =>
    obtain ⟨slot, slots⟩ := slots
    have hne : field.name ≠ key := fun heq => h (heq ▸ List.mem_cons_self)
    have hrest := ih (fun hmem => h (List.mem_cons_of_mem _ hmem)) slots
    rw [fill, if_neg hne, hrest]
    rfl

/-- Fields with different names, each of which is sound. -/
def Sound : {types : List Type} → Fields types → Prop
  | _, .nil => True
  | _, .cons field fields => field.Sound ∧ field.name ∉ fields.names ∧ fields.Sound

/-- The slots after all members that are written have been read. -/
def written : {types : List Type} → Fields types → Row types → Slots types
  | _, .nil, _ => ()
  | _, .cons field fields, (a, row) =>
    (if field.omitted a then none else some a, fields.written row)

theorem complete_written {types : List Type} {fields : Fields types} (hs : fields.Sound)
    (row : Row types) : fields.complete (fields.written row) = .ok row := by
  induction fields with
  | nil => rfl
  | cons field fields ih =>
    obtain ⟨a, row⟩ := row
    obtain ⟨hfield, -, hfields⟩ := hs
    have hslot : (if field.omitted a then none else some a).or field.absent = some a := by
      by_cases ho : field.omitted a = true
      · rw [if_pos ho, Option.none_or, hfield.omitted a ho]
      · rw [if_neg ho, Option.some_or]
    rw [written, complete]
    simp only [hslot, ih hfields]
    rfl

/-- The slots of some fields stand within the slots of others, which read their members into
them. -/
def Within {ts types : List Type} (fs : Fields ts) (fields : Fields types)
    (put : Slots ts → Slots types) : Prop :=
  ∀ slots key cs, key ∈ fs.names → fields.readMember (put slots) key cs =
    (fs.readMember slots key cs).map (Option.map fun r => (put r.1, r.2))

theorem within_self {types : List Type} (fields : Fields types) : fields.Within fields id := by
  intro slots key cs _
  show fields.readMember slots key cs = _
  cases fields.readMember slots key cs with
  | error e => rfl
  | ok r => cases r <;> rfl

section Tail

variable {α : Type} {ts types : List Type} {field : Field α} {fs : Fields ts}
  {fields : Fields types} {put : Slots (α :: ts) → Slots types}

/-- The first of some fields is left behind with its slot. -/
theorem Within.tail (h : (Fields.cons field fs).Within fields put) (hn : field.name ∉ fs.names)
    (slot : Option α) : fs.Within fields fun slots => put (slot, slots) := by
  intro slots key cs hkey
  have hne : field.name ≠ key := fun heq => hn (heq ▸ hkey)
  rw [h (slot, slots) key cs (List.mem_cons_of_mem _ hkey), readMember]
  rw [if_neg hne]
  cases fs.readMember slots key cs with
  | error e => rfl
  | ok r => cases r <;> rfl

/-- What is read as the value of the first field goes into its slot. -/
theorem Within.readMember_colon (h : (Fields.cons field fs).Within fields put) (cs : List Char) :
    fields.readMember (put (none, fs.blank)) field.name (':' :: cs) =
      (field.codec.read cs).map fun (a, rest) => some (put (some a, fs.blank), rest) := by
  have hcolon : expectChar ':' (':' :: cs) = .ok cs := rfl
  rw [h _ _ _ List.mem_cons_self, readMember]
  rw [if_pos rfl]
  simp only [Option.isSome_none, Bool.false_eq_true, if_false, hcolon, bind, Except.bind]
  cases field.codec.read cs <;> rfl

/-- The value of the first field goes into its slot. -/
theorem Within.readMember_head (h : (Fields.cons field fs).Within fields put) (hf : field.Sound)
    (a : α) {rest : List Char} (hp : Parted rest) :
    fields.readMember (put (none, fs.blank)) field.name (':' :: (field.codec.write a ++ rest)) =
      .ok (some (put (some a, fs.blank), rest)) := by
  rw [h.readMember_colon, hf.codec.read_write a rest hp]
  rfl

end Tail

theorem nextKey_lead (first : Bool) (cs : List Char) :
    nextKey first (lead first ++ '\x22' :: cs) = .ok (true, cs) := by
  have hquote : isBlank '\x22' = false := rfl
  have hcomma : isBlank ',' = false := rfl
  cases first with
  | true => simp [lead, nextKey, skipBlank_cons hquote, openKey]
  | false => simp [lead, nextKey, skipBlank_cons hquote, skipBlank_cons hcomma, openKey]

/-- A member with the value of a field takes one step. -/
theorem memberStep_lead {types : List Type} {fields : Fields types} {slots slots' : Slots types}
    {key : String} {cs rest : List Char} (first : Bool)
    (h : fields.readMember slots key cs = .ok (some (slots', rest))) :
    fields.memberStep (first, slots) (lead first ++ (writeText key ++ cs)) =
      .ok (.again (false, slots'), rest) := by
  rw [writeText_append, memberStep]
  simp only [nextKey_lead, bind, Except.bind, if_true, readText_writeText, h]

theorem memberStep_closing {types : List Type} {fields : Fields types} {slots : Slots types}
    {row : Row types} (first : Bool) (h : fields.complete slots = .ok row) (rest : List Char) :
    fields.memberStep (first, slots) ('\x7d' :: rest) = .ok (.done row, rest) := by
  have hnext : nextKey first ('\x7d' :: rest) = .ok (false, rest) := by
    simp [nextKey, skipBlank_cons (show isBlank '\x7d' = false from rfl)]
  rw [memberStep]
  simp only [hnext, bind, Except.bind, Bool.false_eq_true, if_false, h]
  rfl

end Fields

/-- The members of some fields at the end of others are read one after another. -/
theorem Loops.members {ts types : List Type} {fs : Fields ts} {fields : Fields types}
    {put : Slots ts → Slots types} {row : Row ts} {all : Row types} (hs : fs.Sound)
    (h : fs.Within fields put) (hall : fields.complete (put (fs.written row)) = .ok all)
    (first : Bool) (rest : List Char) :
    Loops fields.memberStep (first, put fs.blank) (joined first (fs.members row) ++ '\x7d' :: rest)
      all rest := by
  induction fs generalizing first with
  | nil =>
    rw [Fields.members, joined_nil, List.nil_append]
    exact .done (Fields.memberStep_closing first hall rest)
  | cons field fs ih =>
    obtain ⟨a, row⟩ := row
    obtain ⟨hfield, hname, hfs⟩ := hs
    rw [Fields.written] at hall
    rw [Fields.members]
    by_cases ho : field.omitted a = true
    · rw [if_pos ho] at hall
      simp only [ho, if_true]
      exact ih hfs (h.tail hname none) hall first
    · rw [if_neg ho] at hall
      simp only [ho, if_false, Bool.false_eq_true]
      have hparted := parted_joined_append (fs.members row) rest (Or.inr rfl)
      have hstep := Fields.memberStep_lead first (h.readMember_head hfield a hparted)
      have htext : joined first ((writeText field.name ++ ':' :: field.codec.write a) ::
          fs.members row) ++ '\x7d' :: rest = lead first ++ (writeText field.name ++
          ':' :: (field.codec.write a ++ (joined false (fs.members row) ++ '\x7d' :: rest))) := by
        rw [joined_cons]
        simp
      rw [htext]
      refine .again hstep ?_ (ih hfs (h.tail hname (some a)) hall false)
      simp only [List.length_append, List.length_cons]
      omega

/-- The members of an object are put into their slots, and then the row is completed. -/
theorem ofValue_object {α : Type} (r : Record α) (vs : List (String × Value)) :
    (Codec.record r).ofValue (.object vs) =
      (vs.foldlM (fun slots m => r.fields.fill slots m.1 m.2) r.fields.blank >>=
        r.fields.complete).map r.build := by
  change (vs.foldlM (fun slots m => r.fields.fill slots m.1 m.2) r.fields.blank >>= fun slots =>
    (r.fields.complete slots).map r.build) = _
  cases vs.foldlM (fun slots m => r.fields.fill slots m.1 m.2) r.fields.blank <;> rfl

/-- Records with sound fields are read back. -/
theorem readsBack_record {α : Type} {r : Record α} (hs : r.fields.Sound)
    (hb : ∀ a, r.build (r.parts a) = a) : (Codec.record r).ReadsBack where
  head a := ⟨'\x7b', _, rfl, rfl, by decide⟩
  read_write a rest _ := by
    have hloop := (Loops.members hs (Fields.within_self r.fields)
      (Fields.complete_written hs (r.parts a)) true rest).loop_eq
    have hclose : '\x7d' :: rest = ['\x7d'] ++ rest := rfl
    show r.read ('\x7b' :: commaSeparated (r.fields.members (r.parts a)) ++ ['\x7d'] ++ rest) = _
    rw [List.cons_append, List.cons_append, List.append_assoc, ← hclose, Record.read]
    simp only [skipBlank_cons (show isBlank '\x7b' = false from rfl)]
    rw [if_neg (by decide), if_pos trivial]
    have hloop' : loop r.fields.memberStep (true, r.fields.blank)
        (commaSeparated (r.fields.members (r.parts a)) ++ '\x7d' :: rest) =
        .ok (r.parts a, rest) := hloop
    rw [hloop']
    show Except.ok (r.build (r.parts a), rest) = _
    rw [hb a]

end TaskWatch.Json
