import TaskWatch.Proofs.Json.AgreePlain
import TaskWatch.Proofs.Json.Nested

/-!
# Two readers of lists and records

Lists and records are read item by item and member by member, off a text as well as from a value
that has been read already.  Members that belong to no field are passed over, and it does not matter
what they hold.

* `Alike.items`, `Codec.Agrees.list`: lists.
* `Fields.Gathers`: what the members of an object come to, as they are written.
  `Fields.alike_members`: the text of the members comes to that.
* `Fields.alike_fields`: the fields of a record as the items of a list.
* `agrees_record`: records whose fields agree.
* `Codec.Agrees.decode_iff`: whole texts.
-/

namespace TaskWatch.Json

/-! ## Lists -/

section Lists

variable {α : Type} {c : Codec α} {T : Tree} {cs blanks rest : List Char} {first : Bool}

/-- A list goes on with an item. -/
theorem nextItem_append (hs : Spaced (comma first ++ T.tokens) cs) (rest : List Char) :
    ∃ ds, nextItem first (cs ++ rest) = .ok (true, ds ++ rest) ∧ Spaced T.tokens ds ∧
      0 < cs.length := by
  cases first with
  | true =>
    obtain ⟨blanks, d, ds, hb, rfl, hd, hds⟩ := T.exists_lead hs
    refine ⟨d :: ds, ?_, hds, List.length_pos_iff.mpr (by simp)⟩
    rw [List.append_assoc, nextItem, List.cons_append, skipBlank_lead hb hd.isBlank_eq]
    simp only [hd.ne_closing, if_false, if_true]
  | false =>
    obtain ⟨b, es, hb, hes, rfl⟩ := spaced_cons_iff.mp hs
    obtain ⟨blanks, d, ds, hb', rfl, hd, hds⟩ := T.exists_lead hes
    refine ⟨d :: ds, ?_, hds, List.length_pos_iff.mpr (by simp)⟩
    have htext : b ++ ([','] ++ (blanks ++ d :: ds)) ++ rest =
        b ++ ',' :: (blanks ++ d :: (ds ++ rest)) := by
      simp
    rw [htext, nextItem, skipBlank_lead hb rfl]
    have hnext := skipBlank_lead hb' hd.isBlank_eq (ds ++ rest)
    simp [hnext, hd.ne_closing]

theorem nextItem_closing (hb : Blank blanks) (rest : List Char) :
    nextItem first (blanks ++ ']' :: rest) = .ok (false, ']' :: rest) := by
  rw [nextItem, skipBlank_lead hb rfl]
  rfl

/-- The items of a list are read and taken one after another. -/
theorem Alike.items (hc : c.Agrees) (items : List Tree) (xs : List α)
    (hs : Spaced (itemTokens xs.isEmpty items) cs) (hb : Blank blanks) {fuel : Nat}
    (hf : (cs ++ (blanks ++ ']' :: rest)).length < fuel) :
    Alike rest (loopWithin (itemStep c.read) fuel xs (cs ++ (blanks ++ ']' :: rest)))
      (((itemValues items).mapM c.ofValue).map (xs.reverse ++ ·)) := by
  induction items generalizing xs cs fuel with
  | nil =>
    obtain ⟨fuel, rfl⟩ := Nat.exists_eq_add_one.mpr (Nat.zero_lt_of_lt hf)
    cases hs
    have hstep : itemStep c.read xs (blanks ++ ']' :: rest) = .ok (.done xs.reverse, rest) := by
      rw [itemStep, nextItem_closing hb]
      rfl
    rw [List.nil_append, loopWithin, hstep]
    change Alike rest (.ok (xs.reverse, rest)) (.ok (xs.reverse ++ []))
    rw [List.append_nil]
    exact .ok _
  | cons T items ih =>
    obtain ⟨fuel, rfl⟩ := Nat.exists_eq_add_one.mpr (Nat.zero_lt_of_lt hf)
    have hclosed : Ended (blanks ++ ']' :: rest) := (ended_cons (.inr (.inl rfl))).blanks hb
    rw [itemTokens, ← List.append_assoc] at hs
    obtain ⟨ts, is, hts, his, rfl⟩ := spaced_append_iff.mp hs
    obtain ⟨ds, hnext, hds, hpos⟩ := nextItem_append hts (is ++ (blanks ++ ']' :: rest))
    have hloop :
      loopWithin (itemStep c.read) (fuel + 1) xs (ts ++ (is ++ (blanks ++ ']' :: rest))) =
        c.read (ds ++ (is ++ (blanks ++ ']' :: rest))) >>= fun r =>
          loopWithin (itemStep c.read) fuel (r.1 :: xs) r.2 := by
      simp only [loopWithin, itemStep, hnext]
      cases c.read (ds ++ (is ++ (blanks ++ ']' :: rest))) <;> rfl
    have hmap : ((itemValues (T :: items)).mapM c.ofValue).map (xs.reverse ++ ·) =
        c.ofValue T.value >>= fun a =>
          ((itemValues items).mapM c.ofValue).map ((a :: xs).reverse ++ ·) := by
      simp only [itemValues, List.mapM_cons, List.reverse_cons, List.append_assoc,
        List.singleton_append]
      cases c.ofValue T.value with
      | error m => rfl
      | ok a => cases (itemValues items).mapM c.ofValue <;> rfl
    rw [List.append_assoc, hloop, hmap]
    refine (hc hds (ended_items his hclosed)).bind fun a _ => ih (a :: xs) his ?_
    simp only [List.append_assoc, List.length_append] at hf ⊢
    omega

theorem ofValue_list_of_ne {v : Value} (h : v.kind ≠ .list) :
    c.list.ofValue v = .error (.wrongType v.found .sequence) := by
  cases v with
  | list items => exact absurd rfl h
  | _ => rfl

theorem Codec.Agrees.list (hc : c.Agrees) : c.list.Agrees := by
  intro T cs rest hs hr
  by_cases hkind : T.kind = .list
  · obtain ⟨items, rfl⟩ := exists_list hkind
    obtain ⟨blanks, ds, hb, hds, rfl⟩ := spaced_cons_iff.mp hs
    obtain ⟨is, close, his, hclose, rfl⟩ := spaced_append_iff.mp hds
    obtain ⟨blanks', hb', rfl⟩ := spaced_singleton_iff.mp hclose
    have hread : c.list.read (blanks ++ (['['] ++ (is ++ (blanks' ++ [']']))) ++ rest) =
        loop (itemStep c.read) [] (is ++ (blanks' ++ ']' :: rest)) := by
      rw [Codec.list]
      simp only [List.append_assoc, List.cons_append, List.nil_append,
        skipBlank_lead hb (show isBlank '[' = false from rfl)]
      rfl
    have hloop : Alike rest (loop (itemStep c.read) [] (is ++ (blanks' ++ ']' :: rest))) _ :=
      Alike.items hc items [] his hb' (Nat.lt_succ_self _)
    have hvalue : c.list.ofValue (Tree.list items).value =
        ((itemValues items).mapM c.ofValue).map ([].reverse ++ ·) := by
      change (itemValues items).mapM c.ofValue = _
      cases (itemValues items).mapM c.ofValue <;> rfl
    rw [hread, hvalue]
    exact hloop
  · obtain ⟨blanks, d, ds, hb, rfl, hd, -⟩ := T.exists_lead hs
    have hne : d ≠ '[' := ne_of_opens hd hkind rfl
    have hread : c.list.read (blanks ++ d :: ds ++ rest) =
        .error (clash .sequence (d :: (ds ++ rest))) := by
      rw [List.append_assoc, Codec.list, List.cons_append]
      simp only [skipBlank_lead hb hd.isBlank_eq, hne, if_false]
    rw [hread, ofValue_list_of_ne (kind_value_ne hkind (by decide))]
    exact .clash

end Lists

/-! ## Fields -/

namespace Fields

def Agree : {types : List Type} → Fields types → Prop
  | _, .nil => True
  | _, .cons field fields => field.codec.Agrees ∧ fields.Agree

section Members

variable {types : List Type} {fields : Fields types} {slots : Slots types} {key : String} {T : Tree}
  {cs ts rest : List Char}

theorem readMember_of_not_mem (h : key ∉ fields.names) (cs : List Char) :
    fields.readMember slots key cs = .ok none := by
  induction fields with
  | nil => rfl
  | cons field fields ih =>
    obtain ⟨slot, slots⟩ := slots
    have hne : field.name ≠ key := fun heq => h (heq ▸ List.mem_cons_self)
    have hrest : fields.readMember slots key cs = .ok none :=
      ih fun hmem => h (List.mem_cons_of_mem _ hmem)
    rw [readMember, if_neg hne, hrest]
    rfl

/-- The value of a field is read into its slot as it is put there. -/
theorem readMember_of_mem (slots : Slots types) (hfields : fields.Agree) (h : key ∈ fields.names)
    (hcolon : expectChar ':' cs = .ok (ts ++ rest)) (hs : Spaced T.tokens ts) (hr : Ended rest) :
    ∃ x, fields.readMember slots key cs = x.map some ∧
      Alike rest x (fields.fill slots key T.value) := by
  induction fields with
  | nil => cases h
  | cons field fields ih =>
    obtain ⟨slot, slots⟩ := slots
    obtain ⟨hcodec, hfields⟩ := hfields
    by_cases hname : field.name = key
    · cases hslot : slot.isSome with
      | true =>
        refine ⟨.error (.data (.duplicateField key)), ?_, ?_⟩
        · rw [readMember, if_pos hname, hslot, if_pos rfl]
          rfl
        · rw [fill, if_pos hname, hslot, if_pos rfl]
          exact .unfit id
      | false =>
        refine ⟨(field.codec.read (ts ++ rest)).map fun r => ((some r.1, slots), r.2), ?_, ?_⟩
        · rw [readMember, if_pos hname, hslot, if_neg Bool.false_ne_true, hcolon]
          simp only [bind, Except.bind]
          cases field.codec.read (ts ++ rest) <;> rfl
        · rw [fill, if_pos hname, hslot, if_neg Bool.false_ne_true]
          exact (hcodec hs hr).map fun a => (some a, slots)
    · have hmem : key ∈ fields.names := (List.mem_cons.mp h).resolve_left fun heq => hname heq.symm
      obtain ⟨x, hx, halike⟩ := ih slots hfields hmem
      refine ⟨x.map fun r => ((slot, r.1), r.2), ?_, ?_⟩
      · rw [readMember, if_neg hname, hx]
        cases x <;> rfl
      · rw [fill, if_neg hname]
        exact halike.map fun slots => (slot, slots)

end Members

/-! ## Objects -/

section Objects

variable {types : List Type} {fields : Fields types} {slots : Slots types} {key : String}
  {k : Quote} {T : Tree} {first : Bool} {blanks ks cs ts rest : List Char}

theorem nextKey_append (hs : Spaced (comma first ++ [k.chars]) ks) (rest : List Char) :
    nextKey first (ks ++ rest) = .ok (true, k.body ++ rest) := by
  cases first with
  | true =>
    obtain ⟨b, hb, rfl⟩ := spaced_singleton_iff.mp hs
    rw [List.append_assoc, Quote.chars, List.cons_append, nextKey, skipBlank_lead hb rfl]
    rfl
  | false =>
    obtain ⟨b, ds, hb, hds, rfl⟩ := spaced_cons_iff.mp hs
    obtain ⟨b', hb', rfl⟩ := spaced_singleton_iff.mp hds
    have htext : b ++ ([','] ++ (b' ++ k.chars)) ++ rest =
        b ++ ',' :: (b' ++ '\x22' :: (k.body ++ rest)) := by
      simp [Quote.chars]
    rw [htext, nextKey, skipBlank_lead hb rfl]
    simp only [skipBlank_lead hb' (show isBlank '\x22' = false from rfl)]
    rfl

theorem nextKey_closing (hb : Blank blanks) (rest : List Char) :
    nextKey first (blanks ++ '\x7d' :: rest) = .ok (false, rest) := by
  rw [nextKey, skipBlank_lead hb rfl]
  rfl

/-- A member whose key is no text is no JSON. -/
theorem memberStep_of_lost (hs : Spaced (comma first ++ [k.chars]) ks) (hk : k.text? = none)
    (rest : List Char) :
    fields.memberStep (first, slots) (ks ++ rest) = .error .malformed := by
  have hkey := readText_body k rest
  rw [hk] at hkey
  rw [memberStep]
  simp only [nextKey_append hs, bind, Except.bind, if_true, hkey]

/-- A member is read as it is put into its slot.  A member of no field leaves the slots as they
are. -/
theorem memberStep_append (slots : Slots types) (hfields : fields.Agree)
    (hks : Spaced (comma first ++ [k.chars]) ks) (hcs : Spaced [[':']] cs) (hs : Spaced T.tokens ts)
    (hr : Ended rest) (hk : k.text? = some key) :
    ∃ x, fields.memberStep (first, slots) (ks ++ (cs ++ (ts ++ rest))) =
        x.map (fun r => (.again (false, r.1), r.2)) ∧
      Alike rest x (fields.fill slots key T.value) := by
  obtain ⟨b, hb, rfl⟩ := spaced_singleton_iff.mp hcs
  have hcolon : expectChar ':' (b ++ [':'] ++ (ts ++ rest)) = .ok (ts ++ rest) := by
    rw [List.append_assoc]
    exact expectChar_lead hb rfl _
  have hkey := readText_body k (b ++ [':'] ++ (ts ++ rest))
  rw [hk] at hkey
  by_cases hmem : key ∈ fields.names
  · obtain ⟨x, hx, halike⟩ := readMember_of_mem slots hfields hmem hcolon hs hr
    refine ⟨x, ?_, halike⟩
    rw [memberStep]
    simp only [nextKey_append hks, bind, Except.bind, if_true, hkey, hx]
    cases x <;> rfl
  · refine ⟨.ok (slots, rest), ?_, ?_⟩
    · rw [memberStep]
      simp only [nextKey_append hks, bind, Except.bind, if_true, hkey,
        readMember_of_not_mem hmem, hcolon, skipValue_append hs hr]
      rfl
    · rw [fill_of_not_mem hmem]
      exact .ok slots

/-- What taking some members after others comes to, or the error of an object that stands for no
value. -/
structure Gathers (fields : Fields types) (slots : Slots types) (members : List (Quote × Tree))
    (y : Except Mismatch (Row types)) : Prop where
  of_some : ∀ vs, memberValues? members = some vs →
    y = vs.foldlM (fun slots m => fields.fill slots m.1 m.2) slots >>= fields.complete
  of_none : memberValues? members = none → ∃ found wanted, y = .error (.wrongType found wanted)

theorem Gathers.of_lost {members : List (Quote × Tree)} {y : Except Mismatch (Row types)}
    (hy : fields.Gathers slots ((k, T) :: members) y) (hk : k.text? = none) :
    ∃ found wanted, y = .error (.wrongType found wanted) :=
  hy.of_none (by rw [memberValues?, hk])

/-- The first member is taken, and then the others. -/
theorem Gathers.tail {members : List (Quote × Tree)} {y : Except Mismatch (Row types)}
    {slots' : Slots types} (hy : fields.Gathers slots ((k, T) :: members) y)
    (hk : k.text? = some key)
    (hfill : fields.fill slots key T.value = .ok slots') : fields.Gathers slots' members y where
  of_some vs hvs := by
    have hall := hy.of_some ((key, T.value) :: vs) (by rw [memberValues?, hk, hvs])
    rw [hall, List.foldlM_cons]
    simp only [hfill, bind, Except.bind]
  of_none hnone := hy.of_none (by rw [memberValues?, hk, hnone])

/-- What goes wrong with the first member is what goes wrong at all, unless the object stands for no
value. -/
theorem Gathers.of_error {members : List (Quote × Tree)} {y : Except Mismatch (Row types)}
    {m : Mismatch} (hy : fields.Gathers slots ((k, T) :: members) y) (hk : k.text? = some key)
    (hfill : fields.fill slots key T.value = .error m) :
    y = .error m ∨ ∃ found wanted, y = .error (.wrongType found wanted) := by
  cases hvs : memberValues? members with
  | none => exact .inr (hy.of_none (by rw [memberValues?, hk, hvs]))
  | some vs =>
    have hall := hy.of_some ((key, T.value) :: vs) (by rw [memberValues?, hk, hvs])
    rw [List.foldlM_cons] at hall
    simp only [hfill, bind, Except.bind] at hall
    exact .inl hall

/-- The members of an object are read and taken one after another. -/
theorem alike_members (hfields : fields.Agree) (members : List (Quote × Tree)) {ms : List Char}
    {y : Except Mismatch (Row types)} (hy : fields.Gathers slots members y)
    (hs : Spaced (memberTokens first members) ms) (hb : Blank blanks) {fuel : Nat}
    (hf : (ms ++ (blanks ++ '\x7d' :: rest)).length < fuel) :
    Alike rest (loopWithin fields.memberStep fuel (first, slots)
      (ms ++ (blanks ++ '\x7d' :: rest))) y := by
  induction members generalizing slots first ms fuel with
  | nil =>
    obtain ⟨fuel, rfl⟩ := Nat.exists_eq_add_one.mpr (Nat.zero_lt_of_lt hf)
    cases hs
    have hcomplete : y = fields.complete slots := hy.of_some [] rfl
    rw [List.nil_append, loopWithin, memberStep, hcomplete]
    simp only [nextKey_closing hb, bind, Except.bind, Bool.false_eq_true, if_false]
    cases fields.complete slots with
    | error m => exact .error fun _ => rfl
    | ok row => exact .ok row
  | cons m members ih =>
    obtain ⟨fuel, rfl⟩ := Nat.exists_eq_add_one.mpr (Nat.zero_lt_of_lt hf)
    obtain ⟨k, T⟩ := m
    have hclosed : Ended (blanks ++ '\x7d' :: rest) := (ended_cons (.inr (.inr rfl))).blanks hb
    have htokens : memberTokens first ((k, T) :: members) =
        comma first ++ [k.chars] ++ ([[':']] ++ (T.tokens ++ memberTokens false members)) := by
      simp [memberTokens]
    obtain ⟨ks, ds, hks, hds, rfl⟩ := spaced_append_iff.mp (htokens ▸ hs)
    obtain ⟨cs, es, hcs, hes, rfl⟩ := spaced_append_iff.mp hds
    obtain ⟨ts, is, hts, his, rfl⟩ := spaced_append_iff.mp hes
    have htext : ks ++ (cs ++ (ts ++ is)) ++ (blanks ++ '\x7d' :: rest) =
        ks ++ (cs ++ (ts ++ (is ++ (blanks ++ '\x7d' :: rest)))) := by simp
    have hlt : (is ++ (blanks ++ '\x7d' :: rest)).length < fuel := by
      obtain ⟨b, -, rfl⟩ := spaced_singleton_iff.mp hcs
      simp only [List.append_assoc, List.length_append, List.length_cons] at hf ⊢
      omega
    rw [htext, loopWithin]
    cases hk : k.text? with
    | none =>
      obtain ⟨found, wanted, rfl⟩ := hy.of_lost hk
      rw [memberStep_of_lost hks hk]
      exact .clash
    | some key =>
      obtain ⟨x, hx, halike⟩ := memberStep_append slots hfields hks hcs hts
        (ended_members his hclosed) hk
      rw [hx]
      cases hfill : fields.fill slots key T.value with
      | error m =>
        rw [hfill] at halike
        cases halike with
        | error he =>
          obtain rfl | ⟨found, wanted, rfl⟩ := hy.of_error hk hfill
          · exact .error he
          · exact .clash
      | ok slots' =>
        rw [halike.ok_iff.mpr hfill]
        exact ih (hy.tail hk hfill) his hlt

end Objects

/-! ## Lists in the place of objects -/

section Items

variable {types : List Type} {fields : Fields types} {is blanks rest : List Char}

/-- Behind the fields a list must be over. -/
theorem expectChar_items {first : Bool} {items : List Tree}
    (hs : Spaced (itemTokens first items) is) (hb : Blank blanks) (rest : List Char) :
    (items = [] ∧ expectChar ']' (is ++ (blanks ++ ']' :: rest)) = .ok rest) ∨
      (items ≠ [] ∧ expectChar ']' (is ++ (blanks ++ ']' :: rest)) = .error .malformed) := by
  cases items with
  | nil =>
    cases hs
    exact .inl ⟨rfl, expectChar_lead hb rfl rest⟩
  | cons T items =>
    refine .inr ⟨List.cons_ne_nil _ _, ?_⟩
    obtain ⟨lead, ds, hlead, hds, rfl⟩ := spaced_append_iff.mp hs
    cases first with
    | true =>
      cases hlead
      obtain ⟨ts, es, hts, -, rfl⟩ := spaced_append_iff.mp hds
      obtain ⟨b, d, fs, hb', rfl, hd, -⟩ := T.exists_lead hts
      have htext : [] ++ (b ++ d :: fs ++ es) ++ (blanks ++ ']' :: rest) =
          b ++ d :: (fs ++ es ++ (blanks ++ ']' :: rest)) := by simp
      rw [htext, expectChar, skipBlank_lead hb' hd.isBlank_eq]
      exact if_neg hd.ne_closing
    | false =>
      obtain ⟨b, hb', rfl⟩ := spaced_singleton_iff.mp hlead
      have htext : b ++ [','] ++ ds ++ (blanks ++ ']' :: rest) =
          b ++ ',' :: (ds ++ (blanks ++ ']' :: rest)) := by
        simp
      rw [htext, expectChar, skipBlank_lead hb' rfl]
      rfl

/-- Reads the fields that are left, and the bracket that closes the list. -/
def readRest (record : String) (total : Nat) (fields : Fields types) (done : Nat) :
    Reader (Row types) := fun cs =>
  fields.readItems record total done cs >>= fun r => (expectChar ']' r.2).map (r.1, ·)

section Steps

variable {α : Type} {field : Field α} {record : String} {total done : Nat} {cs ds : List Char}

theorem readRest_of_item (h : nextItem (done == 0) cs = .ok (true, ds)) :
    (Fields.cons field fields).readRest record total done cs = field.codec.read ds >>= fun r =>
      (fields.readRest record total (done + 1) r.2).map fun q => ((r.1, q.1), q.2) := by
  simp only [readRest, readItems, h, bind, Except.bind, if_true]
  cases field.codec.read ds with
  | error e => rfl
  | ok r =>
    simp only
    cases fields.readItems record total (done + 1) r.2 with
    | error e => rfl
    | ok q =>
      simp only
      cases expectChar ']' q.2 <;> rfl

theorem readRest_of_end (h : nextItem (done == 0) cs = .ok (false, ds)) :
    (Fields.cons field fields).readRest record total done cs =
      match field.absent with
      | none => .error (.data (.wrongLength done record total))
      | some a => (fields.readRest record total (done + 1) ds).map fun q => ((a, q.1), q.2) := by
  simp only [readRest, readItems, h, bind, Except.bind, Bool.false_eq_true, if_false]
  cases field.absent with
  | none => rfl
  | some a =>
    simp only
    cases fields.readItems record total (done + 1) ds with
    | error e => rfl
    | ok q =>
      simp only
      cases expectChar ']' q.2 <;> rfl

end Steps

/-- The items of a list are read and taken as the fields of a record, one after another. -/
theorem alike_fields (record : String) (total : Nat) (hfields : fields.Agree) (done : Nat)
    (items : List Tree) (hs : Spaced (itemTokens (done == 0) items) is) (hb : Blank blanks)
    (rest : List Char) :
    Alike rest (fields.readRest record total done (is ++ (blanks ++ ']' :: rest)))
      (fields.ofItems record total done (itemValues items)) := by
  induction fields generalizing done items is blanks with
  | nil =>
    change Alike rest ((expectChar ']' (is ++ (blanks ++ ']' :: rest))).map ((), ·)) _
    obtain ⟨rfl, hclose⟩ | ⟨hne, hclose⟩ := expectChar_items hs hb rest
    · rw [hclose]
      exact .ok ()
    · obtain ⟨T, items, rfl⟩ := List.exists_cons_of_ne_nil hne
      rw [hclose]
      exact .unfit id
  | cons field fields ih =>
    obtain ⟨hcodec, hfields⟩ := hfields
    cases items with
    | nil =>
      cases hs
      rw [List.nil_append, readRest_of_end (nextItem_closing hb rest), itemValues, ofItems]
      cases field.absent with
      | none => exact .unfit id
      | some a => exact (ih hfields (done + 1) [] .nil blank_nil).map fun row => (a, row)
    | cons T items =>
      have hclosed : Ended (blanks ++ ']' :: rest) := (ended_cons (.inr (.inl rfl))).blanks hb
      rw [itemTokens, ← List.append_assoc] at hs
      obtain ⟨ts, es, hts, hes, rfl⟩ := spaced_append_iff.mp hs
      obtain ⟨ds, hitem, hds, -⟩ := nextItem_append hts (es ++ (blanks ++ ']' :: rest))
      rw [List.append_assoc, readRest_of_item hitem, itemValues, ofItems]
      refine (hcodec hds (ended_items hes hclosed)).bind fun a _ => ?_
      have hmap :
        (fields.ofItems record total (done + 1) (itemValues items) >>= fun row => .ok (a, row)) =
          (fields.ofItems record total (done + 1) (itemValues items)).map fun row => (a, row) := by
        cases fields.ofItems record total (done + 1) (itemValues items) <;> rfl
      rw [hmap]
      exact (ih hfields (done + 1) items hes hb).map fun row => (a, row)

end Items
end Fields

/-! ## Records and whole texts -/

theorem ofValue_record_of_ne {α : Type} {r : Record α} {v : Value} (hl : v.kind ≠ .list)
    (ho : v.kind ≠ .object) :
    (Codec.record r).ofValue v = .error (.wrongType v.found (.record r.name)) := by
  cases v with
  | list items => exact absurd rfl hl
  | object members => exact absurd rfl ho
  | _ => rfl

/-- A record takes an object by its members. -/
theorem exists_gathers {α : Type} (r : Record α) (members : List (Quote × Tree)) :
    ∃ y, r.fields.Gathers r.fields.blank members y ∧
      (Codec.record r).ofValue (Tree.object members).value = y.map r.build := by
  rw [Tree.value]
  cases hvs : memberValues? members with
  | none =>
    refine ⟨.error (.wrongType (.boolean true) (.record r.name)),
      ⟨fun vs h => ?_, fun _ => ⟨_, _, rfl⟩⟩, rfl⟩
    rw [hvs] at h
    cases h
  | some vs =>
    refine
      ⟨vs.foldlM (fun slots m => r.fields.fill slots m.1 m.2) r.fields.blank >>= r.fields.complete,
      ⟨fun vs' h => ?_, fun h => ?_⟩, ?_⟩
    · rw [hvs] at h
      cases h
      rfl
    · rw [hvs] at h
      cases h
    · exact ofValue_object r vs

section Records

variable {α : Type} {r : Record α} {blanks : List Char}

theorem read_list (hb : Blank blanks) (cs : List Char) : r.read (blanks ++ '[' :: cs) =
    (r.fields.readRest r.name r.fields.count 0 cs).map fun q => (r.build q.1, q.2) := by
  rw [Record.read, skipBlank_lead hb rfl, Fields.readRest]
  simp only [if_true, bind, Except.bind]
  cases r.fields.readItems r.name r.fields.count 0 cs with
  | error e => rfl
  | ok q =>
    simp only
    cases expectChar ']' q.2 <;> rfl

theorem read_object (hb : Blank blanks) (cs : List Char) : r.read (blanks ++ '\x7b' :: cs) =
    (loop r.fields.memberStep (true, r.fields.blank) cs).map fun q => (r.build q.1, q.2) := by
  rw [Record.read, skipBlank_lead hb rfl]
  rfl

theorem agrees_record (hfields : r.fields.Agree) : (Codec.record r).Agrees := by
  intro T cs rest hs hr
  by_cases hlist : T.kind = .list
  · obtain ⟨items, rfl⟩ := exists_list hlist
    obtain ⟨blanks, ds, hb, hds, rfl⟩ := spaced_cons_iff.mp hs
    obtain ⟨is, close, his, hclose, rfl⟩ := spaced_append_iff.mp hds
    obtain ⟨blanks', hb', rfl⟩ := spaced_singleton_iff.mp hclose
    have htext : blanks ++ (['['] ++ (is ++ (blanks' ++ [']']))) ++ rest =
        blanks ++ '[' :: (is ++ (blanks' ++ ']' :: rest)) := by simp
    rw [htext]
    change Alike rest (r.read _) _
    rw [read_list hb]
    exact (Fields.alike_fields r.name r.fields.count hfields 0 items his hb' rest).map r.build
  by_cases hobject : T.kind = .object
  · obtain ⟨members, rfl⟩ := exists_object hobject
    obtain ⟨blanks, ds, hb, hds, rfl⟩ := spaced_cons_iff.mp hs
    obtain ⟨ms, close, hms, hclose, rfl⟩ := spaced_append_iff.mp hds
    obtain ⟨blanks', hb', rfl⟩ := spaced_singleton_iff.mp hclose
    have htext : blanks ++ (['\x7b'] ++ (ms ++ (blanks' ++ ['\x7d']))) ++ rest =
        blanks ++ '\x7b' :: (ms ++ (blanks' ++ '\x7d' :: rest)) := by simp
    obtain ⟨y, hy, hvalue⟩ := exists_gathers r members
    rw [htext, hvalue]
    change Alike rest (r.read _) _
    rw [read_object hb]
    exact (Fields.alike_members hfields members hy hms hb' (Nat.lt_succ_self _)).map r.build
  · obtain ⟨blanks, d, ds, hb, rfl, hd, -⟩ := T.exists_lead hs
    have hbracket : d ≠ '[' := ne_of_opens hd hlist rfl
    have hbrace : d ≠ '\x7b' := ne_of_opens hd hobject rfl
    have hread : (Codec.record r).read (blanks ++ d :: ds ++ rest) =
        .error (clash (.record r.name) (d :: (ds ++ rest))) := by
      change r.read _ = _
      rw [List.append_assoc, List.cons_append, Record.read, skipBlank_lead hb hd.isBlank_eq]
      simp only [hbracket, hbrace, if_false]
    rw [hread, ofValue_record_of_ne (kind_value_ne hlist (by decide))
      (kind_value_ne hobject (by decide))]
    exact .clash

end Records

/-- **Texts and values.**  A text of a value, with blanks wherever they may be, is read as this
value is taken; an unknown name is told alike. -/
theorem Codec.Agrees.decode_iff {α : Type} {c : Codec α} (hc : c.Agrees) {T : Tree} {s : String}
    (hs : T.Text s) :
    (∀ a, c.decode s = .ok a ↔ c.ofValue T.value = .ok a) ∧
    ∀ m, m.IsVariant → c.ofValue T.value = .error m → c.decode s = .error (.data m) := by
  obtain ⟨cs, blanks, hcs, hb, rfl⟩ := hs
  have halike := hc hcs (ended_of_blank hb)
  have hdecode : c.decode (String.ofList (cs ++ blanks)) = (c.read (cs ++ blanks)).map (·.1) := by
    rw [decode, String.toList_ofList]
    cases hread : c.read (cs ++ blanks) with
    | error e => rfl
    | ok r =>
      obtain ⟨hrest, -⟩ := halike.eq_ok hread
      simp only [hrest, hb.skipBlank_eq]
      rfl
  rw [hdecode]
  refine ⟨fun a => ?_, fun m hm hvalue => ?_⟩
  · rw [← halike.ok_iff]
    cases hread : c.read (cs ++ blanks) with
    | error e => simp [Except.map]
    | ok r =>
      obtain ⟨b, rest⟩ := r
      obtain ⟨rfl, -⟩ := halike.eq_ok hread
      simp [Except.map]
  · rw [halike.eq_error hm hvalue]
    rfl

end TaskWatch.Json
