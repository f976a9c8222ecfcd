import TaskWatch.Proofs.Json.CutPlain
import TaskWatch.Proofs.Json.Nested

/-!
# Lists and records cut off

The last character of a list or of a record is its closing bracket.  Without it the reader comes to
the end of the text: in an item or a member, or before it looks for the next one.  A number that has
lost digits is the last thing there is, so the reader does not get any further with it.

* `nextItem_lead_nil`, `nextKey_lead_nil`: nothing follows where an item or a member should.
* `Breaks.items`, `endsEarly_list`: lists of values that end within their texts.
* `Fields.EndWithin`: the same of all fields.  `Breaks.members`, `endsEarly_record`: records with
  such fields.
-/

namespace TaskWatch.Json

theorem Cut.lead {first : Bool} {front : List Char} (h : Cut front (lead first)) : front = [] := by
  cases first with
  | true => exact absurd h not_cut_nil
  | false => exact h.singleton

/-! ## Lists -/

section Lists

variable {α : Type} {c : Codec α}

theorem nextItem_lead_nil (first : Bool) : nextItem first (Json.lead first) = .error .eof := by
  cases first <;> rfl

theorem itemStep_nil (xs : List α) : itemStep c.read xs [] = .error .eof := rfl

/-- A list without its closing bracket. -/
theorem Breaks.items (hr : c.ReadsBack) (hc : c.EndsWithin) (xs items : List α) {front : List Char}
    (h : Cut front (joined xs.isEmpty (items.map c.write) ++ [']'])) :
    Breaks (itemStep c.read) xs front := by
  induction items generalizing xs front with
  | nil =>
    rw [List.map_nil, joined_nil] at h
    obtain rfl := h.singleton
    exact .now (itemStep_nil xs)
  | cons a items ih =>
    obtain ⟨d, ds, hwrite, hblank, hd⟩ := hr.head a
    rw [List.map_cons, joined_cons, List.append_assoc, List.append_assoc] at h
    rcases h.append with hlead | ⟨left, rfl, hleft⟩
    · obtain rfl := hlead.lead
      exact .now (itemStep_nil xs)
    rcases hleft.append with hin | ⟨behind, rfl, hbehind⟩
    · -- The cut is in the item, or right before it.
      have hhead := hwrite ▸ hin
      rcases hhead.cons with rfl | ⟨left', rfl, -⟩
      · refine .now ?_
        rw [List.append_nil, itemStep, nextItem_lead_nil]
      · have hstep := itemStep_lead (c := c) xs left' hblank hd
        rcases hc a _ hin with heof | ⟨b, hb⟩
        · rw [heof] at hstep
          exact .now hstep
        · rw [hb] at hstep
          refine .later hstep ?_ (.now (itemStep_nil _))
          simp only [List.length_append, List.length_cons, List.length_nil]
          omega
    · have hparted := hbehind.parted (parted_joined_append _ [] (Or.inl rfl))
      have hread := hr.read_write a behind hparted
      rw [hwrite, List.cons_append] at hread ⊢
      have hstep := itemStep_lead (c := c) xs (ds ++ behind) hblank hd
      rw [hread] at hstep
      refine .later hstep ?_ (ih (a :: xs) hbehind)
      simp only [List.length_append, List.length_cons]
      omega

theorem endsEarly_list (hr : c.ReadsBack) (hc : c.EndsWithin) : c.list.EndsEarly := by
  intro items front h
  have h : Cut front ('[' :: (commaSeparated (items.map c.write) ++ [']'])) := h
  rcases h.cons with rfl | ⟨left, rfl, hleft⟩
  · rfl
  · rw [Codec.list]
    simp only [skipBlank_cons (show isBlank '[' = false from rfl), if_true]
    exact (Breaks.items hr hc [] items hleft).loop_eq

end Lists

/-! ## Records -/

namespace Fields

/-- Fields with values that end within their texts. -/
def EndWithin : {types : List Type} → Fields types → Prop
  | _, .nil => True
  | _, .cons field fields => field.codec.EndsWithin ∧ fields.EndWithin

theorem nextKey_lead_nil (first : Bool) : nextKey first (lead first) = .error .eof := by
  cases first <;> rfl

section Step

variable {types : List Type} {fields : Fields types} {slots : Slots types}

theorem memberStep_of_nextKey {first : Bool} {cs : List Char} (h : nextKey first cs = .error .eof) :
    fields.memberStep (first, slots) cs = .error .eof := by
  rw [memberStep]
  simp only [h, bind, Except.bind]

/-- A member whose value cannot be read. -/
theorem memberStep_lead_error {key : String} {cs : List Char} {e : Error} (first : Bool)
    (h : fields.readMember slots key cs = .error e) :
    fields.memberStep (first, slots) (lead first ++ (writeText key ++ cs)) = .error e := by
  rw [writeText_append, memberStep]
  simp only [nextKey_lead, bind, Except.bind, if_true, readText_writeText, h]

/-- A member whose key is cut off. -/
theorem memberStep_lead_cut {key : String} {front : List Char} (first : Bool)
    (h : Cut front (writeText key)) :
    fields.memberStep (first, slots) (lead first ++ front) = .error .eof := by
  rcases h.cons with rfl | ⟨left, rfl, hleft⟩
  · rw [List.append_nil]
    exact memberStep_of_nextKey (nextKey_lead_nil first)
  · rw [memberStep]
    simp only [nextKey_lead, bind, Except.bind, if_true, readText_cut hleft]

end Step

/-- A member whose value is cut off, or missing, ends the loop in at most two steps. -/
theorem Within.breaks {α : Type} {ts types : List Type} {field : Field α} {fs : Fields ts}
    {fields : Fields types} {put : Slots (α :: ts) → Slots types}
    (h : (Fields.cons field fs).Within fields put) (hc : field.codec.EndsWithin) (first : Bool)
    {a : α} {front : List Char} (hcut : Cut front (':' :: field.codec.write a)) :
    Breaks fields.memberStep (first, put (none, fs.blank))
      (lead first ++ (writeText field.name ++ front)) := by
  rcases hcut.cons with rfl | ⟨left, rfl, hleft⟩
  · refine .now (memberStep_lead_error first ?_)
    rw [h _ _ _ List.mem_cons_self, readMember]
    rw [if_pos rfl]
    rfl
  · rcases hc a left hleft with heof | ⟨b, hb⟩
    · refine .now (memberStep_lead_error first ?_)
      rw [h.readMember_colon, heof]
      rfl
    · have hread : fields.readMember (put (none, fs.blank)) field.name (':' :: left) =
          .ok (some (put (some b, fs.blank), [])) := by
        rw [h.readMember_colon, hb]
        rfl
      refine .later (memberStep_lead first hread) ?_ (.now (memberStep_of_nextKey rfl))
      simp only [List.length_append, List.length_cons, List.length_nil]
      omega

end Fields

/-- The members of some fields at the end of others, without the closing brace. -/
theorem Breaks.members {ts types : List Type} {fs : Fields ts} {fields : Fields types}
    {put : Slots ts → Slots types} (hs : fs.Sound) (hc : fs.EndWithin) (h : fs.Within fields put)
    (first : Bool) (row : Row ts) {front : List Char}
    (hcut : Cut front (joined first (fs.members row) ++ ['\x7d'])) :
    Breaks fields.memberStep (first, put fs.blank) front := by
  induction fs generalizing first front with
  | nil =>
    rw [Fields.members, joined_nil] at hcut
    obtain rfl := hcut.singleton
    exact .now (Fields.memberStep_of_nextKey rfl)
  | cons field fs ih =>
    obtain ⟨a, row⟩ := row
    obtain ⟨hfield, hname, hfs⟩ := hs
    obtain ⟨hcodec, hcs⟩ := hc
    rw [Fields.members] at hcut
    by_cases ho : field.omitted a = true
    · simp only [ho, if_true] at hcut
      exact ih hfs hcs (h.tail hname none) first row hcut
    · simp only [ho, if_false, Bool.false_eq_true] at hcut
      rw [joined_cons, List.append_assoc, List.append_assoc] at hcut
      rcases hcut.append with hlead | ⟨left, rfl, hleft⟩
      · obtain rfl := hlead.lead
        exact .now (Fields.memberStep_of_nextKey rfl)
      rcases hleft.append with hin | ⟨behind, rfl, hbehind⟩
      · rcases hin.append with hkey | ⟨value, rfl, hvalue⟩
        · exact .now (Fields.memberStep_lead_cut first hkey)
        · exact h.breaks hcodec first hvalue
      · have hparted := hbehind.parted (parted_joined_append _ [] (Or.inr rfl))
        have hstep := Fields.memberStep_lead first (h.readMember_head hfield a hparted)
        have htext : writeText field.name ++ ':' :: field.codec.write a ++ behind =
            writeText field.name ++ ':' :: (field.codec.write a ++ behind) := by simp
        rw [htext]
        refine .later hstep ?_ (ih hfs hcs (h.tail hname (some a)) false row hbehind)
        simp only [List.length_append, List.length_cons]
        omega

/-- Records end early when the values of their fields end within their texts. -/
theorem endsEarly_record {α : Type} {r : Record α} (hs : r.fields.Sound) (hc : r.fields.EndWithin) :
    (Codec.record r).EndsEarly := by
  intro a front h
  have h : Cut front ('\x7b' :: (commaSeparated (r.fields.members (r.parts a)) ++ ['\x7d'])) := h
  show r.read front = .error .eof
  rcases h.cons with rfl | ⟨left, rfl, hleft⟩
  · rfl
  · have hbreaks := Breaks.members hs hc (Fields.within_self r.fields) true (r.parts a) hleft
    have hloop : loop r.fields.memberStep (true, r.fields.blank) left = .error .eof :=
      hbreaks.loop_eq
    rw [Record.read]
    simp only [skipBlank_cons (show isBlank '\x7b' = false from rfl)]
    rw [if_neg (by decide), if_pos trivial, hloop]
    rfl

end TaskWatch.Json
