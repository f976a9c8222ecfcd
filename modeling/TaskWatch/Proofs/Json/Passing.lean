import TaskWatch.Json.Skip
import TaskWatch.Proofs.Json.Tokens

/-!
# Values passed over

A value of any shape and depth is passed over, however it is written.

* `Kind.Opens`: the characters that a value can begin with.
* `Loops.pastValue`: the steps past a value, by induction on it.  What comes behind it is told by
  steps that are given already, so that those past an item or a member are put before those past the
  rest.
* `skipValue_append`: values are passed over.
-/

namespace TaskWatch.Json

/-! ## How values begin -/

inductive Kind where
  | null
  | boolean
  | number
  | string
  | list
  | object
deriving DecidableEq

def Kind.Opens : Kind → Char → Prop
  | .null, c => c = 'n'
  | .boolean, c => c = 't' ∨ c = 'f'
  | .number, c => c = '-' ∨ c.isDigit = true
  | .string, c => c = '\x22'
  | .list, c => c = '['
  | .object, c => c = '\x7b'

def Tree.kind : Tree → Kind
  | .null => .null
  | .boolean _ => .boolean
  | .number _ => .number
  | .string _ => .string
  | .list _ => .list
  | .object _ => .object

section Lead

variable {T : Tree} {k k' : Kind} {c : Char} {cs : List Char}

theorem Kind.Opens.isBlank_eq (h : k.Opens c) : isBlank c = false := by
  cases k with
  | number => exact (isBlank_signedDigits h).1
  | boolean => obtain rfl | rfl := h <;> rfl
  | _ => cases h; rfl

theorem Kind.Opens.ne_closing (h : k.Opens c) : c ≠ ']' := by
  cases k with
  | number => exact (isBlank_signedDigits h).2.1
  | boolean => obtain rfl | rfl := h <;> decide
  | _ => cases h; decide

/-- What opens a value tells its kind. -/
theorem Kind.Opens.eq (h : k.Opens c) (h' : k'.Opens c) : k = k' := by
  have hdigit : ∀ d ∈ ['n', 't', 'f', '\x22', '[', '\x7b'], ¬Kind.number.Opens d := by
    intro d hd
    simp only [List.mem_cons, List.not_mem_nil, or_false] at hd
    rcases hd with rfl | rfl | rfl | rfl | rfl | rfl <;> simp [Kind.Opens]
  cases k <;> cases k' <;> first
    | rfl
    | (exfalso; simp only [Kind.Opens] at h h' hdigit; grind)

theorem Tree.exists_tokens (T : Tree) :
    ∃ c cs tokens, T.tokens = (c :: cs) :: tokens ∧ T.kind.Opens c := by
  cases T with
  | number n =>
    obtain ⟨c, cs, h, hc⟩ := n.chars_eq_cons
    exact ⟨c, cs, [], by rw [Tree.tokens, h], hc⟩
  | boolean b =>
    cases b with
    | true => exact ⟨_, _, _, rfl, .inl rfl⟩
    | false => exact ⟨_, _, _, rfl, .inr rfl⟩
  | _ => exact ⟨_, _, _, rfl, rfl⟩

/-- What is written for a value begins with blanks and a character that opens it.  The blanks may be
left out. -/
theorem Tree.exists_lead (h : Spaced T.tokens cs) :
    ∃ blanks c ds, Blank blanks ∧ cs = blanks ++ c :: ds ∧ T.kind.Opens c ∧
      Spaced T.tokens (c :: ds) := by
  obtain ⟨c, ds, tokens, htokens, hopens⟩ := T.exists_tokens
  rw [htokens] at h
  obtain ⟨blanks, es, hb, hes, rfl⟩ := spaced_cons_iff.mp h
  have hrest : Spaced T.tokens ([] ++ (c :: ds ++ es)) := htokens ▸ .cons blank_nil hes
  exact ⟨blanks, c, ds ++ es, hb, by simp, hopens, hrest⟩

theorem skipBlank_lead {blanks : List Char} (hb : Blank blanks) (hc : isBlank c = false)
    (ds : List Char) :
    skipBlank (blanks ++ c :: ds) = c :: ds := (skipBlank_append hb _).trans (skipBlank_cons hc)

theorem expectChar_lead {blanks : List Char} (hb : Blank blanks) (hc : isBlank c = false)
    (rest : List Char) :
    expectChar c (blanks ++ c :: rest) = .ok rest := by
  rw [expectChar, skipBlank_lead hb hc]
  exact if_pos rfl

/-- Behind an item comes a comma or what comes behind all of them. -/
theorem ended_items {items : List Tree} {rest : List Char} (h : Spaced (itemTokens false items) cs)
    (hr : Ended rest) : Ended (cs ++ rest) := by
  cases items with
  | nil =>
    cases h
    exact hr
  | cons T items =>
    obtain ⟨blanks, ds, hb, -, rfl⟩ := spaced_cons_iff.mp h
    rw [List.append_assoc, List.append_assoc]
    exact (ended_cons (.inl rfl)).blanks hb

/-- Behind a member comes a comma or what comes behind all of them. -/
theorem ended_members {members : List (Quote × Tree)} {rest : List Char}
    (h : Spaced (memberTokens false members) cs) (hr : Ended rest) : Ended (cs ++ rest) := by
  cases members with
  | nil =>
    cases h
    exact hr
  | cons m members =>
    obtain ⟨blanks, ds, hb, -, rfl⟩ := spaced_cons_iff.mp h
    rw [List.append_assoc, List.append_assoc]
    exact (ended_cons (.inl rfl)).blanks hb

end Lead

/-! ## Single steps -/

section Steps

variable {blanks cs rest : List Char} {stack : List Bracket}

/-- A value that has no brackets is one token, which is passed over at once. -/
theorem skipHead_token {T : Tree} {token : List Char} (h : T.tokens = [token]) (hr : Ended rest) :
    skipHead stack (token ++ rest) = .ok ((stack, .inside false), rest) := by
  cases T with
  | null => cases h; rfl
  | boolean b => cases b <;> cases h <;> rfl
  | string q =>
    cases h
    have hskip := skipText_body q rest
    change (skipText (q.body ++ rest)).map _ = _
    rw [hskip]
    rfl
  | number n =>
    cases h
    have hskip := skipNumber_chars n hr.endsNumber
    obtain ⟨c, cs, hchars, hc⟩ := n.chars_eq_cons
    have hne : ∀ d : Char, d.isDigit = false → d ≠ '-' → c ≠ d := by
      rintro d hd hminus rfl
      obtain rfl | hdigit := hc
      · exact hminus rfl
      · exact isDigit_ne hdigit hd rfl
    rw [hchars, List.cons_append] at hskip ⊢
    rw [skipHead, if_neg (hne _ rfl (by decide)), if_neg (hne _ rfl (by decide)), skipPlain,
      if_neg (hne _ rfl (by decide)), if_neg (hne _ rfl (by decide)),
      if_neg (hne _ rfl (by decide)), if_neg (hne _ rfl (by decide)), if_pos hc, hskip]
    rfl
  | list items => simp [Tree.tokens] at h
  | object members => simp [Tree.tokens] at h

theorem skipKey_append {k : Quote} (h : Spaced [k.chars, [':']] cs) :
    skipKey (cs ++ rest) = .ok rest := by
  obtain ⟨blanks, ds, hb, hds, rfl⟩ := spaced_cons_iff.mp h
  obtain ⟨blanks', hb', rfl⟩ := spaced_singleton_iff.mp hds
  have hcolon : expectChar ':' (blanks' ++ ':' :: rest) = .ok rest := expectChar_lead hb' rfl rest
  have htext : blanks ++ (k.chars ++ (blanks' ++ [':'])) ++ rest =
      blanks ++ '\x22' :: (k.body ++ (blanks' ++ ':' :: rest)) := by simp [Quote.chars]
  rw [htext, skipKey, skipBlank_lead hb rfl]
  simp only [if_true, skipText_body, hcolon]

end Steps

/-! ## All steps -/

section Loop

variable {cs rest blanks : List Char} {stack : List Bracket} {out : List Char}

theorem Loops.of_step_eq {σ β : Type} {step : σ → Reader (Turn σ β)} {s s' : σ} {b : β}
    (h : step s' cs = step s cs) (hs : Loops step s cs b out) : Loops step s' cs b out := by
  cases hs with
  | done hd => exact .done (h.trans hd)
  | again ha hlt next => exact .again (h.trans ha) hlt next

/-- A step that begins at a value. -/
theorem skipStep_value {k : Kind} {c : Char} {ds : List Char} (hb : Blank blanks) (hc : k.Opens c) :
    skipStep (stack, .value) (blanks ++ c :: ds) =
      (skipHead stack (c :: ds)).map fun r => (.again r.1, r.2) := by
  rw [skipStep, skipBlank_lead hb hc.isBlank_eq]

/-- A step that begins behind a bracket or a value. -/
theorem skipStep_inside {bracket : Bracket} {fresh : Bool} {c : Char} {ds : List Char}
    (hb : Blank blanks) (hc : isBlank c = false) :
    skipStep (bracket :: stack, .inside fresh) (blanks ++ c :: ds) =
      (skipTail fresh bracket stack (c :: ds)).map fun r => (.again r.1, r.2) := by
  rw [skipStep, skipBlank_lead hb hc]

theorem Loops.pastToken {T : Tree} {token : List Char} (htoken : T.tokens = [token])
    (hs : Spaced T.tokens cs) (hr : Ended rest)
    (next : Loops skipStep (stack, .inside false) rest () out) :
    Loops skipStep (stack, .value) (cs ++ rest) () out := by
  obtain ⟨c, ds, tokens, htokens, hc⟩ := T.exists_tokens
  obtain ⟨rfl, -⟩ := List.cons.inj (htoken.symm.trans htokens)
  rw [htoken] at hs
  obtain ⟨blanks, hb, rfl⟩ := spaced_singleton_iff.mp hs
  have hstep : skipStep (stack, .value) (blanks ++ c :: (ds ++ rest)) =
      .ok (.again (stack, .inside false), rest) := by
    rw [skipStep_value hb hc]
    exact congrArg (Except.map _) (skipHead_token htoken hr)
  rw [List.append_assoc]
  refine .again hstep ?_ next
  simp only [List.cons_append, List.length_append, List.length_cons]
  omega

/-- The step past a closing bracket. -/
theorem Loops.pastClosing {bracket : Bracket} {fresh : Bool} (hb : Blank blanks)
    (next : Loops skipStep (stack, .inside false) rest () out) :
    Loops skipStep (bracket :: stack, .inside fresh) (blanks ++ bracket.closing :: rest) ()
      out := by
  have hblank : isBlank bracket.closing = false := by cases bracket <;> rfl
  have hstep : skipStep (bracket :: stack, .inside fresh) (blanks ++ bracket.closing :: rest) =
      .ok (.again (stack, .inside false), rest) := by
    rw [skipStep_inside hb hblank]
    cases bracket <;> rfl
  refine .again hstep ?_ next
  simp only [List.length_append, List.length_cons]
  omega

/-- The step past the comma before an item. -/
theorem Loops.pastComma (hb : Blank blanks)
    (next : Loops skipStep (.list :: stack, .value) rest () out) :
    Loops skipStep (.list :: stack, .inside false) (blanks ++ ',' :: rest) () out := by
  refine .again (skipStep_inside hb rfl) ?_ next
  simp only [List.length_append, List.length_cons]
  omega

/-- At the first item of a list no step is needed to come to it. -/
theorem Loops.atFirst {T : Tree} (hs : Spaced T.tokens cs)
    (next : Loops skipStep (.list :: stack, .value) (cs ++ rest) () out) :
    Loops skipStep (.list :: stack, .inside true) (cs ++ rest) () out := by
  obtain ⟨blanks, c, ds, hb, rfl, hc, -⟩ := T.exists_lead hs
  rw [List.append_assoc, List.cons_append] at next ⊢
  refine .of_step_eq ?_ next
  rw [skipStep_inside hb hc.isBlank_eq, skipStep_value hb hc, skipTail.eq_def]
  simp only [Bracket.closing, if_neg hc.ne_closing, if_true]

/-- The step past the key of a member. -/
theorem Loops.pastKey {k : Quote} {fresh : Bool} (hs : Spaced (comma fresh ++ [k.chars, [':']]) cs)
    (next : Loops skipStep (.object :: stack, .value) rest () out) :
    Loops skipStep (.object :: stack, .inside fresh) (cs ++ rest) () out := by
  cases fresh with
  | true =>
    obtain ⟨blanks, ds, hb, hds, rfl⟩ := spaced_cons_iff.mp hs
    have hspaced : Spaced [k.chars, [':']] ([] ++ (k.chars ++ ds)) := .cons blank_nil hds
    have hkey : skipKey ('\x22' :: (k.body ++ ds ++ rest)) = .ok rest := skipKey_append hspaced
    have htext : blanks ++ (k.chars ++ ds) ++ rest =
        blanks ++ '\x22' :: (k.body ++ ds ++ rest) := by
      simp [Quote.chars]
    have hstep : skipStep (.object :: stack, .inside true)
      (blanks ++ '\x22' :: (k.body ++ ds ++ rest)) =
        .ok (.again (.object :: stack, .value), rest) := by
      rw [skipStep_inside hb rfl]
      change ((skipKey _).map _).map _ = _
      rw [hkey]
      rfl
    rw [htext]
    refine .again hstep ?_ next
    simp only [List.length_append, List.length_cons]
    omega
  | false =>
    obtain ⟨blanks, ds, hb, hds, rfl⟩ := spaced_cons_iff.mp hs
    have hkey : skipKey (ds ++ rest) = .ok rest := skipKey_append hds
    have htext : blanks ++ ([','] ++ ds) ++ rest = blanks ++ ',' :: (ds ++ rest) := by simp
    have hstep : skipStep (.object :: stack, .inside false) (blanks ++ ',' :: (ds ++ rest)) =
        .ok (.again (.object :: stack, .value), rest) := by
      rw [skipStep_inside hb rfl]
      change ((skipKey _).map _).map _ = _
      rw [hkey]
      rfl
    rw [htext]
    refine .again hstep ?_ next
    simp only [List.length_append, List.length_cons]
    omega

end Loop

mutual

/-- The steps past a value, put before those past the rest. -/
theorem Loops.pastValue (T : Tree) {cs rest out : List Char} {stack : List Bracket}
    (hs : Spaced T.tokens cs) (hr : Ended rest)
    (next : Loops skipStep (stack, .inside false) rest () out) :
    Loops skipStep (stack, .value) (cs ++ rest) () out := by
  cases T with
  | null => exact Loops.pastToken rfl hs hr next
  | boolean b => cases b <;> exact Loops.pastToken rfl hs hr next
  | number n => exact Loops.pastToken rfl hs hr next
  | string q => exact Loops.pastToken rfl hs hr next
  | list items =>
    obtain ⟨blanks, ds, hb, hds, rfl⟩ := spaced_cons_iff.mp hs
    obtain ⟨is, close, his, hclose, rfl⟩ := spaced_append_iff.mp hds
    obtain ⟨blanks', hb', rfl⟩ := spaced_singleton_iff.mp hclose
    have hinside := Loops.pastItems items true his hb' next
    have hstep : skipStep (stack, .value) (blanks ++ '[' :: (is ++ (blanks' ++ ']' :: rest))) =
        .ok (.again (.list :: stack, .inside true), is ++ (blanks' ++ ']' :: rest)) :=
      skipStep_value (k := .list) hb rfl
    have htext : blanks ++ (['['] ++ (is ++ (blanks' ++ [']']))) ++ rest =
        blanks ++ '[' :: (is ++ (blanks' ++ ']' :: rest)) := by simp
    rw [htext]
    refine .again hstep ?_ hinside
    simp only [List.length_append, List.length_cons]
    omega
  | object members =>
    obtain ⟨blanks, ds, hb, hds, rfl⟩ := spaced_cons_iff.mp hs
    obtain ⟨ms, close, hms, hclose, rfl⟩ := spaced_append_iff.mp hds
    obtain ⟨blanks', hb', rfl⟩ := spaced_singleton_iff.mp hclose
    have hinside := Loops.pastMembers members true hms hb' next
    have hstep : skipStep (stack, .value)
      (blanks ++ '\x7b' :: (ms ++ (blanks' ++ '\x7d' :: rest))) =
        .ok (.again (.object :: stack, .inside true), ms ++ (blanks' ++ '\x7d' :: rest)) :=
      skipStep_value (k := .object) hb rfl
    have htext : blanks ++ (['\x7b'] ++ (ms ++ (blanks' ++ ['\x7d']))) ++ rest =
        blanks ++ '\x7b' :: (ms ++ (blanks' ++ '\x7d' :: rest)) := by simp
    rw [htext]
    refine .again hstep ?_ hinside
    simp only [List.length_append, List.length_cons]
    omega

/-- The steps past the items of a list and its closing bracket. -/
theorem Loops.pastItems (items : List Tree) (fresh : Bool) {cs blanks rest out : List Char}
    {stack : List Bracket} (hs : Spaced (itemTokens fresh items) cs) (hb : Blank blanks)
    (next : Loops skipStep (stack, .inside false) rest () out) :
    Loops skipStep (.list :: stack, .inside fresh) (cs ++ (blanks ++ ']' :: rest)) () out := by
  cases items with
  | nil =>
    cases hs
    exact Loops.pastClosing hb next
  | cons T items =>
    have hclosed : Ended (blanks ++ ']' :: rest) := (ended_cons (.inr (.inl rfl))).blanks hb
    obtain ⟨lead, ds, hlead, hds, rfl⟩ := spaced_append_iff.mp hs
    obtain ⟨ts, is, hts, his, rfl⟩ := spaced_append_iff.mp hds
    have hrest := Loops.pastItems items false his hb next
    have hvalue := Loops.pastValue T hts (ended_items his hclosed) hrest
    cases fresh with
    | true =>
      cases hlead
      rw [List.nil_append, List.append_assoc]
      exact Loops.atFirst hts hvalue
    | false =>
      obtain ⟨blanks', hb', rfl⟩ := spaced_singleton_iff.mp hlead
      have htext : blanks' ++ [','] ++ (ts ++ is) ++ (blanks ++ ']' :: rest) =
          blanks' ++ ',' :: (ts ++ (is ++ (blanks ++ ']' :: rest))) := by simp
      rw [htext]
      exact Loops.pastComma hb' hvalue

/-- The steps past the members of an object and its closing brace. -/
theorem Loops.pastMembers (members : List (Quote × Tree)) (fresh : Bool)
    {cs blanks rest out : List Char} {stack : List Bracket}
    (hs : Spaced (memberTokens fresh members) cs) (hb : Blank blanks)
    (next : Loops skipStep (stack, .inside false) rest () out) :
    Loops skipStep (.object :: stack, .inside fresh) (cs ++ (blanks ++ '\x7d' :: rest)) () out := by
  cases members with
  | nil =>
    cases hs
    exact Loops.pastClosing hb next
  | cons m members =>
    have hclosed : Ended (blanks ++ '\x7d' :: rest) := (ended_cons (.inr (.inr rfl))).blanks hb
    have htokens : memberTokens fresh (m :: members) =
        comma fresh ++ [m.1.chars, [':']] ++ (m.2.tokens ++ memberTokens false members) := by
      simp [memberTokens]
    obtain ⟨ks, ds, hks, hds, rfl⟩ := spaced_append_iff.mp (htokens ▸ hs)
    obtain ⟨ts, ms, hts, hms, rfl⟩ := spaced_append_iff.mp hds
    have hrest := Loops.pastMembers members false hms hb next
    have hvalue := Loops.pastValue m.2 hts (ended_members hms hclosed) hrest
    rw [List.append_assoc, List.append_assoc]
    exact Loops.pastKey hks hvalue

end

/-- **Values are passed over.**  Whatever stands behind a value that has an end is left. -/
theorem skipValue_append {T : Tree} {cs rest : List Char} (hs : Spaced T.tokens cs)
    (hr : Ended rest) :
    skipValue (cs ++ rest) = .ok rest := by
  have hdone : Loops skipStep ([], .inside false) rest () rest := .done rfl
  rw [skipValue, (Loops.pastValue T hs hr hdone).loop_eq]
  rfl

end TaskWatch.Json
