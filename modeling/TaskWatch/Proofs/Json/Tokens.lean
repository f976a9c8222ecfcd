import TaskWatch.Proofs.Json.Grammar
import TaskWatch.Proofs.Json.Plain

/-!
# Tokens read

Strings and numbers are read off the front of a text as they are written, whatever escapes and
digits are chosen for them.  A number must have an end.

* `readText_body`: a string gives its text, or is no JSON if it stands for none.
* `Loops.skipText`: it is passed over in either case.
* `Literal.read_chars`: a number gives its parts.
-/

namespace TaskWatch.Json

/-! ## Strings -/

theorem readHex_unit (u : CodeUnit) (rest : List Char) :
    readHex (u.a :: u.b :: u.c :: u.d :: rest) = .ok (u.value, rest) := by
  have hsome : ∀ x ∈ [u.a, u.b, u.c, u.d], ∃ n, hexValue? x = some n := fun x hx =>
    Option.isSome_iff_exists.mp (u.hex x hx)
  obtain ⟨a, ha⟩ := hsome u.a (by simp)
  obtain ⟨b, hb⟩ := hsome u.b (by simp)
  obtain ⟨c, hc⟩ := hsome u.c (by simp)
  obtain ⟨d, hd⟩ := hsome u.d (by simp)
  simp [readHex, CodeUnit.value, ha, hb, hc, hd]

theorem textStep_plain {c : Char} (h : c ≠ '\x22' ∧ c ≠ '\\' ∧ ¬c.toNat < 0x20)
    (read rest : List Char) :
    textStep read ((Part.plain c h).chars ++ rest) = .ok (.again (c :: read), rest) := by
  change textStep read (c :: rest) = _
  rw [textStep, if_neg h.1, if_neg h.2.1, if_neg h.2.2]

theorem ne_of_shortEscape {l c : Char} (h : shortEscapes.lookup l = some c) : l ≠ 'u' := by
  rintro rfl
  cases h

theorem textStep_letter {l c : Char} (h : shortEscapes.lookup l = some c) (read rest : List Char) :
    textStep read ((Part.letter l c h).chars ++ rest) = .ok (.again (c :: read), rest) := by
  change textStep read ('\\' :: l :: rest) = _
  have hescape : readEscape (l :: rest) = .ok (c, rest) := by
    rw [readEscape, if_neg (ne_of_shortEscape h), h]
  rw [textStep, if_neg (by decide), if_pos rfl, hescape]

/-- A number behind a backslash gives what the reader of code points makes of it. -/
theorem textStep_unit (u : CodeUnit) (read rest : List Char) :
    textStep read ((Part.unit u).chars ++ rest) =
      (if u.IsLow then .error .malformed else if u.IsHigh then readLow u.value rest
        else .ok (Char.ofNat u.value, rest)).map fun r => (.again (r.1 :: read), r.2) := by
  have hpoint : readEscape ('u' :: u.a :: u.b :: u.c :: u.d :: rest) =
      if u.IsLow then .error .malformed else if u.IsHigh then readLow u.value rest
        else .ok (Char.ofNat u.value, rest) := by
    rw [readEscape, if_pos rfl, readCodePoint, readHex_unit]
    rfl
  change textStep read ('\\' :: 'u' :: u.a :: u.b :: u.c :: u.d :: rest) = _
  rw [textStep, if_neg (by decide), if_pos rfl, hpoint]
  cases (if u.IsLow then Except.error Error.malformed else if u.IsHigh then readLow u.value rest
    else .ok (Char.ofNat u.value, rest)) <;> rfl

theorem readLow_unit (high low : CodeUnit) (rest : List Char) :
    readLow high.value ((Part.unit low).chars ++ rest) =
      if low.IsLow then .ok (pairChar high low, rest) else .error .malformed := by
  change readLow high.value ('\\' :: 'u' :: low.a :: low.b :: low.c :: low.d :: rest) = _
  rw [readLow, readHex_unit]
  rfl

/-- Half a pair wants the other half right behind it. -/
theorem readLow_body {q : Quote} (h : ∀ v q', q ≠ .unit v :: q') (high : Nat) (rest : List Char) :
    readLow high (q.body ++ rest) = .error .malformed := by
  cases q with
  | nil => rfl
  | cons p q =>
    cases p with
    | plain c hc =>
      change readLow high (c :: (Quote.body q ++ rest)) = _
      unfold readLow
      split <;> simp_all
    | letter l c hl =>
      have hne : l ≠ 'u' := ne_of_shortEscape hl
      change readLow high ('\\' :: l :: (Quote.body q ++ rest)) = _
      unfold readLow
      split <;> simp_all
    | unit v => exact absurd rfl (h v q)

theorem body_cons (p : Part) (q : Quote) (rest : List Char) :
    Quote.body (p :: q) ++ rest = p.chars ++ (q.body ++ rest) := by
  simp [Quote.body]

theorem length_lt_chars_append (p : Part) (rest : List Char) :
    rest.length < (p.chars ++ rest).length := by
  have hpos : 0 < p.chars.length := by cases p <;> exact Nat.succ_pos _
  rw [List.length_append]
  omega

/-- What the rest of a string comes to when some of it has been read. -/
def textOutcome (read rest : List Char) : Option (List Char) → Except Error (String × List Char)
  | some cs => .ok (String.ofList (read.reverse ++ cs), rest)
  | none => .error .malformed

section Steps

variable {read cs rest : List Char} {c : Char} {q : Quote} {fuel : Nat}

theorem loopWithin_of_again (hstep : textStep read cs = .ok (.again (c :: read), q.body ++ rest))
    (hf : cs.length < fuel) (hlt : (q.body ++ rest).length < cs.length)
    (ih : ∀ {fuel : Nat}, (q.body ++ rest).length < fuel →
      loopWithin textStep fuel (c :: read) (q.body ++ rest) =
        textOutcome (c :: read) rest q.letters?) :
    loopWithin textStep fuel read cs = textOutcome read rest (q.letters?.map (c :: ·)) := by
  obtain ⟨fuel, rfl⟩ := Nat.exists_eq_add_one.mpr (Nat.zero_lt_of_lt hf)
  rw [loopWithin, hstep]
  refine (ih (by omega)).trans ?_
  cases q.letters? <;> simp [textOutcome]

theorem loopWithin_of_error (rest : List Char) (hstep : textStep read cs = .error .malformed)
    (hf : cs.length < fuel) : loopWithin textStep fuel read cs = textOutcome read rest none := by
  obtain ⟨fuel, rfl⟩ := Nat.exists_eq_add_one.mpr (Nat.zero_lt_of_lt hf)
  rw [loopWithin, hstep, textOutcome]

end Steps

/-- The characters of a string are read one by one, the halves of a pair together. -/
theorem loopWithin_body (q : Quote) (read rest : List Char) {fuel : Nat}
    (hf : (q.body ++ rest).length < fuel) :
    loopWithin textStep fuel read (q.body ++ rest) = textOutcome read rest q.letters? := by
  induction q using Quote.letters?.induct generalizing read fuel with
  | case1 =>
    obtain ⟨fuel, rfl⟩ := Nat.exists_eq_add_one.mpr (Nat.zero_lt_of_lt hf)
    have hstep : textStep read ('\x22' :: rest) =
        .ok (.done (String.ofList read.reverse), rest) := by
      rw [textStep, if_pos rfl]
    change loopWithin textStep (fuel + 1) read ('\x22' :: rest) = _
    rw [loopWithin, hstep, Quote.letters?, textOutcome, List.append_nil]
  | case2 c h q ih =>
    rw [body_cons] at hf ⊢
    exact loopWithin_of_again (textStep_plain h read _) hf (length_lt_chars_append _ _)
      (ih (c :: read))
  | case3 l c h q ih =>
    rw [body_cons] at hf ⊢
    exact loopWithin_of_again (textStep_letter h read _) hf (length_lt_chars_append _ _)
      (ih (c :: read))
  | case4 u q hlow =>
    have hstep := textStep_unit u read (Quote.body q ++ rest)
    rw [if_pos hlow] at hstep
    rw [body_cons] at hf ⊢
    rw [loopWithin_of_error rest hstep hf, Quote.letters?.eq_def]
    simp only [hlow, if_true]
  | case5 u hlow hhigh v q hv ih =>
    have hstep := textStep_unit u read (Quote.body (.unit v :: q) ++ rest)
    rw [if_neg hlow, if_pos hhigh, body_cons, readLow_unit, if_pos hv, Except.map] at hstep
    rw [body_cons, body_cons] at hf ⊢
    have hlt := Nat.lt_trans (length_lt_chars_append (.unit v) (Quote.body q ++ rest))
      (length_lt_chars_append (.unit u) _)
    refine (loopWithin_of_again hstep hf hlt (ih _)).trans ?_
    rw [Quote.letters?.eq_def (.unit u :: _)]
    simp only [hlow, hhigh, hv, if_true, if_false]
  | case6 u hlow hhigh v q hv =>
    have hstep := textStep_unit u read (Quote.body (.unit v :: q) ++ rest)
    rw [if_neg hlow, if_pos hhigh, body_cons, readLow_unit, if_neg hv] at hstep
    rw [body_cons, body_cons] at hf ⊢
    rw [loopWithin_of_error rest hstep hf, Quote.letters?.eq_def]
    simp only [hlow, hhigh, hv, if_true, if_false]
  | case7 u q hlow hhigh hq =>
    have hstep := textStep_unit u read (Quote.body q ++ rest)
    rw [if_neg hlow, if_pos hhigh, readLow_body hq] at hstep
    rw [body_cons] at hf ⊢
    rw [loopWithin_of_error rest hstep hf, Quote.letters?.eq_def]
    simp only [hlow, hhigh, if_true, if_false]
  | case8 u q hlow hhigh ih =>
    have hstep := textStep_unit u read (Quote.body q ++ rest)
    rw [if_neg hlow, if_neg hhigh] at hstep
    rw [body_cons] at hf ⊢
    refine (loopWithin_of_again hstep hf (length_lt_chars_append _ _) (ih (_ :: read))).trans ?_
    rw [Quote.letters?.eq_def (.unit u :: _)]
    simp only [hlow, hhigh, if_false]

theorem readText_body (q : Quote) (rest : List Char) :
    readText (q.body ++ rest) =
      match q.text? with
      | some s => .ok (s, rest)
      | none => .error .malformed := by
  have hloop := loopWithin_body q [] rest (Nat.lt_succ_self _)
  rw [readText, loop, hloop, Quote.text?]
  cases q.letters? <;> rfl

/-- Any string is passed over. -/
theorem Loops.skipText (q : Quote) (rest : List Char) :
    Loops skipTextStep () (q.body ++ rest) () rest := by
  induction q with
  | nil => exact .done rfl
  | cons p q ih =>
    rw [body_cons]
    refine .again ?_ (length_lt_chars_append p _) ih
    cases p with
    | plain c h =>
      change skipTextStep () (c :: _) = _
      rw [skipTextStep, if_neg h.1, if_neg h.2.1, if_neg h.2.2]
      rfl
    | letter l c h =>
      change skipTextStep () ('\\' :: l :: _) = _
      rw [skipTextStep, if_neg (by decide), if_pos rfl, skipEscape, if_neg (ne_of_shortEscape h), h]
      rfl
    | unit u =>
      change skipTextStep () ('\\' :: 'u' :: u.a :: u.b :: u.c :: u.d :: _) = _
      rw [skipTextStep, if_neg (by decide), if_pos rfl, skipEscape, if_pos rfl, readHex_unit]
      rfl

theorem skipText_body (q : Quote) (rest : List Char) : skipText (q.body ++ rest) = .ok rest := by
  rw [skipText, (Loops.skipText q rest).loop_eq]
  rfl

/-! ## Numbers -/

section Numbers

variable {rest : List Char}

structure EndsNumber (rest : List Char) : Prop where
  digit : ∀ c ∈ rest.head?, c.isDigit = false
  point : rest.head? ≠ some '.'
  small : rest.head? ≠ some 'e'
  capital : rest.head? ≠ some 'E'

theorem Ended.endsNumber (h : Ended rest) : EndsNumber rest := by
  have hhead : ∀ c ∈ rest.head?, c.isDigit = false ∧ c ≠ '.' ∧ c ≠ 'e' ∧ c ≠ 'E' := by
    intro c hc
    obtain hblank | rfl | rfl | rfl := h c hc
    · simp only [isBlank, Bool.or_eq_true, beq_iff_eq] at hblank
      obtain ((rfl | rfl) | rfl) | rfl := hblank <;> decide
    all_goals decide
  exact ⟨fun c hc => (hhead c hc).1, fun hc => (hhead _ hc).2.1 rfl,
    fun hc => (hhead _ hc).2.2.1 rfl,
    fun hc => (hhead _ hc).2.2.2 rfl⟩

theorem Digits.readDigits_append (ds : Digits) (h : ∀ c ∈ rest.head?, c.isDigit = false) :
    readDigits (ds.chars ++ rest) = .ok (ds.chars, rest) :=
  TaskWatch.Json.readDigits_append ds.ne_nil ds.isDigit h

theorem Digits.eq_cons (ds : Digits) : ∃ c cs, ds.chars = c :: cs ∧ c.isDigit = true := by
  obtain ⟨c, cs, h⟩ := List.exists_cons_of_ne_nil ds.ne_nil
  exact ⟨c, cs, h, ds.isDigit c (h ▸ List.mem_cons_self)⟩

theorem readSign_append (sign : Option Bool) (ds : Digits) (rest : List Char) :
    readSign (signChars sign ++ (ds.chars ++ rest)) = (sign.getD false, ds.chars ++ rest) := by
  match sign with
  | some true => rfl
  | some false => rfl
  | none =>
    obtain ⟨c, cs, h, hc⟩ := ds.eq_cons
    have hplus : c ≠ '+' := isDigit_ne hc rfl
    have hminus : c ≠ '-' := isDigit_ne hc rfl
    rw [h]
    change readSign (c :: (cs ++ rest)) = _
    unfold readSign
    split <;> simp_all

theorem EndsNumber.readExponent_eq (h : EndsNumber rest) :
    readExponent rest = .ok (none, rest) := by
  cases rest with
  | nil => rfl
  | cons c rest =>
    rw [readExponent, if_neg]
    rintro (rfl | rfl)
    · exact h.small rfl
    · exact h.capital rfl

theorem readExponent_append (e : Option Exponent) (h : EndsNumber rest) :
    readExponent (Numeral.exponentChars e ++ rest) =
      .ok (e.map fun e => (e.sign.getD false, e.digits.chars), rest) := by
  cases e with
  | none => exact h.readExponent_eq
  | some e =>
    have hletter :
        (if e.capital then 'E' else 'e') = 'e' ∨ (if e.capital then 'E' else 'e') = 'E' := by
      cases e.capital <;> simp
    rw [Numeral.exponentChars, Exponent.chars, List.cons_append, List.append_assoc, readExponent,
      if_pos hletter]
    simp only [readSign_append, e.digits.readDigits_append h.digit, bind, Except.bind]
    rfl

/-- An exponent does not go on the digits before it, nor is it a fraction. -/
theorem isDigit_head?_exponentChars (e : Option Exponent) (h : EndsNumber rest) :
    (∀ c ∈ (Numeral.exponentChars e ++ rest).head?, c.isDigit = false) ∧
      (Numeral.exponentChars e ++ rest).head? ≠ some '.' := by
  cases e with
  | none => exact ⟨h.digit, h.point⟩
  | some e =>
    obtain ⟨capital, sign, ds⟩ := e
    cases capital <;>
      exact ⟨fun c hc => by cases hc; rfl, by simp [Numeral.exponentChars, Exponent.chars]⟩

theorem readFraction_eq {cs : List Char} (h : cs.head? ≠ some '.') :
    readFraction cs = .ok ([], cs) := by
  unfold readFraction
  split
  · exact absurd rfl h
  · rfl

theorem readFraction_append (ds : Option Digits) (e : Option Exponent) (h : EndsNumber rest) :
    readFraction (Numeral.fractionChars ds ++ (Numeral.exponentChars e ++ rest)) =
      .ok ((ds.map Digits.chars).getD [], Numeral.exponentChars e ++ rest) := by
  obtain ⟨hdigit, hpoint⟩ := isDigit_head?_exponentChars e h
  cases ds with
  | none => exact readFraction_eq hpoint
  | some ds => exact ds.readDigits_append hdigit

theorem isDigit_head?_fractionChars (ds : Option Digits) (e : Option Exponent)
    (h : EndsNumber rest) :
    ∀ c ∈ (Numeral.fractionChars ds ++ (Numeral.exponentChars e ++ rest)).head?,
      c.isDigit = false := by
  cases ds with
  | none => exact (isDigit_head?_exponentChars e h).1
  | some ds =>
    rintro _ ⟨⟩
    rfl

theorem readMinus_append (negative : Bool) (ds : Digits) (rest : List Char) :
    readMinus ((if negative then ['-'] else []) ++ (ds.chars ++ rest)) =
      (negative, ds.chars ++ rest) := by
  cases negative with
  | true => rfl
  | false =>
    obtain ⟨c, cs, h, hc⟩ := ds.eq_cons
    have hminus : c ≠ '-' := isDigit_ne hc rfl
    rw [h]
    change readMinus (c :: (cs ++ rest)) = _
    unfold readMinus
    split <;> simp_all

/-- A number is split into its parts. -/
theorem Literal.read_chars (n : Numeral) (h : EndsNumber rest) :
    Literal.read (n.chars ++ rest) = .ok (n.literal, rest) := by
  have hwhole : readWhole (n.whole.chars ++
      (Numeral.fractionChars n.fraction ++ (Numeral.exponentChars n.exponent ++ rest))) =
      .ok (n.whole.chars,
        Numeral.fractionChars n.fraction ++ (Numeral.exponentChars n.exponent ++ rest)) := by
    rw [readWhole, n.whole.readDigits_append (isDigit_head?_fractionChars n.fraction n.exponent h)]
    exact if_neg n.lead
  rw [Numeral.chars, List.append_assoc, List.append_assoc, List.append_assoc, Literal.read,
    readMinus_append]
  simp only [hwhole, readFraction_append n.fraction n.exponent h,
    readExponent_append n.exponent h, bind, Except.bind]
  rfl

theorem skipNumber_chars (n : Numeral) (h : EndsNumber rest) :
    skipNumber (n.chars ++ rest) = .ok rest := by
  rw [skipNumber, Literal.read_chars n h]

/-- A number gives its value, if it has one. -/
theorem readNumber_chars (n : Numeral) (h : EndsNumber rest) :
    readNumber (n.chars ++ rest) = n.literal.value.map (·, rest) := by
  rw [readNumber, Literal.read_chars n h]
  simp only [bind, Except.bind]
  cases n.literal.value <;> rfl

/-- A number begins with a digit or a minus sign. -/
theorem Numeral.chars_eq_cons (n : Numeral) :
    ∃ c cs, n.chars = c :: cs ∧ (c = '-' ∨ c.isDigit = true) := by
  obtain ⟨c, cs, hcons, hc⟩ := n.whole.eq_cons
  rw [Numeral.chars, hcons]
  cases n.negative with
  | true => exact ⟨'-', _, rfl, .inl rfl⟩
  | false => exact ⟨c, _, rfl, .inr hc⟩

end Numbers
end TaskWatch.Json
