import TaskWatch.Json.Codec
import TaskWatch.Proofs.Json.Passing

/-!
# Two readers of a plain value

A codec reads a value off the front of a text, or takes it from a value that has been read already.
However the value is written, both come to the same.

* `Alike`: outcomes of the two readers.  The first one leaves what stands behind the value.
* `Codec.Agrees`: what is asked of a codec.  `agrees_text`, `agrees_integer`,
  `Codec.Agrees.optional`, `agrees_choice`: the codecs of plain values.
-/

namespace TaskWatch.Json

/-! ## Outcomes -/

/-- A name that stands for nothing is what is wrong. -/
def Mismatch.IsVariant : Mismatch → Prop
  | .unknownVariant _ _ => True
  | _ => False

section Outcomes

variable {α β : Type} {mid rest : List Char}

/-- Both outcomes are one value, or both are errors.  An unknown name is told alike. -/
inductive Alike (rest : List Char) : Except Error (α × List Char) → Except Mismatch α → Prop
  | ok (a : α) : Alike rest (.ok (a, rest)) (.ok a)
  | error {e : Error} {m : Mismatch} (h : m.IsVariant → e = .data m) :
      Alike rest (.error e) (.error m)

variable {x : Except Error (α × List Char)} {y : Except Mismatch α}

theorem Alike.ok_iff (h : Alike rest x y) {a : α} : x = .ok (a, rest) ↔ y = .ok a := by
  cases h with
  | ok b => simp
  | error => simp

theorem Alike.eq_ok (h : Alike rest x y) {r : α × List Char} (hx : x = .ok r) :
    r.2 = rest ∧ y = .ok r.1 := by
  cases h with
  | ok b => cases hx; exact ⟨rfl, rfl⟩
  | error => cases hx

theorem Alike.eq_error (h : Alike rest x y) {m : Mismatch} (hm : m.IsVariant) (hy : y = .error m) :
    x = .error (.data m) := by
  cases h with
  | ok b => cases hy
  | error he =>
    cases hy
    rw [he hm]

theorem Alike.map (f : α → β) (h : Alike rest x y) :
    Alike rest (x.map fun r => (f r.1, r.2)) (y.map f) := by
  cases h with
  | ok a => exact .ok (f a)
  | error he => exact .error he

theorem Alike.bind {f : α × List Char → Except Error (β × List Char)} {g : α → Except Mismatch β}
    (h : Alike mid x y) (hf : ∀ a, y = .ok a → Alike rest (f (a, mid)) (g a)) :
    Alike rest (x >>= f) (y >>= g) := by
  cases h with
  | ok a => exact hf a rfl
  | error he => exact .error he

end Outcomes

theorem exists_error_bind {ε γ : Type} {x : Except ε γ} {f : γ → Except ε β}
    (h : ∀ a, x = .ok a → ∃ e, f a = .error e) : ∃ e, (x >>= f) = .error e := by
  cases x with
  | error e => exact ⟨e, rfl⟩
  | ok a => exact h a rfl

/-- A codec whose readers come to the same. -/
def Codec.Agrees {α : Type} (c : Codec α) : Prop :=
  ∀ ⦃T : Tree⦄ ⦃cs rest : List Char⦄, Spaced T.tokens cs → Ended rest →
    Alike rest (c.read (cs ++ rest)) (c.ofValue T.value)

/-! ## Values of the wrong kind -/

def Value.kind : Value → Kind
  | .null => .null
  | .boolean _ => .boolean
  | .number _ => .number
  | .string _ => .string
  | .list _ => .list
  | .object _ => .object

section Kinds

variable {α : Type} {T : Tree} {k : Kind} {c : Char} {cs rest : List Char}

/-- What is lost stands for a truth value, and what is not keeps its kind. -/
theorem kind_value (T : Tree) : T.value.kind = .boolean ∨ T.value.kind = T.kind := by
  cases T with
  | number n => rw [Tree.value]; split <;> simp [Value.kind, Value.lost, Tree.kind]
  | string q => rw [Tree.value]; split <;> simp [Value.kind, Value.lost, Tree.kind]
  | object members => rw [Tree.value]; split <;> simp [Value.kind, Value.lost, Tree.kind]
  | _ => exact .inr rfl

theorem exists_null (h : T.kind = .null) : T = .null := by
  cases T <;> first | rfl | cases h

theorem exists_number (h : T.kind = .number) : ∃ n, T = .number n := by
  cases T <;> first | exact ⟨_, rfl⟩ | cases h

theorem exists_string (h : T.kind = .string) : ∃ q, T = .string q := by
  cases T <;> first | exact ⟨_, rfl⟩ | cases h

theorem exists_list (h : T.kind = .list) : ∃ items, T = .list items := by
  cases T <;> first | exact ⟨_, rfl⟩ | cases h

theorem exists_object (h : T.kind = .object) : ∃ members, T = .object members := by
  cases T <;> first | exact ⟨_, rfl⟩ | cases h

theorem kind_value_ne (h : T.kind ≠ k) (hk : k ≠ .boolean) : T.value.kind ≠ k := by
  obtain heq | heq := kind_value T <;> rw [heq]
  · exact hk.symm
  · exact h

theorem ne_of_opens (hc : T.kind.Opens c) (h : T.kind ≠ k) {d : Char} (hd : k.Opens d) : c ≠ d := by
  rintro rfl
  exact h (hc.eq hd)

/-- Neither reader takes a value of the wrong kind. -/
theorem Alike.clash {e : Error} {f : Found} {w : Wanted} :
    Alike rest (.error e : Except Error (α × List Char)) (.error (.wrongType f w)) :=
      .error fun h => h.elim

end Kinds

/-! ## Plain values -/

section Plain

variable {T : Tree} {v : Value} {cs rest : List Char}

theorem ofValue_text_of_ne (h : v.kind ≠ .string) :
    Codec.text.ofValue v = .error (.wrongType v.found .string) := by
  cases v with
  | string s => exact absurd rfl h
  | _ => rfl

theorem agrees_text : Codec.text.Agrees := by
  intro T cs rest hs hr
  by_cases hkind : T.kind = .string
  · obtain ⟨q, rfl⟩ := exists_string hkind
    obtain ⟨blanks, hb, rfl⟩ := spaced_singleton_iff.mp hs
    have hread : Codec.text.read (blanks ++ q.chars ++ rest) = readText (q.body ++ rest) := by
      rw [List.append_assoc]
      change readString .string (blanks ++ '\x22' :: (q.body ++ rest)) = _
      rw [readString, skipBlank_lead hb rfl]
      rfl
    rw [hread, readText_body, Tree.value]
    cases q.text? with
    | none => exact .clash
    | some s => exact .ok s
  · obtain ⟨blanks, c, ds, hb, rfl, hc, -⟩ := T.exists_lead hs
    have hquote : c ≠ '\x22' := ne_of_opens hc hkind rfl
    have hread : Codec.text.read (blanks ++ c :: ds ++ rest) =
        .error (clash .string (c :: (ds ++ rest))) := by
      rw [List.append_assoc]
      change readString .string (blanks ++ c :: (ds ++ rest)) = _
      rw [readString, skipBlank_lead hb hc.isBlank_eq]
      exact if_neg hquote
    rw [hread, ofValue_text_of_ne (kind_value_ne hkind (by decide))]
    exact .clash

theorem ofValue_integer_of_ne {α : Type} {wanted : Wanted} {accept : Int → Option α}
    {toInt : α → Int} (h : v.kind ≠ .number) :
    (Codec.integer wanted accept toInt).ofValue v = .error (.wrongType v.found wanted) := by
  cases v with
  | number n => exact absurd rfl h
  | _ => rfl

theorem agrees_integer {α : Type} (wanted : Wanted) (accept : Int → Option α) (toInt : α → Int) :
    (Codec.integer wanted accept toInt).Agrees := by
  intro T cs rest hs hr
  by_cases hkind : T.kind = .number
  · obtain ⟨n, rfl⟩ := exists_number hkind
    obtain ⟨blanks, hb, rfl⟩ := spaced_singleton_iff.mp hs
    obtain ⟨c, ds, hchars, hc⟩ := n.chars_eq_cons
    have hnumber := readNumber_chars n hr.endsNumber
    rw [hchars, List.cons_append] at hnumber
    rw [hchars, List.append_assoc, List.cons_append, Tree.value]
    change Alike rest (readInteger wanted accept (blanks ++ c :: (ds ++ rest))) _
    rw [readInteger, skipBlank_lead hb (isBlank_signedDigits hc).1]
    simp only [hc, if_true, hnumber]
    cases n.literal.value with
    | error e => exact .clash
    | ok n =>
      cases n with
      | float negative size => exact .clash
      | integer n =>
        simp only [Codec.integer, Except.map]
        cases accept n with
        | none => exact .error fun h => h.elim
        | some a => exact .ok a
  · obtain ⟨blanks, c, ds, hb, rfl, hc, -⟩ := T.exists_lead hs
    have hne : ¬Kind.number.Opens c := fun h => hkind (hc.eq h)
    change ¬(c = '-' ∨ c.isDigit = true) at hne
    rw [List.append_assoc, ofValue_integer_of_ne (kind_value_ne hkind (by decide))]
    change Alike rest (readInteger wanted accept (blanks ++ c :: (ds ++ rest))) _
    rw [readInteger, skipBlank_lead hb hc.isBlank_eq]
    simp only [hne, if_false]
    exact .clash

theorem Codec.Agrees.optional {α : Type} {c : Codec α} (hc : c.Agrees) : c.optional.Agrees := by
  intro T cs rest hs hr
  obtain ⟨blanks, d, ds, hb, rfl, hd, hds⟩ := T.exists_lead hs
  by_cases hkind : T.kind = .null
  · obtain rfl := exists_null hkind
    obtain ⟨blanks', hb', htext⟩ := spaced_singleton_iff.mp hs
    rw [htext, List.append_assoc, Codec.optional]
    simp only [Tree.value, List.cons_append, List.nil_append,
      skipBlank_lead hb' (show isBlank 'n' = false from rfl)]
    exact .ok none
  · have hne : d ≠ 'n' := ne_of_opens hd hkind rfl
    have hread : c.optional.read (blanks ++ d :: ds ++ rest) =
        (c.read (d :: ds ++ rest)).map fun r => (some r.1, r.2) := by
      rw [List.append_assoc, Codec.optional, List.cons_append]
      simp only [skipBlank_lead hb hd.isBlank_eq]
      split
      · rename_i heq
        exact absurd (List.cons.inj heq).1 hne
      · rfl
    have hvalue : c.optional.ofValue T.value = (c.ofValue T.value).map some := by
      have hnull : T.value.kind ≠ .null := kind_value_ne hkind (by decide)
      cases hv : T.value with
      | null => exact absurd (congrArg Value.kind hv) hnull
      | _ => rfl
    rw [hread, hvalue]
    exact (hc hds hr).map some

end Plain

/-! ## Choices -/

section Choices

variable {α : Type} {blanks cs ms rest : List Char}

/-- A name means the same to both readers, and an unknown one is told alike. -/
theorem alike_ofName (c : Choice α) (s : String) (rest : List Char) :
    Alike rest (((c.ofName s).mapError .data).map (·, rest)) (c.ofName s) := by
  cases c.ofName s with
  | error m => exact .error fun _ => rfl
  | ok a => exact .ok a

/-- A `null` is passed over, and nothing else. -/
theorem readNull_append {T : Tree} (hs : Spaced T.tokens cs) (rest : List Char) :
    readNull (cs ++ rest) = .ok rest ∧ T = .null ∨
      (∃ e, readNull (cs ++ rest) = .error e) ∧ T.kind ≠ .null := by
  by_cases hkind : T.kind = .null
  · obtain rfl := exists_null hkind
    obtain ⟨blanks, hb, rfl⟩ := spaced_singleton_iff.mp hs
    refine .inl ⟨?_, rfl⟩
    rw [List.append_assoc, readNull, List.cons_append, skipBlank_lead hb rfl]
    rfl
  · obtain ⟨blanks, d, ds, hb, rfl, hd, -⟩ := T.exists_lead hs
    refine .inr ⟨⟨clash .unit (d :: (ds ++ rest)), ?_⟩, hkind⟩
    rw [List.append_assoc, readNull, List.cons_append, skipBlank_lead hb hd.isBlank_eq]
    exact if_neg (ne_of_opens hd hkind rfl)

/-- Neither reader takes an object that has not one member. -/
theorem Alike.unfit {e : Error} {m : Mismatch} (h : ¬m.IsVariant) :
    Alike rest (.error e : Except Error (α × List Char)) (.error m) := .error fun hm => absurd hm h

theorem length_memberValues? {members : List (Quote × Tree)} {vs : List (String × Value)}
    (h : memberValues? members = some vs) : vs.length = members.length := by
  induction members generalizing vs with
  | nil =>
    cases h
    rfl
  | cons m members ih =>
    rw [memberValues?] at h
    split at h
    · cases h
      rename_i hvs
      simp [ih hvs]
    · cases h

/-- An object in the place of a name: it has one member, or it is not taken. -/
theorem ofValue_choice_object [BEq α] (c : Choice α) {k : Quote} {s : String}
    (hk : k.text? = some s) (T : Tree) (more : List (Quote × Tree)) :
    (more = [] ∧ (Codec.choice c).ofValue (Tree.object ((k, T) :: more)).value =
      (c.ofName s).bind fun a =>
        match T.value with | .null => .ok a | v => .error (.wrongType v.found .unit)) ∨
    (more ≠ [] ∧ ∃ m, ¬m.IsVariant ∧
      (Codec.choice c).ofValue (Tree.object ((k, T) :: more)).value = .error m) := by
  cases more with
  | nil =>
    refine .inl ⟨rfl, ?_⟩
    rw [Tree.value, memberValues?, hk, memberValues?]
    rfl
  | cons m more =>
    refine .inr ⟨List.cons_ne_nil _ _, ?_⟩
    rw [Tree.value, memberValues?, hk]
    cases hmore : memberValues? (m :: more) with
    | none => exact ⟨.wrongType _ .stringOrMap, id, rfl⟩
    | some vs =>
      obtain ⟨v, vs, rfl⟩ := List.exists_cons_of_length_eq_add_one (length_memberValues? hmore)
      exact ⟨.manyMembers, id, rfl⟩

/-- Reads what stands behind the key of an object in the place of a name. -/
def readTagEnd (cs : List Char) : Except Error (List Char) := do
  let cs ← expectChar ':' cs
  let cs ← readNull cs
  expectChar '\x7d' cs

theorem readTagged_eq (c : Choice α) (cs : List Char) :
    c.readTagged cs = c.readKey cs >>= fun r => (readTagEnd r.2).map (r.1, ·) := by
  rw [Choice.readTagged]
  cases c.readKey cs with
  | error e => rfl
  | ok r =>
    simp only [readTagEnd, bind, Except.bind]
    cases expectChar ':' r.2 with
    | error e => rfl
    | ok cs =>
      simp only
      cases readNull cs with
      | error e => rfl
      | ok cs =>
        simp only
        cases expectChar '\x7d' cs <;> rfl

/-- Behind the key there is a `null` and the end of the object, or neither reader takes it. -/
theorem readTagEnd_append {T : Tree} {more : List (Quote × Tree)} {ts is : List Char}
    (hcs : Spaced [[':']] cs) (hts : Spaced T.tokens ts) (his : Spaced (memberTokens false more) is)
    (hb : Blank blanks) (rest : List Char) :
    T = .null ∧ more = [] ∧ readTagEnd (cs ++ (ts ++ (is ++ (blanks ++ '\x7d' :: rest)))) =
      .ok rest ∨
      (T.kind ≠ .null ∨ more ≠ []) ∧
        ∃ e, readTagEnd (cs ++ (ts ++ (is ++ (blanks ++ '\x7d' :: rest)))) = .error e := by
  obtain ⟨b, hb', rfl⟩ := spaced_singleton_iff.mp hcs
  have hread : ∀ text, readTagEnd (b ++ [':'] ++ text) = readNull text >>= expectChar '\x7d' := by
    intro text
    have hcolon := expectChar_lead hb' (show isBlank ':' = false from rfl) text
    rw [List.append_assoc, readTagEnd, List.singleton_append, hcolon]
    rfl
  rw [hread]
  obtain ⟨hnull, rfl⟩ | ⟨⟨e, he⟩, hkind⟩ := readNull_append hts (is ++ (blanks ++ '\x7d' :: rest))
  · rw [hnull]
    cases more with
    | nil =>
      cases his
      exact .inl ⟨rfl, rfl, expectChar_lead hb rfl rest⟩
    | cons m more =>
      obtain ⟨b, ds, hb, -, rfl⟩ := spaced_cons_iff.mp his
      refine .inr ⟨.inr (List.cons_ne_nil _ _), .malformed, ?_⟩
      have htext : b ++ ([','] ++ ds) ++ (blanks ++ '\x7d' :: rest) =
          b ++ ',' :: (ds ++ (blanks ++ '\x7d' :: rest)) := by simp
      change expectChar '\x7d' (b ++ ([','] ++ ds) ++ (blanks ++ '\x7d' :: rest)) = _
      rw [htext, expectChar, skipBlank_lead hb rfl]
      rfl
  · exact .inr ⟨.inl hkind, e, by rw [he]; rfl⟩

theorem alike_readTagged [BEq α] (c : Choice α) {members : List (Quote × Tree)}
    (hs : Spaced (memberTokens true members) ms) (hb : Blank blanks) (rest : List Char) :
    Alike rest (c.readTagged (ms ++ (blanks ++ '\x7d' :: rest)))
      ((Codec.choice c).ofValue (Tree.object members).value) := by
  rw [readTagged_eq]
  cases members with
  | nil =>
    cases hs
    have hkey : c.readKey (blanks ++ '\x7d' :: rest) = .error .malformed := by
      rw [Choice.readKey, skipBlank_lead hb rfl]
      rfl
    rw [List.nil_append, hkey]
    exact .unfit id
  | cons m more =>
    obtain ⟨k, T⟩ := m
    have htokens : memberTokens true ((k, T) :: more) =
        [k.chars] ++ ([[':']] ++ (T.tokens ++ memberTokens false more)) := by
      simp [memberTokens, comma]
    obtain ⟨ks, ds, hks, hds, rfl⟩ := spaced_append_iff.mp (htokens ▸ hs)
    obtain ⟨cs, es, hcs, hes, rfl⟩ := spaced_append_iff.mp hds
    obtain ⟨ts, is, hts, his, rfl⟩ := spaced_append_iff.mp hes
    obtain ⟨b, hb', rfl⟩ := spaced_singleton_iff.mp hks
    have htext : b ++ k.chars ++ (cs ++ (ts ++ is)) ++ (blanks ++ '\x7d' :: rest) =
        b ++ '\x22' :: (k.body ++ (cs ++ (ts ++ (is ++ (blanks ++ '\x7d' :: rest))))) := by
      simp [Quote.chars]
    have hkey : ∀ text, c.readKey (b ++ '\x22' :: (k.body ++ text)) =
        c.readName (k.body ++ text) := by
      intro text
      rw [Choice.readKey, skipBlank_lead hb' rfl]
      rfl
    rw [htext, hkey, Choice.readName, readText_body]
    cases hk : k.text? with
    | none =>
      rw [Tree.value, memberValues?, hk]
      exact .clash
    | some s =>
      have hname := alike_ofName c s (cs ++ (ts ++ (is ++ (blanks ++ '\x7d' :: rest))))
      have hend := readTagEnd_append hcs hts his hb rest
      obtain ⟨rfl, hvalue⟩ | ⟨hmore, m, hm, hvalue⟩ := ofValue_choice_object c hk T more
      · rw [hvalue]
        refine hname.bind fun a _ => ?_
        obtain ⟨rfl, -, hend⟩ | ⟨hkind, e, hend⟩ := hend
        · rw [hend]
          exact .ok a
        · have hnull : T.value.kind ≠ .null :=
            kind_value_ne (hkind.resolve_right fun h => h rfl) (by decide)
          rw [hend]
          cases hv : T.value with
          | null => exact absurd (congrArg Value.kind hv) hnull
          | _ => exact .clash
      · obtain ⟨e, he⟩ : ∃ e, (((c.ofName s).mapError .data).map
            (·, cs ++ (ts ++ (is ++ (blanks ++ '\x7d' :: rest)))) >>= fun r =>
              (readTagEnd r.2).map (r.1, ·)) =
              .error e := by
          refine exists_error_bind fun r hr => ?_
          obtain ⟨hrest, -⟩ := hname.eq_ok hr
          obtain ⟨-, rfl, -⟩ | ⟨-, e, hend⟩ := hend
          · exact absurd rfl hmore
          · exact ⟨e, by rw [hrest, hend]; rfl⟩
        rw [hvalue, he]
        exact .unfit hm

theorem ofValue_choice_of_ne [BEq α] (c : Choice α) {v : Value} (hs : v.kind ≠ .string)
    (ho : v.kind ≠ .object) :
    (Codec.choice c).ofValue v = .error (.wrongType v.found .stringOrMap) := by
  cases v with
  | string s => exact absurd rfl hs
  | object members => exact absurd rfl ho
  | _ => rfl

theorem agrees_choice [BEq α] (c : Choice α) : (Codec.choice c).Agrees := by
  intro T cs rest hs hr
  by_cases hstring : T.kind = .string
  · obtain ⟨q, rfl⟩ := exists_string hstring
    obtain ⟨blanks, hb, rfl⟩ := spaced_singleton_iff.mp hs
    have hread : (Codec.choice c).read (blanks ++ q.chars ++ rest) =
        c.readName (q.body ++ rest) := by
      rw [List.append_assoc, Codec.choice, Quote.chars, List.cons_append]
      simp only [skipBlank_lead hb (show isBlank '\x22' = false from rfl), if_true]
    rw [hread, Choice.readName, readText_body, Tree.value]
    cases q.text? with
    | none => exact .clash
    | some s => exact alike_ofName c s rest
  by_cases hobject : T.kind = .object
  · obtain ⟨members, rfl⟩ := exists_object hobject
    obtain ⟨blanks, ds, hb, hds, rfl⟩ := spaced_cons_iff.mp hs
    obtain ⟨ms, close, hms, hclose, rfl⟩ := spaced_append_iff.mp hds
    obtain ⟨blanks', hb', rfl⟩ := spaced_singleton_iff.mp hclose
    have hread :
      (Codec.choice c).read (blanks ++ (['\x7b'] ++ (ms ++ (blanks' ++ ['\x7d']))) ++ rest) =
        c.readTagged (ms ++ (blanks' ++ '\x7d' :: rest)) := by
      rw [Codec.choice]
      simp only [List.append_assoc, List.cons_append, List.nil_append,
        skipBlank_lead hb (show isBlank '\x7b' = false from rfl)]
      rfl
    rw [hread]
    exact alike_readTagged c hms hb' rest
  · obtain ⟨blanks, d, ds, hb, rfl, hd, -⟩ := T.exists_lead hs
    have hquote : d ≠ '\x22' := ne_of_opens hd hstring rfl
    have hbrace : d ≠ '\x7b' := ne_of_opens hd hobject rfl
    have hread : (Codec.choice c).read (blanks ++ d :: ds ++ rest) = .error .malformed := by
      rw [List.append_assoc, Codec.choice, List.cons_append]
      simp only [skipBlank_lead hb hd.isBlank_eq, hquote, hbrace, if_false]
    rw [hread, ofValue_choice_of_ne c (kind_value_ne hstring (by decide))
      (kind_value_ne hobject (by decide))]
    exact .clash

end Choices
end TaskWatch.Json
