import Mathlib.Algebra.Ring.Int.Defs
import Mathlib.Algebra.Ring.Nat
import TaskWatch.Json.Codec

/-!
# Plain values read back

What a codec of plain values writes it reads back, whatever stands behind it.  Only a number must
not go on there, so what stands behind a value begins as it can in a list, in an object or at the
end of a text.

* `Loops`: a row of steps that brings a loop to its result.  `Loops.loop_eq`: the loop gets there.
* `Parted`: what may stand behind a value.
* `readText_writeText`, `readNumber_signedDigits`: strings and integers.
* `Codec.ReadsBack`: what is asked of a codec.  `readsBack_text`, `readsBack_int64` and others: the
  codecs that do so.
-/

namespace TaskWatch.Json

open TaskWatch.Decimal
open TaskWatch.Text (hexDigit)

/-! ## Loops -/

section Loop

variable {σ β : Type} {step : σ → Reader (Turn σ β)} {s : σ} {cs rest : List Char} {b : β}

/-- Steps of a loop that lead to a result; each one but the last takes some of the text. -/
inductive Loops (step : σ → Reader (Turn σ β)) : σ → List Char → β → List Char → Prop
  | done {s : σ} {cs rest : List Char} {b : β} (h : step s cs = .ok (.done b, rest)) :
      Loops step s cs b rest
  | again {s s' : σ} {cs cs' rest : List Char} {b : β} (h : step s cs = .ok (.again s', cs'))
      (hlt : cs'.length < cs.length) (next : Loops step s' cs' b rest) : Loops step s cs b rest

theorem Loops.loopWithin_eq (h : Loops step s cs b rest) {fuel : Nat} (hf : cs.length < fuel) :
    loopWithin step fuel s cs = .ok (b, rest) := by
  induction h generalizing fuel with
  | done h =>
    obtain ⟨fuel, rfl⟩ := Nat.exists_eq_succ_of_ne_zero (Nat.ne_of_gt (Nat.zero_lt_of_lt hf))
    rw [loopWithin, h]
  | again h hlt next ih =>
    obtain ⟨fuel, rfl⟩ := Nat.exists_eq_succ_of_ne_zero (Nat.ne_of_gt (Nat.zero_lt_of_lt hf))
    rw [loopWithin, h]
    exact ih (by omega)

/-- A loop has as many steps as it needs. -/
theorem Loops.loop_eq (h : Loops step s cs b rest) : loop step s cs = .ok (b, rest) :=
  h.loopWithin_eq (Nat.lt_succ_self _)

end Loop

/-! ## What stands behind a value -/

/-- A text that is over, or goes on as it can behind an item or a member. -/
def Parted (rest : List Char) : Prop := ∀ c ∈ rest.head?, c = ',' ∨ c = ']' ∨ c = '}'

theorem parted_nil : Parted [] := nofun

theorem parted_cons {c : Char} {rest : List Char} (h : c = ',' ∨ c = ']' ∨ c = '}') :
    Parted (c :: rest) := by
  intro d hd
  obtain rfl := Option.some.inj hd
  exact h

theorem skipBlank_cons {c : Char} {cs : List Char} (h : isBlank c = false) :
    skipBlank (c :: cs) = c :: cs := List.dropWhile_cons_of_neg (by simp [h])

/-! ## Strings -/

theorem hexValue?_hexDigit : ∀ d, d < 16 → hexValue? (hexDigit d) = some d := by
  decide

theorem readEscape_control {c : Char} (h : c.toNat < 0x20) (rest : List Char) :
    readEscape ('u' :: '0' :: '0' :: hexDigit (c.toNat / 16) :: hexDigit (c.toNat % 16) :: rest) =
      .ok (c, rest) := by
  have h₁ := hexValue?_hexDigit (c.toNat / 16) (by omega)
  have h₂ := hexValue?_hexDigit (c.toNat % 16) (by omega)
  have h₀ : hexValue? '0' = some 0 := rfl
  have hsum : ((0 * 16 + 0) * 16 + c.toNat / 16) * 16 + c.toNat % 16 = c.toNat := by omega
  have hhex : readHex ('0' :: '0' :: hexDigit (c.toNat / 16) :: hexDigit (c.toNat % 16) :: rest) =
      .ok (c.toNat, rest) := by
    simp only [readHex, h₀, h₁, h₂, hsum]
  have hpoint : readCodePoint
      ('0' :: '0' :: hexDigit (c.toNat / 16) :: hexDigit (c.toNat % 16) :: rest) =
        .ok (c, rest) := by
    rw [readCodePoint, hhex]
    simp only
    rw [if_neg (by omega), if_neg (by omega), Char.ofNat_toNat]
  rw [readEscape, if_pos rfl, hpoint]

/-- Each character of a string is read back in one step. -/
theorem textStep_escapeChar (read : List Char) (c : Char) (rest : List Char) :
    textStep read (escapeChar c ++ rest) = .ok (.again (c :: read), rest) := by
  unfold escapeChar
  by_cases h₁ : c = '\x22'
  · subst h₁; rfl
  by_cases h₂ : c = '\\'
  · subst h₂; rfl
  by_cases h₃ : c = '\x08'
  · subst h₃; rfl
  by_cases h₄ : c = '\x0c'
  · subst h₄; rfl
  by_cases h₅ : c = '\n'
  · subst h₅; rfl
  by_cases h₆ : c = '\x0d'
  · subst h₆; rfl
  by_cases h₇ : c = '\t'
  · subst h₇; rfl
  rw [if_neg h₁, if_neg h₂, if_neg h₃, if_neg h₄, if_neg h₅, if_neg h₆, if_neg h₇]
  by_cases h : c.toNat < 0x20
  · rw [if_pos h]
    simp only [List.cons_append, List.nil_append]
    rw [textStep, if_neg (by decide), if_pos rfl, readEscape_control h]
  · rw [if_neg h, List.singleton_append, textStep, if_neg h₁, if_neg h₂, if_neg h]

theorem utf8Size_hexDigit : ∀ d, d < 16 → (hexDigit d).utf8Size = 1 := by
  decide

/-- A character of a string stands for itself, or is a letter behind a backslash, or four digits
behind two of them. -/
theorem escapeChar_eq (c : Char) : escapeChar c = [c] ∨ (∃ d, escapeChar c = ['\\', d]) ∨
    ∃ x y, x.utf8Size = 1 ∧ escapeChar c = ['\\', 'u', '0', '0', x, y] := by
  unfold escapeChar
  repeat' split
  iterate 7 exact Or.inr (Or.inl ⟨_, rfl⟩)
  · rename_i hlow
    exact Or.inr (Or.inr ⟨_, _, utf8Size_hexDigit (c.toNat / 16) (by omega), rfl⟩)
  · exact Or.inl rfl

theorem escapeChar_ne_nil (c : Char) : escapeChar c ≠ [] := by
  rcases escapeChar_eq c with h | ⟨d, h⟩ | ⟨x, y, -, h⟩ <;> simp [h]

theorem Loops.text (read cs rest : List Char) :
    Loops textStep read (cs.flatMap escapeChar ++ '\x22' :: rest)
      (String.ofList (read.reverse ++ cs)) rest := by
  induction cs generalizing read with
  | nil =>
    refine .done ?_
    rw [List.flatMap_nil, List.nil_append, textStep, if_pos rfl, List.append_nil]
  | cons c cs ih =>
    have hstep := textStep_escapeChar read c (cs.flatMap escapeChar ++ '\x22' :: rest)
    have hlen : 0 < (escapeChar c).length := List.length_pos_iff.mpr (escapeChar_ne_nil c)
    rw [List.flatMap_cons, List.append_assoc]
    refine .again hstep (by simp only [List.length_append]; omega) ?_
    simpa using ih (c :: read)

theorem readText_writeText (s : String) (rest : List Char) :
    readText (s.toList.flatMap escapeChar ++ '\x22' :: rest) = .ok (s, rest) := by
  have h := (Loops.text [] s.toList rest).loop_eq
  rw [List.reverse_nil, List.nil_append, String.ofList_toList] at h
  exact h

theorem writeText_append (s : String) (rest : List Char) :
    writeText s ++ rest = '\x22' :: (s.toList.flatMap escapeChar ++ '\x22' :: rest) := by
  simp [writeText]

/-! ## Integers -/

theorem isDigit_ne {c d : Char} (hc : c.isDigit = true) (hd : d.isDigit = false) : c ≠ d := by
  rintro rfl
  exact absurd (hc.symm.trans hd) nofun

theorem digits_eq_cons (n : Nat) : ∃ c cs, digits n = c :: cs ∧ c.isDigit = true := by
  cases h : digits n with
  | nil => exact absurd h (digits_ne_nil n)
  | cons c cs => exact ⟨c, cs, rfl, isDigit_of_mem_digits n c (h ▸ List.mem_cons_self)⟩

theorem readDigits_append {ds rest : List Char} (hne : ds ≠ []) (hd : ∀ c ∈ ds, c.isDigit = true)
    (hr : ∀ c ∈ rest.head?, c.isDigit = false) : readDigits (ds ++ rest) = .ok (ds, rest) := by
  obtain ⟨c, ds, rfl⟩ := List.exists_cons_of_ne_nil hne
  have hds : ∀ x ∈ ds, x.isDigit = true := fun x hx => hd x (List.mem_cons_of_mem _ hx)
  have hrest : rest.takeWhile Char.isDigit = [] ∧ rest.dropWhile Char.isDigit = rest := by
    cases rest with
    | nil => exact ⟨rfl, rfl⟩
    | cons x rest => simp [hr x rfl]
  rw [List.cons_append, readDigits, if_pos (hd c List.mem_cons_self),
    List.takeWhile_append_of_pos hds, List.dropWhile_append_of_pos hds, hrest.1, hrest.2,
    List.append_nil]

/-- No number of more than one digit begins with a zero. -/
theorem head?_digits_ne_zero {n : Nat} (h : 10 ≤ n) : (digits n).head? ≠ some '0' := by
  obtain ⟨c, cs, hc, -⟩ := digits_eq_cons (n / 10)
  have hhead : (digits n).head? = (digits (n / 10)).head? := by
    rw [digits, if_neg (by omega), hc, List.cons_append, List.head?_cons, List.head?_cons]
  rw [hhead]
  by_cases hn : n / 10 < 10
  · have hdigit : ∀ d, d < 10 → 0 < d → digitChar d ≠ '0' := by decide
    rw [digits, if_pos hn, List.head?_cons]
    exact fun hz => hdigit _ hn (by omega) (Option.some.inj hz)
  · exact head?_digits_ne_zero (by omega)
termination_by n
decreasing_by omega

theorem readWhole_digits (n : Nat) {rest : List Char} (hr : ∀ c ∈ rest.head?, c.isDigit = false) :
    readWhole (digits n ++ rest) = .ok (digits n, rest) := by
  have hlead : ¬((digits n).head? = some '0' ∧ 1 < (digits n).length) := by
    rintro ⟨hz, hlen⟩
    by_cases hn : n < 10
    · rw [digits, if_pos hn] at hlen
      simp at hlen
    · exact head?_digits_ne_zero (by omega) hz
  rw [readWhole, readDigits_append (digits_ne_nil n) (isDigit_of_mem_digits n) hr]
  simp only [bind, Except.bind]
  rw [if_neg hlead]

theorem Parted.head_eq {rest : List Char} (hp : Parted rest) :
    rest = [] ∨ ∃ c cs, rest = c :: cs ∧ (c = ',' ∨ c = ']' ∨ c = '}') := by
  cases rest with
  | nil => exact Or.inl rfl
  | cons c cs => exact Or.inr ⟨c, cs, rfl, hp c rfl⟩

theorem Parted.isDigit_head {rest : List Char} (hp : Parted rest) :
    ∀ c ∈ rest.head?, c.isDigit = false := by
  intro c hc
  rcases hp c hc with rfl | rfl | rfl <;> rfl

theorem Parted.readFraction_eq {rest : List Char} (hp : Parted rest) :
    readFraction rest = .ok ([], rest) := by
  obtain rfl | ⟨c, cs, rfl, rfl | rfl | rfl⟩ := hp.head_eq <;> rfl

theorem Parted.readExponent_eq {rest : List Char} (hp : Parted rest) :
    readExponent rest = .ok (none, rest) := by
  obtain rfl | ⟨c, cs, rfl, rfl | rfl | rfl⟩ := hp.head_eq <;> rfl

theorem readMinus_digits (n : Nat) (rest : List Char) :
    readMinus (digits n ++ rest) = (false, digits n ++ rest) := by
  obtain ⟨c, cs, h, hc⟩ := digits_eq_cons n
  have hne : c ≠ '-' := isDigit_ne hc rfl
  rw [h, List.cons_append, readMinus]
  rintro _ ⟨⟩
  exact hne rfl

theorem Literal.read_digits (n : Nat) {rest : List Char} (hp : Parted rest) :
    Literal.read (digits n ++ rest) = .ok (⟨false, digits n, [], none⟩, rest) := by
  rw [Literal.read, readMinus_digits]
  simp only [bind, Except.bind, readWhole_digits n hp.isDigit_head, hp.readFraction_eq,
    hp.readExponent_eq]

theorem Literal.read_minus_digits (n : Nat) {rest : List Char} (hp : Parted rest) :
    Literal.read ('-' :: (digits n ++ rest)) = .ok (⟨true, digits n, [], none⟩, rest) := by
  rw [Literal.read, readMinus]
  simp only [bind, Except.bind, readWhole_digits n hp.isDigit_head, hp.readFraction_eq,
    hp.readExponent_eq]

/-- Digits of a number below the limit are all absorbed. -/
theorem absorb_eq_of_lt {limit start : Nat} {cs : List Char} (h : extend start cs < limit) :
    absorb limit start cs = (extend start cs, []) := by
  induction cs generalizing start with
  | nil => rfl
  | cons c cs ih =>
    have hnext : extend start (c :: cs) = extend (start * 10 + digitValue c) cs := rfl
    rw [hnext] at h ⊢
    rw [absorb, if_pos (Nat.lt_of_le_of_lt (le_extend _ cs) h)]
    exact ih h

theorem absorb_digits {limit n : Nat} (h : n < limit) : absorb limit 0 (digits n) = (n, []) := by
  have hn : extend 0 (digits n) = n := ofDigits_digits n
  rw [absorb_eq_of_lt (by rw [hn]; exact h), hn]

theorem Literal.value_digits {n : Nat} (h : n < 2 ^ 64) :
    (⟨false, digits n, [], none⟩ : Literal).value = .ok (.integer n) := by
  have habsorb : absorb UInt64.size 0 (digits n) = (n, []) := absorb_digits h
  rw [value]
  simp only [habsorb]
  rfl

theorem Literal.value_minus_digits {n : Nat} (hpos : 0 < n) (h : n ≤ 2 ^ 63) :
    (⟨true, digits n, [], none⟩ : Literal).value = .ok (.integer (-n)) := by
  have habsorb : absorb UInt64.size 0 (digits n) = (n, []) :=
    absorb_digits (Nat.lt_of_le_of_lt h (by decide))
  have hbound : 0 < n ∧ n ≤ UInt64.size / 2 := ⟨hpos, h⟩
  rw [value]
  simp only [habsorb]
  simp [hbound]

theorem readNumber_signedDigits {n : Int} (hlow : -(2 ^ 63) ≤ n) (hhigh : n < 2 ^ 64)
    {rest : List Char} (hp : Parted rest) :
    readNumber (signedDigits n ++ rest) = .ok (.integer n, rest) := by
  cases n with
  | ofNat n =>
    have hn : n < 2 ^ 64 := Int.ofNat_lt.mp hhigh
    rw [signedDigits, readNumber, Literal.read_digits n hp]
    simp only [bind, Except.bind, Literal.value_digits hn]
    rfl
  | negSucc n =>
    have hn : n + 1 ≤ 2 ^ 63 := by
      rw [Int.negSucc_eq] at hlow
      omega
    rw [signedDigits, List.cons_append, readNumber, Literal.read_minus_digits (n + 1) hp]
    simp only [bind, Except.bind, Literal.value_minus_digits (Nat.succ_pos n) hn]
    rfl

/-! ## Codecs -/

/-- A codec that reads back what it has written, and writes nothing that looks like the end of a
list. -/
structure Codec.ReadsBack {α : Type} (c : Codec α) : Prop where
  head : ∀ a, ∃ d ds, c.write a = d :: ds ∧ isBlank d = false ∧ d ≠ ']'
  read_write : ∀ a rest, Parted rest → c.read (c.write a ++ rest) = .ok (a, rest)

theorem readsBack_text : Codec.text.ReadsBack where
  head s := ⟨'\x22', _, rfl, rfl, by decide⟩
  read_write s rest _ := by
    show readString .string (writeText s ++ rest) = .ok (s, rest)
    rw [writeText_append, readString, skipBlank_cons (by decide)]
    exact readText_writeText s rest

theorem signedDigits_eq_cons (n : Int) :
    ∃ c cs, signedDigits n = c :: cs ∧ (c = '-' ∨ c.isDigit = true) := by
  cases n with
  | ofNat n =>
    obtain ⟨c, cs, h, hc⟩ := digits_eq_cons n
    exact ⟨c, cs, h, Or.inr hc⟩
  | negSucc n => exact ⟨'-', _, rfl, Or.inl rfl⟩

theorem isBlank_of_isDigit {c : Char} (h : c.isDigit = true) : isBlank c = false := by
  have hspace : c ≠ ' ' := isDigit_ne h rfl
  have hline : c ≠ '\n' := isDigit_ne h rfl
  have htab : c ≠ '\t' := isDigit_ne h rfl
  have hreturn : c ≠ '\x0d' := isDigit_ne h rfl
  simp [isBlank, hspace, hline, htab, hreturn]

theorem isBlank_signedDigits {c : Char} (h : c = '-' ∨ c.isDigit = true) :
    isBlank c = false ∧ c ≠ ']' ∧ c ≠ 'n' := by
  rcases h with rfl | h
  · decide
  · exact ⟨isBlank_of_isDigit h, isDigit_ne h rfl, isDigit_ne h rfl⟩

/-- Integers are read back when each one is within 64 bits and gives its value. -/
theorem readsBack_integer {α : Type} {wanted : Wanted} {accept : Int → Option α} {toInt : α → Int}
    (hlow : ∀ a, -(2 ^ 63) ≤ toInt a) (hhigh : ∀ a, toInt a < 2 ^ 64)
    (ha : ∀ a, accept (toInt a) = some a) : (Codec.integer wanted accept toInt).ReadsBack where
  head a := by
    obtain ⟨c, cs, h, hc⟩ := signedDigits_eq_cons (toInt a)
    obtain ⟨hblank, hclose, -⟩ := isBlank_signedDigits hc
    exact ⟨c, cs, h, hblank, hclose⟩
  read_write a rest hp := by
    obtain ⟨c, cs, h, hc⟩ := signedDigits_eq_cons (toInt a)
    have hread := readNumber_signedDigits (hlow a) (hhigh a) hp
    show readInteger wanted accept (signedDigits (toInt a) ++ rest) = .ok (a, rest)
    rw [h, List.cons_append] at hread ⊢
    rw [readInteger, skipBlank_cons (isBlank_signedDigits hc).1]
    simp only
    rw [if_pos hc, hread]
    simp only
    rw [ha]

theorem readsBack_int64 : Codec.int64.ReadsBack := by
  have hlow : ∀ a : Int64, -(2 ^ 63) ≤ a.toInt := Int64.le_toInt
  have hhigh : ∀ a : Int64, a.toInt < 2 ^ 63 := Int64.toInt_lt
  refine readsBack_integer hlow (fun a => Int.lt_trans (hhigh a) (by decide)) fun a => ?_
  rw [if_pos ⟨hlow a, Int.le_of_lt_add_one (hhigh a)⟩, Int64.ofInt_toInt]

theorem readsBack_uint32 : Codec.uint32.ReadsBack := by
  have hlt : ∀ a : UInt32, (a.toNat : Int) < UInt32.size := fun a => Int.ofNat_lt.mpr a.toNat_lt
  refine readsBack_integer (fun a => by omega) (fun a => Int.lt_trans (hlt a) (by decide))
    fun a => ?_
  rw [if_pos ⟨Int.natCast_nonneg _, hlt a⟩, Int.toNat_natCast, UInt32.ofNat_toNat]

theorem readsBack_uint64 : Codec.uint64.ReadsBack := by
  have hlt : ∀ a : UInt64, (a.toNat : Int) < UInt64.size := fun a => Int.ofNat_lt.mpr a.toNat_lt
  refine readsBack_integer (fun a => by omega) hlt fun a => ?_
  rw [if_pos ⟨Int.natCast_nonneg _, hlt a⟩, Int.toNat_natCast, UInt64.ofNat_toNat]

/-- A value that may be missing is read back unless it looks like `null`. -/
theorem Codec.ReadsBack.optional {α : Type} {c : Codec α} (hc : c.ReadsBack)
    (hn : ∀ a, (c.write a).head? ≠ some 'n') : c.optional.ReadsBack where
  head
    | none => ⟨'n', _, rfl, rfl, by decide⟩
    | some a => hc.head a
  read_write
    | none, rest, _ => rfl
    | some a, rest, hp => by
      obtain ⟨d, ds, h, hblank, -⟩ := hc.head a
      have hread := hc.read_write a rest hp
      have hd : d ≠ 'n' := fun hd => hn a (by rw [h, hd]; rfl)
      show c.optional.read (c.write a ++ rest) = .ok (some a, rest)
      rw [h, List.cons_append] at hread ⊢
      rw [Codec.optional]
      simp only [skipBlank_cons hblank]
      split
      · rename_i heq
        exact absurd (List.cons.inj heq).1 hd
      · rw [hread]
        rfl

theorem head?_write_uint64 (a : UInt64) : (Codec.uint64.write a).head? ≠ some 'n' := by
  obtain ⟨c, cs, h, hc⟩ := signedDigits_eq_cons a.toNat
  have hhead : (Codec.uint64.write a).head? = some c := congrArg List.head? h
  rw [hhead]
  exact fun heq => (isBlank_signedDigits hc).2.2 (Option.some.inj heq)

/-- Choices are read back when each name stands for its value. -/
theorem readsBack_choice {α : Type} [BEq α] {c : Choice α} (h : ∀ a, c.ofName (c.name a) = .ok a) :
    (Codec.choice c).ReadsBack where
  head a := ⟨'\x22', _, rfl, rfl, by decide⟩
  read_write a rest _ := by
    show (Codec.choice c).read (writeText (c.name a) ++ rest) = .ok (a, rest)
    rw [writeText_append, Codec.choice]
    simp only [skipBlank_cons (show isBlank '\x22' = false from rfl), if_true]
    rw [Choice.readName, readText_writeText]
    simp only
    rw [h a]
    rfl

/-- What a codec has written stands for the value as a whole text. -/
theorem Codec.ReadsBack.decode_encode {α : Type} {c : Codec α} (hc : c.ReadsBack) (a : α) :
    c.decode (c.encode a) = .ok a := by
  have hread := hc.read_write a [] parted_nil
  rw [List.append_nil] at hread
  rw [Codec.decode, Codec.encode, String.toList_ofList, hread]
  rfl

end TaskWatch.Json
