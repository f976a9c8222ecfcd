import TaskWatch.Proofs.Json.Plain

/-!
# Plain values cut off

A text can break off anywhere: inside an escape, a number, a word, or between two characters of a
string.  What a reader makes of the rest is that the text ends too early.  Only a number does not
show that digits are missing, and is then read to the end of the text as another number.

* `Cut`: a text that has lost something at its end.
* `Breaks`: a row of steps that brings a loop to the end of its text.
* `readText_cut`: strings.  `exists_digits_of_prefix`: what is left of a number is a number.
* `Codec.EndsEarly`, `Codec.EndsWithin`: what is asked of a codec.  `endsEarly_text`,
  `endsWithin_int64` and others: the codecs that do so.
-/

namespace TaskWatch.Json

open TaskWatch.Decimal
open TaskWatch.Text (octetCount)

/-! ## Cutting -/

/-- A text that has lost something at its end. -/
def Cut (front whole : List Char) : Prop := front <+: whole ∧ front ≠ whole

section Cutting

variable {front cs ds : List Char} {c : Char}

theorem not_cut_nil : ¬Cut front [] := by
  rintro ⟨hp, hne⟩
  exact hne (List.prefix_nil.mp hp)

theorem cut_nil (h : cs ≠ []) : Cut [] cs := ⟨List.nil_prefix, h.symm⟩

theorem Cut.cons (h : Cut front (c :: cs)) :
    front = [] ∨ ∃ front', front = c :: front' ∧ Cut front' cs := by
  obtain ⟨hp, hne⟩ := h
  rcases List.prefix_cons_iff.mp hp with rfl | ⟨front', rfl, hp'⟩
  · exact Or.inl rfl
  · exact Or.inr ⟨front', rfl, hp', fun heq => hne (by rw [heq])⟩

theorem Cut.singleton (h : Cut front [c]) : front = [] := by
  rcases h.cons with rfl | ⟨front', -, h'⟩
  · rfl
  · exact absurd h' not_cut_nil

/-- The place of the cut is in the first part of a text, or behind it. -/
theorem Cut.append (h : Cut front (cs ++ ds)) :
    Cut front cs ∨ ∃ front', front = cs ++ front' ∧ Cut front' ds := by
  induction cs generalizing front with
  | nil => exact Or.inr ⟨front, rfl, h⟩
  | cons c cs ih =>
    rcases h.cons with rfl | ⟨front', rfl, h'⟩
    · exact Or.inl (cut_nil (List.cons_ne_nil _ _))
    · rcases ih h' with hin | ⟨front'', rfl, hbehind⟩
      · refine Or.inl ⟨(List.prefix_cons_inj c).mpr hin.1, fun heq => hin.2 ?_⟩
        exact (List.cons.inj heq).2
      · exact Or.inr ⟨front'', rfl, hbehind⟩

theorem Cut.parted (h : Cut front cs) (hp : Parted cs) : Parted front := by
  obtain ⟨tail, rfl⟩ := h.1
  cases front with
  | nil => exact parted_nil
  | cons c front => exact parted_cons (hp c rfl)

end Cutting

/-! ## Loops -/

section Loop

variable {σ β : Type} {step : σ → Reader (Turn σ β)} {s : σ} {cs : List Char}

/-- Steps of a loop up to one at which the text has ended; each one before takes some of the
text. -/
inductive Breaks (step : σ → Reader (Turn σ β)) : σ → List Char → Prop
  | now {s : σ} {cs : List Char} (h : step s cs = .error .eof) : Breaks step s cs
  | later {s s' : σ} {cs cs' : List Char} (h : step s cs = .ok (.again s', cs'))
      (hlt : cs'.length < cs.length) (next : Breaks step s' cs') : Breaks step s cs

theorem Breaks.loopWithin_eq (h : Breaks step s cs) {fuel : Nat} (hf : cs.length < fuel) :
    loopWithin step fuel s cs = .error .eof := by
  induction h generalizing fuel with
  | now h =>
    obtain ⟨fuel, rfl⟩ := Nat.exists_eq_succ_of_ne_zero (Nat.ne_of_gt (Nat.zero_lt_of_lt hf))
    rw [loopWithin, h]
  | later h hlt next ih =>
    obtain ⟨fuel, rfl⟩ := Nat.exists_eq_succ_of_ne_zero (Nat.ne_of_gt (Nat.zero_lt_of_lt hf))
    rw [loopWithin, h]
    exact ih (by omega)

theorem Breaks.loop_eq (h : Breaks step s cs) : loop step s cs = .error .eof :=
  h.loopWithin_eq (Nat.lt_succ_self _)

end Loop

/-! ## Strings -/

theorem readEscape_cut {x y : Char} (hx : x.utf8Size = 1) {front : List Char}
    (h : Cut front ['u', '0', '0', x, y]) : readEscape front = .error .eof := by
  have hzero : ('0' : Char).utf8Size = 1 := by decide
  rcases h.cons with rfl | ⟨front₁, rfl, h₁⟩
  · rfl
  rcases h₁.cons with rfl | ⟨front₂, rfl, h₂⟩
  · rfl
  rcases h₂.cons with rfl | ⟨front₃, rfl, h₃⟩
  · rfl
  rcases h₃.cons with rfl | ⟨front₄, rfl, h₄⟩
  · rfl
  obtain rfl := h₄.singleton
  have hcount : octetCount ['0', '0', x] < 4 := by simp [hx, hzero]
  have hhex : readHex ['0', '0', x] = .error .eof := by
    rw [readHex]
    · rw [if_pos hcount]
    · intro a b c d rest heq
      have hlen := congrArg List.length heq
      simp at hlen
  rw [readEscape, if_pos rfl, readCodePoint, hhex]

/-- A character that is not there as a whole is the end of the text. -/
theorem textStep_cut (read : List Char) {c : Char} {front : List Char}
    (h : Cut front (escapeChar c)) :
    textStep read front = .error .eof := by
  rcases escapeChar_eq c with heq | ⟨d, heq⟩ | ⟨x, y, hx, heq⟩
  · rw [heq] at h
    rw [h.singleton, textStep]
  · rw [heq] at h
    rcases h.cons with rfl | ⟨front', rfl, h'⟩
    · rfl
    · obtain rfl := h'.singleton
      rfl
  · rw [heq] at h
    rcases h.cons with rfl | ⟨front', rfl, h'⟩
    · rfl
    · rw [textStep, if_neg (by decide), if_pos rfl, readEscape_cut hx h']

theorem Breaks.text (read cs : List Char) {front : List Char}
    (h : Cut front (cs.flatMap escapeChar ++ ['\x22'])) : Breaks textStep read front := by
  induction cs generalizing read front with
  | nil =>
    obtain rfl := h.singleton
    exact .now rfl
  | cons c cs ih =>
    rw [List.flatMap_cons, List.append_assoc] at h
    rcases h.append with hin | ⟨front', rfl, hbehind⟩
    · exact .now (textStep_cut read hin)
    · have hlen : 0 < (escapeChar c).length := List.length_pos_iff.mpr (escapeChar_ne_nil c)
      refine .later (textStep_escapeChar read c front') ?_ (ih _ hbehind)
      rw [List.length_append]
      omega

theorem readText_cut {s : String} {front : List Char}
    (h : Cut front (s.toList.flatMap escapeChar ++ ['\x22'])) : readText front = .error .eof :=
  (Breaks.text [] s.toList h).loop_eq

/-! ## Words and integers -/

theorem readWord_cut {word front : List Char} (h : Cut front word) :
    readWord word front = .error .eof := by
  induction word generalizing front with
  | nil => exact absurd h not_cut_nil
  | cons c word ih =>
    rcases h.cons with rfl | ⟨front', rfl, h'⟩
    · rfl
    · rw [readWord, if_pos rfl, ih h']

/-- What is left of a number is a number too, if any digit is left. -/
theorem exists_digits_of_prefix {n : Nat} {front : List Char} (h : front <+: digits n)
    (hne : front ≠ []) : ∃ m, m ≤ n ∧ (0 < n → 0 < m) ∧ front = digits m := by
  induction n using Nat.strongRecOn generalizing front with
  | ind n ih =>
    by_cases hn : n < 10
    · refine ⟨n, Nat.le_refl n, id, ?_⟩
      rw [digits, if_pos hn] at h ⊢
      rcases List.prefix_cons_iff.mp h with rfl | ⟨front', rfl, h'⟩
      · exact absurd rfl hne
      · rw [List.prefix_nil.mp h']
    · have hdigits : digits n = digits (n / 10) ++ [digitChar (n % 10)] := by
        rw [digits, if_neg hn]
      rw [hdigits] at h
      rcases List.prefix_concat_iff.mp h with heq | h
      · exact ⟨n, Nat.le_refl n, id, heq.trans hdigits.symm⟩
      · obtain ⟨m, hle, hpos, hm⟩ := ih (n / 10) (by omega) h hne
        exact ⟨m, by omega, fun _ => hpos (by omega), hm⟩

/-- An integer that is cut off behind a digit is an integer between it and zero. -/
theorem signedDigits_cut {n : Int} {front : List Char} (h : Cut front (signedDigits n)) :
    front = [] ∨ front = ['-'] ∨
      ∃ m, (0 ≤ m ∧ m ≤ n ∨ n ≤ m ∧ m ≤ 0) ∧ front = signedDigits m := by
  cases n with
  | ofNat n =>
    by_cases hne : front = []
    · exact Or.inl hne
    · obtain ⟨m, hle, -, hm⟩ := exists_digits_of_prefix h.1 hne
      exact Or.inr (Or.inr ⟨Int.ofNat m, Or.inl ⟨Int.natCast_nonneg m, Int.ofNat_le.mpr hle⟩, hm⟩)
  | negSucc n =>
    rcases h.cons with rfl | ⟨front', rfl, h'⟩
    · exact Or.inl rfl
    · by_cases hne : front' = []
      · exact Or.inr (Or.inl (by rw [hne]))
      · obtain ⟨m, hle, hpos, hm⟩ := exists_digits_of_prefix h'.1 hne
        obtain ⟨m, rfl⟩ := Nat.exists_eq_succ_of_ne_zero (Nat.ne_of_gt (hpos (Nat.succ_pos n)))
        refine Or.inr (Or.inr ⟨Int.negSucc m, Or.inr ⟨?_, ?_⟩, by rw [hm, signedDigits]⟩)
        · rw [Int.negSucc_eq, Int.negSucc_eq]
          omega
        · rw [Int.negSucc_eq]
          omega

/-! ## Codecs -/

/-- A codec that sees from each text it has written, once cut off, that the text ends too early. -/
def Codec.EndsEarly {α : Type} (c : Codec α) : Prop :=
  ∀ a front, Cut front (c.write a) → c.read front = .error .eof

/-- A codec that sees this, or takes what is left for another value and has then read all of it. -/
def Codec.EndsWithin {α : Type} (c : Codec α) : Prop :=
  ∀ a front, Cut front (c.write a) → c.read front = .error .eof ∨ ∃ b, c.read front = .ok (b, [])

theorem Codec.EndsEarly.endsWithin {α : Type} {c : Codec α} (h : c.EndsEarly) : c.EndsWithin :=
  fun a front hcut => Or.inl (h a front hcut)

theorem endsEarly_text : Codec.text.EndsEarly := by
  intro s front h
  show readString .string front = .error .eof
  have h : Cut front ('\x22' :: (s.toList.flatMap escapeChar ++ ['\x22'])) := h
  rcases h.cons with rfl | ⟨front', rfl, h'⟩
  · rfl
  · rw [readString, skipBlank_cons (by decide)]
    exact readText_cut h'

/-- Integers end within their texts when each one between a value and zero is a value. -/
theorem endsWithin_integer {α : Type} {wanted : Wanted} {accept : Int → Option α} {toInt : α → Int}
    (hlow : ∀ a, -(2 ^ 63) ≤ toInt a) (hhigh : ∀ a, toInt a < 2 ^ 64)
    (ha : ∀ a n, 0 ≤ n ∧ n ≤ toInt a ∨ toInt a ≤ n ∧ n ≤ 0 → ∃ b, accept n = some b) :
    (Codec.integer wanted accept toInt).EndsWithin := by
  intro a front h
  show readInteger wanted accept front = .error .eof ∨
    ∃ b, readInteger wanted accept front = .ok (b, [])
  rcases signedDigits_cut h with rfl | rfl | ⟨n, hn, rfl⟩
  · exact Or.inl rfl
  · exact Or.inl rfl
  · right
    obtain ⟨b, hb⟩ := ha a n hn
    have hlow := hlow a
    have hhigh := hhigh a
    have hread := readNumber_signedDigits (n := n) (by omega) (by omega) parted_nil
    obtain ⟨c, cs, hcs, hc⟩ := signedDigits_eq_cons n
    rw [List.append_nil, hcs] at hread
    refine ⟨b, ?_⟩
    rw [hcs, readInteger, skipBlank_cons (isBlank_signedDigits hc).1]
    simp only
    rw [if_pos hc, hread]
    simp only
    rw [hb]

theorem endsWithin_int64 : Codec.int64.EndsWithin := by
  have hlow : ∀ a : Int64, -(2 ^ 63) ≤ a.toInt := Int64.le_toInt
  have hhigh : ∀ a : Int64, a.toInt < 2 ^ 63 := Int64.toInt_lt
  refine endsWithin_integer hlow (fun a => Int.lt_trans (hhigh a) (by decide)) fun a n hn => ?_
  have hmin : Int64.minValue.toInt = -(2 ^ 63) := by decide
  have hmax : Int64.maxValue.toInt = 2 ^ 63 - 1 := by decide
  have hlow := hlow a
  have hhigh := hhigh a
  exact ⟨_, if_pos (by rw [hmin, hmax]; omega)⟩

theorem endsWithin_uint32 : Codec.uint32.EndsWithin := by
  have hlt : ∀ a : UInt32, (a.toNat : Int) < UInt32.size := fun a => Int.ofNat_lt.mpr a.toNat_lt
  refine endsWithin_integer (fun a => by omega) (fun a => Int.lt_trans (hlt a) (by decide))
    fun a n hn => ?_
  have hlt := hlt a
  exact ⟨_, if_pos (by omega)⟩

theorem endsWithin_uint64 : Codec.uint64.EndsWithin := by
  have hlt : ∀ a : UInt64, (a.toNat : Int) < UInt64.size := fun a => Int.ofNat_lt.mpr a.toNat_lt
  refine endsWithin_integer (fun a => by omega) hlt fun a n hn => ?_
  have hlt := hlt a
  exact ⟨_, if_pos (by omega)⟩

/-- A value that may be missing ends within its text unless it looks like `null`. -/
theorem Codec.EndsWithin.optional {α : Type} {c : Codec α} (hc : c.EndsWithin) (hr : c.ReadsBack)
    (hnil : c.read [] = .error .eof) (hn : ∀ a, (c.write a).head? ≠ some 'n') :
    c.optional.EndsWithin := by
  intro a front h
  cases a with
  | none =>
    have h : Cut front ('n' :: ['u', 'l', 'l']) := h
    left
    rcases h.cons with rfl | ⟨front', rfl, h'⟩
    · show (c.read []).map (fun r => (some r.1, r.2)) = .error .eof
      rw [hnil]
      rfl
    · show (readWord ['u', 'l', 'l'] front').map (none, ·) = .error .eof
      rw [readWord_cut h']
      rfl
  | some a =>
    have h : Cut front (c.write a) := h
    obtain ⟨d, ds, hwrite, hblank, -⟩ := hr.head a
    have hd : d ≠ 'n' := fun hd => hn a (by rw [hwrite, hd]; rfl)
    have hread : c.optional.read front = (c.read front).map fun r => (some r.1, r.2) := by
      rw [hwrite] at h
      rcases h.cons with rfl | ⟨front', rfl, -⟩
      · rfl
      · rw [Codec.optional]
        simp only [skipBlank_cons hblank]
        split
        · rename_i heq
          exact absurd (List.cons.inj heq).1 hd
        · rfl
    rw [hread]
    rcases hc a front h with heof | ⟨b, hb⟩
    · rw [heof]
      exact Or.inl rfl
    · rw [hb]
      exact Or.inr ⟨some b, rfl⟩

/-- Choices end early, since their names are strings. -/
theorem endsEarly_choice {α : Type} [BEq α] (c : Choice α) : (Codec.choice c).EndsEarly := by
  intro a front h
  have h : Cut front ('\x22' :: ((c.name a).toList.flatMap escapeChar ++ ['\x22'])) := h
  rcases h.cons with rfl | ⟨front', rfl, h'⟩
  · rfl
  · rw [Codec.choice]
    simp only [skipBlank_cons (show isBlank '\x22' = false from rfl), if_true]
    rw [Choice.readName, readText_cut h']

end TaskWatch.Json
