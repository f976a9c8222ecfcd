import TaskWatch.Json.Text
import TaskWatch.Json.Value

/-!
# JSON as it is written

A text is a row of tokens with blanks between them.  What its tokens are is told by a tree, which
keeps the order of members, the escapes of strings and the digits of numbers, but no blanks.

* `Quote`, `Numeral`: strings and numbers as they are written.  `Quote.text?`: the text that a
  string stands for, if it does.
* `Tree`: values as they are written.  `Tree.tokens`: their tokens.
* `Spaced`: tokens with blanks before them.  `Tree.Text`: the texts of a value.
* `Tree.value`: what a tree stands for.
-/

namespace TaskWatch.Json

/-! ## Strings -/

structure CodeUnit where
  a : Char
  b : Char
  c : Char
  d : Char
  hex : ∀ x ∈ [a, b, c, d], (hexValue? x).isSome = true

namespace CodeUnit

def value (u : CodeUnit) : Nat :=
  let digit (x : Char) : Nat := (hexValue? x).getD 0
  ((digit u.a * 16 + digit u.b) * 16 + digit u.c) * 16 + digit u.d

/-- Whether it is the first half of a pair. -/
def IsHigh (u : CodeUnit) : Prop := 0xD800 ≤ u.value ∧ u.value ≤ 0xDBFF

/-- Whether it is the second half of a pair. -/
def IsLow (u : CodeUnit) : Prop := 0xDC00 ≤ u.value ∧ u.value ≤ 0xDFFF

instance (u : CodeUnit) : Decidable u.IsHigh := inferInstanceAs (Decidable (_ ∧ _))

instance (u : CodeUnit) : Decidable u.IsLow := inferInstanceAs (Decidable (_ ∧ _))

end CodeUnit

def pairChar (high low : CodeUnit) : Char :=
  Char.ofNat (0x10000 + (high.value - 0xD800) * 0x400 + (low.value - 0xDC00))

inductive Part where
  /-- It stands for itself. -/
  | plain (c : Char) (h : c ≠ '\x22' ∧ c ≠ '\\' ∧ ¬c.toNat < 0x20)
  /-- It has a letter behind a backslash. -/
  | letter (l c : Char) (h : shortEscapes.lookup l = some c)
  /-- It, or one half of it, has a number. -/
  | unit (u : CodeUnit)

def Part.chars : Part → List Char
  | .plain c _ => [c]
  | .letter l _ _ => ['\\', l]
  | .unit u => ['\\', 'u', u.a, u.b, u.c, u.d]

/-- A string as it is written, without its quotes. -/
abbrev Quote := List Part

namespace Quote

def body (q : Quote) : List Char := q.flatMap Part.chars ++ ['\x22']

def chars (q : Quote) : List Char := '\x22' :: q.body

/-- The characters that a string stands for.  Half a pair stands for none. -/
def letters? : Quote → Option (List Char)
  | [] => some []
  | .plain c _ :: q => (letters? q).map (c :: ·)
  | .letter _ c _ :: q => (letters? q).map (c :: ·)
  | .unit u :: q =>
    if u.IsLow then none
    else if u.IsHigh then
      match q with
      | .unit v :: q => if v.IsLow then (letters? q).map (pairChar u v :: ·) else none
      | _ => none
    else (letters? q).map (Char.ofNat u.value :: ·)

def text? (q : Quote) : Option String := (letters? q).map String.ofList

end Quote

/-! ## Numbers -/

structure Digits where
  chars : List Char
  ne_nil : chars ≠ []
  isDigit : ∀ c ∈ chars, c.isDigit = true

structure Exponent where
  capital : Bool
  /-- Whether it has a sign, and whether this is a minus sign. -/
  sign : Option Bool
  digits : Digits

def signChars : Option Bool → List Char
  | none => []
  | some true => ['-']
  | some false => ['+']

def Exponent.chars (e : Exponent) : List Char :=
  (if e.capital then 'E' else 'e') :: (signChars e.sign ++ e.digits.chars)

structure Numeral where
  negative : Bool
  whole : Digits
  /-- It begins with a zero only if that is all. -/
  lead : ¬(whole.chars.head? = some '0' ∧ 1 < whole.chars.length)
  fraction : Option Digits
  exponent : Option Exponent

namespace Numeral

def fractionChars : Option Digits → List Char
  | none => []
  | some ds => '.' :: ds.chars

def exponentChars : Option Exponent → List Char
  | none => []
  | some e => e.chars

def chars (n : Numeral) : List Char :=
  (if n.negative then ['-'] else []) ++
    (n.whole.chars ++ (fractionChars n.fraction ++ exponentChars n.exponent))

def literal (n : Numeral) : Literal where
  negative := n.negative
  whole := n.whole.chars
  fraction := (n.fraction.map Digits.chars).getD []
  exponent := n.exponent.map fun e => (e.sign.getD false, e.digits.chars)

end Numeral

/-! ## Values -/

/-- A value as it is written, but for blanks. -/
inductive Tree where
  | null
  | boolean (b : Bool)
  | number (n : Numeral)
  | string (q : Quote)
  | list (items : List Tree)
  | object (members : List (Quote × Tree))

/-- The comma before all items and members but the first one. -/
def comma (first : Bool) : List (List Char) := if first then [] else [[',']]

mutual

def Tree.tokens : Tree → List (List Char)
  | .null => [['n', 'u', 'l', 'l']]
  | .boolean true => [['t', 'r', 'u', 'e']]
  | .boolean false => [['f', 'a', 'l', 's', 'e']]
  | .number n => [n.chars]
  | .string q => [q.chars]
  | .list items => ['['] :: (itemTokens true items ++ [[']']])
  | .object members => ['\x7b'] :: (memberTokens true members ++ [['\x7d']])

def itemTokens (first : Bool) : List Tree → List (List Char)
  | [] => []
  | T :: items => comma first ++ (T.tokens ++ itemTokens false items)

def memberTokens (first : Bool) : List (Quote × Tree) → List (List Char)
  | [] => []
  | (k, T) :: members =>
      comma first ++ (k.chars :: [':'] :: (T.tokens ++ memberTokens false members))

end

/-- What is put in the place of what stands for no value: a number that is too large, and a string
that is no text.  It is a value that nothing here asks for. -/
def Value.lost : Value := .boolean true

mutual

def Tree.value : Tree → Value
  | .null => .null
  | .boolean b => .boolean b
  | .number n => match n.literal.value with | .ok n => .number n | .error _ => .lost
  | .string q => match q.text? with | some s => .string s | none => .lost
  | .list items => .list (itemValues items)
  | .object members =>
      match memberValues? members with | some members => .object members | none => .lost

def itemValues : List Tree → List Value
  | [] => []
  | T :: items => T.value :: itemValues items

def memberValues? : List (Quote × Tree) → Option (List (String × Value))
  | [] => some []
  | (k, T) :: members =>
    match k.text?, memberValues? members with
    | some key, some members => some ((key, T.value) :: members)
    | _, _ => none

end

/-! ## Blanks -/

def Blank (cs : List Char) : Prop := ∀ c ∈ cs, isBlank c = true

/-- Tokens, each one with blanks before it. -/
inductive Spaced : List (List Char) → List Char → Prop
  | nil : Spaced [] []
  | cons {blanks token cs : List Char} {tokens : List (List Char)} (hb : Blank blanks)
      (h : Spaced tokens cs) : Spaced (token :: tokens) (blanks ++ (token ++ cs))

/-- A text of a tree: its tokens, with blanks wherever they may be. -/
def Tree.Text (T : Tree) (s : String) : Prop :=
  ∃ cs blanks, Spaced T.tokens cs ∧ Blank blanks ∧ s = String.ofList (cs ++ blanks)

/-- A text that is over, or goes on as it can behind a value. -/
def Ended (rest : List Char) : Prop :=
  ∀ c ∈ rest.head?, isBlank c = true ∨ c = ',' ∨ c = ']' ∨ c = '}'

section Blanks

variable {cs ds rest token : List Char} {tokens tokens' : List (List Char)} {c : Char}

theorem spaced_cons_iff : Spaced (token :: tokens) cs ↔
    ∃ blanks ds, Blank blanks ∧ Spaced tokens ds ∧ cs = blanks ++ (token ++ ds) := by
  constructor
  · rintro (_ | ⟨hb, h⟩)
    exact ⟨_, _, hb, h, rfl⟩
  · rintro ⟨blanks, ds, hb, h, rfl⟩
    exact .cons hb h

theorem spaced_singleton_iff :
    Spaced [token] cs ↔ ∃ blanks, Blank blanks ∧ cs = blanks ++ token := by
  constructor
  · rintro (_ | ⟨hb, _ | _⟩)
    exact ⟨_, hb, by rw [List.append_nil]⟩
  · rintro ⟨blanks, hb, rfl⟩
    have h : Spaced [token] (blanks ++ (token ++ [])) := .cons hb .nil
    simpa using h

theorem spaced_append_iff : Spaced (tokens ++ tokens') cs ↔
    ∃ cs₁ cs₂, Spaced tokens cs₁ ∧ Spaced tokens' cs₂ ∧ cs = cs₁ ++ cs₂ := by
  induction tokens generalizing cs with
  | nil =>
    constructor
    · exact fun h => ⟨[], cs, .nil, h, rfl⟩
    · rintro ⟨_, cs₂, _ | _, h, rfl⟩
      exact h
  | cons token tokens ih =>
    constructor
    · intro h
      obtain ⟨blanks, ds, hb, hds, rfl⟩ := spaced_cons_iff.mp h
      obtain ⟨cs₁, cs₂, h₁, h₂, rfl⟩ := ih.mp hds
      exact ⟨_, cs₂, .cons hb h₁, h₂, by simp⟩
    · rintro ⟨cs₁, cs₂, h₁, h₂, rfl⟩
      obtain ⟨blanks, ds, hb, hds, rfl⟩ := spaced_cons_iff.mp h₁
      have h : Spaced (token :: (tokens ++ tokens')) (blanks ++ (token ++ (ds ++ cs₂))) :=
        .cons hb (ih.mpr ⟨ds, cs₂, hds, h₂, rfl⟩)
      simpa using h

theorem skipBlank_append (h : Blank cs) (rest : List Char) :
    skipBlank (cs ++ rest) = skipBlank rest :=
  List.dropWhile_append_of_pos h

theorem Blank.skipBlank_eq (h : Blank cs) : skipBlank cs = [] := by
  have := skipBlank_append h []
  rwa [List.append_nil] at this

theorem blank_nil : Blank [] := fun _ h => absurd h List.not_mem_nil

theorem spaced_flatten (tokens : List (List Char)) : Spaced tokens tokens.flatten := by
  induction tokens with
  | nil => exact .nil
  | cons token tokens ih => exact .cons blank_nil ih

theorem ended_of_blank (h : Blank cs) : Ended cs :=
  fun c hc => .inl (h c (List.mem_of_mem_head? hc))

theorem ended_cons (h : c = ',' ∨ c = ']' ∨ c = '}') : Ended (c :: rest) := by
  intro d hd
  obtain rfl := Option.some.inj hd
  exact .inr h

/-- A text is ended by blanks and what ends it. -/
theorem Ended.blanks (hb : Blank cs) (h : Ended rest) : Ended (cs ++ rest) := by
  cases cs with
  | nil => exact h
  | cons c cs =>
    intro d hd
    obtain rfl := Option.some.inj hd
    exact .inl (hb _ List.mem_cons_self)

end Blanks

/-! ## Texts at hand -/

def Quote.plain (s : String) : Quote :=
  s.toList.filterMap fun c =>
    if h : c ≠ '\x22' ∧ c ≠ '\\' ∧ ¬c.toNat < 0x20 then some (.plain c h) else none

def Tree.compact (T : Tree) : String := String.ofList T.tokens.flatten

theorem Tree.text_compact (T : Tree) : T.Text T.compact :=
  ⟨T.tokens.flatten, [], spaced_flatten _, blank_nil, by rw [List.append_nil]; rfl⟩

example : (Tree.object [(Quote.plain "state", .list [.boolean true, .null])]).compact =
    "\x7b\"state\":[true,null]\x7d" := rfl

end TaskWatch.Json
