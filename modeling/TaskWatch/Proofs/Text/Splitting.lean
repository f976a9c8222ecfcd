import Mathlib.Data.List.Infix

/-!
# Texts in parts

`partsAt c s` are the parts of a text between the copies of a character.  When texts are joined by
the character and split again, each of them gives its own parts, so they come back if and only if
none of them has the character.

* `countIn c texts`: how often texts have a character.
* `partsAt_intercalate`: the parts of joined texts.  `flatMap_partsAt_eq_iff`: when they are the
  texts.
* `printed`, `linesIn`: lines that are printed one after another, and the lines of what is printed.
-/

namespace TaskWatch.Text

/-! ## Splitting -/

section Characters

variable {c : Char} {cs part : List Char}

theorem length_splitOn (c : Char) (cs : List Char) : (cs.splitOn c).length = cs.count c + 1 := by
  induction cs with
  | nil => rfl
  | cons d cs ih =>
    rw [List.splitOn_cons_eq_if_modifyHead, List.count_cons]
    split
    · rw [List.length_cons, ih]
    · rw [List.length_modifyHead, ih, Nat.add_zero]

theorem not_mem_of_mem_splitOn (h : part ∈ cs.splitOn c) : c ∉ part := by
  induction cs generalizing part with
  | nil =>
    obtain rfl : part = [] := by simpa using h
    exact List.not_mem_nil
  | cons d cs ih =>
    rw [List.splitOn_cons_eq_if_modifyHead] at h
    split at h
    · rcases List.mem_cons.mp h with rfl | h
      · exact List.not_mem_nil
      · exact ih h
    · rename_i hd
      -- the character goes to the front of the first part
      cases hs : cs.splitOn c with
      | nil =>
        rw [hs] at h
        cases h
      | cons first rest =>
        rw [hs, List.modifyHead_cons] at h
        rcases List.mem_cons.mp h with rfl | h
        · have hfirst : c ∉ first := ih (hs ▸ List.mem_cons_self)
          intro hc
          rcases List.mem_cons.mp hc with rfl | hc
          · exact hd BEq.rfl
          · exact hfirst hc
        · exact ih (hs ▸ List.mem_cons_of_mem _ h)

end Characters

/-- The parts of a text between the copies of a character. -/
def partsAt (c : Char) (s : String) : List String := (s.toList.splitOn c).map String.ofList

theorem length_partsAt (c : Char) (s : String) : (partsAt c s).length = s.toList.count c + 1 := by
  rw [partsAt, List.length_map, length_splitOn]

theorem not_mem_of_mem_partsAt {c : Char} {s part : String} (h : part ∈ partsAt c s) :
    c ∉ part.toList := by
  obtain ⟨cs, hcs, rfl⟩ := List.mem_map.mp h
  rw [String.toList_ofList]
  exact not_mem_of_mem_splitOn hcs

theorem partsAt_of_not_mem {c : Char} {s : String} (h : c ∉ s.toList) : partsAt c s = [s] := by
  rw [partsAt, List.splitOn_eq_singleton h, List.map_singleton, String.ofList_toList]

theorem partsAt_append (c : Char) (s t : String) :
    partsAt c (s ++ String.singleton c ++ t) = partsAt c s ++ partsAt c t := by
  have hlist : (s ++ String.singleton c ++ t).toList = s.toList ++ c :: t.toList := by simp
  rw [partsAt, hlist, List.splitOn_append_cons_self, List.map_append, partsAt, partsAt]

/-! ## Counting -/

/-- How often texts have a character. -/
def countIn (c : Char) (texts : List String) : Nat := (texts.flatMap String.toList).count c

section Texts

variable {c : Char} {s : String} {texts rest : List String}

@[simp]
theorem countIn_nil : countIn c [] = 0 := rfl

@[simp]
theorem countIn_cons : countIn c (s :: texts) = s.toList.count c + countIn c texts := by
  rw [countIn, List.flatMap_cons, List.count_append, countIn]

@[simp]
theorem countIn_append : countIn c (texts ++ rest) = countIn c texts + countIn c rest := by
  rw [countIn, List.flatMap_append, List.count_append, countIn, countIn]

theorem countIn_pos_iff : 0 < countIn c texts ↔ ∃ s ∈ texts, c ∈ s.toList := by
  rw [countIn, List.count_pos_iff, List.mem_flatMap]

theorem countIn_eq_zero_iff : countIn c texts = 0 ↔ ∀ s ∈ texts, c ∉ s.toList := by
  rw [countIn, List.count_eq_zero, List.mem_flatMap]
  push Not
  rfl

/-- A joined text has the characters of the texts, if what joins them does not have them. -/
theorem count_intercalate {sep : String} (hsep : sep.toList.count c = 0) :
    (sep.intercalate texts).toList.count c = countIn c texts := by
  induction texts with
  | nil => rfl
  | cons s texts ih =>
    cases texts with
    | nil => rw [String.intercalate_singleton, countIn_cons, countIn_nil, Nat.add_zero]
    | cons s' texts =>
      rw [String.intercalate_cons_cons, String.toList_append, String.toList_append,
        List.count_append, List.count_append, hsep, Nat.add_zero, ih, countIn_cons (s := s)]

/-! ## Joining and splitting -/

/-- The parts of joined texts are those of each. -/
theorem partsAt_intercalate (hne : texts ≠ []) :
    partsAt c ((String.singleton c).intercalate texts) = texts.flatMap (partsAt c) := by
  induction texts with
  | nil => exact absurd rfl hne
  | cons s texts ih =>
    by_cases hrest : texts = []
    · rw [hrest, String.intercalate_singleton, List.flatMap_singleton]
    · rw [String.intercalate_cons_of_ne_nil hrest, partsAt_append, ih hrest, List.flatMap_cons]

theorem length_flatMap_partsAt (c : Char) (texts : List String) :
    (texts.flatMap (partsAt c)).length = texts.length + countIn c texts := by
  induction texts with
  | nil => rfl
  | cons s texts ih =>
    rw [List.flatMap_cons, List.length_append, length_partsAt, ih, countIn_cons, List.length_cons]
    omega

/-- Texts are their own parts if and only if none of them has the character. -/
theorem flatMap_partsAt_eq_iff : texts.flatMap (partsAt c) = texts ↔ ∀ s ∈ texts, c ∉ s.toList := by
  constructor
  · intro h s hs
    rw [← h] at hs
    obtain ⟨t, _, hpart⟩ := List.mem_flatMap.mp hs
    exact not_mem_of_mem_partsAt hpart
  · intro h
    induction texts with
    | nil => rfl
    | cons s texts ih =>
      obtain ⟨hs, h⟩ := List.forall_mem_cons.mp h
      rw [List.flatMap_cons, partsAt_of_not_mem hs, ih h, List.singleton_append]

end Texts

/-! ## Lines -/

/-- Lines, each with a line break behind it. -/
def printed (lines : List String) : String := String.join (lines.map (· ++ "\n"))

def linesIn (s : String) : List String := (partsAt '\n' s).dropLast

/-- What is printed are the lines with an empty one behind them. -/
theorem printed_eq_intercalate (lines : List String) :
    printed lines = (String.singleton '\n').intercalate (lines ++ [""]) := by
  induction lines with
  | nil => rfl
  | cons line lines ih =>
    have hne : lines ++ [""] ≠ [] := by simp
    rw [List.cons_append, String.intercalate_cons_of_ne_nil hne, ← ih, printed, List.map_cons,
      String.join_cons, printed]
    rfl

theorem linesIn_printed (lines : List String) :
    linesIn (printed lines) = lines.flatMap (partsAt '\n') := by
  have hlast : partsAt '\n' "" = [""] := rfl
  rw [linesIn, printed_eq_intercalate, partsAt_intercalate (by simp), List.flatMap_append,
    List.flatMap_singleton, hlast, List.dropLast_concat]

end TaskWatch.Text
