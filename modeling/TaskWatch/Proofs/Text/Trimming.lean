import Mathlib.Data.List.TakeWhile
import TaskWatch.Text.Trim

/-!
# What trimming leaves

Trimming takes away as many copies as stand at one side, and what is left has none there.

* `slashes`: a row of slashes.  `trimEndSlashes_append_slashes`, `trimFrontSlashes_slashes_append`:
  how many there are does not matter.
* `dropEndWord_eq_iff`, `trimEndWord_eq_iff`: a text without the copies of a word at its end, said
  without a recursion.
-/

namespace TaskWatch.Text

/-! ## Characters -/

section Characters

variable {p : Char → Bool} {cs ds : List Char}

theorem dropEndWhile_append_of_all (h : ∀ c ∈ ds, p c = true) :
    dropEndWhile p (cs ++ ds) = dropEndWhile p cs := by
  unfold dropEndWhile
  rw [List.reverse_append, List.dropWhile_append_of_pos]
  intro c hc
  exact h c (List.mem_reverse.mp hc)

theorem dropEndWhile_append_of_exists (h : ∃ c ∈ ds, p c = false) :
    dropEndWhile p (cs ++ ds) = cs ++ dropEndWhile p ds := by
  have hne : (ds.reverse.dropWhile p).isEmpty = false := by
    obtain ⟨c, hc, hp⟩ := h
    rw [List.isEmpty_eq_false_iff]
    intro hnil
    have hall := List.dropWhile_eq_nil_iff.mp hnil c (List.mem_reverse.mpr hc)
    rw [hp] at hall
    cases hall
  unfold dropEndWhile
  rw [List.reverse_append, List.dropWhile_append, hne, if_neg Bool.false_ne_true,
    List.reverse_append, List.reverse_reverse]

end Characters

/-! ## Slashes -/

def slashes (n : Nat) : String := String.ofList (List.replicate n '/')

theorem toList_slashes (n : Nat) : (slashes n).toList = List.replicate n '/' := String.toList_ofList

theorem slashes_append (m n : Nat) : slashes m ++ slashes n = slashes (m + n) := by
  rw [← String.toList_inj, String.toList_append, toList_slashes, toList_slashes, toList_slashes,
    List.replicate_append_replicate]

theorem eq_slashes {s : String} (h : ∀ c ∈ s.toList, c = '/') : s = slashes s.toList.length := by
  rw [← String.toList_inj, toList_slashes]
  exact List.eq_replicate_of_mem h

theorem isSlash_of_mem_slashes (n : Nat) : ∀ c ∈ (slashes n).toList, (c == '/') = true := by
  intro c hc
  rw [toList_slashes] at hc
  rw [List.eq_of_mem_replicate hc]
  rfl

theorem trimEndSlashes_append_slashes (s : String) (n : Nat) :
    trimEndSlashes (s ++ slashes n) = trimEndSlashes s := by
  rw [trimEndSlashes, String.toList_append, dropEndWhile_append_of_all (isSlash_of_mem_slashes n),
    trimEndSlashes]

theorem trimEndSlashes_append {t : String} (s : String) (h : ∃ c ∈ t.toList, c ≠ '/') :
    trimEndSlashes (s ++ t) = s ++ trimEndSlashes t := by
  have hexists : ∃ c ∈ t.toList, (c == '/') = false := by simpa using h
  rw [← String.toList_inj, trimEndSlashes, String.toList_append, String.toList_ofList,
    dropEndWhile_append_of_exists hexists, String.toList_append, trimEndSlashes,
    String.toList_ofList]

theorem trimFrontSlashes_slashes_append (n : Nat) (s : String) :
    trimFrontSlashes (slashes n ++ s) = trimFrontSlashes s := by
  rw [trimFrontSlashes, String.toList_append,
    List.dropWhile_append_of_pos (isSlash_of_mem_slashes n), trimFrontSlashes]

theorem trimFrontSlashes_of_head? {s : String} (h : s.toList.head? ≠ some '/') :
    trimFrontSlashes s = s := by
  rw [trimFrontSlashes]
  cases hs : s.toList with
  | nil => rw [List.dropWhile_nil, ← hs, String.ofList_toList]
  | cons c cs =>
    rw [hs, List.head?_cons] at h
    rw [List.dropWhile_cons_of_neg (by simpa using fun hc => h (by rw [hc])), ← hs,
      String.ofList_toList]

theorem head?_trimFrontSlashes (s : String) : (trimFrontSlashes s).toList.head? ≠ some '/' := by
  intro h
  rw [trimFrontSlashes, String.toList_ofList] at h
  have hnot := List.head?_dropWhile_not (· == '/') s.toList
  rw [h] at hnot
  cases hnot

/-! ## Words -/

section Words

variable {word cs ds : List Char}

theorem flatten_replicate_succ (k : Nat) :
    (List.replicate (k + 1) word).flatten = (List.replicate k word).flatten ++ word := by
  rw [List.replicate_succ', List.flatten_append, List.flatten_singleton]

theorem dropFrontWord_spec (hw : word ≠ []) {times : Nat} (ht : cs.length ≤ times) :
    ∃ k, cs = (List.replicate k word).flatten ++ dropFrontWord word times cs ∧
      ¬word <+: dropFrontWord word times cs := by
  induction times generalizing cs with
  | zero =>
    obtain rfl := List.length_eq_zero_iff.mp (Nat.le_zero.mp ht)
    exact ⟨0, rfl, fun hp => hw (List.prefix_nil.mp hp)⟩
  | succ times ih =>
    by_cases hp : word <+: cs
    · obtain ⟨rest, rfl⟩ := hp
      have hlen : rest.length ≤ times := by
        have hpos := List.length_pos_iff.mpr hw
        rw [List.length_append] at ht
        omega
      obtain ⟨k, hk, hnot⟩ := ih hlen
      have hdrop : dropFrontWord word (times + 1) (word ++ rest) =
          dropFrontWord word times rest := by
        rw [dropFrontWord, if_pos (by simp), List.drop_left]
      rw [hdrop]
      refine ⟨k + 1, ?_, hnot⟩
      rw [List.replicate_succ, List.flatten_cons, List.append_assoc, ← hk]
    · have hdrop : dropFrontWord word (times + 1) cs = cs := by
        rw [dropFrontWord, if_neg (by simpa using hp)]
      rw [hdrop]
      exact ⟨0, rfl, hp⟩

theorem reverse_flatten_replicate (k : Nat) :
    (List.replicate k word.reverse).flatten.reverse = (List.replicate k word).flatten := by
  rw [List.reverse_flatten, List.map_replicate, List.reverse_reverse, List.reverse_replicate]

theorem dropEndWord_spec (hw : word ≠ []) (cs : List Char) :
    ∃ k, cs = dropEndWord word cs ++ (List.replicate k word).flatten ∧
      ¬word <:+ dropEndWord word cs := by
  have hlen : cs.reverse.length ≤ cs.length := Nat.le_of_eq List.length_reverse
  have hrev : word.reverse ≠ [] := fun h => hw (List.reverse_eq_nil_iff.mp h)
  obtain ⟨k, hk, hnot⟩ := dropFrontWord_spec hrev hlen
  refine ⟨k, ?_, ?_⟩
  · have hback := congrArg List.reverse hk
    rw [List.reverse_reverse, List.reverse_append, reverse_flatten_replicate] at hback
    exact hback
  · rw [dropEndWord, ← List.reverse_prefix, List.reverse_reverse]
    exact hnot

/-- Copies of a word can be told from a text that does not end in it. -/
theorem append_copies_inj {j k : Nat} (hcs : ¬word <:+ cs) (hds : ¬word <:+ ds)
    (h : cs ++ (List.replicate j word).flatten = ds ++ (List.replicate k word).flatten) :
    cs = ds := by
  induction j generalizing k with
  | zero =>
    cases k with
    | zero => simpa using h
    | succ k =>
      rw [List.replicate_zero, List.flatten_nil, List.append_nil, flatten_replicate_succ,
        ← List.append_assoc] at h
      exact absurd ⟨_, h.symm⟩ hcs
  | succ j ih =>
    cases k with
    | zero =>
      rw [List.replicate_zero, List.flatten_nil, List.append_nil, flatten_replicate_succ,
        ← List.append_assoc] at h
      exact absurd ⟨_, h⟩ hds
    | succ k =>
      rw [flatten_replicate_succ, flatten_replicate_succ, ← List.append_assoc,
        ← List.append_assoc] at h
      exact ih (List.append_cancel_right h)

/-- What is left does not end in the word, and copies of it make the text again. -/
theorem dropEndWord_eq_iff (hw : word ≠ []) :
    dropEndWord word cs = ds ↔ ¬word <:+ ds ∧ ∃ k, cs = ds ++ (List.replicate k word).flatten := by
  obtain ⟨k, hk, hnot⟩ := dropEndWord_spec hw cs
  constructor
  · rintro rfl
    exact ⟨hnot, k, hk⟩
  · rintro ⟨hds, j, hj⟩
    exact append_copies_inj hnot hds (hk.symm.trans hj)

end Words

def repeated (word : String) (k : Nat) : String := String.join (List.replicate k word)

theorem toList_repeated (word : String) (k : Nat) :
    (repeated word k).toList = (List.replicate k word.toList).flatten := by
  rw [repeated, String.toList_join, List.flatMap_def, List.map_replicate]

theorem repeated_zero (word : String) : repeated word 0 = "" := rfl

theorem repeated_succ (word : String) (k : Nat) :
    repeated word (k + 1) = repeated word k ++ word := by
  rw [← String.toList_inj, String.toList_append, toList_repeated, toList_repeated,
    flatten_replicate_succ]

theorem repeated_one (word : String) : repeated word 1 = word := by
  rw [repeated_succ, repeated_zero, String.empty_append]

def EndsIn (s word : String) : Prop := word.toList <:+ s.toList

instance (s word : String) : Decidable (EndsIn s word) :=
  inferInstanceAs (Decidable (word.toList <:+ s.toList))

theorem endsIn_append (s word : String) : EndsIn (s ++ word) word :=
  ⟨s.toList, String.toList_append.symm⟩

theorem endsIn_append_repeated_succ (s word : String) (k : Nat) :
    EndsIn (s ++ repeated word (k + 1)) word := by
  rw [repeated_succ, ← String.append_assoc]
  exact endsIn_append _ _

theorem trimEndWord_eq_iff {word s t : String} (hw : word ≠ "") :
    trimEndWord word s = t ↔ ¬EndsIn t word ∧ ∃ k, s = t ++ repeated word k := by
  have hne : word.toList ≠ [] := fun h => hw (String.toList_eq_nil_iff.mp h)
  have hlist : trimEndWord word s = t ↔ dropEndWord word.toList s.toList = t.toList := by
    rw [trimEndWord, ← String.toList_inj, String.toList_ofList]
  rw [hlist, dropEndWord_eq_iff hne]
  have htext : ∀ k, s.toList = t.toList ++ (List.replicate k word.toList).flatten ↔
      s = t ++ repeated word k := by
    intro k
    rw [← String.toList_inj, String.toList_append, toList_repeated]
  simp only [htext, EndsIn]

end TaskWatch.Text
