import Mathlib.Data.List.Dedup
import Mathlib.Data.List.Induction
import Mathlib.Data.List.Perm.Basic
import TaskWatch.Monitor.Call

/-!
# The entries of a call

A call keeps its objects under their keys, each key once.

* `mem_removeKey`, `mem_refreshKey`, `mem_insertEntry`: what is in a list of entries after a change.
* `cons_map_key_removeKey_perm`: taking an object out takes its key out once.
* `map_key_collect_perm`: a call begins with the distinct keys of its objects.
* `mem_collect`: under each key stands the last object that was given with it.
* `filter_eq_singleton`: what has one of some distinct keys.
-/

namespace TaskWatch.Monitor

/-! ## Distinct keys -/

theorem filter_eq_nil_of_notMem {α : Type} {key : α → String} {l : List α} {k : String}
    (h : k ∉ l.map key) : l.filter (fun x => key x == k) = [] := by
  rw [List.filter_eq_nil_iff]
  exact fun x hx hk => h (List.mem_map.mpr ⟨x, hx, beq_iff_eq.mp hk⟩)

theorem filter_eq_singleton {α : Type} {key : α → String} {l : List α} {a : α}
    (hn : (l.map key).Nodup) (ha : a ∈ l) : l.filter (fun x => key x == key a) = [a] := by
  induction l with
  | nil => cases ha
  | cons x l ih =>
    rw [List.map_cons, List.nodup_cons] at hn
    rcases List.mem_cons.mp ha with rfl | ha
    · rw [List.filter_cons_of_pos (by simp), filter_eq_nil_of_notMem hn.1]
    · have hne : key x ≠ key a := fun hk => hn.1 (hk ▸ List.mem_map_of_mem ha)
      rw [List.filter_cons_of_neg (by simpa using hne), ih hn.2 ha]

end TaskWatch.Monitor

namespace TaskWatch.Monitor.Call

variable {T : Type}

/-! ## Changes -/

@[simp] theorem map_key_refreshKey (k : String) (t : T) (es : List (Entry T)) :
    (refreshKey k t es).map Entry.key = es.map Entry.key := by
  simp only [refreshKey, List.map_map]
  refine List.map_congr_left fun e _ => ?_
  simp only [Function.comp_apply]
  split <;> rfl

theorem mem_removeKey {k : String} {e : Entry T} {es : List (Entry T)} :
    e ∈ removeKey k es ↔ e ∈ es ∧ e.key ≠ k := by
  simp [removeKey]

theorem mem_refreshKey {k : String} {t : T} {e : Entry T} {es : List (Entry T)} :
    e ∈ refreshKey k t es ↔
      e.key ≠ k ∧ e ∈ es ∨ e.key = k ∧ e.target = t ∧ k ∈ es.map Entry.key := by
  simp only [refreshKey, List.mem_map]
  constructor
  · rintro ⟨x, hx, rfl⟩
    by_cases h : x.key = k
    · exact Or.inr ⟨by simp [h], by simp [h], x, hx, h⟩
    · exact Or.inl ⟨by simp [h], by simpa [h] using hx⟩
  · rintro (⟨h, he⟩ | ⟨rfl, rfl, x, hx, h⟩)
    · exact ⟨e, he, by simp [h]⟩
    · exact ⟨x, hx, by simp [h]⟩

theorem map_key_removeKey (k : String) (es : List (Entry T)) :
    (removeKey k es).map Entry.key = (es.map Entry.key).filter (· != k) := by
  rw [removeKey, List.filter_map]
  rfl

theorem removeKey_of_notMem {k : String} {es : List (Entry T)} (h : k ∉ es.map Entry.key) :
    removeKey k es = es := by
  rw [removeKey, List.filter_eq_self]
  intro e he
  have hne : e.key ≠ k := fun hk => h (List.mem_map.mpr ⟨e, he, hk⟩)
  simpa using hne

theorem refreshKey_of_notMem {k : String} (t : T) {es : List (Entry T)}
    (h : k ∉ es.map Entry.key) : refreshKey k t es = es := by
  rw [refreshKey]
  refine (List.map_congr_left fun e he => ?_).trans (List.map_id es)
  exact if_neg fun hk => h (List.mem_map.mpr ⟨e, he, hk⟩)

theorem cons_map_key_removeKey_perm {k : String} {es : List (Entry T)}
    (hn : (es.map Entry.key).Nodup) (hk : k ∈ es.map Entry.key) :
    (k :: (removeKey k es).map Entry.key).Perm (es.map Entry.key) := by
  have hf : (es.map Entry.key).filter (· != k) = (es.map Entry.key).erase k :=
    (hn.erase_eq_filter k).symm
  rw [map_key_removeKey, hf]
  exact (List.perm_cons_erase hk).symm

theorem isActive_iff {c : Call T} {k : String} :
    c.isActive k = true ↔ k ∈ c.active.map Entry.key := by
  simp [isActive]

/-! ## The objects at the beginning -/

theorem mem_insertEntry {e x : Entry T} {es : List (Entry T)} (hn : (es.map Entry.key).Nodup) :
    x ∈ insertEntry e es ↔ x = e ∨ x ∈ es ∧ x.key ≠ e.key := by
  induction es with
  | nil => simp [insertEntry]
  | cons a es ih =>
    rw [List.map_cons, List.nodup_cons] at hn
    rw [insertEntry]
    split
    · rename_i ha
      have hrest : ∀ y ∈ es, y.key ≠ e.key := fun y hy h =>
        hn.1 (ha ▸ h ▸ List.mem_map_of_mem hy)
      constructor
      · rintro (_ | ⟨_, hx⟩)
        · exact Or.inl rfl
        · exact Or.inr ⟨List.mem_cons_of_mem _ hx, hrest x hx⟩
      · rintro (rfl | ⟨hx, hne⟩)
        · exact List.mem_cons_self
        · rcases List.mem_cons.mp hx with rfl | hx
          · exact absurd ha hne
          · exact List.mem_cons_of_mem _ hx
    · rename_i ha
      rw [List.mem_cons, ih hn.2, List.mem_cons]
      constructor
      · rintro (rfl | rfl | ⟨hx, hne⟩)
        · exact Or.inr ⟨Or.inl rfl, ha⟩
        · exact Or.inl rfl
        · exact Or.inr ⟨Or.inr hx, hne⟩
      · rintro (rfl | ⟨rfl | hx, hne⟩)
        · exact Or.inr (Or.inl rfl)
        · exact Or.inl rfl
        · exact Or.inr (Or.inr ⟨hx, hne⟩)

theorem mem_map_key_insertEntry {e : Entry T} {k : String} {es : List (Entry T)} :
    k ∈ (insertEntry e es).map Entry.key ↔ k = e.key ∨ k ∈ es.map Entry.key := by
  induction es with
  | nil => simp [insertEntry]
  | cons a es ih =>
    rw [insertEntry]
    split
    · rename_i ha
      simp only [List.map_cons, List.mem_cons, ha]
      tauto
    · simp only [List.map_cons, List.mem_cons, ih]
      tauto

theorem nodup_map_key_insertEntry {e : Entry T} {es : List (Entry T)}
    (hn : (es.map Entry.key).Nodup) : ((insertEntry e es).map Entry.key).Nodup := by
  induction es with
  | nil => simp [insertEntry]
  | cons a es ih =>
    rw [List.map_cons, List.nodup_cons] at hn
    rw [insertEntry]
    split
    · rename_i ha
      rw [List.map_cons, List.nodup_cons]
      exact ⟨ha ▸ hn.1, hn.2⟩
    · rename_i ha
      rw [List.map_cons, List.nodup_cons, mem_map_key_insertEntry]
      exact ⟨not_or.mpr ⟨ha, hn.1⟩, ih hn.2⟩

variable [Watchable T]

/-- The last of some objects with a key. -/
def lastWith (k : String) (targets : List T) : Option T :=
  (targets.filter (Watchable.key · == k)).getLast?

theorem lastWith_concat (k : String) (ts : List T) (t : T) :
    lastWith k (ts ++ [t]) = if Watchable.key t = k then some t else lastWith k ts := by
  by_cases h : Watchable.key t = k <;> simp [lastWith, List.filter_append, h]

theorem collect_concat (ts : List T) (t : T) :
    collect (ts ++ [t]) = insertEntry ⟨Watchable.key t, t⟩ (collect ts) := by
  simp [collect]

theorem nodup_map_key_collect (ts : List T) : ((collect ts).map Entry.key).Nodup := by
  induction ts using List.reverseRecOn with
  | nil => simp [collect]
  | append_singleton ts t ih =>
    rw [collect_concat]
    exact nodup_map_key_insertEntry ih

theorem mem_map_key_collect {k : String} {ts : List T} :
    k ∈ (collect ts).map Entry.key ↔ k ∈ ts.map Watchable.key := by
  induction ts using List.reverseRecOn with
  | nil => simp [collect]
  | append_singleton ts t ih =>
    rw [collect_concat, mem_map_key_insertEntry, ih, List.map_append, List.mem_append,
      List.map_singleton, List.mem_singleton]
    exact or_comm

theorem map_key_collect_perm (ts : List T) :
    ((collect ts).map Entry.key).Perm (ts.map Watchable.key).dedup := by
  rw [List.perm_ext_iff_of_nodup (nodup_map_key_collect ts) (List.nodup_dedup _)]
  intro k
  rw [mem_map_key_collect, List.mem_dedup]

theorem mem_collect {e : Entry T} {ts : List T} :
    e ∈ collect ts ↔ lastWith e.key ts = some e.target := by
  induction ts using List.reverseRecOn with
  | nil => simp [collect, lastWith]
  | append_singleton ts t ih =>
    rw [collect_concat, mem_insertEntry (nodup_map_key_collect ts), lastWith_concat, ih]
    obtain ⟨k, x⟩ := e
    by_cases h : Watchable.key t = k
    · simp [h, eq_comm]
    · simp [h, Ne.symm h]

theorem key_of_mem_collect {e : Entry T} {ts : List T} (h : e ∈ collect ts) :
    Watchable.key e.target = e.key := by
  have hlast := List.mem_of_getLast? (mem_collect.mp h)
  exact beq_iff_eq.mp (List.mem_filter.mp hlast).2

end TaskWatch.Monitor.Call

namespace TaskWatch.Monitor

/-- Three tasks, two of them with one id. -/
def twins : List Resource.RemoteTask :=
  [.create "a" .deploy 0, .create "b" .reset 0, .create "a" .deploy 1]

end TaskWatch.Monitor
