import OpenTogetherTube.Lib.Levels
import OpenTogetherTube.Lib.OrderedMap
import Mathlib.Algebra.BigOperators.Group.List.Basic

/-!
# Grouping by a key

Items are put into a map one after the other, and an item whose key is there already is merged into the
one that is stored. What is left has every key once, in the order of their first occurrences
(`keys_group`), and under a key what its items are merged into, from the first to the last
(`get?_group`).

A quantity that merging adds up has the same total afterwards (`sum_group`).
-/

namespace OpenTogetherTube.Lib.Grouping

variable {κ ν : Type} [DecidableEq κ] (key : ν → κ) (merge : ν → ν → ν)

/-- One more item. -/
def insertWith (m : OrderedMap κ ν) (a : ν) : OrderedMap κ ν :=
  match m.get? (key a) with
  | none => m.set (key a) a
  | some b => m.set (key a) (merge b a)

/-- All items of a list. -/
def group (l : List ν) : OrderedMap κ ν := l.foldl (insertWith key merge) ∅

theorem group_concat (l : List ν) (a : ν) :
    group key merge (l ++ [a]) = insertWith key merge (group key merge l) a :=
  List.foldl_concat _ _ a l

/-! ## One more item -/

/-- **What an item does to the entries**: it comes last, or is merged in place. -/
theorem insertWith_cases (m : OrderedMap κ ν) (a : ν) :
    (m.get? (key a) = none ∧ (insertWith key merge m a).entries = m.entries ++ [(key a, a)]) ∨
    ∃ b front back, m.get? (key a) = some b ∧ m.entries = front ++ (key a, b) :: back ∧
      (insertWith key merge m a).entries = front ++ (key a, merge b a) :: back := by
  unfold insertWith
  cases hget : m.get? (key a) with
  | none =>
    refine .inl ⟨rfl, OrderedMap.entries_set_of_not_mem ?_ a⟩
    rintro ⟨k, v⟩ he rfl
    exact OrderedMap.get?_eq_none_iff.mp hget v he
  | some b =>
    obtain ⟨front, back, hentries⟩ := List.append_of_mem (OrderedMap.get?_eq_some_iff.mp hget)
    exact .inr ⟨b, front, back, rfl, hentries, OrderedMap.entries_set_of_mem hentries _⟩

theorem get?_insertWith (m : OrderedMap κ ν) (a : ν) (k : κ) :
    (insertWith key merge m a).get? k =
      if k = key a then some (((m.get? (key a)).map (merge · a)).getD a) else m.get? k := by
  unfold insertWith
  cases m.get? (key a) with
  | none => exact OrderedMap.get?_set m (key a) k a
  | some b => exact OrderedMap.get?_set m (key a) k (merge b a)

theorem keys_insertWith (m : OrderedMap κ ν) (a : ν) :
    (insertWith key merge m a).keys = m.keys ++ if key a ∈ m.keys then [] else [key a] := by
  unfold OrderedMap.keys
  obtain ⟨hnone, hentries⟩ | ⟨b, front, back, -, hm, hentries⟩ := insertWith_cases key merge m a
  · have hnew : key a ∉ m.entries.map Prod.fst := by
      intro hmem
      obtain ⟨⟨k, v⟩, he, rfl⟩ := List.mem_map.mp hmem
      exact OrderedMap.get?_eq_none_iff.mp hnone v he
    rw [hentries, if_neg hnew, List.map_append]
    rfl
  · have hold : key a ∈ m.entries.map Prod.fst := by
      rw [hm]
      simp
    rw [if_pos hold, hentries, hm]
    simp

/-! ## All items -/

/-- **Under a key there are its items**, merged into the first of them. -/
theorem get?_group (l : List ν) (k : κ) : (group key merge l).get? k =
    match l.filter (fun a => key a = k) with
    | [] => none
    | a :: rest => some (rest.foldl merge a) := by
  induction l using List.reverseRecOn with
  | nil => rfl
  | append_singleton l a ih =>
    rw [group_concat, get?_insertWith, List.filter_append]
    by_cases hk : k = key a
    · -- the last item of a key is merged into what the others of it make
      subst hk
      rw [if_pos rfl, ih]
      cases l.filter (fun b => key b = key a) <;> simp
    · rw [if_neg hk, ih, List.filter_cons_of_neg (by simpa using Ne.symm hk), List.filter_nil,
        List.append_nil]

/-- **The keys are those of the items, each at its first occurrence.** -/
theorem keys_group (l : List ν) : (group key merge l).keys = Levels.firsts (l.map key) := by
  induction l using List.reverseRecOn with
  | nil => rfl
  | append_singleton l a ih =>
    have hmem : key a ∈ (group key merge l).keys ↔ key a ∈ l.map key := by
      rw [ih, Levels.mem_firsts]
    rw [group_concat, keys_insertWith, ih, List.map_append, List.map_singleton,
      Levels.firsts_concat, ← ih]
    simp only [hmem]

section Merging

variable {key merge} (hmerge : ∀ a b, key a = key b → key (merge a b) = key a)

include hmerge

/-- Every item is under its own key. -/
theorem key_of_mem_group {l : List ν} {e : κ × ν} (he : e ∈ (group key merge l).entries) :
    key e.2 = e.1 := by
  induction l using List.reverseRecOn generalizing e with
  | nil => cases he
  | append_singleton l a ih =>
    rw [group_concat] at he
    obtain ⟨-, hentries⟩ | ⟨b, front, back, -, hm, hentries⟩ :=
      insertWith_cases key merge (group key merge l) a
    · -- the new entry stands last
      rw [hentries] at he
      rcases List.mem_append.mp he with hold | hnew
      · exact ih hold
      · rw [List.mem_singleton.mp hnew]
    · -- what was there has the key of the item, and merging keeps it
      have hold : key b = key a := ih (hm ▸ List.mem_append_right _ List.mem_cons_self)
      rw [hentries] at he
      rcases List.mem_append.mp he with hfront | hback
      · exact ih (hm ▸ List.mem_append_left _ hfront)
      · rcases List.mem_cons.mp hback with rfl | hback
        · exact (hmerge b a hold).trans hold
        · exact ih (hm ▸ List.mem_append_right _ (List.mem_cons_of_mem _ hback))

theorem key_of_get?_group {l : List ν} {k : κ} {b : ν} (h : (group key merge l).get? k = some b) :
    key b = k :=
  key_of_mem_group hmerge (OrderedMap.get?_eq_some_iff.mp h)

theorem map_key_values (l : List ν) :
    (group key merge l).values.map key = Levels.firsts (l.map key) := by
  rw [← keys_group key merge, OrderedMap.values, OrderedMap.keys, List.map_map]
  exact List.map_congr_left (fun e he => key_of_mem_group hmerge he)

/-- **A quantity that merging adds up** keeps its total. -/
theorem sum_group {M : Type} [AddCommMonoid M] {quantity : ν → M}
    (hadd : ∀ a b, key a = key b → quantity (merge a b) = quantity a + quantity b) (l : List ν) :
    ((group key merge l).values.map quantity).sum = (l.map quantity).sum := by
  induction l using List.reverseRecOn with
  | nil => rfl
  | append_singleton l a ih =>
    rw [group_concat, List.map_append, List.sum_append, ← ih, List.map_singleton, List.sum_singleton]
    unfold OrderedMap.values
    obtain ⟨-, hentries⟩ | ⟨b, front, back, hget, hm, hentries⟩ :=
      insertWith_cases key merge (group key merge l) a
    · rw [hentries]
      simp
    · have hadded := hadd b a (key_of_get?_group hmerge hget)
      rw [hentries, hm]
      simp only [List.map_append, List.map_cons, List.sum_append, List.sum_cons, hadded]
      rw [add_right_comm (quantity b), ← add_assoc]

end Merging

end OpenTogetherTube.Lib.Grouping
