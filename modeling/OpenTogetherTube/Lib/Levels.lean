import Mathlib.Data.List.Nodup
import Mathlib.Data.List.Range

/-!
# Level by level

A breadth-first walk takes the elements of a level and then those below them, until a level is empty.
A list without its repetitions keeps every value at its first index. When the values of a level are
all the same, and those of different levels differ, a walk has one value for each level left
(`firsts_blocks`), and the index of a value is the depth of its level (`indexOf_map`).
-/

namespace OpenTogetherTube.Lib.Levels

/-! ## The walk -/

section Walk

variable {α : Type} (children : α → List α)

/-- A breadth-first walk through so many levels. -/
def walk : Nat → List α → List α
  | 0, _ => []
  | n + 1, current => current ++ walk n (current.flatMap children)

/-- What is so many levels down. -/
def level : Nat → List α → List α
  | 0, current => current
  | n + 1, current => level n (current.flatMap children)

theorem level_succ (n : Nat) (current : List α) :
    level children (n + 1) current = (level children n current).flatMap children := by
  induction n generalizing current with
  | zero => rfl
  | succ n ih => exact ih (current.flatMap children)

/-- **A walk lists the levels.** -/
theorem walk_eq (n : Nat) (current : List α) :
    walk children n current = (List.range n).flatMap (fun d => level children d current) := by
  induction n generalizing current with
  | zero => rfl
  | succ n ih =>
    rw [walk, ih, List.range_succ_eq_map, List.flatMap_cons, List.flatMap_map]
    rfl

end Walk

/-! ## First indices -/

section Firsts

variable {α : Type} [DecidableEq α]

/-- `l.indexOf(a)` -/
def indexOf (l : List α) (a : α) : Int := if a ∈ l then l.idxOf a else -1

/-- `l.filter((value, index, self) => self.indexOf(value) === index)` -/
def firsts (l : List α) : List α :=
  (l.zipIdx.filter (fun e => indexOf l e.1 = e.2)).map Prod.fst

/-- One more at the end stays if it is new. -/
theorem firsts_concat (l : List α) (a : α) :
    firsts (l ++ [a]) = firsts l ++ if a ∈ l then [] else [a] := by
  have hbefore : l.zipIdx.filter (fun e => indexOf (l ++ [a]) e.1 = e.2) =
      l.zipIdx.filter (fun e => indexOf l e.1 = e.2) := by
    apply List.filter_congr
    intro e he
    have hmem : e.1 ∈ l := List.fst_mem_of_mem_zipIdx he
    rw [indexOf, indexOf, if_pos hmem, if_pos (List.mem_append_left _ hmem),
      List.idxOf_append_of_mem hmem]
  rw [firsts, firsts, List.zipIdx_append, List.filter_append, List.map_append, hbefore]
  congr 1
  by_cases hmem : a ∈ l
  · have hlt := List.idxOf_lt_length_of_mem hmem
    have hne : (l.idxOf a : Int) ≠ l.length := by omega
    simp [indexOf, hmem, List.idxOf_append_of_mem hmem, hne]
  · simp [indexOf, hmem, List.idxOf_append_of_notMem hmem]

theorem mem_firsts {l : List α} {a : α} : a ∈ firsts l ↔ a ∈ l := by
  induction l using List.reverseRecOn with
  | nil => exact Iff.rfl
  | append_singleton l b ih =>
    rw [firsts_concat, List.mem_append, List.mem_append, ih, List.mem_singleton]
    by_cases hb : b ∈ l
    · rw [if_pos hb, or_iff_left List.not_mem_nil]
      exact (or_iff_left_of_imp (fun heq => heq ▸ hb)).symm
    · rw [if_neg hb, List.mem_singleton]

theorem nodup_firsts (l : List α) : (firsts l).Nodup := by
  induction l using List.reverseRecOn with
  | nil => exact List.nodup_nil
  | append_singleton l a ih =>
    rw [firsts_concat]
    split
    · rwa [List.append_nil]
    · next hnew =>
      rw [← List.concat_eq_append]
      exact List.Nodup.concat (fun hmem => hnew (mem_firsts.mp hmem)) ih

/-- A block of one value. -/
theorem firsts_append_block {a : α} (l : List α) {block : List α} (hblock : ∀ b ∈ block, b = a) :
    firsts (l ++ block) = firsts l ++ if block = [] ∨ a ∈ l then [] else [a] := by
  induction block using List.reverseRecOn with
  | nil => simp
  | append_singleton block b ih =>
    have hb : b = a := hblock b (by simp)
    rw [← List.append_assoc, firsts_concat, ih (fun b hb => hblock b (by simp [hb])), hb]
    have hmem : a ∈ block ↔ block ≠ [] := by
      constructor
      · rintro hmem rfl
        cases hmem
      · intro hne
        obtain ⟨c, hc⟩ := List.exists_mem_of_ne_nil block hne
        exact hblock c (by simp [hc]) ▸ hc
    by_cases hnil : block = []
    · by_cases hl : a ∈ l <;> simp [hnil, hl]
    · by_cases hl : a ∈ l <;> simp [hnil, hl, hmem]

/-- **Blocks of one value each** leave these values. -/
theorem firsts_blocks {n : Nat} {block : Nat → List α} {value : Nat → α}
    (hne : ∀ d < n, block d ≠ []) (hblock : ∀ d < n, ∀ b ∈ block d, b = value d)
    (hdistinct : ∀ d < n, ∀ d' < n, value d = value d' → d = d') :
    firsts ((List.range n).flatMap block) = (List.range n).map value := by
  induction n with
  | zero => rfl
  | succ n ih =>
    have hsmaller := ih (fun d hd => hne d (by omega)) (fun d hd => hblock d (by omega))
      (fun d hd d' hd' => hdistinct d (by omega) d' (by omega))
    have hnew : value n ∉ (List.range n).flatMap block := by
      intro hmem
      obtain ⟨d, hd, hb⟩ := List.mem_flatMap.mp hmem
      have hlt := List.mem_range.mp hd
      have heq := hdistinct n (by omega) d (by omega) (hblock d (by omega) _ hb)
      omega
    rw [List.range_succ, List.flatMap_append, List.flatMap_singleton,
      firsts_append_block _ (hblock n (by omega)), hsmaller, if_neg, List.map_append, List.map_singleton]
    exact not_or.mpr ⟨hne n (by omega), hnew⟩

theorem indexOf_map {n : Nat} {value : Nat → α}
    (hdistinct : ∀ d < n, ∀ d' < n, value d = value d' → d = d') {d : Nat} (hd : d < n) :
    indexOf ((List.range n).map value) (value d) = d := by
  have hnodup : ((List.range n).map value).Nodup := by
    apply List.Nodup.map_on
    · intro d hd d' hd' heq
      exact hdistinct d (List.mem_range.mp hd) d' (List.mem_range.mp hd') heq
    · exact List.nodup_range
  have hmem : value d ∈ (List.range n).map value :=
    List.mem_map_of_mem (List.mem_range.mpr hd)
  have hlt : d < ((List.range n).map value).length := by simpa using hd
  have hget : ((List.range n).map value)[d] = value d := by simp
  have hidx := hnodup.idxOf_getElem d hlt
  rw [indexOf, if_pos hmem, ← hget, hidx]

end Firsts

end OpenTogetherTube.Lib.Levels
