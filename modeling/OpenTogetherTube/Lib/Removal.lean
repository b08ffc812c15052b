import Mathlib.Data.List.Count
import Mathlib.Data.List.Nodup
import Mathlib.Tactic.Common

/-!
# Removing is filtering

`erase`, `diff` and `eraseP` take out first occurrences. Where what is taken out occurs at most once,
they leave what a filter leaves.
-/

namespace OpenTogetherTube.Lib

section Equal

variable {α : Type} [DecidableEq α] {l : List α}

theorem erase_eq_filter_of_count {a : α} (h : l.count a ≤ 1) :
    l.erase a = l.filter (fun b => b ≠ a) := by
  induction l with
  | nil => rfl
  | cons b l ih =>
    by_cases heq : b = a
    · subst heq
      rw [List.count_cons_self] at h
      have hout : b ∉ l := List.count_eq_zero.mp (by omega)
      rw [List.erase_cons_head, List.filter_cons_of_neg (by simp)]
      refine (List.filter_eq_self.mpr fun c hc => ?_).symm
      exact decide_eq_true (fun heq => hout (heq ▸ hc))
    · rw [List.count_cons_of_ne heq] at h
      rw [List.erase_cons_tail (by simpa using heq), List.filter_cons_of_pos (by simpa using heq),
        ih h]

theorem erase_eq_filter_of_nodup (h : l.Nodup) (a : α) : l.erase a = l.filter (fun b => b ≠ a) :=
  erase_eq_filter_of_count (List.nodup_iff_count_le_one.mp h a)

theorem diff_eq_filter_of_count {m : List α} (h : ∀ a ∈ m, l.count a ≤ 1) :
    l.diff m = l.filter (fun b => b ∉ m) := by
  induction m generalizing l with
  | nil => simp
  | cons a m ih =>
    have hle : ∀ b ∈ m, (l.erase a).count b ≤ 1 := fun b hb =>
      Nat.le_trans (List.erase_sublist.count_le b) (h b (List.mem_cons_of_mem _ hb))
    rw [List.diff_cons, ih hle, erase_eq_filter_of_count (h a List.mem_cons_self),
      List.filter_filter]
    refine List.filter_congr (fun b _ => ?_)
    by_cases heq : b = a <;> simp [heq]

end Equal

/-- Only one element has the property. -/
theorem eraseP_eq_filter_of_countP {α : Type} {p : α → Bool} {l : List α} (h : l.countP p ≤ 1) :
    l.eraseP p = l.filter (fun a => !p a) := by
  induction l with
  | nil => rfl
  | cons a l ih =>
    cases hp : p a with
    | true =>
      rw [List.countP_cons_of_pos hp] at h
      have hnone : ∀ b ∈ l, ¬ p b = true := List.countP_eq_zero.mp (by omega)
      rw [List.eraseP_cons_of_pos hp, List.filter_cons_of_neg (by simp [hp])]
      refine (List.filter_eq_self.mpr fun b hb => ?_).symm
      simpa using hnone b hb
    | false =>
      rw [List.countP_cons_of_neg (by simp [hp])] at h
      rw [List.eraseP_cons_of_neg (by simp [hp]), List.filter_cons_of_pos (by simp [hp]), ih h]

/-- Only the first record with a key has it. -/
theorem eraseP_key_eq_filter {α κ : Type} [DecidableEq κ] {key : α → κ} {l : List α}
    (h : (l.map key).Nodup) (k : κ) :
    l.eraseP (fun a => key a = k) = l.filter (fun a => key a ≠ k) := by
  induction l with
  | nil => rfl
  | cons a l ih =>
    rw [List.map_cons, List.nodup_cons] at h
    by_cases hk : key a = k
    · rw [List.eraseP_cons_of_pos (by simpa using hk), List.filter_cons_of_neg (by simpa using hk)]
      refine (List.filter_eq_self.mpr (fun b hb => ?_)).symm
      have hne : key b ≠ key a := fun heq => h.1 (heq ▸ List.mem_map_of_mem hb)
      simpa [← hk] using hne
    · rw [List.eraseP_cons_of_neg (by simpa using hk), List.filter_cons_of_pos (by simpa using hk),
        ih h.2]

end OpenTogetherTube.Lib
