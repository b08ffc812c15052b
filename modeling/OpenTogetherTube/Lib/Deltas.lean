import Mathlib.Data.List.Nodup
import Mathlib.Data.Set.Basic
import Mathlib.Tactic.Common

/-!
# Sets that are followed by their changes

Somebody keeps a set up to date and tells others only what was added to it and what was removed. Who
applies all the changes in order has the set.

`Between s t d` says that `d` is the change from `s` to `t`, with nothing in it that is not needed and
nothing twice: what is added was not there, and what is removed was. `Leads s ds t` is a chain of
changes. A follower that has the set `s` and has yet to apply the changes `ds` is in step with the
set `t` exactly if `Leads s ds t`.
-/

namespace OpenTogetherTube.Lib

structure Delta (α : Type) where
  added : List α
  removed : List α
  deriving DecidableEq, Repr

namespace Delta

variable {α : Type} {s t u : Set α} {d : Delta α} {ds : List (Delta α)}

/-- The set after the change. -/
def apply (d : Delta α) (s : Set α) : Set α := {a | (a ∈ s ∧ a ∉ d.removed) ∨ a ∈ d.added}

/-- The change from one set to another. -/
structure Between (s t : Set α) (d : Delta α) : Prop where
  mem_added : ∀ a, a ∈ d.added ↔ a ∈ t ∧ a ∉ s
  mem_removed : ∀ a, a ∈ d.removed ↔ a ∈ s ∧ a ∉ t
  nodup_added : d.added.Nodup
  nodup_removed : d.removed.Nodup

/-- **The change from one set to another, applied to the one, gives the other.** -/
theorem Between.apply_eq (h : Between s t d) : d.apply s = t := by
  ext a
  have hadded := h.mem_added a
  have hremoved := h.mem_removed a
  unfold apply
  simp only [Set.mem_ofPred_eq]
  tauto

/-- The lists may come in any order. -/
theorem Between.perm (h : Between s t d) {d' : Delta α} (hadded : d'.added.Perm d.added)
    (hremoved : d'.removed.Perm d.removed) : Between s t d' where
  mem_added a := by rw [hadded.mem_iff, h.mem_added]
  mem_removed a := by rw [hremoved.mem_iff, h.mem_removed]
  nodup_added := hadded.nodup_iff.mpr h.nodup_added
  nodup_removed := hremoved.nodup_iff.mpr h.nodup_removed

/-- Removing the first of what is to be removed leaves the rest of the change. -/
theorem Between.remove {a : α} {added removed : List α} (h : Between s t ⟨added, a :: removed⟩) :
    Between {b | b ∈ s ∧ b ≠ a} t ⟨added, removed⟩ where
  mem_added b := by
    have hadded := h.mem_added b
    have hfirst := (h.mem_removed a).mp List.mem_cons_self
    simp only [Set.mem_ofPred_eq] at hadded ⊢
    rw [hadded]
    refine and_congr_right fun hb => ?_
    have hne : b ≠ a := fun heq => hfirst.2 (heq ▸ hb)
    tauto
  mem_removed b := by
    have hremoved := h.mem_removed b
    have hnodup := (List.nodup_cons.mp h.nodup_removed).1
    simp only [Set.mem_ofPred_eq, List.mem_cons] at hremoved ⊢
    constructor
    · intro hb
      have hne : b ≠ a := fun heq => hnodup (heq ▸ hb)
      have hst := hremoved.mp (.inr hb)
      exact ⟨⟨hst.1, hne⟩, hst.2⟩
    · rintro ⟨⟨hs, hne⟩, ht⟩
      exact (hremoved.mpr ⟨hs, ht⟩).resolve_left hne
  nodup_added := h.nodup_added
  nodup_removed := (List.nodup_cons.mp h.nodup_removed).2

/-- Adding the first of what is to be added, when there is nothing to be removed. -/
theorem Between.add {a : α} {added : List α} (h : Between s t ⟨a :: added, []⟩) :
    Between {b | b = a ∨ b ∈ s} t ⟨added, []⟩ where
  mem_added b := by
    have hadded := h.mem_added b
    have hnodup := (List.nodup_cons.mp h.nodup_added).1
    simp only [Set.mem_ofPred_eq, List.mem_cons, not_or] at hadded ⊢
    constructor
    · intro hb
      have hne : b ≠ a := fun heq => hnodup (heq ▸ hb)
      have hst := hadded.mp (.inr hb)
      exact ⟨hst.1, hne, hst.2⟩
    · rintro ⟨ht, hne, hs⟩
      exact (hadded.mpr ⟨ht, hs⟩).resolve_left hne
  mem_removed b := by
    have hremoved := h.mem_removed b
    have hfirst := (h.mem_added a).mp List.mem_cons_self
    simp only [Set.mem_ofPred_eq, List.not_mem_nil, false_iff, not_and, not_not] at hremoved ⊢
    rintro (rfl | hb)
    · exact hfirst.1
    · exact hremoved hb
  nodup_added := (List.nodup_cons.mp h.nodup_added).2
  nodup_removed := List.nodup_nil

/-- When there is nothing to be done, the sets are equal. -/
theorem Between.eq (h : Between s t ⟨[], []⟩) : s = t := by
  rw [← h.apply_eq]
  ext a
  simp [apply]

/-! ## Chains of changes -/

/-- The changes lead from one set to another, each of them from where the last one led. -/
def Leads (s : Set α) : List (Delta α) → Set α → Prop
  | [], t => s = t
  | d :: ds, t => ∃ u, Between s u d ∧ Leads u ds t

/-- Further changes. -/
theorem Leads.append {ds' : List (Delta α)} (h : Leads s ds t) (h' : Leads t ds' u) :
    Leads s (ds ++ ds') u := by
  induction ds generalizing s with
  | nil =>
    subst h
    exact h'
  | cons d ds ih =>
    obtain ⟨v, hd, hrest⟩ := h
    exact ⟨v, hd, ih hrest⟩

/-- A single change. -/
theorem Between.leads (h : Between s t d) : Leads s [d] t := ⟨t, h, rfl⟩

end Delta

end OpenTogetherTube.Lib
