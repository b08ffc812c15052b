import OpenTogetherTube.Lib.OrderedMap
import Mathlib.Data.List.Nodup

/-!
# Tables with an index

A table of values by key, and beside it, maintained by hand, an index that lists the keys by an
attribute of their values. `Exact` is what the index is for. Removing a key keeps an exact index
exact; inserting one does so exactly if the key is new (`exact_insert_iff`), because an insertion
appends to the index and takes nothing out of it.
-/

namespace OpenTogetherTube.Lib

/-- A table, and the keys that are listed for each attribute. -/
structure Indexed (κ ν α : Type) where
  table : OrderedMap κ ν
  index : OrderedMap α (List κ)

namespace Indexed

variable {κ ν α : Type} [DecidableEq κ] [DecidableEq α]

/-- The keys listed for an attribute. -/
def listed (t : Indexed κ ν α) (a : α) : List κ := (t.index.get? a).getD []

/-- The values whose keys are listed for an attribute. -/
def lookup (t : Indexed κ ν α) (a : α) : List ν := (t.listed a).filterMap t.table.get?

variable (attr : ν → α)

/-- The value is stored, and its key is listed for its attribute once more. -/
def insert (t : Indexed κ ν α) (k : κ) (v : ν) : Indexed κ ν α where
  table := t.table.set k v
  index := t.index.set (attr v) (t.listed (attr v) ++ [k])

/-- The key is deleted, and it is no longer listed for the attribute of the value it had. -/
def remove (t : Indexed κ ν α) (k : κ) : Indexed κ ν α where
  table := t.table.erase k
  index := match t.table.get? k with
    | some v => t.index.adjust (attr v) (fun ks => ks.filter (fun k' => k' ≠ k))
    | none => t.index

/-- Every key of the table is listed once, under the attribute of its value, and nothing else is. -/
structure Exact (t : Indexed κ ν α) : Prop where
  nodup : ∀ a, (t.listed a).Nodup
  mem : ∀ a k, k ∈ t.listed a ↔ ∃ v, t.table.get? k = some v ∧ attr v = a

variable {attr} {t : Indexed κ ν α} {k : κ} {v : ν} {a : α}

theorem listed_insert : (t.insert attr k v).listed a =
    if a = attr v then t.listed a ++ [k] else t.listed a := by
  unfold listed insert
  rw [OrderedMap.get?_set]
  split
  · next h => rw [h]; rfl
  · rfl

/-- What becomes of an entry of an exact index when a key is removed: the key was listed at one place
only, so it is gone everywhere. -/
theorem Exact.get?_index_remove (h : t.Exact attr) : (t.remove attr k).index.get? a =
    (t.index.get? a).map (fun ks => ks.filter (fun k' => k' ≠ k)) := by
  have hkeep : (∀ v, t.table.get? k = some v → attr v ≠ a) → t.index.get? a =
      (t.index.get? a).map (fun ks => ks.filter (fun k' => k' ≠ k)) := by
    intro hne
    cases hks : t.index.get? a with
    | none => rfl
    | some ks =>
      have hlisted : t.listed a = ks := by rw [listed, hks]; rfl
      refine congrArg some (List.filter_eq_self.mpr fun k' hk' => ?_).symm
      obtain ⟨v, hv, ha⟩ := (h.mem a k').mp (hlisted ▸ hk')
      exact decide_eq_true fun heq => hne v (heq ▸ hv) ha
  unfold remove
  cases hv : t.table.get? k with
  | none => exact hkeep (by simp [hv])
  | some v =>
    dsimp only
    rw [OrderedMap.get?_adjust]
    by_cases ha : a = attr v
    · rw [if_pos ha]
    · rw [if_neg ha]
      exact hkeep fun v' hv' heq => ha (by rw [hv] at hv'; cases hv'; exact heq.symm)

theorem Exact.listed_remove (h : t.Exact attr) :
    (t.remove attr k).listed a = (t.listed a).filter (fun k' => k' ≠ k) := by
  unfold listed
  rw [h.get?_index_remove]
  cases t.index.get? a <;> rfl

/-- **Inserting keeps an index exact exactly if the key is new.** -/
theorem exact_insert_iff (h : t.Exact attr) :
    (t.insert attr k v).Exact attr ↔ t.table.get? k = none := by
  constructor
  · intro h'
    refine Option.eq_none_iff_forall_ne_some.mpr fun v' hv' => ?_
    -- it was listed already, and the insertion has taken nothing out
    have hlisted : k ∈ t.listed (attr v') := (h.mem _ k).mpr ⟨v', hv', rfl⟩
    by_cases ha : attr v' = attr v
    · have hnodup := h'.nodup (attr v)
      rw [listed_insert, if_pos rfl, ← ha] at hnodup
      exact (List.nodup_append.mp hnodup).2.2 k hlisted k List.mem_cons_self rfl
    · have hlisted' : k ∈ (t.insert attr k v).listed (attr v') := by
        rw [listed_insert, if_neg ha]
        exact hlisted
      obtain ⟨w, hw, hattr⟩ := (h'.mem _ k).mp hlisted'
      rw [show (t.insert attr k v).table = t.table.set k v from rfl, OrderedMap.get?_set,
        if_pos rfl] at hw
      cases hw
      exact ha hattr.symm
  · intro hnew
    have hfresh : ∀ a, k ∉ t.listed a := by
      intro a hk
      obtain ⟨v', hv', -⟩ := (h.mem a k).mp hk
      rw [hnew] at hv'
      cases hv'
    refine ⟨fun a => ?_, fun a k' => ?_⟩
    · rw [listed_insert]
      split
      · refine List.nodup_append.mpr ⟨h.nodup a, List.nodup_singleton k, fun x hx y hy => ?_⟩
        rw [List.mem_singleton.mp hy]
        exact fun heq => hfresh a (heq ▸ hx)
      · exact h.nodup a
    · rw [listed_insert, show (t.insert attr k v).table = t.table.set k v from rfl,
        OrderedMap.get?_set]
      by_cases hk : k' = k
      · subst hk
        have hnot := hfresh a
        rw [if_pos rfl]
        split
        · next ha => simp [ha]
        · next ha => simpa [hnot] using fun heq => ha heq.symm
      · rw [if_neg hk, ← h.mem a k']
        split <;> simp [hk]

/-- Removing keeps an index exact. -/
theorem Exact.remove (h : t.Exact attr) (k : κ) : (t.remove attr k).Exact attr := by
  refine ⟨fun a => ?_, fun a k' => ?_⟩
  · rw [h.listed_remove]
    exact (h.nodup a).filter _
  · rw [h.listed_remove, List.mem_filter, h.mem a k',
      show (t.remove attr k).table = t.table.erase k from rfl, OrderedMap.get?_erase]
    by_cases hk : k' = k <;> simp [hk]

/-- An exact index finds the values with the attribute. -/
theorem Exact.mem_lookup (h : t.Exact attr) :
    v ∈ t.lookup a ↔ ∃ k, t.table.get? k = some v ∧ attr v = a := by
  rw [lookup, List.mem_filterMap]
  constructor
  · rintro ⟨k, hk, hv⟩
    obtain ⟨v', hv', ha⟩ := (h.mem a k).mp hk
    rw [hv] at hv'
    cases hv'
    exact ⟨k, hv, ha⟩
  · rintro ⟨k, hv, ha⟩
    exact ⟨k, (h.mem a k).mpr ⟨v, hv, ha⟩, hv⟩

/-- An exact index finds nothing exactly if it lists nothing. -/
theorem Exact.lookup_eq_nil_iff (h : t.Exact attr) : t.lookup a = [] ↔ t.listed a = [] := by
  constructor
  · intro hnil
    refine List.eq_nil_iff_forall_not_mem.mpr fun k hk => ?_
    obtain ⟨v, hv, ha⟩ := (h.mem a k).mp hk
    have hmem : v ∈ t.lookup a := h.mem_lookup.mpr ⟨k, hv, ha⟩
    rw [hnil] at hmem
    cases hmem
  · intro hnil
    rw [lookup, hnil]
    rfl

end Indexed

end OpenTogetherTube.Lib
