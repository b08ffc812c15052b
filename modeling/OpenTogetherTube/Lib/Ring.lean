import Mathlib.Data.List.Sort
import Mathlib.Data.Set.Function
import Mathlib.Order.Basic
import Mathlib.Tactic.Common

/-!
# Rings

The elements of a ring have a hash each and lie on a circle in the order of their hashes. A key
belongs to the first element at or after it, where the smallest hash comes after the largest.

`NoLater` is the order in which one meets the hashes going round from a key. It is a linear order, so
the first element is the least one of the **set** of elements (`IsFirst`): it does not depend on how
they are listed, it stays the first of every smaller set that it belongs to, and of a larger set the
first is either it again or one of the new elements.
-/

namespace OpenTogetherTube.Lib

section Order

variable {α κ : Type} [LinearOrder κ] {hash : α → κ} {key : κ}

/-- Going round from the key, the hash `a` comes no later than `b`. -/
def NoLater (key a b : κ) : Prop :=
  if key ≤ a then key ≤ b → a ≤ b else ¬ key ≤ b ∧ a ≤ b

theorem noLater_antisymm {a b : κ} (hab : NoLater key a b) (hba : NoLater key b a) : a = b := by
  unfold NoLater at hab hba
  split at hab
  · next ha =>
    split at hba
    · next hb => exact le_antisymm (hab hb) (hba ha)
    · exact absurd ha hba.1
  · next ha =>
    rw [if_neg hab.1] at hba
    exact le_antisymm hab.2 hba.2

/-- The first element of a set, going round from the key. -/
def IsFirst (hash : α → κ) (key : κ) (s : Set α) (x : α) : Prop :=
  x ∈ s ∧ ∀ y ∈ s, NoLater key (hash x) (hash y)

namespace IsFirst

variable {s t : Set α} {x y : α}

/-- There is one first element if no two have the same hash. -/
theorem unique (hinj : Set.InjOn hash s) (hx : IsFirst hash key s x) (hy : IsFirst hash key s y) :
    x = y := by
  apply hinj hx.1 hy.1
  exact noLater_antisymm (hx.2 y hy.1) (hy.2 x hx.1)

/-- **The first element stays the first** of every smaller set it belongs to. -/
theorem of_subset (hx : IsFirst hash key t x) (hst : s ⊆ t) (hs : x ∈ s) :
    IsFirst hash key s x :=
  ⟨hs, fun y hy => hx.2 y (hst hy)⟩

/-- **The first element of a larger set** is the first of the smaller one or new. -/
theorem eq_or_not_mem (hinj : Set.InjOn hash s) (hx : IsFirst hash key s x)
    (hy : IsFirst hash key t y) (hst : s ⊆ t) : y = x ∨ y ∉ s := by
  by_cases hys : y ∈ s
  · exact .inl ((hy.of_subset hst hys).unique hinj hx)
  · exact .inr hys

end IsFirst

/-! ## Searching a sorted list -/

/-- The first at or after the key, of elements that are sorted by hash, and the very first if there
is none. -/
def searchRing (hash : α → κ) (key : κ) (sorted : List α) : Option α :=
  (sorted.find? (fun x => key ≤ hash x)).or sorted.head?

theorem searchRing_eq_none_iff {sorted : List α} :
    searchRing hash key sorted = none ↔ sorted = [] := by
  unfold searchRing
  cases sorted <;> simp

/-- **What the search finds is the first element.** -/
theorem isFirst_of_searchRing {sorted : List α}
    (hsorted : sorted.Pairwise (fun x y => hash x ≤ hash y)) {x : α}
    (h : searchRing hash key sorted = some x) : IsFirst hash key {y | y ∈ sorted} x := by
  unfold searchRing at h
  cases hfind : sorted.find? (fun x => key ≤ hash x) with
  | none =>
    -- every hash is below the key, and the smallest comes first
    rw [hfind, Option.none_or] at h
    have hbelow : ∀ y ∈ sorted, ¬ key ≤ hash y := by simpa using List.find?_eq_none.mp hfind
    cases sorted with
    | nil => cases h
    | cons first rest =>
      cases h
      refine ⟨List.mem_cons_self, fun y hy => ?_⟩
      unfold NoLater
      rw [if_neg (hbelow _ List.mem_cons_self)]
      refine ⟨hbelow y hy, ?_⟩
      rcases List.mem_cons.mp hy with rfl | hrest
      · exact le_refl _
      · exact (List.pairwise_cons.mp hsorted).1 y hrest
  | some found =>
    rw [hfind, Option.some_or] at h
    cases h
    obtain ⟨hkey, before, after, rfl, hbefore⟩ := List.find?_eq_some_iff_append.mp hfind
    rw [decide_eq_true_eq] at hkey
    refine ⟨by simp, fun y hy => ?_⟩
    unfold NoLater
    rw [if_pos hkey]
    intro hy'
    rcases List.mem_append.mp hy with hy | hy
    · exact absurd hy' (by simpa using hbefore y hy)
    · rcases List.mem_cons.mp hy with rfl | hafter
      · exact le_refl _
      · exact (List.pairwise_cons.mp (List.pairwise_append.mp hsorted).2.1).1 y hafter

end Order

/-! ## Rings -/

/-- A ring that is made of a list of elements: it keeps them sorted by hash and searches them for the
key. In which order elements of one hash are kept is its own business. -/
structure HashRing (α κ : Type) [LinearOrder κ] where
  get : (α → κ) → κ → List α → Option α
  searches : ∀ hash key nodes, ∃ sorted, sorted.Perm nodes ∧
    sorted.Pairwise (fun x y => hash x ≤ hash y) ∧ get hash key nodes = searchRing hash key sorted

namespace HashRing

variable {α κ : Type} [LinearOrder κ]

/-- A ring that sorts by insertion. -/
def sorting (α κ : Type) [LinearOrder κ] : HashRing α κ where
  get hash key nodes := searchRing hash key (nodes.insertionSort (fun x y => hash x ≤ hash y))
  searches hash key nodes := by
    have htotal : Std.Total (fun x y : α => hash x ≤ hash y) := ⟨fun _ _ => le_total _ _⟩
    have htrans : IsTrans α (fun x y : α => hash x ≤ hash y) := ⟨fun _ _ _ => le_trans⟩
    exact ⟨_, List.perm_insertionSort _ nodes, List.pairwise_insertionSort _ nodes, rfl⟩

variable (ring : HashRing α κ) {hash : α → κ} {key : κ} {nodes nodes' : List α} {x : α}

theorem get_eq_none_iff : ring.get hash key nodes = none ↔ nodes = [] := by
  obtain ⟨sorted, hperm, -, hget⟩ := ring.searches hash key nodes
  rw [hget, searchRing_eq_none_iff]
  constructor
  · rintro rfl
    exact List.nil_perm.mp hperm
  · rintro rfl
    exact List.perm_nil.mp hperm

theorem isFirst_of_get (h : ring.get hash key nodes = some x) :
    IsFirst hash key {y | y ∈ nodes} x := by
  obtain ⟨sorted, hperm, hsorted, hget⟩ := ring.searches hash key nodes
  have hfirst := isFirst_of_searchRing hsorted (hget ▸ h)
  have hset : {y | y ∈ sorted} = {y | y ∈ nodes} := Set.ext fun y => hperm.mem_iff
  rwa [hset] at hfirst

/-- **A key belongs to the first element**, if no two elements have the same hash. -/
theorem get_eq_some_iff (hinj : Set.InjOn hash {y | y ∈ nodes}) :
    ring.get hash key nodes = some x ↔ IsFirst hash key {y | y ∈ nodes} x := by
  refine ⟨ring.isFirst_of_get, fun hx => ?_⟩
  cases hget : ring.get hash key nodes with
  | none =>
    rw [ring.get_eq_none_iff] at hget
    subst hget
    cases hx.1
  | some y => rw [(ring.isFirst_of_get hget).unique hinj hx]

/-- **Only which elements there are matters**, not how they are listed. -/
theorem get_congr (hinj : Set.InjOn hash {y | y ∈ nodes}) (h : ∀ y, y ∈ nodes' ↔ y ∈ nodes) :
    ring.get hash key nodes' = ring.get hash key nodes := by
  have hset : {y | y ∈ nodes'} = {y | y ∈ nodes} := Set.ext h
  ext x
  rw [ring.get_eq_some_iff hinj, ring.get_eq_some_iff (hset ▸ hinj), hset]

/-- **Taking out other elements changes nothing.** -/
theorem get_of_subset (hinj : Set.InjOn hash {y | y ∈ nodes})
    (h : ring.get hash key nodes = some x) (hsub : ∀ y ∈ nodes', y ∈ nodes) (hx : x ∈ nodes') :
    ring.get hash key nodes' = some x := by
  rw [ring.get_eq_some_iff (hinj.mono hsub)]
  exact (ring.isFirst_of_get h).of_subset hsub hx

/-- **Putting in elements changes what a key belongs to only to one of them.** -/
theorem get_of_superset (hinj : Set.InjOn hash {y | y ∈ nodes'}) (hsub : ∀ y ∈ nodes, y ∈ nodes')
    (h : ring.get hash key nodes' = some x) :
    ring.get hash key nodes = some x ∨ x ∉ nodes := by
  have hfirst := ring.isFirst_of_get h
  cases hget : ring.get hash key nodes with
  | none =>
    rw [ring.get_eq_none_iff] at hget
    subst hget
    exact .inr List.not_mem_nil
  | some y =>
    rcases (ring.isFirst_of_get hget).eq_or_not_mem (hinj.mono hsub) hfirst hsub with rfl | hnew
    · exact .inl rfl
    · exact .inr hnew

end HashRing

end OpenTogetherTube.Lib
