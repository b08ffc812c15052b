import Mathlib.Data.List.Nodup
import Mathlib.Data.List.Lookmap
import Mathlib.Tactic.Common

/-!
# Insertion-ordered maps

A finite map that remembers the order in which its keys were first inserted — the `Map` of
JavaScript, and, for a reader that never looks at the order, the `HashMap` of Rust.

The carrier is the list of entries together with the proof that no key occurs twice, so a map
with two values for one key cannot be built. Everything else is read off **membership**:
`get?_eq_some_iff` says that a lookup is membership of an entry, and the lookup equations of
`set`, `erase`, `retain` and `adjust` all follow from it by extensionality on `Option`.
-/

namespace OpenTogetherTube.Lib

/-- A map as its entries in insertion order, each key once. -/
@[ext] structure OrderedMap (κ ν : Type) where
  entries : List (κ × ν)
  nodupKeys : (entries.map Prod.fst).Nodup

namespace OrderedMap

variable {κ ν : Type} [DecidableEq κ]

instance [DecidableEq ν] : DecidableEq (OrderedMap κ ν) := fun a b =>
  decidable_of_iff (a.entries = b.entries) OrderedMap.ext_iff.symm

/-- No entries. -/
def empty : OrderedMap κ ν := ⟨[], List.nodup_nil⟩

instance : EmptyCollection (OrderedMap κ ν) := ⟨empty⟩

instance : Inhabited (OrderedMap κ ν) := ⟨∅⟩

/-- The keys, in insertion order. -/
def keys (m : OrderedMap κ ν) : List κ := m.entries.map Prod.fst

/-- The values, in insertion order of their keys. -/
def values (m : OrderedMap κ ν) : List ν := m.entries.map Prod.snd

/-- The number of entries. -/
def size (m : OrderedMap κ ν) : Nat := m.entries.length

/-- The value stored for `k`, if any. -/
def get? (m : OrderedMap κ ν) (k : κ) : Option ν :=
  (m.entries.find? (fun e => e.1 = k)).map Prod.snd

/-- Whether `k` has a value. -/
def contains (m : OrderedMap κ ν) (k : κ) : Bool := (m.get? k).isSome

/-- Keep the entries that satisfy `p`. -/
def retain (m : OrderedMap κ ν) (p : κ × ν → Bool) : OrderedMap κ ν where
  entries := m.entries.filter p
  nodupKeys := m.nodupKeys.sublist (List.filter_sublist.map _)

/-- Remove the entry of `k`, if any. -/
def erase (m : OrderedMap κ ν) (k : κ) : OrderedMap κ ν := m.retain (fun e => e.1 ≠ k)

/-- Apply `f` to every value. -/
def mapValues (m : OrderedMap κ ν) (f : κ → ν → ν) : OrderedMap κ ν where
  entries := m.entries.map (fun e => (e.1, f e.1 e.2))
  nodupKeys := by
    rw [List.map_map]
    exact m.nodupKeys

/-- Apply `f` to the value of `k`, if there is one. -/
def adjust (m : OrderedMap κ ν) (k : κ) (f : ν → ν) : OrderedMap κ ν :=
  m.mapValues (fun k' v => if k' = k then f v else v)

omit [DecidableEq κ] in
private theorem nodup_append_single {l : List (κ × ν)} {k : κ} {v : ν}
    (hl : (l.map Prod.fst).Nodup) (hk : ∀ e ∈ l, e.1 ≠ k) :
    ((l ++ [(k, v)]).map Prod.fst).Nodup := by
  rw [List.map_append, List.nodup_append]
  refine ⟨hl, by simp, ?_⟩
  intro a ha b hb
  obtain ⟨e, he, rfl⟩ := List.mem_map.mp ha
  have hb' : b = k := by simpa using hb
  rw [hb']
  exact hk e he

/-- Store `v` for `k`: in place when `k` has an entry already, at the end otherwise. -/
def set (m : OrderedMap κ ν) (k : κ) (v : ν) : OrderedMap κ ν :=
  if h : ∃ e ∈ m.entries, e.1 = k then m.adjust k (fun _ => v)
  else ⟨m.entries ++ [(k, v)], nodup_append_single m.nodupKeys (fun e he hk => h ⟨e, he, hk⟩)⟩

/-- The map of a list of entries; a key that comes again gets its last value. -/
def ofList (l : List (κ × ν)) : OrderedMap κ ν := l.foldl (fun m e => m.set e.1 e.2) ∅

/-! ## Lookup is membership -/

/-- **A lookup is membership of an entry.** -/
theorem get?_eq_some_iff {m : OrderedMap κ ν} {k : κ} {v : ν} :
    m.get? k = some v ↔ (k, v) ∈ m.entries := by
  obtain ⟨l, hl⟩ := m
  show (l.find? (fun e => e.1 = k)).map Prod.snd = some v ↔ (k, v) ∈ l
  induction l with
  | nil => simp
  | cons e l ih =>
    obtain ⟨k₀, v₀⟩ := e
    simp only [List.map_cons, List.nodup_cons] at hl
    by_cases hk : k₀ = k
    · subst hk
      have hnot : (k₀, v) ∉ l := fun hm => hl.1 (List.mem_map.mpr ⟨_, hm, rfl⟩)
      simp [hnot, eq_comm]
    · have hne : (k, v) ≠ (k₀, v₀) := fun h => hk (congrArg Prod.fst h).symm
      simp [hk, hne, ih hl.2]

theorem get?_eq_none_iff {m : OrderedMap κ ν} {k : κ} :
    m.get? k = none ↔ ∀ v, (k, v) ∉ m.entries := by
  constructor
  · intro h v hv
    rw [get?_eq_some_iff.mpr hv] at h
    exact absurd h (by simp)
  · intro h
    cases hg : m.get? k with
    | none => rfl
    | some v => exact absurd (get?_eq_some_iff.mp hg) (h v)

theorem contains_iff {m : OrderedMap κ ν} {k : κ} :
    m.contains k = true ↔ ∃ v, m.get? k = some v := by
  rw [contains, Option.isSome_iff_exists]

theorem mem_values_iff {m : OrderedMap κ ν} {v : ν} : v ∈ m.values ↔ ∃ k, m.get? k = some v := by
  simp [values, get?_eq_some_iff]

/-! ## The lookup equations -/

@[simp] theorem get?_empty (k : κ) : (∅ : OrderedMap κ ν).get? k = none := rfl

theorem get?_retain_eq_some {m : OrderedMap κ ν} {p : κ × ν → Bool} {k : κ} {v : ν} :
    (m.retain p).get? k = some v ↔ m.get? k = some v ∧ p (k, v) = true := by
  simp [get?_eq_some_iff, retain]

@[simp] theorem get?_erase (m : OrderedMap κ ν) (k k' : κ) :
    (m.erase k).get? k' = if k' = k then none else m.get? k' := by
  ext v
  rw [erase, get?_retain_eq_some]
  by_cases h : k' = k <;> simp [h]

theorem get?_mapValues (m : OrderedMap κ ν) (f : κ → ν → ν) (k : κ) :
    (m.mapValues f).get? k = (m.get? k).map (f k) := by
  ext v
  simp only [get?_eq_some_iff, mapValues, List.mem_map, Option.map_eq_some_iff]
  constructor
  · rintro ⟨⟨k', v'⟩, hm, heq⟩
    obtain ⟨rfl, rfl⟩ := Prod.mk.inj heq
    exact ⟨v', hm, rfl⟩
  · rintro ⟨v', hm, rfl⟩
    exact ⟨(k, v'), hm, rfl⟩

@[simp] theorem get?_adjust (m : OrderedMap κ ν) (k k' : κ) (f : ν → ν) :
    (m.adjust k f).get? k' = if k' = k then (m.get? k').map f else m.get? k' := by
  rw [adjust, get?_mapValues]
  by_cases h : k' = k <;> simp [h]

@[simp] theorem get?_set (m : OrderedMap κ ν) (k k' : κ) (v : ν) :
    (m.set k v).get? k' = if k' = k then some v else m.get? k' := by
  rw [set]
  split
  · next h =>
    obtain ⟨e, he, rfl⟩ := h
    have hsome : m.get? e.1 = some e.2 := get?_eq_some_iff.mpr he
    rw [get?_adjust]
    by_cases hk : k' = e.1
    · rw [hk, hsome]; simp
    · simp [hk]
  · next h =>
    have hnone : m.get? k = none := get?_eq_none_iff.mpr (fun v hv => h ⟨_, hv, rfl⟩)
    ext w
    simp only [get?_eq_some_iff, List.mem_append, List.mem_singleton, Prod.mk.injEq]
    by_cases hk : k' = k
    · subst hk
      have hnot := get?_eq_none_iff.mp hnone w
      simp [hnot, eq_comm]
    · simp [hk, get?_eq_some_iff]

/-- A new key that is taken out again leaves no trace. -/
theorem get?_erase_set {m : OrderedMap κ ν} {k : κ} (h : m.get? k = none) (v : ν) (k' : κ) :
    ((m.set k v).erase k).get? k' = m.get? k' := by
  rw [get?_erase, get?_set]
  split
  · next hk => rw [hk, h]
  · rfl

/-! ## A map comes back from its entries -/

/-- A new key goes to the end. -/
theorem entries_set_of_not_mem {m : OrderedMap κ ν} {k : κ} (h : ∀ e ∈ m.entries, e.1 ≠ k) (v : ν) :
    (m.set k v).entries = m.entries ++ [(k, v)] := by
  have hnot : ¬ ∃ e ∈ m.entries, e.1 = k := by
    rintro ⟨e, he, hk⟩
    exact h e he hk
  rw [set, dif_neg hnot]

/-- A key that was there keeps its place. -/
theorem entries_set_of_mem {m : OrderedMap κ ν} {front back : List (κ × ν)} {k : κ} {v : ν}
    (h : m.entries = front ++ (k, v) :: back) (v' : ν) :
    (m.set k v').entries = front ++ (k, v') :: back := by
  have hnodup := m.nodupKeys
  rw [h, List.map_append, List.map_cons, List.nodup_middle, List.nodup_cons] at hnodup
  have hkeep : ∀ l : List (κ × ν), k ∉ l.map Prod.fst →
      l.map (fun e => (e.1, if e.1 = k then v' else e.2)) = l := by
    intro l hk
    refine (List.map_congr_left (fun e he => ?_)).trans (List.map_id l)
    have hne : e.1 ≠ k := fun heq => hk (heq ▸ List.mem_map_of_mem he)
    rw [if_neg hne, id]
  rw [← List.map_append, List.map_append, List.mem_append, not_or] at hnodup
  have hmem : ∃ e ∈ m.entries, e.1 = k := by
    rw [h]
    exact ⟨(k, v), List.mem_append_right _ List.mem_cons_self, rfl⟩
  rw [set, dif_pos hmem]
  show m.entries.map (fun e => (e.1, if e.1 = k then v' else e.2)) = _
  rw [h, List.map_append, List.map_cons, hkeep front hnodup.1.1, hkeep back hnodup.1.2, if_pos rfl]

theorem entries_foldl_set (l : List (κ × ν)) (m : OrderedMap κ ν)
    (h : ((m.entries ++ l).map Prod.fst).Nodup) :
    (l.foldl (fun m e => m.set e.1 e.2) m).entries = m.entries ++ l := by
  induction l generalizing m with
  | nil => simp
  | cons e l ih =>
    have hnew : ∀ e' ∈ m.entries, e'.1 ≠ e.1 := by
      intro e' he'
      rw [List.map_append, List.nodup_append] at h
      exact h.2.2 _ (List.mem_map_of_mem he') _ (by simp)
    have hset := entries_set_of_not_mem hnew e.2
    rw [List.foldl_cons, ih _ (by rw [hset]; simpa using h), hset]
    simp

/-- What is assigned counts, and what was there counts under the other keys. -/
theorem get?_foldl_set {l : List (κ × ν)} (h : (l.map Prod.fst).Nodup) (m : OrderedMap κ ν) (k : κ) :
    (l.foldl (fun m e => m.set e.1 e.2) m).get? k =
      ((l.find? (fun e => e.1 = k)).map Prod.snd).or (m.get? k) := by
  induction l generalizing m with
  | nil => rfl
  | cons e l ih =>
    rw [List.map_cons, List.nodup_cons] at h
    rw [List.foldl_cons, ih h.2, get?_set]
    by_cases hk : e.1 = k
    · have hrest : l.find? (fun e => e.1 = k) = none := by
        refine List.find?_eq_none.mpr (fun e' he' hkey => h.1 ?_)
        rw [hk, ← of_decide_eq_true hkey]
        exact List.mem_map_of_mem he'
      rw [hrest, List.find?_cons_of_pos (by simpa using hk), if_pos hk.symm]
      rfl
    · rw [List.find?_cons_of_neg (by simpa using hk), if_neg (fun heq => hk heq.symm)]

/-- A list in which no key comes twice keeps its order. -/
theorem entries_ofList {l : List (κ × ν)} (h : (l.map Prod.fst).Nodup) :
    (ofList l).entries = l := by
  have hempty : (∅ : OrderedMap κ ν).entries = [] := rfl
  rw [ofList, entries_foldl_set _ _ (by rw [hempty]; exact h), hempty, List.nil_append]

@[simp] theorem ofList_entries (m : OrderedMap κ ν) : ofList m.entries = m :=
  OrderedMap.ext (entries_ofList m.nodupKeys)

/-! ## Membership of keys -/

@[simp] theorem contains_set (m : OrderedMap κ ν) (k k' : κ) (v : ν) :
    (m.set k v).contains k' = (decide (k' = k) || m.contains k') := by
  by_cases h : k' = k <;> simp [contains, h]

@[simp] theorem contains_erase (m : OrderedMap κ ν) (k k' : κ) :
    (m.erase k).contains k' = (decide (k' ≠ k) && m.contains k') := by
  by_cases h : k' = k <;> simp [contains, h]

@[simp] theorem contains_adjust (m : OrderedMap κ ν) (k k' : κ) (f : ν → ν) :
    (m.adjust k f).contains k' = m.contains k' := by
  by_cases h : k' = k <;> simp [contains, h]

@[simp] theorem contains_mapValues (m : OrderedMap κ ν) (f : κ → ν → ν) (k : κ) :
    (m.mapValues f).contains k = m.contains k := by
  simp [contains, get?_mapValues]

@[simp] theorem contains_empty (k : κ) : (∅ : OrderedMap κ ν).contains k = false := rfl

/-- Storing a value adds an entry, unless the key has one. -/
theorem size_set (m : OrderedMap κ ν) (k : κ) (v : ν) :
    (m.set k v).size = if m.contains k = true then m.size else m.size + 1 := by
  have hcontains : m.contains k = true ↔ ∃ e ∈ m.entries, e.1 = k := by
    rw [contains_iff]
    constructor
    · rintro ⟨v, hv⟩
      exact ⟨(k, v), get?_eq_some_iff.mp hv, rfl⟩
    · rintro ⟨⟨k, v⟩, he, rfl⟩
      exact ⟨v, get?_eq_some_iff.mpr he⟩
  unfold set size
  by_cases h : ∃ e ∈ m.entries, e.1 = k
  · rw [dif_pos h, if_pos (hcontains.mpr h)]
    exact List.length_map _
  · rw [dif_neg h, if_neg (fun hc => h (hcontains.mp hc))]
    exact List.length_append

theorem mem_keys_iff {m : OrderedMap κ ν} {k : κ} : k ∈ m.keys ↔ m.contains k = true := by
  rw [contains_iff, keys, List.mem_map]
  constructor
  · rintro ⟨⟨k, v⟩, he, rfl⟩
    exact ⟨v, get?_eq_some_iff.mpr he⟩
  · rintro ⟨v, hv⟩
    exact ⟨(k, v), get?_eq_some_iff.mp hv, rfl⟩

end OrderedMap

/-! ## Insertion-ordered sets -/

/-- A set that remembers the order in which its elements were first inserted. -/
abbrev OrderedSet (α : Type) := OrderedMap α Unit

namespace OrderedSet

variable {α : Type} [DecidableEq α]

def has (s : OrderedSet α) (a : α) : Bool := OrderedMap.contains s a

def add (s : OrderedSet α) (a : α) : OrderedSet α := OrderedMap.set s a ()

def delete (s : OrderedSet α) (a : α) : OrderedSet α := OrderedMap.erase s a

def toList (s : OrderedSet α) : List α := OrderedMap.keys s

/-- The set of the elements of a list. -/
def ofList (l : List α) : OrderedSet α := OrderedMap.ofList (l.map (fun a => (a, ())))

@[simp] theorem ofList_toList (s : OrderedSet α) : ofList s.toList = s := by
  have hentries : s.toList.map (fun a => (a, ())) = s.entries := by
    rw [toList, OrderedMap.keys, List.map_map]
    exact List.map_id s.entries
  rw [ofList, hentries, OrderedMap.ofList_entries]

@[simp] theorem has_empty (a : α) : (∅ : OrderedSet α).has a = false := rfl

@[simp] theorem has_add (s : OrderedSet α) (a b : α) :
    (s.add a).has b = (decide (b = a) || s.has b) := OrderedMap.contains_set s a b ()

/-- **The elements are those of the list.** -/
theorem mem_ofList {l : List α} {a : α} : a ∈ (ofList l).toList ↔ a ∈ l := by
  have hfold : ∀ (l : List α) (s : OrderedSet α),
      ((l.map (fun a => (a, ()))).foldl (fun m e => m.set e.1 e.2) s).contains a = true ↔
        s.contains a = true ∨ a ∈ l := by
    intro l
    induction l with
    | nil => simp
    | cons b l ih =>
      intro s
      rw [List.map_cons, List.foldl_cons, ih, OrderedMap.contains_set, List.mem_cons,
        Bool.or_eq_true, decide_eq_true_iff, ← or_assoc, or_comm (b := a = b)]
  rw [toList, OrderedMap.mem_keys_iff, ofList, OrderedMap.ofList, hfold]
  simp

@[simp] theorem has_delete (s : OrderedSet α) (a b : α) :
    (s.delete a).has b = (decide (b ≠ a) && s.has b) := OrderedMap.contains_erase s a b

/-- Deleting what is not there. -/
theorem delete_of_not_has {s : OrderedSet α} {a : α} (h : s.has a = false) : s.delete a = s := by
  refine OrderedMap.ext (List.filter_eq_self.mpr (fun e he => ?_))
  have hnone : s.get? a = none := by simpa [has, OrderedMap.contains] using h
  have hne : e.1 ≠ a := by
    rintro rfl
    exact OrderedMap.get?_eq_none_iff.mp hnone () he
  simpa using hne

end OrderedSet

end OpenTogetherTube.Lib
