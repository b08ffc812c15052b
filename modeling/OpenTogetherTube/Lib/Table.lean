import Mathlib.Data.List.Nodup
import Mathlib.Tactic.Common

/-!
# Tables

A table has rows with different keys. A row is inserted under a new key, the rows that a condition
holds of are updated or deleted, and the row with a key is replaced.

`Writes t t' r` says of all the ways in which one row is written that `r` is in the table afterwards,
and that the rows with other keys are as they were. `Separated R` says of a table that any two of its
rows are related by `R`. When a row is written, a separated table stays separated if and only if the
row is related to those with other keys (`Writes.separated_iff`).
-/

namespace OpenTogetherTube.Lib

/-- Rows with different keys. -/
structure Table {ρ κ : Type} (key : ρ → κ) where
  rows : List ρ
  keys : (rows.map key).Nodup

namespace Table

variable {ρ κ : Type} {key : ρ → κ} {t : Table key} {r r' : ρ}

instance : Membership ρ (Table key) := ⟨fun t r => r ∈ t.rows⟩

@[ext] theorem ext {t t' : Table key} (h : t.rows = t'.rows) : t = t' := by
  cases t
  cases t'
  cases h
  rfl

/-- A key has one row. -/
theorem eq_of_key (hr : r ∈ t) (hr' : r' ∈ t) (h : key r = key r') : r = r' :=
  List.inj_on_of_nodup_map t.keys hr hr' h

/-! ## What a database does to a table -/

def empty : Table key := ⟨[], List.nodup_nil⟩

def insert (t : Table key) (r : ρ) (h : ∀ r' ∈ t, key r' ≠ key r) : Table key where
  rows := t.rows ++ [r]
  keys := by
    rw [List.map_append, List.nodup_append]
    refine ⟨t.keys, List.nodup_singleton _, ?_⟩
    intro k hk k' hk' heq
    obtain ⟨r', hr', rfl⟩ := List.mem_map.mp hk
    cases List.mem_singleton.mp hk'
    exact h r' hr' heq

/-- The rows that `p` holds of are changed by `f`, which keeps their keys. -/
def update (t : Table key) (p : ρ → Bool) (f : ρ → ρ) (h : ∀ r, p r = true → key (f r) = key r) :
    Table key where
  rows := t.rows.map (fun r => if p r then f r else r)
  keys := by
    have hkeys : key ∘ (fun r => if p r then f r else r) = key := by
      funext r
      show key (if p r then f r else r) = key r
      split
      · next hp => exact h r hp
      · rfl
    rw [List.map_map, hkeys]
    exact t.keys

/-- The rows that `p` holds of are deleted. -/
def delete (t : Table key) (p : ρ → Bool) : Table key where
  rows := t.rows.filter (fun r => !p r)
  keys := List.Nodup.sublist (List.filter_sublist.map key) t.keys

/-- The row with the key of `r`, if there is one, is now `r`. -/
def replace [DecidableEq κ] (t : Table key) (r : ρ) : Table key :=
  t.update (fun r' => decide (key r' = key r)) (fun _ => r)
    (fun _ h => (of_decide_eq_true h).symm)

section Members

variable {p : ρ → Bool} {f : ρ → ρ}

@[simp] theorem not_mem_empty : ¬ r ∈ (empty : Table key) := List.not_mem_nil

@[simp] theorem mem_insert {h : ∀ r' ∈ t, key r' ≠ key r} :
    r' ∈ t.insert r h ↔ r' ∈ t ∨ r' = r := by
  show r' ∈ t.rows ++ [r] ↔ _
  rw [List.mem_append, List.mem_singleton]
  rfl

@[simp] theorem mem_update {h : ∀ r, p r = true → key (f r) = key r} :
    r' ∈ t.update p f h ↔ ∃ r ∈ t, (if p r then f r else r) = r' :=
  List.mem_map

@[simp] theorem mem_delete : r ∈ t.delete p ↔ r ∈ t ∧ p r = false := by
  show r ∈ t.rows.filter _ ↔ _
  rw [List.mem_filter, Bool.not_eq_true']
  rfl

/-- Nothing is updated where the update changes nothing. -/
theorem update_eq_self {h : ∀ r, p r = true → key (f r) = key r}
    (hf : ∀ r ∈ t, p r = true → f r = r) : t.update p f h = t := by
  apply ext
  show t.rows.map _ = t.rows
  have hmap : t.rows.map (fun r => if p r then f r else r) = t.rows.map id := by
    apply List.map_congr_left
    intro r hr
    show (if p r then f r else r) = r
    split
    · next hp => exact hf r hr hp
    · rfl
  rw [hmap, List.map_id]

theorem mem_replace [DecidableEq κ] (hr : ∃ r₀ ∈ t, key r₀ = key r) :
    r' ∈ t.replace r ↔ r' = r ∨ r' ∈ t ∧ key r' ≠ key r := by
  unfold replace
  rw [mem_update]
  constructor
  · rintro ⟨r₁, hr₁, rfl⟩
    split
    · exact .inl rfl
    · next hne => exact .inr ⟨hr₁, fun heq => hne (decide_eq_true heq)⟩
  · rintro (rfl | ⟨hr', hne⟩)
    · obtain ⟨r₀, hr₀, hkey⟩ := hr
      exact ⟨r₀, hr₀, if_pos (decide_eq_true hkey)⟩
    · exact ⟨r', hr', if_neg (fun heq => hne (of_decide_eq_true heq))⟩

end Members

/-! ## Writing one row -/

/-- `r` is in the table afterwards, and the rows with other keys are as they were. -/
def Writes (t t' : Table key) (r : ρ) : Prop := ∀ r', r' ∈ t' ↔ r' = r ∨ r' ∈ t ∧ key r' ≠ key r

section Writes

variable {t' t'' : Table key}

theorem writes_insert {h : ∀ r' ∈ t, key r' ≠ key r} : Writes t (t.insert r h) r := by
  intro r'
  rw [mem_insert]
  constructor
  · rintro (hold | rfl)
    · exact .inr ⟨hold, h r' hold⟩
    · exact .inl rfl
  · rintro (rfl | ⟨hold, -⟩)
    · exact .inr rfl
    · exact .inl hold

theorem writes_replace [DecidableEq κ] (hr : ∃ r₀ ∈ t, key r₀ = key r) :
    Writes t (t.replace r) r :=
  fun _ => mem_replace hr

/-- The row is there already. -/
theorem writes_self (hr : r ∈ t) : Writes t t r := by
  intro r'
  constructor
  · intro hr'
    by_cases hkey : key r' = key r
    · exact .inl (eq_of_key hr' hr hkey)
    · exact .inr ⟨hr', hkey⟩
  · rintro (rfl | ⟨hr', -⟩)
    · exact hr
    · exact hr'

/-- Of two rows with one key, the second counts. -/
theorem Writes.trans (h : Writes t t' r) (h' : Writes t' t'' r') (hkey : key r = key r') :
    Writes t t'' r' := by
  intro r₁
  rw [h' r₁, h r₁]
  constructor
  · rintro (rfl | ⟨rfl | ⟨hold, -⟩, hne⟩)
    · exact .inl rfl
    · exact absurd hkey hne
    · exact .inr ⟨hold, hne⟩
  · rintro (rfl | ⟨hold, hne⟩)
    · exact .inl rfl
    · exact .inr ⟨.inr ⟨hold, hkey ▸ hne⟩, hne⟩

end Writes

/-! ## Looking rows up -/

section Lookup

variable [DecidableEq κ] {t' : Table key} {k k' : κ}

/-- The row with a key. -/
def lookup (t : Table key) (k : κ) : Option ρ := t.rows.find? (fun r => key r = k)

theorem lookup_eq_some_iff : t.lookup k = some r ↔ r ∈ t ∧ key r = k := by
  constructor
  · intro h
    have hkey := List.find?_some h
    exact ⟨List.mem_of_find?_eq_some h, of_decide_eq_true hkey⟩
  · rintro ⟨hr, rfl⟩
    cases hfound : t.lookup (key r) with
    | none => exact absurd (decide_eq_true rfl) (List.find?_eq_none.mp hfound r hr)
    | some r' =>
      have hkey := List.find?_some hfound
      rw [eq_of_key (List.mem_of_find?_eq_some hfound) hr (of_decide_eq_true hkey)]

theorem lookup_eq_none_iff : t.lookup k = none ↔ ∀ r ∈ t, key r ≠ k := by
  rw [Option.eq_none_iff_forall_ne_some]
  constructor
  · exact fun h r hr hkey => h r (lookup_eq_some_iff.mpr ⟨hr, hkey⟩)
  · intro h r hr
    obtain ⟨hmem, hkey⟩ := lookup_eq_some_iff.mp hr
    exact h r hmem hkey

theorem Writes.lookup (h : Writes t t' r) (k : κ) :
    t'.lookup k = if key r = k then some r else t.lookup k := by
  split
  · next hkey => exact lookup_eq_some_iff.mpr ⟨(h r).mpr (.inl rfl), hkey⟩
  · next hne =>
    apply Option.ext
    intro r'
    rw [lookup_eq_some_iff, lookup_eq_some_iff, h r']
    constructor
    · rintro ⟨rfl | ⟨hold, -⟩, hkey⟩
      · exact absurd hkey hne
      · exact ⟨hold, hkey⟩
    · rintro ⟨hold, rfl⟩
      exact ⟨.inr ⟨hold, fun heq => hne heq.symm⟩, rfl⟩

/-- Tables have the same rows if they have the same row under each key. -/
theorem forall_mem_iff_lookup : (∀ r, r ∈ t ↔ r ∈ t') ↔ ∀ k, t.lookup k = t'.lookup k := by
  constructor
  · intro h k
    apply Option.ext
    intro r
    rw [lookup_eq_some_iff, lookup_eq_some_iff, h r]
  · intro h r
    have hiff : ∀ {t : Table key}, r ∈ t ↔ t.lookup (key r) = some r :=
      fun {t} => ⟨fun hr => lookup_eq_some_iff.mpr ⟨hr, rfl⟩, fun hr => (lookup_eq_some_iff.mp hr).1⟩
    rw [hiff, hiff, h]

/-! ## Inserting or updating -/

/-- The row with the key, if there is one, becomes `f` of it; else `f none` is inserted. -/
def upsert (t : Table key) (k : κ) (f : Option ρ → ρ) (h : ∀ o, key (f o) = k) : Table key :=
  if hk : t.lookup k = none then
    t.insert (f none) (fun r hr => (h none).symm ▸ lookup_eq_none_iff.mp hk r hr)
  else t.replace (f (t.lookup k))

theorem writes_upsert {f : Option ρ → ρ} {h : ∀ o, key (f o) = k} :
    Writes t (t.upsert k f h) (f (t.lookup k)) := by
  unfold upsert
  split
  · next hk =>
    rw [hk]
    exact writes_insert
  · next hk =>
    obtain ⟨r, hr⟩ := Option.ne_none_iff_exists'.mp hk
    obtain ⟨hmem, hkey⟩ := lookup_eq_some_iff.mp hr
    exact writes_replace ⟨r, hmem, by rw [h, hkey]⟩

theorem lookup_upsert {f : Option ρ → ρ} {h : ∀ o, key (f o) = k} :
    (t.upsert k f h).lookup k' = if k = k' then some (f (t.lookup k)) else t.lookup k' := by
  rw [writes_upsert.lookup, h]

/-- **Of many writes, those with the key count**, one after the other. -/
theorem lookup_foldl_upsert {α : Type} {kOf : α → κ} {f : α → Option ρ → ρ}
    {h : ∀ a o, key (f a o) = kOf a} (l : List α) :
    (l.foldl (fun t a => t.upsert (kOf a) (f a) (h a)) t).lookup k =
      (l.filter (fun a => kOf a = k)).foldl (fun o a => some (f a o)) (t.lookup k) := by
  induction l generalizing t with
  | nil => rfl
  | cons a l ih =>
    rw [List.foldl_cons, ih, lookup_upsert]
    split
    · next hk =>
      rw [List.filter_cons_of_pos (by simpa using hk), List.foldl_cons, hk]
    · next hk => rw [List.filter_cons_of_neg (by simpa using hk)]

/-- All of the rows, if their keys are new. -/
def insertAll (t : Table key) : List ρ → Option (Table key)
  | [] => some t
  | r :: rs =>
    if h : t.lookup (key r) = none then (t.insert r (lookup_eq_none_iff.mp h)).insertAll rs else none

theorem lookup_insert {h : ∀ r' ∈ t, key r' ≠ key r} :
    (t.insert r h).lookup k = if key r = k then some r else t.lookup k :=
  writes_insert.lookup k

theorem isSome_insertAll {rs : List ρ} : (t.insertAll rs).isSome ↔
    (rs.map key).Nodup ∧ ∀ r ∈ rs, t.lookup (key r) = none := by
  induction rs generalizing t with
  | nil => simp [insertAll]
  | cons r rs ih =>
    rw [List.map_cons, List.nodup_cons, List.forall_mem_cons]
    unfold insertAll
    split
    · next hnew =>
      rw [ih]
      simp only [lookup_insert]
      constructor
      · rintro ⟨hnodup, hfree⟩
        have hne : ∀ r' ∈ rs, key r ≠ key r' := by
          intro r' hr' heq
          have hnone := hfree r' hr'
          rw [if_pos heq] at hnone
          cases hnone
        refine ⟨⟨?_, hnodup⟩, hnew, fun r' hr' => ?_⟩
        · intro hmem
          obtain ⟨r', hr', heq⟩ := List.mem_map.mp hmem
          exact hne r' hr' heq.symm
        · exact (if_neg (hne r' hr')).symm.trans (hfree r' hr')
      · rintro ⟨⟨hmem, hnodup⟩, -, hfree⟩
        refine ⟨hnodup, fun r' hr' => ?_⟩
        have hne : key r ≠ key r' := fun heq => hmem (heq ▸ List.mem_map_of_mem hr')
        exact (if_neg hne).trans (hfree r' hr')
    · next hold => exact iff_of_false Bool.false_ne_true (fun h => hold h.2.1)

theorem lookup_insertAll {rs : List ρ} (h : t.insertAll rs = some t') :
    t'.lookup k = (t.lookup k).or (rs.find? (fun r => key r = k)) := by
  induction rs generalizing t with
  | nil =>
    cases h
    simp
  | cons r rs ih =>
    unfold insertAll at h
    split at h
    · next hnew =>
      rw [ih h, lookup_insert]
      split
      · next hk =>
        rw [List.find?_cons_of_pos (by simpa using hk), ← hk, hnew]
        rfl
      · next hk => rw [List.find?_cons_of_neg (by simpa using hk)]
    · cases h

end Lookup

/-! ## Separated rows -/

/-- Any two rows are related. -/
def Separated (t : Table key) (R : ρ → ρ → Prop) : Prop :=
  ∀ r ∈ t, ∀ r' ∈ t, key r ≠ key r' → R r r'

/-- **It is enough to look at the row that is written.** -/
theorem Writes.separated_iff {R : ρ → ρ → Prop} (hsymm : ∀ r r', R r r' → R r' r)
    {t' : Table key} (h : Writes t t' r) (ht : t.Separated R) :
    t'.Separated R ↔ ∀ r' ∈ t, key r' ≠ key r → R r r' := by
  constructor
  · intro hsep r' hr' hne
    exact hsep r ((h r).mpr (.inl rfl)) r' ((h r').mpr (.inr ⟨hr', hne⟩)) hne.symm
  · intro hnew r₁ hr₁ r₂ hr₂ hne
    rcases (h r₁).mp hr₁ with rfl | ⟨hold, hne₁⟩
    · rcases (h r₂).mp hr₂ with rfl | ⟨hold', hne₂⟩
      · exact absurd rfl hne
      · exact hnew r₂ hold' hne₂
    · rcases (h r₂).mp hr₂ with rfl | ⟨hold', -⟩
      · exact hsymm _ _ (hnew r₁ hold hne₁)
      · exact ht r₁ hold r₂ hold' hne

end Table

end OpenTogetherTube.Lib
