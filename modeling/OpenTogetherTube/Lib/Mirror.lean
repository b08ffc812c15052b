import OpenTogetherTube.Lib.OrderedMap

/-!
# A map that follows a table

Somebody has a table, a list of records that have a key, and others keep a map of it. They are given
the whole table once, and later the records that are new or have changed, and the keys of those that
are gone.

`Mirrors key m l` says that the map `m` is up to date with the table `l`. After some records of the
new table were put in, the map is up to date with it exactly if the keys of the new table are
different, every record that is new or changed was put in, and no key is gone
(`Mirrors.putAll_iff`).
-/

namespace OpenTogetherTube.Lib

variable {α κ : Type} [DecidableEq κ] {key : α → κ} {m : OrderedMap κ α} {l l' as : List α}

/-- Put records in, one after the other. -/
def OrderedMap.putAll (key : α → κ) (m : OrderedMap κ α) (as : List α) : OrderedMap κ α :=
  as.foldl (fun m a => m.set (key a) a) m

/-- A key has the record that was put in last, or what it had. -/
theorem OrderedMap.get?_putAll (key : α → κ) (m : OrderedMap κ α) (as : List α) (k : κ) :
    (∃ a ∈ as, key a = k ∧ (m.putAll key as).get? k = some a) ∨
    ((∀ a ∈ as, key a ≠ k) ∧ (m.putAll key as).get? k = m.get? k) := by
  induction as generalizing m with
  | nil => exact .inr ⟨fun a ha => absurd ha List.not_mem_nil, rfl⟩
  | cons b as ih =>
    have hcons : m.putAll key (b :: as) = (m.set (key b) b).putAll key as := rfl
    rw [hcons]
    rcases ih (m.set (key b) b) with ⟨a, ha, hk, hget⟩ | ⟨hnone, hget⟩
    · left
      exact ⟨a, List.mem_cons_of_mem b ha, hk, hget⟩
    · rw [hget, OrderedMap.get?_set]
      by_cases hk : k = key b
      · left
        exact ⟨b, List.mem_cons_self, hk.symm, if_pos hk⟩
      · right
        refine ⟨fun a ha => ?_, if_neg hk⟩
        rcases List.mem_cons.mp ha with rfl | ha
        · exact fun heq => hk heq.symm
        · exact hnone a ha

/-- The map has the records of the table by their keys, and no two records have the same key. -/
structure Mirrors (key : α → κ) (m : OrderedMap κ α) (l : List α) : Prop where
  nodup : (l.map key).Nodup
  get?_eq : ∀ k a, m.get? k = some a ↔ a ∈ l ∧ key a = k

namespace Mirrors

theorem empty : Mirrors key (∅ : OrderedMap κ α) [] where
  nodup := List.nodup_nil
  get?_eq k a := by simp

theorem get?_key (h : Mirrors key m l) {a : α} (ha : a ∈ l) : m.get? (key a) = some a :=
  (h.get?_eq (key a) a).mpr ⟨ha, rfl⟩

/-- **When records of the new table are enough.** -/
theorem putAll_iff (h : Mirrors key m l) (hsub : ∀ a ∈ as, a ∈ l') :
    Mirrors key (m.putAll key as) l' ↔
      (l'.map key).Nodup ∧ (∀ a ∈ l', a ∉ l → a ∈ as) ∧ ∀ a ∈ l, key a ∈ l'.map key := by
  constructor
  · intro h'
    refine ⟨h'.nodup, fun a ha hold => ?_, fun a ha => ?_⟩
    · rcases m.get?_putAll key as (key a) with ⟨b, hb, hk, -⟩ | ⟨-, hget⟩
      · rw [← List.inj_on_of_nodup_map h'.nodup (hsub b hb) ha hk]
        exact hb
      · rw [h'.get?_key ha] at hget
        exact absurd ((h.get?_eq (key a) a).mp hget.symm).1 hold
    · rcases m.get?_putAll key as (key a) with ⟨b, hb, hk, -⟩ | ⟨-, hget⟩
      · rw [← hk]
        exact List.mem_map_of_mem (hsub b hb)
      · rw [h.get?_key ha] at hget
        exact List.mem_map_of_mem ((h'.get?_eq (key a) a).mp hget).1
  · rintro ⟨hnodup, hchanged, hkept⟩
    refine ⟨hnodup, fun k a => ?_⟩
    rcases m.get?_putAll key as k with ⟨b, hb, rfl, hget⟩ | ⟨hnone, hget⟩
    · rw [hget]
      constructor
      · intro hab
        obtain rfl := Option.some.inj hab
        exact ⟨hsub b hb, rfl⟩
      · rintro ⟨ha, hk⟩
        rw [List.inj_on_of_nodup_map hnodup ha (hsub b hb) hk]
    · rw [hget, h.get?_eq]
      constructor
      · rintro ⟨ha, rfl⟩
        refine ⟨?_, rfl⟩
        -- the record with the key in the new table was not put in, so it is the old one
        obtain ⟨b, hb, hk⟩ := List.mem_map.mp (hkept a ha)
        have hold : b ∈ l := by
          by_contra hnew
          exact hnone b (hchanged b hb hnew) hk
        rw [← List.inj_on_of_nodup_map h.nodup hold ha hk]
        exact hb
      · rintro ⟨ha, rfl⟩
        refine ⟨?_, rfl⟩
        by_contra hnew
        exact hnone a (hchanged a ha hnew) rfl

/-- Who is given the whole table is up to date. -/
theorem ofList_iff :
    Mirrors key (OrderedMap.ofList (l.map (fun a => (key a, a)))) l ↔ (l.map key).Nodup := by
  have hputAll : OrderedMap.ofList (l.map (fun a => (key a, a))) =
      (∅ : OrderedMap κ α).putAll key l := by
    rw [OrderedMap.ofList, List.foldl_map]
    rfl
  rw [hputAll, empty.putAll_iff (fun a ha => ha)]
  simp

/-- A key that is taken out of both. -/
theorem erase (h : Mirrors key m l) (k : κ) :
    Mirrors key (m.erase k) (l.filter (fun a => key a ≠ k)) where
  nodup := h.nodup.sublist (List.filter_sublist.map key)
  get?_eq k' a := by
    rw [OrderedMap.get?_erase, List.mem_filter]
    by_cases hk : k' = k
    · subst hk
      simp
    · rw [if_neg hk, h.get?_eq]
      constructor
      · rintro ⟨ha, rfl⟩
        exact ⟨⟨ha, by simpa using hk⟩, rfl⟩
      · rintro ⟨⟨ha, -⟩, rfl⟩
        exact ⟨ha, rfl⟩

end Mirrors

end OpenTogetherTube.Lib
