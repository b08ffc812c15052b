import Mathlib.Data.List.Nodup
import Mathlib.Tactic.Common

/-!
# Registries

A member belongs to a group, a group is hosted somewhere, and each host lists the members of its
groups. So membership is written down twice: with the member, and in a list. `Consistent` is what the
two records should have to do with each other, and for each way of changing a registry there is a
lemma that says when a consistent one stays consistent. `consistent_apply_iff` is all of them.
-/

namespace OpenTogetherTube.Lib

/-- The group of each member, the host of each group, and whom each host lists. -/
@[ext] structure Registry (κ ρ μ : Type) where
  group : κ → Option ρ
  host : ρ → Option μ
  listed : μ → ρ → List κ

namespace Registry

variable {κ ρ μ : Type}

/-- Who is listed is a member of the group, members are listed with the host of their group, and
nobody is listed twice. -/
structure Consistent (d : Registry κ ρ μ) : Prop where
  registered : ∀ m r k, k ∈ d.listed m r → d.group k = some r
  present : ∀ k r, d.group k = some r → ∃ m, d.host r = some m ∧ k ∈ d.listed m r
  nodup : ∀ m r, (d.listed m r).Nodup
  once : ∀ m r m' r' k, k ∈ d.listed m r → k ∈ d.listed m' r' → m = m' ∧ r = r'

variable {d : Registry κ ρ μ}

/-- **A consistent registry lists exactly the members of a group that is hosted there.** -/
theorem Consistent.mem_listed_iff (h : d.Consistent) {m : μ} {r : ρ} {k : κ} :
    k ∈ d.listed m r ↔ d.group k = some r ∧ d.host r = some m := by
  constructor
  · intro hk
    have hgroup := h.registered m r k hk
    obtain ⟨m', hhost, hk'⟩ := h.present k r hgroup
    obtain ⟨rfl, -⟩ := h.once m r m' r k hk hk'
    exact ⟨hgroup, hhost⟩
  · rintro ⟨hgroup, hhost⟩
    obtain ⟨m', hhost', hk⟩ := h.present k r hgroup
    rw [hhost, Option.some.injEq] at hhost'
    exact hhost' ▸ hk

/-- What makes a registry consistent, where the lists are known to be exact. -/
theorem Consistent.of_mem_listed_iff
    (hmem : ∀ m r k, k ∈ d.listed m r ↔ d.group k = some r ∧ d.host r = some m)
    (hhost : ∀ k r, d.group k = some r → ∃ m, d.host r = some m)
    (hnodup : ∀ m r, (d.listed m r).Nodup) : d.Consistent where
  registered m r k hk := ((hmem m r k).mp hk).1
  present k r hk := by
    obtain ⟨m, hm⟩ := hhost k r hk
    exact ⟨m, hm, (hmem m r k).mpr ⟨hk, hm⟩⟩
  nodup := hnodup
  once m r m' r' k hk hk' := by
    obtain ⟨hgroup, hhost⟩ := (hmem m r k).mp hk
    obtain ⟨hgroup', hhost'⟩ := (hmem m' r' k).mp hk'
    rw [hgroup, Option.some.injEq] at hgroup'
    rw [← hgroup', hhost, Option.some.injEq] at hhost'
    exact ⟨hhost', hgroup'⟩

variable [DecidableEq κ] [DecidableEq ρ] [DecidableEq μ]

/-! ## Ways of changing a registry -/

/-- The member is put on the list of a group with a host. -/
def enroll (d : Registry κ ρ μ) (k : κ) (r : ρ) (m : μ) : Registry κ ρ μ where
  group k' := if k' = k then some r else d.group k'
  host := d.host
  listed m' r' := if m' = m ∧ r' = r then d.listed m' r' ++ [k] else d.listed m' r'

/-- The member is struck out, with the host of its group. -/
def expel (d : Registry κ ρ μ) (k : κ) : Registry κ ρ μ where
  group k' := if k' = k then none else d.group k'
  host := d.host
  listed m r := if (d.group k).bind d.host = some m then (d.listed m r).filter (fun k' => k' ≠ k)
    else d.listed m r

/-- The host gives up the group. -/
def close (d : Registry κ ρ μ) (r : ρ) (m : μ) : Registry κ ρ μ where
  group := d.group
  host r' := if r' = r ∧ d.host r' = some m then none else d.host r'
  listed m' r' := if m' = m ∧ r' = r then [] else d.listed m' r'

/-- The group is hosted by `m` from now on. -/
def assign (d : Registry κ ρ μ) (r : ρ) (m : μ) : Registry κ ρ μ where
  group := d.group
  host r' := if r' = r then some m else d.host r'
  listed := d.listed

/-- The host is gone, and so are its groups and their members. -/
def abandon (d : Registry κ ρ μ) (m : μ) : Registry κ ρ μ where
  group k := (d.group k).filter (fun r => ((d.host r).filter (fun m' => m' ≠ m)).isSome)
  host r := (d.host r).filter (fun m' => m' ≠ m)
  listed m' r := if m' = m then [] else d.listed m' r

/-- The host starts with empty lists. -/
def reset (d : Registry κ ρ μ) (m : μ) : Registry κ ρ μ where
  group := d.group
  host := d.host
  listed m' r := if m' = m then [] else d.listed m' r

/-! ## What stays consistent -/

/-- **A new member is enrolled exactly with the host of its group.** -/
theorem consistent_enroll_iff (h : d.Consistent) {k : κ} (hk : d.group k = none) (r : ρ) (m : μ) :
    (d.enroll k r m).Consistent ↔ d.host r = some m := by
  have hnew : ∀ m r, k ∉ d.listed m r := by
    intro m r hin
    rw [h.registered m r k hin] at hk
    cases hk
  constructor
  · intro h'
    have hin : k ∈ (d.enroll k r m).listed m r := by simp [enroll]
    exact (h'.mem_listed_iff.mp hin).2
  · intro hhost
    refine .of_mem_listed_iff (fun m' r' k' => ?_) (fun k' r' hk' => ?_) (fun m' r' => ?_)
    · by_cases hkk : k' = k
      · subst hkk
        by_cases hplace : m' = m ∧ r' = r
        · simp [enroll, hplace, hhost]
        · simp only [enroll, hplace, if_false, hnew, if_true, Option.some.injEq, false_iff, not_and]
          rintro rfl hm
          rw [hhost, Option.some.injEq] at hm
          exact hplace ⟨hm.symm, rfl⟩
      · simp only [enroll, hkk, if_false]
        rw [← h.mem_listed_iff]
        split <;> simp [hkk]
    · simp only [enroll] at hk' ⊢
      split at hk'
      · rw [Option.some.injEq] at hk'
        exact ⟨m, hk' ▸ hhost⟩
      · obtain ⟨m', hm', -⟩ := h.present k' r' hk'
        exact ⟨m', hm'⟩
    · simp only [enroll]
      split
      · rw [List.nodup_append]
        refine ⟨h.nodup m' r', List.nodup_singleton k, ?_⟩
        intro a ha b hb
        rw [List.mem_singleton] at hb
        rintro rfl
        exact hnew m' r' (hb ▸ ha)
      · exact h.nodup m' r'

omit [DecidableEq ρ] in
/-- A member may always be expelled. -/
theorem Consistent.expel (h : d.Consistent) (k : κ) : (d.expel k).Consistent := by
  refine .of_mem_listed_iff (fun m r k' => ?_) (fun k' r hk' => ?_) (fun m r => ?_)
  · simp only [Registry.expel]
    by_cases hkk : k' = k
    · subst hkk
      simp only [if_true, reduceCtorEq, false_and, iff_false]
      split
      · simp
      · next hne =>
        rw [h.mem_listed_iff]
        rintro ⟨hgroup, hhost⟩
        exact hne (by rw [hgroup]; exact hhost)
    · rw [if_neg hkk, ← h.mem_listed_iff]
      split <;> simp [hkk]
  · simp only [Registry.expel] at hk' ⊢
    split at hk'
    · cases hk'
    · obtain ⟨m, hm, -⟩ := h.present k' r hk'
      exact ⟨m, hm⟩
  · simp only [Registry.expel]
    split
    · exact (h.nodup m r).filter _
    · exact h.nodup m r

omit [DecidableEq κ] in
/-- **A host may give up a group exactly if it lists nobody there.** -/
theorem consistent_close_iff (h : d.Consistent) (r : ρ) (m : μ) :
    (d.close r m).Consistent ↔ d.listed m r = [] := by
  constructor
  · intro h'
    rw [List.eq_nil_iff_forall_not_mem]
    intro k hk
    -- a member that was listed has no host any more
    obtain ⟨hgroup, hhost⟩ := h.mem_listed_iff.mp hk
    obtain ⟨m', hm', -⟩ := h'.present k r hgroup
    simp [close, hhost] at hm'
  · intro hnil
    have hnone : ∀ k, d.group k = some r → d.host r ≠ some m := by
      intro k hgroup hhost
      have hk := h.mem_listed_iff.mpr ⟨hgroup, hhost⟩
      rw [hnil] at hk
      cases hk
    refine .of_mem_listed_iff (fun m' r' k => ?_) (fun k r' hk => ?_) (fun m' r' => ?_)
    · simp only [close]
      by_cases hplace : m' = m ∧ r' = r
      · obtain ⟨rfl, rfl⟩ := hplace
        simp only [and_self, if_true, true_and, List.not_mem_nil, false_iff, not_and]
        intro hgroup
        rw [if_neg (hnone k hgroup)]
        exact hnone k hgroup
      · rw [if_neg hplace, h.mem_listed_iff]
        refine and_congr_right (fun hgroup => ?_)
        split
        · next heq =>
          obtain ⟨rfl, heq⟩ := heq
          exact absurd heq (hnone k hgroup)
        · rfl
    · obtain ⟨m', hm', -⟩ := h.present k r' hk
      refine ⟨m', ?_⟩
      simp only [close]
      split
      · next heq =>
        obtain ⟨rfl, heq⟩ := heq
        exact absurd heq (hnone k hk)
      · exact hm'
    · simp only [close]
      split
      · exact List.nodup_nil
      · exact h.nodup m' r'

omit [DecidableEq κ] [DecidableEq μ] in
/-- **A group may be assigned exactly if it is hosted there already, or has no members.** -/
theorem consistent_assign_iff (h : d.Consistent) (r : ρ) (m : μ) :
    (d.assign r m).Consistent ↔ d.host r = some m ∨ ∀ k, d.group k ≠ some r := by
  constructor
  · intro h'
    by_cases hmem : ∃ k, d.group k = some r
    · obtain ⟨k, hk⟩ := hmem
      have hin : k ∈ (d.assign r m).listed m r := by
        rw [h'.mem_listed_iff]
        exact ⟨hk, if_pos rfl⟩
      exact .inl (h.mem_listed_iff.mp hin).2
    · exact .inr (fun k hk => hmem ⟨k, hk⟩)
  · rintro (hhost | hnone)
    · have hsame : d.assign r m = d := by
        ext r' m' <;> simp only [assign]
        split
        · next heq => rw [heq, hhost]
        · rfl
      rw [hsame]
      exact h
    · have hother : ∀ k r', d.group k = some r' → (d.assign r m).host r' = d.host r' := by
        intro k r' hk
        refine if_neg (fun heq => hnone k ?_)
        rw [hk, heq]
      refine .of_mem_listed_iff (fun m' r' k => ?_) (fun k r' hk => ?_) h.nodup
      · refine h.mem_listed_iff.trans (and_congr_right (fun hk => ?_))
        rw [hother k r' hk]
      · obtain ⟨m', hm', -⟩ := h.present k r' hk
        exact ⟨m', (hother k r' hk).trans hm'⟩

omit [DecidableEq κ] [DecidableEq ρ] in
/-- A host may always be abandoned. -/
theorem Consistent.abandon (h : d.Consistent) (m : μ) : (d.abandon m).Consistent := by
  refine .of_mem_listed_iff (fun m' r k => ?_) (fun k r hk => ?_) (fun m' r => ?_)
  · simp only [Registry.abandon, Option.filter_eq_some_iff, decide_eq_true_eq]
    split
    · next heq => simp [heq]
    · next hne =>
      rw [h.mem_listed_iff]
      constructor
      · rintro ⟨hgroup, hhost⟩
        exact ⟨⟨hgroup, by simp [hhost, hne]⟩, hhost, hne⟩
      · rintro ⟨⟨hgroup, -⟩, hhost, -⟩
        exact ⟨hgroup, hhost⟩
  · simp only [Registry.abandon, Option.filter_eq_some_iff] at hk
    exact Option.isSome_iff_exists.mp hk.2
  · simp only [Registry.abandon]
    split
    · exact List.nodup_nil
    · exact h.nodup m' r

omit [DecidableEq κ] [DecidableEq ρ] in
/-- **A host may start anew exactly if it lists nobody.** -/
theorem consistent_reset_iff (h : d.Consistent) (m : μ) :
    (d.reset m).Consistent ↔ ∀ r, d.listed m r = [] := by
  constructor
  · intro h' r
    rw [List.eq_nil_iff_forall_not_mem]
    intro k hk
    have hin : k ∈ (d.reset m).listed m r := by
      rw [h'.mem_listed_iff]
      exact h.mem_listed_iff.mp hk
    simp [reset] at hin
  · intro hnil
    have hsame : d.reset m = d := by
      ext1
      · rfl
      · rfl
      · funext m' r
        simp only [reset]
        split
        · next heq => rw [heq, hnil r]
        · rfl
    rw [hsame]
    exact h

/-! ## Changes as data -/

variable (κ ρ μ) in
/-- The ways of changing a registry. A group that moves is given up by one host, and is another's. -/
inductive Change where
  | keep
  | enroll (k : κ) (r : ρ) (m : μ)
  | expel (k : κ)
  | close (r : ρ) (m : μ)
  | assign (r : ρ) (m : μ)
  | move (r : ρ) (m m' : μ)
  | abandon (m : μ)
  | reset (m : μ)

def apply (d : Registry κ ρ μ) : Change κ ρ μ → Registry κ ρ μ
  | .keep => d
  | .enroll k r m => d.enroll k r m
  | .expel k => d.expel k
  | .close r m => d.close r m
  | .assign r m => d.assign r m
  | .move r m m' => (d.close r m).assign r m'
  | .abandon m => d.abandon m
  | .reset m => d.reset m

/-- A change that can be meant: who is enrolled is new, and a group is assigned only if it has no
other host, and moved only from its host to another. -/
def Meant (d : Registry κ ρ μ) : Change κ ρ μ → Prop
  | .enroll k _ _ => d.group k = none
  | .assign r m => d.host r = none ∨ d.host r = some m
  | .move r m m' => d.host r = some m ∧ m ≠ m'
  | _ => True

/-- A change that forgets nobody: a member is enrolled with the host of its group, and what is given
up lists nobody. -/
def Spares (d : Registry κ ρ μ) : Change κ ρ μ → Prop
  | .enroll _ r m => d.host r = some m
  | .close r m | .move r m _ => d.listed m r = []
  | .reset m => ∀ r, d.listed m r = []
  | _ => True

omit [DecidableEq κ] in
theorem consistent_move_iff (h : d.Consistent) {r : ρ} {m m' : μ} (hhost : d.host r = some m)
    (hne : m ≠ m') : ((d.close r m).assign r m').Consistent ↔ d.listed m r = [] := by
  constructor
  · intro h'
    rw [List.eq_nil_iff_forall_not_mem]
    intro k hk
    obtain ⟨hgroup, -⟩ := h.mem_listed_iff.mp hk
    have hin : k ∈ ((d.close r m).assign r m').listed m' r :=
      h'.mem_listed_iff.mpr ⟨hgroup, if_pos rfl⟩
    have hin' : k ∈ d.listed m' r := by simpa [assign, close, Ne.symm hne] using hin
    exact hne (h.once m r m' r k hk hin').1
  · intro hnil
    refine (consistent_assign_iff ((consistent_close_iff h r m).mpr hnil) r m').mpr (.inr ?_)
    intro k hk
    have hin := h.mem_listed_iff.mpr ⟨hk, hhost⟩
    rw [hnil] at hin
    cases hin

/-- **A change keeps a registry consistent exactly if it forgets nobody.** -/
theorem consistent_apply_iff (h : d.Consistent) {c : Change κ ρ μ} (hc : d.Meant c) :
    (d.apply c).Consistent ↔ d.Spares c := by
  cases c with
  | keep => exact iff_of_true h trivial
  | enroll k r m => exact consistent_enroll_iff h hc r m
  | expel k => exact iff_of_true (h.expel k) trivial
  | close r m => exact consistent_close_iff h r m
  | assign r m =>
    refine iff_of_true ((consistent_assign_iff h r m).mpr ?_) trivial
    rcases hc with hnone | hhost
    · refine .inr (fun k hk => ?_)
      obtain ⟨m', hm', -⟩ := h.present k r hk
      rw [hnone] at hm'
      cases hm'
    · exact .inl hhost
  | move r m m' => exact consistent_move_iff h hc.1 hc.2
  | abandon m => exact iff_of_true (h.abandon m) trivial
  | reset m => exact consistent_reset_iff h m

/-- Nobody gets on a list but who is enrolled. -/
theorem mem_listed_apply {c : Change κ ρ μ} {m : μ} {r : ρ} {k : κ}
    (hk : k ∈ (d.apply c).listed m r) : k ∈ d.listed m r ∨ c = .enroll k r m := by
  cases c with
  | keep => exact .inl hk
  | enroll k' r' m' =>
    simp only [apply, enroll] at hk
    split at hk
    · next h =>
      rcases List.mem_append.mp hk with hold | hnew
      · exact .inl hold
      · rw [List.mem_singleton] at hnew
        rw [hnew, h.1, h.2]
        exact .inr rfl
    · exact .inl hk
  | expel k' =>
    simp only [apply, expel] at hk
    split at hk
    · exact .inl (List.mem_of_mem_filter hk)
    · exact .inl hk
  | close r' m' | move r' m' m'' | reset m' | abandon m' =>
    simp only [apply, close, assign, reset, abandon] at hk
    split at hk
    · cases hk
    · exact .inl hk
  | assign r' m' => exact .inl hk

/-- Nobody becomes a member but who is enrolled. -/
theorem group_apply {c : Change κ ρ μ} {r : ρ} {k : κ} (hk : (d.apply c).group k = some r) :
    d.group k = some r ∨ ∃ m, c = .enroll k r m := by
  cases c with
  | enroll k' r' m' =>
    simp only [apply, enroll] at hk
    split at hk
    · next h =>
      cases hk
      exact .inr ⟨m', by rw [h]⟩
    · exact .inl hk
  | expel k' =>
    simp only [apply, expel] at hk
    split at hk
    · cases hk
    · exact .inl hk
  | abandon m' =>
    simp only [apply, abandon, Option.filter_eq_some_iff] at hk
    exact .inl hk.1
  | keep | close r' m' | assign r' m' | move r' m' m'' | reset m' => exact .inl hk

/-- A member stays one, if it is not enrolled elsewhere, not expelled, and its group keeps a host. -/
theorem group_apply_of_kept {c : Change κ ρ μ} {r : ρ} {k : κ} (hk : d.group k = some r)
    (henroll : ∀ r m, c ≠ .enroll k r m) (hexpel : c ≠ .expel k)
    (habandon : ∀ m, c = .abandon m → ∃ m', d.host r = some m' ∧ m' ≠ m) :
    (d.apply c).group k = some r := by
  cases c with
  | enroll k' r' m' =>
    refine (if_neg ?_).trans hk
    rintro rfl
    exact henroll r' m' rfl
  | expel k' =>
    refine (if_neg ?_).trans hk
    rintro rfl
    exact hexpel rfl
  | abandon m' =>
    obtain ⟨m'', hhost, hne⟩ := habandon m' rfl
    simp [apply, abandon, hk, hhost, Option.filter, hne]
  | keep | close r' m' | assign r' m' | move r' m' m'' | reset m' => exact hk

end Registry

end OpenTogetherTube.Lib
