import OpenTogetherTube.Common.Permissions

/-!
# Normal grants

Grants are stored as the list of their masks and built again from it. What a constructor makes, and
what setting the mask of a role below `Administrator` makes of that, is **normal**: every role has a
mask, no role has a permission that it may not have or lacks one that a lower role has, and
administrators and the owner have them all. Normal grants come back from their masks as they were
(`getMask_ofMasks`), even when the masks of administrators and the owner were not stored.

The proofs read masks bit by bit: `Has g role b`.
-/

namespace OpenTogetherTube.Common

open OpenTogetherTube.Lib

/-- The mask of all permissions. -/
def fullMask : GrantMask := parseIntoGrantMask ["*"]

theorem validationMask_administrator : getValidationMask .administrator = fullMask := by
  decide +kernel

theorem validationMask_owner : getValidationMask .owner = fullMask := by
  decide +kernel

/-- A higher role may have what a lower one may. -/
theorem validationMask_mono {lower role : Role} (hlower : lower ∈ Role.ladder)
    (h : lower.toInt ≤ role.toInt) :
    getValidationMask lower &&& getValidationMask role = getValidationMask lower := by
  cases lower <;> cases role <;> first
    | exact absurd h (by decide)
    | exact absurd hlower (by decide)
    | decide +kernel

/-- The roles that inherit: all but the owner. -/
theorem mem_ladder_iff {role : Role} : role ∈ Role.ladder ↔ role ≠ .owner := by
  cases role <;> decide

namespace Grants

/-- The bit of a permission is set for a role. -/
def Has (g : Grants) (role : Role) (b : Nat) : Prop :=
  ((g.getMask role).getD 0).getLsbD b = true

/-- No role has what it may not have. -/
def Valid (g : Grants) : Prop :=
  ∀ role b, g.Has role b → (getValidationMask role).getLsbD b = true

/-- Grants as the constructor makes them. -/
structure Normal (g : Grants) : Prop where
  total : ∀ role, (g.getMask role).isSome
  rising : ∀ {lower role b}, lower ∈ Role.ladder → role ∈ Role.ladder → lower.toInt ≤ role.toInt →
    g.Has lower b → g.Has role b
  valid : g.Valid
  administrator : g.getMask .administrator = some fullMask
  owner : g.getMask .owner = some fullMask

/-! ## Setting one role's mask -/

/-- What the roles up to this one have between them. -/
def inherited (g : Grants) (role : Role) : GrantMask :=
  ((Role.ladder.filter (fun lower => lower.toInt ≤ role.toInt)).map
    (fun lower => (g.getMask lower).getD 0)).foldl (· ||| ·) 0

/-- **Inheritance.** Every role but the owner gets what the roles below it have. -/
theorem getMask_processInheiritance (g : Grants) (role : Role) :
    g.processInheiritance.getMask role =
      if role = .owner then g.getMask role else some (g.inherited role) := by
  cases role <;>
    simp [processInheiritance, Role.ladder, getMask, inherited, Role.toInt]

theorem getLsbD_foldl_or (masks : List GrantMask) (m : GrantMask) (b : Nat) :
    (masks.foldl (· ||| ·) m).getLsbD b = true ↔
      m.getLsbD b = true ∨ ∃ mask ∈ masks, mask.getLsbD b = true := by
  induction masks generalizing m with
  | nil => simp
  | cons mask masks ih =>
    rw [List.foldl_cons, ih, BitVec.getLsbD_or, Bool.or_eq_true]
    simp [or_assoc]

theorem getLsbD_inherited (g : Grants) (role : Role) (b : Nat) :
    (g.inherited role).getLsbD b = true ↔
      ∃ lower ∈ Role.ladder, lower.toInt ≤ role.toInt ∧ g.Has lower b := by
  rw [inherited, getLsbD_foldl_or]
  simp [Has, and_assoc]

/-- The bits a role's own mask is set to. -/
theorem has_set (g : Grants) (k role : Role) (mask : GrantMask) (b : Nat) :
    (⟨g.masks.set k mask⟩ : Grants).Has role b ↔
      if role = k then mask.getLsbD b = true else g.Has role b := by
  unfold Has getMask
  rw [OrderedMap.get?_set]
  split <;> rfl

/-- **Setting a mask, bit by bit.** -/
theorem has_setRoleGrants (g : Grants) (k : Role) (mask : GrantMask) {role : Role}
    (hrole : role ≠ .owner) (b : Nat) :
    (g.setRoleGrants k mask).Has role b ↔ ∃ lower ∈ Role.ladder, lower.toInt ≤ role.toInt ∧
      if lower = k then (mask &&& getValidationMask k).getLsbD b = true else g.Has lower b := by
  rw [Has, setRoleGrants, getMask_processInheiritance, if_neg hrole, Option.getD_some,
    getLsbD_inherited]
  simp only [has_set]

theorem has_setRoleGrants_owner (g : Grants) (k : Role) (mask : GrantMask) (b : Nat) :
    (g.setRoleGrants k mask).Has .owner b ↔
      if Role.owner = k then (mask &&& getValidationMask k).getLsbD b = true
      else g.Has .owner b := by
  rw [Has, setRoleGrants, getMask_processInheiritance, if_pos rfl, ← has_set]
  rfl

theorem isSome_setRoleGrants (g : Grants) (k : Role) (mask : GrantMask) {role : Role}
    (h : role ≠ .owner ∨ role = k ∨ (g.getMask role).isSome) :
    ((g.setRoleGrants k mask).getMask role).isSome := by
  rw [setRoleGrants, getMask_processInheiritance]
  by_cases hrole : role = .owner
  · rw [if_pos hrole, getMask, OrderedMap.get?_set]
    split
    · rfl
    · next hne => exact (h.resolve_left (not_not.mpr hrole)).resolve_left hne
  · rw [if_neg hrole]
    rfl

/-! ## What the constructor makes is normal -/

theorem getLsbD_of_and_eq {m v : GrantMask} {b : Nat} (h : m &&& v = m)
    (hb : m.getLsbD b = true) : v.getLsbD b = true := by
  rw [← h, BitVec.getLsbD_and, Bool.and_eq_true] at hb
  exact hb.2

theorem Valid.setRoleGrants {g : Grants} (hg : g.Valid) (k : Role) (mask : GrantMask) :
    (g.setRoleGrants k mask).Valid := by
  intro role b hb
  by_cases hrole : role = .owner
  · subst hrole
    rw [has_setRoleGrants_owner] at hb
    split at hb
    · next hk =>
      rw [BitVec.getLsbD_and, Bool.and_eq_true, ← hk] at hb
      exact hb.2
    · exact hg _ _ hb
  · obtain ⟨lower, hlower, hle, hb⟩ := (has_setRoleGrants g k mask hrole b).mp hb
    have hvalid : (getValidationMask lower).getLsbD b = true := by
      split at hb
      · next hk =>
        rw [BitVec.getLsbD_and, Bool.and_eq_true, ← hk] at hb
        exact hb.2
      · exact hg _ _ hb
    exact getLsbD_of_and_eq (validationMask_mono hlower hle) hvalid

theorem valid_cleared : cleared.Valid := by
  intro role b hb
  simp [Has, getMask, cleared] at hb

theorem valid_setAllGrants (masks : OrderedMap Role GrantMask) : (setAllGrants masks).Valid := by
  unfold setAllGrants
  have hfold : ∀ (l : List (Role × GrantMask)) (g : Grants), g.Valid →
      (l.foldl (fun g e => if e.2 = 0 then g else g.setRoleGrants e.1 e.2) g).Valid := by
    intro l
    induction l with
    | nil => exact fun g hg => hg
    | cons e l ih =>
      intro g hg
      refine ih _ ?_
      dsimp only
      split
      · exact hg
      · exact hg.setRoleGrants _ _
  exact hfold _ _ valid_cleared

/-- A mask that was set rises. -/
theorem rising_setRoleGrants (g : Grants) (k : Role) (mask : GrantMask) {lower role : Role} {b : Nat}
    (hlower : lower ∈ Role.ladder) (hrole : role ∈ Role.ladder) (hle : lower.toInt ≤ role.toInt)
    (hb : (g.setRoleGrants k mask).Has lower b) : (g.setRoleGrants k mask).Has role b := by
  rw [has_setRoleGrants g k mask (mem_ladder_iff.mp hlower)] at hb
  obtain ⟨lowest, hlowest, hle', hb⟩ := hb
  rw [has_setRoleGrants g k mask (mem_ladder_iff.mp hrole)]
  exact ⟨lowest, hlowest, Int.le_trans hle' hle, hb⟩

/-- Two masks with the same bits. -/
theorem getMask_congr {g g' : Grants} {role : Role} (hg : (g.getMask role).isSome)
    (hg' : (g'.getMask role).isSome) (h : ∀ b, g.Has role b ↔ g'.Has role b) :
    g.getMask role = g'.getMask role := by
  obtain ⟨m, hm⟩ := Option.isSome_iff_exists.mp hg
  obtain ⟨m', hm'⟩ := Option.isSome_iff_exists.mp hg'
  have heq : m = m' := by
    apply BitVec.eq_of_getLsbD_eq
    intro b _
    have hb := h b
    simp only [Has, hm, hm', Option.getD_some] at hb
    exact Bool.eq_iff_iff.mpr hb
  rw [hm, hm', heq]

/-- The two roles that the constructor forces to have everything. -/
theorem getMask_withFullRoles_full (g : Grants) (hg : g.Valid) :
    g.withFullRoles.getMask .administrator = some fullMask ∧
    g.withFullRoles.getMask .owner = some fullMask := by
  have hfull : fullMask &&& getValidationMask .owner = fullMask := by
    rw [validationMask_owner, BitVec.and_self]
  have hfull' : fullMask &&& getValidationMask .administrator = fullMask := by
    rw [validationMask_administrator, BitVec.and_self]
  have hvalid := (hg.setRoleGrants .administrator fullMask).setRoleGrants .owner fullMask
  constructor
  · have hsome : (((g.setRoleGrants .administrator fullMask).setRoleGrants .owner
        fullMask).getMask .administrator).isSome :=
      isSome_setRoleGrants _ .owner fullMask (.inl (by decide))
    obtain ⟨m, hm⟩ := Option.isSome_iff_exists.mp hsome
    have heq : m = fullMask := by
      apply BitVec.eq_of_getLsbD_eq
      intro b _
      have hhas : ((g.setRoleGrants .administrator fullMask).setRoleGrants .owner fullMask).Has
          .administrator b ↔ m.getLsbD b = true := by rw [Has, hm, Option.getD_some]
      rw [Bool.eq_iff_iff, ← hhas]
      constructor
      · intro hb
        rw [← validationMask_administrator]
        exact hvalid _ _ hb
      · intro hb
        rw [has_setRoleGrants _ _ _ (by decide)]
        refine ⟨.administrator, by decide, Int.le_refl _, ?_⟩
        rw [if_neg (by decide), has_setRoleGrants _ _ _ (by decide)]
        refine ⟨.administrator, by decide, Int.le_refl _, ?_⟩
        rw [if_pos rfl, hfull']
        exact hb
    rw [← heq]
    exact hm
  · rw [withFullRoles, setRoleGrants, getMask_processInheiritance, if_pos rfl, getMask,
      OrderedMap.get?_set, if_pos rfl]
    exact congrArg some hfull

theorem normal_withFullRoles {g : Grants} (hg : g.Valid) : g.withFullRoles.Normal where
  total role := by
    cases role with
    | owner => exact isSome_setRoleGrants _ _ _ (.inr (.inl rfl))
    | unregisteredUser => exact isSome_setRoleGrants _ _ _ (.inl (by decide))
    | registeredUser => exact isSome_setRoleGrants _ _ _ (.inl (by decide))
    | trustedUser => exact isSome_setRoleGrants _ _ _ (.inl (by decide))
    | moderator => exact isSome_setRoleGrants _ _ _ (.inl (by decide))
    | administrator => exact isSome_setRoleGrants _ _ _ (.inl (by decide))
  rising := rising_setRoleGrants _ _ _
  valid := (hg.setRoleGrants _ _).setRoleGrants _ _
  administrator := (getMask_withFullRoles_full g hg).1
  owner := (getMask_withFullRoles_full g hg).2

/-- **What the constructor makes is normal.** -/
theorem normal_ofMasks (masks : OrderedMap Role GrantMask) : (ofMasks masks).Normal :=
  normal_withFullRoles (valid_setAllGrants masks)

theorem normal_new : new.Normal := normal_ofMasks _

/-- Setting the mask of a role below `Administrator`. -/
theorem Normal.setRoleGrants {g : Grants} (hg : g.Normal) {k : Role} (hk : k ≠ .administrator)
    (hk' : k ≠ .owner) (mask : GrantMask) : (g.setRoleGrants k mask).Normal where
  total role := isSome_setRoleGrants g k mask (.inr (.inr (hg.total role)))
  rising := rising_setRoleGrants g k mask
  valid := hg.valid.setRoleGrants k mask
  administrator := by
    have hfull : ∀ b, g.Has .administrator b ↔ fullMask.getLsbD b = true := by
      intro b
      rw [Has, hg.administrator, Option.getD_some]
    rw [← hg.administrator]
    refine getMask_congr (isSome_setRoleGrants g k mask (.inl (by decide))) (hg.total _)
      (fun b => ?_)
    constructor
    · intro hb
      rw [hfull, ← validationMask_administrator]
      exact hg.valid.setRoleGrants k mask _ _ hb
    · intro hb
      rw [has_setRoleGrants g k mask (by decide)]
      exact ⟨.administrator, by decide, Int.le_refl _, by rwa [if_neg hk.symm]⟩
  owner := by
    rw [← hg.owner]
    refine getMask_congr (isSome_setRoleGrants g k mask (.inr (.inr (hg.total _)))) (hg.total _)
      (fun b => ?_)
    rw [has_setRoleGrants_owner, if_neg hk'.symm]

/-! ## Normal grants come back from their masks -/

/-- The roles whose masks can be chosen. -/
def Chosen (role : Role) : Prop := role ≠ .administrator ∧ role ≠ .owner

/-- What is below a role that can be chosen can be chosen. -/
theorem Chosen.below {lower role : Role} (h : Chosen role) (hlower : lower ∈ Role.ladder)
    (hle : lower.toInt ≤ role.toInt) : Chosen lower := by
  refine ⟨?_, mem_ladder_iff.mp hlower⟩
  rintro rfl
  obtain ⟨hadministrator, -⟩ := h
  cases role <;> first
    | exact hadministrator rfl
    | exact absurd hle (by decide)

section Restored

variable {g h : Grants} {k : Role} {mask : GrantMask}

/-- `h` has nothing that `g` does not have. -/
def Below (h g : Grants) : Prop := ∀ role b, Chosen role → h.Has role b → g.Has role b

/-- Setting a mask of `g` stays below it. -/
theorem Below.setRoleGrants (hg : g.Normal) (hbelow : h.Below g)
    (hmask : Chosen k → mask = (g.getMask k).getD 0) : (h.setRoleGrants k mask).Below g := by
  intro role b hrole hb
  obtain ⟨lower, hlower, hle, hb⟩ := (has_setRoleGrants h k mask hrole.2 b).mp hb
  have hchosen := hrole.below hlower hle
  refine hg.rising hlower (mem_ladder_iff.mpr hrole.2) hle ?_
  split at hb
  · next hk =>
    subst hk
    rw [BitVec.getLsbD_and, Bool.and_eq_true, hmask hchosen] at hb
    exact hb.1
  · exact hbelow _ _ hchosen hb

/-- What a role has it keeps when a mask of `g` is set. -/
theorem has_setRoleGrants_of_has (hg : g.Normal) {role : Role} (hrole : Chosen role) {b : Nat}
    (hmask : Chosen k → mask = (g.getMask k).getD 0) (hb : g.Has role b)
    (h' : k = role ∨ h.Has role b) : (h.setRoleGrants k mask).Has role b := by
  rw [has_setRoleGrants h k mask hrole.2]
  refine ⟨role, mem_ladder_iff.mpr hrole.2, Int.le_refl _, ?_⟩
  by_cases hk : role = k
  · subst hk
    rw [if_pos rfl, BitVec.getLsbD_and, Bool.and_eq_true, hmask hrole]
    exact ⟨hb, hg.valid _ _ hb⟩
  · rw [if_neg hk]
    exact h'.resolve_left (fun heq => hk heq.symm)

/-- Setting the masks of `g` one after the other gives them back. -/
theorem foldl_setRoleGrants (hg : g.Normal) (l : List (Role × GrantMask))
    (hl : ∀ e ∈ l, Chosen e.1 → e.2 = (g.getMask e.1).getD 0) (hbelow : h.Below g) :
    let h' := l.foldl (fun g e => if e.2 = 0 then g else g.setRoleGrants e.1 e.2) h
    h'.Below g ∧ ∀ role b, Chosen role → g.Has role b →
      (∃ e ∈ l, e.1 = role) ∨ h.Has role b → h'.Has role b := by
  induction l generalizing h with
  | nil =>
    refine ⟨hbelow, fun role b _ _ h' => h'.resolve_left ?_⟩
    rintro ⟨e, he, -⟩
    cases he
  | cons e l ih =>
    obtain ⟨k, mask⟩ := e
    have hmask : Chosen k → mask = (g.getMask k).getD 0 := hl _ (List.mem_cons_self ..)
    have hrest : ∀ e ∈ l, Chosen e.1 → e.2 = (g.getMask e.1).getD 0 :=
      fun e he => hl e (List.mem_cons_of_mem _ he)
    dsimp only [List.foldl_cons]
    by_cases hzero : mask = 0
    · rw [if_pos hzero]
      obtain ⟨hbelow', habove⟩ := ih hrest hbelow
      refine ⟨hbelow', fun role b hrole hb hin => habove role b hrole hb ?_⟩
      obtain ⟨e, he, rfl⟩ | hin := hin
      · rcases List.mem_cons.mp he with rfl | he
        · -- nothing is granted, so nothing can be missing
          rw [Has, ← hmask hrole, hzero] at hb
          exact absurd hb (by simp)
        · exact .inl ⟨e, he, rfl⟩
      · exact .inr hin
    · rw [if_neg hzero]
      obtain ⟨hbelow', habove⟩ := ih hrest (hbelow.setRoleGrants hg hmask)
      refine ⟨hbelow', fun role b hrole hb hin => habove role b hrole hb ?_⟩
      obtain ⟨e, he, rfl⟩ | hin := hin
      · rcases List.mem_cons.mp he with rfl | he
        · exact .inr (has_setRoleGrants_of_has hg hrole hmask hb (.inl rfl))
        · exact .inl ⟨e, he, rfl⟩
      · exact .inr (has_setRoleGrants_of_has hg hrole hmask hb (.inr hin))

/-- The two forced masks change no other. -/
theorem has_withFullRoles {role : Role} (hrole : Chosen role)
    (hrising : ∀ lower ∈ Role.ladder, lower.toInt ≤ role.toInt → ∀ b, h.Has lower b → h.Has role b)
    (b : Nat) : h.withFullRoles.Has role b ↔ h.Has role b := by
  have hladder := mem_ladder_iff.mpr hrole.2
  have hstep : ∀ (h' : Grants), (∀ lower ∈ Role.ladder, lower.toInt ≤ role.toInt →
      ∀ b, h'.Has lower b → h'.Has role b) → ∀ k mask, ¬ Chosen k → ∀ b,
      (h'.setRoleGrants k mask).Has role b ↔ h'.Has role b := by
    intro h' hrising k mask hk b
    rw [has_setRoleGrants h' k mask hrole.2]
    constructor
    · rintro ⟨lower, hlower, hle, hb⟩
      have hne : lower ≠ k := fun heq => hk (heq ▸ hrole.below hlower hle)
      rw [if_neg hne] at hb
      exact hrising lower hlower hle b hb
    · intro hb
      have hne : role ≠ k := fun heq => hk (heq ▸ hrole)
      exact ⟨role, hladder, Int.le_refl _, by rwa [if_neg hne]⟩
  have hfirst := hstep h hrising .administrator fullMask (fun hc => hc.1 rfl)
  refine (hstep _ (fun lower hlower hle b hb => ?_) .owner fullMask (fun hc => hc.2 rfl) b).trans
    (hfirst b)
  exact rising_setRoleGrants h _ _ hlower hladder hle hb

/-- **Normal grants come back from their masks**, and the masks of administrators and the owner
need not be among them. -/
theorem getMask_ofMasks (hg : g.Normal) {masks : OrderedMap Role GrantMask}
    (h : ∀ role, Chosen role → (masks.get? role).getD 0 = (g.getMask role).getD 0) (role : Role) :
    (ofMasks masks).getMask role = g.getMask role := by
  have hnormal := normal_ofMasks masks
  by_cases hrole : Chosen role
  · refine getMask_congr (hnormal.total role) (hg.total role) (fun b => ?_)
    have hentries : ∀ e ∈ masks.entries, Chosen e.1 → e.2 = (g.getMask e.1).getD 0 := by
      intro e he hchosen
      rw [← h e.1 hchosen, OrderedMap.get?_eq_some_iff.mpr he, Option.getD_some]
    have hcleared : cleared.Below g := by
      intro role b _ hb
      simp [Has, getMask, cleared] at hb
    obtain ⟨hbelow, habove⟩ := foldl_setRoleGrants hg masks.entries hentries hcleared
    have hall : ∀ role b, Chosen role → ((setAllGrants masks).Has role b ↔ g.Has role b) := by
      intro role b hrole
      refine ⟨hbelow role b hrole, fun hb => habove role b hrole hb (.inl ?_)⟩
      have hsome : (masks.get? role).isSome := by
        cases hget : masks.get? role with
        | some _ => rfl
        | none =>
          rw [Has, ← h role hrole, hget] at hb
          exact absurd hb (by simp)
      obtain ⟨mask, hmask⟩ := Option.isSome_iff_exists.mp hsome
      exact ⟨_, OrderedMap.get?_eq_some_iff.mp hmask, rfl⟩
    rw [← hall role b hrole]
    refine has_withFullRoles hrole (fun lower hlower hle b hb => ?_) b
    rw [hall role b hrole]
    have hchosen := hrole.below hlower hle
    exact hg.rising hlower (mem_ladder_iff.mpr hrole.2) hle ((hall lower b hchosen).mp hb)
  · by_cases hadministrator : role = .administrator
    · rw [hadministrator, hnormal.administrator, hg.administrator]
    · have howner : role = .owner := by
        by_contra hne
        exact hrole ⟨hadministrator, hne⟩
      rw [howner, hnormal.owner, hg.owner]

end Restored

end Grants

end OpenTogetherTube.Common
