import OpenTogetherTube.Common.GrantForms

/-!
# The permission editor

The editor shows a table with a row for each permission and a checkbox for each role from
`UnregisteredUser` to `Administrator`. It takes the table from the grants, keeps it on the permissions
themselves, and after each click builds grants from the table and takes the table from them again.

Only the lowest box that is checked counts in a row: the constructor of `Grants` hands the permission
up from there, and drops what a role may not have. The table of well-formed grants is rebuilt to the
same grants, and a click on a box that is not disabled moves the one permission and nothing else
(`editor_faithful`).
-/

namespace OpenTogetherTube.Common.Grants

/-! ## Setting the masks of all roles -/

section Each

variable {h : Grants} {m : Role → GrantMask}

/-- The masks of different roles that were given nothing yet. -/
theorem Spans.foldl {l : List Role} (hl : l.Nodup) (hspans : h.Spans m) (hm : ∀ k ∈ l, m k = 0)
    (masks : Role → GrantMask) :
    (l.foldl (fun g role => g.setRoleGrants role (masks role)) h).Spans
      (fun k => if k ∈ l then masks k else m k) := by
  induction l generalizing h m with
  | nil => simpa using hspans
  | cons k l ih =>
    rw [List.nodup_cons] at hl
    have hrest : ∀ k' ∈ l, Function.update m k (masks k) k' = 0 := by
      intro k' hk'
      rw [Function.update_of_ne (ne_of_mem_of_not_mem hk' hl.1)]
      exact hm k' (List.mem_cons_of_mem _ hk')
    have hfold := ih hl.2 (hspans.setRoleGrants (hm k List.mem_cons_self) (masks k)) hrest
    have hsame : (fun k' => if k' ∈ l then masks k' else Function.update m k (masks k) k') =
        (fun k' => if k' ∈ k :: l then masks k' else m k') := by
      funext k'
      by_cases hk : k' = k
      · subst hk
        simp
      · simp [hk]
    rw [hsame] at hfold
    exact hfold

/-- The constructor, of an object with a mask for every role up to `Administrator`: its keys come in
ascending order, whatever order they were written in. -/
def ofObject (masks : Role → GrantMask) : Grants :=
  withFullRoles (Role.ladder.foldl (fun g role => g.setRoleGrants role (masks role)) cleared)

theorem valid_foldl {l : List Role} (hvalid : h.Valid) (masks : Role → GrantMask) :
    (l.foldl (fun g role => g.setRoleGrants role (masks role)) h).Valid := by
  induction l generalizing h with
  | nil => exact hvalid
  | cons k l ih => exact ih (hvalid.setRoleGrants k (masks k))

theorem normal_ofObject (masks : Role → GrantMask) : (ofObject masks).Normal :=
  normal_withFullRoles (valid_foldl valid_cleared masks)

/-- **What a role has** is what it and the roles below it were given of what they may have. -/
theorem has_ofObject (masks : Role → GrantMask) {role : Role} (hrole : Chosen role) (b : Nat) :
    (ofObject masks).Has role b ↔ ∃ lower ∈ Role.ladder, lower.toInt ≤ role.toInt ∧
      (masks lower &&& getValidationMask lower).getLsbD b = true := by
  have hladder := mem_ladder_iff.mpr hrole.2
  have hspans := Spans.foldl (by decide : Role.ladder.Nodup) spans_cleared (fun _ _ => rfl) masks
  have hunion : ∀ role ∈ Role.ladder, ∀ b,
      (Role.ladder.foldl (fun g role => g.setRoleGrants role (masks role)) cleared).Has role b ↔
        ∃ lower ∈ Role.ladder, lower.toInt ≤ role.toInt ∧
          (masks lower &&& getValidationMask lower).getLsbD b = true := by
    intro role hrole b
    rw [hspans role hrole, getLsbD_unionUpTo]
    constructor
    · rintro ⟨lower, hlower, hle, hb⟩
      rw [if_pos hlower] at hb
      exact ⟨lower, hlower, hle, hb⟩
    · rintro ⟨lower, hlower, hle, hb⟩
      refine ⟨lower, hlower, hle, ?_⟩
      rw [if_pos hlower]
      exact hb
  have hrising : ∀ lower ∈ Role.ladder, lower.toInt ≤ role.toInt → ∀ b,
      (Role.ladder.foldl (fun g role => g.setRoleGrants role (masks role)) cleared).Has lower b →
      (Role.ladder.foldl (fun g role => g.setRoleGrants role (masks role)) cleared).Has role b := by
    intro lower hlower hle b hb
    obtain ⟨lowest, hlowest, hle', hb⟩ := (hunion lower hlower b).mp hb
    exact (hunion role hladder b).mpr ⟨lowest, hlowest, hle'.trans hle, hb⟩
  rw [ofObject, has_withFullRoles hrole hrising, hunion role hladder]

end Each

end OpenTogetherTube.Common.Grants

namespace OpenTogetherTube.Client.PermissionsEditor

open OpenTogetherTube.Common

/-! ## The editor -/

/-- A row: a permission with the properties `0` to `4` that the editor puts on it. -/
structure Item extends Permission where
  checked : Role → Bool

/-- The lowest role with this permission granted. The keys of the row are compared as strings, which
for one digit is the order of the numbers. -/
def getLowestGranted (permission : Item) : Role :=
  (Role.ladder.find? permission.checked).getD .administrator

/-- `grants[r]`. A `Grants` has its masks in a map, and no such property. -/
def property (_ : Grants) (_ : Role) : Option GrantMask := none

/-- What `extractFromGrants` puts into one cell. -/
def cell (grants : Grants) (perm : Permission) (role : Role) : Bool :=
  let fullmask := (Role.ladder.filter (fun r => r.toInt < role.toInt)).reverse.foldl
    (fun fullmask r => fullmask ||| (property grants r).getD 0) ((grants.getMask role).getD 0)
  0 < (fullmask &&& perm.mask).toInt

def extractFromGrants (grants : Grants) : List Item :=
  permissions.map (fun perm => ⟨perm, cell grants perm⟩)

/-- The object that `rebuildMasks` fills. -/
def collectMasks (items : List Item) : Role → GrantMask :=
  (permissions.zip items).foldl (fun grants e =>
    let lowest := getLowestGranted e.2
    Function.update grants lowest (grants lowest ||| e.1.mask)) (fun _ => 0)

def rebuildMasks (items : List Item) : Grants := .ofObject (collectMasks items)

structure Editor where
  permissions : List Item
  model : Grants

/-- The editor as it is set up. -/
def setup (modelValue : Grants) : Editor := ⟨extractFromGrants modelValue, modelValue⟩

def onCheckboxModified (e : Editor) : Editor :=
  let masks := rebuildMasks e.permissions
  ⟨extractFromGrants masks, masks⟩

/-- The checkbox writes its new value to the row. -/
def check (items : List Item) (p : Permission) (r : Role) : List Item :=
  items.map (fun item => if item.toPermission = p then
    { item with checked := Function.update item.checked r (!item.checked r) } else item)

/-- A click on the checkbox of a permission and a role. -/
def click (e : Editor) (p : Permission) (r : Role) : Editor :=
  onCheckboxModified { e with permissions := check e.permissions p r }

/-! ## The bits of permissions -/

theorem mask_eq {p : Permission} (hp : p ∈ permissions) :
    ∃ b < 27, p.mask = BitVec.twoPow 32 b := by
  have hmasks : permissions.map (·.mask) = (List.range 27).map (BitVec.twoPow 32) := by
    decide +kernel
  have hmem : p.mask ∈ (List.range 27).map (BitVec.twoPow 32) :=
    hmasks ▸ List.mem_map_of_mem hp
  obtain ⟨b, hb, heq⟩ := List.mem_map.mp hmem
  exact ⟨b, List.mem_range.mp hb, heq.symm⟩

/-- No two permissions share a bit. -/
theorem eq_of_getLsbD {p q : Permission} (hp : p ∈ permissions) (hq : q ∈ permissions) {b : Nat}
    (hpb : p.mask.getLsbD b = true) (hqb : q.mask.getLsbD b = true) : p = q := by
  have hdistinct : (permissions.map (·.mask)).Nodup := by decide +kernel
  obtain ⟨i, -, hi⟩ := mask_eq hp
  obtain ⟨j, -, hj⟩ := mask_eq hq
  apply List.inj_on_of_nodup_map hdistinct hp hq
  show p.mask = q.mask
  rw [hi, BitVec.getLsbD_twoPow] at hpb
  rw [hj, BitVec.getLsbD_twoPow] at hqb
  rw [hi, hj]
  grind

/-- `granted` with a `Permission`: whether the role has it. -/
def granted (g : Grants) (role : Role) (permission : Permission) : Bool :=
  ((g.getMask role).getD 0 &&& permission.mask) = permission.mask

theorem granted_iff {p : Permission} (hp : p ∈ permissions) {b : Nat}
    (hb : p.mask.getLsbD b = true) (g : Grants) (role : Role) :
    granted g role p = true ↔ g.Has role b := by
  obtain ⟨i, hi, hmask⟩ := mask_eq hp
  have hnonzero : ∀ i < 27, (0 : GrantMask) ≠ BitVec.twoPow 32 i := by decide
  have hbit : b = i := by
    rw [hmask, BitVec.getLsbD_twoPow] at hb
    grind
  rw [granted, hmask, BitVec.and_twoPow, Grants.Has, hbit, decide_eq_true_eq]
  split
  · next hset => exact ⟨fun _ => hset, fun _ => rfl⟩
  · next hset => exact ⟨fun heq => absurd heq (hnonzero i hi), fun hb => absurd hb hset⟩

theorem exists_getLsbD {p : Permission} (hp : p ∈ permissions) :
    ∃ b, p.mask.getLsbD b = true := by
  obtain ⟨b, hb, hmask⟩ := mask_eq hp
  refine ⟨b, ?_⟩
  rw [hmask, BitVec.getLsbD_twoPow]
  simp only [decide_true, Bool.and_true, decide_eq_true_eq]
  omega

/-- **A cell is checked** exactly if the role has the permission. -/
theorem cell_eq {p : Permission} (hp : p ∈ permissions) (g : Grants) (role : Role) :
    cell g p role = granted g role p := by
  obtain ⟨b, hb, hmask⟩ := mask_eq hp
  have hnonzero : ∀ i < 27, (0 : GrantMask) ≠ BitVec.twoPow 32 i := by decide
  have hpositive : ∀ b < 27, 0 < (BitVec.twoPow 32 b).toInt := by decide
  have hfold : ∀ (l : List Role) (m : GrantMask),
      l.foldl (fun fullmask r => fullmask ||| (property g r).getD 0) m = m := by
    intro l
    induction l with
    | nil => exact fun m => rfl
    | cons r l ih =>
      intro m
      rw [List.foldl_cons, ih]
      exact BitVec.or_zero
  rw [granted, cell, hfold, hmask, BitVec.and_twoPow, decide_eq_decide]
  split
  · exact ⟨fun _ => rfl, fun _ => hpositive b hb⟩
  · exact ⟨fun hnone => absurd hnone (by decide), fun heq => absurd heq (hnonzero b hb)⟩

/-! ## Rebuilding the masks -/

section Rebuild

variable {items : List Item}

theorem getLowestGranted_mem (item : Item) : getLowestGranted item ∈ Role.ladder := by
  unfold getLowestGranted
  cases hfind : Role.ladder.find? item.checked with
  | none => decide
  | some role => exact List.mem_of_find?_eq_some hfind

theorem getLsbD_collect (l : List (Permission × Item)) (m : Role → GrantMask) (k : Role) (b : Nat) :
    (l.foldl (fun grants e => let lowest := getLowestGranted e.2
      Function.update grants lowest (grants lowest ||| e.1.mask)) m k).getLsbD b = true ↔
      (m k).getLsbD b = true ∨ ∃ e ∈ l, getLowestGranted e.2 = k ∧ e.1.mask.getLsbD b = true := by
  induction l generalizing m with
  | nil => simp
  | cons e l ih =>
    rw [List.foldl_cons, ih]
    by_cases hk : getLowestGranted e.2 = k
    · subst hk
      simp [BitVec.getLsbD_or, or_assoc]
    · simp [hk, Function.update_of_ne (Ne.symm hk)]

/-- The rows are those of the permissions, in their order. -/
def Rows (items : List Item) : Prop := items.map (·.toPermission) = permissions

theorem rows_extractFromGrants (g : Grants) : Rows (extractFromGrants g) := by
  unfold Rows extractFromGrants
  rw [List.map_map]
  exact List.map_id _

theorem Rows.mem (hrows : Rows items) {item : Item} (hitem : item ∈ items) :
    item.toPermission ∈ permissions :=
  hrows ▸ List.mem_map_of_mem hitem

theorem getLsbD_collectMasks (hrows : Rows items) (k : Role) (b : Nat) :
    (collectMasks items k).getLsbD b = true ↔
      ∃ item ∈ items, getLowestGranted item = k ∧ item.mask.getLsbD b = true := by
  have hzip : permissions.zip items = items.map (fun item => (item.toPermission, item)) := by
    rw [← hrows]
    clear hrows
    induction items with
    | nil => rfl
    | cons item items ih => simp [ih]
  rw [collectMasks, getLsbD_collect, hzip]
  simp

/-- **What a role has** in the rebuilt grants. -/
theorem has_rebuildMasks (hrows : Rows items)
    (hmin : ∀ item ∈ items, item.minRole.toInt ≤ (getLowestGranted item).toInt) {role : Role}
    (hrole : role ∈ Role.ladder) (b : Nat) :
    (rebuildMasks items).Has role b ↔ ∃ item ∈ items,
      (getLowestGranted item).toInt ≤ role.toInt ∧ item.mask.getLsbD b = true := by
  by_cases hchosen : Grants.Chosen role
  · rw [rebuildMasks, Grants.has_ofObject _ hchosen]
    constructor
    · -- what is inherited comes from a row whose lowest box is that of the lower role
      rintro ⟨lower, -, hle, hb⟩
      rw [BitVec.getLsbD_and, Bool.and_eq_true, getLsbD_collectMasks hrows] at hb
      obtain ⟨⟨item, hitem, rfl, hb⟩, -⟩ := hb
      exact ⟨item, hitem, hle, hb⟩
    · rintro ⟨item, hitem, hle, hb⟩
      have hlower := getLowestGranted_mem item
      refine ⟨_, hlower, hle, ?_⟩
      rw [BitVec.getLsbD_and, Bool.and_eq_true, getLsbD_collectMasks hrows, ← permitted_eq hlower,
        getLsbD_permitted]
      exact ⟨⟨item, hitem, rfl, hb⟩, _, hrows.mem hitem, hmin item hitem, hb⟩
  · -- administrators have everything
    have hadministrator : role = .administrator := by
      by_contra hne
      exact hchosen ⟨hne, mem_ladder_iff.mp hrole⟩
    subst hadministrator
    have hhighest : ∀ lower ∈ Role.ladder, lower.toInt ≤ Role.administrator.toInt := by decide
    have hleast : ∀ p ∈ permissions, p.minRole.toInt ≤ Role.administrator.toInt := by decide
    rw [Grants.Has, rebuildMasks, (Grants.normal_ofObject _).administrator, Option.getD_some,
      ← validationMask_administrator, ← permitted_eq hrole, getLsbD_permitted, ← hrows]
    constructor
    · rintro ⟨p, hp, -, hb⟩
      obtain ⟨item, hitem, rfl⟩ := List.mem_map.mp hp
      exact ⟨item, hitem, hhighest _ (getLowestGranted_mem item), hb⟩
    · rintro ⟨item, hitem, -, hb⟩
      exact ⟨_, List.mem_map_of_mem hitem, hleast _ (hrows.mem hitem), hb⟩

end Rebuild

/-! ## Rows and their lowest boxes -/

section Lowest

variable {item : Item}

/-- The lowest box that is checked, in a row that has one. -/
theorem getLowestGranted_spec (h : ∃ role ∈ Role.ladder, item.checked role = true) :
    item.checked (getLowestGranted item) = true ∧
    ∀ role ∈ Role.ladder, item.checked role = true →
      (getLowestGranted item).toInt ≤ role.toInt := by
  obtain ⟨lowest, hlowest⟩ := Option.isSome_iff_exists.mp (List.find?_isSome.mpr h)
  have heq : getLowestGranted item = lowest := by
    rw [getLowestGranted, hlowest, Option.getD_some]
  rw [heq]
  obtain ⟨hchecked, before, behind, hsplit, hbefore⟩ := List.find?_eq_some_iff_append.mp hlowest
  refine ⟨hchecked, fun role hrole hrolechecked => ?_⟩
  have hsorted : Role.ladder.Pairwise (fun lower role => lower.toInt < role.toInt) := by decide
  rw [hsplit] at hrole hsorted
  rcases List.mem_append.mp hrole with hin | hin
  · have hnot := hbefore role hin
    rw [hrolechecked] at hnot
    exact absurd hnot (by decide)
  · rcases List.mem_cons.mp hin with rfl | hin
    · exact Int.le_refl _
    · have htail := (List.pairwise_append.mp hsorted).2.1
      exact Int.le_of_lt ((List.pairwise_cons.mp htail).1 role hin)

theorem toInt_getLowestGranted {first : Role} (hfirst : first ∈ Role.ladder)
    (hchecked : item.checked first = true)
    (hleast : ∀ role ∈ Role.ladder, item.checked role = true → first.toInt ≤ role.toInt) :
    (getLowestGranted item).toInt = first.toInt := by
  obtain ⟨hlowest, hle⟩ := getLowestGranted_spec ⟨first, hfirst, hchecked⟩
  apply Int.le_antisymm
  · exact hle first hfirst hchecked
  · exact hleast _ (getLowestGranted_mem item) hlowest

end Lowest

/-! ## Well-formed grants -/

section Normal

variable {g : Grants} {p : Permission} {r : Role}

/-- What a role has is a permission that it may have. -/
theorem exists_granted (hg : g.Normal) {role : Role} (hrole : role ∈ Role.ladder) {b : Nat}
    (hb : g.Has role b) :
    ∃ q ∈ permissions, q.minRole.toInt ≤ role.toInt ∧ q.mask.getLsbD b = true := by
  rw [← getLsbD_permitted, permitted_eq hrole]
  exact hg.valid role b hb

theorem minRole_le (hg : g.Normal) (hp : p ∈ permissions) {role : Role} (hrole : role ∈ Role.ladder)
    (hgranted : granted g role p = true) : p.minRole.toInt ≤ role.toInt := by
  obtain ⟨b, hb⟩ := exists_getLsbD hp
  obtain ⟨q, hq, hle, hqb⟩ := exists_granted hg hrole ((granted_iff hp hb g role).mp hgranted)
  rw [eq_of_getLsbD hp hq hb hqb]
  exact hle

theorem granted_rising (hg : g.Normal) (hp : p ∈ permissions) {lower role : Role}
    (hlower : lower ∈ Role.ladder) (hrole : role ∈ Role.ladder) (hle : lower.toInt ≤ role.toInt)
    (hgranted : granted g lower p = true) : granted g role p = true := by
  obtain ⟨b, hb⟩ := exists_getLsbD hp
  rw [granted_iff hp hb] at hgranted ⊢
  exact hg.rising hlower hrole hle hgranted

theorem granted_administrator (hg : g.Normal) (hp : p ∈ permissions) :
    granted g .administrator p = true := by
  rw [granted, hg.administrator, Option.getD_some, BitVec.and_comm, AnyGrants.and_fullMask hp]
  exact decide_eq_true rfl

/-- **The row of a permission** says from which role on it is granted. -/
theorem getLowestGranted_extracted (hg : g.Normal) (hp : p ∈ permissions) {role : Role}
    (hrole : role ∈ Role.ladder) :
    (getLowestGranted ⟨p, cell g p⟩).toInt ≤ role.toInt ↔ granted g role p = true := by
  have hchecked : ∀ role, (⟨p, cell g p⟩ : Item).checked role = granted g role p := cell_eq hp g
  obtain ⟨hlowest, hleast⟩ := @getLowestGranted_spec ⟨p, cell g p⟩
    ⟨.administrator, by decide, (hchecked _).trans (granted_administrator hg hp)⟩
  constructor
  · intro hle
    exact granted_rising hg hp (getLowestGranted_mem _) hrole hle ((hchecked _).symm.trans hlowest)
  · intro hgranted
    exact hleast role hrole ((hchecked role).trans hgranted)

theorem minRole_le_extracted (hg : g.Normal) (hp : p ∈ permissions) :
    p.minRole.toInt ≤ (getLowestGranted ⟨p, cell g p⟩).toInt := by
  have hladder := getLowestGranted_mem ⟨p, cell g p⟩
  apply minRole_le hg hp hladder
  exact (getLowestGranted_extracted hg hp hladder).mp (Int.le_refl _)

/-- **Well-formed grants come back.** -/
theorem getMask_rebuildMasks (hg : g.Normal) (role : Role) :
    (rebuildMasks (extractFromGrants g)).getMask role = g.getMask role := by
  have hnormal : (rebuildMasks (extractFromGrants g)).Normal := Grants.normal_ofObject _
  by_cases howner : role = .owner
  · rw [howner, hnormal.owner, hg.owner]
  · have hrole := mem_ladder_iff.mpr howner
    refine Grants.getMask_congr (hnormal.total role) (hg.total role) (fun b => ?_)
    have hmin : ∀ item ∈ extractFromGrants g,
        item.minRole.toInt ≤ (getLowestGranted item).toInt := by
      intro item hitem
      obtain ⟨q, hq, rfl⟩ := List.mem_map.mp hitem
      exact minRole_le_extracted hg hq
    rw [has_rebuildMasks (rows_extractFromGrants g) hmin hrole]
    constructor
    · rintro ⟨item, hitem, hle, hb⟩
      obtain ⟨q, hq, rfl⟩ := List.mem_map.mp hitem
      exact (granted_iff hq hb g role).mp ((getLowestGranted_extracted hg hq hrole).mp hle)
    · intro hb
      obtain ⟨q, hq, -, hqb⟩ := exists_granted hg hrole hb
      refine ⟨_, List.mem_map_of_mem hq, ?_, hqb⟩
      exact (getLowestGranted_extracted hg hq hrole).mpr ((granted_iff hq hqb g role).mpr hb)

/-! ## A click -/

/-- A box that is not disabled: the role may have the permission, and no role below it has it. -/
structure Enabled (g : Grants) (p : Permission) (r : Role) : Prop where
  minRole : p.minRole.toInt ≤ r.toInt
  moderator : r.toInt ≤ Role.moderator.toInt
  lowest : ∀ role ∈ Role.ladder, granted g role p = true → r.toInt ≤ role.toInt

/-- The row of a permission after a click on one of its boxes. -/
def clicked (g : Grants) (p : Permission) (r : Role) : Item :=
  ⟨p, Function.update (cell g p) r (!cell g p r)⟩

/-- No permission is below the roles of the table. -/
theorem Enabled.mem_ladder (he : Enabled g p r) (hp : p ∈ permissions) : r ∈ Role.ladder := by
  have hleast : ∀ p ∈ permissions, 0 ≤ p.minRole.toInt := by decide
  exact AnyGrants.mem_ladder_of_nonneg ((hleast p hp).trans he.minRole)

/-- **The row after a click**: a box that is switched on is the lowest, and when it is switched off the
next one is. -/
theorem toInt_getLowestGranted_clicked (hg : g.Normal) (hp : p ∈ permissions)
    (he : Enabled g p r) : (getLowestGranted (clicked g p r)).toInt =
      if granted g r p = true then r.toInt + 1 else r.toInt := by
  have hr := he.mem_ladder hp
  have hother : ∀ role, role ≠ r → (clicked g p r).checked role = granted g role p := by
    intro role hne
    show Function.update (cell g p) r (!cell g p r) role = _
    rw [Function.update_of_ne hne, cell_eq hp]
  have hself : (clicked g p r).checked r = !granted g r p := by
    show Function.update (cell g p) r (!cell g p r) r = _
    rw [Function.update_self, cell_eq hp]
  by_cases hgranted : granted g r p = true
  · -- the next role inherits the permission
    have hnext : ∃ next ∈ Role.ladder, next.toInt = r.toInt + 1 := by
      have hmoderator := he.moderator
      revert hr hmoderator
      cases r <;> decide
    obtain ⟨next, hnext, heq⟩ := hnext
    have hne : next ≠ r := by
      rintro rfl
      omega
    rw [if_pos hgranted, ← heq]
    apply toInt_getLowestGranted hnext
    · rw [hother next hne]
      exact granted_rising hg hp hr hnext (by omega) hgranted
    · intro role hrole hchecked
      by_cases hrole' : role = r
      · rw [hrole', hself, hgranted] at hchecked
        exact absurd hchecked (by decide)
      · rw [hother role hrole'] at hchecked
        have hle := he.lowest role hrole hchecked
        have hdifferent : role.toInt ≠ r.toInt :=
          fun hint => hrole' (AnyGrants.toInt_injective (congrArg Int.cast hint))
        omega
  · rw [if_neg hgranted]
    apply toInt_getLowestGranted hr
    · rw [hself]
      simpa using hgranted
    · intro role hrole hchecked
      by_cases hrole' : role = r
      · exact hrole' ▸ Int.le_refl _
      · rw [hother role hrole'] at hchecked
        exact he.lowest role hrole hchecked

theorem check_extractFromGrants (g : Grants) (p : Permission) (r : Role) :
    check (extractFromGrants g) p r = permissions.map (fun q =>
      if q = p then clicked g p r else ⟨q, cell g q⟩) := by
  rw [check, extractFromGrants, List.map_map]
  apply List.map_congr_left
  intro q _
  by_cases hq : q = p
  · subst hq
    rw [if_pos rfl]
    exact if_pos rfl
  · rw [if_neg hq]
    exact if_neg hq

/-- **What a role has after a click.** -/
theorem has_click (hg : g.Normal) (hp : p ∈ permissions) (he : Enabled g p r) {role : Role}
    (hrole : role ∈ Role.ladder) {q : Permission} (hq : q ∈ permissions) {b : Nat}
    (hb : q.mask.getLsbD b = true) : (click (setup g) p r).model.Has role b ↔
      if q = p then (getLowestGranted (clicked g p r)).toInt ≤ role.toInt
      else granted g role q = true := by
  have hrows : Rows (check (extractFromGrants g) p r) := by
    rw [Rows, check_extractFromGrants, List.map_map]
    refine (List.map_congr_left (fun q _ => ?_)).trans (List.map_id _)
    by_cases hq : q = p
    · subst hq
      exact congrArg Item.toPermission (if_pos rfl)
    · exact congrArg Item.toPermission (if_neg hq)
  have hmin : ∀ item ∈ check (extractFromGrants g) p r,
      item.minRole.toInt ≤ (getLowestGranted item).toInt := by
    rw [check_extractFromGrants]
    intro item hitem
    obtain ⟨q, hq, rfl⟩ := List.mem_map.mp hitem
    split
    · rw [toInt_getLowestGranted_clicked hg hp he]
      have hle : (clicked g p r).minRole.toInt ≤ r.toInt := he.minRole
      split <;> omega
    · exact minRole_le_extracted hg hq
  have hrow : (getLowestGranted (if q = p then clicked g p r else ⟨q, cell g q⟩)).toInt ≤
      role.toInt ↔ if q = p then (getLowestGranted (clicked g p r)).toInt ≤ role.toInt
        else granted g role q = true := by
    split
    · exact Iff.rfl
    · exact getLowestGranted_extracted hg hq hrole
  rw [← hrow, show (click (setup g) p r).model = rebuildMasks (check (extractFromGrants g) p r)
    from rfl, has_rebuildMasks hrows hmin hrole, check_extractFromGrants]
  constructor
  · rintro ⟨item, hitem, hle, hb'⟩
    obtain ⟨q', hq', rfl⟩ := List.mem_map.mp hitem
    -- a bit is that of one permission only
    have hsame : q' = q := by
      apply eq_of_getLsbD hq' hq _ hb
      split at hb'
      · next heq => rwa [heq]
      · exact hb'
    exact hsame ▸ hle
  · intro hle
    refine ⟨_, List.mem_map_of_mem hq, hle, ?_⟩
    split
    · next heq => exact heq ▸ hb
    · exact hb

/-- The bits of other permissions stay as they are. -/
theorem has_click_other (hg : g.Normal) (hp : p ∈ permissions) (he : Enabled g p r) {role : Role}
    (hrole : role ∈ Role.ladder) {b : Nat} (hb : p.mask.getLsbD b = false) :
    (click (setup g) p r).model.Has role b ↔ g.Has role b := by
  have hne : ∀ q : Permission, q.mask.getLsbD b = true → q ≠ p := by
    rintro q hqb rfl
    rw [hb] at hqb
    cases hqb
  constructor
  · intro hafter
    obtain ⟨q, hq, -, hqb⟩ := exists_granted (Grants.normal_ofObject _) hrole hafter
    rw [has_click hg hp he hrole hq hqb, if_neg (hne q hqb)] at hafter
    exact (granted_iff hq hqb g role).mp hafter
  · intro hbefore
    obtain ⟨q, hq, -, hqb⟩ := exists_granted hg hrole hbefore
    rw [has_click hg hp he hrole hq hqb, if_neg (hne q hqb)]
    exact (granted_iff hq hqb g role).mpr hbefore

theorem getMask_click (hg : g.Normal) (hp : p ∈ permissions) (he : Enabled g p r) (role : Role) :
    ((click (setup g) p r).model.getMask role).map (· &&& ~~~p.mask) =
      (g.getMask role).map (· &&& ~~~p.mask) := by
  have hnormal : (click (setup g) p r).model.Normal := Grants.normal_ofObject _
  by_cases howner : role = .owner
  · rw [howner, hg.owner, hnormal.owner]
  · obtain ⟨m, hm⟩ := Option.isSome_iff_exists.mp (hg.total role)
    obtain ⟨m', hm'⟩ := Option.isSome_iff_exists.mp (hnormal.total role)
    rw [hm, hm', Option.map_some, Option.map_some]
    apply congrArg some
    apply BitVec.eq_of_getLsbD_eq
    intro b _
    rw [BitVec.getLsbD_and, BitVec.getLsbD_and, BitVec.getLsbD_not]
    cases hb : p.mask.getLsbD b with
    | true => simp
    | false =>
      have hhas := has_click_other hg hp he (mem_ladder_iff.mpr howner) hb
      rw [Grants.Has, Grants.Has, hm, hm', Option.getD_some, Option.getD_some] at hhas
      rw [Bool.eq_iff_iff.mpr hhas]

end Normal

/-! ## The editor is faithful -/

/-- What the editor makes of grants. -/
structure Faithful (g : Grants) : Prop where
  restored : ∀ role, (rebuildMasks (extractFromGrants g)).getMask role = g.getMask role
  others : ∀ p ∈ permissions, ∀ r, Enabled g p r → ∀ role,
    ((click (setup g) p r).model.getMask role).map (· &&& ~~~p.mask) =
      (g.getMask role).map (· &&& ~~~p.mask)
  switchedOn : ∀ p ∈ permissions, ∀ r, Enabled g p r → cell g p r = false →
    ∀ role ∈ Role.ladder, granted (click (setup g) p r).model role p = true ↔
      r.toInt ≤ role.toInt
  switchedOff : ∀ p ∈ permissions, ∀ r, Enabled g p r → cell g p r = true →
    ∀ role ∈ Role.ladder, granted (click (setup g) p r).model role p = true ↔
      r.toInt + 1 ≤ role.toInt

/-- **The permission editor is faithful** to well-formed grants. -/
theorem editor_faithful {g : Grants} (hg : g.Normal) : Faithful g := by
  have hclick : ∀ p ∈ permissions, ∀ r, Enabled g p r → ∀ role ∈ Role.ladder,
      granted (click (setup g) p r).model role p = true ↔
        (if granted g r p = true then r.toInt + 1 else r.toInt) ≤ role.toInt := by
    intro p hp r he role hrole
    obtain ⟨b, hb⟩ := exists_getLsbD hp
    rw [granted_iff hp hb, has_click hg hp he hrole hp hb, if_pos rfl,
      toInt_getLowestGranted_clicked hg hp he]
  refine ⟨getMask_rebuildMasks hg, ?_, ?_, ?_⟩
  · exact fun p hp r he role => getMask_click hg hp he role
  · intro p hp r he hoff role hrole
    rw [cell_eq hp] at hoff
    rw [hclick p hp r he role hrole, if_neg (by rw [hoff]; exact Bool.false_ne_true)]
  · intro p hp r he hon role hrole
    rw [cell_eq hp] at hon
    rw [hclick p hp r he role hrole, if_pos hon]

theorem editor_faithful_new : Faithful Grants.new := editor_faithful Grants.normal_new

end OpenTogetherTube.Client.PermissionsEditor
