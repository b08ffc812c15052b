import OpenTogetherTube.Server.GrantEdits

/-!
# What a settings request does

`applySettings` decides what the request means to change, checks the permission for each of these,
and sets them. The scalar settings and the masks that the room already has are left out, so only the
others need a permission.

`Applied` is what this is for: what was asked for is there afterwards, the skip categories as a set,
and everything else is as it was. For the masks, that is with what a role may not have taken out,
and with what the roles below it have put in (`wantedMask`). A request that fails changes nothing.
`applySettings_exact` says so for all rooms and requests, apart from two corners: a list of skip
categories always counts as a change, and the mask of a role that is set before that of a lower role
still inherits what the lower role had.
-/

namespace OpenTogetherTube.Common

open OpenTogetherTube.Lib

namespace Grants

section Edit

variable {g : Grants} {masks : List (Role × GrantMask)} {role : Role} {b : Nat}

/-- What a role has with a mask of its own or by what the others set it keeps. -/
theorem has_setRoleGrants_self (hrole : role ∈ Role.ladder) {mask : GrantMask}
    (hb : (mask &&& getValidationMask role).getLsbD b = true) :
    (g.setRoleGrants role mask).Has role b := by
  rw [has_setRoleGrants g role mask (mem_ladder_iff.mp hrole)]
  exact ⟨role, hrole, Int.le_refl _, by rwa [if_pos rfl]⟩

theorem has_setRoleGrants_of_ne (hrole : role ∈ Role.ladder) {k : Role} (hne : role ≠ k)
    {mask : GrantMask} (hb : g.Has role b) : (g.setRoleGrants k mask).Has role b := by
  rw [has_setRoleGrants g k mask (mem_ladder_iff.mp hrole)]
  exact ⟨role, hrole, Int.le_refl _, by rwa [if_neg hne]⟩

/-- A role whose mask is not set keeps what it has. -/
theorem has_edit_of_not_mem (hrole : role ∈ Role.ladder) (hnot : ∀ mask ∈ masks, mask.1 ≠ role)
    (hb : g.Has role b) : (g.edit masks).Has role b := by
  induction masks generalizing g with
  | nil => exact hb
  | cons mask masks ih =>
    apply ih (fun mask hmem => hnot mask (List.mem_cons_of_mem _ hmem))
    exact has_setRoleGrants_of_ne hrole (hnot mask List.mem_cons_self).symm hb

/-- A role whose mask is set has all of it that it may have. -/
theorem has_edit_of_mem (hrole : role ∈ Role.ladder) (hnodup : (masks.map Prod.fst).Nodup)
    {mask : GrantMask} (hmem : (role, mask) ∈ masks)
    (hb : (mask &&& getValidationMask role).getLsbD b = true) : (g.edit masks).Has role b := by
  induction masks generalizing g with
  | nil => cases hmem
  | cons first masks ih =>
    obtain ⟨hnew, hnodup⟩ := List.nodup_cons.mp hnodup
    show ((g.setRoleGrants first.1 first.2).edit masks).Has role b
    rcases List.mem_cons.mp hmem with rfl | hmem
    · have hnot : ∀ mask' ∈ masks, mask'.1 ≠ role :=
        fun mask' hmem' heq => hnew (List.mem_map.mpr ⟨mask', hmem', heq⟩)
      exact has_edit_of_not_mem hrole hnot (has_setRoleGrants_self hrole hb)
    · exact ih hnodup hmem

/-- Every role has what the roles below it have. -/
def Rising (g : Grants) : Prop :=
  ∀ {lower role b}, lower ∈ Role.ladder → role ∈ Role.ladder → lower.toInt ≤ role.toInt →
    g.Has lower b → g.Has role b

theorem rising_edit (hg : g.Rising) : (g.edit masks).Rising := by
  induction masks generalizing g with
  | nil => exact hg
  | cons mask masks ih => exact ih (fun hlower hrole => rising_setRoleGrants g _ _ hlower hrole)

/-- The bits that masks give to a role by itself. -/
def Given (g : Grants) (masks : List (Role × GrantMask)) (role : Role) (b : Nat) : Prop :=
  (∃ mask, (role, mask) ∈ masks ∧ (mask &&& getValidationMask role).getLsbD b = true) ∨
    (∀ mask ∈ masks, mask.1 ≠ role) ∧ g.Has role b

/-- **Masks that are set from the lowest role up** give what they say and what is inherited, and
nothing else. -/
theorem given_of_has_edit (hg : g.Rising)
    (hascending : masks.Pairwise (fun mask mask' => mask.1.toInt < mask'.1.toInt))
    (hrole : role ∈ Role.ladder) (hb : (g.edit masks).Has role b) :
    ∃ lower ∈ Role.ladder, lower.toInt ≤ role.toInt ∧ g.Given masks lower b := by
  induction masks generalizing g with
  | nil => exact ⟨role, hrole, Int.le_refl _, .inr ⟨fun mask hmem => absurd hmem List.not_mem_nil, hb⟩⟩
  | cons first masks ih =>
    obtain ⟨hfirst, hascending⟩ := List.pairwise_cons.mp hascending
    obtain ⟨lower, hlower, hle, hgiven⟩ :=
      ih (fun hlower hrole => rising_setRoleGrants g _ _ hlower hrole) hascending hb
    rcases hgiven with ⟨mask, hmem, hbit⟩ | ⟨hnot, hhas⟩
    · exact ⟨lower, hlower, hle, .inl ⟨mask, List.mem_cons_of_mem _ hmem, hbit⟩⟩
    · rw [has_setRoleGrants g first.1 first.2 (mem_ladder_iff.mp hlower)] at hhas
      obtain ⟨lowest, hlowest, hle', hhas⟩ := hhas
      by_cases heq : lowest = first.1
      · rw [if_pos heq] at hhas
        refine ⟨lowest, hlowest, hle'.trans hle, .inl ⟨first.2, ?_, heq ▸ hhas⟩⟩
        rw [heq]
        exact List.mem_cons_self
      · rw [if_neg heq] at hhas
        by_cases hset : ∃ mask ∈ masks, mask.1 = lowest
        · -- it will be set later, so the role that has it from there is above the first one
          obtain ⟨mask, hmem, rfl⟩ := hset
          have hlt := hfirst mask hmem
          refine ⟨lower, hlower, hle, .inr ⟨?_, hg hlowest hlower hle' hhas⟩⟩
          intro mask' hmem' hsame
          rcases List.mem_cons.mp hmem' with rfl | hmem'
          · rw [← hsame] at hle'
            omega
          · exact hnot mask' hmem' hsame
        · refine ⟨lowest, hlowest, hle'.trans hle, .inr ⟨?_, hhas⟩⟩
          intro mask' hmem' hsame
          rcases List.mem_cons.mp hmem' with rfl | hmem'
          · exact heq hsame.symm
          · exact hset ⟨mask', hmem', hsame⟩

/-- What masks give to a role, they give to all above it. -/
theorem has_edit_of_given (hg : g.Rising) (hnodup : (masks.map Prod.fst).Nodup) {lower : Role}
    (hlower : lower ∈ Role.ladder) (hrole : role ∈ Role.ladder) (hle : lower.toInt ≤ role.toInt)
    (hgiven : g.Given masks lower b) : (g.edit masks).Has role b := by
  refine rising_edit hg hlower hrole hle ?_
  rcases hgiven with ⟨mask, hmem, hbit⟩ | ⟨hnot, hhas⟩
  · exact has_edit_of_mem hlower hnodup hmem hbit
  · exact has_edit_of_not_mem hlower hnot hhas

end Edit

end Grants

end OpenTogetherTube.Common

namespace OpenTogetherTube.Server.Room

open OpenTogetherTube.Common OpenTogetherTube.Lib

/-! ## The purpose -/

/-- The room has the value of the setting. Lists of categories are compared as sets. -/
def HoldsValue (r : Room) : RoomSetting → Prop
  | .title v => r.title = v
  | .description v => r.description = v
  | .visibility v => r.visibility = v
  | .queueMode v => r.queueMode = v
  | .autoSkipSegmentCategories v => ∀ c, c ∈ r.autoSkipSegmentCategories ↔ c ∈ v
  | .restoreQueueBehavior v => r.restoreQueueBehavior = v
  | .enableVoteSkip v => r.enableVoteSkip = v

/-- The role has the permissions for the settings and the masks that differ from the room's. -/
structure Permits (r : Room) (settings : RoomSettingsPatch) (actor : Role) : Prop where
  props : ∀ setting ∈ settings.props, ¬ r.HoldsValue setting →
    r.grants.granted actor (settingPermission setting) = true
  masks : ∀ g, settings.grants = some (.grants g) → ∀ role mask permission,
    g.getMask role = some mask → r.grants.getMask role ≠ some mask →
      rolePermission role = some permission → r.grants.granted actor permission = true

/-- What the request means a role to have by itself: the mask that it asks for, as far as the role
may have it, and without one what the role has. -/
def wantedMask (r : Room) (settings : RoomSettingsPatch) (role : Role) : GrantMask :=
  match settings.grants with
  | some (.grants g) =>
    match g.getMask role with
    | some mask =>
      if (rolePermission role).isSome then mask &&& getValidationMask role
      else (r.grants.getMask role).getD 0
    | none => (r.grants.getMask role).getD 0
  | _ => (r.grants.getMask role).getD 0

/-- The masks that differ are listed from the lowest role up. -/
def Ascending (r : Room) (settings : RoomSettingsPatch) : Prop :=
  ∀ masks, r.changedMasks settings.grants = .ok masks →
    masks.Pairwise (fun mask mask' => mask.1.toInt < mask'.1.toInt)

/-- The request has been carried out, and nothing else has been set. -/
structure Applied (r r' : Room) (settings : RoomSettingsPatch) : Prop where
  requested : ∀ setting ∈ settings.props, r'.HoldsValue setting
  categories : ∀ v, .autoSkipSegmentCategories v ∈ settings.props →
    ¬ r.HoldsValue (.autoSkipSegmentCategories v) →
      r'.autoSkipSegmentCategories.Sublist allSkipCategories ∧ r'.autoSkipSegmentCategories.Nodup
  others : ∀ setting, r.HoldsValue setting →
    (∀ setting' ∈ settings.props, setting'.name = setting.name → r.HoldsValue setting') →
      r'.HoldsValue setting
  given : ∀ lower ∈ Role.ladder, ∀ role ∈ Role.ladder, lower.toInt ≤ role.toInt →
    ∀ b, (r.wantedMask settings lower).getLsbD b = true → r'.grants.Has role b
  nothingMore : r.Ascending settings → ∀ role ∈ Role.ladder, ∀ b, r'.grants.Has role b →
    ∃ lower ∈ Role.ladder, lower.toInt ≤ role.toInt ∧
      (r.wantedMask settings lower).getLsbD b = true
  full : ∀ role, rolePermission role = none → r'.grants.getMask role = r.grants.getMask role
  ungranted : settings.grants = none → r'.grants = r.grants

/-! ## The settings that are not grants -/

section Props

variable {r : Room} {settings : RoomSettingsPatch} {setting : RoomSetting}

theorem mem_allSkipCategories (c : Category) : c ∈ allSkipCategories := by
  cases c <;> decide

theorem sameCategories_iff {a b : List Category} :
    sameCategories a b = true ↔ ∀ c, c ∈ b ↔ c ∈ a := by
  unfold sameCategories
  simp only [Bool.and_eq_true, List.all_eq_true, List.contains_iff_mem]
  constructor
  · rintro ⟨hab, hba⟩ c
    exact ⟨hba c, hab c⟩
  · intro hsame
    exact ⟨fun c hc => (hsame c).mpr hc, fun c hc => (hsame c).mp hc⟩

/-- What the loop takes for unchanged is unchanged. -/
theorem holdsValue_of_holdsSetting (h : r.holdsSetting setting = true) : r.HoldsValue setting := by
  cases setting with
  | autoSkipSegmentCategories v => cases h
  | _ => simpa [holdsSetting, HoldsValue] using h

/-- What is unchanged the loop takes for changed only in lists of categories. -/
theorem holdsSetting_of_holdsValue (h : r.HoldsValue setting)
    (hne : ∀ v, setting ≠ .autoSkipSegmentCategories v) : r.holdsSetting setting = true := by
  cases setting <;> first
    | exact decide_eq_true h
    | exact absurd rfl (hne _)

/-- Putting the categories in order keeps the value. -/
theorem holdsValue_normalizeSetting (r r' : Room) (setting : RoomSetting) :
    r'.HoldsValue (r.normalizeSetting setting) ↔ r'.HoldsValue setting := by
  cases setting with
  | autoSkipSegmentCategories v =>
    rw [normalizeSetting]
    split_ifs
    · rfl
    · simp [HoldsValue, mem_allSkipCategories]
  | _ => rfl

theorem name_normalizeSetting (r : Room) (setting : RoomSetting) :
    (r.normalizeSetting setting).name = setting.name := by
  cases setting with
  | autoSkipSegmentCategories v =>
    rw [normalizeSetting]
    split_ifs <;> rfl
  | _ => rfl

theorem holdsValue_applySetting (r : Room) (setting : RoomSetting) :
    (r.applySetting setting).HoldsValue setting := by
  cases setting with
  | autoSkipSegmentCategories v => exact fun c => Iff.rfl
  | _ => rfl

/-- A setting changes no other. -/
theorem holdsValue_applySetting_of_ne (r : Room) {setting setting' : RoomSetting}
    (h : setting'.name ≠ setting.name) :
    (r.applySetting setting').HoldsValue setting ↔ r.HoldsValue setting := by
  cases setting <;> cases setting' <;> first
    | exact absurd rfl h
    | rfl

theorem holdsValue_foldl_of_ne {l : List RoomSetting} (r : Room)
    (h : ∀ setting' ∈ l, setting'.name ≠ setting.name) :
    (l.foldl applySetting r).HoldsValue setting ↔ r.HoldsValue setting := by
  induction l generalizing r with
  | nil => rfl
  | cons first l ih =>
    rw [List.foldl_cons, ih _ (fun setting' hmem => h setting' (List.mem_cons_of_mem _ hmem))]
    exact holdsValue_applySetting_of_ne r (h first List.mem_cons_self)

theorem holdsValue_foldl_of_mem {l : List RoomSetting} (r : Room)
    (hnodup : (l.map RoomSetting.name).Nodup) (hmem : setting ∈ l) :
    (l.foldl applySetting r).HoldsValue setting := by
  induction l generalizing r with
  | nil => cases hmem
  | cons first l ih =>
    obtain ⟨hnew, hnodup⟩ := List.nodup_cons.mp hnodup
    rcases List.mem_cons.mp hmem with rfl | hmem
    · have hlater : ∀ setting' ∈ l, setting'.name ≠ setting.name :=
        fun setting' hmem' heq => hnew (List.mem_map.mpr ⟨setting', hmem', heq⟩)
      exact (holdsValue_foldl_of_ne _ hlater).mpr (holdsValue_applySetting r setting)
    · exact ih _ hnodup hmem

theorem name_settingsToApply (r : Room) (props : List RoomSetting) :
    ((r.settingsToApply props).map RoomSetting.name).Sublist (props.map RoomSetting.name) := by
  have hnames : (r.settingsToApply props).map RoomSetting.name =
      (props.filter (fun prop => r.holdsSetting prop = false)).map RoomSetting.name := by
    rw [settingsToApply, List.map_map]
    exact List.map_congr_left (fun setting _ => name_normalizeSetting r setting)
  rw [hnames]
  exact List.filter_sublist.map _

/-- A setting that is not listed is left alone. -/
theorem holdsValue_settingsToApply_of_not_listed
    (h : ∀ setting' ∈ settings.props, setting'.name ≠ setting.name) :
    ((r.settingsToApply settings.props).foldl applySetting r).HoldsValue setting ↔
      r.HoldsValue setting := by
  apply holdsValue_foldl_of_ne
  intro setting' hmem heq
  have hname := (name_settingsToApply r settings.props).subset (List.mem_map_of_mem hmem)
  obtain ⟨listed, hlisted, hsame⟩ := List.mem_map.mp hname
  exact h listed hlisted (hsame.trans heq)

/-- **What is listed is there afterwards.** -/
theorem holdsValue_settingsToApply (hmem : setting ∈ settings.props) :
    ((r.settingsToApply settings.props).foldl applySetting r).HoldsValue setting := by
  have hnodup := (name_settingsToApply r settings.props).nodup settings.nodupProps
  cases hheld : r.holdsSetting setting with
  | false =>
    have hin : r.normalizeSetting setting ∈ r.settingsToApply settings.props :=
      List.mem_map_of_mem (List.mem_filter.mpr ⟨hmem, decide_eq_true hheld⟩)
    exact (holdsValue_normalizeSetting r _ setting).mp (holdsValue_foldl_of_mem r hnodup hin)
  | true =>
    -- it is taken out, and no other listed setting has its name
    refine (holdsValue_foldl_of_ne r ?_).mpr (holdsValue_of_holdsSetting hheld)
    intro setting' hmem' heq
    obtain ⟨listed, hlisted, rfl⟩ := List.mem_map.mp hmem'
    obtain ⟨hlisted, hdiffers⟩ := List.mem_filter.mp hlisted
    rw [name_normalizeSetting] at heq
    have hsame := List.inj_on_of_nodup_map settings.nodupProps hlisted hmem heq
    rw [hsame, hheld] at hdiffers
    cases hdiffers

/-- Two values that a room has of one setting are the same. -/
theorem HoldsValue.congr {r' : Room} {setting' : RoomSetting} (h : r.HoldsValue setting)
    (h' : r.HoldsValue setting') (hname : setting'.name = setting.name)
    (hafter : r'.HoldsValue setting') : r'.HoldsValue setting := by
  cases setting <;> cases setting' <;> first
    | exact hafter.trans (h'.symm.trans h)
    | exact fun c => (hafter c).trans ((h' c).symm.trans (h c))
    | simp [RoomSetting.name] at hname

/-- What is neither listed nor changed stays. -/
theorem holdsValue_others (h : r.HoldsValue setting)
    (hlisted : ∀ setting' ∈ settings.props, setting'.name = setting.name → r.HoldsValue setting') :
    ((r.settingsToApply settings.props).foldl applySetting r).HoldsValue setting := by
  by_cases hmem : ∃ setting' ∈ settings.props, setting'.name = setting.name
  · obtain ⟨setting', hmem, hname⟩ := hmem
    exact h.congr (hlisted setting' hmem hname) hname (holdsValue_settingsToApply hmem)
  · apply (holdsValue_settingsToApply_of_not_listed _).mpr h
    intro setting' hmem' hname
    exact hmem ⟨setting', hmem', hname⟩

end Props

/-! ## The grants -/

section Masks

variable {r : Room} {settings : RoomSettingsPatch} {masks : List (Role × GrantMask)} {role : Role}
  {b : Nat}

theorem nodup_changedMasks (h : r.changedMasks settings.grants = .ok masks) :
    (masks.map Prod.fst).Nodup := by
  cases hgrants : settings.grants with
  | none =>
    rw [hgrants] at h
    cases h
    exact List.nodup_nil
  | some payload =>
    rw [hgrants] at h
    cases payload with
    | plain => cases h
    | grants g =>
      cases h
      exact (List.filter_sublist.map _).nodup g.masks.nodupKeys

/-- Masks are only set by a request that has some. -/
theorem grants_of_mem_changedMasks (h : r.changedMasks settings.grants = .ok masks)
    {mask : Role × GrantMask} (hmem : mask ∈ masks) : ∃ g, settings.grants = some (.grants g) := by
  cases hgrants : settings.grants with
  | none =>
    rw [hgrants] at h
    cases h
    cases hmem
  | some payload =>
    rw [hgrants] at h
    cases payload with
    | plain => cases h
    | grants g => exact ⟨g, rfl⟩

theorem wantedMask_of_mem (h : r.changedMasks settings.grants = .ok masks) {mask : GrantMask}
    (hmem : (role, mask) ∈ masks) :
    r.wantedMask settings role = mask &&& getValidationMask role := by
  obtain ⟨g, hgrants⟩ := grants_of_mem_changedMasks h hmem
  rw [hgrants] at h
  obtain ⟨hmask, hchosen, -⟩ := (mem_changedMasks h role mask).mp hmem
  rw [wantedMask, hgrants]
  dsimp only
  rw [hmask]
  exact if_pos (rolePermission_isSome_iff.mpr hchosen)

/-- The mask that is asked for but not set is the room's, so the role may have it. -/
theorem wantedMask_of_not_mem (hr : r.grants.Valid)
    (h : r.changedMasks settings.grants = .ok masks) (hnot : ∀ mask ∈ masks, mask.1 ≠ role) :
    r.wantedMask settings role = (r.grants.getMask role).getD 0 := by
  unfold wantedMask
  split
  · next g hgrants =>
    rw [hgrants] at h
    cases hmask : g.getMask role with
    | none => rfl
    | some mask =>
      dsimp only
      split
      · next hchosen =>
        have hsame : r.grants.getMask role = some mask := by
          by_contra hne
          exact hnot (role, mask) ((mem_changedMasks h role mask).mpr
            ⟨hmask, rolePermission_isSome_iff.mp hchosen, hne⟩) rfl
        rw [hsame, Option.getD_some]
        apply BitVec.eq_of_getLsbD_eq
        intro b _
        rw [BitVec.getLsbD_and, Bool.and_eq_left_iff_imp]
        intro hbit
        apply hr role b
        rwa [Grants.Has, hsame]
      · rfl
  · rfl

/-- **What the masks that are set give to a role by itself** is what the request means it to have. -/
theorem given_changedMasks_iff (hr : r.grants.Valid)
    (h : r.changedMasks settings.grants = .ok masks) :
    r.grants.Given masks role b ↔ (r.wantedMask settings role).getLsbD b = true := by
  by_cases hset : ∃ mask, (role, mask) ∈ masks
  · obtain ⟨mask, hmem⟩ := hset
    rw [wantedMask_of_mem h hmem]
    constructor
    · rintro (⟨mask', hmem', hbit⟩ | ⟨hnot, -⟩)
      · rw [← wantedMask_of_mem h hmem, wantedMask_of_mem h hmem']
        exact hbit
      · exact absurd rfl (hnot _ hmem)
    · exact fun hbit => .inl ⟨mask, hmem, hbit⟩
  · have hnot : ∀ mask ∈ masks, mask.1 ≠ role := by
      rintro ⟨k, mask⟩ hmem rfl
      exact hset ⟨mask, hmem⟩
    rw [wantedMask_of_not_mem hr h hnot]
    constructor
    · rintro (⟨mask, hmem, -⟩ | ⟨-, hhas⟩)
      · exact absurd ⟨mask, hmem⟩ hset
      · exact hhas
    · exact fun hhas => .inr ⟨hnot, hhas⟩

theorem rising_of_normal {g : Grants} (h : g.Normal) : g.Rising :=
  fun hlower hrole hle hb => h.rising hlower hrole hle hb

/-- The masks of administrators and of the owner are the same in all rooms. -/
theorem getMask_of_not_chosen {g g' : Grants} (h : g.Normal) (h' : g'.Normal)
    (hrole : rolePermission role = none) : g'.getMask role = g.getMask role := by
  cases role <;> first
    | exact h'.administrator.trans h.administrator.symm
    | exact h'.owner.trans h.owner.symm
    | cases hrole

end Masks

/-! ## The whole request -/

section Request

variable {r : Room} {settings : RoomSettingsPatch} {context : RoomRequestContext}

theorem Accepts.permits (h : r.Accepts settings context) : r.Permits settings context.role := by
  obtain ⟨hprops, masks, hmasks, hgranted⟩ := h
  refine ⟨fun setting hmem hdiffers => hprops setting hmem ?_, ?_⟩
  · rw [Bool.eq_false_iff]
    exact fun hheld => hdiffers (holdsValue_of_holdsSetting hheld)
  · intro g hg role mask permission hmask hdiffers hpermission
    rw [hg] at hmasks
    refine hgranted (role, mask) ((mem_changedMasks hmasks role mask).mpr ⟨hmask, ?_, hdiffers⟩)
      permission hpermission
    rw [← rolePermission_isSome_iff, hpermission]
    rfl

/-- A request that lists no categories but new ones needs no other permissions. -/
theorem Permits.accepts (h : r.Permits settings context.role)
    (hgrants : settings.grants ≠ some .plain)
    (hcategories : ∀ v, .autoSkipSegmentCategories v ∈ settings.props →
      ¬ r.HoldsValue (.autoSkipSegmentCategories v)) : r.Accepts settings context := by
  refine ⟨fun setting hmem hunheld => h.props setting hmem (fun hholds => ?_), ?_⟩
  · rw [holdsSetting_of_holdsValue hholds (fun v heq => ?_)] at hunheld
    · cases hunheld
    · rw [heq] at hmem hholds
      exact hcategories v hmem hholds
  · cases hpayload : settings.grants with
    | none => exact ⟨[], rfl, fun mask hmem => absurd hmem List.not_mem_nil⟩
    | some payload =>
      cases payload with
      | plain => exact absurd hpayload hgrants
      | grants g =>
        refine ⟨_, rfl, fun mask hmem permission hpermission => ?_⟩
        obtain ⟨hmask, -, hdiffers⟩ := (mem_changedMasks rfl mask.1 mask.2).mp hmem
        exact h.masks g hpayload mask.1 mask.2 permission hmask hdiffers hpermission

/-- The fields that a settings object can have, `grants` apart. -/
def plainSettings (r : Room) : String × String × Visibility × QueueMode × List Category ×
    BehaviorOption × Bool :=
  (r.title, r.description, r.visibility, r.queueMode, r.autoSkipSegmentCategories,
    r.restoreQueueBehavior, r.enableVoteSkip)

theorem holdsValue_congr {r' : Room} (h : r'.plainSettings = r.plainSettings)
    (setting : RoomSetting) : r'.HoldsValue setting ↔ r.HoldsValue setting := by
  simp only [plainSettings, Prod.mk.injEq] at h
  obtain ⟨htitle, hdescription, hvisibility, hmode, hcategories, hbehavior, hvote⟩ := h
  cases setting <;> simp only [HoldsValue, htitle, hdescription, hvisibility, hmode, hcategories,
    hbehavior, hvote]

/-- **The state after a request that passes the checks.** -/
theorem applySettings_state (h : r.Accepts settings context) :
    ∃ masks, r.changedMasks settings.grants = .ok masks ∧
      ((applySettings settings context).run r).result = .ok () ∧
      ((applySettings settings context).run r).state.grants = r.grants.edit masks ∧
      ((applySettings settings context).run r).state.plainSettings =
        ((r.settingsToApply settings.props).foldl applySetting r).plainSettings := by
  obtain ⟨-, masks, want, hmasks, hrun⟩ | ⟨hrefused, -⟩ := applySettings_run settings context r
  · have hplain : ∀ r' : Room, (masks.foldl applyMask r').plainSettings = r'.plainSettings :=
      foldl_keeps (R := Handler.SameOn plainSettings) masks (fun r mask _ => rfl)
    refine ⟨masks, hmasks, by rw [hrun], ?_, ?_⟩
    · rw [hrun]
      show (masks.foldl applyMask _).grants = _
      rw [foldl_applyMask_grants, foldl_applySetting_grants]
    · rw [hrun]
      exact hplain _
  · exact absurd h hrefused

/-- New categories come in the standard order. -/
theorem settingsToApply_categories {v : List Category}
    (hmem : .autoSkipSegmentCategories v ∈ settings.props)
    (hdiffers : ¬ r.HoldsValue (.autoSkipSegmentCategories v)) :
    .autoSkipSegmentCategories (allSkipCategories.filter (fun c => v.contains c)) ∈
      r.settingsToApply settings.props := by
  have hnormal : r.normalizeSetting (.autoSkipSegmentCategories v) =
      .autoSkipSegmentCategories (allSkipCategories.filter (fun c => v.contains c)) := by
    refine if_neg (fun hsame => hdiffers (fun c => ?_))
    exact (sameCategories_iff.mp hsame c)
  rw [← hnormal]
  exact List.mem_map_of_mem (List.mem_filter.mpr ⟨hmem, rfl⟩)

theorem foldl_autoSkipSegmentCategories {l : List RoomSetting} {v : List Category}
    (hnodup : (l.map RoomSetting.name).Nodup) (hmem : .autoSkipSegmentCategories v ∈ l) :
    (l.foldl applySetting r).autoSkipSegmentCategories = v := by
  refine foldl_applySetting_eq (f := autoSkipSegmentCategories) (fun _ _ => rfl)
    (fun r s hs => ?_) (fun v' hmem' => ?_) (.inr hmem)
  · cases s with
    | autoSkipSegmentCategories v => exact absurd rfl (hs v)
    | _ => rfl
  · have hsame := List.inj_on_of_nodup_map hnodup hmem' hmem rfl
    cases hsame
    rfl

/-- **A request that passes the checks is carried out.** -/
theorem applied_of_accepts (h : r.WellFormed) (haccepts : r.Accepts settings context) :
    r.Applied ((applySettings settings context).run r).state settings := by
  have hnormal := applySettings_keepsForm settings context r h
  obtain ⟨masks, hmasks, -, hgrants, hplain⟩ := applySettings_state haccepts
  have hholds := holdsValue_congr hplain
  have hrising : r.grants.Rising := rising_of_normal h.grants
  refine ⟨fun setting hmem => ?_, fun v hmem hdiffers => ?_, fun setting hheld hlisted => ?_, ?_, ?_,
    fun role hrole => getMask_of_not_chosen h.grants hnormal.grants hrole, fun hnone => ?_⟩
  · exact (hholds setting).mpr (holdsValue_settingsToApply hmem)
  · have hlist := congrArg (fun fields => fields.2.2.2.2.1) hplain
    have hnodup := (name_settingsToApply r settings.props).nodup settings.nodupProps
    have hset : _ = allSkipCategories.filter (fun c => v.contains c) :=
      foldl_autoSkipSegmentCategories (r := r) hnodup (settingsToApply_categories hmem hdiffers)
    have hsublist := (hlist.trans hset) ▸ List.filter_sublist
    exact ⟨hsublist, hsublist.nodup (by decide)⟩
  · exact (hholds setting).mpr (holdsValue_others hheld hlisted)
  · intro lower hlower role hrole hle b hbit
    rw [hgrants]
    exact Grants.has_edit_of_given hrising (nodup_changedMasks hmasks) hlower hrole hle
      ((given_changedMasks_iff h.grants.valid hmasks).mpr hbit)
  · intro hascending role hrole b hb
    rw [hgrants] at hb
    obtain ⟨lower, hlower, hle, hgiven⟩ :=
      Grants.given_of_has_edit hrising (hascending masks hmasks) hrole hb
    exact ⟨lower, hlower, hle, (given_changedMasks_iff h.grants.valid hmasks).mp hgiven⟩
  · rw [hnone] at hmasks
    cases hmasks
    exact hgrants

theorem wantedMask_of_normal {g : Grants} (hg : g.Normal)
    (hgrants : settings.grants = some (.grants g)) {role : Role} (hrole : Grants.Chosen role) :
    r.wantedMask settings role = (g.getMask role).getD 0 := by
  obtain ⟨mask, hmask⟩ := Option.isSome_iff_exists.mp (hg.total role)
  rw [wantedMask, hgrants]
  dsimp only
  rw [hmask]
  dsimp only
  rw [if_pos (rolePermission_isSome_iff.mpr hrole), Option.getD_some]
  apply BitVec.eq_of_getLsbD_eq
  intro b _
  rw [BitVec.getLsbD_and, Bool.and_eq_left_iff_imp]
  intro hbit
  apply hg.valid role b
  rwa [Grants.Has, hmask]

/-- Grants that were made by the constructor, and are listed from the lowest role up, are the room's
grants afterwards. -/
theorem Applied.getMask {r' : Room} (happlied : r.Applied r' settings) {g : Grants} (hg : g.Normal)
    (hgrants : settings.grants = some (.grants g)) (hascending : r.Ascending settings)
    (hnormal : r'.grants.Normal) (role : Role) : r'.grants.getMask role = g.getMask role := by
  by_cases hrole : Grants.Chosen role
  · have hladder := mem_ladder_iff.mpr hrole.2
    refine Grants.getMask_congr (hnormal.total role) (hg.total role) (fun b => ⟨?_, ?_⟩)
    · intro hb
      obtain ⟨lower, hlower, hle, hbit⟩ := happlied.nothingMore hascending role hladder b hb
      rw [wantedMask_of_normal hg hgrants (hrole.below hlower hle)] at hbit
      exact hg.rising hlower hladder hle hbit
    · intro hb
      apply happlied.given role hladder role hladder (Int.le_refl _)
      rw [wantedMask_of_normal hg hgrants hrole]
      exact hb
  · have hnone : rolePermission role = none := by
      rw [← Option.not_isSome_iff_eq_none, rolePermission_isSome_iff]
      exact hrole
    exact getMask_of_not_chosen hg hnormal hnone

end Request

/-- **A settings request is carried out as a whole, if the actor may make each of its changes, or not
at all.** -/
theorem applySettings_exact {r : Room} (h : r.WellFormed) (settings : RoomSettingsPatch)
    (hgrants : settings.grants ≠ some .plain) (context : RoomRequestContext) :
    (((applySettings settings context).run r).result = .ok () →
      r.Permits settings context.role ∧
        r.Applied ((applySettings settings context).run r).state settings) ∧
    (((applySettings settings context).run r).result ≠ .ok () →
      ((applySettings settings context).run r).state = r) ∧
    (r.Permits settings context.role →
      (∀ v, .autoSkipSegmentCategories v ∈ settings.props →
        ¬ r.HoldsValue (.autoSkipSegmentCategories v)) →
      ((applySettings settings context).run r).result = .ok ()) := by
  obtain ⟨haccepts, hok, -⟩ | ⟨hrefused, hsame, e, herror⟩ :=
    applySettings_grants settings context r
  · refine ⟨fun _ => ⟨haccepts.permits, applied_of_accepts h haccepts⟩, fun hne => absurd hok hne,
      fun _ _ => hok⟩
  · refine ⟨fun hok => ?_, fun _ => hsame, fun hpermits hcategories => ?_⟩
    · rw [hok] at herror
      cases herror
    · exact absurd (hpermits.accepts hgrants hcategories) hrefused

/-- The owner of the room. -/
def byOwner : RoomRequestContext := ⟨"owner", .owner, none, none⟩

/-- Everybody without an account is to be allowed to chat, and nothing is said about the others. -/
def chatty : RoomSettingsPatch where
  props := [.title "foo"]
  grants := some (.grants ⟨OrderedMap.ofList [(.unregisteredUser, parseIntoGrantMask ["chat"])]⟩)
  nodupProps := by decide

/-- A room that grants nothing to those below the moderators. -/
def strict : Room := construct (dbToRoomArgs (fun _ => none) grantingRow) 0

theorem strict_reachable : strict.Reachable := .loaded _ _ _

/-- The owner lets everybody chat: the roles above get the permission too. -/
theorem applySettings_exact_chatty :
    strict.Applied ((applySettings chatty byOwner).run strict).state chatty :=
  ((applySettings_exact strict_reachable.wellFormed chatty (by decide) byOwner).1
    (by decide +kernel)).2

/-- **A request can change the masks of roles that it does not list.** -/
theorem not_applySettings_exact :
    ¬ ∀ (r : Room), r.Reachable → ∀ (settings : RoomSettingsPatch) (g : Grants),
      settings.grants = some (.grants g) → ∀ (context : RoomRequestContext),
        ((applySettings settings context).run r).result = .ok () → ∀ role,
          g.getMask role = none →
            ((applySettings settings context).run r).state.grants.getMask role =
              r.grants.getMask role := by
  intro h
  have hsame := h strict strict_reachable chatty _ rfl byOwner (by decide +kernel) .registeredUser
    (by decide +kernel)
  revert hsame
  decide +kernel

end OpenTogetherTube.Server.Room
