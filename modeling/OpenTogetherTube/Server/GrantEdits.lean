import OpenTogetherTube.Server.Settings
import Mathlib.Data.Finset.Max

/-!
# Editing the grants of a room

A settings request carries a whole `Grants`, and `applySettings` sets the masks in it that differ
from the room's, in the order in which they come. Each role below `Administrator` has a permission
of its own for that, which only higher roles may have. What is set for a role is inherited by the
roles above it, so an edit of a lower role comes back to the one who makes it.

Two questions are settled here. Nobody gains anything for their own role
(`applySettings_own_role`): the `Grants` of a request were made by the constructor, so what they
give to a lower role they give to all above it, and the mask of one's own role is not among those
that change. And a PATCH that says nothing about grants resets them (`patchRoom_leavesGrants_iff`):
the constructor makes the default grants of nothing.
-/

namespace OpenTogetherTube.Common

open OpenTogetherTube.Lib

theorem Role.lt_of_ne {lower role : Role} (hle : lower.toInt ≤ role.toInt) (hne : lower ≠ role) :
    lower.toInt < role.toInt := by
  apply lt_of_le_of_ne hle
  intro heq
  apply hne
  apply Option.some.inj
  rw [← Role.ofInt?_toInt lower, heq, Role.ofInt?_toInt]

namespace Grants

/-- Masks are set, one after the other. -/
def edit (g : Grants) (masks : List (Role × GrantMask)) : Grants :=
  masks.foldl (fun g mask => g.setRoleGrants mask.1 mask.2) g

section Edit

variable {g d : Grants} {masks : List (Role × GrantMask)} {role : Role} {P : Nat → Prop}

/-- Setting a mask that has nothing but what is allowed, for a role up to this one. -/
theorem has_setRoleGrants_le {k : Role} {mask : GrantMask} {lower : Role} {b : Nat}
    (hlower : lower ≠ .owner) (hmask : k.toInt ≤ lower.toInt → mask.getLsbD b = true → P b)
    (hg : ∀ lowest ∈ Role.ladder, lowest.toInt ≤ lower.toInt → lowest ≠ k → g.Has lowest b → P b)
    (hb : (g.setRoleGrants k mask).Has lower b) : P b := by
  rw [has_setRoleGrants g k mask hlower] at hb
  obtain ⟨lowest, hlowest, hle, hb⟩ := hb
  by_cases hk : lowest = k
  · rw [if_pos hk, BitVec.getLsbD_and, Bool.and_eq_true] at hb
    apply hmask (hk ▸ hle) hb.1
  · rw [if_neg hk] at hb
    exact hg lowest hlowest hle hk hb

/-- **What an edit can give.** If nothing that is set for the roles up to this one is more than `P`,
nor what the roles below have, and the mask is set or was not more before, it is not more after. -/
theorem has_edit_le (hrole : role ∈ Role.ladder)
    (hmasks : ∀ mask ∈ masks, mask.1.toInt ≤ role.toInt → ∀ b, mask.2.getLsbD b = true → P b)
    (hbelow : ∀ lower ∈ Role.ladder, lower.toInt < role.toInt → ∀ b, g.Has lower b → P b)
    (hset : (∃ mask ∈ masks, mask.1 = role) ∨ ∀ b, g.Has role b → P b) :
    ∀ b, (g.edit masks).Has role b → P b := by
  induction masks generalizing g with
  | nil =>
    apply hset.resolve_left
    rintro ⟨mask, hmask, -⟩
    cases hmask
  | cons mask masks ih =>
    have hmask := hmasks mask List.mem_cons_self
    apply ih (fun mask hmem => hmasks mask (List.mem_cons_of_mem _ hmem))
    · intro lower hlower hle b hb
      refine has_setRoleGrants_le (mem_ladder_iff.mp hlower) (fun hk => hmask (by omega) b) ?_ hb
      intro lowest hlowest hle' _ hb
      exact hbelow lowest hlowest (by omega) b hb
    · rcases hset with ⟨mask', hmem, heq⟩ | hset
      · rcases List.mem_cons.mp hmem with rfl | hmem
        · -- the role's own mask is replaced
          right
          intro b hb
          refine has_setRoleGrants_le (mem_ladder_iff.mp hrole) (fun hk => hmask hk b) ?_ hb
          intro lowest hlowest hle hne hb
          exact hbelow lowest hlowest (Role.lt_of_ne hle (heq ▸ hne)) b hb
        · exact .inl ⟨mask', hmem, heq⟩
      · right
        intro b hb
        refine has_setRoleGrants_le (mem_ladder_iff.mp hrole) (fun hk => hmask hk b) ?_ hb
        intro lowest hlowest hle _ hb
        by_cases heq : lowest = role
        · exact hset b (heq ▸ hb)
        · exact hbelow lowest hlowest (Role.lt_of_ne hle heq) b hb

/-- A mask of `d` that is among those that are set is there afterwards. -/
theorem has_edit_of_has (hd : d.Normal) (hrole : Chosen role)
    (hmasks : ∀ mask ∈ masks, Chosen mask.1 → mask.2 = (d.getMask mask.1).getD 0) {b : Nat}
    (hb : d.Has role b) (hset : (∃ mask ∈ masks, mask.1 = role) ∨ g.Has role b) :
    (g.edit masks).Has role b := by
  induction masks generalizing g with
  | nil =>
    apply hset.resolve_left
    rintro ⟨mask, hmask, -⟩
    cases hmask
  | cons mask masks ih =>
    have hmask := hmasks mask List.mem_cons_self
    apply ih (fun mask hmem => hmasks mask (List.mem_cons_of_mem _ hmem))
    rcases hset with ⟨mask', hmem, heq⟩ | hset
    · rcases List.mem_cons.mp hmem with rfl | hmem
      · exact .inr (has_setRoleGrants_of_has hd hrole hmask hb (.inl heq))
      · exact .inl ⟨mask', hmem, heq⟩
    · exact .inr (has_setRoleGrants_of_has hd hrole hmask hb (.inr hset))

end Edit

/-- No role has the permission to edit its own masks. -/
theorem granted_own {g : Grants} (hg : g.Valid) {role : Role} {permission : PermissionName}
    (h : Server.Room.rolePermission role = some permission) :
    g.granted role permission = false := by
  have hvalid : g.granted role permission = true → parseIntoGrantMask [permission] &&&
      getValidationMask role = parseIntoGrantMask [permission] := by
    intro hgranted
    apply BitVec.eq_of_getLsbD_eq
    intro b _
    rw [BitVec.getLsbD_and]
    by_cases hb : (parseIntoGrantMask [permission]).getLsbD b = true
    · have hhas : g.Has role b :=
        getLsbD_of_and_eq ((BitVec.and_comm _ _).trans (of_decide_eq_true hgranted)) hb
      rw [hb, hg role b hhas, Bool.and_self]
    · rw [Bool.eq_false_iff.mpr hb, Bool.false_and]
  rw [Bool.eq_false_iff]
  intro hgranted
  have hmask := hvalid hgranted
  clear hvalid hgranted hg
  rcases role <;> simp only [Server.Room.rolePermission, reduceCtorEq, Option.some.injEq] at h <;>
    subst h <;> exact absurd hmask (by decide +kernel)

end Grants

end OpenTogetherTube.Common

namespace OpenTogetherTube.Server

open OpenTogetherTube.Common OpenTogetherTube.Lib

namespace Room

variable {r : Room} {settings : RoomSettingsPatch} {context : RoomRequestContext}

/-! ## What a settings request does to the grants -/

theorem foldl_applyMask_grants (masks : List (Role × GrantMask)) (r : Room) :
    (masks.foldl applyMask r).grants = r.grants.edit masks := by
  induction masks generalizing r with
  | nil => rfl
  | cons mask masks ih => exact ih (r.applyMask mask)

theorem foldl_applySetting_grants (settings : List RoomSetting) (r : Room) :
    (settings.foldl applySetting r).grants = r.grants :=
  foldl_keeps (R := Handler.SameOn Room.grants) settings
    (fun r setting _ => by cases setting <;> rfl) r

/-- **The grants after a settings request.** -/
theorem applySettings_grants (settings : RoomSettingsPatch) (context : RoomRequestContext)
    (r : Room) :
    (r.Accepts settings context ∧ ((applySettings settings context).run r).result = .ok () ∧
      ∃ masks, r.changedMasks settings.grants = .ok masks ∧
        ((applySettings settings context).run r).state.grants = r.grants.edit masks) ∨
    (¬ r.Accepts settings context ∧ ((applySettings settings context).run r).state = r ∧
      ∃ e, ((applySettings settings context).run r).result = .error e) := by
  obtain ⟨haccepts, masks, want, hmasks, hrun⟩ | ⟨hrefused, e, hrun⟩ :=
    applySettings_run settings context r
  · rw [hrun]
    refine .inl ⟨haccepts, rfl, masks, hmasks, ?_⟩
    show (masks.foldl applyMask _).grants = _
    rw [foldl_applyMask_grants, foldl_applySetting_grants]
  · rw [hrun]
    exact .inr ⟨hrefused, rfl, e, rfl⟩

theorem rolePermission_isSome_iff {role : Role} :
    (rolePermission role).isSome ↔ Grants.Chosen role := by
  constructor
  · exact chosen_of_rolePermission
  · rintro ⟨hadministrator, howner⟩
    cases role <;> first
      | rfl
      | exact absurd rfl hadministrator
      | exact absurd rfl howner

/-- The masks that change: those that can be chosen, where they are not the room's. -/
theorem mem_changedMasks {g : Grants} {masks : List (Role × GrantMask)}
    (h : r.changedMasks (some (.grants g)) = .ok masks) (role : Role) (value : GrantMask) :
    (role, value) ∈ masks ↔ g.getMask role = some value ∧ Grants.Chosen role ∧
      r.grants.getMask role ≠ some value := by
  cases h
  rw [List.mem_filter, Bool.and_eq_true, decide_eq_true_eq, rolePermission_isSome_iff,
    ← OrderedMap.get?_eq_some_iff]
  rfl

/-- What is changed is a mask of the `Grants` of the request. -/
theorem changedMasks_eq {g : Grants} {masks : List (Role × GrantMask)}
    (h : r.changedMasks (some (.grants g)) = .ok masks) {mask : Role × GrantMask}
    (hmem : mask ∈ masks) : mask.2 = (g.getMask mask.1).getD 0 := by
  rw [((mem_changedMasks h mask.1 mask.2).mp hmem).1, Option.getD_some]

/-- A mask that is not changed is the room's. -/
theorem getMask_of_not_changed {g : Grants} (hg : g.Normal) {masks : List (Role × GrantMask)}
    (h : r.changedMasks (some (.grants g)) = .ok masks) {role : Role} (hrole : Grants.Chosen role)
    (hmem : ∀ mask ∈ masks, mask.1 ≠ role) : g.getMask role = r.grants.getMask role := by
  obtain ⟨value, hvalue⟩ := Option.isSome_iff_exists.mp (hg.total role)
  by_contra hne
  apply hmem (role, value) _ rfl
  rw [mem_changedMasks h]
  refine ⟨hvalue, hrole, fun heq => hne ?_⟩
  rw [hvalue, heq]

/-! ## Nobody gains for their own role -/

/-- The `Grants` of a request are made by the constructor. What comes over a websocket is no
`Grants` at all, and `patchRoom` makes one of what the body says. -/
def FromConstructor (settings : RoomSettingsPatch) : Prop :=
  ∀ g, settings.grants = some (.grants g) → ∃ masks, g = Grants.ofMasks masks

theorem fromConstructor_newBody (body : Settings.OttSettingsRequest) :
    FromConstructor body.newBody := by
  intro g hg
  have hpayload := GrantsPayload.grants.inj (Option.some.inj hg)
  rw [← hpayload]
  cases body.grants with
  | none => exact ⟨_, rfl⟩
  | some entries => exact ⟨_, rfl⟩

/-- The mask of one's own role does not change. -/
theorem Accepts.own_not_changed (h : r.Accepts settings context) (hr : r.grants.Valid)
    {masks : List (Role × GrantMask)} (hmasks : r.changedMasks settings.grants = .ok masks) :
    ∀ mask ∈ masks, mask.1 ≠ context.role := by
  intro mask hmem heq
  obtain ⟨masks', hmasks', hall⟩ := h.2
  cases hmasks.symm.trans hmasks'
  obtain ⟨permission, hp⟩ :=
    Option.isSome_iff_exists.mp (rolePermission_of_mem_changedMasks hmasks hmem)
  have hgranted := hall mask hmem permission hp
  rw [heq] at hp
  rw [Grants.granted_own hr hp] at hgranted
  cases hgranted

theorem applySettings_own_chosen (hr : r.grants.Normal) (hgrants : FromConstructor settings)
    (haccepts : r.Accepts settings context) (hrole : Grants.Chosen context.role)
    {masks : List (Role × GrantMask)} (hmasks : r.changedMasks settings.grants = .ok masks) :
    ∀ b, (r.grants.edit masks).Has context.role b → r.grants.Has context.role b := by
  have hown := haccepts.own_not_changed hr.valid hmasks
  have hladder := mem_ladder_iff.mpr hrole.2
  refine Grants.has_edit_le (P := r.grants.Has context.role) hladder ?_ ?_ (.inr (fun b hb => hb))
  · intro mask hmem hle b hb
    have hlower := mem_ladder_iff.mpr
      (chosen_of_rolePermission (rolePermission_of_mem_changedMasks hmasks hmem)).2
    cases hpayload : settings.grants with
    | none =>
      rw [hpayload] at hmasks
      cases hmasks
      cases hmem
    | some payload =>
      rw [hpayload] at hmasks
      cases payload with
      | plain => cases hmasks
      | grants g =>
        obtain ⟨stored, hmade⟩ := hgrants g hpayload
        have hg : g.Normal := hmade ▸ Grants.normal_ofMasks stored
        -- what is given to a lower role is in the mask that the request has for one's own
        have hhas : g.Has mask.1 b := by
          rw [Grants.Has, ← changedMasks_eq hmasks hmem]
          exact hb
        have hup := hg.rising hlower hladder hle hhas
        rw [Grants.Has, getMask_of_not_changed hg hmasks hrole hown] at hup
        exact hup
  · intro lower hlower hle b hb
    exact hr.rising hlower hladder (le_of_lt hle) hb

end Room

/-- **A role cannot raise itself.** Whatever a successful settings request sets, the role it was
made with has no permission afterwards that it did not have. -/
theorem Room.applySettings_own_role {r : Room} (h : r.Reachable) (settings : RoomSettingsPatch)
    (context : RoomRequestContext) (hgrants : FromConstructor settings)
    (hok : ((applySettings settings context).run r).result = .ok ()) :
    ∀ b, ((applySettings settings context).run r).state.grants.Has context.role b →
      r.grants.Has context.role b := by
  have hr := h.wellFormed
  have hafter := applySettings_keepsForm settings context r hr
  obtain ⟨haccepts, -, masks, hmasks, hstate⟩ | ⟨-, -, e, herror⟩ :=
    applySettings_grants settings context r
  · by_cases hrole : Grants.Chosen context.role
    · rw [hstate]
      exact applySettings_own_chosen hr.grants hgrants haccepts hrole hmasks
    · -- administrators and the owner have all permissions before and after
      intro b hb
      rw [Grants.Has] at hb ⊢
      by_cases hadministrator : context.role = .administrator
      · rw [hadministrator, hafter.grants.administrator] at hb
        rwa [hadministrator, hr.grants.administrator]
      · have howner : context.role = .owner :=
          not_not.mp (fun hne => hrole ⟨hadministrator, hne⟩)
        rw [howner, hafter.grants.owner] at hb
        rwa [howner, hr.grants.owner]
  · rw [herror] at hok
    cases hok

/-- The row of a room whose moderators have all that they may have. -/
def grantingRow : DbRoom :=
  { Room.promptRow with permissions := .entries [(.moderator, fullMask)] }

/-- Trusted users are to be allowed to kick. -/
def trusting : RoomSettingsPatch where
  props := []
  grants := some (.grants (Grants.ofMasks (OrderedMap.ofList
    [(.trustedUser, parseIntoGrantMask ["manage-users.kick"]), (.moderator, fullMask)])))
  nodupProps := by decide

/-- A moderator may set that, and has what moderators had. -/
theorem Room.applySettings_own_role_moderator :
    ((Room.applySettings trusting ⟨"moderator", .moderator, none, none⟩).run
      (construct (dbToRoomArgs (fun _ => none) grantingRow) 0)).result = .ok () ∧
    ∀ b, ((Room.applySettings trusting ⟨"moderator", .moderator, none, none⟩).run
        (construct (dbToRoomArgs (fun _ => none) grantingRow) 0)).state.grants.Has .moderator b →
      (construct (dbToRoomArgs (fun _ => none) grantingRow) 0).grants.Has .moderator b := by
  have hok : ((Room.applySettings trusting ⟨"moderator", .moderator, none, none⟩).run
      (construct (dbToRoomArgs (fun _ => none) grantingRow) 0)).result = .ok () := by
    decide +kernel
  exact ⟨hok, Room.applySettings_own_role (.loaded _ _ _) trusting
    ⟨"moderator", .moderator, none, none⟩
    (fun _ h => ⟨_, (GrantsPayload.grants.inj (Option.some.inj h)).symm⟩) hok⟩

namespace Room

variable {r : Room} {context : RoomRequestContext}

/-! ## A PATCH without grants -/

/-- The roles that can be chosen have the default masks. -/
def DefaultGrants (r : Room) : Prop :=
  ∀ role, Grants.Chosen role → r.grants.getMask role = Grants.new.getMask role

/-- A room that is constructed without grants has the default ones. -/
theorem defaultGrants_construct {options : RoomOptions} (h : options.grants = none) (now : Time) :
    (construct options now).DefaultGrants := by
  intro role _
  obtain ⟨hgrants, -⟩ := Prod.mk.inj (construct_privileges options now)
  rw [hgrants, h]
  rfl

/-- The lowest role that an edit changes gets the mask that is set. -/
theorem getMask_edit_lowest {d : Grants} (hd : d.Normal) (hr : r.grants.Normal)
    {masks : List (Role × GrantMask)} (h : r.changedMasks (some (.grants d)) = .ok masks)
    {role : Role} (hrole : Grants.Chosen role) (hchanged : ∃ mask ∈ masks, mask.1 = role)
    (hlowest : ∀ mask ∈ masks, role.toInt ≤ mask.1.toInt) :
    (r.grants.edit masks).getMask role = d.getMask role := by
  have hladder := mem_ladder_iff.mpr hrole.2
  have htotal : ∀ (masks : List (Role × GrantMask)) (g : Grants), (g.getMask role).isSome →
      ((g.edit masks).getMask role).isSome := by
    intro masks
    induction masks with
    | nil => exact fun g hg => hg
    | cons mask masks ih =>
      intro g hg
      apply ih
      exact Grants.isSome_setRoleGrants g mask.1 mask.2 (.inr (.inr hg))
  apply Grants.getMask_congr (htotal masks _ (hr.total role)) (hd.total role)
  intro b
  constructor
  · refine Grants.has_edit_le (P := d.Has role) hladder ?_ ?_ (.inl hchanged) b
    · intro mask hmem hle b hb
      have hmask := mem_ladder_iff.mpr
        (chosen_of_rolePermission (rolePermission_of_mem_changedMasks h hmem)).2
      apply hd.rising hmask hladder hle
      rw [Grants.Has, ← changedMasks_eq h hmem]
      exact hb
    · -- the roles below have the masks of `d` already
      intro lower hlower hlt b hb
      have hchosen := hrole.below hlower (le_of_lt hlt)
      have hsame := getMask_of_not_changed hd h hchosen (fun mask hmem heq => by
        have hle := hlowest mask hmem
        rw [heq] at hle
        omega)
      apply hd.rising hlower hladder (le_of_lt hlt)
      rw [Grants.Has, hsame]
      exact hb
  · intro hb
    exact Grants.has_edit_of_has hd hrole (fun mask hmem _ => changedMasks_eq h hmem) hb
      (.inl hchanged)

/-- **An edit to other masks changes the grants.** -/
theorem edit_changes {d : Grants} (hd : d.Normal) (hr : r.grants.Normal)
    {masks : List (Role × GrantMask)} (h : r.changedMasks (some (.grants d)) = .ok masks)
    (hsome : masks ≠ []) :
    ∃ role, Grants.Chosen role ∧
      (r.grants.edit masks).getMask role ≠ r.grants.getMask role := by
  obtain ⟨⟨role, value⟩, hmem, hmin⟩ := masks.toFinset.exists_min_image
    (fun mask => mask.1.toInt) (List.toFinset_nonempty_iff _ |>.mpr hsome)
  rw [List.mem_toFinset] at hmem
  obtain ⟨hvalue, hrole, hne⟩ := (mem_changedMasks h role value).mp hmem
  refine ⟨role, hrole, ?_⟩
  rw [getMask_edit_lowest hd hr h hrole ⟨_, hmem, rfl⟩
    (fun mask hmask => hmin mask (List.mem_toFinset.mpr hmask)), hvalue]
  exact hne.symm

end Room

namespace Settings

open Room

variable {s : State} {env : Env} {token : AuthToken} {user : Option User}
  {body : OttSettingsRequest}

/-- What `patchRoom` has the room process. -/
def applied (s : State) (env : Env) (token : AuthToken) (body : OttSettingsRequest) :
    Outcome Room RoomOutput RoomError Unit :=
  (Room.processUnauthorizedRequest env (.applySettings body.newBody) ⟨token, none⟩).run s.room

theorem store_room (s : State) : s.store.room = s.room := by
  unfold State.store State.updateRoom
  split
  · rfl
  · split <;> rfl

/-- Nothing else of `patchRoom` changes the room. -/
theorem patchRoom_room (s : State) (env : Env) (token : AuthToken) (user : Option User)
    (body : OttSettingsRequest) :
    (s.patchRoom env token user (.settings body)).room = (applied s env token body).state := by
  unfold State.patchRoom
  dsimp only
  split
  · rw [store_room]
    rfl
  · rfl

/-- The settings are applied for whoever asks, if that can be made out. -/
theorem applied_cases (s : State) (env : Env) (token : AuthToken) (body : OttSettingsRequest) :
    (∃ context, requestContext env ⟨token, none⟩ s.room = .ok context ∧
      (applied s env token body).state = ((applySettings body.newBody context).run s.room).state ∧
      (applied s env token body).result =
        ((applySettings body.newBody context).run s.room).result) ∨
    ∃ e, requestContext env ⟨token, none⟩ s.room = .error e ∧
      (applied s env token body).state = s.room := by
  have hhandle : ∀ context,
      (processRequest env (.applySettings body.newBody) context).run s.room =
        (applySettings body.newBody context).run s.room :=
    fun context => mediated_unlisted _ rfl _ _
  obtain ⟨context, hcontext, hstate, hresult⟩ | ⟨e, hcontext, hrun⟩ :=
    run_processUnauthorizedRequest env (.applySettings body.newBody) ⟨token, none⟩ s.room
  · rw [hhandle] at hstate hresult
    exact .inl ⟨context, hcontext, hstate, hresult⟩
  · exact .inr ⟨e, hcontext, congrArg Outcome.state hrun⟩

/-- Whoever asks may set all that the body has. -/
def Permitted (r : Room) (props : List RoomSetting) (context : RoomRequestContext) : Prop :=
  ∀ setting ∈ props, r.grants.granted context.role (settingPermission setting) = true

/-- **The purpose** of a PATCH without grants: the grants stay, and it succeeds if whoever asks may
set what it sets. -/
structure LeavesGrants (s : State) (env : Env) (token : AuthToken) (user : Option User)
    (body : OttSettingsRequest) : Prop where
  grants : ∀ role, (s.patchRoom env token user (.settings body)).room.grants.getMask role =
    s.room.grants.getMask role
  succeeds : ∀ context, requestContext env ⟨token, none⟩ s.room = .ok context →
    Permitted s.room body.props context → (applied s env token body).result = .ok ()

/-- The request is rightly refused. Something that it has may not be set, and that is something the
room holds differently, or the default masks may not be set either. -/
def RightlyRefused (r : Room) (props : List RoomSetting) (context : RoomRequestContext) : Prop :=
  ¬ Permitted r props context ∧
    ((∃ setting ∈ props, r.holdsSetting setting = false ∧
        r.grants.granted context.role (settingPermission setting) = false) ∨
      ∃ role permission, rolePermission role = some permission ∧
        r.grants.getMask role ≠ Grants.new.getMask role ∧
        r.grants.granted context.role permission = false)

theorem newBody_grants (hbody : body.grants = none) :
    body.newBody.grants = some (.grants Grants.new) := by
  unfold OttSettingsRequest.newBody
  rw [hbody]

theorem changedMasks_grants (r : Room) (g : Grants) :
    ∃ masks, r.changedMasks (some (.grants g)) = .ok masks := ⟨_, rfl⟩

/-- With default grants nothing is to be changed. -/
theorem changedMasks_new {r : Room} {masks : List (Role × GrantMask)}
    (h : r.changedMasks (some (.grants Grants.new)) = .ok masks) :
    masks = [] ↔ r.DefaultGrants := by
  constructor
  · intro hnil role hrole
    refine (getMask_of_not_changed Grants.normal_new h hrole (fun mask hmem => ?_)).symm
    rw [hnil] at hmem
    cases hmem
  · intro hdefault
    apply List.eq_nil_iff_forall_not_mem.mpr
    intro mask hmem
    obtain ⟨hvalue, hrole, hne⟩ := (mem_changedMasks h mask.1 mask.2).mp hmem
    exact hne ((hdefault mask.1 hrole).trans hvalue)

/-- What the default masks are checked for. -/
theorem changedMasks_granted {r : Room} {masks : List (Role × GrantMask)} {role : Role}
    (h : r.changedMasks (some (.grants Grants.new)) = .ok masks) :
    (∀ mask ∈ masks, ∀ permission, rolePermission mask.1 = some permission →
        r.grants.granted role permission = true) ↔
      ∀ k permission, rolePermission k = some permission →
        r.grants.getMask k ≠ Grants.new.getMask k → r.grants.granted role permission = true := by
  constructor
  · intro hall k permission hp hne
    obtain ⟨value, hvalue⟩ := Option.isSome_iff_exists.mp (Grants.normal_new.total k)
    have hchosen := chosen_of_rolePermission (hp ▸ rfl : (rolePermission k).isSome = true)
    apply hall (k, value) _ permission hp
    rw [mem_changedMasks h]
    exact ⟨hvalue, hchosen, fun heq => hne (heq.trans hvalue.symm)⟩
  · intro hall mask hmem permission hp
    obtain ⟨hvalue, -, hne⟩ := (mem_changedMasks h mask.1 mask.2).mp hmem
    exact hall mask.1 permission hp (fun heq => hne (heq.trans hvalue))

/-- **When the request is refused.** -/
theorem not_accepts_newBody_iff (hbody : body.grants = none) {r : Room}
    {context : RoomRequestContext} : ¬ r.Accepts body.newBody context ↔
      (∃ setting ∈ body.props, r.holdsSetting setting = false ∧
        r.grants.granted context.role (settingPermission setting) = false) ∨
      ∃ role permission, rolePermission role = some permission ∧
        r.grants.getMask role ≠ Grants.new.getMask role ∧
        r.grants.granted context.role permission = false := by
  have haccepts : r.Accepts body.newBody context ↔
      (∀ setting ∈ body.props, r.holdsSetting setting = false →
        r.grants.granted context.role (settingPermission setting) = true) ∧
      ∀ role permission, rolePermission role = some permission →
        r.grants.getMask role ≠ Grants.new.getMask role →
        r.grants.granted context.role permission = true := by
    unfold Room.Accepts
    rw [newBody_grants hbody]
    apply and_congr Iff.rfl
    constructor
    · rintro ⟨masks, hmasks, hall⟩
      exact (changedMasks_granted hmasks).mp hall
    · intro hall
      obtain ⟨masks, hmasks⟩ := changedMasks_grants r Grants.new
      exact ⟨masks, hmasks, (changedMasks_granted hmasks).mpr hall⟩
  rw [haccepts, not_and_or]
  simp only [not_forall, Bool.not_eq_true, exists_prop]

end Settings

/-- **Exactly when a PATCH without grants leaves the grants alone**: when the room has the default
ones, or the request is rightly refused. -/
theorem Settings.patchRoom_leavesGrants_iff {s : Settings.State} (h : s.room.Reachable) (env : Env)
    (token : AuthToken) (user : Option User) {body : OttSettingsRequest}
    (hbody : body.grants = none) :
    LeavesGrants s env token user body ↔ s.room.DefaultGrants ∨
      ∀ context, Room.requestContext env ⟨token, none⟩ s.room = .ok context →
        RightlyRefused s.room body.props context := by
  have hr := h.wellFormed.grants
  obtain ⟨context, hcontext, hstate, hresult⟩ | ⟨e, hcontext, hkept⟩ :=
    applied_cases s env token body
  · have hroom := (patchRoom_room s env token user body).trans hstate
    have hsame : ∀ context', Room.requestContext env ⟨token, none⟩ s.room = .ok context' →
        context' = context := fun context' h' => Except.ok.inj (h'.symm.trans hcontext)
    obtain ⟨haccepts, hok, masks, hmasks, hgrants⟩ | ⟨hrefused, hkept, e, herror⟩ :=
      Room.applySettings_grants body.newBody context s.room
    · rw [newBody_grants hbody] at hmasks
      have hnot : ¬ ∀ context', Room.requestContext env ⟨token, none⟩ s.room = .ok context' →
          RightlyRefused s.room body.props context' := fun hall =>
        (not_accepts_newBody_iff hbody).mpr (hall context hcontext).2 haccepts
      rw [or_iff_left hnot, ← changedMasks_new hmasks]
      constructor
      · intro hleaves
        by_contra hsome
        obtain ⟨role, -, hne⟩ := Room.edit_changes Grants.normal_new hr hmasks hsome
        apply hne
        rw [← hgrants, ← hroom]
        exact hleaves.grants role
      · rintro rfl
        refine ⟨fun role => ?_, fun _ _ _ => hresult.trans hok⟩
        rw [hroom, hgrants]
        rfl
    · have hgranted := (not_accepts_newBody_iff hbody).mp hrefused
      constructor
      · intro hleaves
        refine .inr (fun context' hcontext' => ?_)
        rw [hsame context' hcontext']
        refine ⟨fun hpermitted => ?_, hgranted⟩
        have hok := hresult.symm.trans (hleaves.succeeds context hcontext hpermitted)
        rw [herror] at hok
        cases hok
      · intro hcondition
        refine ⟨fun role => by rw [hroom, hkept], fun context' hcontext' hpermitted => ?_⟩
        rw [hsame context' hcontext'] at hpermitted
        rcases hcondition with hdefault | hrefusal
        · -- something that is set is not granted
          exfalso
          rcases hgranted with ⟨setting, hmem, -, hdenied⟩ | ⟨role, permission, hp, hne, -⟩
          · rw [hpermitted setting hmem] at hdenied
            cases hdenied
          · exact hne (hdefault role (Room.chosen_of_rolePermission (hp ▸ rfl)))
        · exact absurd hpermitted (hrefusal context hcontext).1
  · have hnone : ∀ context', Room.requestContext env ⟨token, none⟩ s.room ≠ .ok context' := by
      intro context' hcontext'
      rw [hcontext] at hcontext'
      cases hcontext'
    refine iff_of_true ⟨fun role => ?_, fun context' hcontext' => ?_⟩
      (.inr (fun context' hcontext' => absurd hcontext' (hnone context')))
    · rw [patchRoom_room, hkept]
    · exact absurd hcontext' (hnone context')

/-- The row of a room with an owner, in which visitors may do nothing but set it up. -/
def ownedRow : DbRoom := { Room.promptRow with ownerId := some 1 }

/-- The room, loaded, and its row. -/
def ownedState : Settings.State :=
  ⟨Room.construct (dbToRoomArgs (fun id => some ⟨id, "owner"⟩) ownedRow) 0, ownedRow, false⟩

/-- The owner's token is known. -/
def ownersEnv : Env :=
  { emptyEnv 0 with session := fun _ => some (.loggedIn 1), username := fun _ => some "owner" }

/-- A new title, and nothing else. -/
def titleBody : Settings.OttSettingsRequest := ⟨[.title "new"], none, by decide⟩

/-- A room that was created with a name has the default grants, and they stay. -/
theorem Settings.patchRoom_leavesGrants_iff_created :
    LeavesGrants ⟨Room.construct { name := some "foo" } 0, ownedRow, false⟩ ownersEnv "token" none
      titleBody :=
  (patchRoom_leavesGrants_iff (.created _ _ rfl rfl) ownersEnv "token" none rfl).mpr
    (.inl (Room.defaultGrants_construct rfl 0))

/-- **An owner who sets a title resets the permissions** of a room that has others than the default
ones. -/
theorem Settings.not_leavesGrants :
    ¬ ∀ (s : Settings.State) (env : Env) (token : AuthToken) (user : Option User)
      (body : OttSettingsRequest), s.room.Reachable → body.grants = none →
      LeavesGrants s env token user body := by
  intro h
  have hleaves := h ownedState ownersEnv "token" none titleBody (.loaded _ _ _) rfl
  have hgrants := hleaves.grants .unregisteredUser
  rw [patchRoom_room] at hgrants
  have hreset : (applied ownedState ownersEnv "token" titleBody).state.grants.getMask
      .unregisteredUser ≠ ownedState.room.grants.getMask .unregisteredUser := by
    decide +kernel
  exact hreset hgrants

end OpenTogetherTube.Server
