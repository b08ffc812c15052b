import OpenTogetherTube.Server.Promotion

/-!
# A promotion gives the role that it names

`promoteUser` takes the target's account out of the three sets of roles, and puts it into the one
that is asked for, if there is one. The role is read back by going through the sets from the top.

`Appoints` is what this is for: the target has the role, the others have the roles that they had,
and no account has come to be in two sets. The sets are changed by `user_id` and read by the account
that was looked up, and after a lookup that failed these are not the same. `appoints_iff` says that
this is all that can go wrong.
-/

namespace OpenTogetherTube.Server.Room

open OpenTogetherTube.Common OpenTogetherTube.Lib

/-! ## The purpose -/

/-- The roles from `RegisteredUser` to `Administrator`. -/
def promotableRoles : List Role := .registeredUser :: assignableRoles

/-- No account is in two of the sets. -/
def DisjointRoles (r : Room) : Prop :=
  ∀ id, ∀ k ∈ assignableRoles, ∀ k' ∈ assignableRoles,
    r.inRole id k = true → r.inRole id k' = true → k = k'

/-- The target has the role, and nothing else has changed. -/
structure Appoints (r r' : Room) (target : RoomUser) (role : Role) : Prop where
  appointed : r'.getRole target = role
  users : ∀ u ∈ r'.realusers, u.userId ≠ target.userId → r'.getRole u = r.getRole u
  sessions : ∀ id, some id ≠ target.userId →
    r'.getRoleFromSession (.loggedIn id) = r.getRoleFromSession (.loggedIn id)
  disjoint : r'.DisjointRoles

/-- **The purpose**: a promotion that returns normally, of a target that is logged in and is not the
owner, gives it the role and does nothing else. -/
def PromotesExactly (r : Room) (targetClientId : ClientId) (role : Role)
    (context : RoomRequestContext) : Prop :=
  ∀ target, r.getUser targetClientId = some target → target.isLoggedIn = true →
    r.isOwner target = false →
      ((promoteUser targetClientId role.toInt context).run r).result = .ok () →
        r.Appoints ((promoteUser targetClientId role.toInt context).run r).state target role

/-- The account that the room knows the user by. -/
def knownAs (u : RoomUser) : Option UserId := u.user.map (·.id)

/-- The target is known by the account it is logged in with, or is taken to have the role already;
and nobody else is known by that account and logged in with another one, unless it is the owner's
account or has the role. -/
structure Recognized (r : Room) (target : RoomUser) (id : UserId) (role : Role) : Prop where
  target : knownAs target = some id ∨ r.getRole target = role
  others : ∀ u ∈ r.realusers, u.userId ≠ some id → knownAs u = some id →
    r.isOwner u = true ∨ (r.roleOfAccount id).getD .registeredUser = role

/-- **The condition**, if the promotion passes the checks. -/
def Appointable (r : Room) (targetClientId : ClientId) (role : Role) (actor : Role) : Prop :=
  ∀ target id, r.getUser targetClientId = some target → target.userId = some id → id ≠ 0 →
    r.isOwner target = false → r.Passes target role.toInt actor → r.Recognized target id role

/-! ## The roles afterwards -/

section Roles

variable {r : Room} {id : UserId} {role : Role} {u target : RoomUser}

theorem find?_assignable (role : Role) : assignableRoles.find? (fun k => k.toInt = role.toInt) =
    if role ∈ assignableRoles then some role else none := by
  cases role <;> decide

/-- An account has a role from the registered users up, and each of them is one role of the sets. -/
theorem roleOfAccount_eq_iff (hrole : role ∈ promotableRoles) :
    r.roleOfAccount id = assignableRoles.find? (fun k => k.toInt = role.toInt) ↔
      (r.roleOfAccount id).getD .registeredUser = role := by
  rw [find?_assignable]
  have hregistered : Role.registeredUser ∉ assignableRoles := by decide
  cases hset : r.roleOfAccount id with
  | none =>
    rcases List.mem_cons.mp hrole with rfl | hmem
    · simp [hregistered]
    · rw [if_pos hmem]
      refine iff_of_false (Option.some_ne_none _).symm (fun heq => hregistered ?_)
      rw [Option.getD_none] at heq
      rwa [heq]
  | some k =>
    have hk : k ∈ assignableRoles := mem_of_roleOfAccount k hset
    rcases List.mem_cons.mp hrole with rfl | hmem
    · rw [if_neg hregistered, Option.getD_some]
      exact iff_of_false (Option.some_ne_none _) (fun heq => hregistered (heq ▸ hk))
    · rw [if_pos hmem, Option.getD_some, Option.some.injEq]

/-- Who keeps the role. -/
theorem keeps_role_iff (h : r.WellFormed) (hrole : role ∈ promotableRoles) :
    (r.assignRole id role.toInt).getRole u = r.getRole u ↔
      (knownAs u = some id →
        r.isOwner u = true ∨ (r.roleOfAccount id).getD .registeredUser = role) := by
  rw [getRole_assignRole_iff h, roleOfAccount_eq_iff hrole]
  rfl

/-- **What becomes of the target.** -/
theorem gets_role_iff (h : r.WellFormed) (hrole : role ∈ promotableRoles)
    (howner : r.isOwner target = false) (hlogged : target.isLoggedIn = true) :
    (r.assignRole id role.toInt).getRole target = role ↔
      knownAs target = some id ∨ r.getRole target = role := by
  by_cases hknown : knownAs target = some id
  · obtain ⟨user, huser, hid⟩ := Option.map_eq_some_iff.mp hknown
    have hafter : (r.assignRole id role.toInt).roleOfAccount id =
        assignableRoles.find? (fun k => k.toInt = role.toInt) := roleOfAccount_assignRole h
    rw [getRole_of_user (r := r.assignRole id role.toInt) huser howner, hid, if_pos hlogged]
    exact iff_of_true ((roleOfAccount_eq_iff hrole).mp hafter) (.inl hknown)
  · have hkept : (r.assignRole id role.toInt).getRole target = r.getRole target :=
      (keeps_role_iff h hrole).mpr (fun hsome => absurd hsome hknown)
    rw [hkept]
    exact ⟨.inr, fun hor => hor.resolve_left hknown⟩

/-- An account that is in no two sets is in none but the new one. -/
theorem disjointRoles_assignRole (h : r.WellFormed) (hdisjoint : r.DisjointRoles) (n : Int) :
    (r.assignRole id n).DisjointRoles := by
  intro id' k hk k' hk' hin hin'
  by_cases hid : id' = id
  · subst hid
    rw [inRole_assignRole h, decide_eq_true_eq] at hin hin'
    apply Option.some.inj
    rw [← Role.ofInt?_toInt k, hin.2, ← hin'.2, Role.ofInt?_toInt]
  · rw [inRole_assignRole_of_ne hid] at hin hin'
    exact hdisjoint id' k hk k' hk' hin hin'

/-- A session is read by the account it is of. -/
theorem getRoleFromSession_assignRole {id' : UserId} (hne : id' ≠ id) (n : Int) :
    (r.assignRole id n).getRoleFromSession (.loggedIn id') =
      r.getRoleFromSession (.loggedIn id') := by
  show (if r.owner.any (fun owner => owner.id = id') then Role.owner
    else ((r.assignRole id n).roleOfAccount id').getD .registeredUser) = _
  rw [roleOfAccount_assignRole_of_ne hne]
  rfl

/-- **Whether the sets say what was asked for.** -/
theorem appoints_assignRole_iff (h : r.WellFormed) (hdisjoint : r.DisjointRoles)
    (hrole : role ∈ promotableRoles) (hid : target.userId = some id)
    (howner : r.isOwner target = false) (hlogged : target.isLoggedIn = true) :
    r.Appoints (r.assignRole id role.toInt) target role ↔ r.Recognized target id role := by
  constructor
  · intro happoints
    refine ⟨(gets_role_iff h hrole howner hlogged).mp happoints.appointed, fun u hu hne => ?_⟩
    exact (keeps_role_iff h hrole).mp (happoints.users u hu (hid ▸ hne))
  · intro hrecognized
    refine ⟨(gets_role_iff h hrole howner hlogged).mpr hrecognized.target, fun u hu hne => ?_, ?_,
      disjointRoles_assignRole h hdisjoint _⟩
    · exact (keeps_role_iff h hrole).mpr (hrecognized.others u hu (hid ▸ hne))
    · intro id' hne
      apply getRoleFromSession_assignRole
      rintro rfl
      exact hne hid.symm

end Roles

/-- **A promotion gives the role it names and changes no other, if and only if** no user in question
is known by another account than the one it is logged in with. -/
theorem appoints_iff {r : Room} (h : r.WellFormed) (hdisjoint : r.DisjointRoles)
    (targetClientId : ClientId) {role : Role} (hrole : role ∈ promotableRoles)
    (context : RoomRequestContext) :
    r.PromotesExactly targetClientId role context ↔
      r.Appointable targetClientId role context.role := by
  have hlogged : ∀ {target : RoomUser} {id}, target.userId = some id →
      (target.isLoggedIn = true ↔ id ≠ 0) := by
    intro target id hid
    rw [RoomUser.isLoggedIn, hid, decide_eq_true_eq]
  have hpromoted : ∀ {target : RoomUser} {id}, target.userId = some id →
      promoted target role.toInt r = r.assignRole id role.toInt := by
    intro target id hid
    rw [promoted, hid]
  constructor
  · intro hexact target id htarget hid hne howner hpasses
    have hin := (hlogged hid).mpr hne
    have happoints := hexact target htarget hin howner
    rw [run_promoteUser_of_passes htarget hpasses, hpromoted hid] at happoints
    exact (appoints_assignRole_iff h hdisjoint hrole hid howner hin).mp (happoints rfl)
  · intro happointable target htarget hin howner
    cases hid : target.userId with
    | none =>
      rw [RoomUser.isLoggedIn, hid] at hin
      cases hin
    | some id =>
      by_cases hpasses : r.Passes target role.toInt context.role
      · rw [run_promoteUser_of_passes htarget hpasses, hpromoted hid]
        intro _
        exact (appoints_assignRole_iff h hdisjoint hrole hid howner hin).mpr
          (happointable target id htarget hid ((hlogged hid).mp hin) howner hpasses)
      · -- a promotion that is refused does not return normally
        obtain ⟨e, hrefused⟩ := run_promoteUser_of_not_passes htarget hpasses
        rw [hrefused]
        intro hok
        cases hok

/-- Disjointness can be checked on the elements of the sets. -/
theorem disjointRoles_of_forall {r : Room}
    (hall : ∀ k ∈ assignableRoles, ∀ k' ∈ assignableRoles, ∀ set ∈ r.userRoles.get? k,
      ∀ id ∈ set.toList, r.inRole id k' = true → k = k') : r.DisjointRoles := by
  intro id k hk k' hk' hin hin'
  rw [inRole, Option.any_eq_true] at hin
  obtain ⟨set, hset, hhas⟩ := hin
  exact hall k hk k' hk' set hset id (OrderedMap.mem_keys_iff.mpr hhas) hin'

theorem moderated_disjointRoles : moderated.DisjointRoles :=
  disjointRoles_of_forall (by decide +kernel)

/-- The owner of the room. -/
def ownerContext : RoomRequestContext := ⟨"owner", .owner, none, none⟩

/-- The owner makes the moderator a trusted user. -/
theorem appoints_iff_moderated :
    moderated.PromotesExactly "bob's client" .trustedUser ownerContext := by
  refine (appoints_iff moderated_reachable.wellFormed moderated_disjointRoles "bob's client"
    (by decide) ownerContext).mpr ?_
  intro target id htarget hid hne howner hpasses
  have hbob : moderated.realusers.all (fun u => knownAs u = u.userId) = true := by
    decide +kernel
  have hknown : ∀ u ∈ moderated.realusers, knownAs u = u.userId := by
    simpa using hbob
  refine ⟨.inl ((hknown target (List.mem_of_find?_eq_some htarget)).trans hid), ?_⟩
  intro u hu hother hsame
  exact absurd ((hknown u hu).symm.trans hsame) hother

/-- Accounts as in `bobExists`, but the token is now that of account 8, which cannot be found. -/
def bobLeft : Env :=
  { bobExists with session := fun _ => some (.loggedIn 8) }

/-- The room after that has been reported to it. -/
def mistaken : Room :=
  ((processUnauthorizedRequest bobLeft (.updateUser ⟨"bob's client", none, some 8, none⟩)
    ⟨"bob's token", some "bob's client"⟩).run moderated).state

theorem mistaken_reachable : mistaken.Reachable := .requested moderated_reachable _ _ _

theorem mistaken_disjointRoles : mistaken.DisjointRoles :=
  disjointRoles_of_forall (by decide +kernel)

/-- **A promotion can go to an account that the room does not know the user by**: the role of the
user stays what it was. -/
theorem not_appoints :
    ¬ ∀ (r : Room), r.Reachable → r.DisjointRoles → ∀ (targetClientId : ClientId) (role : Role),
      role ∈ promotableRoles → ∀ (context : RoomRequestContext),
        r.PromotesExactly targetClientId role context := by
  intro h
  have hrun : (mistaken.getUser "bob's client").any (fun u => u.isLoggedIn ∧
      mistaken.isOwner u = false ∧
      ((promoteUser "bob's client" 2 ownerContext).run mistaken).result = .ok () ∧
      ((promoteUser "bob's client" 2 ownerContext).run mistaken).state.getRole u = .moderator) =
        true := by
    decide +kernel
  obtain ⟨target, htarget, hrun⟩ := (Option.any_eq_true _ _).mp hrun
  obtain ⟨hlogged, howner, hok, hafter⟩ := of_decide_eq_true hrun
  have happointed := (h mistaken mistaken_reachable mistaken_disjointRoles "bob's client"
    .trustedUser (by decide) ownerContext target htarget hlogged howner hok).appointed
  rw [show Role.trustedUser.toInt = 2 from rfl, hafter] at happointed
  cases happointed

end OpenTogetherTube.Server.Room
