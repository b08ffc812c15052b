import OpenTogetherTube.Server.Reachable
import Mathlib.Data.List.Find

/-!
# Promotion is authorized

A promotion asks for a role by its number, and a client can send any number. Giving a role takes the
permission to promote to it, and taking one the permission to demote from it; both checks are picked
by a `switch` on a number, the first on the one asked for and the second on the role the target has,
and only if the first number is the smaller.

`Authorized` is what this is for: whenever a promotion changes which roles are kept for the target's
account, the actor had the permissions for what the target's role became and was.

A number above all roles passes both checks, asks for no permission, and takes away what the target
has. Where the account that a user was last given could not be looked up, the check is made about
the account the room still knows the user by. `authorized_iff` says that nothing else goes wrong.
-/

namespace OpenTogetherTube.Server.Room

open OpenTogetherTube.Common OpenTogetherTube.Lib

/-! ## What a promotion does -/

/-- The account is in the set of the role. -/
def inRole (r : Room) (id : UserId) (role : Role) : Bool :=
  (r.userRoles.get? role).any (fun set => set.has id)

/-- If the sets that the account is in differ, the actor may promote to the role that the user has
afterwards, and if the role went down, demote from the one it had. -/
def AuthorizedChange (r r' : Room) (target : RoomUser) (id : UserId) (actor : Role) : Prop :=
  (∃ k, r'.inRole id k ≠ r.inRole id k) →
    (∀ permission, promotePermission (r'.getRole target).toInt = some permission →
      r.grants.granted actor permission = true) ∧
    ((r'.getRole target).toInt < (r.getRole target).toInt →
      ∀ permission, demotePermission (r.getRole target) = some permission →
        r.grants.granted actor permission = true)

/-- **The purpose**: a promotion makes no other changes. -/
def Authorized (r : Room) (targetClientId : ClientId) (role : Int) (context : RoomRequestContext) :
    Prop :=
  ∀ target id, r.getUser targetClientId = some target → target.userId = some id →
    r.AuthorizedChange ((promoteUser targetClientId role context).run r).state target id context.role

/-- The checks that `promoteUser` makes before it changes anything. -/
structure Passes (r : Room) (target : RoomUser) (role : Int) (actor : Role) : Prop where
  promote : ∀ permission ∈ (promotePermission role).toList,
    r.grants.granted actor permission = true
  demote : role < (r.getRole target).toInt → ∃ permission,
    demotePermission (r.getRole target) = some permission ∧
      r.grants.granted actor permission = true
  registered : r.getRole target ≠ .unregisteredUser

section Run

variable {r : Room} {targetClientId : ClientId} {target : RoomUser} {role : Int}
  {context : RoomRequestContext}

/-- Where `promoteUser` is after the first check. -/
def afterPromoteCheck (target : RoomUser) (role : Int) (context : RoomRequestContext)
    (currentRole : Role) : RoomM Unit := do
  Handler.when (role < currentRole.toInt) (match demotePermission currentRole with
    | none => Handler.throw .impossiblePromotion
    | some permission => checkGrant context.role permission)
  Handler.when (currentRole = .unregisteredUser) (Handler.throw .impossiblePromotion)
  Handler.modify (promoted target role)
  syncUser target.id

theorem run_promoteUser (htarget : r.getUser targetClientId = some target) :
    (promoteUser targetClientId role context).run r =
      ((checkGrants context.role (promotePermission role).toList).run r).andThen
        (fun _ => afterPromoteCheck target role context (r.getRole target)) := by
  simp only [promoteUser, Handler.run_bind, Handler.run_get, Outcome.andThen_ok, htarget]
  rfl

/-- The last steps. -/
theorem run_promoted_syncUser (htarget : r.getUser targetClientId = some target) (role : Int) :
    (Handler.modify (promoted target role) >>= fun _ => syncUser target.id : RoomM Unit).run r =
      ⟨promoted target role r, [.user ((promoted target role r).userInfo target)], .ok ()⟩ := by
  have hsame : (promoted target role r).realusers = r.realusers := by
    unfold promoted
    split <;> rfl
  have hid : target.id = targetClientId := by simpa using List.find?_some htarget
  have hstill : (promoted target role r).getUser target.id = some target := by
    rw [getUser, hsame, hid]
    exact htarget
  simp only [Handler.run_bind, Handler.run_modify, Outcome.andThen_ok, run_syncUser hstill,
    List.nil_append]

/-- **A promotion whose checks pass is carried out.** -/
theorem run_promoteUser_of_passes (htarget : r.getUser targetClientId = some target)
    (h : r.Passes target role context.role) :
    (promoteUser targetClientId role context).run r =
      ⟨promoted target role r, [.user ((promoted target role r).userInfo target)], .ok ()⟩ := by
  have hcheck : (checkGrants context.role (promotePermission role).toList).run r =
      ⟨r, [], .ok ()⟩ := by
    obtain ⟨-, hrun⟩ | ⟨⟨p, hmem, hp⟩, -⟩ := run_checkGrants context.role
      (promotePermission role).toList r
    · exact hrun
    · rw [h.promote p hmem] at hp
      cases hp
  have hregistered : ¬ r.getRole target = .unregisteredUser := h.registered
  have hrest : ((Handler.modify (promoted target role)).run r).andThen
      (fun _ => syncUser target.id) =
        ⟨promoted target role r, [.user ((promoted target role r).userInfo target)], .ok ()⟩ :=
    run_promoted_syncUser htarget role
  have hafter : (afterPromoteCheck target role context (r.getRole target)).run r =
      ⟨promoted target role r, [.user ((promoted target role r).userInfo target)], .ok ()⟩ := by
    unfold afterPromoteCheck
    by_cases hlt : role < (r.getRole target).toInt
    · obtain ⟨permission, hdemote, hgranted⟩ := h.demote hlt
      simp only [Handler.run_bind, Handler.run_when, if_pos hlt, hdemote, run_checkGrant,
        if_pos hgranted, if_neg hregistered, Outcome.andThen_ok, hrest, List.nil_append]
    · simp only [Handler.run_bind, Handler.run_when, if_neg hlt, if_neg hregistered,
        Outcome.andThen_ok, hrest, List.nil_append]
  rw [run_promoteUser htarget, hcheck, Outcome.andThen_ok, hafter]
  rfl

/-- **A promotion that fails a check does nothing.** -/
theorem run_promoteUser_of_not_passes (htarget : r.getUser targetClientId = some target)
    (h : ¬ r.Passes target role context.role) :
    ∃ e, (promoteUser targetClientId role context).run r = ⟨r, [], .error e⟩ := by
  rw [run_promoteUser htarget]
  obtain ⟨hall, hrun⟩ | ⟨-, e, hrun⟩ := run_checkGrants context.role
    (promotePermission role).toList r
  · have hafter : ∃ e, (afterPromoteCheck target role context (r.getRole target)).run r =
        ⟨r, [], .error e⟩ := by
      unfold afterPromoteCheck
      by_cases hlt : role < (r.getRole target).toInt
      · cases hdemote : demotePermission (r.getRole target) with
        | none =>
          refine ⟨.impossiblePromotion, ?_⟩
          simp only [Handler.run_bind, Handler.run_when, if_pos hlt, Handler.run_throw,
            Outcome.andThen_error]
        | some permission =>
          by_cases hgranted : r.grants.granted context.role permission = true
          · have hunregistered : r.getRole target = .unregisteredUser := by
              by_contra hne
              exact h ⟨hall, fun _ => ⟨permission, hdemote, hgranted⟩, hne⟩
            rw [hunregistered] at hdemote
            cases hdemote
          · refine ⟨.permissionDenied permission, ?_⟩
            simp only [Handler.run_bind, Handler.run_when, if_pos hlt, run_checkGrant,
              if_neg hgranted, Outcome.andThen_error]
      · have hunregistered : r.getRole target = .unregisteredUser := by
          by_contra hne
          exact h ⟨hall, fun hlt' => absurd hlt' hlt, hne⟩
        refine ⟨.impossiblePromotion, ?_⟩
        simp only [Handler.run_bind, Handler.run_when, if_neg hlt, if_pos hunregistered,
          Outcome.andThen_ok, Handler.run_throw, Outcome.andThen_error, List.append_nil]
    obtain ⟨e, hafter⟩ := hafter
    refine ⟨e, ?_⟩
    rw [hrun, Outcome.andThen_ok, hafter]
    rfl
  · exact ⟨e, by rw [hrun, Outcome.andThen_error]⟩

end Run

/-! ## Who is in which role afterwards -/

section Roles

variable {r : Room} {id : UserId} {role : Int}

theorem toInt_ge_trusted_iff {k : Role} : k.toInt ≥ Role.trustedUser.toInt ↔ k ∈ assignableRoles := by
  cases k <;> decide

/-- What becomes of one set. -/
theorem get?_assignRole (r : Room) (id : UserId) (role : Int) (k : Role) :
    (r.assignRole id role).userRoles.get? k = (r.userRoles.get? k).map (fun set =>
      let set := if k ∈ assignableRoles then set.delete id else set
      if k ∈ assignableRoles ∧ k.toInt = role then set.add id else set) := by
  unfold assignRole
  dsimp only
  by_cases hrole : role ≥ Role.trustedUser.toInt
  · rw [if_pos hrole]
    cases hof : Role.ofInt? role with
    | none =>
      have hnone : ¬ (k ∈ assignableRoles ∧ k.toInt = role) := by
        rintro ⟨-, heq⟩
        rw [← heq, Role.ofInt?_toInt] at hof
        cases hof
      dsimp only
      rw [OrderedMap.get?_mapValues]
      simp only [if_neg hnone]
    | some k' =>
      have hk' := Role.toInt_of_ofInt? hof
      dsimp only
      rw [OrderedMap.get?_adjust, OrderedMap.get?_mapValues]
      by_cases hk : k = k'
      · subst hk
        have hassignable : k ∈ assignableRoles := toInt_ge_trusted_iff.mp (hk' ▸ hrole)
        rw [if_pos rfl, Option.map_map]
        simp only [if_pos hassignable, if_pos (And.intro hassignable hk')]
        rfl
      · have hne : ¬ (k ∈ assignableRoles ∧ k.toInt = role) := by
          rintro ⟨-, heq⟩
          rw [← heq, Role.ofInt?_toInt] at hof
          exact hk (Option.some.inj hof)
        rw [if_neg hk]
        simp only [if_neg hne]
  · have hne : ¬ (k ∈ assignableRoles ∧ k.toInt = role) := by
      rintro ⟨hmem, heq⟩
      exact hrole (heq ▸ toInt_ge_trusted_iff.mpr hmem)
    rw [if_neg hrole, OrderedMap.get?_mapValues]
    simp only [if_neg hne]

/-- **The account is in the set asked for and in no other.** -/
theorem inRole_assignRole (h : r.WellFormed) (k : Role) :
    (r.assignRole id role).inRole id k = decide (k ∈ assignableRoles ∧ k.toInt = role) := by
  rw [inRole, get?_assignRole]
  cases hset : r.userRoles.get? k with
  | none =>
    have hnot : k ∉ assignableRoles := by
      rw [← h.roles k, hset]
      exact Bool.false_ne_true
    have hfalse : ¬ (k ∈ assignableRoles ∧ k.toInt = role) := fun hk => hnot hk.1
    rw [decide_eq_false hfalse]
    rfl
  | some set =>
    have hmem : k ∈ assignableRoles := by
      rw [← h.roles k, hset]
      rfl
    by_cases heq : k.toInt = role
    · simp [hmem, heq]
    · simp [hmem, heq]

/-- Other accounts stay where they are. -/
theorem inRole_assignRole_of_ne {id' : UserId} (hne : id' ≠ id) (k : Role) :
    (r.assignRole id role).inRole id' k = r.inRole id' k := by
  rw [inRole, inRole, get?_assignRole]
  cases r.userRoles.get? k with
  | none => rfl
  | some set =>
    simp only [Option.map_some, Option.any_some]
    split_ifs <;> simp [hne]

theorem roleOfAccount_eq (r : Room) (id : UserId) :
    r.roleOfAccount id = assignableRoles.find? (r.inRole id) := rfl

/-- The role that the account has by itself afterwards. -/
theorem roleOfAccount_assignRole (h : r.WellFormed) :
    (r.assignRole id role).roleOfAccount id =
      assignableRoles.find? (fun k => k.toInt = role) := by
  rw [roleOfAccount_eq]
  refine List.find?_congr (fun k hk => ?_)
  rw [inRole_assignRole h]
  simp [hk]

theorem roleOfAccount_assignRole_of_ne {id' : UserId} (hne : id' ≠ id) :
    (r.assignRole id role).roleOfAccount id' = r.roleOfAccount id' := by
  rw [roleOfAccount_eq, roleOfAccount_eq]
  exact List.find?_congr (fun k _ => inRole_assignRole_of_ne hne k)

/-- An account is only in sets that there are. -/
theorem mem_of_inRole (h : r.WellFormed) {k : Role} (hin : r.inRole id k = true) :
    k ∈ assignableRoles := by
  rw [← h.roles k]
  unfold inRole at hin
  cases hset : r.userRoles.get? k with
  | none =>
    rw [hset] at hin
    cases hin
  | some set => rfl

/-- Whether anything changes can be seen before. -/
theorem changes_iff (h : r.WellFormed) :
    (∃ k, (r.assignRole id role).inRole id k ≠ r.inRole id k) ↔
      ∃ k ∈ assignableRoles, r.inRole id k ≠ decide (k.toInt = role) := by
  constructor
  · rintro ⟨k, hk⟩
    rw [inRole_assignRole h] at hk
    by_cases hmem : k ∈ assignableRoles
    · exact ⟨k, hmem, fun heq => hk (by simp [heq, hmem])⟩
    · have hout : r.inRole id k = false := by
        by_contra hin
        exact hmem (mem_of_inRole h (Bool.not_eq_false _ ▸ hin))
      exact absurd (by simp [hmem, hout]) hk
  · rintro ⟨k, hmem, hk⟩
    refine ⟨k, fun heq => hk ?_⟩
    rw [← heq, inRole_assignRole h]
    simp [hmem]

end Roles

/-! ## The numbers of roles -/

section Numbers

theorem mem_of_demotePermission {k : Role} {permission : PermissionName}
    (h : demotePermission k = some permission) : k ∈ assignableRoles := by
  cases k <;> first
    | decide
    | cases h

/-- A number above all roles asks for no permission. -/
theorem promotePermission_of_gt {role : Int} (h : Role.administrator.toInt < role) :
    promotePermission role = none := by
  unfold promotePermission
  cases hof : Role.ofInt? role with
  | none => rfl
  | some k =>
    have hk := Role.toInt_of_ofInt? hof
    cases k <;> simp [Role.toInt] at hk h <;> omega

/-- A number that is none of the three kept roles is below them or above them. -/
theorem lt_or_gt_of_not_assignable {role : Int}
    (h : ∀ k ∈ assignableRoles, k.toInt ≠ role) {k : Role} (hk : k ∈ assignableRoles) :
    role < k.toInt ∨ Role.administrator.toInt < role := by
  have htrusted : (2 : Int) ≠ role := h .trustedUser (by decide)
  have hmoderator : (3 : Int) ≠ role := h .moderator (by decide)
  have hadministrator : (4 : Int) ≠ role := h .administrator (by decide)
  have hle : (2 : Int) ≤ k.toInt := toInt_ge_trusted_iff.mpr hk
  show role < k.toInt ∨ (4 : Int) < role
  omega

end Numbers

/-! ## When a promotion is authorized -/

section Authorized

variable {r : Room} {target : RoomUser} {id : UserId} {role : Int} {actor : Role}

/-- The condition. For a user whose account is the one the room knows it by: a number above all
roles is only sent by an actor who may take the target's role away. For one whose account could not
be looked up, and who is taken for another: a promotion that passes the checks and changes anything
is made by an actor who may give the role that the room takes the target to have. -/
def Checked (r : Room) (targetClientId : ClientId) (role : Int) (actor : Role) : Prop :=
  ∀ target id user, r.getUser targetClientId = some target → target.userId = some id →
    target.user = some user →
      (user.id = id → Role.administrator.toInt < role →
        ∀ permission, demotePermission (r.getRole target) = some permission →
          r.grants.granted actor permission = true) ∧
      (user.id ≠ id → r.Passes target role actor →
        (∃ k ∈ assignableRoles, r.inRole id k ≠ decide (k.toInt = role)) →
          ∀ permission, promotePermission (r.getRole target).toInt = some permission →
            r.grants.granted actor permission = true)

theorem getRole_owner (howner : r.isOwner target = true) : r.getRole target = .owner := by
  rw [getRole, if_pos howner]

/-- The role of a user who is not the owner is that of the account it is known by. -/
theorem getRole_of_user {user : User} (huser : target.user = some user)
    (howner : r.isOwner target = false) : r.getRole target =
      (r.roleOfAccount user.id).getD
        (if target.isLoggedIn then .registeredUser else .unregisteredUser) := by
  rw [getRole, howner, if_neg Bool.false_ne_true, huser, Option.bind_some]
  cases r.roleOfAccount user.id <;> rfl

/-- A user without an account has none of the kept roles. -/
theorem getRole_of_no_user (huser : target.user = none) :
    r.getRole target = if target.isLoggedIn then .registeredUser else .unregisteredUser := by
  have howner : r.isOwner target = false := by
    rw [isOwner, huser]
  rw [getRole, howner, if_neg Bool.false_ne_true, huser]
  rfl

/-- Without a change of its role, a user only needs to have been promotable to it. -/
theorem authorizedChange_iff_of_same (h : r.WellFormed)
    (hsame : (r.assignRole id role).getRole target = r.getRole target) :
    r.AuthorizedChange (r.assignRole id role) target id actor ↔
      ((∃ k ∈ assignableRoles, r.inRole id k ≠ decide (k.toInt = role)) →
        ∀ permission, promotePermission (r.getRole target).toInt = some permission →
          r.grants.granted actor permission = true) := by
  unfold AuthorizedChange
  rw [changes_iff h, hsame]
  constructor
  · exact fun hauthorized hchange => (hauthorized hchange).1
  · exact fun hpromote hchange => ⟨hpromote hchange, fun hlt => absurd hlt (lt_irrefl _)⟩

/-- A number above all roles is only refused if the target has no role to lose. -/
theorem demotable_of_not_passes {user : User} (h : ¬ r.Passes target role actor) :
    user.id = id → Role.administrator.toInt < role →
      ∀ permission, demotePermission (r.getRole target) = some permission →
        r.grants.granted actor permission = true := by
  intro _ hgt permission hdemote
  refine absurd (Passes.mk (fun p hp => ?_) (fun hlt => ?_) (fun hun => ?_)) h
  · rw [promotePermission_of_gt hgt] at hp
    cases hp
  · have hle : (r.getRole target).toInt ≤ Role.administrator.toInt := by
      cases r.getRole target <;> decide
    omega
  · rw [hun] at hdemote
    cases hdemote

/-- A role that no account is given. -/
def baseRole (u : RoomUser) : Role := if u.isLoggedIn then .registeredUser else .unregisteredUser

theorem promotePermission_baseRole (u : RoomUser) : promotePermission (baseRole u).toInt = none := by
  unfold baseRole
  split <;> rfl

theorem baseRole_lt (u : RoomUser) {k : Role} (hk : k ∈ assignableRoles) :
    (baseRole u).toInt < k.toInt := by
  have hle : (2 : Int) ≤ k.toInt := toInt_ge_trusted_iff.mpr hk
  unfold baseRole
  split
  · exact lt_of_lt_of_le (by decide) hle
  · exact lt_of_lt_of_le (by decide) hle

/-- The user is known by the account it was given: the role changes as the sets do. -/
theorem authorizedChange_assignRole_iff (h : r.WellFormed)
    (hcurrent : r.getRole target = (r.roleOfAccount id).getD (baseRole target))
    (hafter : (r.assignRole id role).getRole target =
      ((r.assignRole id role).roleOfAccount id).getD (baseRole target))
    (hpasses : r.Passes target role actor) :
    r.AuthorizedChange (r.assignRole id role) target id actor ↔
      (Role.administrator.toInt < role →
        ∀ permission, demotePermission (r.getRole target) = some permission →
          r.grants.granted actor permission = true) := by
  rw [roleOfAccount_assignRole h] at hafter
  have hdemote : role < (r.getRole target).toInt →
      ∀ permission, demotePermission (r.getRole target) = some permission →
        r.grants.granted actor permission = true := by
    intro hlt permission hsome
    obtain ⟨p, hp, hgranted⟩ := hpasses.demote hlt
    rw [hsome] at hp
    exact Option.some.inj hp ▸ hgranted
  cases hfind : assignableRoles.find? (fun k => k.toInt = role) with
  | some k =>
    -- the role asked for is the one the user has afterwards
    rw [hfind, Option.getD_some] at hafter
    have hk : k.toInt = role := by simpa using List.find?_some hfind
    have hle : role ≤ Role.administrator.toInt := by
      rw [← hk]
      cases k <;> decide
    refine iff_of_true (fun _ => ?_) (fun hgt => absurd hgt (not_lt.mpr hle))
    rw [hafter, hk]
    exact ⟨fun permission hp => hpasses.promote permission (by simp [hp]), hdemote⟩
  | none =>
    -- the user loses what it has
    rw [hfind, Option.getD_none] at hafter
    have hnone : ∀ k ∈ assignableRoles, k.toInt ≠ role := by
      intro k hk
      simpa using List.find?_eq_none.mp hfind k hk
    constructor
    · intro hauthorized hgt permission hsome
      have hmem := mem_of_demotePermission hsome
      have hin : r.inRole id (r.getRole target) = true := by
        rw [roleOfAccount_eq] at hcurrent
        cases hrole : assignableRoles.find? (r.inRole id) with
        | some k =>
          rw [hrole, Option.getD_some] at hcurrent
          rw [hcurrent]
          exact List.find?_some hrole
        | none =>
          rw [hrole, Option.getD_none] at hcurrent
          rw [hcurrent] at hmem
          exact absurd (baseRole_lt target hmem) (lt_irrefl _)
      refine (hauthorized ((changes_iff h).mpr ⟨_, hmem, ?_⟩)).2 ?_ permission hsome
      · rw [hin, decide_eq_false (hnone _ hmem)]
        exact Bool.noConfusion
      · rw [hafter]
        exact baseRole_lt target hmem
    · intro hchecked _
      rw [hafter]
      refine ⟨fun permission hp => ?_, fun _ permission hsome => ?_⟩
      · rw [promotePermission_baseRole] at hp
        cases hp
      · obtain hlt | hgt := lt_or_gt_of_not_assignable hnone (mem_of_demotePermission hsome)
        · exact hdemote hlt permission hsome
        · exact hchecked hgt permission hsome

/-- What a promotion that passes the checks does, by the account the room knows the user by. -/
theorem authorizedChange_iff_of_passes (h : r.WellFormed) (hpasses : r.Passes target role actor) :
    r.AuthorizedChange (r.assignRole id role) target id actor ↔
      ∀ user, target.user = some user →
        (user.id = id → Role.administrator.toInt < role →
          ∀ permission, demotePermission (r.getRole target) = some permission →
            r.grants.granted actor permission = true) ∧
        (user.id ≠ id → (∃ k ∈ assignableRoles, r.inRole id k ≠ decide (k.toInt = role)) →
          ∀ permission, promotePermission (r.getRole target).toInt = some permission →
            r.grants.granted actor permission = true) := by
  cases huser : target.user with
  | none =>
    have hsame : (r.assignRole id role).getRole target = r.getRole target := by
      rw [getRole_of_no_user huser, getRole_of_no_user huser]
    rw [authorizedChange_iff_of_same h hsame, getRole_of_no_user huser]
    refine iff_of_true (fun _ permission hp => ?_) (fun user hsome => by cases hsome)
    rw [← baseRole, promotePermission_baseRole] at hp
    cases hp
  | some user =>
    have hone : ∀ P : User → Prop, (∀ u, some user = some u → P u) ↔ P user :=
      fun P => ⟨fun hall => hall user rfl, fun hp u hu => Option.some.inj hu ▸ hp⟩
    rw [hone]
    cases howner : r.isOwner target with
    | true =>
      have hcurrent := getRole_owner howner
      have hsame : (r.assignRole id role).getRole target = r.getRole target :=
        (getRole_owner (r := r.assignRole id role) howner).trans hcurrent.symm
      rw [authorizedChange_iff_of_same h hsame, hcurrent]
      refine iff_of_true (fun _ permission hp => ?_) ⟨fun _ _ permission hp => ?_,
        fun _ _ permission hp => ?_⟩
      · cases hp
      · cases hp
      · cases hp
    | false =>
      have hcurrent := getRole_of_user huser howner
      have hafter := getRole_of_user (r := r.assignRole id role) huser howner
      by_cases hid : user.id = id
      · subst hid
        rw [authorizedChange_assignRole_iff h hcurrent hafter hpasses]
        exact ⟨fun hchecked => ⟨fun _ => hchecked, fun hne => absurd rfl hne⟩,
          fun hchecked => hchecked.1 rfl⟩
      · have hsame : (r.assignRole id role).getRole target = r.getRole target := by
          rw [hafter, hcurrent, roleOfAccount_assignRole_of_ne hid]
        rw [authorizedChange_iff_of_same h hsame]
        exact ⟨fun hpromote => ⟨fun heq => absurd heq hid, fun _ => hpromote⟩,
          fun hchecked => hchecked.2 hid⟩

end Authorized

/-! ## Whose role a promotion leaves -/

section Kept

variable {r : Room} {u : RoomUser}

theorem baseRole_ne {k : Role} (hk : k ∈ assignableRoles) : baseRole u ≠ k := by
  intro heq
  exact absurd (baseRole_lt u hk) (heq ▸ lt_irrefl _)

/-- The role can be read off the role of the account, if it has one of the kept roles. -/
theorem getD_baseRole_inj {o o' : Option Role} (ho : ∀ k ∈ o, k ∈ assignableRoles)
    (ho' : ∀ k ∈ o', k ∈ assignableRoles) :
    o.getD (baseRole u) = o'.getD (baseRole u) ↔ o = o' := by
  constructor
  · intro heq
    cases o with
    | none =>
      cases o' with
      | none => rfl
      | some k' => exact absurd heq (baseRole_ne (ho' k' rfl))
    | some k =>
      cases o' with
      | none => exact absurd heq.symm (baseRole_ne (ho k rfl))
      | some k' => exact congrArg some heq
  · exact congrArg (fun o : Option Role => o.getD (baseRole u))

theorem mem_of_find?_assignable {p : Role → Bool} :
    ∀ k ∈ assignableRoles.find? p, k ∈ assignableRoles :=
  fun _ hk => List.mem_of_find?_eq_some hk

theorem mem_of_roleOfAccount {id : UserId} : ∀ k ∈ r.roleOfAccount id, k ∈ assignableRoles :=
  mem_of_find?_assignable

/-- **Whose role a promotion leaves**: that of everybody with another account, of the owner, and of
an account that has the role. -/
theorem getRole_assignRole_iff (h : r.WellFormed) (id : UserId) (role : Int) :
    (r.assignRole id role).getRole u = r.getRole u ↔
      (u.user.map (·.id) = some id → r.isOwner u = true ∨
        r.roleOfAccount id = assignableRoles.find? (fun k => k.toInt = role)) := by
  cases huser : u.user with
  | none =>
    rw [getRole_of_no_user huser, getRole_of_no_user huser]
    exact iff_of_true rfl (fun hnone => by cases hnone)
  | some user =>
    cases howner : r.isOwner u with
    | true =>
      rw [getRole_owner howner, getRole_owner (r := r.assignRole id role) howner]
      exact iff_of_true rfl (fun _ => .inl rfl)
    | false =>
      rw [getRole_of_user huser howner, getRole_of_user (r := r.assignRole id role) huser howner]
      by_cases hid : user.id = id
      · rw [hid, roleOfAccount_assignRole h, ← baseRole,
          getD_baseRole_inj mem_of_find?_assignable mem_of_roleOfAccount]
        constructor
        · exact fun heq _ => .inr heq.symm
        · intro hrole
          exact ((hrole (congrArg some hid)).resolve_left Bool.false_ne_true).symm
      · rw [roleOfAccount_assignRole_of_ne hid]
        exact iff_of_true rfl (fun heq => absurd (Option.some.inj heq) hid)

theorem getRole_ne_owner (h : r.isOwner u = false) : r.getRole u ≠ .owner := by
  have hbase : baseRole u ≠ .owner := by
    unfold baseRole
    split <;> decide
  cases huser : u.user with
  | none =>
    rw [getRole_of_no_user huser]
    exact hbase
  | some user =>
    rw [getRole_of_user huser h]
    cases hrole : r.roleOfAccount user.id with
    | none => exact hbase
    | some k =>
      have hk := mem_of_roleOfAccount k hrole
      rintro rfl
      revert hk
      decide

end Kept

/-- **Exactly when promotions are authorized.** -/
theorem authorized_iff {r : Room} (h : r.Reachable) (targetClientId : ClientId) (role : Int)
    (context : RoomRequestContext) :
    r.Authorized targetClientId role context ↔ r.Checked targetClientId role context.role := by
  unfold Authorized Checked
  refine forall_congr' (fun target => forall_congr' (fun id => ?_))
  have hcase : r.getUser targetClientId = some target → target.userId = some id →
      (r.AuthorizedChange ((promoteUser targetClientId role context).run r).state target id
          context.role ↔
        ∀ user, target.user = some user →
          (user.id = id → Role.administrator.toInt < role →
            ∀ permission, demotePermission (r.getRole target) = some permission →
              r.grants.granted context.role permission = true) ∧
          (user.id ≠ id → r.Passes target role context.role →
            (∃ k ∈ assignableRoles, r.inRole id k ≠ decide (k.toInt = role)) →
              ∀ permission, promotePermission (r.getRole target).toInt = some permission →
                r.grants.granted context.role permission = true)) := by
    intro htarget hid
    by_cases hpasses : r.Passes target role context.role
    · have hpromoted : promoted target role r = r.assignRole id role := by
        rw [promoted, hid]
      rw [run_promoteUser_of_passes htarget hpasses, hpromoted,
        authorizedChange_iff_of_passes h.wellFormed hpasses]
      exact forall_congr' (fun user => imp_congr_right (fun _ => and_congr_right (fun _ =>
        imp_congr_right (fun _ => ⟨fun hp _ => hp, fun hp => hp hpasses⟩))))
    · obtain ⟨e, hrun⟩ := run_promoteUser_of_not_passes htarget hpasses
      rw [hrun]
      refine iff_of_true (fun hchange => absurd rfl hchange.choose_spec) (fun user _ => ?_)
      exact ⟨demotable_of_not_passes hpasses, fun _ hp => absurd hp hpasses⟩
  constructor
  · exact fun hauthorized user htarget hid => (hcase htarget hid).mp (hauthorized htarget hid) user
  · exact fun hchecked htarget hid =>
      (hcase htarget hid).mpr (fun user => hchecked user htarget hid)

/-- The row of a room that account 7 moderates. -/
def moderatedRow : DbRoom where
  name := "foo"
  title := ""
  description := ""
  visibility := .Public
  queueMode := .manual
  ownerId := none
  permissions := .entries []
  roleTrusted := []
  roleMod := [7]
  roleAdmin := []
  autoSkipSegmentCategories := []
  prevQueue := none
  restoreQueueBehavior := .never
  enableVoteSkip := false

/-- The world in which account 7 is bob's and is logged in. -/
def bobExists : Env :=
  { emptyEnv 0 with
    username := fun id => if id = 7 then some "bob" else none
    session := fun _ => some (.loggedIn 7) }

/-- The room after its moderator has joined it. -/
def moderated : Room :=
  ((processUnauthorizedRequest bobExists (.join ⟨"bob's client", none, some 7, none⟩)
    ⟨"bob's token", some "bob's client"⟩).run (construct (dbToRoomArgs (fun _ => none) moderatedRow)
      0)).state

theorem moderated_reachable : moderated.Reachable := .requested (.loaded _ _ _) _ _ _

/-- Somebody with an account, and without any permissions to promote or to demote. -/
def registeredContext : RoomRequestContext := ⟨"eve", .registeredUser, some "eve's client", none⟩

/-- Asking for the moderator to become a trusted user is refused. -/
theorem authorized_iff_moderated :
    moderated.Authorized "bob's client" 2 registeredContext := by
  refine (authorized_iff moderated_reachable "bob's client" 2 registeredContext).mpr ?_
  intro target id user htarget hid huser
  have hknown : (moderated.getUser "bob's client").map (fun u => (u.userId, u.user.map (·.id))) =
      some (some 7, some 7) := by
    decide +kernel
  rw [htarget, Option.map_some, hid, huser, Option.map_some, Option.some.injEq, Prod.mk.injEq,
    Option.some.injEq, Option.some.injEq] at hknown
  exact ⟨fun _ hgt => absurd hgt (by decide), fun hne => absurd (hknown.2.trans hknown.1.symm) hne⟩

/-- **Anybody can take a moderator's role away**, by asking for the role 5. -/
theorem not_authorized :
    ¬ ∀ (r : Room), r.Reachable → ∀ (targetClientId : ClientId) (role : Int)
      (context : RoomRequestContext), r.Authorized targetClientId role context := by
  intro h
  have hrun : (moderated.getUser "bob's client").any (fun u => u.userId = some 7 ∧
      moderated.getRole u = .moderator ∧
      (((promoteUser "bob's client" 5 registeredContext).run moderated).state.getRole u) =
        .registeredUser ∧
      moderated.inRole 7 .moderator = true ∧
      ((promoteUser "bob's client" 5 registeredContext).run moderated).state.inRole 7 .moderator =
        false ∧
      moderated.grants.granted .registeredUser "manage-users.demote-moderator" = false) = true := by
    decide +kernel
  obtain ⟨target, htarget, hrun⟩ := (Option.any_eq_true _ _).mp hrun
  obtain ⟨hid, hbefore, hafter, hin, hout, hdenied⟩ := of_decide_eq_true hrun
  have hdemote := (h moderated moderated_reachable "bob's client" 5 registeredContext target 7 htarget
    hid ⟨.moderator, by rw [hin, hout]; exact Bool.noConfusion⟩).2
  rw [hbefore, hafter] at hdemote
  have hgranted := hdemote (by decide) "manage-users.demote-moderator" rfl
  rw [registeredContext, hdenied] at hgranted
  cases hgranted

end OpenTogetherTube.Server.Room
