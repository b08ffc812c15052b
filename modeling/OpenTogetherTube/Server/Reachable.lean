import OpenTogetherTube.Server.Storage

/-!
# The rooms there can be

A room is created, or loaded from its row, or brought back from redis; then it processes requests
and is updated, is claimed by an owner, and has its marks cleaned when it has been synced. The
requests are those of clients, which are authorized by a token, and those that the server makes for
a client.

Whatever it goes through, its grants are normal and its roles are the three that accounts can be
given: `WellFormed`.
-/

namespace OpenTogetherTube.Server.Room

open OpenTogetherTube.Common OpenTogetherTube.Lib

/-- The rooms that the server can come to have. -/
inductive Reachable : Room → Prop where
  | created (options : RoomOptions) (now : Time) (hgrants : options.grants = none)
      (hroles : options.userRoles = none) : Reachable (construct options now)
  | loaded (users : UserId → Option User) (row : DbRoom) (now : Time) :
      Reachable (construct (dbToRoomArgs users row) now)
  | revived {r : Room} (h : Reachable r) (now : Time) :
      Reachable (construct (redisStateToState r.serializeState) now)
  | requested {r : Room} (h : Reachable r) (env : Env) (request : RoomRequest)
      (authorization : RoomRequestAuthorization) :
      Reachable ((processUnauthorizedRequest env request authorization).run r).state
  | trusted {r : Room} (h : Reachable r) (env : Env) (request : RoomRequest) (client : ClientId) :
      Reachable ((processRequestUnsafe env request client).run r).state
  | updated {r : Room} (h : Reachable r) (env : Env) : Reachable ((update env).run r).state
  | claimed {r : Room} (h : Reachable r) (user : User) : Reachable (r.setOwner (some user))
  | synced {r : Room} (h : Reachable r) : Reachable { r with dirty := ∅ }

/-- What every room has. -/
structure WellFormed (r : Room) : Prop where
  grants : r.grants.Normal
  roles : ∀ role, (r.userRoles.get? role).isSome ↔ role ∈ assignableRoles

/-- A room stays well-formed. -/
def KeepsForm (r r' : Room) : Prop := r.WellFormed → r'.WellFormed

instance : IsPreorder Room KeepsForm where
  refl _ h := h
  trans _ _ _ h h' hr := h' (h hr)

theorem WellFormed.congr {r r' : Room} (h : r.WellFormed) (hgrants : r'.grants = r.grants)
    (hroles : r'.userRoles = r.userRoles) : r'.WellFormed :=
  ⟨hgrants ▸ h.grants, hroles ▸ h.roles⟩

theorem WellFormed.of_standing {r r' : Room} (h : r.WellFormed) (hsame : r'.standing = r.standing) :
    r'.WellFormed :=
  h.congr (congrArg Standing.grants hsame) (congrArg Standing.userRoles hsame)

/-! ## Construction -/

theorem assign_same {α β : Type} {f : Room → β} {set : Room → α → Room}
    (h : ∀ r value, f (set r value) = f r) (value : Option α) (r : Room) :
    f (r.assign value set) = f r := by
  cases value with
  | none => rfl
  | some value => exact h r value

/-- The part of a room that `WellFormed` is about. -/
def privileges (r : Room) : Grants × OrderedMap Role (OrderedSet UserId) := (r.grants, r.userRoles)

theorem setPrevQueue_privileges (r : Room) (value : Option (List QueueItem)) :
    (r.setPrevQueue value).privileges = r.privileges :=
  congrArg (fun s : Standing => (s.grants, s.userRoles)) (setPrevQueue_standing r value)

/-- Grants and roles are not among the options that are assigned. -/
theorem assignOptions_privileges (options : RoomOptions) (r : Room) :
    (r.assignOptions options).privileges = r.privileges := by
  unfold assignOptions
  dsimp only
  iterate 2 refine (assign_same (f := privileges) (by exact fun _ _ => rfl) _ _).trans ?_
  refine (assign_same (f := privileges) setPrevQueue_privileges _ _).trans ?_
  iterate 13 refine (assign_same (f := privileges) (by exact fun _ _ => rfl) _ _).trans ?_
  rfl

theorem restored_privileges (r : Room) : r.restored.privileges = r.privileges := by
  obtain ⟨-, h⟩ | ⟨-, -, items, -, h⟩ | ⟨-, -, h⟩ := r.restored_cases
  · rw [h, setPrevQueue_privileges]
  · rw [h, setPrevQueue_privileges]
    rfl
  · rw [h]

theorem construct_privileges (options : RoomOptions) (now : Time) :
    (construct options now).privileges =
      (grantsFrom Grants.new options.grants,
        userRolesFrom (blank now).userRoles options.userRoles) := by
  have h : ((blank now).assignOptions options).restored.privileges = (blank now).privileges := by
    rw [restored_privileges, assignOptions_privileges]
  obtain ⟨hgrants, hroles⟩ := Prod.mk.inj h
  rw [construct_eq, privileges]
  show (grantsFrom _ _, userRolesFrom _ _) = _
  rw [hgrants, hroles]
  rfl

theorem wellFormed_of_privileges {r : Room} {grants : Grants}
    {userRoles : OrderedMap Role (OrderedSet UserId)} (h : r.privileges = (grants, userRoles))
    (hgrants : grants.Normal)
    (hroles : ∀ role, (userRoles.get? role).isSome ↔ role ∈ assignableRoles) : r.WellFormed := by
  obtain ⟨hg, hr⟩ := Prod.mk.inj h
  exact ⟨hg ▸ hgrants, hr ▸ hroles⟩

theorem dbUserRoles_roles (row : DbRoom) (role : Role) :
    ((dbUserRoles row).get? role).isSome ↔ role ∈ assignableRoles := by
  have hempty : (OrderedMap.empty : OrderedMap Role (OrderedSet UserId)) = ∅ := rfl
  rw [dbUserRoles, hempty]
  cases role <;> simp [assignableRoles]

theorem blank_roles (now : Time) (role : Role) :
    ((blank now).userRoles.get? role).isSome ↔ role ∈ assignableRoles := by
  show ((blank 0).userRoles.get? role).isSome ↔ _
  cases role <;> decide

/-- The roles that were stored are the roles that come back. -/
theorem redisUserRoles (r : Room) :
    OrderedMap.ofList (r.serializeState.userRoles.map (fun e => (e.1, OrderedSet.ofList e.2))) =
      r.userRoles := by
  have hentries : r.serializeState.userRoles.map (fun e => (e.1, OrderedSet.ofList e.2)) =
      r.userRoles.entries := by
    rw [serializeState, List.map_map]
    conv_rhs => rw [← List.map_id r.userRoles.entries]
    refine List.map_congr_left (fun e _ => ?_)
    show (e.1, OrderedSet.ofList e.2.toList) = e
    rw [OrderedSet.ofList_toList]
  rw [hentries, OrderedMap.ofList_entries]

/-! ## Requests and updates -/

theorem chosen_of_rolePermission {role : Role} (h : (rolePermission role).isSome) :
    Grants.Chosen role := by
  cases role <;> first
    | exact ⟨by decide, by decide⟩
    | cases h

theorem applySettings_keepsForm (settings : RoomSettingsPatch) (context : RoomRequestContext) :
    (applySettings settings context).Keeps KeepsForm := by
  refine applySettings_keeps (R := KeepsForm) (fun r setting h => ?_) (fun r mask hmask h => ?_)
    (fun r h => h.congr rfl rfl) settings context
  · cases setting <;> exact h.congr rfl rfl
  · -- only masks of roles below the administrators are set
    have hchosen := chosen_of_rolePermission hmask
    exact ⟨h.grants.setRoleGrants hchosen.1 hchosen.2 mask.2, h.roles⟩

theorem promoted_keepsForm (target : RoomUser) (role : Int) (r : Room) :
    KeepsForm r (promoted target role r) := by
  intro h
  unfold promoted
  cases target.userId with
  | none => exact h
  | some userId =>
    refine ⟨h.grants, fun role' => ?_⟩
    rw [← h.roles role']
    show ((assignRole r userId role).userRoles.get? role').isSome ↔ _
    unfold assignRole
    dsimp only
    split
    · split
      · rw [OrderedMap.get?_adjust, OrderedMap.get?_mapValues]
        split <;> simp
      · rw [OrderedMap.get?_mapValues, Option.isSome_map]
    · rw [OrderedMap.get?_mapValues, Option.isSome_map]

/-- **Requests keep a room well-formed.** -/
theorem processRequest_keepsForm (env : Env) (request : RoomRequest) (context : RoomRequestContext) :
    (processRequest env request context).Keeps KeepsForm := by
  have hstanding : changesStanding request = false →
      (processRequest env request context).Keeps KeepsForm :=
    fun hs r h => h.of_standing (processRequest_standing hs env context r)
  cases request with
  | join info =>
    exact mediated_keeps (joinRoom_keeps (R := KeepsForm) (fun r u h => h.congr rfl rfl) env info
      context)
  | leave =>
    refine mediated_keeps (leaveRoom_keeps (R := KeepsForm) (fun r value h => h.congr rfl rfl) ?_
      (fun r client h => h.congr rfl rfl) context)
    exact dropVotes_keeps (R := KeepsForm) (fun r votes h => h.congr rfl rfl)
      (fun r h => h.congr rfl rfl)
  | promote target role => exact mediated_keeps (promoteUser_keeps promoted_keepsForm target role context)
  | updateUser info =>
    exact mediated_keeps (updateUser_keeps (R := KeepsForm) (fun r us h => h.congr rfl rfl) env info)
  | applySettings settings => exact mediated_keeps (applySettings_keepsForm settings context)
  | _ => exact hstanding rfl

/-- What `processRequest` keeps, whoever asks, is kept for clients with a token. -/
theorem processUnauthorizedRequest_keeps {R : Room → Room → Prop} [IsPreorder Room R] {env : Env}
    {request : RoomRequest} (h : ∀ context, (processRequest env request context).Keeps R)
    (authorization : RoomRequestAuthorization) :
    (processUnauthorizedRequest env request authorization).Keeps R :=
  .bind .get (fun _ => .bind (.liftExcept _) (fun context => h context))

theorem processRequestUnsafe_keeps {R : Room → Room → Prop} [IsPreorder Room R] {env : Env}
    {request : RoomRequest} (h : ∀ context, (processRequest env request context).Keeps R)
    (client : ClientId) : (processRequestUnsafe env request client).Keeps R :=
  .bind .get (fun _ => .bind (.liftExcept _) (fun _ => h _))

/-- **Every room is well-formed.** -/
theorem Reachable.wellFormed {r : Room} (h : Reachable r) : r.WellFormed := by
  induction h with
  | created options now hgrants hroles =>
    refine wellFormed_of_privileges (construct_privileges options now) ?_ ?_
    · rw [hgrants]
      exact Grants.normal_new
    · rw [hroles]
      exact blank_roles now
  | loaded users row now =>
    exact wellFormed_of_privileges (construct_privileges _ now) row.permissions.normal
      (dbUserRoles_roles row)
  | @revived r h now ih =>
    refine wellFormed_of_privileges (construct_privileges _ now) (Grants.normal_ofMasks _) ?_
    show ∀ role, ((OrderedMap.ofList _).get? role).isSome ↔ _
    rw [redisUserRoles]
    exact ih.roles
  | requested h env request authorization ih =>
    exact processUnauthorizedRequest_keeps (processRequest_keepsForm env request) authorization _ ih
  | trusted h env request client ih =>
    exact processRequestUnsafe_keeps (processRequest_keepsForm env request) client _ ih
  | @updated r h env ih => exact ih.of_standing (update_standing env r)
  | claimed h user ih => exact ih.congr rfl rfl
  | synced h ih => exact ih.congr rfl rfl

end OpenTogetherTube.Server.Room
