import OpenTogetherTube.Client.UserStore
import OpenTogetherTube.Lib.Removal
import OpenTogetherTube.Server.ClientManager
import OpenTogetherTube.Server.Promotion
import OpenTogetherTube.Server.UserMessages

/-!
# The user list of a client follows the room

The role of a user is that of its account, and an account may be connected several times. But what
changes a role tells the clients about one connection only: a promotion about the one it names, and
whoever claims the room is shown as its owner on the first connection of the account.

A `State` is a room and the users that one of its clients has. `converged_throughout_iff` says that
a client which was sent all users once has those of the room ever after exactly in the runs whose
steps are all `Told`. The other steps that are not tell nobody about a user that has changed: a join
or an update that fails when it is half done, and a client that asks to leave instead of going.
-/

namespace OpenTogetherTube.Server.Room

open OpenTogetherTube.Common OpenTogetherTube.Lib ClientManager

/-! ## What the list of users is made from -/

section Roster

variable {r r' : Room} {u v : RoomUser}

/-- Whose roles there are, and what gives them. -/
def roster (r : Room) : List RoomUser × Option User × OrderedMap Role (OrderedSet UserId) :=
  (r.realusers, r.owner, r.userRoles)

theorem getRole_congr (howner : r'.owner = r.owner) (hroles : r'.userRoles = r.userRoles)
    (u : RoomUser) : r'.getRole u = r.getRole u := by
  unfold getRole isOwner roleOfAccount
  rw [howner, hroles]

theorem userInfo_eq_iff : r'.userInfo u = r.userInfo u ↔ r'.getRole u = r.getRole u := by
  unfold userInfo
  simp

theorem users_congr (h : r'.roster = r.roster) : r'.users = r.users := by
  simp only [roster, Prod.mk.injEq] at h
  obtain ⟨hrealusers, howner, hroles⟩ := h
  unfold users
  rw [hrealusers]
  refine List.map_congr_left (fun u _ => ?_)
  rw [userInfo_eq_iff]
  exact getRole_congr howner hroles u

theorem users_ids (r : Room) : r.users.map (·.id) = ids r := by
  unfold users
  rw [List.map_map]
  rfl

theorem userInfo_mem (hu : u ∈ r.realusers) : r.userInfo u ∈ r.users := List.mem_map_of_mem hu

theorem eq_of_id (h : (ids r).Nodup) (hu : u ∈ r.realusers) (hv : v ∈ r.realusers)
    (hid : u.id = v.id) : u = v :=
  List.inj_on_of_nodup_map h hu hv hid

/-- A user of the room is in the list with the role it has there, and as nobody else. -/
theorem userInfo_mem_iff (h : (ids r).Nodup) (hu : u ∈ r.realusers) :
    r'.userInfo u ∈ r.users ↔ r'.getRole u = r.getRole u := by
  rw [← userInfo_eq_iff]
  constructor
  · intro hmem
    obtain ⟨v, hv, heq⟩ := List.mem_map.mp hmem
    have hid : v.id = u.id := congrArg RoomUserInfo.id heq
    rw [← heq, eq_of_id h hv hu hid]
  · intro heq
    rw [heq]
    exact userInfo_mem hu

theorem getUser_of_mem (h : (ids r).Nodup) (hu : u ∈ r.realusers) : r.getUser u.id = some u := by
  cases hfind : r.getUser u.id with
  | none => exact absurd (List.find?_eq_none.mp hfind u hu) (by simp)
  | some v =>
    have hid : v.id = u.id := by simpa using List.find?_some hfind
    rw [eq_of_id h (List.mem_of_find?_eq_some hfind) hu hid]

end Roster

/-! ## Joins, leaves and updates -/

section Requests

variable {r : Room} {info : ClientInfo}

theorem addUser_users (r : Room) (u : RoomUser) :
    (r.addUser u).users = r.users ++ [r.userInfo u] := by
  show (r.realusers ++ [u]).map r.userInfo = _
  rw [List.map_append, List.map_singleton]
  rfl

theorem addUser_ids (r : Room) (u : RoomUser) : ids (r.addUser u) = ids r ++ [u.id] := by
  show (r.realusers ++ [u]).map (·.id) = _
  rw [List.map_append, List.map_singleton]
  rfl

/-- A user that has joined is told of if the client that asked for it is there. -/
theorem told_welcome (env : Env) (context : RoomRequestContext) {u : RoomUser}
    (hu : r.getUser info.id = some u) :
    ((∀ client, context.clientId = some client → client ∈ ids r) ∧
      told ((welcome env info context).run r) = [r.userInfo u]) ∨
    ((∃ client, context.clientId = some client ∧ client ∉ ids r) ∧
      told ((welcome env info context).run r) = []) := by
  unfold welcome publishRoomEvent
  cases hc : context.clientId with
  | none =>
    left
    refine ⟨fun client h => (by cases h), ?_⟩
    simp only [Handler.run_bind, Handler.run_pure, Handler.run_get, Handler.run_emit,
      run_syncUser hu, Outcome.andThen_ok]
    rfl
  | some client =>
    rcases r.getUserInfo_cases client with ⟨hmem, found, hfound⟩ | ⟨hmem, hfound⟩
    · left
      refine ⟨fun other h => Option.some.inj h ▸ hmem, ?_⟩
      simp only [Handler.run_bind, Handler.run_liftExcept, hfound, Handler.run_get,
        Handler.run_emit, run_syncUser hu, Outcome.andThen_ok]
      rfl
    · right
      refine ⟨⟨client, rfl, hmem⟩, ?_⟩
      simp only [Handler.run_bind, Handler.run_liftExcept, hfound, Handler.run_get,
        Outcome.andThen_ok, Outcome.andThen_error]
      rfl

/-- A client that leaves is taken out of the list, and the others stay as they are. -/
theorem left_users (h : (ids r).Nodup) (client : ClientId) :
    (r.left client).users = r.users.filter (fun info => info.id ≠ client) := by
  have hrealusers : (r.left client).realusers = r.realusers.eraseP (fun u => u.id = client) := by
    unfold left removeUser
    dsimp only
    rw [dropVotes_realusers]
    split <;> rfl
  have hstands : (r.left client).owner = r.owner ∧ (r.left client).userRoles = r.userRoles := by
    unfold left removeUser dropVotes
    dsimp only
    split_ifs <;> exact ⟨rfl, rfl⟩
  unfold users
  rw [hrealusers, eraseP_key_eq_filter h client, List.filter_map]
  refine List.map_congr_left (fun u _ => ?_)
  rw [userInfo_eq_iff]
  exact getRole_congr hstands.1 hstands.2 u

/-- The first user with the id is replaced. -/
def replaceUser (r : Room) (client : ClientId) (u' : RoomUser) : Room :=
  { r with realusers := replaceFirst client u' r.realusers }

/-- The user that has replaced the first with its id is the first with its id. -/
theorem getUser_replaceUser {client : ClientId} {u u' : RoomUser} (hu : r.getUser client = some u)
    (hid : u'.id = client) : (r.replaceUser client u').getUser client = some u' := by
  show (replaceFirst client u' r.realusers).find? (fun v => v.id = client) = some u'
  unfold getUser at hu
  generalize r.realusers = us at hu ⊢
  induction us with
  | nil => cases hu
  | cons v us ih =>
    unfold replaceFirst
    by_cases hv : v.id = client
    · rw [if_pos hv]
      exact List.find?_cons_of_pos (by simpa using hid)
    · rw [List.find?_cons_of_neg (by simpa using hv)] at hu
      rw [if_neg hv, List.find?_cons_of_neg (by simpa using hv)]
      exact ih hu

theorem run_updateUser {u : RoomUser} (env : Env) (hu : r.getUser info.id = some u) :
    (updateUser env info).run r =
      (Handler.liftExcept (u.updateInfo env info).2 >>= fun _ => syncUser info.id : RoomM Unit).run
        (r.replaceUser info.id (u.updateInfo env info).1) := by
  simp only [updateUser, Handler.run_bind, Handler.run_get, Outcome.andThen_ok, hu]
  rfl

/-- An update writes the account it names before it looks the account up. -/
theorem updateInfo_fails_iff (env : Env) (u : RoomUser) (info : ClientInfo) :
    (∃ id, Identity.claimedId info = some id ∧ env.username id = none ∧ id ≠ 0 ∧
      u.updateInfo env info = ({ u with userId := some id }, .error .userNotFound)) ∨
    ((∀ id, Identity.claimedId info = some id → env.username id ≠ none) ∧
      (u.updateInfo env info).2 = .ok ()) := by
  unfold RoomUser.updateInfo Identity.claimedId
  cases hclaim : info.userId.filter (· ≠ 0) with
  | none =>
    right
    refine ⟨fun id h => (by cases h), ?_⟩
    dsimp only
    split <;> rfl
  | some id =>
    have hne : id ≠ 0 := by simpa using (Option.filter_eq_some_iff.mp hclaim).2
    dsimp only
    unfold Env.getUser
    rw [if_neg hne]
    cases hname : env.username id with
    | none => exact .inl ⟨id, rfl, hname, hne, rfl⟩
    | some username =>
      right
      refine ⟨fun id' h => ?_, rfl⟩
      obtain rfl := Option.some.inj h
      rw [hname]
      exact Option.some_ne_none username

end Requests

/-! ## Who gets another role -/

section Roles

variable {r : Room} {u : RoomUser}

/-- **Whose role a claim leaves**: that of everybody with another account. -/
theorem getRole_setOwner_iff (h : r.owner = none) (owner : User) :
    (r.setOwner (some owner)).getRole u = r.getRole u ↔ u.user.map (·.id) ≠ some owner.id := by
  have hbefore : r.isOwner u = false := by
    unfold isOwner
    rw [h]
    cases u.user <;> rfl
  by_cases hid : u.user.map (·.id) = some owner.id
  · obtain ⟨user, huser, hsame⟩ := Option.map_eq_some_iff.mp hid
    have hafter : (r.setOwner (some owner)).isOwner u = true := by
      simpa [isOwner, huser, setOwner, markDirty] using hsame
    rw [getRole_owner hafter]
    exact iff_of_false (fun heq => getRole_ne_owner hbefore heq.symm) (fun hne => hne hid)
  · have hafter : (r.setOwner (some owner)).isOwner u = false := by
      cases huser : u.user with
      | none => simp [isOwner, huser]
      | some user =>
        have hne : user.id ≠ owner.id := fun heq => hid (by rw [huser, ← heq]; rfl)
        simpa [isOwner, huser, setOwner, markDirty] using hne
    refine iff_of_true ?_ hid
    unfold getRole
    rw [hbefore, hafter]
    rfl

end Roles

end OpenTogetherTube.Server.Room

namespace OpenTogetherTube.Client.UserList

open OpenTogetherTube.Common OpenTogetherTube.Lib OpenTogetherTube.Server Room
open OpenTogetherTube.Server.ClientManager (ids)

/-! ## Claiming a room -/

/-- What a claim is refused with. -/
inductive ClaimError where
  | badApiArgument (arg reason : String)
  | unauthorized (message : String)
  deriving DecidableEq, Repr

/-- The checks of a claim, by whoever is logged in. -/
def checkClaim (r : Room) (user : Option User) : Except ClaimError User :=
  if r.owner.isSome then .error (.badApiArgument "claim" "Room already has owner.")
  else match user with
    | some user => .ok user
    | none => .error (.unauthorized "Must be logged in to claim room ownership.")

/-- The room gets its owner, and the first user with the owner's account is synced. -/
def claim (owner : User) : RoomM Unit := do
  Handler.modify (fun r => r.setOwner (some owner))
  let r ← Handler.get
  match r.realusers.find? (fun u => u.userId = some owner.id) with
  | some u => Handler.unawaited (syncUser u.id)
  | none => pure ()

/-! ## A room and one of its clients -/

structure State where
  room : Room
  users : Users

/-- What an operation of the room publishes about users reaches the client. -/
def State.publish {ε : Type} (s : State) (o : Outcome Room RoomOutput ε Unit) : State :=
  ⟨o.state, s.users.receiveAll ((told o).map (fun info => .update (.ofInfo info)))⟩

/-- What happens. A request comes in the context that was derived for it; a client that disconnects
leaves, and the client manager tells the others; the client itself is sent all users whenever it has
authenticated. -/
inductive Event where
  | request (env : Env) (request : RoomRequest) (context : RoomRequestContext)
  | disconnect (env : Env) (client : ClientId)
  | claim (user : Option User)
  | update (env : Env)
  | init

/-- `onClientDisconnect`. An error in the room is logged. -/
def disconnect (env : Env) (client : ClientId) (s : State) : State :=
  let s := s.publish ((processRequestUnsafe env .leave client).run s.room)
  { s with users := s.users.receive (.remove client) }

/-- A claim in `patchRoom`. -/
def patchClaim (user : Option User) (s : State) : State :=
  match checkClaim s.room user with
  | .ok owner => s.publish ((claim owner).run s.room)
  | .error _ => s

def step (s : State) : Event → State
  | .request env request context => s.publish ((processRequest env request context).run s.room)
  | .disconnect env client => disconnect env client s
  | .claim user => patchClaim user s
  | .update env => s.publish ((Room.update env).run s.room)
  | .init => { s with users := s.users.receive (.init s.room.users) }

def machine : Machine State Event := ⟨fun s e => some (step s e)⟩

/-- The client has just been sent all users. -/
def start (r : Room) : State := ⟨r, .initUsers r.users⟩

/-- **The purpose**: the client has the users of the room. -/
def Converged (s : State) : Prop := Shows s.users s.room.users

/-! ## What is told -/

/-- A join that goes through is of a new client, and asked for by one that is there. -/
def JoinTold (r : Room) (env : Env) (info : ClientInfo) (context : RoomRequestContext) : Prop :=
  joins env info context = true →
    info.id ∉ ids r ∧ ∀ client, context.clientId = some client → client = info.id ∨ client ∈ ids r

/-- Who asks to leave is not there. -/
def LeaveTold (r : Room) (context : RoomRequestContext) : Prop :=
  ∀ client, context.clientId = some client → client ∉ ids r

/-- An update with an account that does not exist is of somebody who is logged in already. -/
def UpdateTold (r : Room) (env : Env) (info : ClientInfo) : Prop :=
  ∀ u id, r.getUser info.id = some u → Identity.claimedId info = some id →
    env.username id = none → u.isLoggedIn = true

/-- A promotion that passes the checks changes the role of no other user of the account. -/
def PromotionTold (r : Room) (client : ClientId) (role : Int) (actor : Role) : Prop :=
  ∀ target id, r.getUser client = some target → target.userId = some id →
    r.Passes target role actor →
      ∀ u ∈ r.realusers, u ≠ target → u.user.map (·.id) = some id →
        r.isOwner u = true ∨ r.roleOfAccount id = assignableRoles.find? (fun k => k.toInt = role)

/-- Every user of the account is the first one that was given it. -/
def ClaimTold (r : Room) (owner : User) : Prop :=
  ∀ u ∈ r.realusers, u.user.map (·.id) = some owner.id →
    r.realusers.find? (fun u => u.userId = some owner.id) = some u

def RequestTold (r : Room) (env : Env) (context : RoomRequestContext) : RoomRequest → Prop
  | .join info => JoinTold r env info context
  | .leave => LeaveTold r context
  | .updateUser info => UpdateTold r env info
  | .promote client role => PromotionTold r client role context.role
  | _ => True

/-- Everybody whose entry changes is told of. -/
def Told (s : State) : Event → Prop
  | .request env request context => RequestTold s.room env context request
  | .claim user => ∀ owner, checkClaim s.room user = .ok owner → ClaimTold s.room owner
  | _ => True

/-! ## One operation -/

section Publish

variable {ε : Type} {s : State} {o : Outcome Room RoomOutput ε Unit}

theorem Converged.nodup (h : Converged s) : (ids s.room).Nodup := by
  rw [← users_ids, ← map_id_ofInfo]
  exact Mirrors.nodup h

/-- **When the messages of an operation are enough.** -/
theorem publish_iff (h : Converged s) (hsub : ∀ info ∈ told o, info ∈ o.state.users) :
    Converged (s.publish o) ↔ (ids o.state).Nodup ∧
      (∀ info ∈ o.state.users, info ∉ s.room.users → info ∈ told o) ∧
        ∀ client ∈ ids s.room, client ∈ ids o.state := by
  have hkept : (∀ info ∈ s.room.users, info.id ∈ o.state.users.map (·.id)) ↔
      ∀ client ∈ ids s.room, client ∈ ids o.state := by
    rw [users_ids, ← users_ids s.room, List.forall_mem_map]
  rw [← hkept, ← users_ids]
  exact shows_updates_iff h hsub

/-- Where the list stays the same, there is nothing to tell. -/
theorem publish_same (h : Converged s) (hroster : o.state.roster = s.room.roster)
    (htold : told o = []) : Converged (s.publish o) := by
  have husers := users_congr hroster
  have hids : ids o.state = ids s.room := by rw [← users_ids, ← users_ids, husers]
  rw [publish_iff h (by simp [htold]), hids, husers]
  exact ⟨h.nodup, fun info hinfo hnew => absurd hinfo hnew, fun _ hclient => hclient⟩

/-- Where only roles change, everybody else has to keep its role. -/
theorem publish_roles_iff (h : Converged s) (hsame : o.state.realusers = s.room.realusers)
    (us : List RoomUser) (hus : ∀ u ∈ us, u ∈ s.room.realusers)
    (htold : told o = us.map o.state.userInfo) :
    Converged (s.publish o) ↔
      ∀ u ∈ s.room.realusers, u ∉ us → o.state.getRole u = s.room.getRole u := by
  have hids : ids o.state = ids s.room := congrArg (List.map RoomUser.id) hsame
  have hsub : ∀ info ∈ told o, info ∈ o.state.users := by
    intro info hinfo
    rw [htold] at hinfo
    obtain ⟨u, hu, rfl⟩ := List.mem_map.mp hinfo
    exact userInfo_mem (hsame ▸ hus u hu)
  rw [publish_iff h hsub, hids, htold]
  constructor
  · rintro ⟨-, hchanged, -⟩ u hu hother
    by_contra hne
    have hnew : o.state.userInfo u ∉ s.room.users := by
      rw [userInfo_mem_iff h.nodup hu]
      exact hne
    obtain ⟨v, hv, heq⟩ := List.mem_map.mp (hchanged _ (userInfo_mem (hsame ▸ hu)) hnew)
    have hid : v.id = u.id := congrArg RoomUserInfo.id heq
    rw [eq_of_id h.nodup (hus v hv) hu hid] at hv
    exact hother hv
  · intro hroles
    refine ⟨h.nodup, fun info hinfo hnew => ?_, fun _ hclient => hclient⟩
    obtain ⟨u, hu, rfl⟩ := List.mem_map.mp hinfo
    rw [hsame] at hu
    by_contra hother
    have hnot : u ∉ us := fun hmem => hother (List.mem_map_of_mem hmem)
    apply hnew
    rw [userInfo_mem_iff h.nodup hu]
    exact hroles u hu hnot

end Publish

/-! ## What each operation tells -/

section Steps

variable {s : State}

theorem join_iff (h : Converged s) (env : Env) (info : ClientInfo) (context : RoomRequestContext) :
    Converged (s.publish ((joinRoom env info context).run s.room)) ↔
      JoinTold s.room env info context := by
  unfold JoinTold
  rcases run_joinRoom_cases env info context s.room with ⟨hjoins, e, hrun⟩ | ⟨hjoins, u, hid, hrun⟩
  · rw [hrun, hjoins]
    exact iff_of_true (publish_same h rfl rfl) (fun hfalse => by cases hfalse)
  · have hmem : u ∈ (s.room.addUser u).realusers := List.mem_append_right _ List.mem_cons_self
    obtain ⟨v, hv⟩ : ∃ v, (s.room.addUser u).getUser info.id = some v := by
      rw [← Option.isSome_iff_exists, getUser, List.find?_isSome]
      exact ⟨u, hmem, by simpa using hid⟩
    have hvmem : v ∈ (s.room.addUser u).realusers := List.mem_of_find?_eq_some hv
    have hvid : v.id = info.id := by simpa using List.find?_some hv
    have hnodup : (ids s.room ++ [info.id]).Nodup ↔ info.id ∉ ids s.room := by
      rw [List.nodup_append_comm, List.singleton_append, List.nodup_cons]
      exact and_iff_left h.nodup
    have hids : ids (s.room.addUser u) = ids s.room ++ [info.id] := by rw [addUser_ids, hid]
    rw [hrun]
    simp only [hjoins, true_implies]
    rcases told_welcome env context hv with ⟨hthere, htold⟩ | ⟨⟨client, hclient, hgone⟩, htold⟩
    · rw [publish_iff h (by simpa [htold, state_welcome] using userInfo_mem hvmem), state_welcome,
        hids, hnodup, htold]
      constructor
      · rintro ⟨hnew, -, -⟩
        refine ⟨hnew, fun client hclient => ?_⟩
        have hmem := hthere client hclient
        rw [hids, List.mem_append, List.mem_singleton] at hmem
        exact hmem.symm
      · rintro ⟨hnew, -⟩
        refine ⟨hnew, fun other hother hchanged => ?_, fun _ hc => List.mem_append_left _ hc⟩
        have hvu : v = u := eq_of_id (hids ▸ hnodup.mpr hnew) hvmem hmem (hvid.trans hid.symm)
        rw [addUser_users, List.mem_append] at hother
        rw [hvu]
        exact hother.resolve_left hchanged
    · rw [publish_iff h (by simp [htold]), state_welcome, hids, hnodup, htold]
      refine iff_of_false ?_ ?_
      · rintro ⟨hnew, hchanged, -⟩
        refine List.not_mem_nil (hchanged _ (userInfo_mem hmem) (fun hold => hnew ?_))
        rw [← users_ids, ← hid]
        exact List.mem_map_of_mem hold
      · rintro ⟨-, hasked⟩
        apply hgone
        rw [hids, List.mem_append, List.mem_singleton]
        exact (hasked client hclient).symm

/-- Nobody is told that a client has left by asking to. -/
theorem leave_iff (h : Converged s) (context : RoomRequestContext) :
    Converged (s.publish ((leaveRoom context).run s.room)) ↔ LeaveTold s.room context := by
  have htold := (leaveRoom_silent context).told s.room
  rcases leaveRoom_cases context s.room with ⟨client, hclient, hmem, hstate⟩ | ⟨hgone, hstate⟩
  · refine iff_of_false ?_ (fun hgone => hgone client hclient hmem)
    rw [publish_iff h (by simp [htold]), hstate, left_ids]
    rintro ⟨-, -, hkept⟩
    exact h.nodup.not_mem_erase (hkept client hmem)
  · exact iff_of_true (publish_same h (congrArg roster hstate) htold) hgone

/-- Where one user is replaced, it has to be told of or to look as it did. -/
theorem publish_replaced_iff {o : Outcome Room RoomOutput RoomError Unit} {client : ClientId}
    {u u' : RoomUser} (h : Converged s) (hu : s.room.getUser client = some u) (hid : u'.id = client)
    (hstate : o.state = s.room.replaceUser client u')
    (htold : told o = [] ∨ told o = [s.room.userInfo u']) :
    Converged (s.publish o) ↔
      told o = [s.room.userInfo u'] ∨ s.room.userInfo u' = s.room.userInfo u := by
  have humem : u ∈ s.room.realusers := List.mem_of_find?_eq_some hu
  have huid : u.id = client := by simpa using List.find?_some hu
  have hids : ids o.state = ids s.room := by
    rw [hstate]
    exact ClientManager.map_id_replaceFirst hid s.room.realusers
  have husers : ∀ info, info ∈ o.state.users ↔
      ∃ v ∈ replaceFirst client u' s.room.realusers, s.room.userInfo v = info := by
    intro info
    rw [hstate]
    exact List.mem_map
  have hnew : s.room.userInfo u' ∈ o.state.users :=
    (husers _).mpr ⟨u', List.mem_of_find?_eq_some (getUser_replaceUser hu hid), rfl⟩
  have hsub : ∀ info ∈ told o, info ∈ o.state.users := by
    intro info hinfo
    rcases htold with htold | htold
    · rw [htold] at hinfo
      cases hinfo
    · rw [htold, List.mem_singleton] at hinfo
      rw [hinfo]
      exact hnew
  have hothers : ∀ info ∈ o.state.users, info ∉ s.room.users → info = s.room.userInfo u' := by
    intro info hinfo hchanged
    obtain ⟨v, hv, rfl⟩ := (husers info).mp hinfo
    rcases Identity.mem_replaceFirst hv with rfl | hv
    · rfl
    · exact absurd (userInfo_mem hv) hchanged
  rw [publish_iff h hsub, hids]
  constructor
  · rintro ⟨-, hchanged, -⟩
    rcases htold with htold | htold
    · right
      have hold : s.room.userInfo u' ∈ s.room.users := by
        by_contra hnot
        have hmem := hchanged _ hnew hnot
        rw [htold] at hmem
        cases hmem
      obtain ⟨v, hv, heq⟩ := List.mem_map.mp hold
      have hvid : v.id = u'.id := congrArg RoomUserInfo.id heq
      rw [← heq, eq_of_id h.nodup hv humem (hvid.trans (hid.trans huid.symm))]
    · exact .inl htold
  · intro hfine
    refine ⟨h.nodup, fun info hinfo hchanged => ?_, fun _ hclient => hclient⟩
    have heq := hothers info hinfo hchanged
    rcases hfine with htold | hsame
    · rw [htold, heq]
      exact List.mem_cons_self
    · rw [heq, hsame] at hchanged
      exact absurd (userInfo_mem humem) hchanged

/-- Whoever is given an account looks the same if it was logged in. -/
theorem userInfo_withUserId_iff (r : Room) (u : RoomUser) {id : UserId} (hne : id ≠ 0) :
    r.userInfo { u with userId := some id } = r.userInfo u ↔ u.isLoggedIn = true := by
  have hlogged : ({ u with userId := some id } : RoomUser).isLoggedIn = true := by
    simpa [RoomUser.isLoggedIn] using hne
  constructor
  · intro heq
    exact (congrArg RoomUserInfo.isLoggedIn heq).symm.trans hlogged
  · intro hu
    have hname : ({ u with userId := some id } : RoomUser).username = u.username := by
      unfold RoomUser.username
      rw [hlogged, hu]
    have hrole : r.getRole { u with userId := some id } = r.getRole u := by
      unfold getRole
      rw [hlogged, hu]
      rfl
    unfold userInfo
    rw [hname, hrole, hlogged, hu]

theorem update_iff (h : Converged s) (env : Env) (info : ClientInfo) :
    Converged (s.publish ((updateUser env info).run s.room)) ↔ UpdateTold s.room env info := by
  unfold UpdateTold
  cases hu : s.room.getUser info.id with
  | none =>
    have hrun : (updateUser env info).run s.room = ⟨s.room, [], .ok ()⟩ := by
      simp only [updateUser, Handler.run_bind, Handler.run_get, Outcome.andThen_ok, hu]
      rfl
    rw [hrun]
    exact iff_of_true (publish_same h rfl rfl) (fun u id hnone => by cases hnone)
  | some u =>
    have huid : u.id = info.id := by simpa using List.find?_some hu
    have humem : u ∈ s.room.realusers := List.mem_of_find?_eq_some hu
    rcases updateInfo_fails_iff env u info with ⟨id, hclaim, hname, hne, hupdate⟩ | ⟨hknown, hok⟩
    · -- the account is not found, and nobody is told
      have hid : ({ u with userId := some id } : RoomUser).id = info.id := huid
      have hrun : (updateUser env info).run s.room =
          ⟨s.room.replaceUser info.id { u with userId := some id }, [], .error .userNotFound⟩ := by
        rw [run_updateUser env hu, hupdate]
        rfl
      rw [hrun, publish_replaced_iff h hu hid rfl (.inl rfl), userInfo_withUserId_iff _ _ hne]
      constructor
      · rintro hfine u' id' hu' - -
        obtain rfl := Option.some.inj hu'
        exact hfine.resolve_left (fun htold => by cases htold)
      · exact fun hlogged => .inr (hlogged u id rfl hclaim hname)
    · have hid := (Identity.updateInfo_id_token env u info).1.trans huid
      have hrun : (updateUser env info).run s.room =
          ⟨s.room.replaceUser info.id (u.updateInfo env info).1,
            [.user (s.room.userInfo (u.updateInfo env info).1)], .ok ()⟩ := by
        rw [run_updateUser env hu, hok]
        exact run_syncUser (getUser_replaceUser hu hid)
      rw [hrun]
      refine iff_of_true ?_ (fun u' id hu' hclaim hname => absurd hname (hknown id hclaim))
      exact (publish_replaced_iff h hu hid rfl (.inr rfl)).mpr (.inl rfl)

theorem promote_iff (h : Converged s) (hform : s.room.WellFormed) (client : ClientId) (role : Int)
    (context : RoomRequestContext) :
    Converged (s.publish ((promoteUser client role context).run s.room)) ↔
      PromotionTold s.room client role context.role := by
  unfold PromotionTold
  cases htarget : s.room.getUser client with
  | none =>
    have hrun : (promoteUser client role context).run s.room =
        ⟨s.room, [], .error .promotedClientNotFound⟩ := by
      simp only [promoteUser, Handler.run_bind, Handler.run_get, Outcome.andThen_ok, htarget]
      rfl
    rw [hrun]
    exact iff_of_true (publish_same h rfl rfl) (fun target id hnone => by cases hnone)
  | some target =>
    have hmem : target ∈ s.room.realusers := List.mem_of_find?_eq_some htarget
    by_cases hpasses : s.room.Passes target role context.role
    · have hsame : (promoted target role s.room).realusers = s.room.realusers := by
        unfold promoted
        split <;> rfl
      rw [run_promoteUser_of_passes htarget hpasses,
        publish_roles_iff h hsame [target] (by simpa using hmem) rfl]
      simp only [List.mem_singleton]
      unfold promoted
      cases hid : target.userId with
      | none =>
        refine iff_of_true (fun _ _ _ => rfl) (fun target' id htarget' hid' => ?_)
        obtain rfl := Option.some.inj htarget'
        rw [hid] at hid'
        cases hid'
      | some id =>
        simp only [getRole_assignRole_iff hform]
        constructor
        · rintro hroles target' id' htarget' hid' -
          obtain rfl := Option.some.inj htarget'
          rw [hid] at hid'
          obtain rfl := Option.some.inj hid'
          exact hroles
        · exact fun htold => htold target id rfl hid hpasses
    · obtain ⟨e, hrun⟩ := run_promoteUser_of_not_passes htarget hpasses
      rw [hrun]
      refine iff_of_true (publish_same h rfl rfl) (fun target' id htarget' _ hpasses' => ?_)
      obtain rfl := Option.some.inj htarget'
      exact absurd hpasses' hpasses

theorem claim_iff (h : Converged s) (hunowned : s.room.owner = none) (owner : User) :
    Converged (s.publish ((claim owner).run s.room)) ↔ ClaimTold s.room owner := by
  have hrun : ((claim owner).run s.room).state = s.room.setOwner (some owner) ∧
      told ((claim owner).run s.room) =
        (s.room.realusers.find? (fun u => u.userId = some owner.id)).toList.map
          (s.room.setOwner (some owner)).userInfo := by
    have hfind : (s.room.setOwner (some owner)).realusers = s.room.realusers := rfl
    simp only [claim, Handler.run_bind, Handler.run_modify, Handler.run_get, Outcome.andThen_ok,
      hfind]
    cases hfirst : s.room.realusers.find? (fun u => u.userId = some owner.id) with
    | none => exact ⟨rfl, rfl⟩
    | some u =>
      have hu : (s.room.setOwner (some owner)).getUser u.id = some u :=
        getUser_of_mem h.nodup (List.mem_of_find?_eq_some hfirst)
      simp only [Handler.run_unawaited, run_syncUser hu]
      exact ⟨trivial, rfl⟩
  have hmem : ∀ u ∈ (s.room.realusers.find? (fun u => u.userId = some owner.id)).toList,
      u ∈ s.room.realusers := by
    intro u hu
    exact List.mem_of_find?_eq_some (Option.mem_toList.mp hu)
  have hsame : ((claim owner).run s.room).state.realusers = s.room.realusers := by
    rw [hrun.1]
    rfl
  rw [publish_roles_iff h hsame _ hmem (hrun.1 ▸ hrun.2)]
  unfold ClaimTold
  refine forall_congr' (fun u => imp_congr_right (fun hu => ?_))
  rw [hrun.1, getRole_setOwner_iff hunowned, Option.mem_toList]
  exact not_imp_not

theorem patchClaim_iff (h : Converged s) (user : Option User) :
    Converged (patchClaim user s) ↔
      ∀ owner, checkClaim s.room user = .ok owner → ClaimTold s.room owner := by
  unfold patchClaim
  cases hcheck : checkClaim s.room user with
  | error e => exact iff_of_true h (fun owner hok => by cases hok)
  | ok owner =>
    have hunowned : s.room.owner = none := by
      unfold checkClaim at hcheck
      split at hcheck
      · cases hcheck
      · next hnone => simpa using hnone
    dsimp only
    rw [claim_iff h hunowned]
    constructor
    · rintro htold owner' hsame
      obtain rfl := Except.ok.inj hsame
      exact htold
    · exact fun htold => htold owner rfl

/-- The other requests leave the list of users as it is. -/
theorem request_iff (h : Converged s) (hform : s.room.WellFormed) (env : Env)
    (request : RoomRequest) (context : RoomRequestContext) :
    Converged (s.publish ((processRequest env request context).run s.room)) ↔
      RequestTold s.room env context request := by
  have hother : changesStanding request = false → tellsUser request = false →
      Converged (s.publish ((processRequest env request context).run s.room)) := by
    intro hstanding hsilent
    have hsame := processRequest_standing hstanding env context s.room
    refine publish_same h ?_ ((processRequest_silent hsilent env context).told s.room)
    exact congrArg (fun t : Standing => (t.realusers, t.owner, t.userRoles)) hsame
  have hunlisted : requestPermission request = none →
      (processRequest env request context).run s.room = (handle env request context).run s.room :=
    fun hp => mediated_unlisted request hp (handle env request context) s.room
  cases request with
  | join info =>
    rw [hunlisted rfl]
    exact join_iff h env info context
  | leave =>
    rw [hunlisted rfl]
    exact leave_iff h context
  | updateUser info =>
    rw [hunlisted rfl]
    exact update_iff h env info
  | promote client role =>
    rw [hunlisted rfl]
    exact promote_iff h hform client role context
  | applySettings settings =>
    have hsilent : told ((processRequest env (.applySettings settings) context).run s.room) = [] :=
      (processRequest_silent rfl env context).told s.room
    refine iff_of_true (publish_same h ?_ hsilent) trivial
    have hignores : IgnoresSettings (Handler.SameOn roster) := fun _ _ _ _ _ _ _ _ _ _ _ => rfl
    exact mediated_keeps (hignores.applySettings settings context) s.room
  | _ => exact iff_of_true (hother rfl rfl) trivial

/-- **Whoever disconnects is taken out.** -/
theorem disconnect_converged (h : Converged s) (env : Env) (client : ClientId) :
    Converged (disconnect env client s) := by
  have hgone : (∀ info ∈ s.room.users, info.id ≠ client) →
      Shows (s.users.removeUser client) s.room.users := by
    intro hne
    have hremoved := Shows.removeUser h client
    rwa [List.filter_eq_self.mpr (by simpa using hne)] at hremoved
  have hids : client ∉ ids s.room → ∀ info ∈ s.room.users, info.id ≠ client := by
    rintro hnot info hinfo rfl
    apply hnot
    rw [← users_ids]
    exact List.mem_map_of_mem hinfo
  unfold disconnect
  rcases s.room.getUserInfo_cases client with ⟨hmem, info, hinfo⟩ | ⟨hnot, hinfo⟩
  · have hrun : (processRequestUnsafe env .leave client).run s.room =
        (leaveRoom ⟨info.name, info.role, some client, none⟩).run s.room := by
      have hleave :
          (processRequest env .leave ⟨info.name, info.role, some client, none⟩).run s.room =
            (leaveRoom ⟨info.name, info.role, some client, none⟩).run s.room :=
        mediated_unlisted .leave rfl _ s.room
      simp only [processRequestUnsafe, Handler.run_bind, Handler.run_get, Outcome.andThen_ok,
        Handler.run_liftExcept, hinfo]
      exact hleave
    have htold := (leaveRoom_silent ⟨info.name, info.role, some client, none⟩).told s.room
    rcases leaveRoom_cases ⟨info.name, info.role, some client, none⟩ s.room with
      ⟨other, hother, -, hstate⟩ | ⟨hgone, -⟩
    · obtain rfl := Option.some.inj hother
      show Shows ((s.publish _).users.removeUser client) (s.publish _).room.users
      rw [hrun]
      unfold State.publish
      rw [htold, hstate, left_users h.nodup]
      exact Shows.removeUser h client
    · exact absurd hmem (hgone client rfl)
  · have hrun : (processRequestUnsafe env .leave client).run s.room =
        ⟨s.room, [], .error .clientNotFound⟩ := by
      simp only [processRequestUnsafe, Handler.run_bind, Handler.run_get, Outcome.andThen_ok,
        Handler.run_liftExcept, hinfo]
      rfl
    rw [hrun]
    exact hgone (hids hnot)

/-- **Exactly the steps that are told keep the client up to date.** -/
theorem step_iff (h : Converged s) (hform : s.room.WellFormed) (e : Event) :
    Converged (step s e) ↔ Told s e := by
  cases e with
  | request env request context => exact request_iff h hform env request context
  | disconnect env client => exact iff_of_true (disconnect_converged h env client) trivial
  | claim user => exact patchClaim_iff h user
  | update env =>
    refine iff_of_true (publish_same h ?_ ((update_silent env).told s.room)) trivial
    exact congrArg (fun t : Standing => (t.realusers, t.owner, t.userRoles))
      (update_standing env s.room)
  | init =>
    refine iff_of_true ?_ trivial
    show Shows (.initUsers s.room.users) s.room.users
    rw [shows_initUsers_iff, users_ids]
    exact h.nodup

end Steps

/-! ## Changes of a username -/

section Usernames

theorem told_append {ε : Type} (r : Room) (out out' : List RoomOutput) (result : Except ε Unit) :
    told ⟨r, out ++ out', result⟩ = told ⟨r, out, result⟩ ++ told ⟨r, out', result⟩ :=
  List.filterMap_append

/-- What two operations publish, one after the other. -/
theorem publish_publish {ε : Type} (s : State) (r r' : Room) (out out' : List RoomOutput)
    (result : Except ε Unit) :
    (s.publish ⟨r, out, (.ok () : Except ε Unit)⟩).publish ⟨r', out', result⟩ =
      s.publish ⟨r', out ++ out', result⟩ := by
  show State.mk _ _ = State.mk _ _
  congr 1
  rw [told_append, List.map_append, Users.receiveAll_append]
  rfl

/-- **A change of a username is a run of updates**, of the clients that have the token. -/
theorem onUserModified_run (env : Env) (token : AuthToken) (clients : List Identity.Client)
    (s : State) : ∃ events : List Event,
      (∀ e ∈ events, ∃ info context, e = .request env (.updateUser info) context) ∧
      machine.run s events =
        some (s.publish ((Identity.onUserModified env token clients).run s.room)) := by
  induction clients generalizing s with
  | nil => exact ⟨[], fun e he => absurd he List.not_mem_nil, rfl⟩
  | cons c clients ih =>
    unfold Identity.onUserModified
    by_cases htoken : c.token = some token
    · rw [if_pos htoken, Handler.run_bind, Handler.run_liftExcept]
      cases env.getSessionInfo token with
      | error e => exact ⟨[], fun e he => absurd he List.not_mem_nil, rfl⟩
      | ok session =>
        rw [Outcome.andThen_ok, Handler.run_bind]
        generalize c.getClientInfo session = info
        have hrequest : Identity.makeRoomRequest env c (.updateUser info) =
            processUnauthorizedRequest env (.updateUser info) ⟨token, some c.id⟩ := by
          unfold Identity.makeRoomRequest
          rw [htoken]
        rw [hrequest]
        obtain ⟨-, -, ⟨context, -, hrun⟩ | ⟨e, hrun⟩⟩ :=
          Identity.processUnauthorizedRequest_cases env (.updateUser info) token c.id s.room
        · rw [hrun]
          have hupdate : step s (.request env (.updateUser info) context) =
              s.publish ((processRequest env (.updateUser info) context).run s.room) := rfl
          cases hresult : (processRequest env (.updateUser info) context).run s.room with
          | mk r out result =>
            rw [hresult] at hupdate
            cases result with
            | error e =>
              -- the loop ends with the update that throws
              refine ⟨[.request env (.updateUser info) context], ?_, ?_⟩
              · intro e' he'
                exact ⟨_, _, List.mem_singleton.mp he'⟩
              · show some (step s _) = _
                rw [hupdate]
                rfl
            | ok _ =>
              obtain ⟨events, hevents, hafter⟩ :=
                ih (step s (.request env (.updateUser info) context))
              refine ⟨.request env (.updateUser info) context :: events, ?_, ?_⟩
              · intro e' he'
                rcases List.mem_cons.mp he' with rfl | he'
                · exact ⟨_, _, rfl⟩
                · exact hevents e' he'
              · refine Machine.run_cons_eq_some.mpr ⟨_, rfl, ?_⟩
                rw [hafter, hupdate]
                exact congrArg some (publish_publish s r _ out _ _)
        · rw [hrun]
          exact ⟨[], fun e he => absurd he List.not_mem_nil, rfl⟩
    · rw [if_neg htoken]
      exact ih s

end Usernames

/-! ## Runs -/

theorem claim_keepsForm (owner : User) : (claim owner).Keeps KeepsForm := by
  refine .bind (.modify (fun r hform => hform.congr rfl rfl)) (fun _ => .bind .get (fun r => ?_))
  cases r.realusers.find? (fun u => u.userId = some owner.id) with
  | some u => exact .unawaited (syncUser_keeps u.id)
  | none => exact .pure ()

theorem step_wellFormed {s : State} (hform : s.room.WellFormed) (e : Event) :
    (step s e).room.WellFormed := by
  cases e with
  | request env request context => exact processRequest_keepsForm env request context s.room hform
  | disconnect env client =>
    exact processRequestUnsafe_keeps (fun context => processRequest_keepsForm env .leave context)
      client s.room hform
  | claim user =>
    show (patchClaim user s).room.WellFormed
    unfold patchClaim
    split
    · exact claim_keepsForm _ s.room hform
    · exact hform
  | update env => exact hform.of_standing (update_standing env s.room)
  | init => exact hform

/-- **Exactly when the client has the users of the room throughout.** -/
theorem converged_throughout_iff {r : Room} (h : r.Reachable) (events : List Event) :
    machine.Always Converged (start r) events ↔
      (ids r).Nodup ∧ machine.Along Told (start r) events := by
  have hstart : Converged (start r) ↔ (ids r).Nodup := by
    show Shows (.initUsers r.users) r.users ↔ _
    rw [shows_initUsers_iff, users_ids]
  by_cases hnodup : (ids r).Nodup
  · rw [and_iff_right hnodup]
    refine Machine.always_iff_along_of_step (I := fun s => s.room.WellFormed) ?_ ?_ h.wellFormed
      (hstart.mpr hnodup)
    · rintro s e s' hform hs
      cases hs
      exact step_wellFormed hform e
    · rintro s e s' hform hconverged hs
      cases hs
      exact step_iff hconverged hform e
  · exact iff_of_false (fun halways => hnodup (hstart.mp halways.head)) (fun hall => hnodup hall.1)

/-- The world in which account 7 is bob's. -/
def bobsWorld : Env := { emptyEnv 0 with username := fun id => if id = 7 then some "bob" else none }

/-- Bob joins with one of his devices. -/
def bobJoins (device : ClientId) : Event :=
  .request bobsWorld (.join ⟨device, none, some 7, none⟩)
    ⟨"bob", .registeredUser, some device, some ⟨"bob's token", some device⟩⟩

/-- Bob joins twice. -/
theorem converged_throughout_iff_bob :
    machine.Always Converged (start (Room.new "foo" 0)) [bobJoins "laptop", bobJoins "phone"] := by
  have hreachable : (Room.new "foo" 0).Reachable := construct_named "foo" 0 ▸ .created _ _ rfl rfl
  refine (converged_throughout_iff hreachable _).mpr ⟨List.nodup_nil, ?_⟩
  intro s hs
  cases hs
  refine ⟨fun _ => ⟨by decide, fun client hclient => .inl (Option.some.inj hclient).symm⟩, ?_⟩
  intro s hs
  cases hs
  exact ⟨fun _ => ⟨by decide +kernel, fun client hclient => .inl (Option.some.inj hclient).symm⟩,
    trivial⟩

/-- **A claim shows the owner on one device only.** -/
theorem not_converged_throughout :
    ¬ ∀ events : List Event, machine.Always Converged (start (Room.new "foo" 0)) events := by
  intro h
  have hlast := (h [bobJoins "laptop", bobJoins "phone", .claim (some ⟨7, "bob"⟩)]).last rfl
  have hshown : ∀ info ∈ (step (step (step (start (Room.new "foo" 0)) (bobJoins "laptop"))
      (bobJoins "phone")) (.claim (some ⟨7, "bob"⟩))).room.users,
      (step (step (step (start (Room.new "foo" 0)) (bobJoins "laptop"))
        (bobJoins "phone")) (.claim (some ⟨7, "bob"⟩))).users.get? info.id = some (.ofInfo info) :=
    fun info hinfo => Mirrors.get?_key hlast (List.mem_map_of_mem hinfo)
  revert hshown
  decide +kernel

end OpenTogetherTube.Client.UserList
