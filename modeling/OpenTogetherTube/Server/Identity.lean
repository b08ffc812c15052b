import OpenTogetherTube.Lib.Machine
import OpenTogetherTube.Server.Requests

/-!
# Who the users of a room are

A client authenticates with a token, and the session stored for the token says which account it
belongs to, if any. The client manager turns the messages of a client into requests of a room, under
the client's id and token, and the room keeps for each client a user with the account and the role
that go with it. `Identified` says that they do: every user has the account and the role of the
session of its own token, and every client acts with the role of the session of its token.

Two requests carry an identity in their payload, and the room takes it from there: a join request
and an update of a user. When the client manager makes them itself it fills them in from the
session; when they come out of a client's message they say what the client likes.
`identified_throughout` is the statement for runs: as long as each step is `Honest`, everybody is
who their session says. A step is honest unless a client sends one of the two requests with an
identity that is not its own, or authenticates again under another token while it is in the room.
-/

namespace OpenTogetherTube.Server.Identity

open OpenTogetherTube.Common OpenTogetherTube.Lib Room

/-- The sessions stored for the auth tokens. An account's id is a database key, and these are
counted from one. -/
structure Sessions where
  info : AuthToken → Option SessionInfo
  accountIds : ∀ token id, info token = some (.loggedIn id) → id ≠ 0

/-- The account a token is logged in with. -/
def Sessions.userId? (sessions : Sessions) (token : AuthToken) : Option UserId :=
  (sessions.info token).bind SessionInfo.userId?

/-- The world of an operation, with these sessions. -/
def Sessions.env (sessions : Sessions) (env : Env) : Env := { env with session := sessions.info }

/-! ## The client manager, for one room -/

/-- A client that is connected to the room's server. `joined` is its join status. -/
structure Client where
  id : ClientId
  token : Option AuthToken
  joined : Bool
  deriving DecidableEq

/-- What a client that has authenticated may send. -/
inductive ClientMessage where
  | kickme
  | status (status : PlayerStatus)
  | req (request : RoomRequest)
  | notify (message : String)

/-- `getClientInfo`, for a session that was just looked up. -/
def Client.getClientInfo (c : Client) : SessionInfo → ClientInfo
  | .loggedIn userId => ⟨c.id, none, some userId, none⟩
  | .loggedOut username => ⟨c.id, some username, none, none⟩

@[simp] theorem Client.getClientInfo_id (c : Client) (session : SessionInfo) :
    (c.getClientInfo session).id = c.id := by
  cases session <;> rfl

structure State where
  room : Room
  clients : List Client

/-- `makeRoomRequest`, behind the check for a token. -/
def makeRoomRequest (env : Env) (c : Client) (request : RoomRequest) : RoomM Unit :=
  match c.token with
  | some token => processUnauthorizedRequest env request ⟨token, some c.id⟩
  | none => pure ()

/-- `onUserModified`: every client with the token is brought up to date, until one throws. -/
def onUserModified (env : Env) (token : AuthToken) : List Client → RoomM Unit
  | [] => pure ()
  | c :: clients =>
    if c.token = some token then do
      let session ← Handler.liftExcept (env.getSessionInfo token)
      makeRoomRequest env c (.updateUser (c.getClientInfo session))
      onUserModified env token clients
    else onUserModified env token clients

/-- `onClientMessage`. Errors are caught; some get the client kicked, which is another event. -/
def onClientMessage (env : Env) (clients : List Client) (c : Client) : ClientMessage → RoomM Unit
  | .kickme => pure ()
  | .status status => makeRoomRequest env c (.updateUser ⟨c.id, none, none, some status⟩)
  | .req request => makeRoomRequest env c request
  | .notify message =>
    match c.token with
    | some token => if message = "usernameChanged" then onUserModified env token clients else pure ()
    | none => pure ()

/-- What happens to the clients of a room. A new client gets an id that was never used, and the
room updates itself. -/
inductive Event where
  | connect (id : ClientId)
  | auth (env : Env) (id : ClientId) (token : AuthToken)
  | message (env : Env) (id : ClientId) (message : ClientMessage)
  | disconnect (env : Env) (id : ClientId)
  | update (env : Env)

/-- Store the token, and the join status when there is a session for it. -/
def setToken (sessions : Sessions) (id : ClientId) (token : AuthToken) (c : Client) : Client :=
  if c.id = id then ⟨c.id, some token, (sessions.info token).isSome || c.joined⟩ else c

/-- `Client.auth` and, when there is a session for the token, `onClientAuth`. -/
def auth (sessions : Sessions) (env : Env) (s : State) (c : Client) (token : AuthToken) : State :=
  if token = "" then s
  else
    let clients := s.clients.map (setToken sessions c.id token)
    match sessions.info token with
    | none => { s with clients := clients }
    | some session =>
      let c := setToken sessions c.id token c
      ⟨((makeRoomRequest (sessions.env env) c (.join (c.getClientInfo session))).run s.room).state,
        clients⟩

/-- `onClientDisconnect`. -/
def disconnect (sessions : Sessions) (env : Env) (s : State) (c : Client) : State :=
  let clients := s.clients.filter (fun c' => c'.id ≠ c.id)
  if c.joined then
    ⟨((processRequestUnsafe (sessions.env env) .leave c.id).run s.room).state, clients⟩
  else { s with clients := clients }

def getClient (s : State) (id : ClientId) : Option Client := s.clients.find? (fun c => c.id = id)

def step (sessions : Sessions) (s : State) : Event → Option State
  | .connect id =>
    if (∀ c ∈ s.clients, c.id ≠ id) ∧ ∀ u ∈ s.room.realusers, u.id ≠ id then
      some { s with clients := s.clients ++ [⟨id, none, false⟩] }
    else none
  | .auth env id token => (getClient s id).map (fun c => auth sessions env s c token)
  | .message env id message => (getClient s id).map (fun c =>
      { s with room := ((onClientMessage (sessions.env env) s.clients c message).run s.room).state })
  | .disconnect env id => (getClient s id).map (disconnect sessions env s)
  | .update env => some { s with room := ((Room.update (sessions.env env)).run s.room).state }

def machine (sessions : Sessions) : Machine State Event := ⟨step sessions⟩

/-- A room that was just loaded. -/
def start (r : Room) : State := ⟨{ r with realusers := [] }, []⟩

/-! ## The specification, and when it holds -/

/-- The user is who the session of its token says. -/
structure Genuine (sessions : Sessions) (r : Room) (u : RoomUser) : Prop where
  userId : u.userId = sessions.userId? u.token
  account : u.user.map (·.id) = sessions.userId? u.token
  role : ∃ session, sessions.info u.token = some session ∧ r.getRole u = r.getRoleFromSession session

/-- Everybody is who their session says, and acts as that. -/
structure Identified (sessions : Sessions) (s : State) : Prop where
  users : ∀ u ∈ s.room.realusers, Genuine sessions s.room u
  acting : ∀ c ∈ s.clients, ∀ token, c.token = some token → ∀ env context,
    deriveRequestContext (sessions.env env) ⟨token, some c.id⟩ s.room = .ok context →
      ∃ session, sessions.info token = some session ∧
        context.role = s.room.getRoleFromSession session

/-- The account that a payload claims, if it claims one. -/
def claimedId (info : ClientInfo) : Option UserId := info.userId.filter (· ≠ 0)

/-- A join request under the token's own identity, and not under another client's id. One that names
an account that does not exist is refused. -/
def OwnJoin (sessions : Sessions) (env : Env) (s : State) (token : AuthToken) (info : ClientInfo) :
    Prop :=
  (∃ id, claimedId info = some id ∧ env.username id = none) ∨
  (claimedId info = sessions.userId? token ∧
    ∀ c ∈ s.clients, c.id = info.id → c.token = some token)

/-- An update that leaves the user it is about the identity it has. -/
def OwnUpdate (sessions : Sessions) (s : State) (info : ClientInfo) : Prop :=
  ∀ u, s.room.getUser info.id = some u →
    match claimedId info with
    | some id => sessions.userId? u.token = some id
    | none => truthy info.username = none ∨ sessions.userId? u.token = none

/-- The step takes no identity from what a client says. -/
def Honest (sessions : Sessions) (s : State) : Event → Prop
  | .auth _ id token => token = "" ∨ ∀ u ∈ s.room.realusers, u.id = id → u.token = token
  | .message env id (.req (.join info)) =>
    ∀ c token, getClient s id = some c → c.token = some token → sessions.info token ≠ none →
      OwnJoin sessions env s token info
  | .message _ id (.req (.updateUser info)) =>
    ∀ c token, getClient s id = some c → c.token = some token → sessions.info token ≠ none →
      OwnUpdate sessions s info
  | _ => True

section Decidable

variable (sessions : Sessions) (env : Env) (s : State)

instance (token : AuthToken) (info : ClientInfo) : Decidable (OwnJoin sessions env s token info) :=
  decidable_of_iff ((∃ id ∈ claimedId info, env.username id = none) ∨
    (claimedId info = sessions.userId? token ∧ ∀ c ∈ s.clients, c.id = info.id → c.token = some token))
    Iff.rfl

instance (info : ClientInfo) : Decidable (OwnUpdate sessions s info) :=
  decidable_of_iff (∀ u ∈ s.room.getUser info.id, (∃ id ∈ claimedId info,
      sessions.userId? u.token = some id) ∨ (claimedId info = none ∧
      (truthy info.username = none ∨ sessions.userId? u.token = none))) <| by
    unfold OwnUpdate
    cases claimedId info <;> simp

/-- What is asked of the token that a client sends under. -/
instance decidableSender (id : ClientId) (P : AuthToken → Prop) [∀ token, Decidable (P token)] :
    Decidable (∀ c token, getClient s id = some c → c.token = some token →
      sessions.info token ≠ none → P token) :=
  decidable_of_iff (∀ c ∈ getClient s id, ∀ token ∈ c.token, sessions.info token ≠ none → P token)
    ⟨fun h c token hc ht => h c hc token ht, fun h c hc token ht => h c token hc ht⟩

instance decidableHonest (e : Event) : Decidable (Honest sessions s e) := by
  cases e with
  | auth _ id token =>
    exact inferInstanceAs
      (Decidable (token = "" ∨ ∀ u ∈ s.room.realusers, u.id = id → u.token = token))
  | message env id message =>
    cases message with
    | req request =>
      cases request with
      | join info => exact decidableSender sessions s id (OwnJoin sessions env s · info)
      | updateUser info => exact decidableSender sessions s id (fun _ => OwnUpdate sessions s info)
      | _ => exact .isTrue trivial
    | _ => exact .isTrue trivial
  | _ => exact .isTrue trivial

end Decidable

/-! ## Users and their updates -/

/-- What `Genuine` says of a user, the room apart. -/
structure Owned (sessions : Sessions) (u : RoomUser) : Prop where
  userId : u.userId = sessions.userId? u.token
  account : u.user.map (·.id) = sessions.userId? u.token
  session : (sessions.info u.token).isSome = true

variable {sessions : Sessions}

/-- A user with the account of its session has the role of its session. -/
theorem Owned.genuine {u : RoomUser} (h : Owned sessions u) (r : Room) : Genuine sessions r u := by
  refine ⟨h.userId, h.account, ?_⟩
  obtain ⟨session, hsession⟩ := Option.isSome_iff_exists.mp h.session
  refine ⟨session, hsession, ?_⟩
  have hid := h.userId
  have haccount := h.account
  simp only [Sessions.userId?, hsession, Option.bind_some] at hid haccount
  cases session with
  | loggedOut username =>
    have huser : u.user = none := by simpa [SessionInfo.userId?] using haccount
    simp [getRole, getRoleFromSession, isOwner, RoomUser.isLoggedIn, huser, hid,
      SessionInfo.userId?]
  | loggedIn id =>
    obtain ⟨user, huser, rfl⟩ := Option.map_eq_some_iff.mp haccount
    have hne : user.id ≠ 0 := sessions.accountIds u.token user.id hsession
    have howner : r.isOwner u = r.owner.any (fun owner => owner.id = user.id) := by
      cases ho : r.owner with
      | none => simp [isOwner, huser, ho]
      | some owner => simp [isOwner, huser, ho, eq_comm]
    simp only [getRole, getRoleFromSession, howner, huser, Option.bind_some]
    split
    · rfl
    · cases r.roleOfAccount user.id with
      | some role => rfl
      | none => simp [RoomUser.isLoggedIn, hid, SessionInfo.userId?, hne]

/-- An update leaves the id and the token. -/
theorem updateInfo_id_token (env : Env) (u : RoomUser) (info : ClientInfo) :
    (u.updateInfo env info).1.id = u.id ∧ (u.updateInfo env info).1.token = u.token := by
  unfold RoomUser.updateInfo
  dsimp only
  split
  · split <;> exact ⟨rfl, rfl⟩
  · split <;> exact ⟨rfl, rfl⟩

/-- The account after an update: the one that is claimed, none when only a name is, and otherwise
the one before. An account that does not exist is written as an id only. -/
theorem updateInfo_cases (env : Env) (u : RoomUser) (info : ClientInfo) :
    (∃ id, claimedId info = some id ∧ (u.updateInfo env info).1.userId = some id ∧
      ((∃ username, env.username id = some username ∧
          (u.updateInfo env info).1.user = some ⟨id, username⟩) ∨
        (∃ e, (u.updateInfo env info).2 = .error e) ∧ (u.updateInfo env info).1.user = u.user)) ∨
    (claimedId info = none ∧ truthy info.username ≠ none ∧
      (u.updateInfo env info).1.userId = none ∧ (u.updateInfo env info).1.user = none) ∨
    (claimedId info = none ∧ truthy info.username = none ∧
      (u.updateInfo env info).1.userId = u.userId ∧ (u.updateInfo env info).1.user = u.user) := by
  unfold RoomUser.updateInfo claimedId
  cases hclaim : info.userId.filter (· ≠ 0) with
  | some id =>
    have hne : id ≠ 0 := by
      have := (Option.filter_eq_some_iff.mp hclaim).2
      simpa using this
    refine .inl ⟨id, rfl, ?_⟩
    cases hname : env.username id with
    | some username => simp [Env.getUser, hne, hname]
    | none => simp [Env.getUser, hne, hname]
  | none =>
    cases hname : truthy info.username with
    | some username => exact .inr (.inl ⟨rfl, by simp, rfl, rfl⟩)
    | none => exact .inr (.inr ⟨rfl, rfl, rfl, rfl⟩)

theorem Owned.updateInfo {env : Env} {u : RoomUser} {info : ClientInfo} (h : Owned sessions u)
    (hown : match claimedId info with
      | some id => sessions.userId? u.token = some id
      | none => truthy info.username = none ∨ sessions.userId? u.token = none) :
    Owned sessions (u.updateInfo env info).1 := by
  have htoken := (updateInfo_id_token env u info).2
  obtain ⟨id, hclaim, hid, hname⟩ | ⟨hclaim, hname, hid, huser⟩ | ⟨hclaim, hname, hid, huser⟩ :=
    updateInfo_cases env u info
  · rw [hclaim] at hown
    refine ⟨by rw [hid, htoken, hown], ?_, by rw [htoken]; exact h.session⟩
    obtain ⟨username, -, huser⟩ | ⟨-, huser⟩ := hname
    · rw [huser, htoken, hown]
      rfl
    · rw [huser, htoken]
      exact h.account
  · rw [hclaim] at hown
    have hnone := hown.resolve_left hname
    exact ⟨by rw [hid, htoken, hnone], by rw [huser, htoken, hnone]; rfl,
      by rw [htoken]; exact h.session⟩
  · exact ⟨by rw [hid, htoken]; exact h.userId, by rw [huser, htoken]; exact h.account,
      by rw [htoken]; exact h.session⟩

/-- A user that joins with the identity of its session. -/
theorem owned_new {env : Env} {id : ClientId} {token : AuthToken} {info : ClientInfo}
    (hsession : (sessions.info token).isSome = true)
    (hown : claimedId info = sessions.userId? token)
    (hok : ((RoomUser.new id token).updateInfo env info).2 = .ok ()) :
    Owned sessions ((RoomUser.new id token).updateInfo env info).1 := by
  have htoken := (updateInfo_id_token env (RoomUser.new id token) info).2
  have hnew : (RoomUser.new id token).token = token := rfl
  rw [hnew] at htoken
  obtain ⟨id', hclaim, hid, hname⟩ | ⟨hclaim, -, hid, huser⟩ | ⟨hclaim, -, hid, huser⟩ :=
    updateInfo_cases env (RoomUser.new id token) info
  · rw [hclaim] at hown
    refine ⟨by rw [hid, htoken, hown], ?_, by rw [htoken]; exact hsession⟩
    obtain ⟨username, -, huser⟩ | ⟨⟨e, he⟩, -⟩ := hname
    · rw [huser, htoken, ← hown]
      rfl
    · rw [hok] at he
      cases he
  · rw [hclaim] at hown
    exact ⟨by rw [hid, htoken, hown], by rw [huser, htoken, ← hown]; rfl,
      by rw [htoken]; exact hsession⟩
  · rw [hclaim] at hown
    exact ⟨by rw [hid, htoken, ← hown]; rfl, by rw [huser, htoken, ← hown]; rfl,
      by rw [htoken]; exact hsession⟩

/-! ## What requests do to the users -/

/-- Every user of the room satisfies `P`. -/
def AllUsers (P : RoomUser → Prop) (r : Room) : Prop := ∀ u ∈ r.realusers, P u

/-- The users satisfy `P` afterwards if they did before. -/
def Preserves (P : RoomUser → Prop) (r r' : Room) : Prop := AllUsers P r → AllUsers P r'

instance (P : RoomUser → Prop) : IsPreorder Room (Preserves P) where
  refl _ h := h
  trans _ _ _ h h' hr := h' (h hr)

variable {P : RoomUser → Prop} {α : Type}

theorem preserves_of_same {h : RoomM α} (hh : h.Keeps (Handler.SameOn Room.realusers)) :
    h.Keeps (Preserves P) := by
  intro r hr u hu
  have hsame : (h.run r).state.realusers = r.realusers := hh r
  rw [hsame] at hu
  exact hr u hu

theorem mem_replaceFirst {id : ClientId} {u u' : RoomUser} {us : List RoomUser}
    (h : u ∈ replaceFirst id u' us) : u = u' ∨ u ∈ us := by
  induction us with
  | nil => exact .inr h
  | cons v us ih =>
    unfold replaceFirst at h
    split at h
    · obtain h | h := List.mem_cons.mp h
      · exact .inl h
      · exact .inr (List.mem_cons_of_mem _ h)
    · obtain h | h := List.mem_cons.mp h
      · exact .inr (h ▸ List.mem_cons_self)
      · exact (ih h).imp_right (List.mem_cons_of_mem _)

theorem leaveRoom_preserves (context : RoomRequestContext) :
    (leaveRoom context).Keeps (Preserves P) :=
  leaveRoom_keeps (R := Preserves P) (fun _ _ h => h)
    (dropVotes_keeps (R := Preserves P) (fun _ _ h => h) (fun _ h => h))
    (fun _ _ h u hu => h u (List.mem_of_mem_eraseP hu)) context

theorem modify_users {f : Room → Room} {k : Unit → RoomM Unit} {r : Room} (hf : AllUsers P (f r))
    (hk : ∀ a, (k a).Keeps (Preserves P)) : AllUsers P ((Handler.modify f >>= k).run r).state :=
  hk () (f r) hf

/-- A user that joins is the one user that is new. -/
theorem joinRoom_users {env : Env} {info : ClientInfo} {context : RoomRequestContext} {r : Room}
    (hr : AllUsers P r)
    (hjoin : ∀ token, truthy (context.auth.map (·.token)) = some token →
      ((RoomUser.new info.id token).updateInfo env info).2 = .ok () →
        P ((RoomUser.new info.id token).updateInfo env info).1) :
    AllUsers P ((joinRoom env info context).run r).state := by
  unfold joinRoom
  cases htoken : truthy (context.auth.map (·.token)) with
  | none => exact hr
  | some token =>
    dsimp only
    rw [Handler.run_bind, Handler.run_liftExcept]
    cases hres : ((RoomUser.new info.id token).updateInfo env info).2 with
    | error e => exact hr
    | ok _ =>
      have hadded : AllUsers P { r with
          realusers := r.realusers ++ [((RoomUser.new info.id token).updateInfo env info).1] } := by
        intro u hu
        obtain hu | hu := List.mem_append.mp hu
        · exact hr u hu
        · rw [List.mem_singleton.mp hu]
          exact hjoin token htoken hres
      rw [Outcome.andThen_ok]
      dsimp only
      -- the rest only publishes
      refine modify_users ?_ (fun _ => ?_)
      · exact hadded
      exact .bind (publishRoomEvent_keeps _ _ _) (fun _ => .bind .get (fun _ =>
        .bind (.emit _) (fun _ => syncUser_keeps _)))

theorem updateUser_users {env : Env} {info : ClientInfo} {r : Room} (hr : AllUsers P r)
    (hupdate : ∀ u, r.getUser info.id = some u → P (u.updateInfo env info).1) :
    AllUsers P ((updateUser env info).run r).state := by
  unfold updateUser
  rw [Handler.run_bind, Handler.run_get, Outcome.andThen_ok]
  cases hu : r.getUser info.id with
  | none => exact hr
  | some u =>
    have hreplaced : AllUsers P { r with
        realusers := replaceFirst info.id (u.updateInfo env info).1 r.realusers } := by
      intro v hv
      obtain rfl | hv := mem_replaceFirst hv
      · exact hupdate u hu
      · exact hr v hv
    dsimp only
    refine modify_users ?_ (fun _ => ?_)
    · exact hreplaced
    exact .bind (.liftExcept _) (fun _ => syncUser_keeps _)

/-- **What a request does to the users of a room.** -/
theorem processRequest_users {env : Env} {request : RoomRequest} {context : RoomRequestContext}
    {r : Room} (hr : AllUsers P r)
    (hjoin : ∀ info, request = .join info → ∀ token,
      truthy (context.auth.map (·.token)) = some token →
        ((RoomUser.new info.id token).updateInfo env info).2 = .ok () →
          P ((RoomUser.new info.id token).updateInfo env info).1)
    (hupdate : ∀ info, request = .updateUser info → ∀ u, r.getUser info.id = some u →
      P (u.updateInfo env info).1) :
    AllUsers P ((processRequest env request context).run r).state := by
  have hsame : ∀ {handler : RoomM Unit}, handler.Keeps (Handler.SameOn Room.realusers) →
      AllUsers P ((mediated request context handler).run r).state :=
    fun h => preserves_of_same (mediated_keeps h) r hr
  have hstanding : changesStanding request = false →
      AllUsers P ((processRequest env request context).run r).state :=
    fun h => preserves_of_same ((processRequest_standing h env context).part Standing.realusers) r hr
  cases request with
  | join info =>
    rw [processRequest, mediated_unlisted _ rfl]
    exact joinRoom_users hr (hjoin info rfl)
  | updateUser info =>
    rw [processRequest, mediated_unlisted _ rfl]
    exact updateUser_users hr (hupdate info rfl)
  | leave =>
    rw [processRequest, mediated_unlisted _ rfl]
    exact leaveRoom_preserves context r hr
  | promote target role =>
    exact hsame (promoteUser_keeps (promoted_keeps (R := Handler.SameOn Room.realusers)
      (fun _ _ _ => rfl)) target role context)
  | applySettings settings =>
    have hignores : IgnoresSettings (Handler.SameOn Room.realusers) :=
      fun _ _ _ _ _ _ _ _ _ _ _ => rfl
    exact hsame (hignores.applySettings settings context)
  | _ => exact hstanding rfl

/-! ## What clients do to the users -/

/-- The user has the identity of its session, and its token is that of the client with its id. -/
structure Theirs (sessions : Sessions) (clients : List Client) (u : RoomUser) : Prop where
  owned : Owned sessions u
  client : ∀ c ∈ clients, u.id = c.id → c.token = some u.token

theorem Theirs.congr {clients : List Client} {u u' : RoomUser} (h : Theirs sessions clients u)
    (hid : u'.id = u.id) (htoken : u'.token = u.token) (howned : Owned sessions u') :
    Theirs sessions clients u' :=
  ⟨howned, fun c hc hu => by rw [htoken]; exact h.client c hc (hid ▸ hu)⟩

/-- A context comes from a user of the room or from a session. -/
theorem derived_auth {env : Env} {authorization : RoomRequestAuthorization} {r : Room}
    {context : RoomRequestContext} (h : deriveRequestContext env authorization r = .ok context) :
    context.auth = some authorization ∧
      ((∃ client u, authorization.clientId = some client ∧ r.getUser client = some u ∧
          context.role = r.getRole u) ∨
        ∃ session, env.session authorization.token = some session ∧
          context.role = r.getRoleFromSession session) := by
  unfold deriveRequestContext at h
  cases hu : (truthy authorization.clientId).bind r.getUser with
  | some u =>
    rw [hu] at h
    cases h
    obtain ⟨client, hclient, hget⟩ := Option.bind_eq_some_iff.mp hu
    exact ⟨rfl, .inl ⟨client, u, eq_some_of_truthy hclient, hget, rfl⟩⟩
  | none =>
    rw [hu] at h
    simp only [Env.getSessionInfo] at h
    cases hs : env.session authorization.token with
    | none => rw [hs] at h; cases h
    | some session =>
      rw [hs] at h
      cases session with
      | loggedOut username =>
        cases h
        exact ⟨rfl, .inr ⟨_, rfl, rfl⟩⟩
      | loggedIn userId =>
        cases hname : env.getUser userId with
        | error e => simp [hname, bind, Except.bind, Except.map] at h
        | ok user =>
          have hcontext : context = ⟨user.username, r.getRoleFromSession (.loggedIn userId),
              authorization.clientId, some authorization⟩ := by
            simpa [hname, bind, Except.bind, Except.map] using h.symm
          rw [hcontext]
          exact ⟨rfl, .inr ⟨_, rfl, rfl⟩⟩

/-- Who the token's request is processed as has a session for the token. -/
theorem session_of_derived {env : Env} {clients : List Client} {c : Client} {token : AuthToken}
    {r : Room} {context : RoomRequestContext} (hc : c ∈ clients) (htoken : c.token = some token)
    (hr : AllUsers (Theirs sessions clients) r)
    (h : deriveRequestContext (sessions.env env) ⟨token, some c.id⟩ r = .ok context) :
    ∃ session, sessions.info token = some session ∧ context.role = r.getRoleFromSession session := by
  obtain ⟨client, u, hid, hu, hrole⟩ | ⟨session, hsession, hrole⟩ := (derived_auth h).2
  · cases hid
    have hmem : u ∈ r.realusers := List.mem_of_find?_eq_some hu
    have hid : u.id = c.id := by simpa using List.find?_some hu
    have hsame : token = u.token := by
      have := (hr u hmem).client c hc hid
      rw [htoken] at this
      exact Option.some.inj this
    obtain ⟨session, hsession, hgenuine⟩ := ((hr u hmem).owned.genuine r).role
    exact ⟨session, hsame ▸ hsession, hrole.trans hgenuine⟩
  · exact ⟨session, hsession, hrole⟩

/-- An account that does not exist cannot be joined with. -/
theorem updateInfo_unknown {env : Env} {info : ClientInfo} {id : UserId} (u : RoomUser)
    (hclaim : claimedId info = some id) (hname : env.username id = none) :
    (u.updateInfo env info).2 ≠ .ok () := by
  have hne : id ≠ 0 := by simpa using (Option.filter_eq_some_iff.mp hclaim).2
  unfold claimedId at hclaim
  unfold RoomUser.updateInfo
  dsimp only
  rw [hclaim]
  simp [Env.getUser, hne, hname]

/-- An unauthorized request is processed in the context that is derived for it, or not at all. -/
theorem processUnauthorizedRequest_cases (env : Env) (request : RoomRequest) (token : AuthToken)
    (id : ClientId) (r : Room) :
    ∃ client, (client = some id ∨ client = (r.getClientIdFromToken token).or (some id)) ∧
      ((∃ context, deriveRequestContext env ⟨token, client⟩ r = .ok context ∧
          (processUnauthorizedRequest env request ⟨token, some id⟩).run r =
            (processRequest env request context).run r) ∨
        ∃ e, (processUnauthorizedRequest env request ⟨token, some id⟩).run r =
          ⟨r, [], .error e⟩) := by
  have hrun : ∀ client, (Handler.liftExcept (deriveRequestContext env ⟨token, client⟩ r) >>=
      processRequest env request).run r = (processUnauthorizedRequest env request
        ⟨token, some id⟩).run r →
      (∃ context, deriveRequestContext env ⟨token, client⟩ r = .ok context ∧
        (processUnauthorizedRequest env request ⟨token, some id⟩).run r =
          (processRequest env request context).run r) ∨
      ∃ e, (processUnauthorizedRequest env request ⟨token, some id⟩).run r =
        ⟨r, [], .error e⟩ := by
    intro client h
    rw [← h, Handler.run_bind, Handler.run_liftExcept]
    cases hd : deriveRequestContext env ⟨token, client⟩ r with
    | error e => exact .inr ⟨e, rfl⟩
    | ok context => exact .inl ⟨context, rfl, rfl⟩
  cases hid : truthy (some id) with
  | some _ => exact ⟨some id, .inl rfl, hrun _ (by simp [processUnauthorizedRequest, hid])⟩
  | none =>
    exact ⟨(r.getClientIdFromToken token).or (some id), .inr rfl,
      hrun _ (by simp [processUnauthorizedRequest, hid])⟩

/-- Whichever client the request counts as, there is a session for its token. -/
theorem session_of_processed {env : Env} {clients : List Client} {c : Client} {token : AuthToken}
    {r : Room} {context : RoomRequestContext} {client : Option ClientId} (hc : c ∈ clients)
    (htoken : c.token = some token) (hr : AllUsers (Theirs sessions clients) r)
    (hclient : client = some c.id ∨ client = (r.getClientIdFromToken token).or (some c.id))
    (h : deriveRequestContext (sessions.env env) ⟨token, client⟩ r = .ok context) :
    sessions.info token ≠ none := by
  cases hfound : r.realusers.find? (fun u => u.token = token) with
  | some u =>
    have hu : u.token = token := by simpa using List.find?_some hfound
    have hsession := (hr u (List.mem_of_find?_eq_some hfound)).owned.session
    rw [hu] at hsession
    exact Option.isSome_iff_ne_none.mp hsession
  | none =>
    have hid : client = some c.id := by
      obtain h | h := hclient
      · exact h
      · simpa [getClientIdFromToken, hfound] using h
    rw [hid] at h
    obtain ⟨session, hsession, -⟩ := session_of_derived hc htoken hr h
    rw [hsession]
    exact Option.some_ne_none session

/-- **A request of a client leaves every user its own identity** if it brings none, or the right
one. -/
theorem makeRoomRequest_users {env : Env} {s : State} {c : Client} {request : RoomRequest} {r : Room}
    (hc : c ∈ s.clients) (hr : AllUsers (Theirs sessions s.clients) r)
    (hjoin : ∀ info, request = .join info → ∀ token, c.token = some token →
      sessions.info token ≠ none → OwnJoin sessions env s token info)
    (hupdate : ∀ info, request = .updateUser info → ∀ token, c.token = some token →
      sessions.info token ≠ none → OwnUpdate sessions { s with room := r } info) :
    AllUsers (Theirs sessions s.clients)
      ((makeRoomRequest (sessions.env env) c request).run r).state := by
  unfold makeRoomRequest
  cases htoken : c.token with
  | none => exact hr
  | some token =>
    obtain ⟨client, hclient, ⟨context, hcontext, hrun⟩ | ⟨e, hrun⟩⟩ :=
      processUnauthorizedRequest_cases (sessions.env env) request token c.id r
    · have hsession := session_of_processed hc htoken hr hclient hcontext
      rw [hrun]
      refine processRequest_users hr (fun info hreq token' htoken' hok => ?_)
        (fun info hreq u hu => ?_)
      · rw [(derived_auth hcontext).1] at htoken'
        have hsame : token = token' := Option.some.inj (eq_some_of_truthy htoken')
        subst hsame
        obtain ⟨id, hclaim, hname⟩ | ⟨hclaim, hothers⟩ := hjoin info hreq token htoken hsession
        · exact absurd hok (updateInfo_unknown _ hclaim hname)
        · obtain ⟨hid, htok⟩ := updateInfo_id_token (sessions.env env) (RoomUser.new info.id token)
            info
          refine ⟨owned_new (Option.isSome_iff_ne_none.mpr hsession) hclaim hok, fun c' hc' hu => ?_⟩
          rw [htok]
          rw [hid] at hu
          exact hothers c' hc' hu.symm
      · obtain ⟨hid, htok⟩ := updateInfo_id_token (sessions.env env) u info
        have hu' := hr u (List.mem_of_find?_eq_some hu)
        exact hu'.congr hid htok (hu'.owned.updateInfo (hupdate info hreq token htoken hsession u hu))
    · rw [hrun]
      exact hr

/-- What the client manager fills in is what the session says. -/
theorem claimedId_getClientInfo {token : AuthToken} {session : SessionInfo}
    (h : sessions.info token = some session) (c : Client) :
    claimedId (c.getClientInfo session) = sessions.userId? token := by
  cases session with
  | loggedOut username => simp [Client.getClientInfo, claimedId, Sessions.userId?, h,
      SessionInfo.userId?]
  | loggedIn id =>
    have hne := sessions.accountIds token id h
    simp [Client.getClientInfo, claimedId, Sessions.userId?, h, SessionInfo.userId?, hne]

theorem onUserModified_users {env : Env} {s : State} (token : AuthToken) {clients : List Client}
    (hsub : ∀ c ∈ clients, c ∈ s.clients) :
    (onUserModified (sessions.env env) token clients).Keeps
      (Preserves (Theirs sessions s.clients)) := by
  induction clients with
  | nil => exact .pure ()
  | cons c clients ih =>
    have hrest := ih (fun c' hc' => hsub c' (List.mem_cons_of_mem _ hc'))
    have hc := hsub c List.mem_cons_self
    unfold onUserModified
    split
    · next htoken =>
      intro r hr
      rw [Handler.run_bind, Handler.run_liftExcept]
      cases hsession : sessions.info token with
      | none =>
        have herror : (sessions.env env).getSessionInfo token = .error .noSessionInfo := by
          simp [Env.getSessionInfo, Sessions.env, hsession]
        rw [herror]
        exact hr
      | some session =>
        have hok : (sessions.env env).getSessionInfo token = .ok session := by
          simp [Env.getSessionInfo, Sessions.env, hsession]
        rw [hok, Outcome.andThen_ok]
        have hrequest : Preserves (Theirs sessions s.clients) r
            ((makeRoomRequest (sessions.env env) c (.updateUser (c.getClientInfo session))).run
              r).state := by
          intro hr
          refine makeRoomRequest_users hc hr (fun _ h => by cases h) (fun info hinfo _ _ _ u hu => ?_)
          cases hinfo
          -- the user with the client's id has the client's token
          have hid : u.id = c.id := by simpa [Client.getClientInfo_id] using List.find?_some hu
          have hsame := (hr u (List.mem_of_find?_eq_some hu)).client c hc hid
          rw [htoken] at hsame
          cases hsame
          rw [← claimedId_getClientInfo hsession c]
          cases claimedId (c.getClientInfo session) with
          | some id => rfl
          | none => exact .inr rfl
        exact Handler.Keeps.bind_at hrequest (fun _ => hrest) hr
    · exact hrest

/-! ## Runs -/

/-- The invariant: every user has the identity of its session, and the token of its client. -/
def Sound (sessions : Sessions) (s : State) : Prop := AllUsers (Theirs sessions s.clients) s.room

theorem Sound.identified {s : State} (h : Sound sessions s) : Identified sessions s where
  users u hu := (h u hu).owned.genuine s.room
  acting _ hc _ htoken _ _ hcontext := session_of_derived hc htoken h hcontext

theorem mem_of_getClient {s : State} {id : ClientId} {c : Client} (h : getClient s id = some c) :
    c ∈ s.clients ∧ c.id = id :=
  ⟨List.mem_of_find?_eq_some h, by simpa using List.find?_some h⟩

theorem auth_sound {env : Env} {s : State} {c : Client} {token : AuthToken}
    (h : Sound sessions s) (hc : c ∈ s.clients)
    (hown : token = "" ∨ ∀ u ∈ s.room.realusers, u.id = c.id → u.token = token) :
    Sound sessions (auth sessions env s c token) := by
  unfold auth
  split
  · exact h
  · next hne =>
    have hown := hown.resolve_left hne
    -- with the new token, before anything is requested
    have hstored : AllUsers (Theirs sessions (s.clients.map (setToken sessions c.id token)))
        s.room := by
      intro u hu
      refine ⟨(h u hu).owned, fun c' hc' hid => ?_⟩
      obtain ⟨c₀, hc₀, rfl⟩ := List.mem_map.mp hc'
      unfold setToken at hid ⊢
      split at hid
      · next heq => rw [if_pos heq, hown u hu (hid.trans heq)]
      · next heq => rw [if_neg heq]; exact (h u hu).client c₀ hc₀ hid
    dsimp only
    cases hsession : sessions.info token with
    | none => exact hstored
    | some session =>
      have hself : setToken sessions c.id token c = ⟨c.id, some token,
          (sessions.info token).isSome || c.joined⟩ := if_pos rfl
      refine makeRoomRequest_users (s := ⟨s.room, s.clients.map (setToken sessions c.id token)⟩)
        (List.mem_map_of_mem hc) hstored (fun info hinfo token' htoken' _ => ?_)
        (fun _ hinfo => by cases hinfo)
      cases hinfo
      rw [hself] at htoken'
      cases htoken'
      refine .inr ⟨claimedId_getClientInfo hsession _, fun c' hc' hid => ?_⟩
      obtain ⟨c₀, -, rfl⟩ := List.mem_map.mp hc'
      rw [Client.getClientInfo_id, hself] at hid
      unfold setToken at hid ⊢
      split at hid
      · next heq => rw [if_pos heq]
      · next heq => exact absurd hid heq

theorem message_sound {env : Env} {s : State} {id : ClientId} {c : Client}
    {message : ClientMessage} (h : Sound sessions s) (hc : getClient s id = some c)
    (hhonest : Honest sessions s (.message env id message)) :
    AllUsers (Theirs sessions s.clients)
      ((onClientMessage (sessions.env env) s.clients c message).run s.room).state := by
  have hmem := (mem_of_getClient hc).1
  cases message with
  | kickme => exact h
  | status status =>
    refine makeRoomRequest_users hmem h (fun _ hinfo => by cases hinfo)
      (fun info hinfo _ _ _ u _ => ?_)
    cases hinfo
    exact .inl rfl
  | req request =>
    refine makeRoomRequest_users hmem h (fun info hinfo token htoken hsession => ?_)
      (fun info hinfo token htoken hsession => ?_)
    · subst hinfo
      exact hhonest c token hc htoken hsession
    · subst hinfo
      exact hhonest c token hc htoken hsession
  | notify message =>
    unfold onClientMessage
    cases c.token with
    | none => exact h
    | some token =>
      dsimp only
      split
      · exact onUserModified_users token (fun _ hc => hc) s.room h
      · exact h

theorem disconnect_sound {env : Env} {s : State} {c : Client} (h : Sound sessions s) :
    Sound sessions (disconnect sessions env s c) := by
  have hfewer : ∀ r : Room, AllUsers (Theirs sessions s.clients) r →
      AllUsers (Theirs sessions (s.clients.filter (fun c' => c'.id ≠ c.id))) r :=
    fun r hr u hu => ⟨(hr u hu).owned, fun c' hc' => (hr u hu).client c' (List.mem_of_mem_filter hc')⟩
  unfold disconnect
  dsimp only
  split
  · refine hfewer _ ?_
    unfold processRequestUnsafe
    rw [Handler.run_bind, Handler.run_get, Outcome.andThen_ok]
    dsimp only
    rw [Handler.run_bind, Handler.run_liftExcept]
    cases s.room.getUserInfo c.id with
    | error e => exact h
    | ok info =>
      rw [Outcome.andThen_ok]
      exact processRequest_users h (fun _ hinfo => by cases hinfo) (fun _ hinfo => by cases hinfo)
  · exact hfewer _ h

/-- **One step.** -/
theorem step_sound {s s' : State} {e : Event} (h : Sound sessions s)
    (hhonest : Honest sessions s e) (hstep : (machine sessions).step s e = some s') :
    Sound sessions s' := by
  change step sessions s e = some s' at hstep
  cases e with
  | connect id =>
    simp only [step] at hstep
    split at hstep
    · next hfresh =>
      cases hstep
      refine fun u hu => ⟨(h u hu).owned, fun c hc hid => ?_⟩
      obtain hc | hc := List.mem_append.mp hc
      · exact (h u hu).client c hc hid
      · rw [List.mem_singleton.mp hc] at hid
        exact absurd hid (hfresh.2 u hu)
    · cases hstep
  | auth env id token =>
    obtain ⟨c, hc, rfl⟩ := Option.map_eq_some_iff.mp hstep
    obtain ⟨hmem, rfl⟩ := mem_of_getClient hc
    exact auth_sound h hmem hhonest
  | message env id message =>
    obtain ⟨c, hc, rfl⟩ := Option.map_eq_some_iff.mp hstep
    exact message_sound h hc hhonest
  | disconnect env id =>
    obtain ⟨c, -, rfl⟩ := Option.map_eq_some_iff.mp hstep
    exact disconnect_sound h
  | update env =>
    cases hstep
    exact preserves_of_same ((update_standing _).part Standing.realusers) s.room h

/-- **Everybody is who their session says**, in every run whose steps take no identity from what a
client says. -/
theorem identified_throughout (sessions : Sessions) (r : Room) {events : List Event}
    (h : (machine sessions).Along (Honest sessions) (start r) events) :
    (machine sessions).Always (Identified sessions) (start r) events :=
  (Machine.always_of_along (fun _ _ _ => step_sound) (fun _ hu => absurd hu (List.not_mem_nil))
    h).imp (fun _ => Sound.identified)

/-- Account 1 is logged in with one token, and nobody with any other. -/
def oneAccount : Sessions where
  info token := if token = "alice's token" then some (.loggedIn 1) else some (.loggedOut "visitor")
  accountIds token id h := by
    split at h
    · cases h
      decide
    · cases h

/-- The world in which account 1 is there. -/
def aliceExists : Env := { emptyEnv 0 with username := fun id => if id = 1 then some "alice" else none }

/-- A visitor comes in, and takes a name. Alice comes in as well, says who she is, and joins once
more. -/
def visit : List Event :=
  [.connect "c", .auth aliceExists "c" "visitor's token",
    .message aliceExists "c" (.req (.updateUser ⟨"c", some "guest", none, none⟩)),
    .connect "a", .auth aliceExists "a" "alice's token",
    .message aliceExists "a" (.req (.updateUser ⟨"a", none, some 1, none⟩)),
    .message aliceExists "a" (.req (.join ⟨"a", none, some 1, none⟩))]

/-- They are in the room under their own identities. -/
theorem identified_throughout_visit :
    ((machine oneAccount).run (start (Room.new "foo" 0)) visit).map
        (fun s => s.room.realusers.map (fun u => (u.token, u.unregisteredUsername, u.userId))) =
      some [("visitor's token", "guest", none), ("alice's token", "", some 1),
        ("alice's token", "", some 1)] ∧
    (machine oneAccount).Along (Honest oneAccount) (start (Room.new "foo" 0)) visit ∧
      (machine oneAccount).Always (Identified oneAccount) (start (Room.new "foo" 0)) visit := by
  have hhonest : (machine oneAccount).Along (Honest oneAccount) (start (Room.new "foo" 0)) visit := by
    decide +kernel
  exact ⟨by decide +kernel, hhonest, identified_throughout oneAccount (Room.new "foo" 0) hhonest⟩

/-- The visitor says that it is account 1. -/
def impersonation : List Event :=
  [.connect "c", .auth aliceExists "c" "visitor's token",
    .message aliceExists "c" (.req (.updateUser ⟨"c", none, some 1, none⟩))]

/-- **A client can be whoever it says it is.** -/
theorem not_identified_throughout :
    ¬ ∀ (sessions : Sessions) (r : Room) (events : List Event),
      (machine sessions).Always (Identified sessions) (start r) events := by
  intro h
  have hrun : ((machine oneAccount).run (start (Room.new "foo" 0)) impersonation).map
      (fun s => s.room.realusers.map (fun u => (u.token, u.userId))) =
        some [("visitor's token", some 1)] := by
    decide +kernel
  obtain ⟨s, hs, husers⟩ := Option.map_eq_some_iff.mp hrun
  obtain ⟨u, us, hlist⟩ : ∃ u us, s.room.realusers = u :: us := by
    cases hlist : s.room.realusers with
    | nil => simp [hlist] at husers
    | cons u us => exact ⟨u, us, rfl⟩
  have hgenuine := ((h oneAccount (Room.new "foo" 0) impersonation).last hs).users u (by simp [hlist])
  have huser : (u.token = "visitor's token" ∧ u.userId = some 1) ∧ us = [] := by
    simpa [hlist] using husers
  have hid := hgenuine.userId
  rw [huser.1.1, huser.1.2] at hid
  revert hid
  decide +kernel

end OpenTogetherTube.Server.Identity
