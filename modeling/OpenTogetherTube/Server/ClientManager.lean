import OpenTogetherTube.Lib.Tasks
import OpenTogetherTube.Server.Identity
import Mathlib.Logic.Function.Basic

/-!
# The client manager, await by await

A client connects, authenticates, joins its room, sends messages and disconnects. Each of these is
an asynchronous handler, and at every await of one any other may run: those of the same client too.

`clients` are the `Client` objects, which the handlers keep hold of after a client has disconnected.
A balancer's client comes with its token; a direct client sends it, as often as it likes. What a
request does to the users of a room is that a join adds the id in its payload and a leave takes the
client's own id out; that this is what requests do is `processRequest_ids`, `join_ids` and
`leave_ids`. Their other effects, and all messages to clients, are left out. A client that is kicked
disconnects later, or never.

Rooms are named by their folded names, and stay loaded once they are.
-/

namespace OpenTogetherTube.Server.ClientManager

open OpenTogetherTube.Common OpenTogetherTube.Lib

inductive Kind where
  | direct | balancer
  deriving DecidableEq, Repr

/-- A `Client` object. -/
structure Client where
  kind : Kind
  room : String
  token : Option AuthToken
  joined : Bool
  deriving DecidableEq, Repr

/-- The state that the handlers share. `rooms` has the ids of the users of each loaded room. -/
structure State where
  clients : ClientId → Option Client
  connections : List ClientId
  roomJoins : String → List ClientId
  rooms : String → Option (List ClientId)

/-- Nobody has ever connected. -/
def empty : State := ⟨fun _ => none, [], fun _ => [], fun _ => none⟩

namespace State

/-- The users of a room, none if it is not loaded. -/
def realusers (s : State) (room : String) : List ClientId := (s.rooms room).getD []

def setClient (s : State) (id : ClientId) (c : Client) : State :=
  { s with clients := Function.update s.clients id (some c) }

def setJoins (s : State) (room : String) (joins : List ClientId) : State :=
  { s with roomJoins := Function.update s.roomJoins room joins }

def setUsers (s : State) (room : String) (users : List ClientId) : State :=
  { s with rooms := Function.update s.rooms room (some users) }

end State

/-- What arrives. -/
inductive Call where
  | connect (id : ClientId) (room : String)
  /-- `B2MJoin`. -/
  | join (id : ClientId) (room : String) (token : AuthToken)
  | auth (id : ClientId) (token : AuthToken)
  | message (id : ClientId) (msg : Identity.ClientMessage)
  | disconnect (id : ClientId)

/-- The awaits. -/
inductive Task where
  -- `Client.auth`, `onClientAuth`
  | getSessionInfo (id : ClientId)
  | getRoom (id : ClientId)
  -- `makeRoomRequest`, `processUnauthorizedRequest`
  | requestGetRoom (id : ClientId) (request : RoomRequest)
  | deriveContext (id : ClientId) (request : RoomRequest)
  -- `joinRoom`, `leaveRoom`
  | updateInfo (id user : ClientId)
  | publishLeave (id : ClientId)
  -- `onClientDisconnect`
  | leaveGetRoom (id : ClientId)

/-- The client that a handler was started for. -/
def Task.id : Task → ClientId
  | .getSessionInfo id | .getRoom id | .requestGetRoom id _ | .deriveContext id _
  | .updateInfo id _ | .publishLeave id | .leaveGetRoom id => id

inductive Answer where
  | settled | rejected
  /-- `getRoom` has found or loaded the room, or there is no such room. -/
  | room (found : Bool)
  deriving DecidableEq, Repr

inductive Result where
  | finished | ignored | kicked | failed
  deriving DecidableEq, Repr

/-- A segment's outcome. -/
abbrev Outcome := State × Progress Task Result

/-! ## Segments -/

/-- `Client.auth`. -/
def auth (s : State) (id : ClientId) (c : Client) (token : AuthToken) : Outcome :=
  if token = "" then (s, .done .kicked)
  else (s.setClient id { c with token := some token }, .waiting (.getSessionInfo id))

/-- `onClientAuth`, behind its first await: the client is listed, and asks the room to join it. -/
def listClient (s : State) (id : ClientId) (c : Client) : Outcome :=
  (s.setJoins c.room (s.roomJoins c.room ++ [id]),
    .waiting (.requestGetRoom id (.join ⟨id, none, none, none⟩)))

/-- `onClientMessage`. Only requests reach the lists of users; an update of a user, which is what a
status makes, is a request like others. -/
def onClientMessage (s : State) (id : ClientId) (c : Client) : Identity.ClientMessage → Outcome
  | .req request =>
    match c.token with
    | some _ => (s, .waiting (.requestGetRoom id request))
    | none => (s, .done .kicked)
  | .kickme => (s, .done .kicked)
  | .status _ | .notify _ => (s, .done .finished)

/-- `onClientDisconnect`, to its first await. -/
def onClientDisconnect (s : State) (id : ClientId) (c : Client) : Outcome :=
  let s := if id ∈ s.connections then
    { s.setJoins c.room ((s.roomJoins c.room).erase id) with
      connections := s.connections.erase id }
    else s
  if c.joined then (s, .waiting (.leaveGetRoom id)) else (s, .done .ignored)

/-- `leaveRoom`, to its first await. -/
def leaveRoom (s : State) (id : ClientId) (c : Client) : Outcome :=
  if id ∈ s.realusers c.room then (s, .waiting (.publishLeave id)) else (s, .done .failed)

/-- A handler starts. Ids are never used twice. -/
def start (call : Call) (s : State) : Outcome :=
  match call with
  | .connect id room =>
    match s.clients id with
    | none =>
      ({ s.setClient id ⟨.direct, room, none, false⟩ with connections := s.connections ++ [id] },
        .done .finished)
    | some _ => (s, .done .ignored)
  | .join id room token =>
    match s.clients id with
    | none =>
      let c : Client := ⟨.balancer, room, none, false⟩
      auth { s.setClient id c with connections := s.connections ++ [id] } id c token
    | some _ => (s, .done .ignored)
  | .auth id token =>
    match s.clients id with
    | some c =>
      if id ∈ s.connections ∧ c.kind = .direct then auth s id c token else (s, .done .ignored)
    | none => (s, .done .ignored)
  | .message id msg =>
    match s.clients id with
    | some c => if id ∈ s.connections then onClientMessage s id c msg else (s, .done .ignored)
    | none => (s, .done .ignored)
  | .disconnect id =>
    match s.clients id with
    | some c => onClientDisconnect s id c
    | none => (s, .done .ignored)

/-- The segment of a client behind an await. -/
def resumeClient (s : State) (c : Client) (task : Task) (answer : Answer) : Option Outcome :=
  match task, answer with
  | .getSessionInfo _, .rejected => some (s, .done .kicked)
  | .getSessionInfo id, .settled =>
    some (s.setClient id { c with joined := true }, .waiting (.getRoom id))
  | .getRoom id, .room found =>
    match s.rooms c.room with
    | some _ => if found then some (listClient s id c) else none
    | none =>
      if found then some (listClient (s.setUsers c.room []) id c) else some (s, .done .kicked)
  | .getRoom _, .rejected => some (s, .done .failed)
  | .requestGetRoom id request, .settled =>
    match s.rooms c.room with
    | some _ => some (s, .waiting (.deriveContext id request))
    | none => some (s, .done .failed)
  | .deriveContext _ _, .rejected => some (s, .done .failed)
  | .deriveContext id request, .settled =>
    match request with
    | .join info => some (s, .waiting (.updateInfo id info.id))
    | .leave => some (leaveRoom s id c)
    | _ => some (s, .done .finished)
  | .updateInfo _ _, .rejected => some (s, .done .failed)
  | .updateInfo _ user, .settled =>
    some (s.setUsers c.room (s.realusers c.room ++ [user]), .done .finished)
  | .publishLeave id, .settled =>
    some (s.setUsers c.room ((s.realusers c.room).erase id), .done .finished)
  | .leaveGetRoom id, .settled =>
    match s.rooms c.room with
    | some _ => some (leaveRoom s id c)
    | none => some (s, .done .failed)
  | _, _ => none

def resume (task : Task) (answer : Answer) (s : State) : Option Outcome :=
  (s.clients task.id).bind (fun c => resumeClient s c task answer)

/-- The handlers, under every interleaving of their awaits. -/
def clientManager : Program State Call Task Answer Empty Result where
  start := start
  resume := resume
  environment e _ := nomatch e

abbrev Handlers := Pool State Task Result

abbrev Event := PoolEvent Call Answer Empty

/-! ## The ids behind the requests -/

section Ids

open Room

/-- The ids of the users of a room, as they are listed here. -/
def ids (r : Room) : List ClientId := r.realusers.map (·.id)

theorem ids_of_realusers {α : Type} {h : RoomM α} (hh : h.Keeps (Handler.SameOn Room.realusers)) :
    h.Keeps (Handler.SameOn ids) :=
  hh.part (List.map (·.id))

theorem map_id_replaceFirst {id : ClientId} {u' : RoomUser} (hid : u'.id = id)
    (us : List RoomUser) : (replaceFirst id u' us).map (·.id) = us.map (·.id) := by
  induction us with
  | nil => rfl
  | cons u us ih =>
    unfold replaceFirst
    split
    next hu => rw [List.map_cons, List.map_cons, hid, hu]
    · rw [List.map_cons, List.map_cons, ih]

theorem updateUser_ids (env : Env) (info : ClientInfo) :
    (updateUser env info).Keeps (Handler.SameOn ids) := by
  refine .bind .get (fun r => ?_)
  cases hu : r.getUser info.id with
  | none => exact .pure ()
  | some u =>
    refine .bind (.modify (fun r => ?_)) (fun _ => .bind (.liftExcept _) (fun _ => syncUser_keeps _))
    have hid : u.id = info.id := by simpa using List.find?_some hu
    exact map_id_replaceFirst ((Identity.updateInfo_id_token env u info).1.trans hid) r.realusers

/-- **A request that is neither a join nor a leave changes no id.** -/
theorem processRequest_ids {request : RoomRequest} (hjoin : ∀ info, request ≠ .join info)
    (hleave : request ≠ .leave) (env : Env) (context : RoomRequestContext) :
    (processRequest env request context).Keeps (Handler.SameOn ids) := by
  have hstanding : changesStanding request = false →
      (processRequest env request context).Keeps (Handler.SameOn ids) :=
    fun h => ids_of_realusers ((processRequest_standing h env context).part Standing.realusers)
  cases request with
  | join info => exact absurd rfl (hjoin info)
  | leave => exact absurd rfl hleave
  | updateUser info => exact mediated_keeps (updateUser_ids env info)
  | promote target role =>
    exact ids_of_realusers (mediated_keeps (promoteUser_keeps
      (promoted_keeps (R := Handler.SameOn Room.realusers) (fun _ _ _ => rfl)) target role context))
  | applySettings settings =>
    have hignores : IgnoresSettings (Handler.SameOn Room.realusers) :=
      fun _ _ _ _ _ _ _ _ _ _ _ => rfl
    exact ids_of_realusers (mediated_keeps (hignores.applySettings settings context))
  | _ => exact hstanding rfl

theorem ids_removeUser (client : ClientId) (r : Room) :
    ids (r.removeUser client) = (ids r).erase client := by
  show (r.realusers.eraseP (fun u => u.id = client)).map (·.id) = (r.realusers.map (·.id)).erase client
  rw [List.erase_eq_eraseP', List.eraseP_map]
  congr 2

end Ids

end OpenTogetherTube.Server.ClientManager

namespace OpenTogetherTube.Server.Room

open OpenTogetherTube.Common OpenTogetherTube.Lib ClientManager

/-! ### Joins and leaves -/

/-- A join goes through: it has a token, and its account is found. -/
def joins (env : Env) (info : ClientInfo) (context : RoomRequestContext) : Bool :=
  match truthy (context.auth.map (·.token)) with
  | none => false
  | some token => ((RoomUser.new info.id token).updateInfo env info).2.isOk

/-- What a user that has joined is followed by: messages only. -/
def welcome (env : Env) (info : ClientInfo) (context : RoomRequestContext) : RoomM Unit := do
  publishRoomEvent (.join info) context .none
  let r ← Handler.get
  Handler.emit (.syncPosition (r.realPlaybackPosition env.now))
  syncUser info.id

theorem state_welcome (env : Env) (info : ClientInfo) (context : RoomRequestContext) (r : Room) :
    ((welcome env info context).run r).state = r := by
  have hkeeps : (welcome env info context).Keeps (Handler.SameOn id) :=
    .bind (publishRoomEvent_keeps _ _ _) (fun _ => .bind .get (fun _ =>
      .bind (.emit _) (fun _ => syncUser_keeps _)))
  exact hkeeps r

/-- A user is added at the end. -/
def addUser (r : Room) (u : RoomUser) : Room := { r with realusers := r.realusers ++ [u] }

/-- **A join** adds a user and welcomes it, or does nothing. -/
theorem run_joinRoom_cases (env : Env) (info : ClientInfo) (context : RoomRequestContext) (r : Room) :
    (joins env info context = false ∧ ∃ e, (joinRoom env info context).run r = ⟨r, [], .error e⟩) ∨
    (joins env info context = true ∧ ∃ u : RoomUser, u.id = info.id ∧
      (joinRoom env info context).run r = (welcome env info context).run (r.addUser u)) := by
  unfold joins joinRoom
  cases truthy (context.auth.map (·.token)) with
  | none => exact .inl ⟨rfl, .noAuthToken, rfl⟩
  | some token =>
    have hid := (Identity.updateInfo_id_token env (RoomUser.new info.id token) info).1
    dsimp only
    generalize (RoomUser.new info.id token).updateInfo env info = updated at hid ⊢
    obtain ⟨u, result⟩ := updated
    cases result with
    | error e => exact .inl ⟨rfl, e, rfl⟩
    | ok _ => exact .inr ⟨rfl, u, hid, rfl⟩

theorem joinRoom_cases (env : Env) (info : ClientInfo) (context : RoomRequestContext) (r : Room) :
    (joins env info context = false ∧ ((joinRoom env info context).run r).state = r) ∨
    (joins env info context = true ∧ ∃ u : RoomUser, u.id = info.id ∧
      ((joinRoom env info context).run r).state = { r with realusers := r.realusers ++ [u] }) := by
  rcases run_joinRoom_cases env info context r with ⟨hjoins, e, hrun⟩ | ⟨hjoins, u, hid, hrun⟩
  · exact .inl ⟨hjoins, by rw [hrun]⟩
  · refine .inr ⟨hjoins, u, hid, ?_⟩
    rw [hrun, state_welcome]
    rfl

/-- Where a leave of a client that is there leaves the room. -/
def left (r : Room) (client : ClientId) : Room :=
  let r := if r.enableVoteSkip then r.setVotesToSkip (r.votesToSkip.delete client) else r
  (r.dropVotes client).removeUser client

theorem getUserInfo_cases (r : Room) (client : ClientId) :
    (client ∈ ids r ∧ ∃ info, r.getUserInfo client = .ok info) ∨
    (client ∉ ids r ∧ r.getUserInfo client = .error .clientNotFound) := by
  cases hu : r.getUser client with
  | some u =>
    have hid : u.id = client := by simpa using List.find?_some hu
    have hmem : u ∈ r.realusers := List.mem_of_find?_eq_some hu
    exact .inl ⟨List.mem_map.mpr ⟨u, hmem, hid⟩, r.userInfo u, getUserInfo_of_getUser hu⟩
  | none =>
    refine .inr ⟨fun hmem => ?_, getUserInfo_of_no_user hu⟩
    obtain ⟨u, hmem, hid⟩ := List.mem_map.mp hmem
    have hnone := List.find?_eq_none.mp hu u hmem
    simp [hid] at hnone

/-- **A leave** takes a client that is there out, or changes nothing. -/
theorem leaveRoom_cases (context : RoomRequestContext) (r : Room) :
    (∃ client, context.clientId = some client ∧ client ∈ ids r ∧
      ((leaveRoom context).run r).state = r.left client) ∨
    ((∀ client, context.clientId = some client → client ∉ ids r) ∧
      ((leaveRoom context).run r).state = r) := by
  unfold leaveRoom
  cases hc : context.clientId with
  | none => exact .inr ⟨fun client h => (by cases h), rfl⟩
  | some client =>
    rcases r.getUserInfo_cases client with ⟨hmem, info, hinfo⟩ | ⟨hmem, hinfo⟩
    · refine .inl ⟨client, rfl, hmem, ?_⟩
      simp only [publishRoomEvent, hc, Handler.run_bind, Handler.run_get, Outcome.andThen_ok,
        Handler.run_liftExcept, hinfo, Handler.run_emit, Handler.run_modify]
      rfl
    · refine .inr ⟨fun other h => ?_, ?_⟩
      · obtain rfl := Option.some.inj h
        exact hmem
      · simp only [Handler.run_bind, Handler.run_get, Outcome.andThen_ok, Handler.run_liftExcept,
          hinfo, Outcome.andThen_error]

theorem dropVotes_realusers (r : Room) (client : ClientId) :
    (r.dropVotes client).realusers = r.realusers :=
  dropVotes_keeps (R := Handler.SameOn Room.realusers) (fun _ _ => rfl) (fun _ => rfl) r client

theorem left_ids (r : Room) (client : ClientId) :
    ids (r.left client) = (ids r).erase client := by
  unfold left
  dsimp only
  rw [ids_removeUser, ids, dropVotes_realusers]
  split <;> rfl

/-- A join adds the id in its payload, or fails. -/
theorem join_ids (env : Env) (info : ClientInfo) (context : RoomRequestContext) (r : Room) :
    ids ((joinRoom env info context).run r).state = ids r ∨
      ids ((joinRoom env info context).run r).state = ids r ++ [info.id] := by
  rcases joinRoom_cases env info context r with ⟨-, h⟩ | ⟨-, u, hid, h⟩
  · exact .inl (congrArg ids h)
  · right
    rw [h, ids, List.map_append, List.map_singleton, hid, ids]

/-- A leave takes the client's id out, or fails. -/
theorem leave_ids (context : RoomRequestContext) (r : Room) :
    ids ((leaveRoom context).run r).state = ids r ∨ ∃ client ∈ context.clientId,
      ids ((leaveRoom context).run r).state = (ids r).erase client := by
  rcases leaveRoom_cases context r with ⟨client, hclient, -, h⟩ | ⟨-, h⟩
  · exact .inr ⟨client, hclient, h ▸ left_ids r client⟩
  · exact .inl (congrArg ids h)

end OpenTogetherTube.Server.Room
