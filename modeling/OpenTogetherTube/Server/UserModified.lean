import OpenTogetherTube.Lib.Cursor
import OpenTogetherTube.Lib.Machine
import OpenTogetherTube.Server.Identity

/-!
# Telling the rooms that a user was modified

When somebody logs in or out, or changes their name, every client with their token gets a new session
and its room is told. `onUserModified` goes over the very array that clients are put on when they
connect and taken off when they disconnect, and awaits three things for each client it comes to.

`ReachesAll` is what this is for. A client that holds the token throughout may be missed in two ways:
a client behind the loop disconnects, which moves the next one to where the loop has been, or something
is thrown, which ends the loop. `reachesAll_iff` says that there are no others.

Clients are objects, named by the order in which they connected; a handler keeps hold of one that is
off the array. Where `getRoom` finds a room, the request is made to it.
-/

namespace OpenTogetherTube.Server.UserModified

open OpenTogetherTube.Common OpenTogetherTube.Lib

/-- `Client.auth` lets no empty token through. -/
abbrev Token := { token : AuthToken // token ≠ "" }

/-- A `Client` object. -/
structure Client where
  id : ClientId
  room : String
  token : Option Token
  session : Option SessionInfo
  joined : Bool

def Client.getClientInfo (c : Client) : ClientInfo :=
  match c.session with
  | none => ⟨c.id, none, none, none⟩
  | some (.loggedIn userId) => ⟨c.id, none, some userId, none⟩
  | some (.loggedOut username) => ⟨c.id, some username, none, none⟩

/-- The objects, and those that are on the array. -/
structure Manager where
  clients : List Client
  connections : List Nat
  nodup : connections.Nodup
  below : ∀ i ∈ connections, i < clients.length

namespace Manager

/-- `addClient`, of a new object. -/
def connect (m : Manager) (c : Client) : Manager where
  clients := m.clients ++ [c]
  connections := m.connections ++ [m.clients.length]
  nodup := by
    rw [List.nodup_append]
    refine ⟨m.nodup, List.nodup_singleton _, ?_⟩
    intro i hi j hj
    cases List.mem_singleton.mp hj
    exact Nat.ne_of_lt (m.below i hi)
  below := by
    intro i hi
    rw [List.length_append, List.length_singleton]
    rcases List.mem_append.mp hi with hold | hnew
    · exact Nat.lt_succ_of_lt (m.below i hold)
    · cases List.mem_singleton.mp hnew
      exact Nat.lt_succ_self _

/-- `onClientDisconnect`, as far as the array goes. -/
def disconnect (m : Manager) (i : Nat) : Manager where
  clients := m.clients
  connections := m.connections.erase i
  nodup := m.nodup.erase i
  below := fun j hj => m.below j (List.mem_of_mem_erase hj)

/-- A client's own handlers, and the loop, write to its object. -/
def modify (m : Manager) (i : Nat) (f : Client → Client) : Manager where
  clients := m.clients.modify i f
  connections := m.connections
  nodup := m.nodup
  below := fun j hj => by
    rw [List.length_modify]
    exact m.below j hj

def hasToken (m : Manager) (token : Token) (i : Nat) : Bool :=
  m.clients[i]?.any (fun c => c.token = some token)

end Manager

/-! ## The loop -/

/-- What the loop awaits, for which client. -/
inductive Stage where
  | session (i : Nat)
  | room (i : Nat) (info : ClientInfo)
  | request (i : Nat)
  | finished
  | threw
  deriving DecidableEq

instance (i : Nat) : (stage : Stage) → Decidable (∃ info, stage = .room i info)
  | .room j info =>
    decidable_of_iff (j = i) ⟨fun h => ⟨info, h ▸ rfl⟩, fun ⟨_, h⟩ => (Stage.room.inj h).1⟩
  | .session _ | .request _ | .finished | .threw => isFalse (fun ⟨_, h⟩ => by cases h)

/-- An `UpdateUser` request: the client it is made for, and what is given to the room. -/
structure UpdateRequest where
  client : Nat
  room : String
  token : Token
  info : ClientInfo
  deriving DecidableEq

/-- `refreshed` are the clients that were given a session, and `requests` what rooms were asked. -/
structure State where
  manager : Manager
  position : Nat
  stage : Stage
  refreshed : List Nat
  requests : List UpdateRequest

namespace State

def cursor (s : State) : Cursor Nat := ⟨s.manager.connections, s.position⟩

/-- The head of the loop. -/
def next (token : Token) (s : State) : State :=
  match s.cursor.next? (s.manager.hasToken token) with
  | some (i, position) => { s with position := position, stage := .session i }
  | none => { s with stage := .finished }

/-- Behind the first await: `makeRoomRequest`, to its await. -/
def makeRoomRequest (s : State) (i : Nat) (session : SessionInfo) : State :=
  let manager := s.manager.modify i (fun c => { c with session := some session })
  let s := { s with manager := manager, refreshed := s.refreshed ++ [i] }
  match manager.clients[i]? with
  | none => { s with stage := .threw }
  | some c =>
    match c.token with
    | none => { s with stage := .threw }
    | some _ => { s with stage := .room i c.getClientInfo }

/-- `processUnauthorizedRequest` of the room, which takes the token that the client has by now. -/
def request (s : State) (i : Nat) (info : ClientInfo) : State :=
  match s.manager.clients[i]? with
  | none => { s with stage := .threw }
  | some c =>
    match c.token with
    | none => { s with stage := .threw }
    | some token =>
      { s with stage := .request i, requests := s.requests ++ [⟨i, c.room, token, info⟩] }

end State

/-- What `getRoom` comes to. -/
inductive RoomAnswer where
  | found | notLoaded | throws
  deriving DecidableEq, Repr

/-- What happens at the awaits: to clients, and with what the loop awaits. -/
inductive Event where
  | connect (id : ClientId) (room : String)
  | auth (i : Nat) (token : Token)
  | join (i : Nat) (session : SessionInfo)
  | disconnect (i : Nat)
  /-- No session, or it cannot be read. -/
  | session (result : Option SessionInfo)
  | room (answer : RoomAnswer)
  | request (ok : Bool)

section Loop

variable (token : Token)

def step (s : State) : Event → Option State
  | .connect id room =>
    some { s with manager := s.manager.connect ⟨id, room, none, none, false⟩ }
  | .auth i token' =>
    some { s with manager := s.manager.modify i (fun c => { c with token := some token' }) }
  | .join i session =>
    some { s with manager :=
      s.manager.modify i (fun c => { c with session := some session, joined := true }) }
  | .disconnect i => some { s with manager := s.manager.disconnect i }
  | .session result =>
    match s.stage, result with
    | .session i, some session => some (s.makeRoomRequest i session)
    | .session _, none => some { s with stage := .threw }
    | _, _ => none
  | .room answer =>
    match s.stage, answer with
    | .room i info, .found => some (s.request i info)
    | .room _ _, .notLoaded => some (s.next token)
    | .room _ _, .throws => some { s with stage := .threw }
    | _, _ => none
  | .request ok =>
    match s.stage, ok with
    | .request _, true => some (s.next token)
    | .request _, false => some { s with stage := .threw }
    | _, _ => none

def system : Machine State Event := ⟨step token⟩

/-- A call, to its first await. -/
def onUserModified (m : Manager) : State := State.next token ⟨m, 0, .finished, [], []⟩

/-! ## The specification -/

/-- The call is over. -/
def State.Ended (s : State) : Prop := s.stage = .finished ∨ s.stage = .threw

/-- The client is connected, has joined, and holds the token. -/
def Holds (i : Nat) (s : State) : Prop :=
  i ∈ s.manager.connections ∧
    ∃ c, s.manager.clients[i]? = some c ∧ c.joined = true ∧ c.token = some token

instance (i : Nat) (s : State) : Decidable (Holds token i s) :=
  decidable_of_iff (i ∈ s.manager.connections ∧
      s.manager.clients[i]?.any (fun c => c.joined = true ∧ c.token = some token) = true)
    (and_congr_right fun _ => by simp [Option.any_eq_true])

/-- What the client itself is waiting for does not come: its session, or its room. -/
def OwnFailure (i : Nat) (s : State) : Event → Prop
  | .session result => s.stage = .session i ∧ result = none
  | .room answer => (∃ info, s.stage = .room i info) ∧ answer ≠ .found
  | _ => False

instance (i : Nat) (s : State) : (e : Event) → Decidable (OwnFailure i s e)
  | .session _ => inferInstanceAs (Decidable (_ ∧ _))
  | .room _ => inferInstanceAs (Decidable (_ ∧ _))
  | .connect .. | .auth .. | .join .. | .disconnect _ | .request _ => isFalse id

/-- The client was given a session once, and its room was asked once. -/
structure Updated (i : Nat) (s : State) : Prop where
  refreshed : s.refreshed.count i = 1
  requested : ∃ r, s.requests.filter (fun r => r.client = i) = [r] ∧
    s.manager.clients[i]?.map (·.room) = some r.room

/-- **The purpose**, whatever happens to other clients. -/
def ReachesAll (m : Manager) (events : List Event) : Prop :=
  ∀ s, (system token).run (onUserModified token m) events = some s → s.Ended →
    ∀ i, (system token).Always (Holds token i) (onUserModified token m) events →
      (system token).Along (fun s e => ¬ OwnFailure i s e) (onUserModified token m) events →
        Updated i s

/-- The client is passed over: it moves behind the loop, or the loop ends before it gets there. -/
def Skips (i : Nat) (s : State) : Event → Prop
  | .disconnect j => ¬ s.Ended ∧ j ∈ s.cursor.behind ∧ s.cursor.ahead.head? = some i
  | .session result => result = none ∧ i ∈ s.cursor.ahead
  | .room answer => answer = .throws ∧ i ∈ s.cursor.ahead
  | .request ok => ok = false ∧ i ∈ s.cursor.ahead
  | _ => False

end Loop

/-! ## Where a client stands -/

/-- Nothing was done for the client. -/
def Untouched (i : Nat) (s : State) : Prop :=
  i ∉ s.refreshed ∧ s.requests.filter (fun r => r.client = i) = []

/-- The loop is at the client, and has not made its request. -/
def Current (i : Nat) (s : State) : Prop := s.stage = .session i ∨ ∃ info, s.stage = .room i info

/-- The client will be updated, is being updated, or was. -/
inductive Phase (i : Nat) (s : State) : Prop
  | coming (going : ¬ s.Ended) (ahead : i ∈ s.cursor.ahead) (other : ¬ Current i s)
      (untouched : Untouched i s)
  | session (stage : s.stage = .session i) (passed : i ∉ s.cursor.ahead)
      (untouched : Untouched i s)
  | room (info : ClientInfo) (stage : s.stage = .room i info) (passed : i ∉ s.cursor.ahead)
      (refreshed : s.refreshed.count i = 1)
      (requests : s.requests.filter (fun r => r.client = i) = [])
  | updated (passed : i ∉ s.cursor.ahead) (other : ¬ Current i s) (updated : Updated i s)

/-- The client will not be updated. -/
structure Lost (i : Nat) (s : State) : Prop where
  passed : s.Ended ∨ i ∉ s.cursor.ahead
  other : ¬ Current i s
  untouched : Untouched i s

/-- The client that the loop is at has a token. -/
def HasToken (s : State) : Prop :=
  ∀ i, Current i s → ∃ c token, s.manager.clients[i]? = some c ∧ c.token = some token

section Steps

variable {token : Token} {i k : Nat} {s s' : State}

theorem Updated.not_untouched (h : Updated i s) : ¬ Untouched i s := by
  rintro ⟨hrefreshed, -⟩
  have hcount := h.refreshed
  rw [List.count_eq_zero_of_not_mem hrefreshed] at hcount
  cases hcount

theorem not_current_of_ended (h : s.Ended) : ¬ Current i s := by
  rintro (hstage | ⟨info, hstage⟩) <;> rcases h with hend | hend <;>
    (rw [hstage] at hend; cases hend)

/-- At the end of the call a client was updated, or is lost. -/
theorem Phase.updated_of_ended (h : Phase i s) (hend : s.Ended) : Updated i s := by
  cases h with
  | coming going _ _ _ => exact absurd hend going
  | session stage _ _ => exact absurd (.inl stage) (not_current_of_ended hend)
  | room info stage _ _ _ => exact absurd (.inr ⟨info, stage⟩) (not_current_of_ended hend)
  | updated _ _ updated => exact updated

/-! ### The head of the loop -/

theorem next_cases (token : Token) (s : State) :
    (∃ k m, s.cursor.next? (s.manager.hasToken token) = some (k, m) ∧
        s.next token = { s with position := m, stage := .session k }) ∨
      (s.cursor.next? (s.manager.hasToken token) = none ∧
        s.next token = { s with stage := .finished }) := by
  unfold State.next
  cases hnext : s.cursor.next? (s.manager.hasToken token) with
  | none => exact .inr ⟨rfl, rfl⟩
  | some found => exact .inl ⟨found.1, found.2, rfl, rfl⟩

/-- A client that is ahead and has the token is not passed over by the loop itself. -/
theorem next_phase (htoken : s.manager.hasToken token i = true) (hahead : i ∈ s.cursor.ahead)
    (huntouched : Untouched i s) : Phase i (s.next token) := by
  rcases next_cases token s with ⟨k, m, hnext, heq⟩ | ⟨hnext, -⟩
  · rw [heq]
    have hpassed := Cursor.not_mem_ahead_of_next? s.manager.nodup hnext
    rcases Cursor.mem_ahead_of_next? hnext hahead htoken with rfl | hstill
    · exact .session rfl hpassed huntouched
    · refine .coming ?_ hstill ?_ huntouched
      · rintro (h | h) <;> cases h
      · rintro (h | ⟨info, h⟩) <;> cases h
        exact hpassed hstill
  · exact absurd htoken (Cursor.next?_eq_none hnext i hahead)

/-- The loop does not come to a client that is not ahead. -/
theorem next_passed (token : Token) (hpassed : i ∉ s.cursor.ahead) :
    i ∉ (s.next token).cursor.ahead ∧ ¬ Current i (s.next token) := by
  rcases next_cases token s with ⟨k, m, hnext, heq⟩ | ⟨-, heq⟩
  · rw [heq]
    refine ⟨fun h => hpassed (Cursor.mem_ahead_mono_of_next? hnext h), ?_⟩
    rintro (h | ⟨info, h⟩) <;> cases h
    exact hpassed (Cursor.mem_of_next? hnext)
  · rw [heq]
    refine ⟨hpassed, ?_⟩
    rintro (h | ⟨info, h⟩) <;> cases h

theorem next_untouched : Untouched i (s.next token) ↔ Untouched i s := by
  rcases next_cases token s with ⟨k, m, -, heq⟩ | ⟨-, heq⟩ <;> rw [heq] <;> rfl

theorem next_updated (h : Updated i s) : Updated i (s.next token) := by
  rcases next_cases token s with ⟨k, m, -, heq⟩ | ⟨-, heq⟩ <;> rw [heq] <;>
    exact ⟨h.refreshed, h.requested⟩

theorem next_manager (token : Token) (s : State) : (s.next token).manager = s.manager := by
  rcases next_cases token s with ⟨k, m, -, heq⟩ | ⟨-, heq⟩ <;> rw [heq]

theorem next_hasToken : HasToken (s.next token) := by
  rcases next_cases token s with ⟨k, m, hnext, heq⟩ | ⟨-, heq⟩
  · rw [heq]
    rintro j (h | ⟨info, h⟩) <;> cases h
    have hk := (Cursor.next?_eq_some hnext).1
    unfold Manager.hasToken at hk
    obtain ⟨c, hc, htoken⟩ := Option.any_eq_true _ _ |>.mp hk
    exact ⟨c, token, hc, of_decide_eq_true htoken⟩
  · rw [heq]
    rintro j (h | ⟨info, h⟩) <;> cases h

/-! ### Clients come and go -/

/-- Nothing but the objects and the array changes, and the client's room stays. -/
theorem Phase.congr {m : Manager} (h : Phase i s)
    (hahead : i ∈ ({ s with manager := m } : State).cursor.ahead ↔ i ∈ s.cursor.ahead)
    (hroom : m.clients[i]?.map (·.room) = s.manager.clients[i]?.map (·.room)) :
    Phase i { s with manager := m } := by
  cases h with
  | coming going ahead other untouched => exact .coming going (hahead.mpr ahead) other untouched
  | session stage passed untouched => exact .session stage (fun h => passed (hahead.mp h)) untouched
  | room info stage passed refreshed requests =>
    exact .room info stage (fun h => passed (hahead.mp h)) refreshed requests
  | updated passed other updated =>
    obtain ⟨r, hr, hroom'⟩ := updated.requested
    exact .updated (fun h => passed (hahead.mp h)) other
      ⟨updated.refreshed, r, hr, hroom.trans hroom'⟩

theorem Lost.congr {m : Manager} (h : Lost i s)
    (hahead : i ∈ ({ s with manager := m } : State).cursor.ahead → i ∈ s.cursor.ahead) :
    Lost i { s with manager := m } :=
  ⟨h.passed.imp_right (fun hpassed h => hpassed (hahead h)), h.other, h.untouched⟩

theorem room_modify (m : Manager) (j : Nat) {f : Client → Client} (hf : ∀ c, (f c).room = c.room) :
    (m.modify j f).clients[i]?.map (·.room) = m.clients[i]?.map (·.room) := by
  show (m.clients.modify j f)[i]?.map _ = _
  rw [List.getElem?_modify]
  split
  · rw [Option.map_eq_map, Option.map_map]
    congr 1
    funext c
    exact hf c
  · simp

/-- What is done for other clients does not touch this one. -/
theorem Phase.elsewhere (h : Phase i s) (hnot : ¬ Current i s) (hmanager : s'.manager = s.manager)
    (hposition : s'.position = s.position) (hnot' : ¬ Current i s')
    (hgoing : i ∈ s.cursor.ahead → ¬ s'.Ended)
    (hcount : s'.refreshed.count i = s.refreshed.count i)
    (hrequests : s'.requests.filter (fun r => r.client = i) =
      s.requests.filter (fun r => r.client = i)) : Phase i s' := by
  have hcursor : s'.cursor = s.cursor := by
    unfold State.cursor
    rw [hmanager, hposition]
  cases h with
  | coming going ahead other untouched =>
    refine .coming (hgoing ahead) (hcursor ▸ ahead) hnot' ⟨?_, hrequests.trans untouched.2⟩
    rw [← List.count_eq_zero, hcount]
    exact List.count_eq_zero.mpr untouched.1
  | session stage _ _ => exact absurd (.inl stage) hnot
  | room info stage _ _ _ => exact absurd (.inr ⟨info, stage⟩) hnot
  | updated passed other updated =>
    obtain ⟨r, hr, hroom⟩ := updated.requested
    refine .updated (hcursor ▸ passed) hnot' ⟨hcount.trans updated.refreshed, r, hrequests.trans hr, ?_⟩
    rw [hmanager]
    exact hroom

theorem Lost.elsewhere (h : Lost i s) (hmanager : s'.manager = s.manager)
    (hposition : s'.position = s.position) (hnot' : ¬ Current i s') (hend : s.Ended → s'.Ended)
    (hcount : s'.refreshed.count i = s.refreshed.count i)
    (hrequests : s'.requests.filter (fun r => r.client = i) =
      s.requests.filter (fun r => r.client = i)) : Lost i s' := by
  have hcursor : s'.cursor = s.cursor := by
    unfold State.cursor
    rw [hmanager, hposition]
  refine ⟨h.passed.imp hend (fun hpassed => hcursor ▸ hpassed), hnot', ?_,
    hrequests.trans h.untouched.2⟩
  rw [← List.count_eq_zero, hcount]
  exact List.count_eq_zero.mpr h.untouched.1

/-- An error ends the loop, for those who are ahead. -/
theorem threw_cases (h : Phase i s) (hnot : ¬ Current i s) :
    (i ∉ s.cursor.ahead ∧ Phase i { s with stage := .threw }) ∨
      (i ∈ s.cursor.ahead ∧ Lost i { s with stage := .threw }) := by
  have hend : ({ s with stage := .threw } : State).Ended := .inr rfl
  have hnot' := not_current_of_ended (i := i) hend
  cases h with
  | coming going ahead other untouched => exact .inr ⟨ahead, .inl hend, hnot', untouched⟩
  | session stage _ _ => exact absurd (.inl stage) hnot
  | room info stage _ _ _ => exact absurd (.inr ⟨info, stage⟩) hnot
  | updated passed other updated =>
    exact .inl ⟨passed, .updated passed hnot' ⟨updated.refreshed, updated.requested⟩⟩

theorem Lost.threw (h : Lost i s) : Lost i { s with stage := .threw } :=
  ⟨.inl (.inr rfl), not_current_of_ended (.inr rfl), h.untouched⟩

theorem Phase.next (h : Phase i s) (hnot : ¬ Current i s)
    (htoken : s.manager.hasToken token i = true) : Phase i (s.next token) := by
  cases h with
  | coming going ahead other untouched => exact next_phase htoken ahead untouched
  | session stage _ _ => exact absurd (.inl stage) hnot
  | room info stage _ _ _ => exact absurd (.inr ⟨info, stage⟩) hnot
  | updated passed other updated =>
    obtain ⟨hpassed, hnot'⟩ := next_passed token passed
    exact .updated hpassed hnot' (next_updated updated)

theorem Lost.next (h : Lost i s) (hgoing : ¬ s.Ended) : Lost i (s.next token) := by
  obtain ⟨hpassed, hnot⟩ := next_passed token (h.passed.resolve_left hgoing)
  exact ⟨.inr hpassed, hnot, next_untouched.mpr h.untouched⟩

/-! ### The client that the loop is at -/

theorem makeRoomRequest_eq {c : Client} {t : Token} (session : SessionInfo)
    (hc : s.manager.clients[k]? = some c) (ht : c.token = some t) :
    ∃ info, s.makeRoomRequest k session =
      { s with
        manager := s.manager.modify k (fun c => { c with session := some session })
        refreshed := s.refreshed ++ [k]
        stage := .room k info } := by
  have hmodified : (s.manager.modify k (fun c => { c with session := some session })).clients[k]? =
      some { c with session := some session } := by
    show (s.manager.clients.modify k _)[k]? = _
    rw [List.getElem?_modify_eq, hc]
    rfl
  unfold State.makeRoomRequest
  dsimp only
  rw [hmodified]
  dsimp only
  rw [ht]
  exact ⟨_, rfl⟩

theorem request_eq {c : Client} {t : Token} (info : ClientInfo)
    (hc : s.manager.clients[k]? = some c) (ht : c.token = some t) :
    s.request k info =
      { s with stage := .request k, requests := s.requests ++ [⟨k, c.room, t, info⟩] } := by
  unfold State.request
  rw [hc]
  dsimp only
  rw [ht]

/-! ### What the loop awaits -/

theorem step_session {result : Option SessionInfo}
    (h : step token s (.session result) = some s') :
    ∃ k, s.stage = .session k ∧
      ((∃ session, result = some session ∧ s' = s.makeRoomRequest k session) ∨
        (result = none ∧ s' = { s with stage := .threw })) := by
  unfold step at h
  dsimp only at h
  split at h
  · next k session hstage =>
    cases h
    exact ⟨k, hstage, .inl ⟨session, rfl, rfl⟩⟩
  · next k hstage =>
    cases h
    exact ⟨k, hstage, .inr ⟨rfl, rfl⟩⟩
  · cases h

theorem step_room {answer : RoomAnswer} (h : step token s (.room answer) = some s') :
    ∃ k info, s.stage = .room k info ∧
      ((answer = .found ∧ s' = s.request k info) ∨ (answer = .notLoaded ∧ s' = s.next token) ∨
        (answer = .throws ∧ s' = { s with stage := .threw })) := by
  unfold step at h
  dsimp only at h
  split at h
  · next k info hstage =>
    cases h
    exact ⟨k, info, hstage, .inl ⟨rfl, rfl⟩⟩
  · next k info hstage =>
    cases h
    exact ⟨k, info, hstage, .inr (.inl ⟨rfl, rfl⟩)⟩
  · next k info hstage =>
    cases h
    exact ⟨k, info, hstage, .inr (.inr ⟨rfl, rfl⟩)⟩
  · cases h

theorem step_request {ok : Bool} (h : step token s (.request ok) = some s') :
    ∃ k, s.stage = .request k ∧
      ((ok = true ∧ s' = s.next token) ∨ (ok = false ∧ s' = { s with stage := .threw })) := by
  unfold step at h
  dsimp only at h
  split at h
  · next k hstage =>
    cases h
    exact ⟨k, hstage, .inl ⟨rfl, rfl⟩⟩
  · next k hstage =>
    cases h
    exact ⟨k, hstage, .inr ⟨rfl, rfl⟩⟩
  · cases h

theorem not_ended_of_stage {stage : Stage} (h : s.stage = stage) (hfinished : stage ≠ .finished)
    (hthrew : stage ≠ .threw) : ¬ s.Ended := by
  rintro (hend | hend)
  · exact hfinished (h.symm.trans hend)
  · exact hthrew (h.symm.trans hend)

/-! ### One event -/

/-- Either the client is not passed over and stands as before, or it is, and is lost. -/
def Follows (i : Nat) (s : State) (e : Event) (s' : State) : Prop :=
  (¬ Skips i s e ∧ Phase i s') ∨ (Skips i s e ∧ Lost i s')

theorem lt_of_holds (h : Holds token i s) : i < s.manager.clients.length :=
  s.manager.below i h.1

theorem hasToken_of_holds (h : Holds token i s) : s.manager.hasToken token i = true := by
  obtain ⟨-, c, hc, -, htoken⟩ := h
  unfold Manager.hasToken
  rw [hc]
  exact decide_eq_true htoken

theorem connect_ahead (hi : i < s.manager.clients.length) (c : Client) :
    i ∈ ({ s with manager := s.manager.connect c } : State).cursor.ahead ↔ i ∈ s.cursor.ahead :=
  Cursor.mem_ahead_push_iff (c := s.cursor) (Nat.ne_of_lt hi)

theorem disconnect_follows {j : Nat} (hphase : Phase i s) (hne : i ≠ j) :
    Follows i s (.disconnect j) { s with manager := s.manager.disconnect j } := by
  have hahead : i ∈ s.cursor.ahead →
      (i ∈ ({ s with manager := s.manager.disconnect j } : State).cursor.ahead ↔
        ¬ (j ∈ s.cursor.behind ∧ s.cursor.ahead.head? = some i)) :=
    fun h => Cursor.mem_ahead_remove_iff s.manager.nodup hne h
  by_cases hnext : j ∈ s.cursor.behind ∧ s.cursor.ahead.head? = some i
  · have hi : i ∈ s.cursor.ahead := List.mem_of_head? hnext.2
    cases hphase with
    | coming going ahead other untouched =>
      exact .inr ⟨⟨going, hnext⟩, .inr (fun h => (hahead hi).mp h hnext), other, untouched⟩
    | session _ passed _ => exact absurd hi passed
    | room _ _ passed _ _ => exact absurd hi passed
    | updated passed _ _ => exact absurd hi passed
  · refine .inl ⟨fun hskip => hnext hskip.2, hphase.congr ⟨?_, ?_⟩ rfl⟩
    · exact Cursor.mem_ahead_of_remove (c := s.cursor) (x := j)
    · exact fun hi => (hahead hi).mpr hnext

/-- The loop's own answers, where it is at the client. -/
theorem makeRoomRequest_phase (session : SessionInfo) (hphase : Phase i s)
    (hstage : s.stage = .session k) (htoken : HasToken s) :
    Phase i (s.makeRoomRequest k session) := by
  obtain ⟨c, t, hc, ht⟩ := htoken k (.inl hstage)
  obtain ⟨info, heq⟩ := makeRoomRequest_eq session hc ht
  have hmodified := hphase.congr
    (m := s.manager.modify k (fun c => { c with session := some session })) Iff.rfl
    (room_modify s.manager k (fun _ => rfl))
  rw [heq]
  by_cases hki : k = i
  · subst hki
    cases hphase with
    | coming _ _ other _ => exact absurd (.inl hstage) other
    | session _ passed untouched =>
      refine .room info rfl passed ?_ untouched.2
      rw [List.count_append, List.count_eq_zero.mpr untouched.1, List.count_singleton_self]
    | room info stage _ _ _ =>
      rw [hstage] at stage
      cases stage
    | updated _ other _ => exact absurd (.inl hstage) other
  · have hnot : ¬ Current i s := by
      rintro (h | ⟨info, h⟩) <;> rw [hstage] at h <;> cases h
      exact hki rfl
    refine hmodified.elsewhere hnot rfl rfl ?_ ?_ ?_ rfl
    · rintro (h | ⟨info, h⟩) <;> cases h
      exact hki rfl
    · rintro - (h | h) <;> cases h
    · rw [List.count_append, List.count_singleton, if_neg (by simpa using hki), Nat.add_zero]

theorem request_phase {info : ClientInfo} (hphase : Phase i s) (hstage : s.stage = .room k info)
    (htoken : HasToken s) : Phase i (s.request k info) := by
  obtain ⟨c, t, hc, ht⟩ := htoken k (.inr ⟨info, hstage⟩)
  rw [request_eq info hc ht]
  by_cases hki : k = i
  · subst hki
    cases hphase with
    | coming _ _ other _ => exact absurd (.inr ⟨info, hstage⟩) other
    | session stage _ _ =>
      rw [hstage] at stage
      cases stage
    | room info' _ passed refreshed requests =>
      refine .updated passed ?_ ⟨refreshed, ⟨k, c.room, t, info⟩, ?_, ?_⟩
      · rintro (h | ⟨info, h⟩) <;> cases h
      · rw [List.filter_append, requests, List.nil_append]
        exact List.filter_cons_of_pos (decide_eq_true rfl)
      · rw [hc]
        rfl
    | updated _ other _ => exact absurd (.inr ⟨info, hstage⟩) other
  · have hnot : ¬ Current i s := by
      rintro (h | ⟨info, h⟩) <;> rw [hstage] at h <;> cases h
      exact hki rfl
    refine hphase.elsewhere hnot rfl rfl ?_ ?_ rfl ?_
    · rintro (h | ⟨info, h⟩) <;> cases h
    · rintro - (h | h) <;> cases h
    · rw [List.filter_append, List.filter_cons_of_neg (by simpa using hki), List.filter_nil,
        List.append_nil]

/-- An error that is not the client's own. -/
theorem threw_follows {e : Event} (hphase : Phase i s) (hnot : ¬ Current i s)
    (hskips : Skips i s e ↔ i ∈ s.cursor.ahead) :
    Follows i s e { s with stage := .threw } := by
  unfold Follows
  rw [hskips]
  exact threw_cases hphase hnot

/-- **What a step does to a client that holds the token.** -/
theorem step_follows {e : Event} (htoken : HasToken s) (hold : Holds token i s)
    (hold' : Holds token i s') (hown : ¬ OwnFailure i s e) (hphase : Phase i s)
    (hstep : step token s e = some s') : Follows i s e s' := by
  cases e with
  | connect clientId room =>
    cases hstep
    refine .inl ⟨id, hphase.congr (connect_ahead (lt_of_holds hold) _) ?_⟩
    show (s.manager.clients ++ [_])[i]?.map _ = _
    rw [List.getElem?_append_left (lt_of_holds hold)]
  | auth j token' =>
    cases hstep
    exact .inl ⟨id, hphase.congr Iff.rfl (room_modify s.manager j (fun _ => rfl))⟩
  | join j session =>
    cases hstep
    exact .inl ⟨id, hphase.congr Iff.rfl (room_modify s.manager j (fun _ => rfl))⟩
  | disconnect j =>
    cases hstep
    apply disconnect_follows hphase
    rintro rfl
    exact s.manager.nodup.not_mem_erase hold'.1
  | session result =>
    obtain ⟨k, hstage, ⟨session, rfl, rfl⟩ | ⟨rfl, rfl⟩⟩ := step_session hstep
    · exact .inl ⟨fun h => (by cases h.1), makeRoomRequest_phase session hphase hstage htoken⟩
    · refine threw_follows hphase ?_ ⟨fun h => h.2, fun h => ⟨rfl, h⟩⟩
      rintro (h | ⟨info, h⟩)
      · exact hown ⟨h, rfl⟩
      · rw [hstage] at h
        cases h
  | room answer =>
    obtain ⟨k, info, hstage, hanswer⟩ := step_room hstep
    have hnot : answer ≠ .found → ¬ Current i s := by
      rintro hfailed (h | h)
      · rw [hstage] at h
        cases h
      · exact hown ⟨h, hfailed⟩
    rcases hanswer with ⟨rfl, rfl⟩ | ⟨rfl, rfl⟩ | ⟨rfl, rfl⟩
    · exact .inl ⟨fun h => (by cases h.1), request_phase hphase hstage htoken⟩
    · exact .inl ⟨fun h => (by cases h.1),
        hphase.next (hnot (by decide)) (hasToken_of_holds hold)⟩
    · exact threw_follows hphase (hnot (by decide)) ⟨fun h => h.2, fun h => ⟨rfl, h⟩⟩
  | request ok =>
    obtain ⟨k, hstage, hanswer⟩ := step_request hstep
    have hnot : ¬ Current i s := by
      rintro (h | ⟨info, h⟩) <;> rw [hstage] at h <;> cases h
    rcases hanswer with ⟨rfl, rfl⟩ | ⟨rfl, rfl⟩
    · exact .inl ⟨fun h => (by cases h.1), hphase.next hnot (hasToken_of_holds hold)⟩
    · exact threw_follows hphase hnot ⟨fun h => h.2, fun h => ⟨rfl, h⟩⟩

/-- Whoever is lost stays lost. -/
theorem step_lost {e : Event} (htoken : HasToken s) (hold : Holds token i s)
    (hlost : Lost i s) (hstep : step token s e = some s') : Lost i s' := by
  cases e with
  | connect clientId room =>
    cases hstep
    exact hlost.congr (connect_ahead (lt_of_holds hold) _).mp
  | auth j token' =>
    cases hstep
    exact hlost.congr id
  | join j session =>
    cases hstep
    exact hlost.congr id
  | disconnect j =>
    cases hstep
    exact hlost.congr (Cursor.mem_ahead_of_remove (c := s.cursor) (x := j))
  | session result =>
    obtain ⟨k, hstage, ⟨session, rfl, rfl⟩ | ⟨rfl, rfl⟩⟩ := step_session hstep
    · obtain ⟨c, t, hc, ht⟩ := htoken k (.inl hstage)
      obtain ⟨info, heq⟩ := makeRoomRequest_eq session hc ht
      have hki : k ≠ i := fun h => hlost.other (.inl (h ▸ hstage))
      have hgoing := not_ended_of_stage hstage (by simp) (by simp)
      have hmodified := hlost.congr
        (m := s.manager.modify k (fun c => { c with session := some session })) id
      rw [heq]
      refine hmodified.elsewhere rfl rfl ?_ (fun h => absurd h hgoing) ?_ rfl
      · rintro (h | ⟨info, h⟩) <;> cases h
        exact hki rfl
      · rw [List.count_append, List.count_singleton, if_neg (by simpa using hki), Nat.add_zero]
    · exact hlost.threw
  | room answer =>
    obtain ⟨k, info, hstage, hanswer⟩ := step_room hstep
    have hgoing := not_ended_of_stage hstage (by simp) (by simp)
    rcases hanswer with ⟨rfl, rfl⟩ | ⟨rfl, rfl⟩ | ⟨rfl, rfl⟩
    · obtain ⟨c, t, hc, ht⟩ := htoken k (.inr ⟨info, hstage⟩)
      have hki : k ≠ i := fun h => hlost.other (.inr ⟨info, h ▸ hstage⟩)
      rw [request_eq info hc ht]
      refine hlost.elsewhere rfl rfl ?_ (fun h => absurd h hgoing) rfl ?_
      · rintro (h | ⟨info, h⟩) <;> cases h
      · rw [List.filter_append, List.filter_cons_of_neg (by simpa using hki), List.filter_nil,
          List.append_nil]
    · exact hlost.next hgoing
    · exact hlost.threw
  | request ok =>
    obtain ⟨k, hstage, ⟨rfl, rfl⟩ | ⟨rfl, rfl⟩⟩ := step_request hstep
    · exact hlost.next (not_ended_of_stage hstage (by simp) (by simp))
    · exact hlost.threw

/-- A client that has a token keeps having one. -/
theorem HasToken.modify (h : HasToken s) (j : Nat) {f : Client → Client}
    (hf : ∀ c t, c.token = some t → ∃ t', (f c).token = some t') :
    HasToken { s with manager := s.manager.modify j f } := by
  intro k hk
  obtain ⟨c, t, hc, ht⟩ := h k hk
  by_cases hjk : j = k
  · subst hjk
    obtain ⟨t', ht'⟩ := hf c t ht
    refine ⟨f c, t', ?_, ht'⟩
    show (s.manager.clients.modify j f)[j]? = some (f c)
    rw [List.getElem?_modify_eq, hc]
    rfl
  · refine ⟨c, t, ?_, ht⟩
    show (s.manager.clients.modify j f)[k]? = some c
    simp [hjk, hc]

theorem step_hasToken {e : Event} (h : HasToken s) (hstep : step token s e = some s') :
    HasToken s' := by
  have hthrew : HasToken { s with stage := .threw } :=
    fun k hk => absurd hk (not_current_of_ended (.inr rfl))
  cases e with
  | connect clientId room =>
    cases hstep
    intro k hk
    obtain ⟨c, t, hc, ht⟩ := h k hk
    refine ⟨c, t, ?_, ht⟩
    show (s.manager.clients ++ [_])[k]? = some c
    rw [List.getElem?_append_left (List.getElem?_eq_some_iff.mp hc).1]
    exact hc
  | auth j token' =>
    cases hstep
    exact h.modify j (fun _ _ _ => ⟨token', rfl⟩)
  | join j session =>
    cases hstep
    exact h.modify j (fun _ t ht => ⟨t, ht⟩)
  | disconnect j =>
    cases hstep
    exact h
  | session result =>
    obtain ⟨k, hstage, ⟨session, rfl, rfl⟩ | ⟨rfl, rfl⟩⟩ := step_session hstep
    · obtain ⟨c, t, hc, ht⟩ := h k (.inl hstage)
      obtain ⟨info, heq⟩ := makeRoomRequest_eq session hc ht
      have hmodified := h.modify k (f := fun c => { c with session := some session })
        (fun _ t ht => ⟨t, ht⟩)
      rw [heq]
      rintro j (hj | ⟨info, hj⟩) <;> cases hj
      exact hmodified k (.inl hstage)
    · exact hthrew
  | room answer =>
    obtain ⟨k, info, hstage, ⟨rfl, rfl⟩ | ⟨rfl, rfl⟩ | ⟨rfl, rfl⟩⟩ := step_room hstep
    · obtain ⟨c, t, hc, ht⟩ := h k (.inr ⟨info, hstage⟩)
      rw [request_eq info hc ht]
      rintro j (hj | ⟨info, hj⟩) <;> cases hj
    · exact next_hasToken
    · exact hthrew
  | request ok =>
    obtain ⟨k, hstage, ⟨rfl, rfl⟩ | ⟨rfl, rfl⟩⟩ := step_request hstep
    · exact next_hasToken
    · exact hthrew

/-! ### A run -/

theorem run_lost {events : List Event} (htoken : HasToken s) (hlost : Lost i s)
    (hold : (system token).Always (Holds token i) s events)
    (hrun : (system token).run s events = some s') : Lost i s' := by
  induction events generalizing s with
  | nil =>
    cases hrun
    exact hlost
  | cons e events ih =>
    obtain ⟨u, hstep, hrest⟩ := Machine.run_cons_eq_some.mp hrun
    exact ih (step_hasToken htoken hstep) (step_lost htoken hold.1 hlost hstep) (hold.2 u hstep)
      hrest

/-- At the beginning of a call the whole array is ahead. -/
theorem onUserModified_phase {m : Manager} (hold : Holds token i (onUserModified token m)) :
    Phase i (onUserModified token m) := by
  have hold' : Holds token i ⟨m, 0, .finished, [], []⟩ := by
    obtain ⟨hconnected, hclient⟩ := hold
    unfold onUserModified at hconnected hclient
    rw [next_manager] at hconnected hclient
    exact ⟨hconnected, hclient⟩
  exact next_phase (hasToken_of_holds hold') hold'.1 ⟨List.not_mem_nil, rfl⟩

/-- **What a run does to a client that holds the token throughout.** -/
theorem run_follows {events : List Event} (htoken : HasToken s) (hphase : Phase i s)
    (hold : (system token).Always (Holds token i) s events)
    (hown : (system token).Along (fun s e => ¬ OwnFailure i s e) s events)
    (hrun : (system token).run s events = some s') :
    ((system token).Along (fun s e => ¬ Skips i s e) s events ∧ Phase i s') ∨
      (¬ (system token).Along (fun s e => ¬ Skips i s e) s events ∧ Lost i s') := by
  induction events generalizing s with
  | nil =>
    cases hrun
    exact .inl ⟨trivial, hphase⟩
  | cons e events ih =>
    obtain ⟨u, hstep, hrest⟩ := Machine.run_cons_eq_some.mp hrun
    obtain ⟨hown, hown'⟩ := hown u hstep
    have htoken' := step_hasToken htoken hstep
    rcases step_follows htoken hold.1 (hold.2 u hstep).head hown hphase hstep with
      ⟨hnot, hphase'⟩ | ⟨hskips, hlost⟩
    · rcases ih htoken' hphase' (hold.2 u hstep) hown' hrest with ⟨halong, hend⟩ | ⟨hskipped, hend⟩
      · refine .inl ⟨fun u' hu' => ?_, hend⟩
        cases hstep.symm.trans hu'
        exact ⟨hnot, halong⟩
      · exact .inr ⟨fun halong => hskipped (halong u hstep).2, hend⟩
    · exact .inr ⟨fun halong => (halong u hstep).1 hskips,
        run_lost htoken' hlost (hold.2 u hstep) hrest⟩

end Steps

/-- **Exactly when the user's modification reaches every client**: no client that holds the token
throughout is passed over, in any order of what happens at the awaits. -/
theorem reachesAll_iff (token : Token) (m : Manager) (events : List Event) :
    ReachesAll token m events ↔
      ∀ s, (system token).run (onUserModified token m) events = some s → s.Ended →
        ∀ i, (system token).Always (Holds token i) (onUserModified token m) events →
          (system token).Along (fun s e => ¬ OwnFailure i s e) (onUserModified token m) events →
            (system token).Along (fun s e => ¬ Skips i s e) (onUserModified token m) events := by
  have hfollows : ∀ s, (system token).run (onUserModified token m) events = some s → s.Ended →
      ∀ i, (system token).Always (Holds token i) (onUserModified token m) events →
        (system token).Along (fun s e => ¬ OwnFailure i s e) (onUserModified token m) events →
          (Updated i s ↔
            (system token).Along (fun s e => ¬ Skips i s e) (onUserModified token m) events) := by
    intro s hrun hend i hold hown
    have hstart := onUserModified_phase hold.head
    rcases run_follows next_hasToken hstart hold hown hrun with ⟨halong, hphase⟩ | ⟨hskipped, hlost⟩
    · exact iff_of_true (hphase.updated_of_ended hend) halong
    · exact iff_of_false (fun h => h.not_untouched hlost.untouched) hskipped
  constructor
  · intro h s hrun hend i hold hown
    exact (hfollows s hrun hend i hold hown).mp (h s hrun hend i hold hown)
  · intro h s hrun hend i hold hown
    exact (hfollows s hrun hend i hold hown).mpr (h s hrun hend i hold hown)

/-- The first client leaves while its session is awaited, and the second is passed over. -/
theorem not_reachesAll :
    ¬ ∀ (token : Token) (m : Manager) (events : List Event), ReachesAll token m events := by
  intro h
  let token : Token := ⟨"token", by decide⟩
  let client (id : ClientId) : Client := ⟨id, "room", some token, some (.loggedOut "before"), true⟩
  let m : Manager := ⟨[client "a", client "b", client "c"], [0, 1, 2], by decide, by decide⟩
  let session := some (SessionInfo.loggedIn 1)
  let events : List Event :=
    [.disconnect 0, .session session, .room .found, .request true,
      .session session, .room .found, .request true]
  let run := (system token).run (onUserModified token m) events
  obtain ⟨s, hrun⟩ := Option.isSome_iff_exists.mp (show run.isSome by decide)
  have hfinished : run.map (·.stage) = some .finished := by decide
  have hmissed : run.map (·.refreshed.count 1) = some 0 := by decide
  rw [hrun] at hfinished hmissed
  have hcount := (h token m events s hrun (.inl (Option.some.inj hfinished)) 1
    (by decide) (by decide)).refreshed
  have hzero : s.refreshed.count 1 = 0 := Option.some.inj hmissed
  exact zero_ne_one (hzero.symm.trans hcount)

end OpenTogetherTube.Server.UserModified
