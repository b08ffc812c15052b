import OpenTogetherTube.Common.Permissions
import OpenTogetherTube.Lib.Json
import OpenTogetherTube.Lib.Tasks
import OpenTogetherTube.Server.Room

/-!
# What a frame can do to the process

Clients and balancers send texts. A listener that throws ends the process, and so does a promise that
is rejected with nobody waiting for it. The listeners and the handlers behind them are followed here
from the frame on, whatever it has in it, with every promise that nobody waits for: those of the
handlers themselves, of `onUserModified`, and of the calls inside a room that are not awaited.

A frame is what `JSON.parse` makes of it, and `none` if it throws. What a room is asked comes without
a type, and can leave a room with a speed that is no number, or with no categories; `LoadedRoom` has
what the calls read that are not awaited. A room is in the state that it has by the time its handler
goes on, which is part of the answer. All that only ends in a message, a log entry or a kick is left
out, and a client that is kicked is closed by an event of its own.

`uncaught` is the history of what has ended the process. `survives_iff` says in which runs it stays
empty, and `not_survives_throughout` that it does not in all.
-/

namespace OpenTogetherTube.Server.Frames

open OpenTogetherTube.Common OpenTogetherTube.Lib

/-! ## Surroundings -/

/-- What the code runs on. -/
structure Platform where
  toLowerCase : String → String
  conversions : Conversions
  /-- Whether a counter takes the number as an increment. -/
  counts : Number → Bool
  /-- `video.sponsorblock.enabled`. -/
  sponsorblockEnabled : Bool

abbrev Frame := Option Json

/-! ## Rooms -/

/-- A room, as far as its calls that are not awaited read it. -/
structure LoadedRoom where
  grants : Grants
  queueMode : QueueMode
  /-- There is a current source. -/
  currentSource : Bool
  queueLength : Nat
  isPlaying : Bool
  playbackPosition : Json
  playbackSpeed : Value
  playbackStart : Option Time
  enableVoteSkip : Bool
  votesToSkip : OrderedSet ClientId
  /-- `countEligibleVoters` of its users. -/
  eligibleVoters : Nat
  /-- `none` is `null`. -/
  autoSkipSegmentCategories : Option (List Category)

namespace LoadedRoom

variable (platform : Platform) (r : LoadedRoom)

/-- The speed as a number; it is 1 if it is not there. -/
def speed? : Option Number :=
  match r.playbackSpeed with
  | none => some (.ofNat 1)
  | some speed => speed.toNumber? platform.conversions

/-- `calcDurationFromPlaybackStart`. -/
def calcDurationFromPlaybackStart (now : Time) : Option Number :=
  match r.playbackStart with
  | none => some (.ofNat 0)
  | some start =>
    (speed? platform r).map (fun speed => (Number.finite (((now - start : Int) : ℚ) / 1000)).mul speed)

/-- `realPlaybackPosition` throws nothing. -/
def hasPosition : Bool :=
  !(r.playbackStart.isSome && r.isPlaying) ||
    ((speed? platform r).isSome && (r.playbackPosition.toString? platform.conversions).isSome)

/-- The votes to skip, with the client's. -/
def voteToSkip (context : RoomRequestContext) : OrderedSet ClientId :=
  match truthy context.clientId with
  | some client =>
    if r.votesToSkip.has client then r.votesToSkip.delete client else r.votesToSkip.add client
  | none => r.votesToSkip

/-- `shouldSkip`. -/
def shouldSkip (context : RoomRequestContext) : Bool :=
  !r.enableVoteSkip || (r.voteToSkip context).size ≥ Room.voteSkipThreshold r.eligibleVoters

end LoadedRoom

/-! ### The calls that are not awaited -/

/-- What a request leaves behind, apart from a promise that is awaited. -/
inductive Left where
  | nothing
  /-- A promise that is rejected. -/
  | rejection
  /-- `dequeueNext`, at an await. -/
  | dequeueNext
  deriving DecidableEq, Repr

section Requests

variable (platform : Platform) (r : LoadedRoom)

/-- The end of `dequeueNext`. -/
def afterAdvance : Left :=
  if platform.sponsorblockEnabled && r.autoSkipSegmentCategories.isNone then .rejection else .nothing

/-- `dequeueNext`, with a current source, to its first await. -/
def dequeueNext (now : Time) : Left :=
  match r.calcDurationFromPlaybackStart platform now with
  | none => .rejection
  | some seconds =>
    if platform.counts seconds = false then .rejection
    else if r.queueMode = .dj then .nothing
    else if r.queueMode = .loop ∨ r.queueLength > 0 then .dequeueNext
    else afterAdvance platform r

def skip (context : RoomRequestContext) (now : Time) : Left :=
  if r.currentSource && r.shouldSkip context && r.hasPosition platform then
    dequeueNext platform r now
  else .nothing

/-- `queue.insert`, of a video that is there. -/
def insert (index : Json) : Left :=
  match index.toNumber? platform.conversions with
  | none => .rejection
  | some n =>
    if n.lt (.ofNat 0) || (Number.ofNat r.queueLength).lt n then .rejection else .nothing

/-- The index at which `undo` inserts a video, if it comes to that. -/
def insertedAt (request : Json) : Option Json := do
  let event ← Json.read (request.get? "event") "request"
  let type ← Json.read event "type"
  if Json.isNumber type 6 then
    let additional ← Json.read (request.get? "event") "additional"
    let video ← Json.read additional "video"
    if Json.truthy video then
      let index ← Json.read additional "queueIdx"
      index
    else none
  else none

def undo (request : Json) : Left :=
  match insertedAt request with
  | some index => insert platform r index
  | none => .nothing

/-- `processRequest`. The permission is looked up by the number that the type is, and the handler by
the name of a property. All handlers but these two await what they call, and what they throw is
caught. -/
def processRequest (request : Value) (context : RoomRequestContext) (now : Time) : Left :=
  match request, Json.read request "type" with
  | some message, some type =>
    match Json.text? platform.conversions type with
    | some "3" =>
      if Json.isNumber type 3 && !r.grants.granted context.role "playback.skip" then .nothing
      else skip platform r context now
    | some "12" => undo platform r message
    | _ => .nothing
  | _, _ => .nothing

end Requests

/-! ## The server -/

inductive Kind where
  | direct | balancer
  deriving DecidableEq, Repr

/-- A token, as it was sent. Two objects are one if they came with one frame. -/
structure Token where
  value : Json
  frame : Nat

/-- `===`. -/
def Token.same (t t' : Token) : Bool :=
  match t.value, t'.value with
  | .bool b, .bool b' => b = b'
  | .num n, .num n' => n.same n'
  | .str s, .str s' => s = s'
  | .arr _, .arr _ | .obj _, .obj _ => t.frame = t'.frame
  | _, _ => false

structure Client where
  id : ClientId
  kind : Kind
  room : String
  token : Option Token

/-- How the process was ended. -/
inductive Uncaught where
  | exception | rejection
  deriving DecidableEq, Repr

/-- `clients` are all that there have been, and `connections` are places in it. A balancer's connection
has sent `init` or has not. Rooms have lower case names. -/
structure State where
  clients : List Client
  connections : List Nat
  balancers : List Bool
  rooms : List String
  frames : Nat
  uncaught : List Uncaught

def empty : State := ⟨[], [], [], [], 0, []⟩

namespace State

def fail (s : State) (e : Uncaught) : State := { s with uncaught := s.uncaught ++ [e] }

/-- Nothing has ended the process. -/
def Survives (s : State) : Prop := s.uncaught = []

def load (s : State) (name : String) : State :=
  { s with rooms := if name ∈ s.rooms then s.rooms else name :: s.rooms }

def close (s : State) (i : Nat) : State := { s with connections := s.connections.erase i }

/-- A client that can send frames of its own. -/
def direct? (s : State) (i : Nat) : Option Client :=
  if i ∈ s.connections then s.clients[i]?.filter (fun c => c.kind = .direct) else none

/-- `connections.find(c => c.id === id)`, if it is a balancer's. -/
def balancerClient? (s : State) (id : ClientId) : Option (Nat × Client) :=
  (s.connections.findSome? (fun i => (s.clients[i]?.filter (fun c => c.id = id)).map (fun c => (i, c)))).filter
    (fun found => found.2.kind = .balancer)

/-- `client.token === token`. -/
def hasToken (s : State) (token : Option Token) (i : Nat) : Bool :=
  match s.clients[i]?.map (·.token), token with
  | some none, none => true
  | some (some t), some t' => t.same t'
  | _, _ => false

/-- The first client from a position on that has the token. -/
def next? (s : State) (token : Option Token) (position : Nat) : Option (Nat × Nat) :=
  ((s.connections.zipIdx).drop position).find? (fun entry => s.hasToken token entry.1)

end State

inductive Call where
  | connect (id : ClientId) (room : String)
  | connectBalancer
  | frame (i : Nat) (frame : Frame)
  | balancerFrame (n : Nat) (frame : Frame)

/-- The awaits, with the promise that each belongs to. -/
inductive Task where
  -- `Client.auth`
  | getSessionInfo (i : Nat)
  -- `onClientAuth`; `loaded` if the room was found at once
  | getRoom (i : Nat) (loaded : Bool)
  -- `makeRoomRequest`, in `onClientMessage`
  | deriveRequestContext (i : Nat) (request : Value)
  -- `skip`
  | dequeueNext
  -- `onUserModified`, at a position of `connections`
  | modifiedSession (token : Option Token) (position i : Nat)
  | modifiedRequest (token : Option Token) (position : Nat)
  -- `onBalancerMessage`
  | load (room : String)

inductive Answer where
  | settled | rejected
  | found (room : LoadedRoom)
  | notFound
  | context (room : LoadedRoom) (context : RoomRequestContext) (now : Time)
  | resumed (room : LoadedRoom)

inductive Result where
  | finished | ignored | caught | kicked | uncaught
  deriving DecidableEq, Repr

inductive Change where
  | close (i : Nat)
  | load (room : String)
  | unload (room : String)

abbrev Segment := State × Progress Task Result

def uncaught (s : State) (e : Uncaught) : Segment := (s.fail e, .done .uncaught)

/-! ### Messages of clients -/

section Clients

variable (platform : Platform)

/-- `Client.auth`. What it throws is caught. -/
def auth (s : State) (i : Nat) (c : Client) (token : Value) : Segment :=
  match token with
  | some value =>
    if Json.truthy token then
      ({ s with clients := s.clients.set i { c with token := some ⟨value, s.frames⟩ } },
        .waiting (.getSessionInfo i))
    else (s, .done .kicked)
  | none => (s, .done .kicked)

/-- `onClientAuth`, to its first await. -/
def onClientAuth (s : State) (i : Nat) (c : Client) : Segment :=
  (s, .waiting (.getRoom i (platform.toLowerCase c.room ∈ s.rooms)))

/-- `makeRoomRequest`, to its first await, where what it throws is caught. -/
def makeRoomRequest (s : State) (i : Nat) (c : Client) (request : Value) : Segment :=
  match c.token with
  | none => (s, .done .kicked)
  | some _ =>
    if platform.toLowerCase c.room ∈ s.rooms then (s, .waiting (.deriveRequestContext i request))
    else (s, .done .ignored)

/-- `onUserModified`, from a position of its loop on. -/
def onUserModified (s : State) (token : Option Token) (position : Nat) : Segment :=
  match s.next? token position with
  | some (i, position) => (s, .waiting (.modifiedSession token position i))
  | none => (s, .done .finished)

/-- The request that a status is made into. -/
def statusRequest (c : Client) (status : Value) : Json :=
  .obj [("type", .num (.ofNat 10)),
    ("info", .obj (("id", .str c.id) :: status.toList.map (fun status => ("status", status))))]

/-- `onClientMessage`. Its catch block reads `msg.action` and writes it out, like the log entry about
an unknown action does. -/
def onClientMessage (s : State) (i : Nat) (c : Client) (msg : Json) : Segment :=
  if msg.isNull then uncaught s .rejection
  else
    match Json.string? (msg.get? "action") with
    | some "kickme" => (s, .done .kicked)
    | some "status" => makeRoomRequest platform s i c (some (statusRequest c (msg.get? "status")))
    | some "req" => makeRoomRequest platform s i c (msg.get? "request")
    | some "notify" =>
      if Json.string? (msg.get? "message") = some "usernameChanged" then onUserModified s c.token 0
      else (s, .done .ignored)
    | _ =>
      match Json.text? platform.conversions (msg.get? "action") with
      | some _ => (s, .done .ignored)
      | none => uncaught s .rejection

/-- `DirectClient.onData`. -/
def onData (s : State) (i : Nat) (c : Client) (frame : Frame) : Segment :=
  match frame with
  | none => uncaught s .exception
  | some msg =>
    if msg.isNull then uncaught s .exception
    else if Json.string? (msg.get? "action") = some "auth" then auth s i c (msg.get? "token")
    else onClientMessage platform s i c msg

end Clients

/-! ### Messages of balancers -/

inductive MsgB2M where
  | load (room : String)
  | unload (room : String)
  | join (room : String) (client : ClientId) (token : Value)
  | leave (client : ClientId)
  | client_msg (client_id : ClientId) (payload : Json)
  | init

/-- The payload of a message, by its type. It is read before it is known to have properties. -/
def validatePayload (type : String) (payload : Json) : Option (Option MsgB2M) :=
  match type with
  | "join" => do
    let room ← Json.read payload "room"
    let client ← Json.read payload "client"
    match Json.string? room, Json.string? client with
    | some room, some client => pure (some (.join room client (payload.get? "token")))
    | _, _ => pure none
  | "leave" => do
    let client ← Json.read payload "client"
    pure ((Json.string? client).map .leave)
  | "client_msg" => do
    let client_id ← Json.read payload "client_id"
    let inner ← Json.read payload "payload"
    match Json.string? client_id, inner with
    | some client_id, some inner =>
      pure (if inner.isObject then some (.client_msg client_id inner) else none)
    | _, _ => pure none
  | "load" => do
    let room ← Json.read payload "room"
    pure ((Json.string? room).map .load)
  | "unload" => do
    let room ← Json.read payload "room"
    pure ((Json.string? room).map .unload)
  | "init" => do
    let id ← Json.read payload "id"
    pure ((Json.string? id).map (fun _ => .init))
  | _ => some none

/-- `validateB2M`: it throws, or finds a message or none. -/
def validateB2M (message : Json) : Option (Option MsgB2M) :=
  match Json.string? (message.get? "type"), message.get? "payload" with
  | some type, some payload => if payload.isObject then validatePayload type payload else some none
  | _, _ => some none

section Balancers

variable (platform : Platform)

/-- `onBalancerMessage`. -/
def onBalancerMessage (s : State) : MsgB2M → Segment
  | .load room =>
    if platform.toLowerCase room ∈ s.rooms then (s, .done .finished) else (s, .waiting (.load room))
  | .unload room =>
    if platform.toLowerCase room ∈ s.rooms then
      ({ s with rooms := s.rooms.erase (platform.toLowerCase room) }, .done .finished)
    else uncaught s .rejection
  | .join room client token =>
    let i := s.clients.length
    let c : Client := ⟨client, .balancer, room, none⟩
    auth { s with clients := s.clients ++ [c], connections := s.connections ++ [i] } i c token
  | .leave client =>
    match s.balancerClient? client with
    | some (i, _) => (s.close i, .done .finished)
    | none => (s, .done .ignored)
  | .client_msg client_id payload =>
    match s.balancerClient? client_id with
    | some (i, c) => onClientMessage platform s i c payload
    | none => (s, .done .ignored)
  | .init => (s, .done .finished)

/-- `onSocketMessage`. The first message that is heard is `init`. -/
def onSocketMessage (s : State) (n : Nat) (ready : Bool) (frame : Frame) : Segment :=
  match frame with
  | none => (s, .done .ignored)
  | some message =>
    match validateB2M message with
    | none => uncaught s .exception
    | some none => (s, .done .ignored)
    | some (some message) =>
      if ready then onBalancerMessage platform s message
      else
        match message with
        | .init => ({ s with balancers := s.balancers.set n true }, .done .finished)
        | _ => (s, .done .ignored)

end Balancers

/-! ### Segments -/

section Segments

variable (platform : Platform)

def start (call : Call) (s : State) : Segment :=
  match call with
  | .connect id room =>
    ({ s with
        clients := s.clients ++ [⟨id, .direct, room, none⟩]
        connections := s.connections ++ [s.clients.length] }, .done .finished)
  | .connectBalancer => ({ s with balancers := s.balancers ++ [false] }, .done .finished)
  | .frame i frame =>
    match s.direct? i with
    | some c => onData platform { s with frames := s.frames + 1 } i c frame
    | none => (s, .done .ignored)
  | .balancerFrame n frame =>
    match s.balancers[n]? with
    | some ready => onSocketMessage platform { s with frames := s.frames + 1 } n ready frame
    | none => (s, .done .ignored)

/-- What is left behind is not waited for. -/
def leave (s : State) : Left → Segment
  | .nothing => (s, .done .caught)
  | .rejection => uncaught s .rejection
  | .dequeueNext => (s, .waiting .dequeueNext)

/-- `onUserModified`, when the session is there. -/
def modifiedRequest (s : State) (token : Option Token) (position : Nat) (c : Client) : Segment :=
  match c.token with
  | none => uncaught s .rejection
  | some _ =>
    if platform.toLowerCase c.room ∈ s.rooms then (s, .waiting (.modifiedRequest token position))
    else onUserModified s token (position + 1)

/-- The segments behind the awaits. In `onClientAuth` the room's state is put together, and after
that everything is in a try block. -/
def resume (task : Task) (answer : Answer) (s : State) : Option Segment :=
  match task, answer with
  | .getSessionInfo i, .settled => s.clients[i]?.map (fun c => onClientAuth platform s i c)
  | .getSessionInfo _, .rejected => some (s, .done .kicked)
  | .getRoom i loaded, .found room =>
    s.clients[i]?.map (fun c =>
      let s := if loaded then s else s.load (platform.toLowerCase c.room)
      if room.hasPosition platform then (s, .done .finished) else uncaught s .rejection)
  | .getRoom _ false, .notFound => some (s, .done .kicked)
  | .getRoom _ false, .rejected => some (uncaught s .rejection)
  | .deriveRequestContext _ request, .context room context now =>
    some (leave s (processRequest platform room request context now))
  | .deriveRequestContext _ _, .rejected => some (s, .done .caught)
  | .dequeueNext, .resumed room => some (leave s (afterAdvance platform room))
  | .modifiedSession token position i, .settled =>
    s.clients[i]?.map (fun c => modifiedRequest platform s token position c)
  | .modifiedSession _ _ _, .rejected => some (uncaught s .rejection)
  | .modifiedRequest token position, .settled => some (onUserModified s token (position + 1))
  | .modifiedRequest _ _, .rejected => some (uncaught s .rejection)
  | .load room, .found _ => some (s.load (platform.toLowerCase room), .done .finished)
  | .load _, .notFound => some (s, .done .ignored)
  | .load _, .rejected => some (uncaught s .rejection)
  | _, _ => none

def Change.apply (change : Change) (s : State) : Option State :=
  match change with
  | .close i => some (s.close i)
  | .load room => some (s.load (platform.toLowerCase room))
  | .unload room => some { s with rooms := s.rooms.erase (platform.toLowerCase room) }

/-- The listeners and handlers, under every interleaving. -/
def server : Program State Call Task Answer Change Result where
  start := start platform
  resume := resume platform
  environment := Change.apply platform

end Segments

abbrev Tasks := Pool State Task Result

abbrev Event := PoolEvent Call Answer Change

end OpenTogetherTube.Server.Frames
