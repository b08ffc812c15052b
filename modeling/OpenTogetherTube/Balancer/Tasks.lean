import OpenTogetherTube.Lib.Tasks
import OpenTogetherTube.Balancer.Context

/-!
# The tasks of the balancer

Every entry point of the balancer — a client joining or leaving, a monolith joining or leaving, a
message from a monolith — runs as an asynchronous task that takes the context's lock for short
critical sections and awaits channel sends between them. `Task` lists the points at which such a
task can be suspended, and `resume` is what it does from there to its next suspension:

* at a point named after a critical section it waits for the lock, and then runs that section;
* at a point named `…Send` it waits for a channel send, which settles in one of three ways.

The dispatch loop awaits `join_client` and `join_monolith` in place and spawns a task for each
message of a monolith; a client's leave is handled by a task of its monolith. `balancer.machine`
interleaves all of them freely, which covers every such schedule.

A lookup that the code unwraps ends the task with `TaskEnd.panic` when it finds nothing.
-/

namespace OpenTogetherTube.Balancer

open OpenTogetherTube.Lib

/-- How a task ends. -/
inductive TaskEnd where
  | ok
  | err (e : BalancerError)
  | panic
  deriving DecidableEq, Repr

/-- How a channel send settles: delivered, timed out or found the channel closed
(`SendTimeoutError`), or refused by the serializer (`SerdeError`). -/
inductive SendResult where
  | ok | timeout | serde
  deriving DecidableEq, Repr

/-- The suspension points of the balancer's tasks. -/
inductive Task where
  -- `join_client`
  | joinReserve (c : NewClient)
  | joinSend (c : NewClient) (m : MonolithId) (shouldCreateRoom : Bool)
  | joinRegister (c : NewClient) (m : MonolithId)
  | joinAbandon (c : NewClient) (m : MonolithId) (shouldCreateRoom badMonolith : Bool)
  -- `leave_client`
  | leaveRemove (id : ClientId)
  | leaveSend (id : ClientId) (m : MonolithId)
  | leaveAbandon (m : MonolithId)
  -- `join_monolith`, `leave_monolith`
  | joinMonolith (m : NewMonolith)
  | leaveMonolith (m : MonolithId)
  -- `dispatch_monolith_message`
  | loaded (m : MonolithId) (room : RoomMetadata) (loadEpoch : LoadEpoch)
  | loadedSend (m : MonolithId) (room : RoomName) (conflict : BalancerContext.ConflictAction)
  | unloaded (m : MonolithId) (room : RoomName)
  | gossip (m : MonolithId) (rooms : List GossipRoom)
  | gossipSync (m : MonolithId) (room : GossipRoom) (rooms : List GossipRoom)
      (toRemove : List RoomName)
  | gossipSend (m : MonolithId) (room : RoomName) (conflict : BalancerContext.ConflictAction)
      (rooms : List GossipRoom) (toRemove : List RoomName)
  | gossipDrop (m : MonolithId) (room : RoomName) (rooms : List GossipRoom)
      (toRemove : List RoomName)
  | gossipRemove (m : MonolithId) (room : RoomName) (toRemove : List RoomName)
  | roomMsg (m : MonolithId) (room : RoomName) (client : Option ClientId)
  | roomMsgSend (client : ClientId)
  | kick (client : ClientId)
  | kickSend (client : ClientId)
  deriving DecidableEq, Repr

/-- What a suspended task is resumed with. -/
inductive Answer where
  /-- The lock is free. -/
  | lock
  /-- The lock is free, and `select_monolith` picks this monolith if it is asked. -/
  | lockSelecting (selected : Option MonolithId)
  /-- The lock is free, and the other end of the channel to be written to is open or gone. -/
  | lockHandOver (receiverOpen : Bool)
  /-- The lock is free, and the rooms to remove come out of the hash map in this order. -/
  | lockListing (toRemove : List RoomName)
  /-- The awaited send has settled. -/
  | sent (result : SendResult)
  deriving DecidableEq, Repr

/-- What the tasks share: the context, and everything that was sent to a monolith. -/
structure State where
  ctx : BalancerContext
  outbox : List (MonolithId × MsgB2M)
  deriving DecidableEq

namespace State

def withCtx (s : State) (ctx : BalancerContext) : State := { s with ctx := ctx }

def post (s : State) (m : MonolithId) (msg : MsgB2M) : State :=
  { s with outbox := s.outbox ++ [(m, msg)] }

@[simp] theorem withCtx_ctx (s : State) (ctx : BalancerContext) : (s.withCtx ctx).ctx = ctx := rfl

@[simp] theorem post_ctx (s : State) (m : MonolithId) (msg : MsgB2M) : (s.post m msg).ctx = s.ctx :=
  rfl

end State

/-- Results of a segment of a balancer task. -/
abbrev Segment := Option (State × Progress Task TaskEnd)

/-- Where `select_monolith` may send a room: to one of the filtered monoliths if there is one.
Which one it picks is the selection strategy's business. -/
def Selectable (ctx : BalancerContext) (selected : Option MonolithId) : Bool :=
  match selected with
  | none => ctx.filterMonoliths.isEmpty
  | some m => (ctx.filterMonoliths.map (·.id)).contains m

/-! ## `join_client` -/

/-- Find the room's monolith, or pick one and create the room there. -/
def joinReserve (s : State) (c : NewClient) (selected : Option MonolithId) : Segment :=
  match s.ctx.roomsToMonoliths.get? c.room with
  | some locator =>
    -- `monoliths.get(..).unwrap()` and `rooms().get(..).unwrap()`
    match s.ctx.monoliths.get? locator.monolithId with
    | none => some (s, .done .panic)
    | some m =>
      match m.rooms.get? c.room with
      | none => some (s, .done .panic)
      | some _ => some (s, .waiting (.joinSend c locator.monolithId false))
  | none =>
    if Selectable s.ctx selected then
      match selected with
      | none => some (s, .done (.err .noMonolithsAvailable))
      | some m =>
        match s.ctx.addRoom c.room ⟨m, u32Max⟩ with
        | (ctx, .error e) => some (s.withCtx ctx, .done (.err e))
        | (ctx, .ok ()) =>
          match ctx.monoliths.get? m with
          | none => some (s.withCtx ctx, .done .panic)
          | some _ => some (s.withCtx ctx, .waiting (.joinSend c m true))
    else none

/-- The outcome of sending `B2MJoin`. -/
def joinSend (s : State) (c : NewClient) (m : MonolithId) (shouldCreateRoom : Bool) :
    SendResult → Segment
  | .ok => some (s.post m (.join c.room c.id c.token), .waiting (.joinRegister c m))
  | .timeout => some (s, .waiting (.joinAbandon c m shouldCreateRoom true))
  | .serde =>
    if shouldCreateRoom then some (s, .waiting (.joinAbandon c m true false))
    else some (s, .done (.err .failedToSendJoin))

/-- Register the client, then hand its link over. -/
def joinRegister (s : State) (c : NewClient) (m : MonolithId) (receiverOpen : Bool) : Segment :=
  match s.ctx.monoliths.get? m with
  | none => some (s, .done (.err .monolithNotFound))
  | some mono =>
    let ctx := { s.ctx with
      monoliths := s.ctx.monoliths.set m (mono.addClient c.room c.id)
      clients := s.ctx.clients.set c.id (BalancerClient.new c) }
    some (s.withCtx ctx, .done (if receiverOpen then .ok else .err .receiverClosed))

/-- The join message could not be sent: undo the room, and drop a monolith that does not answer. -/
def joinAbandon (s : State) (c : NewClient) (m : MonolithId) (shouldCreateRoom badMonolith : Bool) :
    Segment :=
  let ctx := if shouldCreateRoom then (s.ctx.removeRoom c.room m).1 else s.ctx
  let ctx := if badMonolith then ctx.removeMonolith m else ctx
  some (s.withCtx ctx, .done (.err .failedToSendJoin))

/-! ## `leave_client` -/

def leaveRemove (s : State) (id : ClientId) : Segment :=
  match s.ctx.clients.get? id with
  | none => some (s, .done (.err .clientNotFoundInContext))
  | some removed =>
    let ctx := { s.ctx with clients := s.ctx.clients.erase id }
    match ctx.roomsToMonoliths.get? removed.room with
    | none => some (s.withCtx ctx, .done .ok)
    | some locator =>
      match ctx.monoliths.get? locator.monolithId with
      | none => some (s.withCtx ctx, .done .ok)
      | some m =>
        let ctx := { ctx with
          monoliths := ctx.monoliths.set locator.monolithId (m.removeClient id) }
        some (s.withCtx ctx, .waiting (.leaveSend id locator.monolithId))

def leaveSend (s : State) (id : ClientId) (m : MonolithId) : SendResult → Segment
  | .ok => some (s.post m (.leave id), .done .ok)
  | .timeout => some (s, .waiting (.leaveAbandon m))
  | .serde => some (s, .done (.err .failedToSendLeave))

def leaveAbandon (s : State) (m : MonolithId) : Segment :=
  some (s.withCtx (s.ctx.removeMonolith m), .done (.err .failedToSendLeave))

/-! ## `join_monolith`, `leave_monolith` -/

/-- The monolith is added only if the receiver of its channel is still there. -/
def joinMonolith (s : State) (m : NewMonolith) (receiverOpen : Bool) : Segment :=
  if receiverOpen then
    some (s.withCtx (s.ctx.addMonolith (BalancerMonolith.new m)), .done .ok)
  else some (s, .done (.err .receiverClosed))

def leaveMonolith (s : State) (m : MonolithId) : Segment :=
  some (s.withCtx (s.ctx.removeMonolith m), .done .ok)

/-! ## `dispatch_monolith_message` -/

/-- `add_or_sync_room_ctx` from a `Loaded` message. -/
def loaded (s : State) (m : MonolithId) (room : RoomMetadata) (loadEpoch : LoadEpoch) : Segment :=
  match s.ctx.syncRoom room m loadEpoch with
  | (ctx, .error e) => some (s.withCtx ctx, .done (.err e))
  | (ctx, .ok none) => some (s.withCtx ctx, .done .ok)
  | (ctx, .ok (some conflict)) => some (s.withCtx ctx, .waiting (.loadedSend m room.name conflict))

/-- Telling a monolith to unload. A rejected load is an error whether or not the message gets
through; a replaced one is not. -/
def unloadSend (s : State) (room : RoomName) :
    BalancerContext.ConflictAction → SendResult → State × Except BalancerError Unit
  | .reject handle, .ok => (s.post handle (.unload room), .error .roomAlreadyLoaded)
  | .reject _, _ => (s, .error .failedToSendUnload)
  | .replace handle, .ok => (s.post handle (.unload room), .ok ())
  | .replace _, _ => (s, .ok ())

def loadedSend (s : State) (room : RoomName) (conflict : BalancerContext.ConflictAction)
    (r : SendResult) : Segment :=
  match unloadSend s room conflict r with
  | (s, .error e) => some (s, .done (.err e))
  | (s, .ok ()) => some (s, .done .ok)

def unloaded (s : State) (m : MonolithId) (room : RoomName) : Segment :=
  match s.ctx.removeRoom room m with
  | (ctx, .error e) => some (s.withCtx ctx, .done (.err e))
  | (ctx, .ok ()) => some (s.withCtx ctx, .done .ok)

/-- Where a gossip message goes on: the next listed room, then the next room to remove. -/
def gossipNext (m : MonolithId) : List GossipRoom → List RoomName → Progress Task TaskEnd
  | room :: rooms, toRemove => .waiting (.gossipSync m room rooms toRemove)
  | [], room :: toRemove => .waiting (.gossipRemove m room toRemove)
  | [], [] => .done .ok

/-- The monolith's rooms that its gossip message does not list. -/
def unlisted (m : BalancerMonolith) (rooms : List GossipRoom) : List RoomName :=
  m.rooms.keys.filter (fun room => ¬ (rooms.any (fun r => r.room.name = room)))

/-- Read off what to remove. The monolith's lookup is unwrapped. -/
def gossip (s : State) (m : MonolithId) (rooms : List GossipRoom) (toRemove : List RoomName) :
    Segment :=
  match s.ctx.monoliths.get? m with
  | none => some (s, .done .panic)
  | some mono =>
    if toRemove.isPerm (unlisted mono rooms) then some (s, gossipNext m rooms toRemove) else none

def gossipSync (s : State) (m : MonolithId) (room : GossipRoom) (rooms : List GossipRoom)
    (toRemove : List RoomName) : Segment :=
  match s.ctx.syncRoom room.room m room.loadEpoch with
  | (ctx, .error _) => some (s.withCtx ctx, .waiting (.gossipDrop m room.room.name rooms toRemove))
  | (ctx, .ok none) => some (s.withCtx ctx, gossipNext m rooms toRemove)
  | (ctx, .ok (some conflict)) =>
    some (s.withCtx ctx, .waiting (.gossipSend m room.room.name conflict rooms toRemove))

def gossipSend (s : State) (m : MonolithId) (room : RoomName)
    (conflict : BalancerContext.ConflictAction) (rooms : List GossipRoom)
    (toRemove : List RoomName) (r : SendResult) : Segment :=
  match unloadSend s room conflict r with
  | (s, .error _) => some (s, .waiting (.gossipDrop m room rooms toRemove))
  | (s, .ok ()) => some (s, gossipNext m rooms toRemove)

/-- `let _ = ctx.remove_room(..)`, after a room that was refused and for each room to remove. -/
def gossipDrop (s : State) (m : MonolithId) (room : RoomName) (rooms : List GossipRoom)
    (toRemove : List RoomName) : Segment :=
  some (s.withCtx (s.ctx.removeRoom room m).1, gossipNext m rooms toRemove)

/-- A message for one client looks the client up; one for the whole room unwraps the monolith, and
fails when nobody listens to the room. -/
def roomMsg (s : State) (m : MonolithId) (room : RoomName) (receiverOpen : Bool) :
    Option ClientId → Segment
  | some client =>
    match s.ctx.clients.get? client with
    | none => some (s, .done (.err .clientNotFound))
    | some _ => some (s, .waiting (.roomMsgSend client))
  | none =>
    match s.ctx.monoliths.get? m with
    | none => some (s, .done .panic)
    | some mono =>
      match mono.rooms.get? room with
      | none => some (s, .done (.err .roomNotFoundOnMonolith))
      | some _ => some (s, .done (if receiverOpen then .ok else .err .failedToSendClient))

def kick (s : State) (client : ClientId) : Segment :=
  match s.ctx.clients.get? client with
  | none => some (s, .done (.err .clientNotFound))
  | some _ => some (s, .waiting (.kickSend client))

/-- A client's channel either takes the message or is closed. -/
def clientSend (s : State) : SendResult → Segment
  | .ok => some (s, .done .ok)
  | _ => some (s, .done (.err .failedToSendClient))

/-! ## All of them -/

/-- One segment of a task. -/
def resume : Task → Answer → State → Segment
  | .joinReserve c, .lockSelecting selected, s => joinReserve s c selected
  | .joinSend c m shouldCreateRoom, .sent r, s => joinSend s c m shouldCreateRoom r
  | .joinRegister c m, .lockHandOver receiverOpen, s => joinRegister s c m receiverOpen
  | .joinAbandon c m shouldCreateRoom badMonolith, .lock, s =>
      joinAbandon s c m shouldCreateRoom badMonolith
  | .leaveRemove id, .lock, s => leaveRemove s id
  | .leaveSend id m, .sent r, s => leaveSend s id m r
  | .leaveAbandon m, .lock, s => leaveAbandon s m
  | .joinMonolith m, .lockHandOver receiverOpen, s => joinMonolith s m receiverOpen
  | .leaveMonolith m, .lock, s => leaveMonolith s m
  | .loaded m room loadEpoch, .lock, s => loaded s m room loadEpoch
  | .loadedSend _ room conflict, .sent r, s => loadedSend s room conflict r
  | .unloaded m room, .lock, s => unloaded s m room
  | .gossip m rooms, .lockListing toRemove, s => gossip s m rooms toRemove
  | .gossipSync m room rooms toRemove, .lock, s => gossipSync s m room rooms toRemove
  | .gossipSend m room conflict rooms toRemove, .sent r, s =>
      gossipSend s m room conflict rooms toRemove r
  | .gossipDrop m room rooms toRemove, .lock, s => gossipDrop s m room rooms toRemove
  | .gossipRemove m room toRemove, .lock, s => gossipDrop s m room [] toRemove
  | .roomMsg m room client, .lockHandOver receiverOpen, s => roomMsg s m room receiverOpen client
  | .roomMsgSend _, .sent r, s => clientSend s r
  | .kick client, .lock, s => kick s client
  | .kickSend _, .sent r, s => clientSend s r
  | _, _, _ => none

/-- What starts a task. -/
inductive Call where
  | joinClient (c : NewClient)
  | leaveClient (id : ClientId)
  | joinMonolith (m : NewMonolith)
  | leaveMonolith (m : MonolithId)
  | loaded (m : MonolithId) (room : RoomMetadata) (loadEpoch : LoadEpoch)
  | unloaded (m : MonolithId) (room : RoomName)
  | gossip (m : MonolithId) (rooms : List GossipRoom)
  | roomMsg (m : MonolithId) (room : RoomName) (client : Option ClientId)
  | kick (m : MonolithId) (client : ClientId)
  deriving DecidableEq, Repr

/-- Every task begins by waiting for the lock. -/
def Call.task : Call → Task
  | .joinClient c => .joinReserve c
  | .leaveClient id => .leaveRemove id
  | .joinMonolith m => .joinMonolith m
  | .leaveMonolith m => .leaveMonolith m
  | .loaded m room loadEpoch => .loaded m room loadEpoch
  | .unloaded m room => .unloaded m room
  | .gossip m rooms => .gossip m rooms
  | .roomMsg m room client => .roomMsg m room client
  | .kick _ client => .kick client

/-- The balancer's tasks. Nothing changes the context from outside. -/
def balancer : Program State Call Task Answer Empty TaskEnd where
  start c s := (s, .waiting c.task)
  resume := resume
  environment e _ := nomatch e

/-- A balancer that has just started, in a region. -/
def init (region : Region) : Pool State Task TaskEnd := Pool.idle ⟨BalancerContext.new region, []⟩

end OpenTogetherTube.Balancer
