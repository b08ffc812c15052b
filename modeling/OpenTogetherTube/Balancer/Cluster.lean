import OpenTogetherTube.Balancer.Network
import OpenTogetherTube.Server.RoomManager

/-!
# A balancer and its monoliths

The balancer is the program of `Balancer.Tasks`, and each monolith runs the room manager of
`Server.RoomManager`. What they send each other puts them together: for a client who joins, the balancer
sends a `B2MJoin`, and the monolith reads the client's session and loads the room; a room that is loaded
is reported; a report may make the balancer tell a monolith to unload a room, and that is reported
again. Along with whatever it does, a monolith sends messages to its clients, and those it kicks leave
their rooms.

The dispatcher of the balancer takes up new clients and monoliths, one after the other, and reads what
monoliths send. A panic of `join_client` is its end. The end of a monolith is a promise that is rejected
and that nobody waits for.

What redis, the database and the channels answer, what there is to know about a room, and which clients
get messages comes from outside. A step that everybody's work goes on with is `Internal`; the other ones
are what clients and monoliths do by themselves.
-/

namespace OpenTogetherTube.Balancer

open OpenTogetherTube.Lib
open Gossip (MsgM2B sentTo)

namespace Cluster

/-! ## What monoliths send -/

/-- A message of a monolith, on its way to the balancer. -/
inductive Frame where
  | msg (message : MsgM2B)
  /-- The balancer cannot read it: a room has no epoch, or a kick has no code. -/
  | unreadable
  /-- The connection is closed. -/
  | closed
  deriving DecidableEq, Repr

/-- The task that the dispatcher starts. -/
def Frame.call (m : MonolithId) : Frame → Option Call
  | .msg message => some (message.call m)
  | .unreadable => none
  | .closed => some (.leaveMonolith m)

/-- Messages to clients. -/
inductive Chat where
  | roomMsg (room : RoomName) (client : Option ClientId)
  | kick (client : ClientId)
  | unreadable
  deriving DecidableEq, Repr

def Chat.frame : Chat → Frame
  | .roomMsg room client => .msg (.roomMsg room client)
  | .kick client => .msg (.kick client)
  | .unreadable => .unreadable

/-- What `onRoomLoad` sends: nothing if the room is gone again. -/
inductive LoadReport where
  | gone
  | unreadable
  | loaded (room : RoomMetadata) (loadEpoch : LoadEpoch)
  deriving DecidableEq, Repr

def LoadReport.frames : LoadReport → List Frame
  | .gone => []
  | .unreadable => [.unreadable]
  | .loaded room loadEpoch => [.msg (.loaded room loadEpoch)]

/-- The awaits at the end of `addRoom`, which emits that a room was loaded. -/
def loads : Server.RoomManager.Task → Bool
  | .redisIncr _ _ | .redisSet _ => true
  | _ => false

/-- What the balancer is told when a call of the room manager ends. -/
def reports (load : Bool) (report : LoadReport) :
    Progress Server.RoomManager.Task Server.RoomManager.Result → List Frame
  | .waiting _ | .done .rejected => []
  | .done (.unload (.unloaded room)) => [.msg (.unloaded (.ofString room.name))]
  | .done _ => if load then report.frames else []

/-! ## Monoliths -/

/-- What a monolith waits for. -/
inductive Chore where
  /-- `getSessionInfo`, for a client who joins the room. -/
  | auth (room : RoomName)
  /-- `getRoom`, for a client who joins. -/
  | joining (task : Server.RoomManager.Task)
  /-- A call of the room manager whose errors are caught. -/
  | managing (task : Server.RoomManager.Task)
  /-- A room lets a client join or leave. -/
  | request
  deriving DecidableEq, Repr

structure Monolith where
  manager : Server.RoomManager.Manager
  chores : List Chore
  connected : Bool
  /-- How many of the balancer's messages it has received, or lost with a connection. -/
  received : Nat
  channel : List Frame

namespace Monolith

def send (mono : Monolith) (frames : List Frame) : Monolith :=
  if mono.connected then { mono with channel := mono.channel ++ frames } else mono

def await (mono : Monolith) (chores : List Chore) : Monolith :=
  { mono with chores := mono.chores ++ chores }

def close (mono : Monolith) : Monolith := { mono.send [.closed] with connected := false }

/-- The process ends. -/
def stop (mono : Monolith) : Monolith :=
  { mono.close with manager := { mono.manager with rooms := [], users := fun _ => 0 }, chores := [] }

section Handlers

variable (toLowerCase : String → String)

/-- The monolith calls the room manager by itself. -/
def own (mono : Monolith) (call : Server.RoomManager.Call) : Monolith :=
  let r := Server.RoomManager.start toLowerCase call mono.manager
  let mono := { mono with manager := r.1 }.send (reports false .gone r.2)
  match r.2 with
  | .waiting task => mono.await [.managing task]
  | .done _ => mono

/-- `onBalancerMessage`. Of the client who leaves, and of those who are kicked because their room was
unloaded, `leaving` are in a room that lets them leave. -/
def receive (mono : Monolith) (leaving : Nat) : MsgB2M → Monolith
  | .join room _ token => if token = "" then mono else mono.await [.auth room]
  | .leave _ => mono.await (List.replicate (min leaving 1) .request)
  | .unload room =>
    let r := Server.RoomManager.start toLowerCase (.unloadRoom ⟨.name room.lower, .commanded, none⟩)
      mono.manager
    let next := { mono with manager := r.1 }.send (reports false .gone r.2)
    match r.2 with
    | .waiting task => next.await [.managing task]
    | .done (.unload (.unloaded _)) => next.await (List.replicate leaving .request)
    | .done _ => next.stop

/-- An await settles. Clients are kicked if there is no room for them to join, or not any more. -/
def settle (mono : Monolith) (i : Nat) (x : Server.RoomManager.Answer) (report : LoadReport)
    (leaving : Nat) : Option Monolith :=
  let rest := { mono with chores := mono.chores.eraseIdx i }
  match mono.chores[i]? with
  | none => none
  | some .request => some rest
  | some (.auth room) =>
    if x = .rejected then some rest
    else
      let r := Server.RoomManager.getRoom toLowerCase mono.manager room.lower false
      match r.2 with
      | .waiting task => some ({ rest with manager := r.1 }.await [.joining task])
      | .done (.ok _) => some ({ rest with manager := r.1 }.await [.request])
      | .done _ => some { rest with manager := r.1 }
  | some (.joining task) =>
    (Server.RoomManager.resume toLowerCase task x mono.manager).map fun r =>
      let next := { rest with manager := r.1 }.send (reports (loads task) report r.2)
      match r.2 with
      | .waiting task => next.await [.joining task]
      | .done (.ok _) => next.await [.request]
      | .done (.roomNotFound _) => next.await (List.replicate (min leaving 1) .request)
      | .done _ => next.stop
  | some (.managing task) =>
    (Server.RoomManager.resume toLowerCase task x mono.manager).map fun r =>
      let next := { rest with manager := r.1 }.send (reports (loads task) report r.2)
      match r.2 with
      | .waiting task => next.await [.managing task]
      | .done (.unload (.unloaded _)) => next.await (List.replicate leaving .request)
      | .done _ => next

end Handlers

end Monolith

end Cluster

/-! ## The system -/

/-- The balancer with its tasks, whether its dispatcher is there, and `n` monoliths. -/
structure Cluster (n : Nat) where
  pool : Pool State Task TaskEnd
  dispatching : Bool
  monoliths : Fin n → Cluster.Monolith

namespace Cluster

variable {n : Nat}

inductive Event (n : Nat) where
  /-- The dispatcher takes up a client or a monolith. -/
  | join (c : NewClient)
  | connect (m : Fin n) (region : Region)
  | leave (client : ClientId)
  /-- The dispatcher reads the next message of a monolith. -/
  | dispatch (m : Fin n)
  /-- A task of the balancer runs. -/
  | segment (i : Nat) (x : Answer)
  /-- A monolith receives the next message of the balancer. -/
  | receive (m : Fin n) (leaving : Nat) (chat : List Chat)
  /-- Something that a monolith waits for settles. -/
  | settle (m : Fin n) (i : Nat) (x : Server.RoomManager.Answer) (report : LoadReport) (leaving : Nat)
      (chat : List Chat)
  /-- A monolith gossips about its rooms, if they all have epochs, or does what it does by itself. -/
  | gossip (m : Fin n) (rooms : Option (List GossipRoom))
  | chat (m : Fin n) (chat : List Chat)
  | own (m : Fin n) (call : Server.RoomManager.Call)
  | change (m : Fin n) (change : Server.RoomManager.Change)
  /-- The connection of a monolith is closed, and clients leave rooms; or the monolith ends. -/
  | close (m : Fin n) (clients : Nat)
  | stop (m : Fin n)

/-- Monoliths that have nothing loaded, and are not connected. -/
def init (n : Nat) (region : Region) : Cluster n :=
  ⟨Balancer.init region, true, fun _ => ⟨⟨[], fun _ => 0, 0⟩, [], false, 0, []⟩⟩

def setMonolith (c : Cluster n) (m : Fin n) (mono : Monolith) : Cluster n :=
  { c with monoliths := Function.update c.monoliths m mono }

/-- A task is started. -/
def call (c : Cluster n) (k : Call) : Cluster n :=
  { c with pool := ⟨c.pool.shared, c.pool.tasks ++ [.waiting k.task]⟩ }

/-- What was sent to the monolith over its connection and is not received yet. -/
def inbox (s : State) (m : MonolithId) (mono : Monolith) : List MsgB2M :=
  if mono.connected then (sentTo s m).drop mono.received else []

/-- The dispatcher waits for `join_client` and `join_monolith`. -/
def ofDispatcher : Task → Bool
  | .joinReserve _ | .joinSend _ _ _ | .joinRegister _ _ | .joinAbandon _ _ _ _ | .joinMonolith _ => true
  | _ => false

def free (c : Cluster n) : Bool := c.dispatching && !c.pool.suspended.any ofDispatcher

/-- The segment is a panic that the dispatcher does not survive. -/
def endsDispatcher (before after : Pool State Task TaskEnd) (i : Nat) : Bool :=
  match before.tasks[i]?, after.tasks[i]? with
  | some (.waiting task), some (.done .panic) => ofDispatcher task
  | _, _ => false

section Step

variable (toLowerCase : String → String)

def step (c : Cluster n) : Event n → Option (Cluster n)
  | .join client => if c.free then some (c.call (.joinClient client)) else none
  | .connect m region =>
    if c.free then
      some ((c.call (.joinMonolith ⟨m, region⟩)).setMonolith m { c.monoliths m with
        connected := true, received := (sentTo c.pool.shared m).length })
    else none
  | .leave client => some (c.call (.leaveClient client))
  | .dispatch m =>
    if c.free then
      match (c.monoliths m).channel with
      | frame :: rest =>
        some (((frame.call m).elim c c.call).setMonolith m { c.monoliths m with channel := rest })
      | [] => none
    else none
  | .segment i x => (balancer.machine.step c.pool (.answer i x)).map fun pool =>
    { c with pool := pool, dispatching := c.dispatching && !endsDispatcher c.pool pool i }
  | .receive m leaving chat => (inbox c.pool.shared m (c.monoliths m)).head?.map fun msg =>
    let mono := { c.monoliths m with received := (c.monoliths m).received + 1 }
    c.setMonolith m ((mono.receive toLowerCase leaving msg).send (chat.map Chat.frame))
  | .settle m i x report leaving chat =>
    ((c.monoliths m).settle toLowerCase i x report leaving).map fun mono =>
      c.setMonolith m (mono.send (chat.map Chat.frame))
  | .gossip m rooms =>
    let frame := match rooms with
      | some rooms => .msg (.gossip rooms (c.monoliths m).received)
      | none => .unreadable
    some (c.setMonolith m ((c.monoliths m).send [frame]))
  | .chat m chat => some (c.setMonolith m ((c.monoliths m).send (chat.map Chat.frame)))
  | .own m call => some (c.setMonolith m ((c.monoliths m).own toLowerCase call))
  | .change m change => (change.apply (c.monoliths m).manager).map fun manager =>
    c.setMonolith m { c.monoliths m with manager := manager }
  | .close m clients =>
    some (c.setMonolith m ((c.monoliths m).close.await (List.replicate clients .request)))
  | .stop m => some (c.setMonolith m (c.monoliths m).stop)

end Step

end Cluster

/-- `toLowerCase` is what monoliths compare names by. -/
def cluster (toLowerCase : String → String) (n : Nat) : Machine (Cluster n) (Cluster.Event n) :=
  ⟨Cluster.step toLowerCase⟩

namespace Cluster

variable {n : Nat}

/-- The steps by which messages get to where they are sent, and are handled there. -/
def Event.Internal : Event n → Bool
  | .dispatch _ | .segment _ _ | .receive _ _ _ | .settle _ _ _ _ _ _ => true
  | _ => false

/-- Nothing is left to do: no task is suspended, no monolith waits for anything, and everything that was
sent has been read, if there is somebody to read it. -/
structure Quiet (c : Cluster n) : Prop where
  tasks : c.pool.suspended = []
  chores : ∀ m, (c.monoliths m).chores = []
  inbox : ∀ m : Fin n, inbox c.pool.shared m (c.monoliths m) = []
  channel : c.dispatching = true → ∀ m, (c.monoliths m).channel = []

end Cluster

end OpenTogetherTube.Balancer
