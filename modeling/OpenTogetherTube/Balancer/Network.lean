import OpenTogetherTube.Balancer.OneRoom

/-!
# The balancer and its monoliths

The balancer and its monoliths talk over two channels each, and both deliver in order. A client that
joins a room is sent to a monolith by a `B2MJoin`, which makes the monolith load the room; meanwhile
the balancer already has the room on that monolith. Every so often a monolith lists its rooms in a
`Gossip`, and what the balancer has there and the message does not list is removed.

A gossip that was sent before the `B2MJoin` was received does not list the room, because it cannot.
`Kept` is what is wanted of the task that processes it, and `Timely` is the condition: it says when
a gossip is not stale like this, at the three places where the balancer commits itself to remove a
room.
-/

namespace OpenTogetherTube.Balancer.Gossip

open OpenTogetherTube.Lib BalancerContext

/-! ## Monoliths and their channels -/

/-- Messages from a monolith to the balancer. A gossip carries how many messages the monolith had
received when it sent it; the balancer does not see that. -/
inductive MsgM2B where
  | loaded (room : RoomMetadata) (loadEpoch : LoadEpoch)
  | unloaded (room : RoomName)
  | gossip (rooms : List GossipRoom) (received : Nat)
  | roomMsg (room : RoomName) (client : Option ClientId)
  | kick (client : ClientId)
  deriving DecidableEq, Repr

/-- The task that the message starts. -/
def MsgM2B.call (m : MonolithId) : MsgM2B → Call
  | .loaded room loadEpoch => .loaded m room loadEpoch
  | .unloaded room => .unloaded m room
  | .gossip rooms _ => .gossip m rooms
  | .roomMsg room client => .roomMsg m room client
  | .kick client => .kick m client

def MsgM2B.stamp : MsgM2B → Nat
  | .gossip _ received => received
  | _ => 0

/-- A monolith: the rooms it has loaded, how many of the balancer's messages it has received, and
what it has sent that the balancer has not read yet. -/
structure Monolith where
  rooms : List GossipRoom
  received : Nat
  channel : List MsgM2B
  deriving DecidableEq

namespace Monolith

def send (m : Monolith) (msg : MsgM2B) : Monolith := { m with channel := m.channel ++ [msg] }

def hasRoom (m : Monolith) (room : RoomName) : Bool := m.rooms.any (fun r => r.room.name = room)

/-- A room that is not loaded yet is loaded, and that is reported. -/
def load (m : Monolith) (room : GossipRoom) : Monolith :=
  if m.hasRoom room.room.name then m
  else { m with rooms := m.rooms ++ [room] }.send (.loaded room.room room.loadEpoch)

def unload (m : Monolith) (room : RoomName) : Monolith :=
  if m.hasRoom room then
    { m with rooms := m.rooms.filter (fun r => r.room.name ≠ room) }.send (.unloaded room)
  else m

/-- `buildGossipMessage`. -/
def gossip (m : Monolith) : Monolith := m.send (.gossip m.rooms m.received)

/-- A message of the balancer is received. What there is to know about a room that is loaded for it,
its name apart, comes from outside. -/
def receive (m : Monolith) (details : GossipRoom) : MsgB2M → Monolith
  | .join room _ _ =>
    { m with received := m.received + 1 }.load
      { details with room := { details.room with name := room } }
  | .leave _ => { m with received := m.received + 1 }
  | .unload room => { m with received := m.received + 1 }.unload room

end Monolith

/-! ## The system -/

/-- The balancer with its tasks, the stamp of the message that each task was started by, the
monoliths, and the ids of the clients that have connected. -/
structure World where
  pool : Pool State Task TaskEnd
  stamps : List Nat
  monoliths : MonolithId → Monolith
  known : List ClientId

/-- A balancer that has just started, and monoliths that have nothing loaded. -/
def World.init (region : Region) : World :=
  ⟨Balancer.init region, [], fun _ => ⟨[], 0, []⟩, []⟩

/-- What was sent to a monolith, in this order. -/
def sentTo (s : State) (m : MonolithId) : List MsgB2M :=
  s.outbox.filterMap (fun e => if e.1 = m then some e.2 else none)

inductive Event where
  /-- A client connects; its id is a new one. -/
  | join (c : NewClient)
  | leave (client : ClientId)
  | connect (m : NewMonolith)
  | disconnect (m : MonolithId)
  /-- The balancer reads the next message of a monolith. -/
  | dispatch (m : MonolithId)
  /-- A task of the balancer runs. -/
  | segment (i : Nat) (x : Answer)
  /-- A monolith receives the next message of the balancer. -/
  | receive (m : MonolithId) (details : GossipRoom)
  /-- A monolith gossips, or does what it does by itself. -/
  | gossip (m : MonolithId)
  | load (m : MonolithId) (room : GossipRoom)
  | unload (m : MonolithId) (room : RoomName)
  | roomMsg (m : MonolithId) (room : RoomName) (client : Option ClientId)
  | kick (m : MonolithId) (client : ClientId)
  deriving DecidableEq

namespace World

def setMonolith (w : World) (m : MonolithId) (mono : Monolith) : World :=
  { w with monoliths := Function.update w.monoliths m mono }

/-- A task is started. -/
def call (w : World) (c : Call) (stamp : Nat) : World :=
  { w with
    pool := ⟨w.pool.shared, w.pool.tasks ++ [.waiting c.task]⟩
    stamps := w.stamps ++ [stamp] }

def step (w : World) : Event → Option World
  | .join c =>
    if c.id ∈ w.known then none
    else some { w.call (.joinClient c) 0 with known := w.known ++ [c.id] }
  | .leave client => some (w.call (.leaveClient client) 0)
  | .connect m => some (w.call (.joinMonolith m) 0)
  | .disconnect m => some (w.call (.leaveMonolith m) 0)
  | .dispatch m =>
    match (w.monoliths m).channel with
    | msg :: rest =>
      some ((w.call (msg.call m) msg.stamp).setMonolith m { w.monoliths m with channel := rest })
    | [] => none
  | .segment i x =>
    (balancer.machine.step w.pool (.answer i x)).map (fun pool => { w with pool := pool })
  | .receive m details =>
    ((sentTo w.pool.shared m)[(w.monoliths m).received]?).map
      (fun msg => w.setMonolith m ((w.monoliths m).receive details msg))
  | .gossip m => some (w.setMonolith m (w.monoliths m).gossip)
  | .load m room => some (w.setMonolith m ((w.monoliths m).load room))
  | .unload m room => some (w.setMonolith m ((w.monoliths m).unload room))
  | .roomMsg m room client => some (w.setMonolith m ((w.monoliths m).send (.roomMsg room client)))
  | .kick m client => some (w.setMonolith m ((w.monoliths m).send (.kick client)))

end World

def system : Machine World Event := ⟨World.step⟩

/-! ## The specification -/

/-- Where a client is being put by a task of `join_client`, once it has a monolith. -/
def joining : Task → Option (MonolithId × RoomName × ClientId)
  | .joinSend c m _ => some (m, c.room, c.id)
  | .joinRegister c m => some (m, c.room, c.id)
  | _ => none

/-- A `B2MJoin` of the client for the room. -/
def isJoin (r : RoomName) (c : ClientId) : MsgB2M → Bool
  | .join room client _ => room = r ∧ client = c
  | _ => false

/-- The clients that are joining the room on the monolith, or have joined it. -/
def members (p : Pool State Task TaskEnd) (m : MonolithId) (r : RoomName) : List ClientId :=
  p.suspended.filterMap (fun task => (joining task).bind (fun place =>
    if place.1 = m ∧ place.2.1 = r then some place.2.2 else none)) ++
  (p.shared.ctx.clients.entries.filter (fun e => e.2.room = r ∧
    (sentTo p.shared m).any (isJoin r e.1))).map Prod.fst

/-- The client's `B2MJoin` is among the first messages that were sent to the monolith. -/
def Received (s : State) (m : MonolithId) (n : Nat) (r : RoomName) (c : ClientId) : Prop :=
  ((sentTo s m).take n).any (isJoin r c) = true

/-- The tasks that process a gossip. -/
def ofGossip : Task → Option MonolithId
  | .gossip m _ | .gossipSync m _ _ _ | .gossipSend m _ _ _ _ | .gossipDrop m _ _ _
  | .gossipRemove m _ _ => some m
  | _ => none

/-- The room is not taken off the monolith, and not unmapped. -/
structure Keeps (m : MonolithId) (r : RoomName) (ctx ctx' : BalancerContext) : Prop where
  holds : ctx.Holds m r → ctx'.Holds m r
  mapped : (ctx.roomsToMonoliths.get? r).isSome → (ctx'.roomsToMonoliths.get? r).isSome

/-- **The purpose**: a step of a gossip's task keeps the room of a client whose `B2MJoin` the
monolith had not received when it sent the gossip. -/
def Kept (w : World) : Event → Prop
  | .segment i x => ∀ task m n s progress, w.pool.tasks[i]? = some (.waiting task) →
      w.stamps[i]? = some n → ofGossip task = some m →
      resume task x w.pool.shared = some (s, progress) →
      ∀ r, ∀ c ∈ members w.pool m r, ¬ Received w.pool.shared m n r c →
        Keeps m r w.pool.shared.ctx s.ctx
  | _ => True

/-! ## The condition -/

/-- What a gossip's task has committed itself to remove. -/
def removing : Task → List RoomName
  | .gossipSync _ _ _ toRemove => toRemove
  | .gossipSend _ room (.reject _) _ toRemove => room :: toRemove
  | .gossipSend _ _ (.replace _) _ toRemove => toRemove
  | .gossipDrop _ room _ toRemove => room :: toRemove
  | .gossipRemove _ room toRemove => room :: toRemove
  | _ => []

/-- The monolith that `join_client` puts the client's room on. -/
def reserves (ctx : BalancerContext) (room : RoomName) : Answer → Option MonolithId
  | .lockSelecting selected =>
    match ctx.roomsToMonoliths.get? room with
    | some locator => some locator.monolithId
    | none => selected
  | _ => none

/-- A listed room is refused: its monolith is gone, or the room is mapped to another one, by a load
that is not newer or that is gone. -/
def Refused (ctx : BalancerContext) (room : RoomName) (m : MonolithId) (loadEpoch : LoadEpoch) :
    Prop :=
  ¬ ctx.Connected m ∨ ∃ locator ∈ ctx.roomsToMonoliths.get? room, locator.monolithId ≠ m ∧
    (locator.loadEpoch ≤ loadEpoch ∨ ¬ ctx.Connected locator.monolithId)

/-- Every client of the room on the monolith was known to the monolith when it had received `n`
messages. -/
def Spares (p : Pool State Task TaskEnd) (m : MonolithId) (n : Nat) (r : RoomName) : Prop :=
  ∀ c ∈ members p m r, Received p.shared m n r c

/-- The condition on a task that runs, with its stamp: a gossip does not find a room to remove that
has a client the monolith did not know of; nor is a room with such a client refused; and a client
does not join a room that a gossip is about to remove. -/
def TaskTimely (p : Pool State Task TaskEnd) (n : Nat) (task : Task) (x : Answer) : Prop :=
  match task with
  | .gossip m rooms => ∀ mono ∈ p.shared.ctx.monoliths.get? m, ∀ r ∈ unlisted mono rooms,
      Spares p m n r
  | .gossipSync m room _ _ =>
    Refused p.shared.ctx room.room.name m room.loadEpoch → Spares p m n room.room.name
  | .joinReserve c => ∀ m ∈ reserves p.shared.ctx c.room x, ∀ task ∈ p.suspended,
      ofGossip task = some m → c.room ∉ removing task
  | _ => True

/-- The condition on a step. -/
def Timely (w : World) : Event → Prop
  | .segment i x => ∀ task n, w.pool.tasks[i]? = some (.waiting task) → w.stamps[i]? = some n →
      TaskTimely w.pool n task x
  | _ => True

instance (s : State) (m : MonolithId) (n : Nat) (r : RoomName) (c : ClientId) :
    Decidable (Received s m n r c) :=
  inferInstanceAs (Decidable (_ = true))

instance (ctx : BalancerContext) (m : MonolithId) : Decidable (ctx.Connected m) :=
  inferInstanceAs (Decidable (_ = true))

instance (ctx : BalancerContext) (room : RoomName) (m : MonolithId) (loadEpoch : LoadEpoch) :
    Decidable (Refused ctx room m loadEpoch) :=
  inferInstanceAs (Decidable (¬ ctx.Connected m ∨ ∃ locator ∈ ctx.roomsToMonoliths.get? room, _ ∧ _))

instance (p : Pool State Task TaskEnd) (m : MonolithId) (n : Nat) (r : RoomName) :
    Decidable (Spares p m n r) :=
  inferInstanceAs (Decidable (∀ c ∈ members p m r, Received p.shared m n r c))

instance (p : Pool State Task TaskEnd) (n : Nat) (task : Task) (x : Answer) :
    Decidable (TaskTimely p n task x) := by
  unfold TaskTimely
  split <;> infer_instance

instance (w : World) : (e : Event) → Decidable (Timely w e)
  | .segment i x =>
    match ht : w.pool.tasks[i]?, hn : w.stamps[i]? with
    | some (.waiting task), some n =>
      decidable_of_iff (TaskTimely w.pool n task x)
        ⟨fun h task' n' ht' hn' => by
          rw [ht] at ht'; rw [hn] at hn'
          cases ht'; cases hn'
          exact h, fun h => h task n ht hn⟩
    | some (.done _), _ => isTrue (fun _ _ ht' _ => by rw [ht] at ht'; cases ht')
    | none, _ => isTrue (fun _ _ ht' _ => by rw [ht] at ht'; cases ht')
    | _, none => isTrue (fun _ _ _ hn' => by rw [hn] at hn'; cases hn')
  | .join _ | .leave _ | .connect _ | .disconnect _ | .dispatch _ | .receive _ _ | .gossip _
  | .load _ _ | .unload _ _ | .roomMsg _ _ _ | .kick _ _ => isTrue trivial

end OpenTogetherTube.Balancer.Gossip
