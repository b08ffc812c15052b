import OpenTogetherTube.Balancer.Listing

/-!
# Client connections

`client_entry` runs one task for each client. Once `send_client` has succeeded the task holds a
`ClientLink`: it takes what the balancer has for the client out of the client's own channel or the
room's broadcast channel and writes it to the socket, and it puts what the client sends into the
channel of the room's monolith. When its loop ends it drains what is left for the client, says that
the client has left, and is over.

The monolith's channel is read by a task of its own. A `Close` frame in it, whether the client sent
it or `client_entry` did, makes `handle_client_inbound` call `leave_client`, which is a task of the
balancer. `Deregistered` is what is wanted of all three together, and `Deregisters` the condition.

A channel send inside `client_entry` is taken to be done at once. The monolith's channel closes only
when its connection has gone.
-/

namespace OpenTogetherTube.Balancer.Connections

open OpenTogetherTube.Lib BalancerContext Listing

/-! ## `client_entry` -/

/-- What the balancer sends to a client: a message of its room, or the `Close` of a `Kick`. -/
inductive Outbound where
  | text | close
  deriving DecidableEq, Repr

/-- What a client sends: text or binary, a pong, or a `Close`. -/
inductive ClientFrame where
  | data | pong | close
  deriving DecidableEq, Repr

/-- How far `client_entry` is: in its loop, draining what is left for the client, about to say that
the client has left, or over. -/
inductive Phase where
  | looping | draining | closing | finished
  deriving DecidableEq, Repr

/-- The connection of a client, from the moment in which `send_client` has succeeded. `requested` and
`cut` are history: the task has put a `Close` into the monolith's channel; the monolith has not
stayed connected. -/
structure Connection where
  room : RoomName
  monolith : MonolithId
  phase : Phase
  alreadySentClose : Bool
  unicast : List Outbound
  requested : Bool
  cut : Bool
  deriving DecidableEq, Repr

/-- What the `select!` of the loop comes up with. Writing to the socket, answering a ping and sending
to the room may fail. -/
inductive Selected where
  | unicast (written : Bool)
  | broadcast (written : Bool)
  | closed
  | lagged
  | ping (answered : Bool)
  | message (frame : ClientFrame) (roomOpen : Bool)
  | streamError
  deriving DecidableEq, Repr

/-- What `outbound_try_recv` gives. -/
inductive Drained where
  | unicast (written : Bool)
  | broadcast (written : Bool)
  | nothing
  deriving DecidableEq, Repr

namespace Connection

def new (room : RoomName) (monolith : MonolithId) : Connection :=
  ⟨room, monolith, .looping, false, [], false, false⟩

/-- A frame is written to the socket. A `Close` that was written, or a failure, ends the loop that
wrote it. -/
def write (conn : Connection) (frame : Outbound) (written : Bool) (after : Phase) : Connection :=
  if written then
    if frame = .close then { conn with alreadySentClose := true, phase := after } else conn
  else { conn with phase := after }

/-- A frame is put into the monolith's channel. -/
def send (conn : Connection) (frame : ClientFrame) : Connection :=
  { conn with requested := conn.requested || frame = .close }

/-- One round of the loop, with what is put into the monolith's channel. -/
def select (conn : Connection) : Selected → Option (Connection × List ClientFrame)
  | .unicast written =>
    match conn.unicast with
    | frame :: rest => some ({ conn with unicast := rest }.write frame written .draining, [])
    | [] => none
  | .broadcast written => some (conn.write .text written .draining, [])
  | .closed | .lagged | .streamError => some ({ conn with phase := .draining }, [])
  | .ping answered => some (if answered then conn else { conn with phase := .draining }, [])
  | .message frame roomOpen =>
    if roomOpen then some (conn.send frame, [frame])
    else if conn.cut then some ({ conn with phase := .draining }, [])
    else none

/-- One round of the loop that drains the channels. The client's own comes first. -/
def drain (conn : Connection) : Drained → Option (Connection × List ClientFrame)
  | .unicast written =>
    match conn.unicast with
    | frame :: rest => some ({ conn with unicast := rest }.write frame written .closing, [])
    | [] => none
  | .broadcast written =>
    if conn.unicast = [] then some (conn.write .text written .closing, []) else none
  | .nothing =>
    if conn.unicast = [] ∨ conn.cut then some ({ conn with phase := .closing }, []) else none

/-- The end of `client_entry`. -/
def finish (conn : Connection) (roomOpen : Bool) : Option (Connection × List ClientFrame) :=
  if conn.alreadySentClose then some ({ conn with phase := .finished }, [])
  else if roomOpen then some ({ conn.send .close with phase := .finished }, [.close])
  else if conn.cut then some ({ conn with phase := .finished }, [])
  else none

end Connection

/-! ## The system -/

/-- The balancer's tasks, the connections, what waits in the channels of the monoliths, and which
task was started for which client's `Close`. -/
structure World where
  visits : Visits
  connections : OrderedMap ClientId Connection
  inbound : MonolithId → List (ClientId × ClientFrame)
  leaves : List (Nat × ClientId)

def World.init (region : Region) : World := ⟨.init region, ∅, fun _ => [], []⟩

inductive Event where
  /-- A task of the balancer starts or goes on; `leave_client` is started by `handle` only. -/
  | task (e : PoolEvent Call Answer Empty)
  | select (c : ClientId) (selected : Selected)
  | drain (c : ClientId) (drained : Drained)
  | finish (c : ClientId) (roomOpen : Bool)
  /-- `handle_client_inbound` takes the next message of a monolith's channel. -/
  | handle (m : MonolithId)
  /-- The connection to the monolith has gone, and its channel closes. -/
  | hangUp (m : MonolithId)
  deriving DecidableEq

/-- The connection that a segment hands over. -/
def accepted (ctx : BalancerContext) : Task → Answer → Option (ClientId × Connection)
  | .joinRegister c m, .lockHandOver true =>
    if ctx.monoliths.contains m then some (c.id, .new c.room m) else none
  | _, _ => none

/-- What a segment puts into a client's own channel. -/
def delivered : Task → Answer → Option (ClientId × Outbound)
  | .roomMsgSend c, .sent .ok => some (c, .text)
  | .kickSend c, .sent .ok => some (c, .close)
  | _, _ => none

/-- The monolith that joins with a segment. -/
def joined : Task → Answer → Option MonolithId
  | .joinMonolith m, .lockHandOver true => some m.id
  | _, _ => none

namespace World

def pool (w : World) : Pool State Task TaskEnd := w.visits.pool

def ctx (w : World) : BalancerContext := w.visits.pool.shared.ctx

/-- Connections whose monolith is gone, or is not the same, are cut. -/
def sever (connections : OrderedMap ClientId Connection) (ctx : BalancerContext)
    (rejoined : Option MonolithId) : OrderedMap ClientId Connection :=
  connections.mapValues (fun _ conn => { conn with
    cut := conn.cut || !ctx.monoliths.contains conn.monolith || rejoined = some conn.monolith })

/-- The connections after a segment. -/
def connectionsAfter (w : World) (task : Task) (x : Answer) (ctx' : BalancerContext) :
    OrderedMap ClientId Connection :=
  let connections := sever w.connections ctx' (joined task x)
  let connections := match delivered task x with
    | some (c, frame) =>
      connections.adjust c (fun conn => { conn with unicast := conn.unicast ++ [frame] })
    | none => connections
  match accepted w.ctx task x with
  | some (c, conn) => connections.set c conn
  | none => connections

def task (w : World) : PoolEvent Call Answer Empty → Option World
  | .call (.leaveClient _) => none
  | .call c => (Listing.visits.step w.visits (.call c)).map (fun v => { w with visits := v })
  | .answer i x =>
    match w.pool.tasks[i]? with
    | some (.waiting task) =>
      (Listing.visits.step w.visits (.answer i x)).map (fun v => { w with
        visits := v
        connections := w.connectionsAfter task x v.pool.shared.ctx })
    | _ => none
  | .external e => nomatch e

/-- A connection in the given phase goes on. -/
def connection (w : World) (c : ClientId) (phase : Phase)
    (step : Connection → Option (Connection × List ClientFrame)) : Option World :=
  match w.connections.get? c with
  | some conn =>
    if conn.phase = phase then
      (step conn).map (fun r => { w with
        connections := w.connections.set c r.1
        inbound := Function.update w.inbound conn.monolith
          (w.inbound conn.monolith ++ r.2.map (fun frame => (c, frame))) })
    else none
  | none => none

/-- `leave_client` is called. -/
def leave (w : World) (c : ClientId) : World := { w with
  visits := ⟨⟨w.pool.shared, w.pool.tasks ++ [.waiting (.leaveRemove c)]⟩, w.visits.known⟩
  leaves := w.leaves ++ [(w.pool.tasks.length, c)] }

/-- `handle_client_inbound`. -/
def handle (w : World) (m : MonolithId) : Option World :=
  match w.inbound m with
  | (c, frame) :: rest =>
    let w := { w with inbound := Function.update w.inbound m rest }
    some (if frame = .close then w.leave c else w)
  | [] => none

def hangUp (w : World) (m : MonolithId) : World := { w with
  connections := w.connections.mapValues (fun _ conn => { conn with
    cut := conn.cut || conn.monolith = m })
  inbound := Function.update w.inbound m [] }

def step (w : World) : Event → Option World
  | .task e => w.task e
  | .select c selected => w.connection c .looping (fun conn => conn.select selected)
  | .drain c drained => w.connection c .draining (fun conn => conn.drain drained)
  | .finish c roomOpen => w.connection c .closing (fun conn => conn.finish roomOpen)
  | .handle m => w.handle m
  | .hangUp m => some (w.hangUp m)

end World

def system : Machine World Event := ⟨World.step⟩

/-! ## The specification -/

/-- How many `B2MLeave`s were sent for the client. -/
def leavesSent (s : State) (c : ClientId) : Nat := s.outbox.countP (fun e => e.2 = .leave c)

/-- Everything that the client's task has sent was processed. -/
def Processed (w : World) (c : ClientId) (m : MonolithId) : Prop :=
  (∀ frame, (c, frame) ∉ w.inbound m) ∧
    ∀ i, (i, c) ∈ w.leaves → ∃ result, w.pool.tasks[i]? = some (.done result)

/-- **The purpose**: a client whose connection is over, and whose monolith has stayed connected, is
not recorded anywhere once everything was processed, and its monolith was told once. -/
def Deregistered (w : World) : Prop :=
  ∀ c conn, w.connections.get? c = some conn → conn.phase = .finished → conn.cut = false →
    Processed w c conn.monolith →
    w.ctx.clients.get? c = none ∧ (∀ m r, c ∉ w.ctx.directory.listed m r) ∧
      leavesSent w.pool.shared c = 1

/-! ## The condition -/

/-- The connection of a client whose monolith has stayed connected. -/
def World.uncut (w : World) (c : ClientId) : Option Connection :=
  (w.connections.get? c).filter (fun conn => !conn.cut)

/-- The next frame of the client's own channel may be written: it is no `Close`, or the client's
`Close` has been passed on. -/
def MayWrite (w : World) (c : ClientId) : Prop :=
  ∀ conn ∈ w.uncut c, conn.unicast.head? = some .close → conn.requested = true

/-- What a segment needs, for the clients whose monoliths have stayed connected.

* `leave_client` finds the client's room mapped to a monolith that is there, and the client is on no
  other monolith.
* The `B2MLeave` does not fail; or, where it fails, the client's own monolith is dropped for it.
* A monolith that is dropped takes no client along whose own monolith is another. -/
def SegmentOk (w : World) (task : Task) (x : Answer) : Prop :=
  match task, x with
  | .leaveRemove c, _ => ∀ conn ∈ w.uncut c, ∀ client ∈ w.ctx.clients.get? c,
      ∃ locator ∈ w.ctx.roomsToMonoliths.get? client.room,
        w.ctx.monoliths.contains locator.monolithId = true ∧
          (locator.monolithId = conn.monolith ∨
            c ∉ w.ctx.directory.listed conn.monolith conn.room)
  | .leaveSend c m, .sent result => ∀ conn ∈ w.uncut c,
      result = .ok ∨ (result = .timeout ∧ m = conn.monolith)
  | task, x => ∀ m, w.ctx.change task x = .abandon m → ∀ e ∈ w.connections.entries,
      e.2.cut = false → e.2.monolith ≠ m → ∀ client ∈ w.ctx.clients.get? e.1,
        ∃ locator ∈ w.ctx.roomsToMonoliths.get? client.room, locator.monolithId ≠ m

/-- The condition on a step. -/
def Deregisters (w : World) : Event → Prop
  | .select c (.unicast true) | .drain c (.unicast true) => MayWrite w c
  | .task (.answer i x) => ∀ task, w.pool.tasks[i]? = some (.waiting task) → SegmentOk w task x
  | _ => True

instance (w : World) (c : ClientId) : Decidable (MayWrite w c) :=
  inferInstanceAs (Decidable (∀ conn ∈ w.uncut c, _ → _))

instance (w : World) (task : Task) (x : Answer) : Decidable (SegmentOk w task x) := by
  unfold SegmentOk
  split
  · infer_instance
  · infer_instance
  · cases w.ctx.change task x with
    | abandon m =>
      refine decidable_of_iff (∀ e ∈ w.connections.entries, e.2.cut = false → e.2.monolith ≠ m →
        ∀ client ∈ w.ctx.clients.get? e.1,
          ∃ locator ∈ w.ctx.roomsToMonoliths.get? client.room, locator.monolithId ≠ m) ?_
      exact ⟨fun h m' heq => by cases heq; exact h, fun h => h m rfl⟩
    | _ => exact isTrue (fun m heq => by cases heq)

instance (w : World) : (e : Event) → Decidable (Deregisters w e)
  | .select c (.unicast true) | .drain c (.unicast true) => inferInstanceAs (Decidable (MayWrite w c))
  | .task (.answer i x) =>
    match ht : w.pool.tasks[i]? with
    | some (.waiting task) =>
      decidable_of_iff (SegmentOk w task x)
        ⟨fun h task' ht' => by rw [ht] at ht'; cases ht'; exact h, fun h => h task ht⟩
    | some (.done _) => isTrue (fun _ ht' => by rw [ht] at ht'; cases ht')
    | none => isTrue (fun _ ht' => by rw [ht] at ht'; cases ht')
  | .select _ (.unicast false) | .drain _ (.unicast false) | .select _ (.broadcast _)
  | .select _ .closed | .select _ .lagged | .select _ (.ping _) | .select _ (.message _ _)
  | .select _ .streamError | .drain _ (.broadcast _) | .drain _ .nothing | .finish _ _ | .handle _
  | .hangUp _ | .task (.call _) => isTrue trivial
  | .task (.external e) => nomatch e

end OpenTogetherTube.Balancer.Connections
