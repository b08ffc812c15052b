import OpenTogetherTube.Lib.OrderedMap
import Mathlib.Algebra.GroupWithZero.Nat
import Mathlib.Data.Fin.Basic
import Mathlib.Order.Fin.Basic

/-!
# The balancer's shared context

`BalancerContext` is the state every task of the balancer shares behind one lock: the clients it
serves, the monoliths it is connected to, which monolith holds which room, and the monoliths of each
region. This file has the operations that run **while the lock is held**, as the Rust code has them
in `balancer.rs`, `monolith.rs` and `room.rs`; the tasks that take the lock are in
`Balancer.Tasks`.

An operation that can fail returns the context next to its result: `?` leaves a function in the
middle, and whatever was written before stays written. Logging and metrics have no effect on the
context and are left out.
-/

namespace OpenTogetherTube.Balancer

open OpenTogetherTube.Lib

/-! ## Identifiers and messages -/

abbrev MonolithId := Nat
abbrev ClientId := Nat
abbrev Region := String

/-- `u32`. -/
abbrev LoadEpoch := Fin (2 ^ 32)

instance LoadEpoch.neZero : NeZero (2 ^ 32) := ⟨by decide⟩

/-- `u32::MAX`, the epoch of a room that no monolith has reported yet. -/
def u32Max : LoadEpoch := Fin.last _

/-- A room name. Names that differ only in ASCII case are equal, compare equal and hash alike, so a
name is kept in its lower-case form. -/
structure RoomName where
  lower : String
  deriving DecidableEq, Repr

/-- The name spelled `s`. -/
def RoomName.ofString (s : String) : RoomName := ⟨String.ofList (s.toList.map Char.toLower)⟩

inductive Visibility where
  | Public | Unlisted | Private
  deriving DecidableEq, Repr

/-- What a monolith reports about a room. The balancer reads the name only; `details` stands for the
JSON values it passes on unread. -/
structure RoomMetadata where
  name : RoomName
  visibility : Visibility
  details : String
  deriving DecidableEq, Repr

/-- Where a room is loaded, and which load of the room that was. -/
structure RoomLocator where
  monolithId : MonolithId
  loadEpoch : LoadEpoch
  deriving DecidableEq, Repr

/-- One room of a gossip message. -/
structure GossipRoom where
  room : RoomMetadata
  loadEpoch : LoadEpoch
  deriving DecidableEq, Repr

/-- Messages from the balancer to a monolith that the shared context decides about. -/
inductive MsgB2M where
  | join (room : RoomName) (client : ClientId) (token : String)
  | leave (client : ClientId)
  | unload (room : RoomName)
  deriving DecidableEq, Repr

/-- The errors that leave the balancer's operations. -/
inductive BalancerError where
  | monolithNotFound
  | monolithAlreadyHasRoom (room : RoomName)
  | roomAlreadyLoaded
  | noMonolithsAvailable
  | clientNotFound
  | clientNotFoundInContext
  | roomNotFoundOnMonolith
  | failedToSendJoin
  | failedToSendLeave
  | failedToSendUnload
  | failedToSendClient
  | receiverClosed
  deriving DecidableEq, Repr

/-- The text of an error that the balancer words itself. -/
def BalancerError.message : BalancerError → Option String
  | .monolithNotFound => some "monolith not found"
  | .monolithAlreadyHasRoom room => some ("Monolith already has room " ++ room.lower)
  | .roomAlreadyLoaded => some "room already loaded"
  | .noMonolithsAvailable => some "no monoliths available"
  | .clientNotFound => some "client not found"
  | .clientNotFoundInContext => some "client not found in context"
  | .roomNotFoundOnMonolith => some "room not found on monolith"
  | .failedToSendJoin => some "failed to send join message to monolith"
  | .failedToSendLeave => some "failed to send leave message to monolith"
  | .receiverClosed => some "receiver closed"
  -- the channel's own error is passed on
  | .failedToSendUnload => none
  | .failedToSendClient => none

/-! ## Rooms and monoliths -/

/-- A room on a monolith: the clients of this balancer that are in it, and what the monolith last
reported about it. -/
structure Room where
  name : RoomName
  clients : List ClientId
  metadata : Option RoomMetadata
  deriving DecidableEq, Repr

namespace Room

def new (name : RoomName) : Room := ⟨name, [], none⟩

def setMetadata (r : Room) (metadata : RoomMetadata) : Room := { r with metadata := some metadata }

def addClient (r : Room) (client : ClientId) : Room := { r with clients := r.clients ++ [client] }

def removeClient (r : Room) (client : ClientId) : Room :=
  { r with clients := r.clients.filter (fun c => c ≠ client) }

end Room

/-- A monolith this balancer is connected to, with the rooms it holds. -/
structure BalancerMonolith where
  id : MonolithId
  region : Region
  rooms : OrderedMap RoomName Room
  deriving DecidableEq

/-- A monolith that has just introduced itself. -/
structure NewMonolith where
  id : MonolithId
  region : Region
  deriving DecidableEq, Repr

namespace BalancerMonolith

def new (m : NewMonolith) : BalancerMonolith := ⟨m.id, m.region, ∅⟩

def hasRoom (m : BalancerMonolith) (room : RoomName) : Bool := m.rooms.contains room

def addRoom (m : BalancerMonolith) (room : RoomName) : Except BalancerError BalancerMonolith :=
  if m.rooms.contains room then .error (.monolithAlreadyHasRoom room)
  else .ok { m with rooms := m.rooms.set room (Room.new room) }

def removeRoom (m : BalancerMonolith) (room : RoomName) : BalancerMonolith :=
  { m with rooms := m.rooms.erase room }

/-- Adds the room first when the monolith does not have it. -/
def addClient (m : BalancerMonolith) (room : RoomName) (client : ClientId) : BalancerMonolith :=
  { m with rooms := m.rooms.set room (((m.rooms.get? room).getD (Room.new room)).addClient client) }

def removeClient (m : BalancerMonolith) (client : ClientId) : BalancerMonolith :=
  { m with rooms := m.rooms.mapValues (fun _ room => room.removeClient client) }

def setRoomMetadata (m : BalancerMonolith) (metadata : RoomMetadata) : BalancerMonolith :=
  { m with rooms := m.rooms.adjust metadata.name (fun room => room.setMetadata metadata) }

def addOrSyncRoom (m : BalancerMonolith) (metadata : RoomMetadata) :
    Except BalancerError BalancerMonolith :=
  if m.hasRoom metadata.name then .ok (m.setRoomMetadata metadata)
  else (m.addRoom metadata.name).map (fun m => m.setRoomMetadata metadata)

/-! ### Which rooms a monolith has afterwards -/

@[simp] theorem contains_removeRoom (m : BalancerMonolith) (room r : RoomName) :
    (m.removeRoom room).rooms.contains r = (decide (r ≠ room) && m.rooms.contains r) := by
  simp [removeRoom]

@[simp] theorem contains_addClient (m : BalancerMonolith) (room r : RoomName) (client : ClientId) :
    (m.addClient room client).rooms.contains r = (decide (r = room) || m.rooms.contains r) := by
  simp [addClient]

@[simp] theorem contains_removeClient (m : BalancerMonolith) (r : RoomName) (client : ClientId) :
    (m.removeClient client).rooms.contains r = m.rooms.contains r := by
  simp [removeClient]

/-- Adding a room fails only when the monolith has it, and then it has it still. -/
theorem addRoom_cases (m : BalancerMonolith) (room : RoomName) :
    (m.rooms.contains room = true ∧ m.addRoom room = .error (.monolithAlreadyHasRoom room)) ∨
    (m.rooms.contains room = false ∧
      m.addRoom room = .ok { m with rooms := m.rooms.set room (Room.new room) }) := by
  cases h : m.rooms.contains room <;> simp [addRoom, h]

/-- Syncing a room never fails, and adds that room and no other. -/
theorem addOrSyncRoom_ok (m : BalancerMonolith) (metadata : RoomMetadata) :
    ∃ m', m.addOrSyncRoom metadata = .ok m' ∧ m'.id = m.id ∧ m'.region = m.region ∧
      ∀ r, m'.rooms.contains r = (decide (r = metadata.name) || m.rooms.contains r) := by
  cases h : m.hasRoom metadata.name with
  | true =>
    refine ⟨m.setRoomMetadata metadata, by simp [addOrSyncRoom, h], rfl, rfl, fun r => ?_⟩
    by_cases hr : r = metadata.name
    · simpa [setRoomMetadata, hr, hasRoom] using h
    · simp [setRoomMetadata, hr]
  | false =>
    have hadd : m.addRoom metadata.name =
        .ok { m with rooms := m.rooms.set metadata.name (Room.new metadata.name) } := by
      rcases m.addRoom_cases metadata.name with ⟨hc, -⟩ | ⟨-, hok⟩
      · rw [hasRoom] at h; rw [h] at hc; exact absurd hc (by simp)
      · exact hok
    let added : BalancerMonolith :=
      { m with rooms := m.rooms.set metadata.name (Room.new metadata.name) }
    refine ⟨added.setRoomMetadata metadata, ?_, rfl, rfl, fun r => ?_⟩
    · simp [addOrSyncRoom, h, hadd, Except.map, added]
    · simp [setRoomMetadata, added]

end BalancerMonolith

/-! ## Clients -/

/-- A client that has sent its token and waits to be put into its room. -/
structure NewClient where
  id : ClientId
  room : RoomName
  edgeRegion : Region
  token : String
  deriving DecidableEq, Repr

/-- A client of this balancer. -/
structure BalancerClient where
  id : ClientId
  room : RoomName
  edgeRegion : Region
  token : String
  deriving DecidableEq, Repr

def BalancerClient.new (c : NewClient) : BalancerClient := ⟨c.id, c.room, c.edgeRegion, c.token⟩

/-! ## The context -/

/-- The shared state. `region` is the balancer's own region, from its configuration. -/
structure BalancerContext where
  region : Region
  clients : OrderedMap ClientId BalancerClient
  monoliths : OrderedMap MonolithId BalancerMonolith
  roomsToMonoliths : OrderedMap RoomName RoomLocator
  monolithsByRegion : OrderedMap Region (List MonolithId)
  deriving DecidableEq

namespace BalancerContext

/-- The context of a balancer that has just started. -/
def new (region : Region) : BalancerContext := ⟨region, ∅, ∅, ∅, ∅⟩

def addMonolith (ctx : BalancerContext) (m : BalancerMonolith) : BalancerContext :=
  { ctx with
    monoliths := ctx.monoliths.set m.id m
    monolithsByRegion := ctx.monolithsByRegion.set m.region
      (((ctx.monolithsByRegion.get? m.region).getD []) ++ [m.id]) }

def removeMonolith (ctx : BalancerContext) (monolithId : MonolithId) : BalancerContext :=
  let rooms := ctx.roomsToMonoliths.retain (fun e => e.2.monolithId ≠ monolithId)
  { ctx with
    monoliths := ctx.monoliths.erase monolithId
    monolithsByRegion := match ctx.monoliths.get? monolithId with
      | some m => ctx.monolithsByRegion.adjust m.region (fun v => v.filter (fun x => x ≠ monolithId))
      | none => ctx.monolithsByRegion
    roomsToMonoliths := rooms
    clients := ctx.clients.retain (fun e => rooms.contains e.2.room) }

/-- The locator is stored before the monolith is asked to add the room, so it stays when the
monolith refuses. -/
def addRoom (ctx : BalancerContext) (room : RoomName) (locator : RoomLocator) :
    BalancerContext × Except BalancerError Unit :=
  match ctx.monoliths.get? locator.monolithId with
  | none => (ctx, .error .monolithNotFound)
  | some m =>
    let ctx := { ctx with roomsToMonoliths := ctx.roomsToMonoliths.set room locator }
    match m.addRoom room with
    | .error e => (ctx, .error e)
    | .ok m => ({ ctx with monoliths := ctx.monoliths.set locator.monolithId m }, .ok ())

/-- Takes the room off the monolith, and unmaps it only if it is mapped to that monolith. -/
def removeRoom (ctx : BalancerContext) (room : RoomName) (monolithId : MonolithId) :
    BalancerContext × Except BalancerError Unit :=
  match ctx.monoliths.get? monolithId with
  | none => (ctx, .error .monolithNotFound)
  | some m =>
    ({ ctx with
        roomsToMonoliths := match ctx.roomsToMonoliths.get? room with
          | some locator =>
            if locator.monolithId = monolithId then ctx.roomsToMonoliths.erase room
            else ctx.roomsToMonoliths
          | none => ctx.roomsToMonoliths
        monoliths := ctx.monoliths.set monolithId (m.removeRoom room) }, .ok ())

/-- The monoliths of the balancer's own region if that region is known, all of them otherwise. -/
def filterMonoliths (ctx : BalancerContext) : List BalancerMonolith :=
  match ctx.monolithsByRegion.get? ctx.region with
  | some inRegion => inRegion.filterMap ctx.monoliths.get?
  | none => ctx.monoliths.values

/-- Whom to tell to unload the room, once the lock is released. -/
inductive ConflictAction where
  | reject (handle : MonolithId)
  | replace (handle : MonolithId)
  deriving DecidableEq, Repr

/-- Store the room as loaded on a monolith and sync its metadata there: the tail that both accepting
branches of `add_or_sync_room_ctx` share. The locator is stored **before** the monolith is looked
up. -/
def placeRoom (ctx : BalancerContext) (metadata : RoomMetadata) (monolithId : MonolithId)
    (loadEpoch : LoadEpoch) (conflict : Option ConflictAction) :
    BalancerContext × Except BalancerError (Option ConflictAction) :=
  let ctx := { ctx with
    roomsToMonoliths := ctx.roomsToMonoliths.set metadata.name ⟨monolithId, loadEpoch⟩ }
  match ctx.monoliths.get? monolithId with
  | none => (ctx, .error .monolithNotFound)
  | some m =>
    match m.addOrSyncRoom metadata with
    | .error e => (ctx, .error e)
    | .ok m => ({ ctx with monoliths := ctx.monoliths.set monolithId m }, .ok conflict)

/-- The critical section of `add_or_sync_room_ctx`: the oldest load of a room wins. -/
def syncRoom (ctx : BalancerContext) (metadata : RoomMetadata) (monolithId : MonolithId)
    (loadEpoch : LoadEpoch) : BalancerContext × Except BalancerError (Option ConflictAction) :=
  match ctx.roomsToMonoliths.get? metadata.name with
  | none => ctx.placeRoom metadata monolithId loadEpoch none
  | some locator =>
    if locator.monolithId = monolithId then ctx.placeRoom metadata monolithId loadEpoch none
    else match compare locator.loadEpoch loadEpoch with
      | .lt =>
        -- an older load is known already
        match ctx.monoliths.get? monolithId with
        | none => (ctx, .error .monolithNotFound)
        | some _ => (ctx, .ok (some (.reject monolithId)))
      | .gt =>
        -- the load that is known is the newer one
        match ctx.monoliths.get? locator.monolithId with
        | none => (ctx, .error .monolithNotFound)
        | some _ =>
          match ctx.removeRoom metadata.name locator.monolithId with
          | (ctx, .error e) => (ctx, .error e)
          | (ctx, .ok ()) =>
            ctx.placeRoom metadata monolithId loadEpoch (some (.replace locator.monolithId))
      | .eq => (ctx, .error .roomAlreadyLoaded)

end BalancerContext

end OpenTogetherTube.Balancer
