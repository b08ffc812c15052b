import OpenTogetherTube.Common.Models
import OpenTogetherTube.Lib.Decode
import OpenTogetherTube.Server.RoomManager

/-!
# The messages from a monolith to a balancer

The monolith writes them as objects of its own, and the balancer reads them as `MsgM2B`, whose types
ask for more than those of the monolith: a port and the reason of a kick have 16 bits, a load epoch
has 32, ids are UUIDs, and a visibility is one of three names. What can be any value must not be
nested too deep, and its strings must be text, without a lone surrogate; names are text. The messages
are built here as `balancer.ts` and `client.ts` build them, and read as `monolith.rs` declares them.
For each message there is a lemma that says when it can be read.
-/

namespace OpenTogetherTube.Server.Protocol

open OpenTogetherTube.Common OpenTogetherTube.Lib Json
open RoomManager (UnloadReason)

/-! ## The balancer's side -/

/-- The levels of arrays and objects that `serde_json` reads, one less than these. -/
def recursionLimit : Nat := 128

/-- `RoomMetadata`. A `serde_json::Value` is any value that can be read. -/
structure RoomMetadata where
  name : String
  title : Json
  description : Json
  isTemporary : Json
  visibility : Visibility
  queueMode : Json
  currentSource : Json
  users : Json

structure GossipRoom where
  room : RoomMetadata
  loadEpoch : Fin (2 ^ 32)

inductive MsgM2B where
  | init (port : Fin (2 ^ 16)) (region : String) (id : String)
  | loaded (room : RoomMetadata) (loadEpoch : Fin (2 ^ 32))
  | unloaded (name : String) (reason : UnloadReason)
  | gossip (rooms : List GossipRoom)
  | roomMsg (room : String) (clientId : Option String) (payload : Json)
  | kick (clientId : String) (reason : Fin (2 ^ 16))

def visibilities : List (String × Visibility) :=
  [("public", .Public), ("unlisted", .Unlisted), ("private", .Private)]

def unloadReasons : List (String × UnloadReason) :=
  [("Keepalive", .keepalive), ("Admin", .admin), ("Commanded", .commanded), ("Shutdown", .shutdown)]

section Rooms

/-! `isText` is whether the balancer has a string for a string of the monolith. -/

variable (isText : String → Bool)

/-- `remaining` is what is left of the limit inside the object. -/
def RoomMetadata.deserialize (remaining : Nat) (v : Json) : Option RoomMetadata := do
  let name ← field asString "name" v
  let title ← field (asValue isText remaining) "title" v
  let description ← field (asValue isText remaining) "description" v
  let isTemporary ← field (asValue isText remaining) "isTemporary" v
  let visibility ← field (asNamed visibilities) "visibility" v
  let queueMode ← field (asValue isText remaining) "queueMode" v
  let currentSource ← field (asValue isText remaining) "currentSource" v
  let users ← field (asValue isText remaining) "users" v
  pure ⟨name, title, description, isTemporary, visibility, queueMode, currentSource, users⟩

/-- The object is in an array, in the payload, in the message. -/
def GossipRoom.deserialize (v : Json) : Option GossipRoom := do
  let room ← field (RoomMetadata.deserialize isText (recursionLimit - 5)) "room" v
  let loadEpoch ← field (asUnsigned 32) "load_epoch" v
  pure ⟨room, loadEpoch⟩

end Rooms

section Read

/-! `isUuid` is whether a string is a UUID to the balancer. -/

variable (isUuid isText : String → Bool)

/-- The payload of a message of a type. -/
def MsgM2B.deserializePayload (type : String) (v : Json) : Option MsgM2B :=
  match type with
  | "init" => do
    let port ← field (asUnsigned 16) "port" v
    let region ← field asString "region" v
    let id ← field (asStringOf isUuid) "id" v
    pure (.init port region id)
  | "loaded" => do
    let room ← field (RoomMetadata.deserialize isText (recursionLimit - 3)) "room" v
    let loadEpoch ← field (asUnsigned 32) "load_epoch" v
    pure (.loaded room loadEpoch)
  | "unloaded" => do
    let name ← field asString "name" v
    let reason ← field (asNamed unloadReasons) "reason" v
    pure (.unloaded name reason)
  | "gossip" => do
    let rooms ← field (asList (GossipRoom.deserialize isText)) "rooms" v
    pure (.gossip rooms)
  -- a `RawValue` is passed over without a look at it
  | "room_msg" => do
    let room ← field asString "room" v
    let clientId ← optionalField (asStringOf isUuid) "client_id" v
    let payload ← field some "payload" v
    pure (.roomMsg room clientId payload)
  | "kick" => do
    let clientId ← field (asStringOf isUuid) "client_id" v
    let reason ← field (asUnsigned 16) "reason" v
    pure (.kick clientId reason)
  | _ => none

def MsgM2B.deserialize (v : Json) : Option MsgM2B := do
  let type ← field asString "type" v
  field (MsgM2B.deserializePayload isUuid isText type) "payload" v

/-- What the monolith writes of a message can be read. -/
def Decodes (message : Json) : Prop := (MsgM2B.deserialize isUuid isText (written message)).isSome

instance (message : Json) : Decidable (Decodes isUuid isText message) :=
  inferInstanceAs (Decidable (_ = true))

end Read

/-! ## The monolith's side -/

def message (type : String) (payload : List (String × Value)) : Json :=
  object [("type", some (.str type)), ("payload", some (object payload))]

/-- What a room is to the balancers: its settings can be any values. -/
structure Room where
  name : String
  title : Json
  description : Json
  isTemporary : Json
  visibility : Json
  queueMode : Json
  currentSource : Json
  users : Nat
  loadEpoch : Int

def roomListItem (room : Room) : Json :=
  object [("name", some (.str room.name)), ("title", some room.title),
    ("description", some room.description), ("isTemporary", some room.isTemporary),
    ("visibility", some room.visibility), ("queueMode", some room.queueMode),
    ("currentSource", some room.currentSource), ("users", some (.num (.ofNat room.users)))]

def loadEpoch (room : Room) : Json := .num (.finite room.loadEpoch)

def initMessage (port : Fin (2 ^ 16)) (region id : String) : Json :=
  message "init" [("port", some (.num (.ofNat port))), ("region", some (.str region)),
    ("id", some (.str id))]

def loadedMessage (room : Room) : Json :=
  message "loaded" [("room", some (roomListItem room)), ("load_epoch", some (loadEpoch room))]

/-- The names that the monolith writes. -/
def reasonName : UnloadReason → String
  | .keepalive => "Keepalive"
  | .admin => "Admin"
  | .commanded => "Commanded"
  | .shutdown => "Shutdown"

def unloadedMessage (name : String) (reason : UnloadReason) : Json :=
  message "unloaded" [("name", some (.str name)), ("reason", some (.str (reasonName reason)))]

def gossipMessage (rooms : List Room) : Json :=
  message "gossip" [("rooms", some (.arr (rooms.map (fun room =>
    object [("room", some (roomListItem room)), ("load_epoch", some (loadEpoch room))]))))]

def roomMsgMessage (room : String) (clientId : Option String) (payload : Json) : Json :=
  message "room_msg" [("room", some (.str room)), ("client_id", clientId.map .str),
    ("payload", some payload)]

def kickMessage (clientId : String) (reason : Json) : Json :=
  message "kick" [("client_id", some (.str clientId)), ("reason", some reason)]

/-! ## Which messages can be read -/

variable {isUuid isText : String → Bool}

/-- The visibilities that the balancer knows. -/
def KnownVisibility (v : Json) : Prop := (asNamed visibilities v).isSome

/-- What the reason of a kick may be. -/
def KickReason (v : Json) : Prop := (asUnsigned 16 v).isSome

def EpochInRange (epoch : Int) : Prop := 0 ≤ epoch ∧ epoch < 2 ^ 32

/-- What can be any value. -/
def Room.values (room : Room) : List Json :=
  [room.title, room.description, room.isTemporary, room.queueMode, room.currentSource]

/-- The balancer can read what it is told of the room. -/
def Room.Readable (isText : String → Bool) (remaining : Nat) (room : Room) : Prop :=
  (KnownVisibility room.visibility ∧ ∀ v ∈ room.values, (asValue isText remaining v).isSome) ∧
    EpochInRange room.loadEpoch

instance (v : Json) : Decidable (KnownVisibility v) := inferInstanceAs (Decidable (_ = true))

instance (v : Json) : Decidable (KickReason v) := inferInstanceAs (Decidable (_ = true))

/-- What can be read in a gossip can be read of a room alone. -/
theorem Room.Readable.loaded {isText : String → Bool} {room : Room}
    (h : room.Readable isText (recursionLimit - 5)) : room.Readable isText (recursionLimit - 3) :=
  ⟨⟨h.1.1, fun v hv => isSome_asValue_mono isText (by decide) (h.1.2 v hv)⟩, h.2⟩

theorem isSome_loadEpoch (room : Room) :
    (asUnsigned 32 (written (loadEpoch room))).isSome ↔ EpochInRange room.loadEpoch := by
  rw [asUnsigned_written, isSome_asUnsigned]
  constructor
  · rintro ⟨n, hn, heq⟩
    have hepoch : room.loadEpoch = n := by
      have hrat : (room.loadEpoch : ℚ) = n := by simpa [loadEpoch, Number.ofNat] using heq
      exact_mod_cast hrat
    rw [hepoch]
    exact ⟨Int.natCast_nonneg n, by exact_mod_cast hn⟩
  · rintro ⟨hnonneg, hlt⟩
    refine ⟨room.loadEpoch.toNat, ?_, ?_⟩
    · rw [← Int.toNat_of_nonneg hnonneg] at hlt
      exact_mod_cast hlt
    · have hepoch : ((room.loadEpoch.toNat : Int) : ℚ) = room.loadEpoch := by
        rw [Int.toNat_of_nonneg hnonneg]
      rw [loadEpoch, Number.ofNat, ← hepoch]
      rfl

/-- Of a room's metadata, the visibility and the values are all that the balancer may not know. -/
theorem isSome_roomListItem {remaining : Nat} (hpos : 0 < remaining) (room : Room) :
    (RoomMetadata.deserialize isText remaining (written (roomListItem room))).isSome ↔
      KnownVisibility room.visibility ∧ ∀ v ∈ room.values, (asValue isText remaining v).isSome := by
  have husers : (asValue isText remaining (.num (.ofNat room.users))).isSome = true := by
    simp [asValue, depth?, hpos]
  unfold KnownVisibility Room.values
  rw [← asNamed_written]
  simp only [RoomMetadata.deserialize, field, get?_written]
  simp [roomListItem, object, get?, asString]
  rw [isSome_bind_of fun _ => isSome_bind_of fun _ => isSome_bind_of fun _ => isSome_bind_of fun _ =>
    isSome_bind_of fun _ => isSome_bind_of fun _ => isSome_bind_some _ _]
  simp only [isSome_asValue_written, Bool.and_eq_true, husers]
  tauto

/-- The payload that the balancer reads of a message. -/
theorem deserialize_message (type : String) (payload : List (String × Value)) :
    MsgM2B.deserialize isUuid isText (written (message type payload)) =
      MsgM2B.deserializePayload isUuid isText type (written (object payload)) := by
  simp only [MsgM2B.deserialize, field, get?_written]
  simp [message, object, get?, asString]

theorem decodes_init {port : Fin (2 ^ 16)} {region id : String} (hid : isUuid id = true) :
    Decodes isUuid isText (initMessage port region id) := by
  have hport : (asUnsigned 16 (.num (.ofNat port))).isSome := isSome_asUnsigned.mpr ⟨port, port.2, rfl⟩
  obtain ⟨port', hport'⟩ := Option.isSome_iff_exists.mp hport
  rw [Decodes, initMessage, deserialize_message]
  unfold MsgM2B.deserializePayload
  simp only [field, get?_written]
  simp [object, get?, asString, asStringOf, asUnsigned_written, hport', hid]

theorem decodes_loaded_iff (room : Room) :
    Decodes isUuid isText (loadedMessage room) ↔ room.Readable isText (recursionLimit - 3) := by
  rw [Decodes, loadedMessage, deserialize_message, Room.Readable,
    ← isSome_roomListItem (by decide), ← isSome_loadEpoch]
  unfold MsgM2B.deserializePayload
  simp only [field, get?_written]
  simp [object, get?, -Nat.reducePow]

theorem decodes_unloaded (name : String) (reason : UnloadReason) :
    Decodes isUuid isText (unloadedMessage name reason) := by
  rw [Decodes, unloadedMessage, deserialize_message]
  unfold MsgM2B.deserializePayload
  simp only [field, get?_written]
  cases reason <;> simp [object, get?, asString, asNamed, reasonName, unloadReasons]

/-- **One room that cannot be read makes a gossip unreadable.** -/
theorem decodes_gossip_iff (rooms : List Room) :
    Decodes isUuid isText (gossipMessage rooms) ↔
      ∀ room ∈ rooms, room.Readable isText (recursionLimit - 5) := by
  have hentry : ∀ room : Room, (GossipRoom.deserialize isText (written
      (object [("room", some (roomListItem room)), ("load_epoch", some (loadEpoch room))]))).isSome ↔
        room.Readable isText (recursionLimit - 5) := by
    intro room
    rw [Room.Readable, ← isSome_roomListItem (by decide), ← isSome_loadEpoch]
    simp only [GossipRoom.deserialize, field, get?_written]
    simp [object, get?, -Nat.reducePow]
  rw [Decodes, gossipMessage, deserialize_message]
  unfold MsgM2B.deserializePayload
  simp only [field, get?_written]
  have hrooms : ((object [("rooms", some (.arr (rooms.map (fun room => object
      [("room", some (roomListItem room)), ("load_epoch", some (loadEpoch room))]))))]).get?
        "rooms") = some (.arr (rooms.map (fun room => object
          [("room", some (roomListItem room)), ("load_epoch", some (loadEpoch room))]))) := rfl
  rw [hrooms, Option.map_some, written_arr, Option.bind_some]
  simp only [Option.pure_def, Option.bind_eq_bind, isSome_bind_some, isSome_asList,
    List.forall_mem_map, hentry]

theorem decodes_roomMsg (room : String) {clientId : Option String} (payload : Json)
    (hid : ∀ id ∈ clientId, isUuid id = true) :
    Decodes isUuid isText (roomMsgMessage room clientId payload) := by
  rw [Decodes, roomMsgMessage, deserialize_message]
  simp only [MsgM2B.deserializePayload, field, optionalField, get?_written]
  cases clientId with
  | none => simp [object, get?, asString]
  | some id => simp [object, get?, asString, asStringOf, hid id rfl]

theorem decodes_kick_iff {clientId : String} (reason : Json) (hid : isUuid clientId = true) :
    Decodes isUuid isText (kickMessage clientId reason) ↔ KickReason reason := by
  rw [Decodes, kickMessage, deserialize_message, KickReason, ← asUnsigned_written]
  unfold MsgM2B.deserializePayload
  simp only [field, get?_written]
  simp [object, get?, asStringOf, hid, -Nat.reducePow]

end OpenTogetherTube.Server.Protocol
