import OpenTogetherTube.Lib.Tasks
import OpenTogetherTube.Server.VideoQueue

/-!
# The room manager

The rooms that are loaded are kept in an array. `getRoom` looks a name up in it and loads the room
from redis or from the database if it is not there, `createRoom` makes a new one, and `unloadRoom`
takes one out. All three are asynchronous; between two of their awaits any other call may run, and
an await settles in whatever way the thing that is awaited does.

`manager` has their segments. An answer is what the awaited call settles with: redis keeps a room's
state under its own name, and the database finds a room by its name whatever the case, which is all
that is used of them here. Case is folded by `toLowerCase`, a parameter.

What a room is apart from its name is not the manager's business, and neither are the messages it
sends to the client manager when a room was loaded or unloaded.
-/

namespace OpenTogetherTube.Server.RoomManager

open OpenTogetherTube.Lib

/-- A `Room` object that the manager holds: its identity, and what does not change about it. -/
structure LoadedRoom where
  object : ObjectId
  name : String
  isTemporary : Bool
  deriving DecidableEq, Repr

/-- The state that the calls share. `users` counts the users of each room object. -/
structure Manager where
  rooms : List LoadedRoom
  users : ObjectId → Nat
  fresh : ObjectId

/-- What is stored of a room, as far as the manager reads it. -/
structure StoredRoom where
  name : String
  isTemporary : Bool
  deriving DecidableEq, Repr

inductive UnloadReason where
  | keepalive | admin | commanded | shutdown
  deriving DecidableEq, Repr

/-- A room is unloaded by its name, or as an object. -/
inductive RoomRef where
  | name (name : String)
  | object (room : LoadedRoom)
  deriving DecidableEq, Repr

/-- A call of `unloadRoom`. -/
structure Unload where
  room : RoomRef
  reason : UnloadReason
  preserveRedis : Option Bool
  deriving DecidableEq, Repr

/-- The calls that others make. -/
inductive Call where
  | getRoom (roomName : String) (mustAlreadyBeLoaded : Bool)
  | createRoom (name : String) (isTemporary : Bool)
  | unloadRoom (call : Unload)
  deriving DecidableEq, Repr

/-- How a call of `unloadRoom` ends. One that fails because something it awaited did may have taken
its room off the array before. -/
inductive UnloadResult where
  | unloaded (room : LoadedRoom)
  | roomNotFound (name : String)
  | refused
  | typeError
  | rejected (unloaded : Option LoadedRoom)
  deriving DecidableEq, Repr

/-- How a call ends. -/
inductive Result where
  | ok (room : LoadedRoom)
  | created
  | roomNotFound (name : String)
  | roomNameTaken (name : String)
  | rejected
  | unload (result : UnloadResult)
  deriving DecidableEq, Repr

/-- The awaits of `unloadRoom`. -/
inductive UnloadTask where
  | onBeforeUnload (room : LoadedRoom) (idx : Int) (preserveRedis : Bool)
  | redisDelRoom (room : LoadedRoom)
  | redisDelSync (room : LoadedRoom)
  deriving DecidableEq, Repr

/-- The awaits of the three functions. -/
inductive Task where
  -- `getRoom`
  | redisGet (roomName : String)
  | getRoomByName (roomName : String)
  -- `createRoom`
  | redisExists (name : String) (isTemporary : Bool)
  | isRoomNameTaken (name : String) (isTemporary : Bool)
  | saveRoom (room : LoadedRoom)
  | update (room : LoadedRoom)
  | sync (room : LoadedRoom)
  -- `addRoom`, behind the push
  | redisIncr (room : LoadedRoom) (result : Result)
  | redisSet (result : Result)
  | unload (task : UnloadTask)
  deriving DecidableEq, Repr

/-- What an await settles with. -/
inductive Answer where
  | rejected
  | settled
  | boolean (b : Bool)
  | stored (room : Option StoredRoom)
  | epoch (epoch : Nat)
  deriving DecidableEq, Repr

/-- Users come and go. -/
inductive Change where
  | users (object : ObjectId) (count : Nat)
  deriving DecidableEq, Repr

/-- The effect of a change. -/
def Change.apply : Change → Manager → Option Manager
  | .users object count, m => some { m with users := Function.update m.users object count }

/-! ## Arrays -/

/-- `array[idx]`, `undefined` outside. -/
def at? (rooms : List LoadedRoom) (idx : Int) : Option LoadedRoom :=
  if 0 ≤ idx then rooms[idx.toNat]? else none

/-- `array.indexOf(room)`. A room comes with its identity. -/
def indexOf (rooms : List LoadedRoom) (room : LoadedRoom) : Int :=
  match rooms.findIdx? (fun r => r = room) with
  | some i => i
  | none => -1

/-- `array.splice(start, 1)`: a negative start counts from the end. -/
def splice (rooms : List LoadedRoom) (start : Int) : List LoadedRoom :=
  if 0 ≤ start then rooms.eraseIdx start.toNat else rooms.eraseIdx (rooms.length + start).toNat

section Segments

variable (toLowerCase : String → String)

/-- The names are equal, ignoring case. -/
def SameName (name name' : String) : Prop := toLowerCase name = toLowerCase name'

instance (name name' : String) : Decidable (SameName toLowerCase name name') :=
  inferInstanceAs (Decidable (_ = _))

/-! ## Unloading -/

/-- The object and the place of the room that is to be unloaded, or the name that is not loaded. An
object is not looked up. -/
def resolve (m : Manager) : RoomRef → Except String (LoadedRoom × Int)
  | .object room => .ok (room, -1)
  | .name name =>
    match m.rooms.findIdx? (fun room => SameName toLowerCase room.name name) with
    | none => .error name
    | some i =>
      match m.rooms[i]? with
      | none => .error name
      | some room => .ok (room, (i : Int))

/-- The end of `unloadRoom`, from the line that corrects the index. -/
def removeRoom (m : Manager) (room : LoadedRoom) (idx : Int) (preserveRedis : Bool) :
    Manager × Progress UnloadTask UnloadResult :=
  match at? m.rooms idx with
  | none => (m, .done .typeError)
  | some there =>
    let idx := if there.name = room.name then idx else indexOf m.rooms room
    let m := { m with rooms := splice m.rooms idx }
    if preserveRedis then (m, .done (.unloaded room)) else (m, .waiting (.redisDelRoom room))

def unloadRoom (call : Unload) (m : Manager) : Manager × Progress UnloadTask UnloadResult :=
  let preserveRedis := call.preserveRedis.getD (call.reason = .commanded)
  match resolve toLowerCase m call.room with
  | .error name => (m, .done (.roomNotFound name))
  | .ok (room, idx) =>
    if call.reason = .keepalive ∧ m.users room.object > 0 then (m, .done .refused)
    else if call.reason ≠ .commanded then (m, .waiting (.onBeforeUnload room idx preserveRedis))
    else removeRoom m room idx preserveRedis

/-- The room that is off the array when a call waits at the await. -/
def UnloadTask.unloaded : UnloadTask → Option LoadedRoom
  | .onBeforeUnload _ _ _ => none
  | .redisDelRoom room | .redisDelSync room => some room

/-- The segments behind the awaits of `unloadRoom`. -/
def resumeUnload (task : UnloadTask) (answer : Answer) (m : Manager) :
    Option (Manager × Progress UnloadTask UnloadResult) :=
  match task, answer with
  | task, .rejected => some (m, .done (.rejected task.unloaded))
  | .onBeforeUnload room idx preserveRedis, .settled => some (removeRoom m room idx preserveRedis)
  | .redisDelRoom room, .settled => some (m, .waiting (.redisDelSync room))
  | .redisDelSync room, .settled => some (m, .done (.unloaded room))
  | _, _ => none

/-- `unloadRoom` by itself, under every interleaving of its awaits. -/
def unloader : Program Manager Unload UnloadTask Answer Change UnloadResult where
  start := unloadRoom toLowerCase
  resume := resumeUnload
  environment := Change.apply

/-! ## Loading -/

/-- The room of that name that is loaded. -/
def findRoom (m : Manager) (name : String) : Option LoadedRoom :=
  m.rooms.find? (fun room => SameName toLowerCase room.name name)

/-- `new Room(options)`. -/
def newRoom (m : Manager) (stored : StoredRoom) : Manager × LoadedRoom :=
  ({ m with fresh := m.fresh + 1 }, ⟨m.fresh, stored.name, stored.isTemporary⟩)

/-- `addRoom`, to its first await. -/
def addRoom (m : Manager) (room : LoadedRoom) (result : Result) :
    Manager × Progress Task Result :=
  ({ m with rooms := m.rooms ++ [room] }, .waiting (.redisIncr room result))

/-- A room that was found in storage is made and added. -/
def load (m : Manager) (stored : StoredRoom) : Manager × Progress Task Result :=
  let made := newRoom m stored
  addRoom made.1 made.2 (.ok made.2)

def getRoom (m : Manager) (roomName : String) (mustAlreadyBeLoaded : Bool) :
    Manager × Progress Task Result :=
  match findRoom toLowerCase m roomName with
  | some room => (m, .done (.ok room))
  | none =>
    if mustAlreadyBeLoaded then (m, .done (.roomNotFound roomName))
    else (m, .waiting (.redisGet roomName))

def createRoom (m : Manager) (name : String) (isTemporary : Bool) :
    Manager × Progress Task Result :=
  match findRoom toLowerCase m name with
  | some _ => (m, .done (.roomNameTaken name))
  | none => (m, .waiting (.redisExists name isTemporary))

/-! ## The room manager -/

def start (call : Call) (m : Manager) : Manager × Progress Task Result :=
  match call with
  | .getRoom roomName mustAlreadyBeLoaded => getRoom toLowerCase m roomName mustAlreadyBeLoaded
  | .createRoom name isTemporary => createRoom toLowerCase m name isTemporary
  | .unloadRoom call =>
    let r := (unloader toLowerCase).start call m
    (r.1, r.2.map .unload .unload)

/-- The segments behind the awaits. -/
def resume (task : Task) (answer : Answer) (m : Manager) :
    Option (Manager × Progress Task Result) :=
  match task, answer with
  | .unload task, answer =>
    ((unloader toLowerCase).resume task answer m).map (fun r => (r.1, r.2.map .unload .unload))
  | _, .rejected => some (m, .done .rejected)
  | .redisGet roomName, .stored none => some (m, .waiting (.getRoomByName roomName))
  | .redisGet roomName, .stored (some stored) =>
    -- redis was asked for the key of this very name
    if stored.name = roomName then some (load m stored) else none
  | .getRoomByName roomName, .stored none => some (m, .done (.roomNotFound roomName))
  | .getRoomByName roomName, .stored (some stored) =>
    -- the database compares in lower case
    if SameName toLowerCase stored.name roomName then some (load m stored) else none
  | .redisExists name isTemporary, .boolean taken =>
    if taken then some (m, .done (.roomNameTaken name))
    else some (m, .waiting (.isRoomNameTaken name isTemporary))
  | .isRoomNameTaken name isTemporary, .boolean taken =>
    if taken then some (m, .done (.roomNameTaken name))
    else
      let made := newRoom m ⟨name, isTemporary⟩
      some (made.1, .waiting (if isTemporary then .update made.2 else .saveRoom made.2))
  | .saveRoom room, .settled => some (m, .waiting (.update room))
  | .update room, .settled => some (m, .waiting (.sync room))
  | .sync room, .settled => some (addRoom m room .created)
  | .redisIncr _ result, .epoch epoch =>
    if epoch ≥ 2147483640 then some (m, .waiting (.redisSet result)) else some (m, .done result)
  | .redisSet result, .settled => some (m, .done result)
  | _, _ => none

/-- The three functions, under every interleaving of their awaits. -/
def manager : Program Manager Call Task Answer Change Result where
  start := start toLowerCase
  resume := resume toLowerCase
  environment := Change.apply

end Segments

/-- The pool of calls. -/
abbrev Calls := Pool Manager Task Result

/-- The events of a run. -/
abbrev Event := PoolEvent Call Answer Change

/-! ## What the segments find and keep -/

section Lookups

variable {toLowerCase : String → String} {m : Manager}

theorem findRoom_eq_none_iff {name : String} :
    findRoom toLowerCase m name = none ↔
      ∀ room ∈ m.rooms, ¬ SameName toLowerCase room.name name := by
  simp [findRoom]

/-- A name is resolved to a room that is loaded, and to its place. -/
theorem resolve_name_eq_ok {name : String} {room : LoadedRoom} {idx : Int}
    (h : resolve toLowerCase m (.name name) = .ok (room, idx)) :
    ∃ i : Nat, idx = i ∧ m.rooms[i]? = some room := by
  simp only [resolve] at h
  split at h
  · cases h
  · next i _ =>
    split at h
    · cases h
    · next room' hroom =>
      cases h
      exact ⟨i, rfl, hroom⟩

/-! ### Unloading loads nothing -/

theorem removeRoom_sublist (m : Manager) (room : LoadedRoom) (idx : Int) (preserveRedis : Bool) :
    (removeRoom m room idx preserveRedis).1.rooms.Sublist m.rooms := by
  have hsplice : ∀ start, (splice m.rooms start).Sublist m.rooms := by
    intro start
    unfold splice
    split <;> exact List.eraseIdx_sublist _ _
  unfold removeRoom
  split
  · exact .refl _
  · dsimp only
    split
    · exact hsplice _
    · exact hsplice _

theorem unloadRoom_sublist (call : Unload) (m : Manager) :
    (unloadRoom toLowerCase call m).1.rooms.Sublist m.rooms := by
  unfold unloadRoom
  dsimp only
  split
  · exact .refl _
  split
  · exact .refl _
  split
  · exact .refl _
  · exact removeRoom_sublist _ _ _ _

theorem resumeUnload_sublist {task : UnloadTask} {answer : Answer} {m m' : Manager}
    {pr : Progress UnloadTask UnloadResult} (h : resumeUnload task answer m = some (m', pr)) :
    m'.rooms.Sublist m.rooms := by
  unfold resumeUnload at h
  split at h
  · cases h
    exact .refl _
  · next room idx preserveRedis =>
    have hremove := removeRoom_sublist m room idx preserveRedis
    rwa [Option.some.inj h] at hremove
  · cases h
    exact .refl _
  · cases h
    exact .refl _
  · cases h

end Lookups

end OpenTogetherTube.Server.RoomManager
