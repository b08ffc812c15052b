import OpenTogetherTube.Common.Models
import OpenTogetherTube.Lib.Mirror

/-!
# The users as a client has them

A client keeps the users of its room in a map by their ids. Once it is sent all of them, later the
ids of those that are gone, and otherwise one user at a time, who is either new to the client or is
updated with what the message has of it. `Shows` says that the map has exactly the users of a list.
-/

namespace OpenTogetherTube.Client

open OpenTogetherTube.Common OpenTogetherTube.Lib

/-- A user of whom all but the id may be missing. -/
structure PartialUserInfo where
  id : ClientId
  name : Option String
  isLoggedIn : Option Bool
  status : Option PlayerStatus
  role : Option Role
  deriving DecidableEq, Repr

namespace PartialUserInfo

/-- Nothing is missing. -/
def ofInfo (info : RoomUserInfo) : PartialUserInfo :=
  ⟨info.id, some info.name, some info.isLoggedIn, some info.status, some info.role⟩

/-- `Object.assign(user, payload)`. -/
def assign (user payload : PartialUserInfo) : PartialUserInfo where
  id := payload.id
  name := payload.name.or user.name
  isLoggedIn := payload.isLoggedIn.or user.isLoggedIn
  status := payload.status.or user.status
  role := payload.role.or user.role

/-- An update with everything leaves nothing of what was there. -/
@[simp] theorem assign_ofInfo (user : PartialUserInfo) (info : RoomUserInfo) :
    user.assign (ofInfo info) = ofInfo info := rfl

theorem ofInfo_injective : Function.Injective ofInfo := by
  intro a b h
  obtain ⟨_, _, _, _, _⟩ := a
  obtain ⟨_, _, _, _, _⟩ := b
  simp only [ofInfo, PartialUserInfo.mk.injEq, Option.some.injEq] at h
  obtain ⟨rfl, rfl, rfl, rfl, rfl⟩ := h
  rfl

end PartialUserInfo

/-! ## The store -/

/-- The `users` of the store. -/
abbrev Users := OrderedMap ClientId PartialUserInfo

/-- `ServerMessageUser`. -/
inductive UserMessage where
  | init (value : List RoomUserInfo)
  | update (value : PartialUserInfo)
  | remove (value : ClientId)

namespace Users

/-- `INIT_USERS`. -/
def initUsers (payload : List RoomUserInfo) : Users :=
  OrderedMap.ofList ((payload.map PartialUserInfo.ofInfo).map (fun u => (u.id, u)))

/-- `UPDATE_USER`. -/
def updateUser (users : Users) (payload : PartialUserInfo) : Users :=
  match users.get? payload.id with
  | none => users.set payload.id payload
  | some user => users.set payload.id (user.assign payload)

/-- `REMOVE_USER`. -/
def removeUser (users : Users) (payload : ClientId) : Users := users.erase payload

/-- The `user` action. -/
def receive (users : Users) : UserMessage → Users
  | .init value => initUsers value
  | .update value => users.updateUser value
  | .remove value => users.removeUser value

/-- One message after the other. -/
def receiveAll (users : Users) (messages : List UserMessage) : Users := messages.foldl receive users

theorem receiveAll_append (users : Users) (messages messages' : List UserMessage) :
    users.receiveAll (messages ++ messages') = (users.receiveAll messages).receiveAll messages' :=
  List.foldl_append

/-- An update with everything is put in as it is. -/
theorem updateUser_ofInfo (users : Users) (info : RoomUserInfo) :
    users.updateUser (.ofInfo info) = users.set info.id (.ofInfo info) := by
  unfold updateUser
  split
  · rfl
  · rw [PartialUserInfo.assign_ofInfo]
    rfl

end Users

/-! ## What it shows -/

/-- The map has the users of the list by their ids, all of each, and no two have the same id. -/
def Shows (users : Users) (infos : List RoomUserInfo) : Prop :=
  Mirrors PartialUserInfo.id users (infos.map PartialUserInfo.ofInfo)

section Shows

variable {users : Users} {infos infos' told : List RoomUserInfo}

theorem map_id_ofInfo (infos : List RoomUserInfo) :
    (infos.map PartialUserInfo.ofInfo).map PartialUserInfo.id = infos.map (·.id) := by
  rw [List.map_map]
  rfl

theorem mem_map_ofInfo {info : RoomUserInfo} :
    PartialUserInfo.ofInfo info ∈ infos.map PartialUserInfo.ofInfo ↔ info ∈ infos :=
  List.mem_map_of_injective PartialUserInfo.ofInfo_injective

/-- **Who is sent all users shows them**, if they have different ids. -/
theorem shows_initUsers_iff : Shows (.initUsers infos) infos ↔ (infos.map (·.id)).Nodup := by
  rw [← map_id_ofInfo]
  exact Mirrors.ofList_iff

/-- **When updates are enough**: every user that is new or has changed is told of, and none is
gone. -/
theorem shows_updates_iff (h : Shows users infos) (hsub : ∀ info ∈ told, info ∈ infos') :
    Shows (users.receiveAll (told.map (fun info => .update (.ofInfo info)))) infos' ↔
      (infos'.map (·.id)).Nodup ∧ (∀ info ∈ infos', info ∉ infos → info ∈ told) ∧
        ∀ info ∈ infos, info.id ∈ infos'.map (·.id) := by
  have hputAll : ∀ users : Users,
      users.receiveAll (told.map (fun info => .update (.ofInfo info))) =
        users.putAll PartialUserInfo.id (told.map PartialUserInfo.ofInfo) := by
    intro users
    unfold Users.receiveAll OrderedMap.putAll
    rw [List.foldl_map, List.foldl_map]
    congr 1
    funext users info
    exact users.updateUser_ofInfo info
  have hsub' : ∀ a ∈ told.map PartialUserInfo.ofInfo, a ∈ infos'.map PartialUserInfo.ofInfo := by
    intro a ha
    obtain ⟨info, hinfo, rfl⟩ := List.mem_map.mp ha
    exact List.mem_map_of_mem (hsub info hinfo)
  rw [hputAll, Shows, Mirrors.putAll_iff h hsub', map_id_ofInfo]
  simp only [List.forall_mem_map, mem_map_ofInfo]
  rfl

/-- A user that is removed. -/
theorem Shows.removeUser (h : Shows users infos) (client : ClientId) :
    Shows (users.removeUser client) (infos.filter (fun info => info.id ≠ client)) := by
  have hfilter := Mirrors.erase h client
  rw [List.filter_map] at hfilter
  exact hfilter

end Shows

end OpenTogetherTube.Client
