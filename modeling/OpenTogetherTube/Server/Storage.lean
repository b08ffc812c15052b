import OpenTogetherTube.Common.Grants
import OpenTogetherTube.Server.Constructor
import OpenTogetherTube.Server.Requests

/-!
# Where rooms are kept

A permanent room has a row in the database, and a loaded one has its state in redis. This file has
what is written to each, and the options that a room is constructed from when it is loaded.

A row is written in two ways: `roomToDb` makes a whole row, for a room that is created, and
`roomToDbPartial` makes an update of some columns, for one that has changed. The state in redis is
the value that `JSON.parse` gives back for the text; maps and sets are arrays in it.
-/

namespace OpenTogetherTube.Server

open OpenTogetherTube.Common OpenTogetherTube.Lib

/-! ## The database -/

/-- The `permissions` column: the entries of a map, or an object, which is how grants used to be
stored. -/
inductive StoredGrants where
  | entries (value : List (Role × GrantMask))
  | object (value : Role → Option GrantMask)

/-- `new Grants(db.permissions)`. The keys of an object come in ascending order, the owner's last. -/
def StoredGrants.grants : StoredGrants → Grants
  | .entries value => Grants.ofMasks (OrderedMap.ofList value)
  | .object value =>
    Grants.withFullRoles ((Role.ladder ++ [Role.owner]).foldl (fun g role =>
      match value role with
      | some mask => g.setRoleGrants role mask
      | none => g) Grants.cleared)

/-- A row of the rooms table. -/
structure DbRoom where
  name : String
  title : String
  description : String
  visibility : Visibility
  queueMode : QueueMode
  ownerId : Option UserId
  permissions : StoredGrants
  roleTrusted : List UserId
  roleMod : List UserId
  roleAdmin : List UserId
  autoSkipSegmentCategories : List Category
  prevQueue : Option (List QueueItem)
  restoreQueueBehavior : BehaviorOption
  enableVoteSkip : Bool

/-- `Partial<RoomStatePersistable>`. An owner that is missing and one that is null are read alike. -/
structure PersistablePartial where
  title : Option String
  description : Option String
  visibility : Option Visibility
  queueMode : Option QueueMode
  owner : Option User
  grants : Option Grants
  userRoles : Option (OrderedMap Role (OrderedSet UserId))
  autoSkipSegmentCategories : Option (List Category)
  prevQueue : Option (Option (List QueueItem))
  restoreQueueBehavior : Option BehaviorOption
  enableVoteSkip : Option Bool

/-- The columns that an update sets. -/
structure DbRoomUpdate where
  title : Option String
  description : Option String
  visibility : Option Visibility
  queueMode : Option QueueMode
  ownerId : Option UserId
  permissions : Option StoredGrants
  roleTrusted : Option (List UserId)
  roleMod : Option (List UserId)
  roleAdmin : Option (List UserId)
  autoSkipSegmentCategories : Option (List Category)
  prevQueue : Option (Option (List QueueItem))
  restoreQueueBehavior : Option BehaviorOption
  enableVoteSkip : Option Bool

/-- The masks of administrators and the owner are not stored. -/
def filterGrants (grants : Grants) : Grants :=
  (grants.deleteRole .administrator).deleteRole .owner

/-- `Array.from(userRoles.get(role)?.values() ?? [])`. -/
def roleIds (userRoles : OrderedMap Role (OrderedSet UserId)) (role : Role) : List UserId :=
  ((userRoles.get? role).map OrderedSet.toList).getD []

def roomToDb (room : Room) : DbRoom where
  name := room.name
  title := room.title
  description := room.description
  visibility := room.visibility
  queueMode := room.queueMode
  ownerId := room.owner.map (·.id)
  permissions := .entries (filterGrants room.grants).masks.entries
  roleTrusted := roleIds room.userRoles .trustedUser
  roleMod := roleIds room.userRoles .moderator
  roleAdmin := roleIds room.userRoles .administrator
  autoSkipSegmentCategories := room.autoSkipSegmentCategories
  prevQueue := room.prevQueue
  restoreQueueBehavior := room.restoreQueueBehavior
  enableVoteSkip := room.enableVoteSkip

/-- Seven columns go through `_.pickBy(…, v => !!v)`. An array and a non-empty string are true. -/
def roomToDbPartial (room : PersistablePartial) : DbRoomUpdate where
  title := truthy room.title
  description := truthy room.description
  visibility := room.visibility
  queueMode := room.queueMode
  ownerId := room.owner.map (·.id)
  permissions := room.grants.map (fun grants => .entries (filterGrants grants).masks.entries)
  roleTrusted := room.userRoles.map (roleIds · .trustedUser)
  roleMod := room.userRoles.map (roleIds · .moderator)
  roleAdmin := room.userRoles.map (roleIds · .administrator)
  autoSkipSegmentCategories := room.autoSkipSegmentCategories
  prevQueue := room.prevQueue
  -- `BehaviorOption.Never` is 0
  restoreQueueBehavior := room.restoreQueueBehavior.filter (· ≠ .never)
  enableVoteSkip := room.enableVoteSkip.filter id

/-- A whole room as an argument of `roomToDbPartial`. -/
def Room.persistable (room : Room) : PersistablePartial where
  title := room.title
  description := room.description
  visibility := room.visibility
  queueMode := room.queueMode
  owner := room.owner
  grants := room.grants
  userRoles := room.userRoles
  autoSkipSegmentCategories := room.autoSkipSegmentCategories
  prevQueue := some room.prevQueue
  restoreQueueBehavior := room.restoreQueueBehavior
  enableVoteSkip := room.enableVoteSkip

/-- `UPDATE`: the columns that are set get their values, the others keep theirs. -/
def DbRoom.update (row : DbRoom) (update : DbRoomUpdate) : DbRoom where
  name := row.name
  title := update.title.getD row.title
  description := update.description.getD row.description
  visibility := update.visibility.getD row.visibility
  queueMode := update.queueMode.getD row.queueMode
  ownerId := update.ownerId <|> row.ownerId
  permissions := update.permissions.getD row.permissions
  roleTrusted := update.roleTrusted.getD row.roleTrusted
  roleMod := update.roleMod.getD row.roleMod
  roleAdmin := update.roleAdmin.getD row.roleAdmin
  autoSkipSegmentCategories := update.autoSkipSegmentCategories.getD row.autoSkipSegmentCategories
  prevQueue := update.prevQueue.getD row.prevQueue
  restoreQueueBehavior := update.restoreQueueBehavior.getD row.restoreQueueBehavior
  enableVoteSkip := update.enableVoteSkip.getD row.enableVoteSkip

/-- The three sets of `dbToRoomArgs`. -/
def dbUserRoles (db : DbRoom) : OrderedMap Role (OrderedSet UserId) :=
  ((OrderedMap.empty.set .trustedUser (OrderedSet.ofList db.roleTrusted)).set .moderator
    (OrderedSet.ofList db.roleMod)).set .administrator (OrderedSet.ofList db.roleAdmin)

/-- The options of a room that is loaded from its row. The row comes with its owner's account, which
is looked up in `users`. -/
def dbToRoomArgs (users : UserId → Option User) (db : DbRoom) : RoomOptions where
  name := db.name
  title := db.title
  description := db.description
  isTemporary := some false
  visibility := db.visibility
  queueMode := db.queueMode
  owner := some (db.ownerId.bind users)
  grants := some (.grants db.permissions.grants)
  userRoles := some (.map (dbUserRoles db))
  autoSkipSegmentCategories := db.autoSkipSegmentCategories
  prevQueue := some db.prevQueue
  restoreQueueBehavior := db.restoreQueueBehavior
  enableVoteSkip := db.enableVoteSkip

/-! ## Redis -/

/-- The properties that are stored in redis. -/
structure RedisState where
  name : String
  title : String
  description : String
  isTemporary : Bool
  visibility : Visibility
  queueMode : QueueMode
  currentSource : Option QueueItem
  queue : List QueueItem
  isPlaying : Bool
  playbackPosition : ℚ
  playbackSpeed : ℚ
  grants : List (Role × GrantMask)
  userRoles : List (Role × List UserId)
  owner : Option User
  playbackStart : Option Time
  videoSegments : List Segment
  autoSkipSegmentCategories : List Category
  prevQueue : Option (List QueueItem)
  restoreQueueBehavior : BehaviorOption
  enableVoteSkip : Bool

/-- `_.pick(this, ...storableProps)`, as it comes back from JSON. -/
def Room.serializeState (r : Room) : RedisState where
  name := r.name
  title := r.title
  description := r.description
  isTemporary := r.isTemporary
  visibility := r.visibility
  queueMode := r.queueMode
  currentSource := r.currentSource.map (·.item)
  queue := r.queue.map (·.item)
  isPlaying := r.isPlaying
  playbackPosition := r.playbackPosition
  playbackSpeed := r.playbackSpeed
  grants := r.grants.masks.entries
  userRoles := r.userRoles.entries.map (fun e => (e.1, e.2.toList))
  owner := r.owner
  playbackStart := r.playbackStart
  videoSegments := r.videoSegments
  autoSkipSegmentCategories := r.autoSkipSegmentCategories
  prevQueue := r.prevQueue
  restoreQueueBehavior := r.restoreQueueBehavior
  enableVoteSkip := r.enableVoteSkip

/-- The options of a room that is loaded from redis. The constructor has no option for the segments
of the video. -/
def redisStateToState (state : RedisState) : RoomOptions where
  name := state.name
  title := state.title
  description := state.description
  isTemporary := state.isTemporary
  visibility := state.visibility
  queueMode := state.queueMode
  owner := some state.owner
  grants := some (.grants (Grants.ofMasks (OrderedMap.ofList state.grants)))
  userRoles := some (.map
    (OrderedMap.ofList (state.userRoles.map (fun e => (e.1, OrderedSet.ofList e.2)))))
  autoSkipSegmentCategories := state.autoSkipSegmentCategories
  restoreQueueBehavior := state.restoreQueueBehavior
  enableVoteSkip := state.enableVoteSkip
  currentSource := some state.currentSource
  queue := state.queue
  prevQueue := some state.prevQueue
  isPlaying := state.isPlaying
  playbackPosition := state.playbackPosition
  playbackSpeed := state.playbackSpeed
  playbackStart := state.playbackStart

/-! ## What comes back -/

theorem StoredGrants.normal (stored : StoredGrants) : stored.grants.Normal := by
  cases stored with
  | entries value => exact Grants.normal_ofMasks _
  | object value =>
    refine Grants.normal_withFullRoles ?_
    have hfold : ∀ (roles : List Role) (g : Grants), g.Valid →
        (roles.foldl (fun g role =>
          match value role with
          | some mask => g.setRoleGrants role mask
          | none => g) g).Valid := by
      intro roles
      induction roles with
      | nil => exact fun g hg => hg
      | cons role roles ih =>
        intro g hg
        refine ih _ ?_
        dsimp only
        cases value role with
        | none => exact hg
        | some mask => exact hg.setRoleGrants role mask
    exact hfold _ _ Grants.valid_cleared

/-- A mask that was not left out. -/
theorem get?_filterGrants (grants : Grants) {role : Role} (h : Grants.Chosen role) :
    (filterGrants grants).masks.get? role = grants.masks.get? role := by
  rw [filterGrants, Grants.deleteRole, Grants.deleteRole, OrderedMap.get?_erase, if_neg h.2,
    OrderedMap.get?_erase, if_neg h.1]

/-- **Grants come back from the database.** -/
theorem getMask_stored {grants : Grants} (h : grants.Normal) (role : Role) :
    (StoredGrants.entries (filterGrants grants).masks.entries).grants.getMask role =
      grants.getMask role := by
  rw [StoredGrants.grants, OrderedMap.ofList_entries]
  exact Grants.getMask_ofMasks h (fun role hrole => by rw [get?_filterGrants grants hrole]; rfl) role

/-- The sets of roles come back from the database. -/
theorem get?_dbUserRoles (room : Room) {row : DbRoom}
    (htrusted : row.roleTrusted = roleIds room.userRoles .trustedUser)
    (hmod : row.roleMod = roleIds room.userRoles .moderator)
    (hadmin : row.roleAdmin = roleIds room.userRoles .administrator) {role : Role}
    (hrole : role ∈ Room.assignableRoles) :
    (dbUserRoles row).get? role = some ((room.userRoles.get? role).getD ∅) := by
  have hset : ∀ role, OrderedSet.ofList (roleIds room.userRoles role) =
      (room.userRoles.get? role).getD ∅ := by
    intro role
    unfold roleIds
    cases room.userRoles.get? role with
    | none => rfl
    | some set => exact OrderedSet.ofList_toList set
  rw [dbUserRoles, htrusted, hmod, hadmin, hset, hset, hset]
  cases role <;> first
    | exact absurd hrole (by decide)
    | simp

end OpenTogetherTube.Server
