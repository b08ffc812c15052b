import OpenTogetherTube.Server.Reachable

/-!
# What comes back

A room is kept in two places, and brought back from either.

**Redis** has twenty properties of a room. `revived_agrees` says that a room that is brought back is
the one that was stored, with two exceptions. The queue that was saved at the last unload goes
through the constructor's restore rules once more; these may drop it, or put it into an empty queue.
And the segments of the current video are left where they are.

**The database** is written in two ways, and the second leaves out what is false, empty or null. A
column that is left out keeps what was there, and `persists_iff` says for which values of which
columns that matters.
-/

namespace OpenTogetherTube.Server.Room

open OpenTogetherTube.Common OpenTogetherTube.Lib

/-! ## Redis -/

/-- `storableProps`. -/
inductive StorableProp where
  | name | title | description | isTemporary | visibility | queueMode | currentSource | queue
  | isPlaying | playbackPosition | playbackSpeed | grants | userRoles | owner | playbackStart
  | videoSegments | autoSkipSegmentCategories | prevQueue | restoreQueueBehavior | enableVoteSkip
  deriving DecidableEq

/-- Two rooms have the same value of a property: items without their identities, and grants role by
role. -/
def Agrees (r r' : Room) : StorableProp → Prop
  | .name => r'.name = r.name
  | .title => r'.title = r.title
  | .description => r'.description = r.description
  | .isTemporary => r'.isTemporary = r.isTemporary
  | .visibility => r'.visibility = r.visibility
  | .queueMode => r'.queueMode = r.queueMode
  | .currentSource => r'.currentSource.map (·.item) = r.currentSource.map (·.item)
  | .queue => r'.queue.map (·.item) = r.queue.map (·.item)
  | .isPlaying => r'.isPlaying = r.isPlaying
  | .playbackPosition => r'.playbackPosition = r.playbackPosition
  | .playbackSpeed => r'.playbackSpeed = r.playbackSpeed
  | .grants => ∀ role, r'.grants.getMask role = r.grants.getMask role
  | .userRoles => r'.userRoles = r.userRoles
  | .owner => r'.owner = r.owner
  | .playbackStart => r'.playbackStart = r.playbackStart
  | .videoSegments => r'.videoSegments = r.videoSegments
  | .autoSkipSegmentCategories => r'.autoSkipSegmentCategories = r.autoSkipSegmentCategories
  | .prevQueue => r'.prevQueue = r.prevQueue
  | .restoreQueueBehavior => r'.restoreQueueBehavior = r.restoreQueueBehavior
  | .enableVoteSkip => r'.enableVoteSkip = r.enableVoteSkip

/-- The room that is brought back from what is in redis. -/
def revive (r : Room) (now : Time) : Room := construct (redisStateToState r.serializeState) now

/-- The restore rules, for a room that is brought back: a room that never restores its queue forgets
it, one that always does has it as its queue if that was empty, and otherwise both are kept. -/
structure Restores (r r' : Room) : Prop where
  never : r.restoreQueueBehavior = .never → r.Agrees r' .queue ∧ r'.prevQueue = none
  always : ∀ items, r.restoreQueueBehavior = .always → r.queue = [] → r.prevQueue = some items →
    r'.queue.map (·.item) = items ∧ r'.prevQueue = none
  otherwise : r.restoreQueueBehavior ≠ .never →
    (r.restoreQueueBehavior = .always → r.queue = [] → r.prevQueue = none) →
      r.Agrees r' .queue ∧ r.Agrees r' .prevQueue

section Redis

variable (r : Room) (now : Time)

theorem setPrevQueue_eq (value : Option (List QueueItem)) :
    r.setPrevQueue value = { r with
      prevQueue := value
      dirty := if value = none ∧ r.prevQueue = none then r.dirty else insert .prevQueue r.dirty } := by
  unfold setPrevQueue
  split
  · next h => rw [h.1, ← h.2]
  · rfl

theorem entriesFrom_items (object : ObjectId) (items : List QueueItem) :
    (entriesFrom object items).map (·.item) = items := by
  refine List.ext_getElem (by simp [entriesFrom]) (fun i _ _ => ?_)
  simp [entriesFrom]

/-- The room before the restore rules. -/
def beforeRestore : Room := (blank now).assignOptions (redisStateToState r.serializeState)

theorem beforeRestore_eq : r.beforeRestore now = { blank now with
    name := r.name
    title := r.title
    description := r.description
    isTemporary := r.isTemporary
    visibility := r.visibility
    queueMode := r.queueMode
    owner := r.owner
    autoSkipSegmentCategories := r.autoSkipSegmentCategories
    restoreQueueBehavior := r.restoreQueueBehavior
    enableVoteSkip := r.enableVoteSkip
    currentSource := (r.currentSource.map (·.item)).map (fun item => ⟨0, item⟩)
    queue := entriesFrom 1 (r.queue.map (·.item))
    prevQueue := r.prevQueue
    isPlaying := r.isPlaying
    playbackPosition := r.playbackPosition
    playbackSpeed := r.playbackSpeed
    dirty := (r.beforeRestore now).dirty } := by
  simp only [beforeRestore, assignOptions, redisStateToState, serializeState, assign, setName,
    setTitle, setDescription, setVisibility, setQueueMode, setOwner, setCurrentSource,
    setPlaybackPosition, setIsPlaying, setPlaybackSpeed, setAutoSkipSegmentCategories,
    setPrevQueue_eq, setRestoreQueueBehavior, setEnableVoteSkip, markDirty]

/-- The restore rules change only the two queues and their marks. -/
theorem restored_frame : ∃ queue prevQueue dirty,
    r.restored = { r with queue := queue, prevQueue := prevQueue, dirty := dirty } := by
  obtain ⟨-, h⟩ | ⟨-, -, items, -, h⟩ | ⟨-, -, h⟩ := r.restored_cases
  · exact ⟨_, _, _, h.trans (setPrevQueue_eq r none)⟩
  · exact ⟨_, _, _, h.trans (setPrevQueue_eq _ none)⟩
  · exact ⟨_, _, _, h⟩

/-- After the restore rules come the grants, the roles and the clock. -/
theorem revive_eq : r.revive now = { (r.beforeRestore now).restored with
    grants := Grants.ofMasks (OrderedMap.ofList r.grants.masks.entries)
    userRoles := r.userRoles
    playbackStart := r.playbackStart
    votesToSkip := ∅ } := by
  have hstart : (r.playbackStart <|> (r.beforeRestore now).restored.playbackStart) =
      r.playbackStart := by
    obtain ⟨queue, prevQueue, dirty, h⟩ := (r.beforeRestore now).restored_frame
    rw [h, beforeRestore_eq]
    cases r.playbackStart <;> rfl
  rw [revive, construct_eq]
  show { (r.beforeRestore now).restored with
    grants := Grants.ofMasks (OrderedMap.ofList r.grants.masks.entries)
    userRoles := OrderedMap.ofList
      (r.serializeState.userRoles.map (fun (e : Role × List UserId) =>
        (e.1, OrderedSet.ofList e.2)))
    playbackStart := r.playbackStart <|> (r.beforeRestore now).restored.playbackStart
    votesToSkip := ∅ } = _
  rw [redisUserRoles, hstart]

/-- Every other property comes back as it was. -/
theorem agrees_revive (hgrants : r.grants.Normal) {prop : StorableProp} (hqueue : prop ≠ .queue)
    (hprev : prop ≠ .prevQueue) (hsegments : prop ≠ .videoSegments) :
    r.Agrees (r.revive now) prop := by
  obtain ⟨queue, prevQueue, dirty, hrestored⟩ := (r.beforeRestore now).restored_frame
  have hmasks : ∀ role, (Grants.ofMasks (OrderedMap.ofList r.grants.masks.entries)).getMask role =
      r.grants.getMask role := by
    rw [OrderedMap.ofList_entries]
    exact Grants.getMask_ofMasks hgrants (fun _ _ => rfl)
  rw [revive_eq, hrestored, beforeRestore_eq]
  cases prop with
  | queue => exact absurd rfl hqueue
  | prevQueue => exact absurd rfl hprev
  | videoSegments => exact absurd rfl hsegments
  | currentSource =>
    show ((r.currentSource.map (·.item)).map (fun item => QueueEntry.mk 0 item)).map (·.item) = _
    rw [Option.map_map]
    exact congrFun Option.map_id _
  | grants => exact hmasks
  | _ => rfl

/-- The two queues go through the restore rules. -/
theorem restores_revive : r.Restores (r.revive now) := by
  have hqueue : (r.beforeRestore now).queue.map (·.item) = r.queue.map (·.item) := by
    rw [beforeRestore_eq]
    exact entriesFrom_items 1 _
  have hempty : (r.beforeRestore now).queue = [] ↔ r.queue = [] := by
    rw [← List.map_eq_nil_iff (f := fun e => e.item), hqueue, List.map_eq_nil_iff]
  have hprev : (r.beforeRestore now).prevQueue = r.prevQueue := by rw [beforeRestore_eq]
  have hbehavior : (r.beforeRestore now).restoreQueueBehavior = r.restoreQueueBehavior := by
    rw [beforeRestore_eq]
  have hcases := (r.beforeRestore now).restored_cases
  rw [hbehavior, hempty, hprev] at hcases
  rw [revive_eq]
  obtain ⟨hnever, h⟩ | ⟨halways, hnil, items, hitems, h⟩ | ⟨hnever, hkept, h⟩ := hcases
  · rw [h, setPrevQueue_eq]
    exact ⟨fun _ => ⟨hqueue, rfl⟩, fun _ hc => absurd (hnever.symm.trans hc) (by decide),
      fun hc => absurd hnever hc⟩
  · rw [h, setPrevQueue_eq]
    refine ⟨fun hc => absurd (halways.symm.trans hc) (by decide), fun items' _ _ hitems' => ?_,
      fun _ hc => ?_⟩
    · rw [hitems, Option.some.injEq] at hitems'
      exact ⟨hitems' ▸ entriesFrom_items 1 items, rfl⟩
    · rw [hitems] at hc
      cases hc halways hnil
  · rw [h]
    refine ⟨fun hc => absurd hc hnever, fun items halways hnil hitems => ?_,
      fun _ _ => ⟨hqueue, hprev⟩⟩
    rw [hkept halways hnil] at hitems
    cases hitems

/-- The playback head is where its four properties put it. -/
theorem realPlaybackPosition_congr {r r' : Room} (hstart : r.Agrees r' .playbackStart)
    (hplaying : r.Agrees r' .isPlaying) (hposition : r.Agrees r' .playbackPosition)
    (hspeed : r.Agrees r' .playbackSpeed) (time : Time) :
    r'.realPlaybackPosition time = r.realPlaybackPosition time := by
  have hstart' : r'.playbackStart = r.playbackStart := hstart
  have hplaying' : r'.isPlaying = r.isPlaying := hplaying
  have hposition' : r'.playbackPosition = r.playbackPosition := hposition
  have hspeed' : r'.playbackSpeed = r.playbackSpeed := hspeed
  unfold realPlaybackPosition calcDurationFromPlaybackStart
  rw [hstart', hplaying', hposition', hspeed']

end Redis

/-- **What comes back from redis.** A room that is brought back is the one that was stored, its
queues after the restore rules, and the playback head is where it was at every time. -/
theorem revived_agrees {r : Room} (h : r.Reachable) (now : Time) :
    (∀ prop, prop ≠ .queue → prop ≠ .prevQueue → prop ≠ .videoSegments →
      r.Agrees (r.revive now) prop) ∧
    r.Restores (r.revive now) ∧
    ∀ time, (r.revive now).realPlaybackPosition time = r.realPlaybackPosition time := by
  have hagrees : ∀ prop, prop ≠ .queue → prop ≠ .prevQueue → prop ≠ .videoSegments →
      r.Agrees (r.revive now) prop := fun _ => r.agrees_revive now h.wellFormed.grants
  refine ⟨hagrees, r.restores_revive now, realPlaybackPosition_congr ?_ ?_ ?_ ?_⟩
  all_goals exact hagrees _ (by decide) (by decide) (by decide)

/-- The row of a room that was unloaded with a video in its queue, and that anybody may set up. -/
def promptRow : DbRoom where
  name := "foo"
  title := ""
  description := ""
  visibility := .Public
  queueMode := .manual
  ownerId := none
  permissions := .entries [(.unregisteredUser, parseIntoGrantMask ["configure-room.other"])]
  roleTrusted := []
  roleMod := []
  roleAdmin := []
  autoSkipSegmentCategories := []
  prevQueue := some [QueueItem.ofVideoId ⟨.youtube, "saved"⟩]
  restoreQueueBehavior := .prompt
  enableVoteSkip := false

/-- The room after a visitor has set it up to never restore its queue. -/
def neverRestoring : Room :=
  ((processUnauthorizedRequest { emptyEnv 0 with session := fun _ => some (.loggedOut "visitor") }
    (.applySettings ⟨[.restoreQueueBehavior .never], none, by decide⟩)
    ⟨"visitor's token", none⟩).run (construct (dbToRoomArgs (fun _ => none) promptRow) 0)).state

theorem neverRestoring_reachable : neverRestoring.Reachable := .requested (.loaded _ _ _) _ _ _

/-- It comes back, its queue forgotten. -/
theorem revived_agrees_neverRestoring :
    (∀ prop, prop ≠ .queue → prop ≠ .prevQueue → prop ≠ .videoSegments →
      neverRestoring.Agrees (neverRestoring.revive 1) prop) ∧
    neverRestoring.Restores (neverRestoring.revive 1) ∧
    ∀ time, (neverRestoring.revive 1).realPlaybackPosition time =
      neverRestoring.realPlaybackPosition time :=
  revived_agrees neverRestoring_reachable 1

/-- **Not everything that is stored comes back**: the queue of the last unload, for a room that never
restores it. -/
theorem not_revived_agrees :
    ¬ ∀ r : Room, r.Reachable → ∀ now, (∀ prop, r.Agrees (r.revive now) prop) ∧
      ∀ time, (r.revive now).realPlaybackPosition time = r.realPlaybackPosition time := by
  intro h
  have hprev : (neverRestoring.revive 0).prevQueue = neverRestoring.prevQueue :=
    (h neverRestoring neverRestoring_reachable 0).1 .prevQueue
  have hlost : (neverRestoring.revive 0).prevQueue = none ∧ neverRestoring.prevQueue ≠ none := by
    decide +kernel
  exact hlost.2 (hprev.symm.trans hlost.1)

/-! ## The database -/

/-- A room that is loaded with the options is this one again, as far as the row goes. -/
structure Loads (options : RoomOptions) (r : Room) : Prop where
  name : options.name = some r.name
  title : options.title = some r.title
  description : options.description = some r.description
  visibility : options.visibility = some r.visibility
  queueMode : options.queueMode = some r.queueMode
  autoSkipSegmentCategories : options.autoSkipSegmentCategories = some r.autoSkipSegmentCategories
  restoreQueueBehavior : options.restoreQueueBehavior = some r.restoreQueueBehavior
  enableVoteSkip : options.enableVoteSkip = some r.enableVoteSkip
  prevQueue : options.prevQueue = some r.prevQueue
  owner : options.owner = some r.owner
  grants : ∃ grants, options.grants = some (.grants grants) ∧
    ∀ role, grants.getMask role = r.grants.getMask role
  userRoles : ∃ userRoles, options.userRoles = some (.map userRoles) ∧
    ∀ role, userRoles.get? role = r.userRoles.get? role

/-- The values that an update never writes are in the row already. -/
structure Unwritten (r : Room) (row : DbRoom) : Prop where
  title : r.title = "" → row.title = ""
  description : r.description = "" → row.description = ""
  restoreQueueBehavior : r.restoreQueueBehavior = .never → row.restoreQueueBehavior = .never
  enableVoteSkip : r.enableVoteSkip = false → row.enableVoteSkip = false
  owner : r.owner = none → row.ownerId = none

/-- **The purpose**: an updated row is the row that would be created, and the room can be loaded
from it. -/
def Persists (r : Room) (users : UserId → Option User) (row : DbRoom) : Prop :=
  row.update (roomToDbPartial r.persistable) = roomToDb r ∧
    Loads (dbToRoomArgs users (row.update (roomToDbPartial r.persistable))) r

section Database

variable {r : Room} {users : UserId → Option User} {row : DbRoom}

/-- A text is written unless it is empty. -/
theorem truthy_getD_iff (value old : String) :
    (truthy (some value)).getD old = value ↔ (value = "" → old = "") := by
  by_cases h : value = ""
  · simp [truthy, h]
  · simp [truthy, h]

theorem behavior_getD_iff (value old : BehaviorOption) :
    ((some value).filter (· ≠ .never)).getD old = value ↔ (value = .never → old = .never) := by
  cases value <;> simp [Option.filter]

theorem flag_getD_iff (value old : Bool) :
    ((some value).filter id).getD old = value ↔ (value = false → old = false) := by
  cases value <;> simp [Option.filter]

theorem owner_orElse_iff (value : Option User) (old : Option UserId) :
    ((value.map (·.id)) <|> old) = value.map (·.id) ↔ (value = none → old = none) := by
  cases value <;> simp

/-- The roles that were stored are the roles that come back. -/
theorem dbUserRoles_eq (h : r.WellFormed)
    (htrusted : row.roleTrusted = roleIds r.userRoles .trustedUser)
    (hmod : row.roleMod = roleIds r.userRoles .moderator)
    (hadmin : row.roleAdmin = roleIds r.userRoles .administrator) (role : Role) :
    (dbUserRoles row).get? role = r.userRoles.get? role := by
  by_cases hrole : role ∈ assignableRoles
  · rw [get?_dbUserRoles r htrusted hmod hadmin hrole]
    obtain ⟨set, hset⟩ := Option.isSome_iff_exists.mp ((h.roles role).mpr hrole)
    rw [hset, Option.getD_some]
  · have hnone : ∀ {roles : OrderedMap Role (OrderedSet UserId)},
        ((roles.get? role).isSome ↔ role ∈ assignableRoles) → roles.get? role = none :=
      fun hroles => Option.not_isSome_iff_eq_none.mp (fun hsome => hrole (hroles.mp hsome))
    rw [hnone (h.roles role), hnone (dbUserRoles_roles _ role)]

/-- A row that is created loads as the room. -/
theorem loads_roomToDb (h : r.WellFormed)
    (haccounts : ∀ owner, r.owner = some owner → users owner.id = some owner) :
    Loads (dbToRoomArgs users (roomToDb r)) r where
  name := rfl
  title := rfl
  description := rfl
  visibility := rfl
  queueMode := rfl
  autoSkipSegmentCategories := rfl
  restoreQueueBehavior := rfl
  enableVoteSkip := rfl
  prevQueue := rfl
  owner := by
    show some ((r.owner.map (·.id)).bind users) = some r.owner
    cases howner : r.owner with
    | none => rfl
    | some owner => exact congrArg some (haccounts owner howner)
  grants := ⟨_, rfl, getMask_stored h.grants⟩
  userRoles := ⟨_, rfl, dbUserRoles_eq h rfl rfl rfl⟩

/-- **Which columns an update gets right.** -/
theorem update_eq_roomToDb_iff (hname : row.name = r.name) :
    row.update (roomToDbPartial r.persistable) = roomToDb r ↔ r.Unwritten row := by
  have htitle := truthy_getD_iff r.title row.title
  have hdescription := truthy_getD_iff r.description row.description
  have hbehavior := behavior_getD_iff r.restoreQueueBehavior row.restoreQueueBehavior
  have henable := flag_getD_iff r.enableVoteSkip row.enableVoteSkip
  have howner := owner_orElse_iff r.owner row.ownerId
  constructor
  · intro heq
    exact ⟨htitle.mp (congrArg DbRoom.title heq), hdescription.mp (congrArg DbRoom.description heq),
      hbehavior.mp (congrArg DbRoom.restoreQueueBehavior heq),
      henable.mp (congrArg DbRoom.enableVoteSkip heq), howner.mp (congrArg DbRoom.ownerId heq)⟩
  · intro h
    rw [DbRoom.update, roomToDb, DbRoom.mk.injEq]
    exact ⟨hname, htitle.mpr h.title, hdescription.mpr h.description, rfl, rfl,
      howner.mpr h.owner, rfl, rfl, rfl, rfl, rfl, rfl, hbehavior.mpr h.restoreQueueBehavior,
      henable.mpr h.enableVoteSkip⟩

end Database

/-- **Exactly when an update does what it is for**, for a room and any row it may have. -/
theorem persists_iff {r : Room} (h : r.Reachable) {users : UserId → Option User} {row : DbRoom}
    (hname : row.name = r.name)
    (haccounts : ∀ owner, r.owner = some owner → users owner.id = some owner) :
    r.Persists users row ↔ r.Unwritten row := by
  rw [Persists, update_eq_roomToDb_iff hname, and_iff_left_iff_imp]
  intro hunwritten
  rw [(update_eq_roomToDb_iff hname).mpr hunwritten]
  exact loads_roomToDb h.wellFormed haccounts

/-- A row that never restores the queue either is updated as it should be. -/
theorem persists_iff_neverRestoring :
    neverRestoring.Persists (fun _ => none) { promptRow with restoreQueueBehavior := .never } := by
  have hfields : neverRestoring.name = "foo" ∧ neverRestoring.owner = none := by decide +kernel
  refine (persists_iff neverRestoring_reachable hfields.1.symm (fun owner howner => ?_)).mpr
    ⟨fun _ => rfl, fun _ => rfl, fun _ => rfl, fun _ => rfl, fun _ => rfl⟩
  rw [hfields.2] at howner
  cases howner

/-- **A room that is set up to never restore its queue is loaded as one that asks.** -/
theorem not_persists :
    ¬ ∀ r : Room, r.Reachable → ∀ (users : UserId → Option User) (row : DbRoom), row.name = r.name →
      (∀ owner, r.owner = some owner → users owner.id = some owner) → r.Persists users row := by
  intro h
  have hfields : (neverRestoring.name = "foo" ∧ neverRestoring.owner = none) ∧
      neverRestoring.restoreQueueBehavior = .never := by decide +kernel
  have hpersists := h neverRestoring neverRestoring_reachable (fun _ => none) promptRow
    hfields.1.1.symm (fun owner howner => by
      rw [hfields.1.2] at howner
      cases howner)
  have hunwritten := (update_eq_roomToDb_iff hfields.1.1.symm).mp hpersists.1
  exact absurd (hunwritten.restoreQueueBehavior hfields.2) (by decide)

end OpenTogetherTube.Server.Room
