import OpenTogetherTube.Lib.Machine
import OpenTogetherTube.Server.Reload
import OpenTogetherTube.Server.RoomLookup
import OpenTogetherTube.Server.Settings

/-!
# Creating and loading a room

`createRoom` and `getRoom` ask redis and the database several times, and each time they may fail. A
call that fails should leave everything as it was, and a room that is loaded should have an epoch
and be announced.

There are two defects. `addRoom` puts the room into the array before redis has given it an epoch,
and nobody takes it out again if redis fails. And `saveRoom` reports a failed insert by a return
value that `createRoom` does not look at. `all_or_nothing_iff` says that these are all.

A call is executed alone, and a call of redis or the database that fails has no effect there. The
timers that a room arms go off later, and are not part of it.
-/

namespace OpenTogetherTube.Server.Creation

open OpenTogetherTube.Common OpenTogetherTube.Lib Room

/-! ## The stores -/

/-- A room in the array, and its `loadEpoch`. -/
structure LoadedRoom where
  room : Room
  loadEpoch : Int

/-- The array, what redis has under `room:` and a name and as the last epoch, the rows of the
database, and the rooms that `load` was emitted for. -/
structure World where
  rooms : List LoadedRoom
  redis : String → Option RedisState
  loadEpochKey : Nat
  rows : List DbRoom
  announced : List String

/-- Which calls go through. `createRoom` looks for the row of its room twice. -/
structure Outcomes where
  redisGet : Bool
  redisExists : Bool
  findOne : Bool
  findOneAgain : Bool
  create : Bool
  update : Bool
  redisIncr : Bool
  redisSet : Bool
  deriving DecidableEq, Repr

/-- How a call fails: by an exception of its own, or because it awaits something that fails. -/
inductive CallError where
  | roomNotFound (roomName : String)
  | roomNameTaken (name : String)
  | noName
  | rejected
  deriving DecidableEq, Repr

/-- The options that `createRoom` takes with the name. What plays is not among them. -/
structure CreateOptions where
  title : Option String := none
  description : Option String := none
  visibility : Option Visibility := none
  queueMode : Option QueueMode := none
  isTemporary : Option Bool := none
  owner : Option (Option User) := none
  grants : Option GrantsOption := none
  userRoles : Option UserRolesOption := none
  autoSkipSegmentCategories : Option (List Category) := none
  restoreQueueBehavior : Option BehaviorOption := none
  enableVoteSkip : Option Bool := none
  prevQueue : Option (Option (List QueueItem)) := none

def CreateOptions.roomOptions (options : CreateOptions) (name : String) : RoomOptions where
  name := name
  title := options.title
  description := options.description
  visibility := options.visibility
  queueMode := options.queueMode
  isTemporary := options.isTemporary
  owner := options.owner
  grants := options.grants
  userRoles := options.userRoles
  autoSkipSegmentCategories := options.autoSkipSegmentCategories
  restoreQueueBehavior := options.restoreQueueBehavior
  enableVoteSkip := options.enableVoteSkip
  prevQueue := options.prevQueue

/-- `isTemporary` is false by default. -/
def CreateOptions.Permanent (options : CreateOptions) : Prop :=
  options.isTemporary.getD false = false

instance (options : CreateOptions) : Decidable options.Permanent :=
  inferInstanceAs (Decidable (_ = _))

namespace World

/-! ## The storage -/

section Calls

variable (toLowerCase lower : String → String) (users : UserId → Option User)

def findLoaded (w : World) (roomName : String) : Option LoadedRoom :=
  w.rooms.find? (fun loaded => toLowerCase loaded.room.name = toLowerCase roomName)

def findRow (w : World) (roomName : String) : Option DbRoom :=
  w.rows.find? (fun row => lower row.name = lower roomName)

def isRoomNameTaken (w : World) (findOne : Bool) (roomName : String) : Except CallError Bool :=
  if findOne then .ok (w.findRow lower roomName).isSome else .error .rejected

/-- A row that cannot be inserted is no error. -/
def saveRoom (w : World) (o : Outcomes) (room : Room) : World × Except CallError Bool :=
  match w.isRoomNameTaken lower o.findOneAgain room.name with
  | .error e => (w, .error e)
  | .ok true => (w, .ok false)
  | .ok false =>
    if o.create then ({ w with rows := w.rows ++ [roomToDb room] }, .ok true) else (w, .ok false)

/-- Nor is a row that cannot be updated, but a room without a name is. -/
def updateRoom (w : World) (o : Outcomes) (name : String) (room : PersistablePartial) :
    World × Except CallError Bool :=
  if name = "" then (w, .error .noName)
  else if o.update then
    ({ w with rows := w.rows.map (fun row =>
        if lower row.name = lower name then row.update (roomToDbPartial room) else row) },
      .ok (w.findRow lower name).isSome)
  else (w, .ok false)

/-- `room.sync()`, as far as it goes to the database. -/
def sync (w : World) (o : Outcomes) (room : Room) : World × Except CallError Room :=
  if room.dirty = ∅ then (w, .ok room)
  else match w.updateRoom lower o room.name room.picked with
    | (w, .error e) => (w, .error e)
    | (w, .ok _) => (w, .ok { room with dirty := ∅ })

/-! ## The room manager -/

def addRoom (w : World) (o : Outcomes) (room : Room) : World × Except CallError Unit :=
  if o.redisIncr then
    let epoch := w.loadEpochKey + 1
    let w := { w with rooms := w.rooms ++ [⟨room, epoch⟩], loadEpochKey := epoch }
    if epoch ≥ 2147483640 then
      if o.redisSet then
        ({ w with loadEpochKey := 0, announced := w.announced ++ [room.name] }, .ok ())
      else (w, .error .rejected)
    else ({ w with announced := w.announced ++ [room.name] }, .ok ())
  else ({ w with rooms := w.rooms ++ [⟨room, -1⟩] }, .error .rejected)

/-- The three ways in which `createRoom` finds a name taken. -/
def checkName (w : World) (o : Outcomes) (name : String) : Except CallError Unit :=
  if (w.findLoaded toLowerCase name).isSome then .error (.roomNameTaken name)
  else if o.redisExists = false then .error .rejected
  else if (w.redis name).isSome then .error (.roomNameTaken name)
  else match w.isRoomNameTaken lower o.findOne name with
    | .error e => .error e
    | .ok true => .error (.roomNameTaken name)
    | .ok false => .ok ()

/-- From where the room is made. -/
def make (w : World) (o : Outcomes) (env : Env) (room : Room) : World × Except CallError Unit :=
  match (if room.isTemporary then (w, .ok true) else w.saveRoom lower o room) with
  | (w, .error e) => (w, .error e)
  | (w, .ok _) =>
    match (Room.update env).run room with
    | ⟨_, _, .error _⟩ => (w, .error .rejected)
    | ⟨room, _, .ok ()⟩ =>
      match w.sync lower o room with
      | (w, .error e) => (w, .error e)
      | (w, .ok room) => w.addRoom o room

def createRoom (w : World) (o : Outcomes) (env : Env) (name : String) (options : CreateOptions) :
    World × Except CallError Unit :=
  match w.checkName toLowerCase lower o name with
  | .error e => (w, .error e)
  | .ok () => w.make lower o env (construct (options.roomOptions name) env.now)

/-- `storage.getRoomByName`. A lookup that fails finds nothing. -/
def getRoomByName (w : World) (o : Outcomes) (roomName : String) : Option RoomOptions :=
  if o.findOne then (w.findRow lower roomName).map (dbToRoomArgs users) else none

def load (w : World) (o : Outcomes) (room : Room) : World × Except CallError Room :=
  match w.addRoom o room with
  | (w, .error e) => (w, .error e)
  | (w, .ok ()) => (w, .ok room)

def getRoom (w : World) (o : Outcomes) (now : Time) (roomName : String)
    (mustAlreadyBeLoaded : Bool) : World × Except CallError Room :=
  match w.findLoaded toLowerCase roomName with
  | some loaded => (w, .ok loaded.room)
  | none =>
    if mustAlreadyBeLoaded then (w, .error (.roomNotFound roomName))
    else if o.redisGet = false then (w, .error .rejected)
    else match w.redis roomName with
      | some state => w.load o (construct (redisStateToState state) now)
      | none =>
        match w.getRoomByName lower users o roomName with
        | some options => w.load o (construct options now)
        | none => (w, .error (.roomNotFound roomName))

end Calls

end World

/-! ## The specification -/

/-- Every room in the array has its epoch, and was announced. -/
def Known (w : World) : Prop :=
  ∀ loaded ∈ w.rooms, 0 ≤ loaded.loadEpoch ∧ loaded.room.name ∈ w.announced

section Specification

variable (toLowerCase lower : String → String) (users : UserId → Option User)

/-- The room is loaded and has the next epoch, it was announced, and it has a row if it is a
permanent one. -/
structure Created (w w' : World) (name : String) (options : CreateOptions) : Prop where
  loaded : ∃ loaded ∈ w'.rooms, loaded.room.name = name ∧
    loaded.loadEpoch = (w.loadEpochKey + 1 : Nat)
  announced : w'.announced = w.announced ++ [name]
  row : options.Permanent → (w'.findRow lower name).isSome

/-- The rooms that are loaded, what redis has of rooms, and the database. -/
structure AsBefore (w w' : World) : Prop where
  rooms : w'.rooms = w.rooms
  redis : w'.redis = w.redis
  rows : w'.rows = w.rows

/-- **The purpose of `createRoom`.** -/
structure CreatesAllOrNothing (w : World) (o : Outcomes) (env : Env) (name : String)
    (options : CreateOptions) : Prop where
  all : (w.createRoom toLowerCase lower o env name options).2 = .ok () →
    Created lower w (w.createRoom toLowerCase lower o env name options).1 name options
  nothing : ∀ e, (w.createRoom toLowerCase lower o env name options).2 = .error e →
    AsBefore w (w.createRoom toLowerCase lower o env name options).1

/-- **The purpose of `getRoom`.** -/
def LoadsAllOrNothing (w : World) (o : Outcomes) (now : Time) (roomName : String)
    (mustAlreadyBeLoaded : Bool) : Prop :=
  ∀ e, (w.getRoom toLowerCase lower users o now roomName mustAlreadyBeLoaded).2 = .error e →
    (w.getRoom toLowerCase lower users o now roomName mustAlreadyBeLoaded).1.rooms = w.rooms

/-- Redis gives out the next epoch, and begins anew where it is the last one. -/
def Numbers (w : World) (o : Outcomes) : Prop :=
  o.redisIncr = true ∧ (w.loadEpochKey + 1 ≥ 2147483640 → o.redisSet = true)

/-- If a room is made, it is numbered, and a permanent one is inserted. One without a name fails
later, and must not have been inserted. -/
def CreateCompletes (w : World) (o : Outcomes) (name : String) (options : CreateOptions) : Prop :=
  w.checkName toLowerCase lower o name = .ok () →
    (options.Permanent → o.findOneAgain = true) →
    if name = "" then options.Permanent → o.create = false
    else (options.Permanent → o.create = true) ∧ Numbers w o

/-- If a room is found in redis or in the database, it is numbered. -/
def LoadCompletes (w : World) (o : Outcomes) (roomName : String) (mustAlreadyBeLoaded : Bool) :
    Prop :=
  w.findLoaded toLowerCase roomName = none → mustAlreadyBeLoaded = false → o.redisGet = true →
    (w.redis roomName).isSome ∨ (o.findOne = true ∧ (w.findRow lower roomName).isSome) →
    Numbers w o

end Specification

instance (w : World) (o : Outcomes) : Decidable (Numbers w o) :=
  inferInstanceAs (Decidable (_ ∧ _))

theorem AsBefore.refl (w : World) : AsBefore w w := ⟨rfl, rfl, rfl⟩

/-! ## Rooms that are made -/

section Made

/-- What a room keeps until it is in the array: its name, whether it is temporary, and that nothing
plays. -/
structure Fresh (name : String) (isTemporary : Bool) (r : Room) : Prop where
  name : r.name = name
  isTemporary : r.isTemporary = isTemporary
  currentSource : r.currentSource = none
  isPlaying : r.isPlaying = false
  dirty : .hasOwner ∈ r.dirty

variable {name : String} {isTemporary : Bool} {r : Room}

theorem Fresh.assign {α : Type} (set : Room → α → Room)
    (hset : ∀ r value, Fresh name isTemporary r → Fresh name isTemporary (set r value))
    (value : Option α) (h : Fresh name isTemporary r) :
    Fresh name isTemporary (r.assign value set) := by
  cases value with
  | none => exact h
  | some value => exact hset r value h

theorem Fresh.of_dirty {r' : Room} (h : Fresh name isTemporary r) (hname : r'.name = r.name)
    (htemporary : r'.isTemporary = r.isTemporary) (hsource : r'.currentSource = r.currentSource)
    (hplaying : r'.isPlaying = r.isPlaying) (hdirty : r.dirty ⊆ r'.dirty) :
    Fresh name isTemporary r' :=
  ⟨hname.trans h.name, htemporary.trans h.isTemporary, hsource.trans h.currentSource,
    hplaying.trans h.isPlaying, hdirty h.dirty⟩

theorem Fresh.marked {r' : Room} (h : Fresh name isTemporary r) (prop : SyncProp)
    (hname : r'.name = r.name) (htemporary : r'.isTemporary = r.isTemporary)
    (hsource : r'.currentSource = r.currentSource) (hplaying : r'.isPlaying = r.isPlaying)
    (hdirty : r'.dirty = insert prop r.dirty) : Fresh name isTemporary r' :=
  h.of_dirty hname htemporary hsource hplaying (hdirty ▸ Finset.subset_insert prop r.dirty)

theorem Fresh.setPrevQueue (h : Fresh name isTemporary r) (value : Option (List QueueItem)) :
    Fresh name isTemporary (r.setPrevQueue value) := by
  unfold Room.setPrevQueue
  split
  · exact h
  · exact h.of_dirty rfl rfl rfl rfl (Finset.subset_insert _ _)

theorem Fresh.restored (h : Fresh name isTemporary r) : Fresh name isTemporary r.restored := by
  obtain ⟨-, heq⟩ | ⟨-, -, items, -, heq⟩ | ⟨-, -, heq⟩ := r.restored_cases
  · rw [heq]
    exact h.setPrevQueue none
  · rw [heq]
    refine Fresh.setPrevQueue ?_ none
    exact h.of_dirty rfl rfl rfl rfl (Finset.subset_insert _ _)
  · rw [heq]
    exact h

/-- **The room that `createRoom` makes.** -/
theorem fresh_construct (options : CreateOptions) (name : String) (now : Time) :
    Fresh name (options.isTemporary.getD false) (construct (options.roomOptions name) now) := by
  have hnamed : Fresh name false ((blank now).setName name) :=
    ⟨rfl, rfl, rfl, rfl, Finset.mem_insert_of_mem (Finset.mem_singleton_self _)⟩
  have htemporary : ∀ r, Fresh name false r → Fresh name (options.isTemporary.getD false)
      (r.assign options.isTemporary (fun r value => { r with isTemporary := value })) := by
    intro r h
    cases options.isTemporary with
    | none => exact h
    | some value => exact ⟨h.name, rfl, h.currentSource, h.isPlaying, h.dirty⟩
  have hassigned : Fresh name (options.isTemporary.getD false)
      ((blank now).assignOptions (options.roomOptions name)) := by
    unfold assignOptions CreateOptions.roomOptions
    -- what plays is not assigned
    show Fresh _ _ (Room.assign _ _ (Room.assign _ _ (Room.assign _ _ (Room.assign _ _
      (Room.assign _ _ (Room.assign _ _ (Room.assign _ _ (Room.assign _ _ (Room.assign _ _
        (Room.assign _ _ ((blank now).setName name)))))))))))
    refine .assign setEnableVoteSkip (fun _ _ h => ?_) _ ?_
    · exact h.marked .enableVoteSkip rfl rfl rfl rfl rfl
    refine .assign setRestoreQueueBehavior (fun _ _ h => ?_) _ ?_
    · exact h.of_dirty rfl rfl rfl rfl (Finset.Subset.refl _)
    refine .assign Room.setPrevQueue (fun _ _ h => h.setPrevQueue _) _ ?_
    refine .assign setAutoSkipSegmentCategories (fun _ _ h => ?_) _ ?_
    · exact h.marked .autoSkipSegmentCategories rfl rfl rfl rfl rfl
    refine .assign setOwner (fun _ _ h => ?_) _ ?_
    · exact h.marked .hasOwner rfl rfl rfl rfl rfl
    apply htemporary
    refine .assign setQueueMode (fun _ _ h => ?_) _ ?_
    · exact h.marked .queueMode rfl rfl rfl rfl rfl
    refine .assign setVisibility (fun _ _ h => ?_) _ ?_
    · exact h.marked .visibility rfl rfl rfl rfl rfl
    refine .assign setDescription (fun _ _ h => ?_) _ ?_
    · exact h.marked .description rfl rfl rfl rfl rfl
    refine .assign setTitle (fun _ _ h => ?_) _ hnamed
    exact h.marked .title rfl rfl rfl rfl rfl
  rw [construct_eq]
  exact hassigned.restored.of_dirty rfl rfl rfl rfl (Finset.Subset.refl _)

/-! ### The first update -/

theorem autoSkip_returns {r : Room} (env : Env) (h : r.isPlaying = false) :
    (autoSkip env).run r = ⟨r, [], .ok ()⟩ := by
  unfold autoSkip
  rw [Handler.run_bind, Handler.run_get, Outcome.andThen_ok, if_neg (fun hp => by simp [h] at hp)]
  rfl

theorem updateRest_returns {r : Room} (env : Env) (h : r.isPlaying = false) :
    ((updateRest env).run r).result = .ok () := by
  have hsort : ∀ r : Room, r.sortByVotes.isPlaying = r.isPlaying :=
    sortByVotes_keeps (R := Handler.SameOn Room.isPlaying)
      (fun r step _ => congrArg Stock.isPlaying (withQueue_stock r step))
  have hsorted : (refreshKeepAlive env r).sortByVotes.isPlaying = false :=
    (hsort _).trans ((congrArg Stock.isPlaying (refreshKeepAlive_stock env r)).trans h)
  have hfetched : ∀ r : Room, r.isPlaying = false → (if r.wantSponsorBlock then
      fetchSponsorBlockSegments env { r with wantSponsorBlock := false } else r).isPlaying =
        false := by
    intro r hr
    split
    · exact (congrArg Stock.isPlaying (fetchSponsorBlockSegments_stock env _)).trans hr
    · exact hr
  have hended : ∀ r : Room, (endDontSkip env r).isPlaying = r.isPlaying :=
    fun r => congrArg Stock.isPlaying (endDontSkip_stock env r)
  unfold updateRest
  rw [Handler.run_bind, Handler.run_modify, Outcome.andThen_ok, Handler.run_bind, Handler.run_get,
    Outcome.andThen_ok, Handler.run_when]
  split
  · rw [Handler.run_bind, Handler.run_modify, Outcome.andThen_ok, Handler.run_bind,
      Handler.run_modify, Outcome.andThen_ok,
      autoSkip_returns env ((hended _).trans (hfetched _ hsorted))]
  · rfl

/-- **The first update returns**, whatever the queue that was restored. -/
theorem Fresh.update_returns (h : Fresh name isTemporary r) (env : Env) :
    ((update env).run r).result = .ok () := by
  have hended : r.sourceEnded env.now = false := by simp [sourceEnded, h.currentSource]
  rw [run_update, Handler.run_when]
  split
  · next hnext =>
    have hqueue : r.queue ≠ [] := by
      rcases hnext with hnext | hnext
      · exact hnext.2
      · rw [hended] at hnext
        cases hnext
    rw [run_dequeueNext_none env h.currentSource, Outcome.andThen_ok]
    apply updateRest_returns
    obtain ⟨head, tail, hcons⟩ := List.exists_cons_of_ne_nil hqueue
    have hcleared := clearVotes_stock r
    have hstock := afterAdvance_stock env (r.clearVotes.advance env.now)
    rw [advance_stock_cons ((congrArg Stock.queue hcleared).trans hcons)] at hstock
    have hstill : ∀ s : Stock, (s.playHead env.now).isPlaying = s.isPlaying := by
      intro s
      unfold Stock.playHead
      split <;> rfl
    calc (afterAdvance env (r.clearVotes.advance env.now)).isPlaying
        = (r.clearVotes.stock.playHead env.now).isPlaying := congrArg Stock.isPlaying hstock
      _ = r.clearVotes.stock.isPlaying := hstill _
      _ = r.isPlaying := congrArg Stock.isPlaying hcleared
      _ = false := h.isPlaying
  · exact updateRest_returns env h.isPlaying

/-- A room that was updated has its name, and something to sync. -/
theorem Fresh.updated (h : Fresh name isTemporary r) (env : Env) :
    ((update env).run r).state.name = name ∧ ((update env).run r).state.dirty ≠ ∅ := by
  constructor
  · exact (congrArg Standing.name (update_standing env r)).trans h.name
  · have hmarks := (update_tracked (S := ∅) env r).marks
    exact Finset.ne_empty_of_mem (hmarks h.dirty)

end Made

/-! ## Numbering -/

section Numbering

variable {w : World} {o : Outcomes}

theorem addRoom_of_numbers (h : Numbers w o) (room : Room) :
    (w.addRoom o room).2 = .ok () ∧
    (w.addRoom o room).1.rooms = w.rooms ++ [⟨room, (w.loadEpochKey + 1 : Nat)⟩] ∧
    (w.addRoom o room).1.announced = w.announced ++ [room.name] ∧
    (w.addRoom o room).1.rows = w.rows := by
  unfold World.addRoom
  rw [if_pos h.1]
  dsimp only
  split
  · next hlast =>
    rw [if_pos (h.2 hlast)]
    exact ⟨rfl, rfl, rfl, rfl⟩
  · exact ⟨rfl, rfl, rfl, rfl⟩

/-- The room stays in the array without an epoch, or without being announced. -/
theorem addRoom_of_not_numbers (h : ¬ Numbers w o) (room : Room) :
    (w.addRoom o room).2 = .error .rejected ∧ (w.addRoom o room).1.rooms ≠ w.rooms := by
  have hne : ∀ loaded, w.rooms ++ [loaded] ≠ w.rooms := by
    intro loaded heq
    have hlength := congrArg List.length heq
    rw [List.length_append, List.length_singleton] at hlength
    omega
  unfold World.addRoom
  split
  · next hincr =>
    dsimp only
    have hset : ¬ (w.loadEpochKey + 1 ≥ 2147483640 → o.redisSet = true) := fun hs => h ⟨hincr, hs⟩
    rw [Classical.not_imp] at hset
    rw [if_pos hset.1, if_neg hset.2]
    exact ⟨rfl, hne _⟩
  · exact ⟨rfl, hne _⟩

end Numbering

/-! ## Creating -/

section Creating

variable {toLowerCase lower : String → String} {w : World} {o : Outcomes} {name : String}
  {isTemporary : Bool} {room : Room}

/-- The row of the room is inserted. -/
def Inserts (o : Outcomes) (isTemporary : Bool) : Prop := isTemporary = false ∧ o.create = true

instance (o : Outcomes) (isTemporary : Bool) : Decidable (Inserts o isTemporary) :=
  inferInstanceAs (Decidable (_ ∧ _))

def World.inserted (w : World) (o : Outcomes) (isTemporary : Bool) (room : Room) : World :=
  { w with rows := if Inserts o isTemporary then w.rows ++ [roomToDb room] else w.rows }

theorem findRow_isSome {w : World} :
    (w.findRow lower name).isSome ↔ ∃ row ∈ w.rows, lower row.name = lower name := by
  simp [World.findRow]

/-- A room whose name is free is inserted or not, unless the name cannot be looked up again. -/
theorem saved_eq (hroom : Fresh name isTemporary room) (hfree : w.findRow lower name = none) :
    (if room.isTemporary then (w, .ok true) else w.saveRoom lower o room) =
      if isTemporary = false ∧ o.findOneAgain = false then (w, .error .rejected)
      else (w.inserted o isTemporary room, .ok (isTemporary || o.create)) := by
  rw [hroom.isTemporary]
  unfold World.inserted World.saveRoom World.isRoomNameTaken
  rw [hroom.name, hfree]
  cases isTemporary with
  | true => simp [Inserts]
  | false =>
    cases hagain : o.findOneAgain <;> cases hcreate : o.create <;> simp [Inserts, hcreate]

theorem updateRoom_of_name (hname : name ≠ "") (room : PersistablePartial) :
    ∃ found, (w.updateRoom lower o name room).2 = .ok found ∧
      (w.updateRoom lower o name room).1.rooms = w.rooms ∧
      (w.updateRoom lower o name room).1.loadEpochKey = w.loadEpochKey ∧
      (w.updateRoom lower o name room).1.announced = w.announced ∧
      (((w.updateRoom lower o name room).1.findRow lower name).isSome ↔
        (w.findRow lower name).isSome) := by
  unfold World.updateRoom
  rw [if_neg hname]
  split
  · refine ⟨_, rfl, rfl, rfl, rfl, ?_⟩
    have hkeeps : ∀ row : DbRoom, (if lower row.name = lower name then
        row.update (roomToDbPartial room) else row).name = row.name := by
      intro row
      split <;> rfl
    rw [findRow_isSome, findRow_isSome]
    simp only [List.mem_map, exists_exists_and_eq_and, hkeeps]
  · exact ⟨_, rfl, rfl, rfl, rfl, Iff.rfl⟩

/-- **From where the room is made**: it gets to `addRoom`, unless it cannot be looked up again or
has no name. -/
theorem make_cases (env : Env) (hroom : Fresh name isTemporary room)
    (hfree : w.findRow lower name = none) :
    -- the row cannot be looked up again
    (isTemporary = false ∧ o.findOneAgain = false ∧
      w.make lower o env room = (w, .error .rejected)) ∨
    (isTemporary = false → o.findOneAgain = true) ∧
      -- there is no name to sync under
      ((name = "" ∧ w.make lower o env room = (w.inserted o isTemporary room, .error .noName)) ∨
      (name ≠ "" ∧ ∃ (w' : World) (room' : Room),
        w'.rooms = w.rooms ∧ w'.loadEpochKey = w.loadEpochKey ∧
        w'.announced = w.announced ∧ room'.name = name ∧
        ((w'.findRow lower name).isSome ↔
          ((w.inserted o isTemporary room).findRow lower name).isSome) ∧
        w.make lower o env room = w'.addRoom o room')) := by
  obtain ⟨hname, hdirty⟩ := hroom.updated env
  have hreturns := hroom.update_returns env
  unfold World.make
  rw [saved_eq hroom hfree]
  by_cases hagain : isTemporary = false ∧ o.findOneAgain = false
  · left
    rw [if_pos hagain]
    exact ⟨hagain.1, hagain.2, rfl⟩
  · right
    refine ⟨fun htemporary => ?_, ?_⟩
    · rw [← Bool.not_eq_false]
      exact fun hfalse => hagain ⟨htemporary, hfalse⟩
    rw [if_neg hagain]
    dsimp only
    generalize (update env).run room = updated at hname hdirty hreturns ⊢
    obtain ⟨room', published, result⟩ := updated
    dsimp only at hname hdirty hreturns
    rw [hreturns]
    dsimp only
    subst hname
    unfold World.sync
    rw [if_neg hdirty]
    by_cases hempty : room'.name = ""
    · left
      refine ⟨hempty, ?_⟩
      unfold World.updateRoom
      rw [if_pos hempty]
    · right
      refine ⟨hempty, ?_⟩
      obtain ⟨found, hfound, hrooms, hkey, hannounced, hrow⟩ := @updateRoom_of_name lower
        (w.inserted o isTemporary room) o room'.name hempty room'.picked
      generalize (w.inserted o isTemporary room).updateRoom lower o room'.name room'.picked =
        stored at *
      obtain ⟨w', result⟩ := stored
      dsimp only at hfound
      rw [hfound]
      exact ⟨w', { room' with dirty := ∅ }, hrooms, hkey, hannounced, rfl, hrow, rfl⟩

/-- What is inserted is found. -/
theorem findRow_inserted (hroom : room.name = name) (hfree : w.findRow lower name = none) :
    ((w.inserted o isTemporary room).findRow lower name).isSome ↔ Inserts o isTemporary := by
  rw [findRow_isSome]
  unfold World.inserted
  have hnone : ¬ ∃ row ∈ w.rows, lower row.name = lower name := by
    rw [← findRow_isSome, hfree]
    exact Bool.false_ne_true
  by_cases h : Inserts o isTemporary
  · rw [if_pos h]
    refine iff_of_true ⟨roomToDb room, List.mem_append_right _ (List.mem_singleton_self _), ?_⟩ h
    rw [← hroom]
    rfl
  · rw [if_neg h]
    exact iff_of_false hnone h

theorem asBefore_inserted_iff :
    AsBefore w (w.inserted o isTemporary room) ↔ ¬ Inserts o isTemporary := by
  unfold World.inserted
  constructor
  · intro h hinserts
    have hlength := congrArg List.length h.rows
    dsimp only at hlength
    rw [if_pos hinserts, List.length_append, List.length_singleton] at hlength
    omega
  · intro h
    rw [if_neg h]
    exact .refl w

theorem checkName_ok (h : w.checkName toLowerCase lower o name = .ok ()) :
    w.findRow lower name = none := by
  unfold World.checkName World.isRoomNameTaken at h
  split at h
  · cases h
  split at h
  · cases h
  split at h
  · cases h
  cases hrow : w.findRow lower name with
  | none => rfl
  | some row =>
    rw [hrow] at h
    cases hone : o.findOne <;> simp [hone] at h

end Creating

variable {toLowerCase lower : String → String} {users : UserId → Option User}

/-- **`createRoom` is all or nothing** exactly if a room that it makes is inserted and numbered. -/
theorem createsAllOrNothing_iff (w : World) (o : Outcomes) (env : Env) (name : String)
    (options : CreateOptions) :
    CreatesAllOrNothing toLowerCase lower w o env name options ↔
      CreateCompletes toLowerCase lower w o name options := by
  cases hcheck : w.checkName toLowerCase lower o name with
  | error e =>
    have hcreate : w.createRoom toLowerCase lower o env name options = (w, .error e) := by
      rw [World.createRoom, hcheck]
    refine iff_of_true ⟨?_, ?_⟩ (fun h => by rw [hcheck] at h; cases h)
    · rw [hcreate]
      exact nofun
    · rw [hcreate]
      exact fun _ _ => .refl w
  | ok free =>
    have hfree := checkName_ok hcheck
    have hroom := fresh_construct options name env.now
    have hcreate : w.createRoom toLowerCase lower o env name options =
        w.make lower o env (construct (options.roomOptions name) env.now) := by
      rw [World.createRoom, hcheck]
    have hcompletes : CreateCompletes toLowerCase lower w o name options ↔
        ((options.Permanent → o.findOneAgain = true) →
          if name = "" then options.Permanent → o.create = false
          else (options.Permanent → o.create = true) ∧ Numbers w o) := by
      unfold CreateCompletes
      rw [hcheck]
      exact ⟨fun h => h rfl, fun h _ => h⟩
    rw [hcompletes]
    have hpermanent : options.Permanent ↔ options.isTemporary.getD false = false := Iff.rfl
    have hinserts : Inserts o (options.isTemporary.getD false) ↔
        options.Permanent ∧ o.create = true := Iff.rfl
    rcases make_cases (o := o) env hroom hfree with ⟨htemporary, hagain, hmake⟩ |
      ⟨hagain, ⟨hname, hmake⟩ | ⟨hname, w', room', hrooms, hkey, hannounced, hroom', hrow, hmake⟩⟩
    · rw [hmake] at hcreate
      refine iff_of_true ⟨?_, ?_⟩ (fun h => ?_)
      · rw [hcreate]
        exact nofun
      · rw [hcreate]
        exact fun _ _ => .refl w
      · rw [h htemporary] at hagain
        cases hagain
    · -- the call fails, and only the row may be left
      rw [hmake] at hcreate
      have hkeeps : CreatesAllOrNothing toLowerCase lower w o env name options ↔
          ¬ Inserts o (options.isTemporary.getD false) := by
        rw [← asBefore_inserted_iff]
        constructor
        · intro h
          have hnothing := h.nothing .noName
          rw [hcreate] at hnothing
          exact hnothing rfl
        · intro h
          refine ⟨?_, ?_⟩
          · rw [hcreate]
            exact nofun
          · rw [hcreate]
            exact fun _ _ => h
      rw [hkeeps, hinserts, if_pos hname]
      grind
    · rw [hmake] at hcreate
      have hnumbers : Numbers w' o ↔ Numbers w o := by
        unfold Numbers
        rw [hkey]
      rw [if_neg hname]
      by_cases hn : Numbers w o
      · obtain ⟨hok, hadded, hsaid, hrows⟩ := addRoom_of_numbers (hnumbers.mpr hn) room'
        have hfound : ((w'.addRoom o room').1.findRow lower name).isSome ↔
            options.Permanent ∧ o.create = true := by
          rw [← hinserts, ← findRow_inserted hroom.name hfree, ← hrow]
          unfold World.findRow
          rw [hrows]
        constructor
        · intro h _
          refine ⟨fun hp => (hfound.mp ?_).2, hn⟩
          have hrow' := (h.all (by rw [hcreate, hok])).row hp
          rwa [hcreate] at hrow'
        · intro h
          refine ⟨fun _ => ?_, fun e he => ?_⟩
          · rw [hcreate]
            refine ⟨⟨⟨room', (w.loadEpochKey + 1 : Nat)⟩, ?_, hroom', rfl⟩, ?_,
              fun hp => hfound.mpr ⟨hp, (h hagain).1 hp⟩⟩
            · rw [hadded, hkey]
              exact List.mem_append_right _ (List.mem_singleton_self _)
            · rw [hsaid, hannounced, hroom']
          · rw [hcreate, hok] at he
            cases he
      · obtain ⟨hrejected, hne⟩ := addRoom_of_not_numbers (fun h => hn (hnumbers.mp h)) room'
        refine iff_of_false (fun h => ?_) (fun h => hn (h hagain).2)
        have hbefore := (h.nothing .rejected (by rw [hcreate, hrejected])).rooms
        rw [hcreate, ← hrooms] at hbefore
        exact hne hbefore

/-! ## Loading -/

/-- A room that is found is loaded if it is numbered. -/
theorem load_iff (w : World) (o : Outcomes) (room : Room) :
    (∀ e, (w.load o room).2 = .error e → (w.load o room).1.rooms = w.rooms) ↔ Numbers w o := by
  unfold World.load
  by_cases h : Numbers w o
  · obtain ⟨hok, -⟩ := addRoom_of_numbers h room
    generalize w.addRoom o room = added at hok ⊢
    obtain ⟨w', result⟩ := added
    dsimp only at hok
    rw [hok]
    exact iff_of_true nofun h
  · obtain ⟨hrejected, hne⟩ := addRoom_of_not_numbers h room
    generalize w.addRoom o room = added at hrejected hne ⊢
    obtain ⟨w', result⟩ := added
    dsimp only at hrejected
    rw [hrejected]
    exact iff_of_false (fun hkeeps => hne (hkeeps _ rfl)) h

/-- `getRoom` returns without a change, or loads what it has found. -/
theorem getRoom_cases (w : World) (o : Outcomes) (now : Time) (roomName : String)
    (mustAlreadyBeLoaded : Bool) :
    (∃ result, w.getRoom toLowerCase lower users o now roomName mustAlreadyBeLoaded = (w, result) ∧
      LoadCompletes toLowerCase lower w o roomName mustAlreadyBeLoaded) ∨
    ∃ room, w.getRoom toLowerCase lower users o now roomName mustAlreadyBeLoaded = w.load o room ∧
      (LoadCompletes toLowerCase lower w o roomName mustAlreadyBeLoaded ↔ Numbers w o) := by
  unfold LoadCompletes World.getRoom World.getRoomByName
  cases hloaded : w.findLoaded toLowerCase roomName with
  | some loaded => exact .inl ⟨_, rfl, nofun⟩
  | none =>
    cases mustAlreadyBeLoaded with
    | true => exact .inl ⟨_, rfl, fun _ h => by cases h⟩
    | false =>
      cases hget : o.redisGet with
      | false => exact .inl ⟨_, rfl, fun _ _ h => by cases h⟩
      | true =>
        dsimp only
        rw [if_neg Bool.false_ne_true, if_neg (fun h => by cases h)]
        cases hredis : w.redis roomName with
        | some state =>
          exact .inr ⟨_, rfl, fun h => h rfl rfl rfl (.inl rfl), fun h _ _ _ _ => h⟩
        | none =>
          cases hone : o.findOne with
          | false => exact .inl ⟨_, rfl, fun _ _ _ h => by simp at h⟩
          | true =>
            cases hrow : w.findRow lower roomName with
            | none => exact .inl ⟨_, rfl, fun _ _ _ h => by simp at h⟩
            | some row =>
              exact .inr ⟨_, rfl, fun h => h rfl rfl rfl (.inr ⟨rfl, rfl⟩), fun h _ _ _ _ => h⟩

/-- **`getRoom` is all or nothing** exactly if a room that it finds is numbered. -/
theorem loadsAllOrNothing_iff (w : World) (o : Outcomes) (now : Time) (roomName : String)
    (mustAlreadyBeLoaded : Bool) :
    LoadsAllOrNothing toLowerCase lower users w o now roomName mustAlreadyBeLoaded ↔
      LoadCompletes toLowerCase lower w o roomName mustAlreadyBeLoaded := by
  unfold LoadsAllOrNothing
  rcases getRoom_cases w o now roomName mustAlreadyBeLoaded with
    ⟨result, heq, hcompletes⟩ | ⟨room, heq, hcompletes⟩
  · rw [heq]
    exact iff_of_true (fun _ _ => rfl) hcompletes
  · rw [heq, hcompletes]
    exact load_iff w o room

/-! ## Runs -/

/-- A call of one of the two functions, with how the calls of redis and the database turn out; or a
room is unloaded. -/
inductive Event where
  | create (o : Outcomes) (env : Env) (name : String) (options : CreateOptions)
  | get (o : Outcomes) (now : Time) (roomName : String) (mustAlreadyBeLoaded : Bool)
  | unload (idx : Nat)

variable (toLowerCase lower users) in
def roomManager : Machine World Event where
  step w
    | .create o env name options => some (w.createRoom toLowerCase lower o env name options).1
    | .get o now roomName mustAlreadyBeLoaded =>
      some (w.getRoom toLowerCase lower users o now roomName mustAlreadyBeLoaded).1
    | .unload idx => some { w with rooms := w.rooms.eraseIdx idx }

variable (toLowerCase lower) in
/-- The call completes what it begins. -/
def Completes (w : World) : Event → Prop
  | .create o _ name options => CreateCompletes toLowerCase lower w o name options
  | .get o _ roomName mustAlreadyBeLoaded =>
    LoadCompletes toLowerCase lower w o roomName mustAlreadyBeLoaded
  | .unload _ => True

theorem Known.addRoom {w : World} {o : Outcomes} (h : Known w) (hn : Numbers w o) (room : Room) :
    Known (w.addRoom o room).1 := by
  obtain ⟨-, hrooms, hannounced, -⟩ := addRoom_of_numbers hn room
  intro loaded hloaded
  rw [hrooms, List.mem_append, List.mem_singleton] at hloaded
  rw [hannounced]
  rcases hloaded with hold | rfl
  · exact ⟨(h loaded hold).1, List.mem_append_left _ (h loaded hold).2⟩
  · exact ⟨Int.natCast_nonneg _, List.mem_append_right _ (List.mem_singleton_self _)⟩

theorem Known.congr {w w' : World} (h : Known w) (hrooms : w'.rooms = w.rooms)
    (hannounced : w'.announced = w.announced) : Known w' := by
  intro loaded hloaded
  rw [hrooms] at hloaded
  rw [hannounced]
  exact h loaded hloaded

theorem Known.load {w : World} {o : Outcomes} (h : Known w) (hn : Numbers w o) (room : Room) :
    Known (w.load o room).1 := by
  have hadded := h.addRoom hn room
  unfold World.load
  split
  · next heq => rwa [heq] at hadded
  · next heq => rwa [heq] at hadded

/-- **One call.** -/
theorem Known.step {w w' : World} {e : Event} (h : Known w)
    (hcompletes : Completes toLowerCase lower w e)
    (hstep : (roomManager toLowerCase lower users).step w e = some w') : Known w' := by
  cases e with
  | create o env name options =>
    cases hstep
    change CreateCompletes toLowerCase lower w o name options at hcompletes
    unfold World.createRoom
    unfold CreateCompletes at hcompletes
    cases hcheck : w.checkName toLowerCase lower o name with
    | error e => exact h
    | ok free =>
      rcases make_cases (o := o) env (fresh_construct options name env.now) (checkName_ok hcheck)
        with ⟨-, -, hmake⟩ | ⟨hagain, ⟨-, hmake⟩ |
          ⟨hname, w', room', hrooms, hkey, hannounced, -, -, hmake⟩⟩
      · dsimp only
        rw [hmake]
        exact h
      · dsimp only
        rw [hmake]
        exact h.congr rfl rfl
      · have hnumbers := (hcompletes hcheck hagain)
        rw [if_neg hname] at hnumbers
        dsimp only
        rw [hmake]
        refine (h.congr hrooms hannounced).addRoom ?_ room'
        unfold Numbers
        rw [hkey]
        exact hnumbers.2
  | get o now roomName mustAlreadyBeLoaded =>
    cases hstep
    rcases @getRoom_cases toLowerCase lower users w o now roomName mustAlreadyBeLoaded with
      ⟨result, heq, -⟩ | ⟨room, heq, hnumbers⟩
    · rw [heq]
      exact h
    · rw [heq]
      exact h.load (hnumbers.mp hcompletes) room
  | unload idx =>
    cases hstep
    intro loaded hloaded
    exact h loaded ((List.eraseIdx_sublist _ _).mem hloaded)

theorem known_throughout {w : World} {es : List Event} (h : Known w)
    (hcompletes : (roomManager toLowerCase lower users).Along (Completes toLowerCase lower) w es) :
    (roomManager toLowerCase lower users).Always Known w es :=
  Machine.always_of_along (fun _ _ _ hw hc hstep => hw.step hc hstep) h hcompletes

/-! ## All or nothing -/

/-- Each call is all or nothing exactly if it completes what it begins, and then every room that is
loaded has its epoch and was announced. -/
theorem all_or_nothing_iff (toLowerCase lower : String → String) (users : UserId → Option User) :
    (∀ w o env name options, CreatesAllOrNothing toLowerCase lower w o env name options ↔
      CreateCompletes toLowerCase lower w o name options) ∧
    (∀ w o now roomName mustAlreadyBeLoaded,
      LoadsAllOrNothing toLowerCase lower users w o now roomName mustAlreadyBeLoaded ↔
        LoadCompletes toLowerCase lower w o roomName mustAlreadyBeLoaded) ∧
    ∀ w es, Known w →
      (roomManager toLowerCase lower users).Along (Completes toLowerCase lower) w es →
        (roomManager toLowerCase lower users).Always Known w es := by
  refine ⟨fun w o env name options => ?_, fun w o now roomName mustAlreadyBeLoaded => ?_, ?_⟩
  · exact createsAllOrNothing_iff w o env name options
  · exact loadsAllOrNothing_iff w o now roomName mustAlreadyBeLoaded
  · exact fun w es h hcompletes => known_throughout h hcompletes

def emptyWorld : World := ⟨[], fun _ => none, 0, [], []⟩

def allGoThrough : Outcomes := ⟨true, true, true, true, true, true, true, true⟩

theorem all_or_nothing_iff_permanent :
    (roomManager id id (fun _ => none)).Always Known emptyWorld
      [.create allGoThrough (emptyEnv 0) "foo" {}] := by
  have hempty : Known emptyWorld := fun loaded hloaded => absurd hloaded List.not_mem_nil
  refine (all_or_nothing_iff id id _).2.2 _ _ hempty fun w hstep => ⟨fun _ _ => ?_, trivial⟩
  rw [if_neg (by decide)]
  exact ⟨fun _ => rfl, rfl, fun _ => rfl⟩

/-- A permanent room is made and its row cannot be inserted; or a room that is in redis is loaded,
and redis gives out no epoch. -/
theorem not_all_or_nothing :
    (¬ ∀ w o env name options, CreatesAllOrNothing id id w o env name options) ∧
    ¬ ∀ w o now roomName mustAlreadyBeLoaded,
      LoadsAllOrNothing id id (fun _ => none) w o now roomName mustAlreadyBeLoaded := by
  constructor
  · intro h
    have hcreate := (createsAllOrNothing_iff emptyWorld { allGoThrough with create := false }
      (emptyEnv 0) "foo" {}).mp (h _ _ _ _ _) rfl (fun _ => rfl)
    rw [if_neg (by decide)] at hcreate
    exact Bool.false_ne_true (hcreate.1 rfl)
  · intro h
    have hget := (loadsAllOrNothing_iff
      { emptyWorld with redis := fun _ => some (Room.new "foo" 0).serializeState }
      { allGoThrough with redisIncr := false } 0 "foo" false).mp (h _ _ _ _ _) rfl rfl rfl
      (.inl rfl)
    exact Bool.false_ne_true hget.1

end OpenTogetherTube.Server.Creation
