import OpenTogetherTube.Server.Persistence

/-!
# Looking a room up

`getRoom` asks three stores for a room, one after the other: the rooms that are loaded, redis, and
the database. The first and the last ignore case; redis is asked for the key of the very name.
`createRoom` makes sure in the same way that a name is free.

So which spelling somebody uses matters where redis has a room under one of two spellings and not
under the other (`ignoresCase_iff`): the other finds the row of the room, which has nothing of what
plays, or finds nothing at all.

Case is folded by `toLowerCase` in the code and by `lower` in the database. They are parameters, of
which no more is used than that they ignore the case of ASCII letters. Each call is executed alone.
-/

namespace OpenTogetherTube.Server

open OpenTogetherTube.Common OpenTogetherTube.Lib

/-! ## What a room that is constructed plays -/

/-- A room's name, and what it plays and has queued: items without their identities. -/
structure OnAir where
  name : String
  currentSource : Option QueueItem
  queue : List QueueItem
  prevQueue : Option (List QueueItem)
  isPlaying : Bool
  playbackPosition : ℚ
  playbackSpeed : ℚ
  playbackStart : Option Time
  deriving DecidableEq

def Room.onAir (r : Room) : OnAir where
  name := r.name
  currentSource := r.currentSource.map (·.item)
  queue := r.queue.map (·.item)
  prevQueue := r.prevQueue
  isPlaying := r.isPlaying
  playbackPosition := r.playbackPosition
  playbackSpeed := r.playbackSpeed
  playbackStart := r.playbackStart

/-- The queue and the saved queue, after the restore rules. -/
def restoredQueues (behavior : BehaviorOption) (queue : List QueueItem)
    (prevQueue : Option (List QueueItem)) : List QueueItem × Option (List QueueItem) :=
  if behavior = .never then (queue, none)
  else if behavior = .always ∧ queue = [] ∧ prevQueue.isSome then (prevQueue.getD [], none)
  else (queue, prevQueue)

/-- What the options have a room play. -/
def RoomOptions.onAir (options : RoomOptions) : OnAir :=
  let queues := restoredQueues (options.restoreQueueBehavior.getD .prompt)
    (options.queue.getD []) (options.prevQueue.getD none)
  { name := options.name.getD ""
    currentSource := options.currentSource.getD none
    queue := queues.1
    prevQueue := queues.2
    isPlaying := options.isPlaying.getD false
    playbackPosition := options.playbackPosition.getD 0
    playbackSpeed := options.playbackSpeed.getD 1
    playbackStart := options.playbackStart }

namespace Room

section Construct

variable {r : Room}

theorem setPrevQueue_onAir (r : Room) (value : Option (List QueueItem)) :
    (r.setPrevQueue value).onAir = { r.onAir with prevQueue := value } := by
  rw [setPrevQueue_eq]
  rfl

theorem setRestoredQueue_onAir (r : Room) (items : List QueueItem) :
    ({ r with queue := entriesFrom 1 items }.markDirty .queue).onAir =
      { r.onAir with queue := items } := by
  show { r.onAir with queue := (entriesFrom 1 items).map QueueEntry.item } = _
  rw [entriesFrom_items]

/-- The restore rules, on what is stored. -/
theorem restored_onAir (r : Room) : r.restored.onAir =
    { r.onAir with
      queue := (restoredQueues r.restoreQueueBehavior r.onAir.queue r.prevQueue).1
      prevQueue := (restoredQueues r.restoreQueueBehavior r.onAir.queue r.prevQueue).2 } := by
  obtain ⟨hnever, h⟩ | ⟨halways, hnil, items, hitems, h⟩ | ⟨hnever, hkept, h⟩ := r.restored_cases
  · have hqueues : restoredQueues r.restoreQueueBehavior r.onAir.queue r.prevQueue =
        (r.onAir.queue, none) := if_pos hnever
    rw [h, setPrevQueue_onAir, hqueues]
  · have hqueues : restoredQueues r.restoreQueueBehavior r.onAir.queue r.prevQueue =
        (items, none) := by
      rw [halways, hitems, show r.onAir.queue = [] from
        congrArg (List.map QueueEntry.item) hnil]
      rfl
    rw [h, setPrevQueue_onAir, setRestoredQueue_onAir, hqueues]
  · have hqueues : restoredQueues r.restoreQueueBehavior r.onAir.queue r.prevQueue =
        (r.onAir.queue, r.prevQueue) := by
      rw [restoredQueues, if_neg hnever, if_neg]
      rintro ⟨halways, hnil, hsome⟩
      rw [hkept halways (List.map_eq_nil_iff.mp hnil)] at hsome
      cases hsome
    rw [h, hqueues]
    rfl

/-- The properties that options set are what the room has before the restore rules. -/
def Assigns (options : RoomOptions) (now : Time) : Prop :=
  ((blank now).assignOptions options).onAir =
      { options.onAir with
        queue := options.queue.getD []
        prevQueue := options.prevQueue.getD none
        playbackStart := none } ∧
    ((blank now).assignOptions options).restoreQueueBehavior =
      options.restoreQueueBehavior.getD .prompt

theorem Assigns.construct_onAir {options : RoomOptions} {now : Time} (h : Assigns options now) :
    (construct options now).onAir = options.onAir := by
  obtain ⟨honAir, hbehavior⟩ := h
  have hprev : ((blank now).assignOptions options).prevQueue = options.prevQueue.getD none :=
    congrArg OnAir.prevQueue honAir
  have hrestored := restored_onAir ((blank now).assignOptions options)
  rw [hbehavior, hprev, honAir] at hrestored
  have hstart : ((blank now).assignOptions options).restored.playbackStart = none :=
    congrArg OnAir.playbackStart hrestored
  rw [construct_eq]
  show { ((blank now).assignOptions options).restored.onAir with
    playbackStart := options.playbackStart <|>
      ((blank now).assignOptions options).restored.playbackStart } = _
  rw [hrestored, hstart]
  cases hoptions : options.playbackStart <;> simp [RoomOptions.onAir, hoptions]

theorem assigns_redis (state : RedisState) (now : Time) :
    Assigns (redisStateToState state) now := by
  constructor
  · simp only [assignOptions, redisStateToState, assign, setName, setTitle, setDescription,
      setVisibility, setQueueMode, setOwner, setCurrentSource, setPlaybackPosition, setIsPlaying,
      setPlaybackSpeed, setAutoSkipSegmentCategories, setPrevQueue_eq, setRestoreQueueBehavior,
      setEnableVoteSkip, markDirty, onAir, entriesFrom_items, Option.map_map,
      Function.comp_def, Option.map_id']
    rfl
  · simp only [assignOptions, redisStateToState, assign, setName, setTitle, setDescription,
      setVisibility, setQueueMode, setOwner, setCurrentSource, setPlaybackPosition, setIsPlaying,
      setPlaybackSpeed, setAutoSkipSegmentCategories, setPrevQueue_eq, setRestoreQueueBehavior,
      setEnableVoteSkip, markDirty, Option.getD_some]

theorem assigns_row (users : UserId → Option User) (row : DbRoom) (now : Time) :
    Assigns (dbToRoomArgs users row) now := by
  constructor
  · simp only [assignOptions, dbToRoomArgs, assign, setName, setTitle, setDescription,
      setVisibility, setQueueMode, setOwner, setAutoSkipSegmentCategories, setPrevQueue_eq,
      setRestoreQueueBehavior, setEnableVoteSkip, markDirty, onAir]
    rfl
  · simp only [assignOptions, dbToRoomArgs, assign, setName, setTitle, setDescription,
      setVisibility, setQueueMode, setOwner, setAutoSkipSegmentCategories, setPrevQueue_eq,
      setRestoreQueueBehavior, setEnableVoteSkip, markDirty, Option.getD_some]

end Construct

end Room

/-! ## The stores -/

/-- The rooms that are loaded, what redis has under `room:` and a name, and the rows of the
database. -/
structure Stores where
  rooms : List Room
  redis : String → Option RedisState
  rows : List DbRoom

inductive LookupError where
  | roomNotFound (roomName : String)
  | roomNameTaken (roomName : String)
  deriving DecidableEq

namespace Stores

section Lookups

variable (toLowerCase lower : String → String) (users : UserId → Option User)

/-- The loaded room of that name, whatever the case. -/
def findLoaded (s : Stores) (roomName : String) : Option Room :=
  s.rooms.find? (fun room => toLowerCase room.name = toLowerCase roomName)

/-- `findOne` with `buildFindRoomWhere`. -/
def findRow (s : Stores) (roomName : String) : Option DbRoom :=
  s.rows.find? (fun row => lower row.name = lower roomName)

/-- `getRoom`, executed alone. -/
def getRoom (s : Stores) (now : Time) (roomName : String) (mustAlreadyBeLoaded : Bool) :
    Except LookupError Room :=
  match s.findLoaded toLowerCase roomName with
  | some room => .ok room
  | none =>
    if mustAlreadyBeLoaded then .error (.roomNotFound roomName)
    else match s.redis roomName with
      | some state => .ok (Room.construct (redisStateToState state) now)
      | none =>
        match s.findRow lower roomName with
        | some row => .ok (Room.construct (dbToRoomArgs users row) now)
        | none => .error (.roomNotFound roomName)

/-- `createRoom`, to where the room is made: the name must be free in all three stores. -/
def createRoom (s : Stores) (now : Time) (name : String) (options : RoomOptions) :
    Except LookupError Room :=
  if (s.findLoaded toLowerCase name).isSome then .error (.roomNameTaken name)
  else if (s.redis name).isSome then .error (.roomNameTaken name)
  else if (s.findRow lower name).isSome then .error (.roomNameTaken name)
  else .ok (Room.construct { options with name := some name } now)

end Lookups

/-- A room of the name is loaded, saved in redis or stored in the database. -/
def Exists (toLowerCase lower : String → String) (s : Stores) (name : String) : Prop :=
  (s.findLoaded toLowerCase name).isSome ∨ (s.redis name).isSome ∨ (s.findRow lower name).isSome

end Stores

/-- Two rooms with the same name that play the same and have the same queue, or none. -/
def SameRoom : Except LookupError Room → Except LookupError Room → Prop
  | .ok r, .ok r' => r.onAir = r'.onAir
  | .error _, .error _ => True
  | _, _ => False

/-- **The purpose**: it makes no difference which spelling is used. -/
structure IgnoresCase (toLowerCase lower : String → String) (users : UserId → Option User)
    (s : Stores) (now : Time) (a b : String) : Prop where
  get : SameRoom (s.getRoom toLowerCase lower users now a false)
    (s.getRoom toLowerCase lower users now b false)
  create : s.Exists toLowerCase lower a → ∀ options,
    s.createRoom toLowerCase lower now b options = .error (.roomNameTaken b)
  create' : s.Exists toLowerCase lower b → ∀ options,
    s.createRoom toLowerCase lower now a options = .error (.roomNameTaken a)

/-- What redis and the database have under the two names comes to the same. -/
structure Stores.Agree (lower : String → String) (users : UserId → Option User) (s : Stores)
    (a b : String) : Prop where
  both : ∀ state state', s.redis a = some state → s.redis b = some state' →
    (redisStateToState state).onAir = (redisStateToState state').onAir
  left : ∀ state, s.redis a = some state → s.redis b = none → ∃ row,
    s.findRow lower b = some row ∧
      (redisStateToState state).onAir = (dbToRoomArgs users row).onAir
  right : ∀ state, s.redis a = none → s.redis b = some state → ∃ row,
    s.findRow lower a = some row ∧
      (dbToRoomArgs users row).onAir = (redisStateToState state).onAir

/-- The case of ASCII letters is ignored. -/
def FoldsCase (fold : String → String) : Prop :=
  ∀ a b : String, a.toLower = b.toLower → fold a = fold b

section Lookup

variable {toLowerCase lower : String → String} {users : UserId → Option User} {s : Stores}
  {now : Time} {a b : String}

theorem findLoaded_congr (h : toLowerCase a = toLowerCase b) :
    s.findLoaded toLowerCase a = s.findLoaded toLowerCase b := by
  rw [Stores.findLoaded, Stores.findLoaded, h]

theorem findRow_congr (h : lower a = lower b) : s.findRow lower a = s.findRow lower b := by
  rw [Stores.findRow, Stores.findRow, h]

theorem createRoom_eq_nameTaken_iff (options : RoomOptions) :
    s.createRoom toLowerCase lower now a options = .error (.roomNameTaken a) ↔
      s.Exists toLowerCase lower a := by
  unfold Stores.createRoom Stores.Exists
  split
  · next h => exact iff_of_true rfl (.inl h)
  · split
    · next h => exact iff_of_true rfl (.inr (.inl h))
    · split
      · next h => exact iff_of_true rfl (.inr (.inr h))
      · next hloaded hredis hrow =>
        refine iff_of_false (fun heq => ?_) (by simp [hloaded, hredis, hrow])
        cases heq

/-- The options that a room that is not loaded is made from. -/
def Stores.stored (lower : String → String) (users : UserId → Option User) (s : Stores)
    (roomName : String) : Option RoomOptions :=
  ((s.redis roomName).map redisStateToState).or
    ((s.findRow lower roomName).map (dbToRoomArgs users))

theorem getRoom_not_loaded (h : s.findLoaded toLowerCase a = none) :
    s.getRoom toLowerCase lower users now a false =
      (s.stored lower users a).elim (.error (.roomNotFound a))
        (fun options => .ok (Room.construct options now)) := by
  unfold Stores.getRoom Stores.stored
  rw [h]
  cases s.redis a with
  | some state => rfl
  | none =>
    cases s.findRow lower a with
    | some row => rfl
    | none => rfl

theorem construct_stored {options : RoomOptions} (h : s.stored lower users a = some options) :
    (Room.construct options now).onAir = options.onAir := by
  unfold Stores.stored at h
  rcases Option.or_eq_some_iff.mp h with hredis | ⟨-, hrow⟩
  · obtain ⟨state, -, rfl⟩ := Option.map_eq_some_iff.mp hredis
    exact (Room.assigns_redis state now).construct_onAir
  · obtain ⟨row, -, rfl⟩ := Option.map_eq_some_iff.mp hrow
    exact (Room.assigns_row users row now).construct_onAir

theorem sameRoom_iff (h : s.findLoaded toLowerCase a = none)
    (h' : s.findLoaded toLowerCase b = none) :
    SameRoom (s.getRoom toLowerCase lower users now a false)
        (s.getRoom toLowerCase lower users now b false) ↔
      (s.stored lower users a).map RoomOptions.onAir =
        (s.stored lower users b).map RoomOptions.onAir := by
  rw [getRoom_not_loaded h, getRoom_not_loaded h']
  cases ha : s.stored lower users a with
  | none =>
    cases s.stored lower users b with
    | none => exact iff_of_true trivial rfl
    | some options => exact iff_of_false id (fun heq => by cases heq)
  | some options =>
    cases hb : s.stored lower users b with
    | none => exact iff_of_false id (fun heq => by cases heq)
    | some options' =>
      show (Room.construct options now).onAir = (Room.construct options' now).onAir ↔ _
      rw [construct_stored ha, construct_stored hb]
      exact Option.some_inj.symm

/-- **When the two names come to the same.** -/
theorem agree_iff (hrow : s.findRow lower a = s.findRow lower b) :
    (s.stored lower users a).map RoomOptions.onAir =
      (s.stored lower users b).map RoomOptions.onAir ↔ s.Agree lower users a b := by
  unfold Stores.stored
  rw [hrow]
  constructor
  · intro heq
    refine ⟨fun state state' ha hb => ?_, fun state ha hb => ?_, fun state ha hb => ?_⟩
    · rw [ha, hb] at heq
      exact Option.some.inj heq
    · rw [ha, hb] at heq
      obtain ⟨options, hoptions, honAir⟩ := Option.map_eq_some_iff.mp heq.symm
      obtain ⟨row, hfound, rfl⟩ := Option.map_eq_some_iff.mp hoptions
      exact ⟨row, hfound, honAir.symm⟩
    · rw [ha, hb] at heq
      obtain ⟨options, hoptions, honAir⟩ := Option.map_eq_some_iff.mp heq
      obtain ⟨row, hfound, rfl⟩ := Option.map_eq_some_iff.mp hoptions
      exact ⟨row, hrow.trans hfound, honAir⟩
  · intro h
    cases ha : s.redis a with
    | some state =>
      cases hb : s.redis b with
      | some state' => exact congrArg some (h.both state state' ha hb)
      | none =>
        obtain ⟨row, hfound, honAir⟩ := h.left state ha hb
        rw [hfound]
        exact congrArg some honAir
    | none =>
      cases hb : s.redis b with
      | some state =>
        obtain ⟨row, hfound, honAir⟩ := h.right state ha hb
        rw [← hrow, hfound]
        exact congrArg some honAir
      | none => rfl

/-- A name that exists under one spelling exists under the other. -/
theorem exists_of_agree (hloaded : s.findLoaded toLowerCase a = s.findLoaded toLowerCase b)
    (hrow : s.findRow lower a = s.findRow lower b)
    (hagree : ∀ state, s.redis a = some state → s.redis b = none →
      (s.findLoaded toLowerCase b).isSome ∨ (s.findRow lower b).isSome)
    (h : s.Exists toLowerCase lower a) : s.Exists toLowerCase lower b := by
  rcases h with h | h | h
  · exact .inl (hloaded ▸ h)
  · obtain ⟨state, ha⟩ := Option.isSome_iff_exists.mp h
    cases hb : s.redis b with
    | some state' => exact .inr (.inl (by rw [hb]; rfl))
    | none =>
      rcases hagree state ha hb with hfound | hfound
      · exact .inl hfound
      · exact .inr (.inr hfound)
  · exact .inr (.inr (hrow ▸ h))

end Lookup

/-- **Exactly when it makes no difference which spelling is used**: for two names that are equal but
for the case of ASCII letters, whatever is in the three stores. -/
theorem ignoresCase_iff {toLowerCase lower : String → String} (hcode : FoldsCase toLowerCase)
    (hdatabase : FoldsCase lower) (users : UserId → Option User) (s : Stores) (now : Time)
    {a b : String} (h : a.toLower = b.toLower) :
    IgnoresCase toLowerCase lower users s now a b ↔
      (s.findLoaded toLowerCase a).isSome ∨ s.Agree lower users a b := by
  have hloaded := @findLoaded_congr _ s _ _ (hcode a b h)
  have hrow := @findRow_congr _ s _ _ (hdatabase a b h)
  have hcreate : (∀ state, s.redis a = some state → s.redis b = none →
      (s.findLoaded toLowerCase b).isSome ∨ (s.findRow lower b).isSome) →
      s.Exists toLowerCase lower a → ∀ options,
        s.createRoom toLowerCase lower now b options = .error (.roomNameTaken b) :=
    fun hagree hexists options =>
      (createRoom_eq_nameTaken_iff options).mpr (exists_of_agree hloaded hrow hagree hexists)
  have hcreate' : (∀ state, s.redis b = some state → s.redis a = none →
      (s.findLoaded toLowerCase a).isSome ∨ (s.findRow lower a).isSome) →
      s.Exists toLowerCase lower b → ∀ options,
        s.createRoom toLowerCase lower now a options = .error (.roomNameTaken a) :=
    fun hagree hexists options => (createRoom_eq_nameTaken_iff options).mpr
      (exists_of_agree hloaded.symm hrow.symm hagree hexists)
  cases hfound : s.findLoaded toLowerCase a with
  | some room =>
    have hfound' : s.findLoaded toLowerCase b = some room := hloaded.symm.trans hfound
    refine iff_of_true ⟨?_, hcreate (fun _ _ _ => ?_), hcreate' (fun _ _ _ => ?_)⟩ (.inl rfl)
    · rw [Stores.getRoom, Stores.getRoom, hfound, hfound']
      rfl
    · exact .inl (by rw [hfound']; rfl)
    · exact .inl (by rw [hfound]; rfl)
  | none =>
    have hsame := @sameRoom_iff toLowerCase lower users s now a b hfound (hloaded ▸ hfound)
    rw [agree_iff hrow] at hsame
    rw [Option.isSome_none]
    constructor
    · intro hignores
      exact .inr (hsame.mp hignores.get)
    · intro hcondition
      have hagree := hcondition.resolve_left Bool.false_ne_true
      refine ⟨hsame.mpr hagree, hcreate (fun state ha hb => ?_),
        hcreate' (fun state hb ha => ?_)⟩
      · obtain ⟨row, hfound, -⟩ := hagree.left state ha hb
        exact .inr (by rw [hfound]; rfl)
      · obtain ⟨row, hfound, -⟩ := hagree.right state ha hb
        exact .inr (by rw [hfound]; rfl)

/-- Two spellings of one name. -/
theorem toLower_foo : "foo".toLower = "Foo".toLower := by
  show "foo".map Char.toLower = "Foo".map Char.toLower
  rw [← String.toList_inj, String.toList_map, String.toList_map]
  decide

/-- A room that is only in the database is found under both spellings. -/
theorem ignoresCase_iff_stored :
    IgnoresCase String.toLower String.toLower (fun _ => none)
      ⟨[], fun _ => none, [Room.promptRow]⟩ 0 "foo" "Foo" := by
  apply (ignoresCase_iff (fun _ _ h => h) (fun _ _ h => h) _ _ _ toLower_foo).mpr
  right
  constructor
  · intro state state' ha
    cases ha
  · intro state ha
    cases ha
  · intro state _ hb
    cases hb

/-- A temporary room that plays, as redis keeps it. -/
def savedState : RedisState :=
  { (Room.new "Foo" 0).serializeState with
    isTemporary := true
    currentSource := some (.ofVideoId ⟨.youtube, "video"⟩)
    isPlaying := true }

/-- It was unloaded, and is kept in redis. -/
def savedStores : Stores where
  rooms := []
  redis key := if key = "Foo" then some savedState else none
  rows := []

/-- **Whoever spells the name otherwise does not find the room**, and may create another one. -/
theorem not_ignoresCase :
    ¬ ∀ toLowerCase lower : String → String, FoldsCase toLowerCase → FoldsCase lower →
      ∀ (users : UserId → Option User) (s : Stores) (now : Time) (a b : String),
        a.toLower = b.toLower → IgnoresCase toLowerCase lower users s now a b := by
  intro h
  have hignores := h String.toLower String.toLower (fun _ _ h => h) (fun _ _ h => h)
    (fun _ => none) savedStores 0 "Foo" "foo" toLower_foo.symm
  have hsame := (sameRoom_iff rfl rfl).mp hignores.get
  have hsaved : savedStores.stored String.toLower (fun _ => none) "Foo" =
      some (redisStateToState savedState) := rfl
  have hnone : savedStores.stored String.toLower (fun _ => none) "foo" = none := rfl
  rw [hsaved, hnone] at hsame
  cases hsame

end OpenTogetherTube.Server
