import OpenTogetherTube.Lib.Handler
import OpenTogetherTube.Lib.Machine
import OpenTogetherTube.Lib.Operators
import OpenTogetherTube.Server.VideoQueue

/-!
# A room, and what it is really sent

`Server.Room` has the fields of a room as they are declared. What a client sends has no type: each
field of a request is a value of any shape, and where a handler stores it without a check, the room
has it. This is the room again with such values: the videos, the position and the speed are what
they were made, and `+`, `>` and `===` do with them what they do.

The handlers that touch a video or the playback are followed step by step. What the others decide,
whether an event can be published, whether the votes to skip suffice, which settings a request
leaves, is an answer of the `World` that an operation runs in. Users have all permissions, and so no
check of a permission fails. An operation runs alone and takes no time, but an update tick is two
operations, since it waits in the middle of it.

The log has every video that was looked up and everything that was thrown, the promises included that
are rejected with nobody waiting for them. What a thrown error is due to is kept: the position and
the speed, or anything else.
-/

namespace OpenTogetherTube.Server.Untyped

open OpenTogetherTube.Common OpenTogetherTube.Lib

abbrev Fields := List (String × Json)

/-! ## Videos -/

/-- What is in the place of a video: a value, and the properties that were set on it since. Only an
object or an array is shared by the places that hold it. -/
structure Item where
  object : ObjectId
  value : Json
  assigned : Fields

namespace Item

def get? (item : Item) (name : String) : Value :=
  (Json.obj item.assigned).get? name <|> item.value.property? name

/-- A video that was looked up is an object of its own. -/
def ofFields (object : ObjectId) (fields : Fields) : Item := ⟨object, .obj fields, []⟩

/-- `item.service === video.service && item.id === video.id`. -/
def is (item : Item) (service id : Value) : Bool :=
  Json.same (item.get? "service") service && Json.same (item.get? "id") id

/-- `Object.assign(item, patch)`. -/
def assign (patch : Fields) (item : Item) : Item :=
  if item.value.hasProperties then { item with assigned := item.assigned ++ patch } else item

/-- Change an object, if that is what is here. -/
def mutate (object : ObjectId) (f : Item → Item) (item : Item) : Item :=
  if item.object = object then f item else item

/-- `clearQueueItemTrim`: a copy. -/
def clearQueueItemTrim (object : ObjectId) (item : Item) : Item :=
  ofFields object ((item.value.properties ++ item.assigned).filter
    (fun field => field.1 ≠ "startAt" ∧ field.1 ≠ "endAt"))

end Item

/-! ## Surroundings -/

/-- What the code runs on. A counter takes what is finite and not negative, and throws at any other
number; `NaN` is left open. -/
structure Platform where
  conversions : Conversions
  /-- `video.sponsorblock.enabled`. -/
  sponsorblockEnabled : Bool
  /-- Whether a counter takes the value as a label. -/
  labels : Value → Bool
  /-- Whether a counter takes the number as an increment. -/
  counts : Number → Bool
  counts_eq : ∀ n, n ≠ .nan → counts n = n.isNonneg

/-- What `applySettings` can leave, as far as it is read here. -/
structure Settings where
  queueMode : Value
  /-- `none` is `null`. -/
  autoSkipSegmentCategories : Option (List Category)
  wantSponsorBlock : Bool

/-- What an operation finds. `fresh` is the identity of the object that it makes, if it does. -/
structure World where
  now : Time
  fresh : ObjectId
  /-- The client is in the room, or is none. -/
  publishes : Bool
  /-- Votes to skip are not asked for, or they suffice. -/
  skips : Bool
  /-- The room did not have to be kept alive, or it was. -/
  keptAlive : Bool
  /-- What `applySettings` leaves, unless it throws. -/
  settings : Option Settings
  resolveURL : Json → Option (Value × Value)
  getVideoInfo : Value → Value → Option Fields
  getManyVideoInfo : Json → Option (List (ObjectId × Fields))
  shuffle : List (Option Item) → List (Option Item)
  shuffle_perm : ∀ l, (shuffle l).Perm l
  /-- By votes. It throws if a video has no key. -/
  orderBy : List (Option Item) → Option (List (Option Item))
  orderBy_perm : ∀ l l', orderBy l = some l' → l'.Perm l
  fetchSegments : Value → Option (List Segment)

/-! ## The room -/

/-- The queue can hold `undefined`. -/
structure Room where
  queueMode : Value
  autoSkipSegmentCategories : Option (List Category)
  currentSource : Option Item
  queue : List (Option Item)
  prevQueue : Option (List Item)
  isPlaying : Bool
  playbackPosition : Json
  playbackSpeed : Value
  playbackStart : Option Time
  videoSegments : List Segment
  wantSponsorBlock : Bool
  dontSkipSegmentsUntil : Option ℚ

namespace Room

/-- As the constructor leaves it. -/
def new : Room where
  queueMode := some (.str "manual")
  autoSkipSegmentCategories := some allSkipCategories
  currentSource := none
  queue := []
  prevQueue := none
  isPlaying := false
  playbackPosition := .num (.ofNat 0)
  playbackSpeed := some (.num (.ofNat 1))
  playbackStart := none
  videoSegments := []
  wantSponsorBlock := false
  dontSkipSegmentsUntil := none

variable (platform : Platform) (r : Room)

/-- The speed as a number; it is 1 if it is not there. -/
def speed? : Option Number :=
  match r.playbackSpeed with
  | none => some (.ofNat 1)
  | some speed => speed.toNumber? platform.conversions

/-- The seconds since playback was started. -/
def elapsed (now : Time) : ℚ :=
  match r.playbackStart with
  | none => 0
  | some start => ((now - start : Int) : ℚ) / 1000

def calcDurationFromPlaybackStart (now : Time) : Option Number :=
  match r.playbackStart with
  | none => some (.ofNat 0)
  | some _ => (r.speed? platform).map (fun speed => (Number.finite (r.elapsed now)).times speed)

def realPlaybackPosition (now : Time) : Option Json :=
  if r.playbackStart.isSome ∧ r.isPlaying then
    (r.calcDurationFromPlaybackStart platform now).bind
      (fun seconds => r.playbackPosition.plus? platform.conversions seconds)
  else some r.playbackPosition

def getSegmentForTime (time : Json) : Option (Option Segment) :=
  if r.videoSegments.isEmpty then some none
  else (time.toNumber? platform.conversions).map (fun n =>
    r.videoSegments.find? (fun s => n.ge (.finite s.startTime) && (Number.finite s.endTime).ge n))

/-- Change an object wherever the room holds it. -/
def mutate (object : ObjectId) (f : Item → Item) : Room :=
  { r with
    currentSource := r.currentSource.map (Item.mutate object f)
    queue := r.queue.map (Option.map (Item.mutate object f)) }

end Room

/-- The place of the video. It throws when it comes to what is `undefined`. -/
def findIndex (service id : Value) : List (Option Item) → Option (Option Nat)
  | [] => some none
  | none :: _ => none
  | some item :: queue =>
    if item.is service id then some (some 0)
    else (findIndex service id queue).map (Option.map (· + 1))

def Room.isVideoInQueue (r : Room) (service id : Value) : Option Bool :=
  if r.currentSource.any (fun item => item.is service id) then some true
  else (findIndex service id r.queue).map Option.isSome

/-! ## Operations -/

/-- Why something is thrown. -/
inductive Fault where
  /-- The position or the speed. -/
  | playback
  | other
  deriving DecidableEq, Repr

inductive Note where
  /-- A video was looked up. -/
  | found (video : Fields)
  | thrown (fault : Fault)

abbrev RoomM (α : Type) := Handler Room Note Fault α

/-- What throws because of the position or the speed. -/
def playing {α : Type} (x : Option α) : RoomM α :=
  Handler.liftExcept (x.elim (.error .playback) .ok)

/-- What throws for another reason. -/
def orThrow {α : Type} (x : Option α) : RoomM α :=
  Handler.liftExcept (x.elim (.error .other) .ok)

/-- A rejection is noted. -/
def settled : Outcome Room Note Fault Unit → Outcome Room Note Fault Unit
  | ⟨r, notes, .ok _⟩ => ⟨r, notes, .ok ()⟩
  | ⟨r, notes, .error fault⟩ => ⟨r, notes ++ [.thrown fault], .ok ()⟩

theorem settled_state (o : Outcome Room Note Fault Unit) : (settled o).state = o.state := by
  obtain ⟨r, notes, result⟩ := o
  cases result <;> rfl

/-- A promise that nobody waits for. -/
def unawaited (h : RoomM Unit) : RoomM Unit := ⟨fun r => settled (h.run r)⟩

section Operations

variable (platform : Platform) (world : World)

def publishRoomEvent : RoomM Unit :=
  Handler.when (world.publishes = false) (Handler.throw .other)

/-- A counter that has the service for a label. -/
def label (item : Option Item) : RoomM Unit :=
  Handler.when (platform.labels (item.bind (·.get? "service")) = false) (Handler.throw .other)

/-- Add the seconds since playback was started to the metrics. -/
def countSecondsWatched : RoomM Unit := do
  let r ← Handler.get
  label platform r.currentSource
  let seconds ← playing (r.calcDurationFromPlaybackStart platform world.now)
  Handler.when (platform.counts seconds = false) (Handler.throw .playback)

/-! ### The next video -/

/-- The queue's next video becomes the current source; without one, playback ends. -/
def advance (r : Room) : Room :=
  match r.queue with
  | item :: queue =>
    { r with
      queue := queue
      currentSource := item
      playbackPosition := Json.nullish (item.bind (·.get? "startAt")) (.num (.ofNat 0))
      playbackStart := some world.now
      videoSegments := [] }
  | [] =>
    if r.currentSource.isSome then
      { r with
        isPlaying := false
        playbackPosition := .num (.ofNat 0)
        playbackStart := some world.now
        currentSource := none }
    else r

/-- The end of `dequeueNext`. -/
def afterAdvance : RoomM Unit := do
  let r ← Handler.get
  Handler.when (platform.sponsorblockEnabled = true ∧ r.autoSkipSegmentCategories.isNone)
    (Handler.throw .other)
  Handler.modify (fun r =>
    { r with
      wantSponsorBlock := r.wantSponsorBlock || (platform.sponsorblockEnabled &&
        !(r.autoSkipSegmentCategories.getD []).isEmpty && r.currentSource.isSome)
      videoSegments := if r.currentSource.isNone then [] else r.videoSegments
      playbackSpeed := some (.num (.ofNat 1)) })

/-- The next video is played, once what has to be done with the current one is done. -/
def playNext : RoomM Unit := do
  Handler.modify (advance world)
  afterAdvance platform

/-- In dj mode, the current source is played again. -/
def restart (current : Item) (r : Room) : Room :=
  { r with
    currentSource := some (current.clearQueueItemTrim world.fresh)
    playbackPosition := .num (.ofNat 0)
    playbackStart := some world.now }

def dequeueNext : RoomM Unit := do
  let r ← Handler.get
  match r.currentSource with
  | none => playNext platform world
  | some current => do
    countSecondsWatched platform world
    if Json.same r.queueMode (some (.str "dj")) then Handler.modify (restart world current)
    else do
      Handler.when (Json.same r.queueMode (some (.str "loop")) = true)
        (Handler.modify (fun r =>
          { r with queue := r.queue ++ [some (current.clearQueueItemTrim world.fresh)] }))
      playNext platform world

/-! ### Playback -/

def play : RoomM Unit := do
  let r ← Handler.get
  Handler.when (r.isPlaying = false)
    (Handler.modify (fun r => { r with isPlaying := true, playbackStart := some world.now }))

def flushPlaybackPosition : RoomM Unit := do
  countSecondsWatched platform world
  let r ← Handler.get
  let position ← playing (r.realPlaybackPosition platform world.now)
  Handler.modify (fun r =>
    { r with playbackPosition := position, playbackStart := some world.now })

def pause : RoomM Unit := do
  let r ← Handler.get
  Handler.when (r.isPlaying = true) (do
    flushPlaybackPosition platform world
    Handler.modify (fun r => { r with playbackStart := none, isPlaying := false }))

def playOrPause (state : Value) : RoomM Unit :=
  if Json.truthy state then play world else pause platform world

def playback (state : Value) : RoomM Unit := do
  playOrPause platform world state
  publishRoomEvent world

def skip : RoomM Unit := do
  let r ← Handler.get
  Handler.when (r.currentSource.isSome = true ∧ world.skips = true) (do
    let _ ← playing (r.realPlaybackPosition platform world.now)
    label platform r.currentSource
    unawaited (dequeueNext platform world)
    publishRoomEvent world
    Handler.modify (fun r => { r with videoSegments := [] }))

def seekRaw (value : Json) : RoomM Unit := do
  countSecondsWatched platform world
  Handler.modify (fun r => { r with playbackPosition := value, playbackStart := some world.now })

/-- The segment that was sought is not skipped. -/
def keepSegment : RoomM Unit := do
  let r ← Handler.get
  let segment ← playing (r.getSegmentForTime platform r.playbackPosition)
  Handler.modify (fun r => { r with dontSkipSegmentsUntil := segment.map (·.endTime) })

def seek (value : Value) : RoomM Unit :=
  match value with
  | none => pure ()
  | some value =>
    Handler.when (value.isNull = false) (do
      let r ← Handler.get
      let _ ← playing (r.realPlaybackPosition platform world.now)
      seekRaw platform world value
      publishRoomEvent world
      keepSegment platform)

def setPlaybackSpeed (speed : Value) : RoomM Unit := do
  flushPlaybackPosition platform world
  Handler.modify (fun r => { r with playbackSpeed := speed })

/-! ### The queue -/

/-- `url.split(".").pop() === "vtt"`. Only a string can be split. -/
def hasVttExtension (url : Value) : Bool :=
  (Json.string? url).any (fun url => (url.toList.splitOn '.').getLast? = some "vtt".toList)

/-- `url.endsWith(".vtt")`. -/
def endsWithVtt (url : Value) : Bool :=
  (Json.string? url).any (fun url => ".vtt".toList.isSuffixOf url.toList)

/-- A video is looked up. -/
def lookup (service id : Value) : RoomM Item := do
  let fields ← orThrow (world.getVideoInfo service id)
  Handler.emit (.found fields)
  pure (.ofFields world.fresh fields)

/-- Every video that was found is noted. -/
def noteFound : List (ObjectId × Fields) → RoomM Unit
  | [] => pure ()
  | video :: videos => do
    Handler.emit (.found video.2)
    noteFound videos

/-- The subtitles that a request asks for, as a patch, if it does. -/
def subtitles (subtitleUrl : Value) : RoomM Fields :=
  if Json.truthy subtitleUrl then
    if hasVttExtension subtitleUrl then
      pure (subtitleUrl.toList.map (fun url => ("subtitleUrl", url)))
    else Handler.throw .other
  else pure []

def enqueue (items : List Item) : RoomM Unit :=
  Handler.modify (fun r => { r with queue := r.queue ++ items.map some })

/-- Adding one video. -/
def addVideo (service id subtitleUrl : Value) : RoomM Unit := do
  let r ← Handler.get
  let queued ← orThrow (r.isVideoInQueue service id)
  Handler.when (queued = true) (Handler.throw .other)
  let video ← lookup world service id
  let patch ← subtitles subtitleUrl
  enqueue [video.assign patch]
  Handler.modify (fun r => { r with prevQueue := none })
  publishRoomEvent world

/-- Drop the videos that are queued already. -/
def notQueued (r : Room) : List (ObjectId × Fields) → Option (List Item)
  | [] => some []
  | video :: videos => do
    let item := Item.ofFields video.1 video.2
    let queued ← r.isVideoInQueue (item.get? "service") (item.get? "id")
    let rest ← notQueued r videos
    pure (if queued then rest else item :: rest)

/-- Adding a list of videos. -/
def addVideos (videos : Json) : RoomM Unit := do
  let found ← orThrow (world.getManyVideoInfo videos)
  noteFound found
  let r ← Handler.get
  let added ← orThrow (notQueued r found)
  Handler.when (added.isEmpty = true) (Handler.throw .other)
  enqueue added
  publishRoomEvent world

def addToQueue (url video videos : Value) : RoomM Unit :=
  if Json.truthy url then do
    let (service, id) ← orThrow (url.bind world.resolveURL)
    addVideo world service id none
  else if Json.truthy video then do
    let service ← orThrow (Json.read video "service")
    let id ← orThrow (Json.read video "id")
    let subtitleUrl ← orThrow (Json.read video "subtitleUrl")
    addVideo world service id subtitleUrl
  else
    match videos with
    | some videos => if Json.truthy (some videos) then addVideos world videos else pure ()
    | none => pure ()

/-- The place that a video has in the queue, and what is there. -/
def position (service id : Value) : RoomM (Nat × Item) := do
  let r ← Handler.get
  let index ← orThrow (findIndex service id r.queue)
  let index ← orThrow index
  let item ← orThrow (r.queue[index]?.join)
  pure (index, item)

def updateQueueItem (video update : Value) : RoomM Unit := do
  let subtitleUrl ← orThrow (Json.read update "subtitleUrl")
  Handler.when (subtitleUrl.isSome = true ∧ endsWithVtt subtitleUrl = false) (Handler.throw .other)
  let service ← orThrow (Json.read video "service")
  let id ← orThrow (Json.read video "id")
  let (_, item) ← position service id
  Handler.modify (fun r => r.mutate item.object (Item.assign (update.elim [] Json.properties)))
  publishRoomEvent world

/-- `queue.evict`. -/
def evict (service id : Value) : RoomM Item := do
  let (index, item) ← position service id
  Handler.modify (fun r => { r with queue := r.queue.eraseIdx index })
  pure item

def removeFromQueue (video : Value) : RoomM Unit := do
  let service ← orThrow (Json.read video "service")
  let id ← orThrow (Json.read video "id")
  let _ ← evict service id
  publishRoomEvent world

/-- `queue.move`. What was not there to be removed is put in as `undefined`. -/
def move (fromIdx toIdx : Value) : RoomM Unit :=
  if Json.same fromIdx toIdx then pure ()
  else do
    let r ← Handler.get
    let n ← orThrow (Json.asNumber? platform.conversions fromIdx)
    let length := Number.ofNat r.queue.length
    Handler.when (n.lt (.ofNat 0) = true ∨ n.ge length = true) (Handler.throw .other)
    let m ← orThrow (Json.asNumber? platform.conversions toIdx)
    Handler.when (m.lt (.ofNat 0) = true ∨ m.ge length = true) (Handler.throw .other)
    let (removed, rest) := splice r.queue n (.ofNat 1) []
    Handler.modify (fun r =>
      { r with queue := (splice rest m (.ofNat 0) [removed.head?.join]).2 })

/-- `queue.insert`, of a video that is there. -/
def insert (video : Json) (index : Value) : RoomM Unit := do
  let r ← Handler.get
  let n ← orThrow (Json.asNumber? platform.conversions index)
  Handler.when (n.lt (.ofNat 0) = true ∨ (Number.ofNat r.queue.length).lt n = true)
    (Handler.throw .other)
  let i := n.clamp r.queue.length
  Handler.modify (fun r =>
    { r with queue := r.queue.take i ++ [some ⟨world.fresh, video, []⟩] ++ r.queue.drop i })

def shuffle : RoomM Unit := Handler.modify (fun r => { r with queue := world.shuffle r.queue })

def restoreQueue (discard : Value) : RoomM Unit := do
  let r ← Handler.get
  let items ← orThrow r.prevQueue
  Handler.when (Json.truthy discard = false) (enqueue items)
  Handler.modify (fun r => { r with prevQueue := none })

/-- The current source goes back to the top of the queue, to be continued where it was. It has to be
an object for that. -/
def requeueCurrent : RoomM Unit := do
  let r ← Handler.get
  match r.currentSource with
  | none => pure ()
  | some current => do
    let position ← playing (r.realPlaybackPosition platform world.now)
    Handler.when (current.value.hasProperties = false) (Handler.throw .other)
    let stopped := Item.assign [("startAt", position)]
    Handler.modify (fun r => r.mutate current.object stopped)
    Handler.modify (fun r => { r with queue := some (stopped current) :: r.queue })

/-- The video to play becomes the current source, and plays from its start. -/
def putInPlace (video : Item) : RoomM Unit := do
  Handler.modify (fun r =>
    { r with
      currentSource := some video
      playbackPosition := .num (.ofNat 0)
      playbackStart := some world.now
      videoSegments := [] })
  let r ← Handler.get
  let categories ← orThrow r.autoSkipSegmentCategories
  Handler.when (categories.isEmpty = false)
    (Handler.modify (fun r => { r with wantSponsorBlock := true }))

/-- Set the subtitles of the video to play, in the object itself. -/
def subtitleToPlay (subtitleUrl : Value) (video : Item) : RoomM Item := do
  let patch ← subtitles subtitleUrl
  Handler.when (patch.isEmpty = false ∧ video.value.hasProperties = false) (Handler.throw .other)
  Handler.modify (fun r => r.mutate video.object (Item.assign patch))
  pure (video.assign patch)

/-- Take a video that is queued out of the queue, or look it up. -/
def fetchToPlay (service id : Value) (queued : Bool) : RoomM Item :=
  if queued then evict service id else lookup world service id

def playNow (video : Value) : RoomM Unit := do
  let service ← orThrow (Json.read video "service")
  let id ← orThrow (Json.read video "id")
  let subtitleUrl ← orThrow (Json.read video "subtitleUrl")
  let r ← Handler.get
  if r.currentSource.any (fun item => item.is service id) then pure ()
  else do
    let queued ← orThrow (r.isVideoInQueue service id)
    let found ← fetchToPlay world service id queued
    let video ← subtitleToPlay subtitleUrl found
    requeueCurrent platform world
    putInPlace world video

/-! ### Undo -/

/-- The current source goes back to the top of the queue. -/
def pushCurrent (r : Room) : Room :=
  match r.currentSource with
  | some current => { r with queue := some current :: r.queue }
  | none => r

/-- Undo a skip, by what the event says. -/
def undoSkip (event : Value) : RoomM Unit := do
  Handler.modify pushCurrent
  let additional ← orThrow (Json.read event "additional")
  let video ← orThrow (Json.read additional "video")
  let prevPosition ← orThrow (Json.read additional "prevPosition")
  match video, prevPosition with
  | some video, some prevPosition =>
    Handler.when (Json.truthy (some video) = true ∧ Json.truthy (some prevPosition) = true)
      (Handler.modify (fun r =>
        { r with
          currentSource := some ⟨world.fresh, video, []⟩
          playbackPosition := prevPosition }))
  | _, _ => pure ()

/-- Undo a removal, by what the event says. -/
def undoRemove (event : Value) : RoomM Unit := do
  let additional ← orThrow (Json.read event "additional")
  let video ← orThrow (Json.read additional "video")
  let queueIdx ← orThrow (Json.read additional "queueIdx")
  match video with
  | some video =>
    Handler.when (Json.truthy (some video) = true ∧ queueIdx.isSome = true)
      (unawaited (insert platform world video queueIdx))
  | none => pure ()

def undoSeek (event : Value) : RoomM Unit := do
  let additional ← orThrow (Json.read event "additional")
  let prevPosition ← orThrow (Json.read additional "prevPosition")
  Handler.when (Json.truthy prevPosition = true) (seek platform world prevPosition)

def undoAdd (request : Value) : RoomM Unit := do
  let r ← Handler.get
  let video ← orThrow (Json.read request "video")
  if r.queue.isEmpty = false ∧ Json.truthy video = true then removeFromQueue world video
  else Handler.modify (fun r => { r with currentSource := none })

def undo (event : Value) : RoomM Unit := do
  let request ← orThrow (Json.read event "request")
  let type ← orThrow (Json.read request "type")
  if Json.isNumber type 4 then undoSeek platform world event
  else if Json.isNumber type 3 then undoSkip world event
  else if Json.isNumber type 5 then undoAdd world request
  else if Json.isNumber type 6 then undoRemove platform world event
  else pure ()

/-! ### Settings -/

def applySettings : RoomM Unit := do
  let settings ← orThrow world.settings
  Handler.modify (fun r =>
    { r with
      queueMode := settings.queueMode
      autoSkipSegmentCategories := settings.autoSkipSegmentCategories
      wantSponsorBlock := settings.wantSponsorBlock })

/-! ### Update ticks -/

/-- `realPlaybackPosition > (endAt ?? length ?? 0)`. -/
def isOver (r : Room) (current : Item) : RoomM Bool := do
  let position ← playing (r.realPlaybackPosition platform world.now)
  let limit := Json.nullish (current.get? "endAt") (Json.nullish (current.get? "length") (.num (.ofNat 0)))
  let _ ← playing (position.primitive? platform.conversions)
  orThrow (position.gt? platform.conversions limit)

/-- The current source has come to its end. -/
def ended : RoomM Bool := do
  let r ← Handler.get
  match r.currentSource with
  | none => pure false
  | some current => if r.isPlaying then isOver platform world r current else pure false

/-- The next video is played if the current one is over, or if there is none. -/
def dequeueIf (past : Bool) : RoomM Unit := do
  let r ← Handler.get
  Handler.when (past = true) (label platform r.currentSource)
  Handler.when (past = true ∨ (r.currentSource.isNone = true ∧ r.queue.isEmpty = false))
    (dequeueNext platform world)

/-- In vote mode, the queue is sorted. -/
def sortQueue : RoomM Unit := do
  let r ← Handler.get
  Handler.when (Json.same r.queueMode (some (.str "vote")) = true) (do
    let queue ← orThrow (world.orderBy r.queue)
    Handler.modify (fun r => { r with queue := queue }))

/-- `update`, as far as to the segments. -/
def update : RoomM Unit := do
  let past ← ended platform world
  dequeueIf platform world past
  Handler.when (world.keptAlive = false) (Handler.throw .other)
  sortQueue world

/-- `fetchSponsorBlockSegments`. What it throws is caught. -/
def fetchSponsorBlockSegments (r : Room) : Room :=
  match r.currentSource with
  | none => { r with videoSegments := [] }
  | some current =>
    if Json.same (current.get? "service") (some (.str "youtube")) then
      match world.fetchSegments (current.get? "id") with
      | some segments => { r with videoSegments := segments }
      | none => r
    else { r with videoSegments := [] }

/-- The segment that was sought has been played. -/
def releaseSegment : RoomM Unit := do
  let r ← Handler.get
  match r.dontSkipSegmentsUntil with
  | none => pure ()
  | some time =>
    Handler.when (time ≠ 0) (do
      let position ← playing (r.realPlaybackPosition platform world.now)
      let past ← playing (position.ge? platform.conversions time)
      Handler.when (past = true) (Handler.modify (fun r => { r with dontSkipSegmentsUntil := none })))

/-- A segment that is to be skipped is. -/
def skipSegment (categories : List Category) : RoomM Unit := do
  let r ← Handler.get
  Handler.when (r.isPlaying = true ∧ r.videoSegments.isEmpty = false ∧
      r.dontSkipSegmentsUntil.isNone = true) (do
    let position ← playing (r.realPlaybackPosition platform world.now)
    let segment ← playing (r.getSegmentForTime platform position)
    match segment with
    | some segment =>
      Handler.when (segment.category ∈ categories)
        (seekRaw platform world (.num (.finite segment.endTime)))
    | none => pure ())

/-- The rest of `update`. -/
def updateSegments : RoomM Unit :=
  Handler.when (platform.sponsorblockEnabled = true) (do
    let r ← Handler.get
    let categories ← orThrow r.autoSkipSegmentCategories
    Handler.when (categories.isEmpty = false) (do
      Handler.when (r.wantSponsorBlock = true)
        (Handler.modify (fun r => fetchSponsorBlockSegments world { r with wantSponsorBlock := false }))
      releaseSegment platform world
      skipSegment platform world categories))

end Operations

/-! ### What an event says -/

/-- A field of an event's `additional`. -/
def additional (event : Value) (name : String) : Value :=
  ((Json.read event "additional").bind (fun additional => Json.read additional name)).join

/-- The type of the request that an event is about. -/
def eventType (event : Value) : Value :=
  ((Json.read event "request").bind (fun request => Json.read request "type")).join

/-! ## Runs -/

/-- A request, with the fields that its handler reads. `other` are those that touch neither a video
nor the playback: users who join, leave, are changed, promoted or kicked, votes, and chat. -/
inductive Request where
  | playback (state : Value)
  | skip
  | seek (value : Value)
  | add (url video videos : Value)
  | updateQueueItem (video update : Value)
  | remove (video : Value)
  | order (fromIdx toIdx : Value)
  | undo (event : Value)
  | applySettings
  | playNow (video : Value)
  | shuffle
  | playbackSpeed (speed : Value)
  | restoreQueue (discard : Value)
  | other

def processRequest (platform : Platform) (world : World) : Request → RoomM Unit
  | .playback state => playback platform world state
  | .skip => skip platform world
  | .seek value => seek platform world value
  | .add url video videos => addToQueue world url video videos
  | .updateQueueItem video update => updateQueueItem world video update
  | .remove video => removeFromQueue world video
  | .order fromIdx toIdx => move platform fromIdx toIdx
  | .undo event => undo platform world event
  | .applySettings => applySettings world
  | .playNow video => playNow platform world video
  | .shuffle => shuffle world
  | .playbackSpeed speed => setPlaybackSpeed platform world speed
  | .restoreQueue discard => restoreQueue discard
  | .other => pure ()

inductive Operation where
  | request (request : Request)
  | update
  | updateSegments

def Operation.handler (platform : Platform) (world : World) : Operation → RoomM Unit
  | .request r => processRequest platform world r
  | .update => Untyped.update platform world
  | .updateSegments => Untyped.updateSegments platform world

structure State where
  room : Room
  clock : Time
  log : List Note

/-- What was thrown at the end. -/
def thrown : Except Fault Unit → List Note
  | .ok _ => []
  | .error fault => [.thrown fault]

structure Event where
  world : World
  operation : Operation

/-- Time does not go back. -/
def machine (platform : Platform) : Machine State Event where
  step s e :=
    if e.world.now < s.clock then none
    else
      let outcome := (e.operation.handler platform e.world).run s.room
      some ⟨outcome.state, e.world.now, s.log ++ (outcome.published ++ thrown outcome.result)⟩

/-- A step is an operation that runs at a time that is not in the past. -/
theorem step_eq_some {platform : Platform} {s s' : State} {e : Event} (h : (machine platform).step s e = some s') :
    s.clock ≤ e.world.now ∧
      s' = ⟨((e.operation.handler platform e.world).run s.room).state, e.world.now,
        s.log ++ (((e.operation.handler platform e.world).run s.room).published ++
          thrown ((e.operation.handler platform e.world).run s.room).result)⟩ := by
  unfold machine at h
  simp only at h
  split at h
  · cases h
  · next hnow => exact ⟨not_lt.mp hnow, (Option.some.inj h).symm⟩

/-! ### One room -/

/-- A server with a counter that refuses `NaN` too. -/
def plainPlatform : Platform where
  conversions := ⟨fun _ => "0", fun _ => .nan⟩
  sponsorblockEnabled := false
  labels _ := true
  counts := Number.isNonneg
  counts_eq _ _ := rfl

/-- A client in the room, and nothing to look up. -/
def plainWorld (now : Time) : World where
  now := now
  fresh := 0
  publishes := true
  skips := true
  keptAlive := true
  settings := none
  resolveURL _ := none
  getVideoInfo _ _ := none
  getManyVideoInfo _ := none
  shuffle l := l
  shuffle_perm _ := .refl _
  orderBy := some
  orderBy_perm _ _ h := by rw [Option.some.inj h]
  fetchSegments _ := none

def init : State := ⟨Room.new, 0, []⟩

end OpenTogetherTube.Server.Untyped
