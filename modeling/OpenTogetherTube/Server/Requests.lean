import OpenTogetherTube.Server.Room

/-!
# The operations of a room

The twenty request handlers of a room, `processRequest` that checks a permission and dispatches to
them, and the operations the server runs by itself: `dequeueNext`, `update` and `setGrants`.

An operation runs alone here, from its start until everything it started has settled. Calls whose
promise is not awaited are `Handler.unawaited`: they run, but a throw in them does not reach the
caller. Metrics count only upwards, and a counter that is asked to go down throws.
-/

namespace OpenTogetherTube.Server

open OpenTogetherTube.Common OpenTogetherTube.Lib

/-- What a room publishes to its clients, and the one command it gives the client manager. -/
inductive RoomOutput where
  | event (request : RoomRequest) (user : RoomUserInfo) (additional : RoomEventContext)
  | syncPosition (playbackPosition : ℚ)
  | user (info : RoomUserInfo)
  | chat (sender : RoomUserInfo) (text : String)
  | eventCustom (text : String)
  | kick (clientId : ClientId)
  deriving DecidableEq

abbrev RoomM (α : Type) := Handler Room RoomOutput RoomError α

namespace Room

/-! ## Building blocks -/

/-- Run an operation on the queue. -/
def onQueue {α : Type} (op : VideoQueue → QueueStep α) : RoomM α :=
  ⟨fun r => ⟨r.withQueue (op r.queue), [], (op r.queue).result⟩⟩

theorem run_onQueue {α : Type} (op : VideoQueue → QueueStep α) (r : Room) :
    (onQueue op).run r = ⟨r.withQueue (op r.queue), [], (op r.queue).result⟩ := rfl

/-- `this.grants.check(role, permission)`. -/
def checkGrant (role : Role) (permission : PermissionName) : RoomM Unit := do
  let r ← Handler.get
  Handler.when (r.grants.granted role permission = false)
    (Handler.throw (.permissionDenied permission))

/-- Check permissions one after the other. -/
def checkGrants (role : Role) : List PermissionName → RoomM Unit
  | [] => pure ()
  | permission :: permissions => do
    checkGrant role permission
    checkGrants role permissions

/-- Add the seconds since playback was started to the metrics. -/
def countSecondsWatched (env : Env) : RoomM Unit := do
  let r ← Handler.get
  Handler.when (¬ r.Counts env.now) (Handler.throw (r.countError env.now))

/-- Tell the clients about a request. A client that is not in the room is an error. -/
def publishRoomEvent (request : RoomRequest) (context : RoomRequestContext)
    (additional : RoomEventContext) : RoomM Unit :=
  match context.clientId with
  | none => pure ()
  | some clientId => do
    let r ← Handler.get
    let user ← Handler.liftExcept (r.getUserInfo clientId)
    Handler.emit (.event request user additional)

/-- `syncUser(getUserInfo(client))`. -/
def syncUser (client : ClientId) : RoomM Unit := do
  let r ← Handler.get
  let info ← Handler.liftExcept (r.getUserInfo client)
  Handler.emit (.user info)

/-- A user in the room is told about. -/
theorem run_syncUser {r : Room} {client : ClientId} {u : RoomUser} (h : r.getUser client = some u) :
    (syncUser client).run r = ⟨r, [.user (r.userInfo u)], .ok ()⟩ := by
  have hinfo := getUserInfo_of_getUser h
  simp only [syncUser, Handler.run_bind, Handler.run_get, Outcome.andThen_ok,
    Handler.run_liftExcept, hinfo, Handler.run_emit, List.nil_append]

section Frames

variable {R : Room → Room → Prop} [IsPreorder Room R]

theorem checkGrant_keeps (role : Role) (permission : PermissionName) :
    (checkGrant role permission).Keeps R :=
  .bind .get (fun _ => .when (fun _ => .throw _))

/-- Checks change nothing. -/
theorem checkGrants_keeps (role : Role) (permissions : List PermissionName) :
    (checkGrants role permissions).Keeps R := by
  induction permissions with
  | nil => exact .pure ()
  | cons permission permissions ih => exact .bind (checkGrant_keeps role permission) (fun _ => ih)

/-- The counter is no part of the room. -/
theorem countSecondsWatched_keeps (env : Env) : (countSecondsWatched env).Keeps R :=
  .bind .get (fun _ => .when (fun _ => .throw _))

/-- What is published does not change the room. -/
theorem publishRoomEvent_keeps (request : RoomRequest) (context : RoomRequestContext)
    (additional : RoomEventContext) : (publishRoomEvent request context additional).Keeps R := by
  unfold publishRoomEvent
  split
  · exact .pure ()
  · exact .bind .get (fun _ => .bind (.liftExcept _) (fun _ => .emit _))

theorem syncUser_keeps (client : ClientId) : (syncUser client).Keeps R :=
  .bind .get (fun _ => .bind (.liftExcept _) (fun _ => .emit _))

end Frames

/-! ## Playing the next video -/

/-- A source is put into place, and playback starts at its start. -/
def startSource (r : Room) (now : Time) (source : Option QueueEntry) (position : ℚ) : Room :=
  ((r.setCurrentSource source).setPlaybackPosition position).setPlaybackStart (some now)

/-- `if (this.videoSegments.length > 0) this.videoSegments = []`. -/
def dropVideoSegments (r : Room) : Room :=
  if r.videoSegments.length > 0 then r.setVideoSegments [] else r

/-- The queue's next video becomes the current source; without one, playback ends. -/
def advance (r : Room) (now : Time) : Room :=
  match r.queue with
  | head :: _ =>
    let r := r.withQueue r.queue.dequeue
    (r.startSource now (some head) (head.item.startAt.getD 0)).dropVideoSegments
  | [] =>
    if r.currentSource.isSome then
      let r := if r.isPlaying then r.setIsPlaying false else r
      ((r.setPlaybackPosition 0).setPlaybackStart (some now)).setCurrentSource none
    else r

/-- The end of `dequeueNext`. -/
def afterAdvance (env : Env) (r : Room) : Room :=
  let r := if env.sponsorblockEnabled ∧ r.autoSkipSegmentCategories.length > 0 ∧
    r.currentSource.isSome then { r with wantSponsorBlock := true } else r
  let r := if r.currentSource = none then r.dropVideoSegments else r
  r.setPlaybackSpeed 1

def dequeueNext (env : Env) : RoomM Unit := do
  Handler.modify (fun r => if r.enableVoteSkip then r.setVotesToSkip ∅ else r)
  let r ← Handler.get
  match r.currentSource with
  | none => Handler.modify (fun r => afterAdvance env (r.advance env.now))
  | some current => do
    countSecondsWatched env
    let trimmed : QueueEntry := ⟨env.fresh, clearQueueItemTrim current.item⟩
    match r.queueMode with
    | .dj => Handler.modify (fun r => r.startSource env.now (some trimmed) 0)
    | .loop => do
      onQueue (·.enqueue [trimmed])
      Handler.modify (fun r => afterAdvance env (r.advance env.now))
    | _ => Handler.modify (fun r => afterAdvance env (r.advance env.now))

/-- The votes to skip are spent. -/
def clearVotes (r : Room) : Room := if r.enableVoteSkip then r.setVotesToSkip ∅ else r

/-- Where `dequeueNext` leaves the room once the votes are cleared, whether or not it throws. -/
def replaced (env : Env) (r : Room) (current : QueueEntry) : Room :=
  let trimmed : QueueEntry := ⟨env.fresh, clearQueueItemTrim current.item⟩
  if ¬ r.Counts env.now then r
  else match r.queueMode with
    | .dj => r.startSource env.now (some trimmed) 0
    | .loop => afterAdvance env ((r.withQueue (r.queue.enqueue [trimmed])).advance env.now)
    | _ => afterAdvance env (r.advance env.now)

/-- What the next video makes of a room in which one plays. -/
theorem dequeueNext_state (env : Env) {r : Room} {current : QueueEntry}
    (h : r.currentSource = some current) :
    ((dequeueNext env).run r).state = replaced env r.clearVotes current := by
  have hcurrent : r.clearVotes.currentSource = some current := by
    unfold clearVotes
    split <;> exact h
  have hstart : dequeueNext env = Handler.modify clearVotes >>= fun _ => (do
      let r ← Handler.get
      match r.currentSource with
      | none => Handler.modify (fun r => afterAdvance env (r.advance env.now))
      | some current => do
        countSecondsWatched env
        let trimmed : QueueEntry := ⟨env.fresh, clearQueueItemTrim current.item⟩
        match r.queueMode with
        | .dj => Handler.modify (fun r => r.startSource env.now (some trimmed) 0)
        | .loop => do
          onQueue (·.enqueue [trimmed])
          Handler.modify (fun r => afterAdvance env (r.advance env.now))
        | _ => Handler.modify (fun r => afterAdvance env (r.advance env.now))) := rfl
  rw [hstart, Handler.run_bind, Handler.run_modify, Outcome.andThen_ok]
  generalize r.clearVotes = cleared at hcurrent ⊢
  simp only [Handler.run_bind, Handler.run_get, Outcome.andThen_ok, hcurrent, countSecondsWatched,
    Handler.run_when, replaced]
  by_cases hcounts : cleared.Counts env.now
  · cases hm : cleared.queueMode <;> simp [hcounts, onQueue, VideoQueue.enqueue]
  · simp [hcounts]

/-- And of one in which none does. -/
theorem dequeueNext_state_none (env : Env) {r : Room} (h : r.currentSource = none) :
    ((dequeueNext env).run r).state = afterAdvance env (r.clearVotes.advance env.now) := by
  have hnone : r.clearVotes.currentSource = none := by
    unfold clearVotes
    split <;> exact h
  have hread : r.clearVotes.currentSource =
      (if r.enableVoteSkip then r.setVotesToSkip ∅ else r).currentSource := rfl
  rw [hread] at hnone
  simp only [dequeueNext, Handler.run_bind, Handler.run_modify, Outcome.andThen_ok, Handler.run_get,
    hnone]
  rfl

/-! ## Playback requests -/

def play (env : Env) : RoomM Unit := do
  let r ← Handler.get
  Handler.when (r.isPlaying = false)
    (Handler.modify (fun r => (r.setIsPlaying true).setPlaybackStart (some env.now)))

/-- `flushPlaybackPosition`. -/
def flushPlaybackPosition (env : Env) : RoomM Unit := do
  countSecondsWatched env
  Handler.modify (fun r =>
    (r.setPlaybackPosition (r.realPlaybackPosition env.now)).setPlaybackStart (some env.now))

def pause (env : Env) : RoomM Unit := do
  let r ← Handler.get
  Handler.when (r.isPlaying = true) (do
    flushPlaybackPosition env
    Handler.modify (fun r => (r.setPlaybackStart none).setIsPlaying false))

def playback (env : Env) (state : Bool) (context : RoomRequestContext) : RoomM Unit := do
  if state then play env else pause env
  publishRoomEvent (.playback state) context .none

/-- A client's vote to skip is added, or taken back if it was there. -/
def toggleVoteToSkip (r : Room) (client : ClientId) : Room :=
  r.setVotesToSkip
    (if r.votesToSkip.has client then r.votesToSkip.delete client else r.votesToSkip.add client)

/-- With vote skipping on, a skip request is a vote. -/
def voteToSkip (context : RoomRequestContext) (r : Room) : Room :=
  if r.enableVoteSkip then
    match truthy context.clientId with
    | some client => r.toggleVoteToSkip client
    | none => r
  else r

/-- A vote to skip changes the votes and nothing else, and only when voting is on. -/
theorem voteToSkip_cases (context : RoomRequestContext) (r : Room) :
    (r.enableVoteSkip = false ∧ r.voteToSkip context = r) ∨
    (r.enableVoteSkip = true ∧ ∃ votes dirty,
      r.voteToSkip context = { r with votesToSkip := votes, dirty := dirty }) := by
  unfold voteToSkip
  by_cases hv : r.enableVoteSkip = true
  · rw [if_pos hv]
    refine .inr ⟨hv, ?_⟩
    cases truthy context.clientId with
    | none => exact ⟨r.votesToSkip, r.dirty, rfl⟩
    | some client => exact ⟨_, _, rfl⟩
  · rw [if_neg hv]
    exact .inl ⟨by simpa using hv, rfl⟩

/-- The infos that `skip` counts voters in: one for each user, looked up by id. -/
def voters (r : Room) : List RoomUserInfo :=
  r.realusers.filterMap (fun u => (r.getUserInfo u.id).toOption)

/-- The votes suffice. -/
def skipVoted (r : Room) : Bool :=
  r.votesToSkip.size ≥ voteSkipThreshold (countEligibleVoters r.voters r.grants)

def skip (env : Env) (context : RoomRequestContext) : RoomM Unit := do
  let r ← Handler.get
  match r.currentSource with
  | none => pure ()
  | some current => do
    Handler.modify (voteToSkip context)
    let r ← Handler.get
    Handler.when (r.enableVoteSkip = true → r.skipVoted = true) (do
      let prevPosition := r.realPlaybackPosition env.now
      Handler.unawaited (dequeueNext env)
      publishRoomEvent .skip context
        { RoomEventContext.none with video := some current.item, prevPosition := some prevPosition }
      Handler.modify (fun r => r.setVideoSegments []))

def seekRaw (env : Env) (value : ℚ) : RoomM Unit := do
  countSecondsWatched env
  Handler.modify (fun r => (r.setPlaybackPosition value).setPlaybackStart (some env.now))

def seek (env : Env) (value : Option ℚ) (context : RoomRequestContext) : RoomM Unit :=
  match value with
  | none => pure ()
  | some position => do
    let r ← Handler.get
    seekRaw env position
    publishRoomEvent (.seek value) context
      { RoomEventContext.none with prevPosition := some (r.realPlaybackPosition env.now) }
    Handler.modify (fun r =>
      { r with dontSkipSegmentsUntil := (r.getSegmentForTime r.playbackPosition).map (·.endTime) })

def setPlaybackSpeedTo (env : Env) (speed : ℚ) : RoomM Unit := do
  flushPlaybackPosition env
  Handler.modify (fun r => r.setPlaybackSpeed speed)

/-! ## Queue requests -/

/-- `url.split(".").pop() === "vtt"`. -/
def hasVttExtension (url : String) : Bool := (url.toList.splitOn '.').getLast? = some "vtt".toList

/-- `url.endsWith(".vtt")`. -/
def endsWithVtt (url : String) : Bool := ".vtt".toList.isSuffixOf url.toList

/-- Set the subtitles that a request asks for, if it does. -/
def withSubtitles (subtitleUrl : Option String) (video : QueueItem) : Except RoomError QueueItem :=
  match truthy subtitleUrl with
  | none => .ok video
  | some url =>
    if hasVttExtension url then .ok { video with subtitleUrl := some url }
    else .error .unsupportedSubtitleType

/-- `request.video` after a url was resolved: what it names is all there is. -/
def resolvedVideo (env : Env) (video : Option VideoAdd) (url : Option String) :
    Except RoomError (Option VideoAdd) :=
  match truthy url with
  | some url => (env.resolveURL url).map (fun id =>
      some { id with startAt := none, endAt := none, subtitleUrl := none })
  | none => .ok video

/-- Drop the videos that are queued already; a lookup that found nothing is an error. -/
def notQueued (r : Room) : List (Option QueueEntry) → Except RoomError (List QueueEntry)
  | [] => .ok []
  | none :: _ => .error .videoUndefined
  | some video :: videos =>
    (r.notQueued videos).map
      (fun rest => if r.isVideoInQueue video.item.toVideoId then rest else video :: rest)

/-- Adding one video. -/
def addVideo (env : Env) (request : RoomRequest) (video : VideoAdd) (context : RoomRequestContext) :
    RoomM Unit := do
  let r ← Handler.get
  if r.isVideoInQueue video.toVideoId then Handler.throw .videoAlreadyQueued
  else do
    match ← Handler.liftExcept (env.getVideoInfo video.toVideoId) with
    | none => Handler.throw .videoUndefined
    | some found => do
      let item ← Handler.liftExcept (withSubtitles video.subtitleUrl found)
      Handler.unawaited (onQueue (·.enqueue [⟨env.fresh, item⟩]))
      Handler.modify (fun r => r.setPrevQueue none)
      publishRoomEvent request context { RoomEventContext.none with video := some item }

/-- Adding a list of videos. -/
def addVideos (env : Env) (request : RoomRequest) (videos : List VideoAdd)
    (context : RoomRequestContext) : RoomM Unit := do
  let found ← Handler.liftExcept (env.getManyVideoInfo videos)
  let r ← Handler.get
  let added ← Handler.liftExcept (r.notQueued found)
  if added = [] then Handler.throw .videoAlreadyQueued
  else do
    Handler.unawaited (onQueue (·.enqueue added))
    publishRoomEvent request context
      { RoomEventContext.none with videos := some (added.map (·.item)) }

def addToQueue (env : Env) (video : Option VideoAdd) (videos : Option (List VideoAdd))
    (url : Option String) (context : RoomRequestContext) : RoomM Unit := do
  match ← Handler.liftExcept (resolvedVideo env video url) with
  | some found => addVideo env (.add (some found) videos url) found context
  | none =>
    match videos with
    | some list => addVideos env (.add none videos url) list context
    | none => pure ()

def updateQueueItem (video : VideoId) (update : QueueItemExtras) (context : RoomRequestContext) :
    RoomM Unit :=
  if update.subtitleUrl.any (fun url => endsWithVtt url = false) then
    Handler.throw .unsupportedSubtitleType
  else do
    let object ← onQueue (·.update video update)
    -- the same object may be playing
    Handler.modify (fun r => r.mutateCurrent object (assignExtras update))
    publishRoomEvent (.updateQueueItem video update) context .none

def removeFromQueue (video : VideoId) (context : RoomRequestContext) : RoomM Unit := do
  let r ← Handler.get
  if r.queue.contains video = false then Handler.throw .videoNotFound
  else do
    let removed ← onQueue (·.evict video)
    publishRoomEvent (.remove video) context
      { RoomEventContext.none with
        video := some removed.2.item, queueIdx := some (removed.1 : ℚ) }

def reorderQueue (fromIdx toIdx : ℚ) : RoomM Unit := onQueue (·.move fromIdx toIdx)

def shuffle (env : Env) (context : RoomRequestContext) : RoomM Unit := do
  checkGrant context.role "manage-queue.order"
  onQueue (fun q => q.shuffle (env.shuffle q))

/-- Take a video that is queued out of the queue, or look it up. -/
def fetchToPlay (env : Env) (video : VideoAdd) (alreadyInQueue : Bool) :
    RoomM (Option QueueEntry) :=
  if alreadyInQueue then (fun removed => some removed.2) <$> onQueue (·.evict video.toVideoId)
  else (fun found => found.map (fun item => ⟨env.fresh, item⟩)) <$>
    Handler.liftExcept (env.getVideoInfo video.toVideoId)

/-- Set the subtitles of the video to play, in the object itself. -/
def subtitleToPlay (subtitleUrl : Option String) (video : Option QueueEntry) :
    RoomM (Option QueueEntry) :=
  match truthy subtitleUrl with
  | none => pure video
  | some url =>
    if hasVttExtension url = false then Handler.throw .unsupportedSubtitleType
    else match video with
      | none => Handler.throw .undefinedProperty
      | some video => do
        let subtitle (item : QueueItem) : QueueItem := { item with subtitleUrl := some url }
        Handler.modify (fun r => r.mutate video.object subtitle)
        pure (some (video.mutate video.object subtitle))

/-- The current source goes back to the top of the queue, to be continued where it was. -/
def requeueCurrent (env : Env) : RoomM Unit := do
  let r ← Handler.get
  match r.currentSource with
  | none => pure ()
  | some current => do
    let stopped (item : QueueItem) : QueueItem :=
      { item with startAt := some (r.realPlaybackPosition env.now) }
    Handler.modify (fun r => r.mutate current.object stopped)
    onQueue (·.pushTop [current.mutate current.object stopped])

/-- Requeueing does not throw. -/
theorem requeueCurrent_returns (env : Env) (r : Room) :
    ∃ r', (requeueCurrent env).run r = ⟨r', [], .ok ()⟩ := by
  refine ⟨((requeueCurrent env).run r).state, ?_⟩
  cases hc : r.currentSource with
  | none => simp [requeueCurrent, hc]
  | some current => simp [requeueCurrent, hc, onQueue, VideoQueue.pushTop]

/-- The video to play becomes the current source, and plays from its start. -/
def putInPlace (env : Env) (videoToPlay : Option QueueEntry) (r : Room) : Room :=
  let r := (r.setCurrentSource videoToPlay).markDirty .queue
  let r := ((r.setPlaybackPosition 0).setPlaybackStart (some env.now)).setVideoSegments []
  if r.autoSkipSegmentCategories.length > 0 then { r with wantSponsorBlock := true } else r

def playNow (env : Env) (video : VideoAdd) (context : RoomRequestContext) : RoomM Unit := do
  let r ← Handler.get
  if r.currentSource.any (fun e => e.is video.toVideoId) then pure ()
  else do
    let alreadyInQueue := r.isVideoInQueue video.toVideoId
    checkGrant context.role (if alreadyInQueue then "manage-queue.order" else "manage-queue.add")
    let found ← fetchToPlay env video alreadyInQueue
    let videoToPlay ← subtitleToPlay video.subtitleUrl found
    requeueCurrent env
    Handler.modify (putInPlace env videoToPlay)

/-- The entries of a stored queue that is brought back. -/
def restoredEntries (env : Env) (items : List QueueItem) : List QueueEntry :=
  items.mapIdx (fun i item => ⟨env.fresh + i, item⟩)

def restoreQueue (env : Env) (discard : Bool) : RoomM Unit := do
  let r ← Handler.get
  match r.prevQueue with
  | none => Handler.throw .noPreviousQueue
  | some items =>
    if discard then Handler.modify (fun r => r.setPrevQueue none)
    else do
      onQueue (·.enqueue (restoredEntries env items))
      Handler.modify (fun r => r.setPrevQueue none)

/-- Add or take back a client's vote for a video. -/
def castVote (r : Room) (video : VideoId) (add : Bool) (client : ClientId) : Room :=
  match r.votes.get? (voteKey video) with
  | some votes =>
    { r with
      votes := r.votes.set (voteKey video)
        (if add then votes.add client else votes.delete client) }
  | none =>
    if add then { r with votes := r.votes.set (voteKey video) (OrderedSet.add ∅ client) } else r

def vote (video : VideoId) (add : Bool) (context : RoomRequestContext) : RoomM Unit :=
  match truthy context.clientId with
  | none => Handler.throw .voteWithoutClient
  | some client => Handler.modify (fun r => (r.castVote video add client).markDirty .voteCounts)

/-! ## User requests -/

def joinRoom (env : Env) (info : ClientInfo) (context : RoomRequestContext) : RoomM Unit :=
  match truthy (context.auth.map (·.token)) with
  | none => Handler.throw .noAuthToken
  | some token => do
    let updated := (RoomUser.new info.id token).updateInfo env info
    Handler.liftExcept updated.2
    Handler.modify (fun r => { r with realusers := r.realusers ++ [updated.1] })
    publishRoomEvent (.join info) context .none
    let r ← Handler.get
    Handler.emit (.syncPosition (r.realPlaybackPosition env.now))
    syncUser info.id

/-- A client that leaves takes its votes for videos along, in vote mode. -/
def dropVotes (r : Room) (client : ClientId) : Room :=
  if r.queueMode = .vote then
    let voted := r.votes.entries.any (fun e => e.2.has client)
    let r := { r with votes := r.votes.mapValues (fun _ set => set.delete client) }
    if voted then r.markDirty .voteCounts else r
  else r

/-- Remove the first user with the id. -/
def removeUser (r : Room) (client : ClientId) : Room :=
  { r with realusers := r.realusers.eraseP (fun u => u.id = client) }

def leaveRoom (context : RoomRequestContext) : RoomM Unit :=
  match context.clientId with
  | none => Handler.throw .clientIdUndefined
  | some client => do
    let r ← Handler.get
    let removed ← Handler.liftExcept (r.getUserInfo client)
    publishRoomEvent .leave context { RoomEventContext.none with user := some removed }
    Handler.modify (fun r =>
      let r := if r.enableVoteSkip then r.setVotesToSkip (r.votesToSkip.delete client) else r
      (r.dropVotes client).removeUser client)

/-- Replace the first user that has the id. -/
def replaceFirst (id : ClientId) (u' : RoomUser) : List RoomUser → List RoomUser
  | [] => []
  | u :: us => if u.id = id then u' :: us else u :: replaceFirst id u' us

/-- The first user with the id is updated from the request. -/
def updateUser (env : Env) (info : ClientInfo) : RoomM Unit := do
  let r ← Handler.get
  match r.getUser info.id with
  | none => pure ()
  | some u => do
    let updated := u.updateInfo env info
    Handler.modify (fun r => { r with realusers := replaceFirst info.id updated.1 r.realusers })
    Handler.liftExcept updated.2
    syncUser info.id

def chat (text : String) (context : RoomRequestContext) : RoomM Unit :=
  match context.clientId with
  | none => Handler.throw .clientIdUndefined
  | some client => do
    let r ← Handler.get
    let user ← Handler.liftExcept (r.getUserInfo client)
    Handler.emit (.chat user text)

/-- The permission needed to give someone a role. -/
def promotePermission (role : Int) : Option PermissionName :=
  match Role.ofInt? role with
  | some .administrator => some "manage-users.promote-admin"
  | some .moderator => some "manage-users.promote-moderator"
  | some .trustedUser => some "manage-users.promote-trusted-user"
  | _ => none

/-- The permission needed to take a role from someone, where there is one. -/
def demotePermission : Role → Option PermissionName
  | .administrator => some "manage-users.demote-admin"
  | .moderator => some "manage-users.demote-moderator"
  | .trustedUser => some "manage-users.demote-trusted-user"
  | _ => none

/-- The roles that are kept by account. -/
def assignableRoles : List Role := [.administrator, .moderator, .trustedUser]

/-- Take the user out of all role sets, and put it into the one asked for if there is such a set. -/
def assignRole (r : Room) (userId : UserId) (role : Int) : Room :=
  let userRoles := r.userRoles.mapValues
    (fun role set => if role ∈ assignableRoles then set.delete userId else set)
  { r with userRoles :=
      if role ≥ Role.trustedUser.toInt then
        match Role.ofInt? role with
        | some role => userRoles.adjust role (fun set => set.add userId)
        | none => userRoles
      else userRoles }

/-- The target's account, if it has one, gets the role. -/
def promoted (target : RoomUser) (role : Int) (r : Room) : Room :=
  match target.userId with
  | some userId => r.assignRole userId role
  | none => r

def promoteUser (targetClientId : ClientId) (role : Int) (context : RoomRequestContext) :
    RoomM Unit := do
  let r ← Handler.get
  match r.getUser targetClientId with
  | none => Handler.throw .promotedClientNotFound
  | some target => do
    checkGrants context.role (promotePermission role).toList
    let targetCurrentRole := r.getRole target
    Handler.when (role < targetCurrentRole.toInt) (match demotePermission targetCurrentRole with
      | none => Handler.throw .impossiblePromotion
      | some permission => checkGrant context.role permission)
    Handler.when (targetCurrentRole = .unregisteredUser) (Handler.throw .impossiblePromotion)
    Handler.modify (promoted target role)
    syncUser target.id

/-- `canKickUser`. -/
def canKickUser (yourRole targetRole : Role) : Bool :=
  yourRole = .owner || (yourRole.toInt > targetRole.toInt && targetRole ≠ .owner)

def kickUser (clientId : ClientId) (context : RoomRequestContext) : RoomM Unit := do
  let r ← Handler.get
  match r.getUser clientId with
  | none => Handler.throw (.clientNotFoundInRoom r.name)
  | some user =>
    Handler.when (canKickUser context.role (r.getRole user) = true) (Handler.emit (.kick clientId))

/-! ## Settings -/

/-- `propsToPerms`. -/
def settingPermission : RoomSetting → PermissionName
  | .title _ => "configure-room.set-title"
  | .description _ => "configure-room.set-description"
  | .visibility _ => "configure-room.set-visibility"
  | .queueMode _ => "configure-room.set-queue-mode"
  | .autoSkipSegmentCategories _ => "configure-room.other"
  | .restoreQueueBehavior _ => "configure-room.other"
  | .enableVoteSkip _ => "configure-room.other"

/-- `roleToPerms`. -/
def rolePermission : Role → Option PermissionName
  | .unregisteredUser => some "configure-room.set-permissions.for-all-unregistered-users"
  | .registeredUser => some "configure-room.set-permissions.for-all-registered-users"
  | .trustedUser => some "configure-room.set-permissions.for-trusted-users"
  | .moderator => some "configure-room.set-permissions.for-moderator"
  | .administrator | .owner => none

/-- `this[prop] === request.settings[prop]`. Two lists are never the same object. -/
def holdsSetting (r : Room) : RoomSetting → Bool
  | .title v => r.title = v
  | .description v => r.description = v
  | .visibility v => r.visibility = v
  | .queueMode v => r.queueMode = v
  | .autoSkipSegmentCategories _ => false
  | .restoreQueueBehavior v => r.restoreQueueBehavior = v
  | .enableVoteSkip v => r.enableVoteSkip = v

/-- Whether two lists have the same elements. -/
def sameCategories (a b : List Category) : Bool :=
  a.all (fun c => b.contains c) && b.all (fun c => a.contains c)

/-- A list of categories that differs from the room's is put into the standard order. -/
def normalizeSetting (r : Room) : RoomSetting → RoomSetting
  | .autoSkipSegmentCategories v =>
    if sameCategories v r.autoSkipSegmentCategories then .autoSkipSegmentCategories v
    else .autoSkipSegmentCategories (allSkipCategories.filter (fun c => v.contains c))
  | setting => setting

/-- The setting is a list of categories that differs from the room's. -/
def changesCategories (r : Room) : RoomSetting → Bool
  | .autoSkipSegmentCategories v => ¬ sameCategories v r.autoSkipSegmentCategories
  | _ => false

/-- `this[prop] = request.settings[prop]`. -/
def applySetting (r : Room) : RoomSetting → Room
  | .title v => r.setTitle v
  | .description v => r.setDescription v
  | .visibility v => r.setVisibility v
  | .queueMode v => r.setQueueMode v
  | .autoSkipSegmentCategories v => r.setAutoSkipSegmentCategories v
  | .restoreQueueBehavior v => r.setRestoreQueueBehavior v
  | .enableVoteSkip v => r.setEnableVoteSkip v

/-- The masks of a request that it means to change, and may. -/
def changedMasks (r : Room) : Option GrantsPayload → Except RoomError (List (Role × GrantMask))
  | none => .ok []
  | some .plain => .error .notAFunction
  | some (.grants g) => .ok (g.masks.entries.filter (fun e =>
      (rolePermission e.1).isSome && r.grants.getMask e.1 ≠ some e.2))

/-- Set one role's mask. -/
def applyMask (r : Room) (entry : Role × GrantMask) : Room :=
  { r with grants := r.grants.setRoleGrants entry.1 entry.2 }.markDirty .grants

def applySettings (settings : RoomSettingsPatch) (context : RoomRequestContext) : RoomM Unit := do
  let r ← Handler.get
  let props := settings.props.filter (fun prop => r.holdsSetting prop = false)
  let masks ← Handler.liftExcept (r.changedMasks settings.grants)
  checkGrants context.role (props.map settingPermission)
  checkGrants context.role (masks.filterMap (fun e => rolePermission e.1))
  let changed := props.any r.changesCategories
  Handler.modify (fun r => (props.map r.normalizeSetting).foldl applySetting r)
  Handler.modify (fun r => masks.foldl applyMask r)
  -- grab segments if skipping was enabled while a video is playing
  Handler.modify (fun r =>
    if changed = true ∧ r.autoSkipSegmentCategories.length > 0 ∧ r.videoSegments.length = 0 ∧
      r.currentSource.isSome then { r with wantSponsorBlock := true } else r)

/-! ## Frames of what the handlers are made of -/

section StepFrames

variable {R : Room → Room → Prop} [IsPreorder Room R]

theorem clearVotes_keeps (hvotes : ∀ r value, R r (setVotesToSkip r value)) (r : Room) :
    R r r.clearVotes := by
  unfold clearVotes
  split
  · exact hvotes r ∅
  · exact refl_of R r

/-- A vote to skip is set as all of them are. -/
theorem voteToSkip_keeps (hvotes : ∀ r value, R r (setVotesToSkip r value))
    (context : RoomRequestContext) (r : Room) : R r (r.voteToSkip context) := by
  unfold voteToSkip
  split
  · cases truthy context.clientId with
    | none => exact refl_of R r
    | some client => exact hvotes r _
  · exact refl_of R r

/-- A promotion assigns one role. -/
theorem promoted_keeps (hroles : ∀ r userId role, R r (assignRole r userId role))
    (target : RoomUser) (role : Int) (r : Room) : R r (promoted target role r) := by
  unfold promoted
  cases target.userId with
  | none => exact refl_of R r
  | some userId => exact hroles r userId role

/-- A vote is about one video. -/
theorem castVote_keeps (hvotes : ∀ (r : Room) votes, R r { r with votes := votes }) (r : Room)
    (video : VideoId) (add : Bool) (client : ClientId) : R r (r.castVote video add client) := by
  unfold castVote
  cases r.votes.get? (voteKey video) with
  | some votes => exact hvotes r _
  | none =>
    dsimp only
    split
    · exact hvotes r _
    · exact refl_of R r

/-- Who leaves has no votes any more. -/
theorem dropVotes_keeps (hvotes : ∀ (r : Room) votes, R r { r with votes := votes })
    (hmark : ∀ r, R r (markDirty r .voteCounts)) (r : Room) (client : ClientId) :
    R r (r.dropVotes client) := by
  unfold dropVotes
  dsimp only
  split
  · split
    · exact trans_of R (hvotes r _) (hmark _)
    · exact hvotes r _
  · exact refl_of R r

end StepFrames

/-! ## Frames of the handlers that never touch playback or the queue -/

section Frames

variable {R : Room → Room → Prop} [IsPreorder Room R]

/-- A join adds one user, or fails. -/
theorem joinRoom_keeps (hR : ∀ r u, R r { r with realusers := r.realusers ++ [u] }) (env : Env)
    (info : ClientInfo) (context : RoomRequestContext) : (joinRoom env info context).Keeps R := by
  unfold joinRoom
  split
  · exact .throw _
  · refine .bind (.liftExcept _) (fun _ => .bind (.modify (fun r => hR r _)) (fun _ => ?_))
    refine .bind (publishRoomEvent_keeps _ _ _) (fun _ => .bind .get (fun _ => ?_))
    exact .bind (.emit _) (fun _ => syncUser_keeps _)

/-- A leave drops the votes and then the user. -/
theorem leaveRoom_keeps (hvotes : ∀ r value, R r (r.setVotesToSkip value))
    (hdrop : ∀ r client, R r (r.dropVotes client))
    (hremove : ∀ r client, R r (r.removeUser client)) (context : RoomRequestContext) :
    (leaveRoom context).Keeps R := by
  unfold leaveRoom
  cases context.clientId with
  | none => exact .throw _
  | some client =>
    refine .bind .get (fun _ => .bind (.liftExcept _) (fun _ => ?_))
    refine .bind (publishRoomEvent_keeps _ _ _) (fun _ => .modify (fun r => ?_))
    have hskip : R r (if r.enableVoteSkip then r.setVotesToSkip (r.votesToSkip.delete client)
        else r) := by
      split
      · exact hvotes r _
      · exact refl_of R r
    exact trans_of R hskip (trans_of R (hdrop _ client) (hremove _ client))

/-- An update is of one user. -/
theorem updateUser_keeps (hR : ∀ r us, R r { r with realusers := us }) (env : Env)
    (info : ClientInfo) : (updateUser env info).Keeps R := by
  refine .bind .get (fun r => ?_)
  cases r.getUser info.id with
  | none => exact .pure ()
  | some u =>
    refine .bind (.modify (fun r => hR r _)) (fun _ => .bind (.liftExcept _) (fun _ => ?_))
    exact syncUser_keeps _

theorem promoteUser_keeps (hR : ∀ target role r, R r (promoted target role r))
    (targetClientId : ClientId) (role : Int) (context : RoomRequestContext) :
    (promoteUser targetClientId role context).Keeps R := by
  refine .bind .get (fun r => ?_)
  cases r.getUser targetClientId with
  | none => exact .throw _
  | some target =>
    refine .bind (checkGrants_keeps _ _) (fun _ => .bind (.when (fun _ => ?_)) (fun _ => ?_))
    · cases demotePermission (r.getRole target) with
      | none => exact .throw _
      | some permission => exact checkGrant_keeps _ _
    · refine .bind (.when (fun _ => .throw _)) (fun _ => .bind (.modify (hR target role)) ?_)
      exact fun _ => syncUser_keeps _

theorem chat_keeps (text : String) (context : RoomRequestContext) : (chat text context).Keeps R := by
  unfold chat
  split
  · exact .throw _
  · exact .bind .get (fun _ => .bind (.liftExcept _) (fun _ => .emit _))

theorem kickUser_keeps (clientId : ClientId) (context : RoomRequestContext) :
    (kickUser clientId context).Keeps R := by
  refine .bind .get (fun r => ?_)
  cases r.getUser clientId with
  | none => exact .throw _
  | some user => exact .when (fun _ => .emit _)

/-- A preorder has a list of steps if it has each. -/
theorem foldl_keeps {α : Type} {f : Room → α → Room} (l : List α)
    (hf : ∀ r, ∀ a ∈ l, R r (f r a)) (r : Room) : R r (l.foldl f r) := by
  induction l generalizing r with
  | nil => exact refl_of R r
  | cons a l ih =>
    exact trans_of R (hf r a List.mem_cons_self)
      (ih (fun r a ha => hf r a (List.mem_cons_of_mem _ ha)) _)

/-- The masks that a request changes are those of the roles below the administrators. -/
theorem rolePermission_of_mem_changedMasks {r : Room} {grants : Option GrantsPayload}
    {masks : List (Role × GrantMask)} (h : r.changedMasks grants = .ok masks)
    {mask : Role × GrantMask} (hmem : mask ∈ masks) : (rolePermission mask.1).isSome := by
  unfold changedMasks at h
  split at h
  · cases h
    cases hmem
  · cases h
  · cases h
    obtain ⟨-, hkept⟩ := List.mem_filter.mp hmem
    rw [Bool.and_eq_true] at hkept
    exact hkept.1

/-- **The settings** are set one by one, and then the masks. -/
theorem applySettings_keeps (hsetting : ∀ r setting, R r (r.applySetting setting))
    (hmask : ∀ r mask, (rolePermission mask.1).isSome → R r (r.applyMask mask))
    (hwant : ∀ r, R r { r with wantSponsorBlock := true }) (settings : RoomSettingsPatch)
    (context : RoomRequestContext) : (applySettings settings context).Keeps R := by
  refine .bind .get (fun r => .liftExcept_bind (fun masks hmasks => ?_))
  refine .bind (checkGrants_keeps _ _) (fun _ => .bind (checkGrants_keeps _ _) (fun _ => ?_))
  refine .bind (.modify (fun _ => foldl_keeps _ (fun r setting _ => hsetting r setting) _))
    (fun _ => ?_)
  refine .bind (.modify (fun _ => foldl_keeps _ (fun r mask hmem =>
    hmask r mask (rolePermission_of_mem_changedMasks hmasks hmem)) _)) (fun _ => .modify (fun r => ?_))
  split
  · exact hwant r
  · exact refl_of R r

end Frames

/-! ## Frames of the handlers that go through the queue -/

section QueueFrames

variable {R : Room → Room → Prop} [IsPreorder Room R]

theorem vote_keeps {video : VideoId} {add : Bool}
    (hcast : ∀ r client, R r ((castVote r video add client).markDirty .voteCounts))
    (context : RoomRequestContext) : (vote video add context).Keeps R := by
  unfold vote
  cases truthy context.clientId with
  | none => exact .throw _
  | some client => exact .modify (fun r => hcast r client)

/-- Subtitles are set in the object. -/
theorem subtitleToPlay_keeps (hmutate : ∀ r object {f : QueueItem → QueueItem},
      (∀ item, (f item).toVideoId = item.toVideoId) → R r (mutate r object f))
    (subtitleUrl : Option String) (found : Option QueueEntry) :
    (subtitleToPlay subtitleUrl found).Keeps R := by
  unfold subtitleToPlay
  cases truthy subtitleUrl with
  | none => exact .pure _
  | some url =>
    dsimp only
    split
    · exact .throw _
    · cases found with
      | none => exact .throw _
      | some found =>
        exact .bind (.modify (fun r => hmutate r found.object (fun _ => rfl))) (fun _ => .pure _)

/-- An update is of the queue, and of what plays if that is the same object. -/
theorem updateQueueItem_keeps
    (hqueue : ∀ r video update, R r (r.withQueue (r.queue.update video update)))
    (hmutate : ∀ r object update, R r (mutateCurrent r object (assignExtras update)))
    (video : VideoId) (update : QueueItemExtras) (context : RoomRequestContext) :
    (updateQueueItem video update context).Keeps R :=
  .ite (fun _ => .throw _) (fun _ => .bind (fun r => hqueue r video update) (fun object =>
    .bind (.modify (fun r => hmutate r object update)) (fun _ => publishRoomEvent_keeps _ _ _)))

variable (hqueue : ∀ {α : Type} (r : Room) {step : QueueStep α}, step.Told r.queue →
  R r (r.withQueue step))
include hqueue

omit [IsPreorder Room R] in
/-- The queue operations of these handlers tell the room what they change. -/
theorem onQueue_keeps {α : Type} {op : VideoQueue → QueueStep α} (h : ∀ q, (op q).Told q) :
    (onQueue op).Keeps R :=
  fun r => hqueue r (h r.queue)

/-- One video, or several: the queue is all that changes, but for `prevQueue`. -/
theorem addToQueue_keeps (hprev : ∀ r, R r (setPrevQueue r none)) (env : Env)
    (video : Option VideoAdd) (videos : Option (List VideoAdd)) (url : Option String)
    (context : RoomRequestContext) : (addToQueue env video videos url context).Keeps R := by
  refine .bind (.liftExcept _) (fun found => ?_)
  cases found with
  | some video =>
    refine .bind .get (fun r => .ite (fun _ => .throw _) (fun _ => .bind (.liftExcept _)
      (fun found => ?_)))
    cases found with
    | none => exact .throw _
    | some found =>
      exact .bind (.liftExcept _) (fun _ => .bind
        (.unawaited (onQueue_keeps hqueue (fun q => q.enqueue_told _))) (fun _ =>
          .bind (.modify hprev) (fun _ => publishRoomEvent_keeps _ _ _)))
  | none =>
    cases videos with
    | none => exact .pure ()
    | some list =>
      exact .bind (.liftExcept _) (fun _ => .bind .get (fun _ => .bind (.liftExcept _) (fun _ =>
        .ite (fun _ => .throw _) (fun _ => .bind
          (.unawaited (onQueue_keeps hqueue (fun q => q.enqueue_told _)))
          (fun _ => publishRoomEvent_keeps _ _ _)))))

theorem removeFromQueue_keeps (video : VideoId) (context : RoomRequestContext) :
    (removeFromQueue video context).Keeps R :=
  .bind .get (fun _ => .ite (fun _ => .throw _) (fun _ => .bind
    (onQueue_keeps hqueue (fun q => q.evict_told video)) (fun _ => publishRoomEvent_keeps _ _ _)))

theorem restoreQueue_keeps (hprev : ∀ r, R r (setPrevQueue r none)) (env : Env) (discard : Bool) :
    (restoreQueue env discard).Keeps R := by
  refine .bind .get (fun r => ?_)
  cases r.prevQueue with
  | none => exact .throw _
  | some items =>
    exact .ite (fun _ => .modify hprev)
      (fun _ => .bind (onQueue_keeps hqueue (fun q => q.enqueue_told _)) (fun _ => .modify hprev))

theorem fetchToPlay_keeps (env : Env) (video : VideoAdd) (alreadyInQueue : Bool) :
    (fetchToPlay env video alreadyInQueue).Keeps R := by
  unfold fetchToPlay
  split
  · exact .bind (onQueue_keeps hqueue (fun q => q.evict_told _)) (fun _ => .pure _)
  · exact .bind (.liftExcept _) (fun _ => .pure _)

theorem requeueCurrent_keeps (hmutate : ∀ r object {f : QueueItem → QueueItem},
      (∀ item, (f item).toVideoId = item.toVideoId) → R r (mutate r object f)) (env : Env) :
    (requeueCurrent env).Keeps R := by
  refine .bind .get (fun r => ?_)
  cases r.currentSource with
  | none => exact .pure ()
  | some current =>
    exact .bind (.modify (fun r => hmutate r current.object (fun _ => rfl)))
      (fun _ => onQueue_keeps hqueue (fun q => q.pushTop_told _))

/-- A video that is to play now comes off the queue, and what played goes back to it. -/
theorem playNow_keeps (hmutate : ∀ r object {f : QueueItem → QueueItem},
      (∀ item, (f item).toVideoId = item.toVideoId) → R r (mutate r object f)) {env : Env}
    (hplace : ∀ video r, R r (putInPlace env video r)) (video : VideoAdd)
    (context : RoomRequestContext) : (playNow env video context).Keeps R := by
  refine .bind .get (fun r => ?_)
  dsimp only
  split
  · exact .pure ()
  refine .bind (checkGrant_keeps _ _) (fun _ => .bind (fetchToPlay_keeps hqueue env video _)
    (fun found => .bind (subtitleToPlay_keeps hmutate _ found) (fun videoToPlay => ?_)))
  exact .bind (requeueCurrent_keeps hqueue hmutate env) (fun _ => .modify (hplace videoToPlay))

end QueueFrames

/-! ### What playback and the queue leave alone -/

/-- The part of a room that is there whatever plays: who it belongs to, how it is set up, and who is
in it. -/
structure Standing where
  name : String
  title : String
  description : String
  isTemporary : Bool
  visibility : Visibility
  queueMode : QueueMode
  owner : Option User
  grants : Grants
  userRoles : OrderedMap Role (OrderedSet UserId)
  autoSkipSegmentCategories : List Category
  restoreQueueBehavior : BehaviorOption
  enableVoteSkip : Bool
  realusers : List RoomUser

def standing (r : Room) : Standing where
  name := r.name
  title := r.title
  description := r.description
  isTemporary := r.isTemporary
  visibility := r.visibility
  queueMode := r.queueMode
  owner := r.owner
  grants := r.grants
  userRoles := r.userRoles
  autoSkipSegmentCategories := r.autoSkipSegmentCategories
  restoreQueueBehavior := r.restoreQueueBehavior
  enableVoteSkip := r.enableVoteSkip
  realusers := r.realusers

section SegmentFrames

variable {R : Room → Room → Prop} [IsPreorder Room R]
  (hsegments : ∀ r segments, R r (setVideoSegments r segments))
include hsegments

theorem dropVideoSegments_keeps (r : Room) : R r r.dropVideoSegments := by
  unfold dropVideoSegments
  split
  · exact hsegments r []
  · exact refl_of R r

theorem afterAdvance_keeps (hwant : ∀ r, R r { r with wantSponsorBlock := true })
    (hspeed : ∀ r, R r (setPlaybackSpeed r 1)) (env : Env) (r : Room) :
    R r (afterAdvance env r) := by
  have hwanted : ∀ (p : Prop) [Decidable p],
      R r (if p then { r with wantSponsorBlock := true } else r) := by
    intro p _
    split
    · exact hwant r
    · exact refl_of R r
  have hdropped : ∀ (p : Prop) [Decidable p] (r : Room),
      R r (if p then r.dropVideoSegments else r) := by
    intro p _ r
    split
    · exact dropVideoSegments_keeps hsegments r
    · exact refl_of R r
  unfold afterAdvance
  exact trans_of R (hwanted _) (trans_of R (hdropped _ _) (hspeed _))

end SegmentFrames

/-- A relation for which it does not matter how what plays is played. -/
def IgnoresHead (R : Room → Room → Prop) : Prop :=
  ∀ (r : Room) prevQueue isPlaying playbackPosition playbackSpeed videoSegments dirty playbackStart
    keepAlivePing wantSponsorBlock dontSkipSegmentsUntil,
    R r { r with
      prevQueue := prevQueue, isPlaying := isPlaying, playbackPosition := playbackPosition
      playbackSpeed := playbackSpeed, videoSegments := videoSegments, dirty := dirty
      playbackStart := playbackStart, keepAlivePing := keepAlivePing
      wantSponsorBlock := wantSponsorBlock, dontSkipSegmentsUntil := dontSkipSegmentsUntil }

namespace IgnoresHead

variable {R : Room → Room → Prop} [IsPreorder Room R] (h : IgnoresHead R)
include h

theorem setPrevQueue (r : Room) (value : Option (List QueueItem)) : R r (r.setPrevQueue value) := by
  unfold Room.setPrevQueue
  split
  · exact refl_of R r
  · exact h r _ _ _ _ _ _ _ _ _ _

theorem dropVideoSegments (r : Room) : R r r.dropVideoSegments :=
  dropVideoSegments_keeps (fun r _ => h r _ _ _ _ _ _ _ _ _ _) r

theorem flushPlaybackPosition (env : Env) : (Room.flushPlaybackPosition env).Keeps R :=
  .bind (countSecondsWatched_keeps env) (fun _ => .modify (fun r => h r _ _ _ _ _ _ _ _ _ _))

theorem want (r : Room) (p : Prop) [Decidable p] :
    R r (if p then { r with wantSponsorBlock := true } else r) := by
  split
  · exact h r _ _ _ _ _ _ _ _ _ _
  · exact refl_of R r

theorem afterAdvance (env : Env) (r : Room) : R r (afterAdvance env r) :=
  afterAdvance_keeps (fun r _ => h r _ _ _ _ _ _ _ _ _ _) (fun r => h r _ _ _ _ _ _ _ _ _ _)
    (fun r => h r _ _ _ _ _ _ _ _ _ _) env r

theorem playback (env : Env) (state : Bool) (context : RoomRequestContext) :
    (Room.playback env state context).Keeps R := by
  cases state with
  | true =>
    refine .bind (.bind .get (fun _ => .when (fun _ => .modify (fun r => ?_))))
      (fun _ => publishRoomEvent_keeps _ _ _)
    exact h r _ _ _ _ _ _ _ _ _ _
  | false =>
    refine .bind (.bind .get (fun _ => .when (fun _ => .bind (h.flushPlaybackPosition env)
      (fun _ => .modify (fun r => ?_))))) (fun _ => publishRoomEvent_keeps _ _ _)
    exact h r _ _ _ _ _ _ _ _ _ _

theorem seekRaw (env : Env) (value : ℚ) : (Room.seekRaw env value).Keeps R :=
  .bind (countSecondsWatched_keeps env) (fun _ => .modify (fun r => h r _ _ _ _ _ _ _ _ _ _))

theorem seek (env : Env) (value : Option ℚ) (context : RoomRequestContext) :
    (Room.seek env value context).Keeps R := by
  cases value with
  | none => exact .pure ()
  | some position =>
    refine .bind .get (fun _ => .bind (h.seekRaw env position) (fun _ =>
      .bind (publishRoomEvent_keeps _ _ _) (fun _ => .modify (fun r => ?_))))
    exact h r _ _ _ _ _ _ _ _ _ _

theorem setPlaybackSpeedTo (env : Env) (speed : ℚ) : (Room.setPlaybackSpeedTo env speed).Keeps R :=
  .bind (h.flushPlaybackPosition env) (fun _ => .modify (fun r => h r _ _ _ _ _ _ _ _ _ _))

/-- Skipping goes on to the next video. -/
theorem skip {env : Env} (hnext : (dequeueNext env).Keeps R) {context : RoomRequestContext}
    (hvote : ∀ r, R r (voteToSkip context r)) : (Room.skip env context).Keeps R := by
  refine .bind .get (fun r => ?_)
  cases r.currentSource with
  | none => exact .pure ()
  | some current =>
    refine .bind (.modify hvote) (fun _ => .bind .get (fun _ => .when (fun _ => ?_)))
    refine .bind (.unawaited hnext) (fun _ =>
      .bind (publishRoomEvent_keeps _ _ _) (fun _ => .modify (fun r => ?_)))
    exact h r _ _ _ _ _ _ _ _ _ _

end IgnoresHead

/-- A relation for which it does not matter what plays, how it plays, and what is queued. -/
def IgnoresPlayback (R : Room → Room → Prop) : Prop :=
  ∀ (r : Room) currentSource queue prevQueue isPlaying playbackPosition playbackSpeed videoSegments
    dirty playbackStart keepAlivePing wantSponsorBlock dontSkipSegmentsUntil,
    R r { r with
      currentSource := currentSource, queue := queue, prevQueue := prevQueue
      isPlaying := isPlaying, playbackPosition := playbackPosition, playbackSpeed := playbackSpeed
      videoSegments := videoSegments, dirty := dirty, playbackStart := playbackStart
      keepAlivePing := keepAlivePing, wantSponsorBlock := wantSponsorBlock
      dontSkipSegmentsUntil := dontSkipSegmentsUntil }

theorem standing_ignoresPlayback : IgnoresPlayback (Handler.SameOn standing) := by
  intro r _ _ _ _ _ _ _ _ _ _ _ _
  rfl

namespace IgnoresPlayback

variable {R : Room → Room → Prop} (h : IgnoresPlayback R)
include h

theorem ignoresHead : IgnoresHead R := fun r => h r r.currentSource r.queue

theorem withQueue {α : Type} (r : Room) (step : QueueStep α) : R r (r.withQueue step) := by
  unfold Room.withQueue
  split
  · exact h r _ _ _ _ _ _ _ _ _ _ _ _
  · exact h r _ _ _ _ _ _ _ _ _ _ _ _

theorem onQueue {α : Type} (op : VideoQueue → QueueStep α) : (Room.onQueue op).Keeps R :=
  fun r => h.withQueue r _

theorem mutateCurrent (r : Room) (object : ObjectId) (f : QueueItem → QueueItem) :
    R r (r.mutateCurrent object f) := h r _ _ _ _ _ _ _ _ _ _ _ _

theorem mutate (r : Room) (object : ObjectId) (f : QueueItem → QueueItem) :
    R r (r.mutate object f) := h r _ _ _ _ _ _ _ _ _ _ _ _

theorem startSource (r : Room) (now : Time) (source : Option QueueEntry) (position : ℚ) :
    R r (r.startSource now source position) := h r _ _ _ _ _ _ _ _ _ _ _ _

variable [IsPreorder Room R]

theorem advance (now : Time) (r : Room) : R r (r.advance now) := by
  unfold Room.advance
  cases r.queue with
  | nil =>
    have hstop : ∀ r : Room, R r (((r.setPlaybackPosition 0).setPlaybackStart
        (some now)).setCurrentSource none) := fun r => h r _ _ _ _ _ _ _ _ _ _ _ _
    have hpause : R r (if r.isPlaying then r.setIsPlaying false else r) := by
      split
      · exact h r _ _ _ _ _ _ _ _ _ _ _ _
      · exact refl_of R r
    dsimp only
    split
    · exact trans_of R hpause (hstop _)
    · exact refl_of R r
  | cons head tail =>
    exact trans_of R (h.withQueue r _)
      (trans_of R (h.startSource _ now _ _) (h.ignoresHead.dropVideoSegments _))

theorem putInPlace (env : Env) (videoToPlay : Option QueueEntry) (r : Room) :
    R r (putInPlace env videoToPlay r) := by
  have hsource : R r ((r.setCurrentSource videoToPlay).markDirty .queue) :=
    h r _ _ _ _ _ _ _ _ _ _ _ _
  have hstart : ∀ r : Room, R r (((r.setPlaybackPosition 0).setPlaybackStart
      (some env.now)).setVideoSegments []) := fun r => h r _ _ _ _ _ _ _ _ _ _ _ _
  exact trans_of R hsource (trans_of R (hstart _) (h.ignoresHead.want _ _))

/-! #### Handlers -/

/-- Playing the next video clears the votes to skip, and leaves the rest alone. -/
theorem dequeueNext (hclear : ∀ r : Room, R r r.clearVotes) (env : Env) :
    (Room.dequeueNext env).Keeps R := by
  have hadvance : ∀ r : Room, R r (Room.afterAdvance env (r.advance env.now)) :=
    fun r => trans_of R (h.advance env.now r) (h.ignoresHead.afterAdvance env _)
  refine .bind (.modify hclear) (fun _ => .bind .get (fun r => ?_))
  cases r.currentSource with
  | none => exact .modify hadvance
  | some current =>
    refine .bind (countSecondsWatched_keeps env) (fun _ => ?_)
    dsimp only
    cases r.queueMode with
    | dj => exact .modify (fun r => h.startSource r env.now _ 0)
    | loop => exact .bind (h.onQueue _) (fun _ => .modify hadvance)
    | manual => exact .modify hadvance
    | vote => exact .modify hadvance

theorem skip (hclear : ∀ r : Room, R r r.clearVotes) {context : RoomRequestContext}
    (hvote : ∀ r, R r (voteToSkip context r)) (env : Env) : (Room.skip env context).Keeps R :=
  h.ignoresHead.skip (h.dequeueNext hclear env) hvote

end IgnoresPlayback

/-- A relation for which it does not matter how a room is set up. -/
def IgnoresSettings (R : Room → Room → Prop) : Prop :=
  ∀ (r : Room) title description visibility queueMode grants autoSkipSegmentCategories
    restoreQueueBehavior enableVoteSkip dirty wantSponsorBlock,
    R r { r with
      title := title, description := description, visibility := visibility, queueMode := queueMode
      grants := grants, autoSkipSegmentCategories := autoSkipSegmentCategories
      restoreQueueBehavior := restoreQueueBehavior, enableVoteSkip := enableVoteSkip
      dirty := dirty, wantSponsorBlock := wantSponsorBlock }

namespace IgnoresSettings

variable {R : Room → Room → Prop} [IsPreorder Room R] (h : IgnoresSettings R)
include h

theorem applySettings (settings : RoomSettingsPatch) (context : RoomRequestContext) :
    (Room.applySettings settings context).Keeps R := by
  refine applySettings_keeps (fun r setting => ?_) (fun r mask _ => ?_) (fun r => ?_) settings context
  · cases setting <;> exact h r _ _ _ _ _ _ _ _ _ _
  · exact h r _ _ _ _ _ _ _ _ _ _
  · exact h r _ _ _ _ _ _ _ _ _ _

end IgnoresSettings

section Standing

theorem clearVotes_standing (r : Room) : r.clearVotes.standing = r.standing :=
  clearVotes_keeps (R := Handler.SameOn standing) (fun _ _ => rfl) r

theorem voteToSkip_standing (context : RoomRequestContext) (r : Room) :
    (r.voteToSkip context).standing = r.standing :=
  voteToSkip_keeps (R := Handler.SameOn standing) (fun _ _ => rfl) context r

theorem castVote_standing (r : Room) (video : VideoId) (add : Bool) (client : ClientId) :
    ((r.castVote video add client).markDirty .voteCounts).standing = r.standing :=
  castVote_keeps (R := Handler.SameOn standing) (fun _ _ => rfl) r video add client

theorem setPrevQueue_standing (r : Room) (value : Option (List QueueItem)) :
    (r.setPrevQueue value).standing = r.standing := 
    standing_ignoresPlayback.ignoresHead.setPrevQueue r value

theorem withQueue_realusers {α : Type} (r : Room) (step : QueueStep α) :
    (r.withQueue step).realusers = r.realusers :=
  congrArg Standing.realusers (standing_ignoresPlayback.withQueue r step)

theorem setPrevQueue_realusers (r : Room) (value : Option (List QueueItem)) :
    (r.setPrevQueue value).realusers = r.realusers :=
  congrArg Standing.realusers (setPrevQueue_standing r value)

/-- Playing the next video. -/
theorem dequeueNext_standing (env : Env) :
    (dequeueNext env).Keeps (Handler.SameOn Room.standing) :=
  standing_ignoresPlayback.dequeueNext clearVotes_standing env

end Standing

/-! ## Dispatch -/

/-- The table of permissions in `processRequest`. Requests that are not listed need none there. -/
def requestPermission : RoomRequest → Option PermissionName
  | .playback _ => some "playback.play-pause"
  | .skip => some "playback.skip"
  | .seek _ => some "playback.seek"
  | .add _ _ _ => some "manage-queue.add"
  | .updateQueueItem _ _ => some "manage-queue.edit"
  | .remove _ => some "manage-queue.remove"
  | .order _ _ => some "manage-queue.order"
  | .vote _ _ => some "manage-queue.vote"
  | .chat _ => some "chat"
  | .playNow _ => some "manage-queue.play-now"
  | .shuffle => some "manage-queue.order"
  | .playbackSpeed _ => some "playback.speed"
  | .kick _ => some "manage-users.kick"
  | .join _ | .leave | .promote _ _ | .updateUser _ | .undo _ _ | .applySettings _
  | .restoreQueue _ => none

/-- A handler behind its request's permission. -/
def mediated (request : RoomRequest) (context : RoomRequestContext) (handler : RoomM Unit) :
    RoomM Unit := do
  checkGrants context.role (requestPermission request).toList
  handler

/-- The permission is checked against the grants the room has when the request comes. -/
theorem run_checkGrant (role : Role) (permission : PermissionName) (r : Room) :
    (checkGrant role permission).run r =
      if r.grants.granted role permission = true then ⟨r, [], .ok ()⟩
      else ⟨r, [], .error (.permissionDenied permission)⟩ := by
  cases h : r.grants.granted role permission <;> simp [checkGrant, Handler.run_when, h]

/-- All of them are granted, or it throws. -/
theorem run_checkGrants (role : Role) (permissions : List PermissionName) (r : Room) :
    ((∀ p ∈ permissions, r.grants.granted role p = true) ∧
      (checkGrants role permissions).run r = ⟨r, [], .ok ()⟩) ∨
    ((∃ p ∈ permissions, r.grants.granted role p = false) ∧
      ∃ e, (checkGrants role permissions).run r = ⟨r, [], .error e⟩) := by
  induction permissions with
  | nil => exact .inl ⟨by simp, rfl⟩
  | cons p ps ih =>
    simp only [checkGrants, Handler.run_bind, run_checkGrant]
    cases hp : r.grants.granted role p with
    | false => exact .inr ⟨⟨p, by simp, hp⟩, .permissionDenied p, rfl⟩
    | true =>
      obtain ⟨hall, hrun⟩ | ⟨⟨p', hmem, hp'⟩, e, hrun⟩ := ih
      · exact .inl ⟨by simpa [hp] using hall, by simp [hrun]⟩
      · exact .inr ⟨⟨p', by simp [hmem], hp'⟩, e, by simp [hrun]⟩

/-- A request that is not permitted is refused before its handler runs. -/
theorem mediated_denied (request : RoomRequest) {permission : PermissionName}
    (hp : requestPermission request = some permission) {context : RoomRequestContext} {r : Room}
    (h : r.grants.granted context.role permission = false) (handler : RoomM Unit) :
    (mediated request context handler).run r = ⟨r, [], .error (.permissionDenied permission)⟩ := by
  simp [mediated, hp, checkGrants, run_checkGrant, h]

/-- What is permitted runs. -/
theorem mediated_granted (request : RoomRequest) {permission : PermissionName}
    (hp : requestPermission request = some permission) {context : RoomRequestContext} {r : Room}
    (h : r.grants.granted context.role permission = true) (handler : RoomM Unit) :
    (mediated request context handler).run r = handler.run r := by
  simp [mediated, hp, checkGrants, run_checkGrant, h]

theorem mediated_unlisted (request : RoomRequest) (hp : requestPermission request = none)
    {context : RoomRequestContext} (handler : RoomM Unit) (r : Room) :
    (mediated request context handler).run r = handler.run r := by
  simp [mediated, hp, checkGrants]

/-- The permission table lets the request through. -/
def Permitted (r : Room) (request : RoomRequest) (context : RoomRequestContext) : Prop :=
  ∀ permission, requestPermission request = some permission →
    r.grants.granted context.role permission = true

/-- Either the handler runs, or nothing does. -/
theorem mediated_cases (request : RoomRequest) (context : RoomRequestContext) (handler : RoomM Unit)
    (r : Room) :
    (r.Permitted request context ∧ (mediated request context handler).run r = handler.run r) ∨
    (¬ r.Permitted request context ∧ ((mediated request context handler).run r).state = r) := by
  cases hp : requestPermission request with
  | none =>
    refine .inl ⟨fun permission h => ?_, mediated_unlisted request hp handler r⟩
    rw [hp] at h
    cases h
  | some permission =>
    cases hg : r.grants.granted context.role permission with
    | true =>
      refine .inl ⟨fun permission' h => ?_, mediated_granted request hp hg handler⟩
      rw [hp] at h
      cases h
      exact hg
    | false =>
      refine .inr ⟨fun hall => ?_, by rw [mediated_denied request hp hg]⟩
      rw [hall permission hp] at hg
      cases hg

theorem mediated_keeps {R : Room → Room → Prop} [IsPreorder Room R] {request : RoomRequest}
    {context : RoomRequestContext} {handler : RoomM Unit} (h : handler.Keeps R) :
    (mediated request context handler).Keeps R :=
  .bind (checkGrants_keeps _ _) (fun _ => h)

/-- Undoing a skip: the current source goes back onto the queue, and the video that was skipped
continues where it was. -/
def undoSkip (env : Env) (additional : RoomEventContext) (r : Room) : Room :=
  let r := match r.currentSource with
    | some current => r.withQueue (r.queue.pushTop [current])
    | none => r
  match additional.video, truthyNumber additional.prevPosition with
  | some video, some position =>
    (r.setCurrentSource (some ⟨env.fresh, video⟩)).setPlaybackPosition position
  | _, _ => r

/-- What played is pushed, and then the video of the event is put in its place. -/
theorem undoSkip_cases (env : Env) (additional : RoomEventContext) (r : Room) : ∃ pushed,
    (r.currentSource = none ∧ pushed = r ∨ ∃ current, r.currentSource = some current ∧
      pushed = r.withQueue (r.queue.pushTop [current])) ∧
    ((additional.video = none ∨ truthyNumber additional.prevPosition = none) ∧
        undoSkip env additional r = pushed ∨
      ∃ video position, additional.video = some video ∧
        truthyNumber additional.prevPosition = some position ∧
        undoSkip env additional r =
          (pushed.setCurrentSource (some ⟨env.fresh, video⟩)).setPlaybackPosition position) := by
  have hpushed : ∃ pushed, r.currentSource = none ∧ pushed = r ∨
      ∃ current, r.currentSource = some current ∧
        pushed = r.withQueue (r.queue.pushTop [current]) := by
    cases r.currentSource with
    | none => exact ⟨r, .inl ⟨rfl, rfl⟩⟩
    | some current => exact ⟨_, .inr ⟨current, rfl, rfl⟩⟩
  obtain ⟨pushed, hpushed⟩ := hpushed
  refine ⟨pushed, hpushed, ?_⟩
  cases hv : additional.video with
  | none => rcases hpushed with ⟨hc, rfl⟩ | ⟨current, hc, rfl⟩ <;> simp [undoSkip, hc, hv]
  | some video =>
    cases hp : truthyNumber additional.prevPosition <;>
      rcases hpushed with ⟨hc, rfl⟩ | ⟨current, hc, rfl⟩ <;> simp [undoSkip, hc, hv, hp]

/-- Only requests of four types can be undone. Two of them go through `processRequest`; the others
change the room at once. -/
def undo (env : Env) (request : RoomRequest) (additional : RoomEventContext)
    (context : RoomRequestContext) : RoomM Unit :=
  match request with
  | .seek _ =>
    match truthyNumber additional.prevPosition with
    | some position => mediated (.seek (some position)) context (seek env (some position) context)
    | none => pure ()
  | .skip => Handler.modify (undoSkip env additional)
  | .add video _ _ => do
    let r ← Handler.get
    match r.queue, video with
    | _ :: _, some video =>
      mediated (.remove video.toVideoId) context (removeFromQueue video.toVideoId context)
    | _, _ => Handler.modify (fun r => r.setCurrentSource none)
  | .remove _ =>
    match additional.video, additional.queueIdx with
    | some video, some queueIdx =>
      Handler.unawaited (onQueue (·.insert ⟨env.fresh, video⟩ queueIdx))
    | _, _ => pure ()
  | _ => pure ()

/-- The table of handlers in `processRequest`. -/
def handle (env : Env) (request : RoomRequest) (context : RoomRequestContext) : RoomM Unit :=
  match request with
  | .join info => joinRoom env info context
  | .leave => leaveRoom context
  | .playback state => playback env state context
  | .skip => skip env context
  | .seek value => seek env value context
  | .add video videos url => addToQueue env video videos url context
  | .updateQueueItem video update => updateQueueItem video update context
  | .remove video => removeFromQueue video context
  | .order fromIdx toIdx => reorderQueue fromIdx toIdx
  | .vote video add => vote video add context
  | .promote targetClientId role => promoteUser targetClientId role context
  | .updateUser info => updateUser env info
  | .chat text => chat text context
  | .undo request additional => undo env request additional context
  | .applySettings settings => applySettings settings context
  | .playNow video => playNow env video context
  | .shuffle => shuffle env context
  | .playbackSpeed speed => setPlaybackSpeedTo env speed
  | .restoreQueue discard => restoreQueue env discard
  | .kick clientId => kickUser clientId context

def processRequest (env : Env) (request : RoomRequest) (context : RoomRequestContext) :
    RoomM Unit :=
  mediated request context (handle env request context)

/-! ## Authorization -/

def deriveRequestContext (env : Env) (authorization : RoomRequestAuthorization) (r : Room) :
    Except RoomError RoomRequestContext :=
  match (truthy authorization.clientId).bind r.getUser with
  | some user => .ok ⟨user.username, r.getRole user, authorization.clientId, some authorization⟩
  | none => do
    -- the user is not in the room, but may have a valid session
    let session ← env.getSessionInfo authorization.token
    let username ← match session with
      | .loggedIn userId => (env.getUser userId).map (·.username)
      | .loggedOut username => .ok username
    .ok ⟨username, r.getRoleFromSession session, authorization.clientId, some authorization⟩

def processUnauthorizedRequest (env : Env) (request : RoomRequest)
    (authorization : RoomRequestAuthorization) : RoomM Unit := do
  let r ← Handler.get
  let authorization := match truthy authorization.clientId with
    | some _ => authorization
    | none => { authorization with
        clientId := (r.getClientIdFromToken authorization.token).or authorization.clientId }
  let context ← Handler.liftExcept (deriveRequestContext env authorization r)
  processRequest env request context

/-- Trusts the client id, and knows no token. -/
def processRequestUnsafe (env : Env) (request : RoomRequest) (clientId : ClientId) :
    RoomM Unit := do
  let r ← Handler.get
  let info ← Handler.liftExcept (r.getUserInfo clientId)
  processRequest env request ⟨info.name, info.role, some clientId, none⟩

/-! ## Operations of the server -/

def setGrants (grants : Grants) : RoomM Unit :=
  Handler.modify (fun r => { r with grants := Grants.setAllGrants grants.masks }.markDirty .grants)

/-- The current video has come to its end. -/
def sourceEnded (r : Room) (now : Time) : Bool :=
  match r.currentSource with
  | none => false
  | some e => r.isPlaying &&
      r.realPlaybackPosition now > ((e.item.endAt.orElse (fun _ => e.item.length)).getD 0)

/-- Someone is there, and redis has not been told for half the time after which it forgets. -/
def refreshKeepAlive (env : Env) (r : Room) : Room :=
  if r.realusers.length > 0 ∧ (r.keepAlivePing : ℚ) + env.unloadAfter * 500 < env.now then
    { r with keepAlivePing := env.now }
  else r

/-- In vote mode the queue is kept sorted by votes. -/
def sortByVotes (r : Room) : Room :=
  if r.queueMode = .vote then
    r.withQueue (r.queue.orderBy (fun item =>
      ((r.votes.get? (voteKey item.toVideoId)).map (·.size)).getD 0))
  else r

/-- `fetchSponsorBlockSegments`, with the errors that `update` only logs. -/
def fetchSponsorBlockSegments (env : Env) (r : Room) : Room :=
  match r.currentSource with
  | some e =>
    if e.item.service = .youtube then
      match env.fetchSegments e.item.id with
      | .ok segments => r.setVideoSegments segments
      | .error _ => r
    else r.dropVideoSegments
  | none => r.dropVideoSegments

/-- `if (this.dontSkipSegmentsUntil && …) this.dontSkipSegmentsUntil = null`. -/
def endDontSkip (env : Env) (r : Room) : Room :=
  match r.dontSkipSegmentsUntil.filter (· ≠ 0) with
  | some time =>
    if r.realPlaybackPosition env.now ≥ time then { r with dontSkipSegmentsUntil := none } else r
  | none => r

/-- Skip the segment that plays, if it is to be skipped. -/
def autoSkip (env : Env) : RoomM Unit := do
  let r ← Handler.get
  if r.isPlaying = true ∧ r.videoSegments.length > 0 ∧ r.dontSkipSegmentsUntil = none then
    match r.getSegmentForTime (r.realPlaybackPosition env.now) with
    | some segment =>
      Handler.when (segment.category ∈ r.autoSkipSegmentCategories) (do
        seekRaw env segment.endTime
        Handler.emit (.eventCustom ("Skipped " ++ segment.category.name)))
    | none => pure ()
  else pure ()

/-- The periodic update. -/
def update (env : Env) : RoomM Unit := do
  let r ← Handler.get
  Handler.when (r.currentSource = none ∧ r.queue ≠ [] ∨ r.sourceEnded env.now = true)
    (dequeueNext env)
  Handler.modify (fun r => (refreshKeepAlive env r).sortByVotes)
  let r ← Handler.get
  Handler.when (env.sponsorblockEnabled = true ∧ r.autoSkipSegmentCategories.length > 0) (do
    Handler.modify (fun r => if r.wantSponsorBlock then
      fetchSponsorBlockSegments env { r with wantSponsorBlock := false } else r)
    Handler.modify (endDontSkip env)
    autoSkip env)

/-- What an update does after it has gone on to the next video. -/
def updateRest (env : Env) : RoomM Unit := do
  Handler.modify (fun r => (refreshKeepAlive env r).sortByVotes)
  let r ← Handler.get
  Handler.when (env.sponsorblockEnabled = true ∧ r.autoSkipSegmentCategories.length > 0) (do
    Handler.modify (fun r => if r.wantSponsorBlock then
      fetchSponsorBlockSegments env { r with wantSponsorBlock := false } else r)
    Handler.modify (endDontSkip env)
    autoSkip env)

/-- The next video, if it is time for it, and then the rest of the tick. -/
theorem run_update (env : Env) (r : Room) : (update env).run r =
    ((Handler.when (r.currentSource = none ∧ r.queue ≠ [] ∨ r.sourceEnded env.now = true)
      (dequeueNext env)).run r).andThen (fun _ => updateRest env) := rfl

/-! ### They leave the same alone -/

section UpdateFrames

variable {R : Room → Room → Prop} [IsPreorder Room R]

theorem autoSkip_keeps {env : Env} (hseek : ∀ value, (seekRaw env value).Keeps R) :
    (autoSkip env).Keeps R := by
  refine .bind .get (fun r => ?_)
  split
  · cases r.getSegmentForTime (r.realPlaybackPosition env.now) with
    | none => exact .pure ()
    | some segment => exact .when (fun _ => .bind (hseek _) (fun _ => .emit _))
  · exact .pure ()

theorem fetchSponsorBlockSegments_keeps
    (hsegments : ∀ r segments, R r (setVideoSegments r segments)) (env : Env) (r : Room) :
    R r (fetchSponsorBlockSegments env r) := by
  unfold fetchSponsorBlockSegments
  cases r.currentSource with
  | none => exact dropVideoSegments_keeps hsegments r
  | some e =>
    dsimp only
    split
    · cases env.fetchSegments e.item.id with
      | ok segments => exact hsegments r segments
      | error e => exact refl_of R r
    · exact dropVideoSegments_keeps hsegments r

/-- A relation for which it does not matter when a room was last seen, and what is to be done about
segments. -/
def IgnoresChores (R : Room → Room → Prop) : Prop :=
  ∀ (r : Room) keepAlivePing wantSponsorBlock dontSkipSegmentsUntil,
    R r { r with
      keepAlivePing := keepAlivePing, wantSponsorBlock := wantSponsorBlock
      dontSkipSegmentsUntil := dontSkipSegmentsUntil }

variable (hchores : IgnoresChores R)
include hchores

theorem refreshKeepAlive_keeps (env : Env) (r : Room) : R r (refreshKeepAlive env r) := by
  unfold refreshKeepAlive
  split
  · exact hchores r _ _ _
  · exact refl_of R r

theorem endDontSkip_keeps (env : Env) (r : Room) : R r (endDontSkip env r) := by
  unfold endDontSkip
  split
  · split
    · exact hchores r _ _ _
    · exact refl_of R r
  · exact refl_of R r

/-- The rest of the tick sorts the queue, looks for segments and skips them. -/
theorem updateRest_keeps {env : Env} (hsort : ∀ r : Room, R r r.sortByVotes)
    (hsegments : ∀ r segments, R r (setVideoSegments r segments))
    (hseek : ∀ value, (seekRaw env value).Keeps R) : (updateRest env).Keeps R := by
  refine .bind (.modify (fun r => trans_of R (refreshKeepAlive_keeps hchores env r) (hsort _)))
    (fun _ => .bind .get (fun _ => .when (fun _ => ?_)))
  refine .bind (.modify (fun r => ?_)) (fun _ => .bind (.modify (endDontSkip_keeps hchores env))
    (fun _ => autoSkip_keeps hseek))
  have hwanted : R r { r with wantSponsorBlock := false } := hchores r _ _ _
  split
  · exact trans_of R hwanted (fetchSponsorBlockSegments_keeps hsegments env _)
  · exact refl_of R r

end UpdateFrames

section UndoFrames

variable {R : Room → Room → Prop} [IsPreorder Room R]

variable (hqueue : ∀ {α : Type} (r : Room) {step : QueueStep α}, step.Told r.queue →
  R r (r.withQueue step))
include hqueue

theorem sortByVotes_keeps (r : Room) : R r r.sortByVotes := by
  unfold sortByVotes
  split
  · exact hqueue r (VideoQueue.orderBy_told _ _)
  · exact refl_of R r

/-- To undo a skip sets what plays, and where. -/
theorem undoSkip_keeps
    (hplace : ∀ r video position, R r ((setCurrentSource r video).setPlaybackPosition position))
    (env : Env) (additional : RoomEventContext) (r : Room) : R r (undoSkip env additional r) := by
  obtain ⟨pushed, hpushed, hundo⟩ := undoSkip_cases env additional r
  have hpush : R r pushed := by
    rcases hpushed with ⟨-, rfl⟩ | ⟨current, -, rfl⟩
    · exact refl_of R pushed
    · exact hqueue r (VideoQueue.pushTop_told _ _)
  rcases hundo with ⟨-, heq⟩ | ⟨video, position, -, -, heq⟩
  · rw [heq]
    exact hpush
  · rw [heq]
    exact trans_of R hpush (hplace pushed _ _)

/-- Undoing goes through playback and the queue. -/
theorem undo_keeps {env : Env} {context : RoomRequestContext}
    (hseek : ∀ value, (seek env value context).Keeps R)
    (hskip : ∀ additional r, R r (undoSkip env additional r))
    (hnone : ∀ r, R r (setCurrentSource r none)) (request : RoomRequest)
    (additional : RoomEventContext) : (undo env request additional context).Keeps R := by
  cases request with
  | seek value =>
    show (match truthyNumber additional.prevPosition with
      | some position => mediated (.seek (some position)) context (seek env (some position) context)
      | none => pure () : RoomM Unit).Keeps _
    cases truthyNumber additional.prevPosition with
    | none => exact .pure ()
    | some position => exact mediated_keeps (hseek _)
  | skip => exact .modify (hskip additional)
  | add video videos url =>
    refine .bind .get (fun r => ?_)
    split
    · exact mediated_keeps (removeFromQueue_keeps hqueue _ context)
    · exact .modify hnone
  | remove video =>
    show (match additional.video, additional.queueIdx with
      | some video, some queueIdx =>
        Handler.unawaited (onQueue (·.insert ⟨env.fresh, video⟩ queueIdx))
      | _, _ => pure () : RoomM Unit).Keeps _
    split
    · exact .unawaited (onQueue_keeps hqueue (fun q => q.insert_told _ _))
    · exact .pure ()
  | _ => exact .pure ()

end UndoFrames

namespace IgnoresHead

variable {R : Room → Room → Prop} [IsPreorder Room R] (h : IgnoresHead R)
include h

theorem updateRest (hsort : ∀ r : Room, R r r.sortByVotes) (env : Env) :
    (Room.updateRest env).Keeps R :=
  updateRest_keeps (fun r _ _ _ => h r _ _ _ _ _ _ _ _ _ _) hsort
    (fun r _ => h r _ _ _ _ _ _ _ _ _ _) (h.seekRaw env)

theorem update {env : Env} (hnext : (dequeueNext env).Keeps R)
    (hsort : ∀ r : Room, R r r.sortByVotes) : (Room.update env).Keeps R :=
  .bind .get (fun _ => .bind (.when (fun _ => hnext)) (fun _ => h.updateRest hsort env))

end IgnoresHead

namespace IgnoresPlayback

variable {R : Room → Room → Prop} [IsPreorder Room R] (h : IgnoresPlayback R)
include h

theorem undoSkip (env : Env) (additional : RoomEventContext) (r : Room) :
    R r (undoSkip env additional r) :=
  undoSkip_keeps (fun r step _ => h.withQueue r step)
    (fun r _ _ => h r _ _ _ _ _ _ _ _ _ _ _ _) env additional r

theorem undo (env : Env) (request : RoomRequest) (additional : RoomEventContext)
    (context : RoomRequestContext) : (Room.undo env request additional context).Keeps R :=
  undo_keeps (fun r step _ => h.withQueue r step)
    (fun value => h.ignoresHead.seek env value context) (h.undoSkip env)
    (fun r => h r _ _ _ _ _ _ _ _ _ _ _ _) request additional

theorem sortByVotes (r : Room) : R r r.sortByVotes :=
  sortByVotes_keeps (fun r step _ => h.withQueue r step) r

theorem update (hclear : ∀ r : Room, R r r.clearVotes) (env : Env) :
    (Room.update env).Keeps R :=
  h.ignoresHead.update (h.dequeueNext hclear env) h.sortByVotes

end IgnoresPlayback

theorem update_standing (env : Env) :
    (update env).Keeps (Handler.SameOn Room.standing) :=
  standing_ignoresPlayback.update clearVotes_standing env

/-- The requests that change more than what plays and what is queued. -/
def changesStanding : RoomRequest → Bool
  | .join _ | .leave | .promote _ _ | .updateUser _ | .applySettings _ => true
  | _ => false

/-- The other fifteen requests play, queue or vote. -/
theorem IgnoresPlayback.processRequest {R : Room → Room → Prop} [IsPreorder Room R]
    (hR : IgnoresPlayback R) (hclear : ∀ r : Room, R r r.clearVotes) {request : RoomRequest}
    {context : RoomRequestContext} (hskip : ∀ r, R r (voteToSkip context r))
    (hcast : ∀ video add, request = .vote video add →
      ∀ r client, R r ((castVote r video add client).markDirty .voteCounts))
    (h : changesStanding request = false) (env : Env) :
    (processRequest env request context).Keeps R := by
  have hprev : ∀ r : Room, R r (r.setPrevQueue none) := fun r => hR.ignoresHead.setPrevQueue r none
  have htold : ∀ {α : Type} (r : Room) {step : QueueStep α}, step.Told r.queue →
    R r (r.withQueue step) := fun r step _ => hR.withQueue r step
  apply mediated_keeps
  cases request with
  | join info => cases h
  | leave => cases h
  | promote target role => cases h
  | updateUser info => cases h
  | applySettings settings => cases h
  | playback state => exact hR.ignoresHead.playback env state context
  | skip => exact hR.skip hclear hskip env
  | seek value => exact hR.ignoresHead.seek env value context
  | add video videos url => exact addToQueue_keeps htold hprev env video videos url context
  | remove video => exact removeFromQueue_keeps htold video context
  | order fromIdx toIdx => exact hR.onQueue (·.move fromIdx toIdx)
  | vote video add => exact vote_keeps (hcast video add rfl) context
  | chat text => exact chat_keeps text context
  | undo request additional => exact hR.undo env request additional context
  | playNow video =>
    exact playNow_keeps htold (fun r object f _ => hR.mutate r object f)
      (hR.putInPlace env) video context
  | shuffle => exact .bind (checkGrant_keeps _ _) (fun _ => hR.onQueue _)
  | playbackSpeed speed => exact hR.ignoresHead.setPlaybackSpeedTo env speed
  | restoreQueue discard => exact restoreQueue_keeps htold hprev env discard
  | kick clientId => exact kickUser_keeps clientId context
  | updateQueueItem video update =>
    exact updateQueueItem_keeps (fun r _ _ => hR.withQueue r _)
      (fun r object _ => hR.mutateCurrent r object _) video update context

/-- **The other fifteen requests leave the same alone.** -/
theorem processRequest_standing {request : RoomRequest} (h : changesStanding request = false)
    (env : Env) (context : RoomRequestContext) :
    (processRequest env request context).Keeps (Handler.SameOn Room.standing) :=
  standing_ignoresPlayback.processRequest clearVotes_standing (voteToSkip_standing context)
    (fun video add _ r client => castVote_standing r video add client) h env

end Room

end OpenTogetherTube.Server
