import OpenTogetherTube.Lib.Handler
import OpenTogetherTube.Lib.Operators
import OpenTogetherTube.Server.VideoQueue
import Mathlib.Data.Finset.Insert

/-!
# The state of a room

A room is what its clients watch together: the queue and the video that plays, how it plays, who is
there, and who may do what. This file has the state, the property setters with their dirty marks,
and the pure queries; the request handlers are in `Server.Requests`.

Twenty properties are **syncable**: they are sent to the clients when they are marked in `dirty`.
`Room.syncableAt` reads one of them off as it would be serialized. The position is special, it is
sent as the position the playback head has at that time.

What the room calls and does not own — the clock, the accounts, the sessions, the video lookup and
the metrics — is an `Env`, fixed while one operation runs.
-/

namespace OpenTogetherTube.Server

open OpenTogetherTube.Common OpenTogetherTube.Lib

/-! ## Users of a room -/

structure RoomUser where
  id : ClientId
  token : AuthToken
  userId : Option UserId
  unregisteredUsername : String
  user : Option User
  playerStatus : PlayerStatus
  deriving DecidableEq, Repr

namespace RoomUser

def new (id : ClientId) (token : AuthToken) : RoomUser := ⟨id, token, none, "", none, .none⟩

/-- `!!this.user_id`. -/
def isLoggedIn (u : RoomUser) : Bool :=
  match u.userId with
  | some id => id ≠ 0
  | none => false

def username (u : RoomUser) : String :=
  match u.user with
  | some user => if u.isLoggedIn then user.username else u.unregisteredUsername
  | none => u.unregisteredUsername

end RoomUser

/-! ## The environment of an operation -/

/-- What an operation sees of the world: its clock, the accounts, the sessions, the lookup of
videos, and the choices that are not the room's. `fresh` is the identity of the first object the
operation creates or is given; a bulk lookup may return one object twice. -/
structure Env where
  now : Time
  fresh : ObjectId
  username : UserId → Option String
  session : AuthToken → Option SessionInfo
  resolveURL : String → Except RoomError VideoId
  getVideoInfo : VideoId → Except RoomError (Option QueueItem)
  getManyVideoInfo : List VideoAdd → Except RoomError (List (Option QueueEntry))
  shuffle : List QueueEntry → List QueueEntry
  shuffle_perm : ∀ l, (shuffle l).Perm l
  sponsorblockEnabled : Bool
  fetchSegments : String → Except RoomError (List Segment)
  unloadAfter : ℚ

namespace Env

/-- `usermanager.getUser({ id })`. -/
def getUser (env : Env) (id : UserId) : Except RoomError User :=
  if id = 0 then .error .invalidUserParameters
  else match env.username id with
    | some username => .ok ⟨id, username⟩
    | none => .error .userNotFound

/-- `tokens.getSessionInfo(token)`. -/
def getSessionInfo (env : Env) (token : AuthToken) : Except RoomError SessionInfo :=
  match env.session token with
  | some session => .ok session
  | none => .error .noSessionInfo

end Env

/-- A world in which nothing is known. -/
def emptyEnv (now : Time) : Env where
  now := now
  fresh := 0
  username _ := none
  session _ := none
  resolveURL _ := .error (.lookup "unsupported")
  getVideoInfo _ := .error (.lookup "not found")
  getManyVideoInfo _ := .error (.lookup "not found")
  shuffle l := l
  shuffle_perm _ := .refl _
  sponsorblockEnabled := false
  fetchSegments _ := .error (.lookup "not found")
  unloadAfter := 240

/-- A string that is there and not empty. -/
def truthy : Option String → Option String
  | some s => if s = "" then none else some s
  | none => none

theorem eq_some_of_truthy {o : Option String} {s : String} (h : truthy o = some s) : o = some s := by
  unfold truthy at h
  split at h
  · split at h
    · cases h
    · exact h
  · cases h

/-- A number that is there and not zero. -/
def truthyNumber (n : Option ℚ) : Option ℚ := n.filter (fun q => q ≠ 0)

/-- `updateInfo`. The user id is written before the account is looked up. -/
def RoomUser.updateInfo (env : Env) (u : RoomUser) (info : ClientInfo) :
    RoomUser × Except RoomError Unit :=
  let withStatus (u : RoomUser) : RoomUser :=
    { u with playerStatus := info.status.getD u.playerStatus }
  match info.userId.filter (· ≠ 0) with
  | some userId =>
    let u := { u with userId := some userId }
    match env.getUser userId with
    | .ok user => (withStatus { u with user := some user }, .ok ())
    | .error e => (u, .error e)
  | none =>
    match truthy info.username with
    | some username =>
      (withStatus { u with unregisteredUsername := username, userId := none, user := none }, .ok ())
    | none => (withStatus u, .ok ())

/-! ## Properties -/

/-- `syncableProps`. -/
inductive SyncProp where
  | name | title | description | isTemporary | visibility | queueMode | currentSource | queue
  | isPlaying | playbackPosition | playbackSpeed | grants | hasOwner | voteCounts | videoSegments
  | autoSkipSegmentCategories | prevQueue | restoreQueueBehavior | enableVoteSkip | votesToSkip
  deriving DecidableEq, Repr

/-- The syncable properties that are among `storableProps`. -/
def SyncProp.isStorable : SyncProp → Bool
  | hasOwner | voteCounts | votesToSkip => false
  | _ => true

/-- The type a property has when it is serialized. Maps and sets are arrays then. -/
def SyncProp.Value : SyncProp → Type
  | name | title | description => String
  | isTemporary | isPlaying | hasOwner | enableVoteSkip => Bool
  | visibility => Visibility
  | queueMode => QueueMode
  | currentSource => Option QueueItem
  | queue => List QueueItem
  | playbackPosition | playbackSpeed => ℚ
  | grants => List (Role × GrantMask)
  | voteCounts => List (String × Nat)
  | videoSegments => List Segment
  | autoSkipSegmentCategories => List Category
  | prevQueue => Option (List QueueItem)
  | restoreQueueBehavior => BehaviorOption
  | votesToSkip => List ClientId

/-! ## The room -/

structure Room where
  name : String
  title : String
  description : String
  isTemporary : Bool
  visibility : Visibility
  queueMode : QueueMode
  owner : Option User
  grants : Grants
  userRoles : OrderedMap Role (OrderedSet UserId)
  autoSkipSegmentCategories : List Category
  restoreQueueBehavior : BehaviorOption
  enableVoteSkip : Bool
  currentSource : Option QueueEntry
  queue : VideoQueue
  /-- Taken from storage when the room is loaded, and shared with nothing in the room. -/
  prevQueue : Option (List QueueItem)
  isPlaying : Bool
  playbackPosition : ℚ
  playbackSpeed : ℚ
  realusers : List RoomUser
  /-- Votes for videos, by service and id run together. -/
  votes : OrderedMap String (OrderedSet ClientId)
  videoSegments : List Segment
  votesToSkip : OrderedSet ClientId
  dirty : Finset SyncProp
  playbackStart : Option Time
  keepAlivePing : Time
  wantSponsorBlock : Bool
  dontSkipSegmentsUntil : Option ℚ
  deriving DecidableEq

namespace Room

/-- A new room, as the constructor leaves it when only a name is given. -/
def new (name : String) (now : Time) : Room where
  name := name
  title := ""
  description := ""
  isTemporary := false
  visibility := .Unlisted
  queueMode := .manual
  owner := none
  grants := Grants.new
  userRoles := ((OrderedMap.empty.set .trustedUser ∅).set .moderator ∅).set .administrator ∅
  autoSkipSegmentCategories := allSkipCategories
  restoreQueueBehavior := .prompt
  enableVoteSkip := false
  currentSource := none
  queue := []
  prevQueue := none
  isPlaying := false
  playbackPosition := 0
  playbackSpeed := 1
  realusers := []
  votes := ∅
  videoSegments := []
  votesToSkip := ∅
  dirty := {.hasOwner, .name}
  playbackStart := none
  keepAlivePing := now
  wantSponsorBlock := false
  dontSkipSegmentsUntil := none

/-! ### Setters -/

/-- `markDirty`, its timer apart. -/
def markDirty (r : Room) (prop : SyncProp) : Room := { r with dirty := insert prop r.dirty }

def setTitle (r : Room) (value : String) : Room := { r with title := value }.markDirty .title

def setDescription (r : Room) (value : String) : Room :=
  { r with description := value }.markDirty .description

def setVisibility (r : Room) (value : Visibility) : Room :=
  { r with visibility := value }.markDirty .visibility

def setQueueMode (r : Room) (value : QueueMode) : Room :=
  { r with queueMode := value }.markDirty .queueMode

def setAutoSkipSegmentCategories (r : Room) (value : List Category) : Room :=
  { r with autoSkipSegmentCategories := value }.markDirty .autoSkipSegmentCategories

/-- A plain field: there is no setter, and nothing is marked. -/
def setRestoreQueueBehavior (r : Room) (value : BehaviorOption) : Room :=
  { r with restoreQueueBehavior := value }

def setEnableVoteSkip (r : Room) (value : Bool) : Room :=
  { r with enableVoteSkip := value }.markDirty .enableVoteSkip

def setCurrentSource (r : Room) (value : Option QueueEntry) : Room :=
  { r with currentSource := value }.markDirty .currentSource

def setIsPlaying (r : Room) (value : Bool) : Room :=
  { r with isPlaying := value }.markDirty .isPlaying

def setPlaybackPosition (r : Room) (value : ℚ) : Room :=
  { r with playbackPosition := value }.markDirty .playbackPosition

def setPlaybackSpeed (r : Room) (value : ℚ) : Room :=
  { r with playbackSpeed := value }.markDirty .playbackSpeed

def setVideoSegments (r : Room) (value : List Segment) : Room :=
  { r with videoSegments := value }.markDirty .videoSegments

def setPrevQueue (r : Room) (value : Option (List QueueItem)) : Room :=
  if value = none ∧ r.prevQueue = none then r else { r with prevQueue := value }.markDirty .prevQueue

def setVotesToSkip (r : Room) (value : OrderedSet ClientId) : Room :=
  { r with votesToSkip := value }.markDirty .votesToSkip

/-- Start the clock of the playback head. It is not a syncable property. -/
def setPlaybackStart (r : Room) (value : Option Time) : Room := { r with playbackStart := value }

/-- What an operation on the queue does to the room: `markDirty` calls back. -/
def withQueue {α : Type} (r : Room) (step : QueueStep α) : Room :=
  if step.dirty then { r with queue := step.items }.markDirty .queue
  else { r with queue := step.items }

theorem withQueue_queue {α : Type} (r : Room) (step : QueueStep α) :
    (r.withQueue step).queue = step.items := by
  unfold withQueue
  split <;> rfl

theorem withQueue_currentSource {α : Type} (r : Room) (step : QueueStep α) :
    (r.withQueue step).currentSource = r.currentSource := by
  unfold withQueue
  split <;> rfl

/-- Change an object if it is the current source. -/
def mutateCurrent (r : Room) (object : ObjectId) (f : QueueItem → QueueItem) : Room :=
  { r with currentSource := r.currentSource.map (QueueEntry.mutate object f) }

/-- Change an object wherever the room holds it. -/
def mutate (r : Room) (object : ObjectId) (f : QueueItem → QueueItem) : Room :=
  { r.mutateCurrent object f with queue := r.queue.map (QueueEntry.mutate object f) }

/-! ### Playback -/

/-- How far the playback head has moved since playback was started, in seconds. -/
def calcDurationFromPlaybackStart (r : Room) (now : Time) : ℚ :=
  match r.playbackStart with
  | some start => calculateCurrentPosition start now 0 r.playbackSpeed
  | none => 0

/-- The seconds since playback was started can be counted: they are finite and not negative. -/
def Counts (r : Room) (now : Time) : Prop :=
  (Number.round (r.calcDurationFromPlaybackStart now)).isNonneg = true

instance (r : Room) (now : Time) : Decidable (r.Counts now) :=
  inferInstanceAs (Decidable (_ = true))

/-- What the counter throws if they cannot. -/
def countError (r : Room) (now : Time) : RoomError :=
  match Number.round (r.calcDurationFromPlaybackStart now) with
  | .infinite negative => .counterNotFinite negative
  | _ => .counterDecreased

def realPlaybackPosition (r : Room) (now : Time) : ℚ :=
  if r.playbackStart.isSome ∧ r.isPlaying then
    r.playbackPosition + r.calcDurationFromPlaybackStart now
  else r.playbackPosition

def isVideoInQueue (r : Room) (video : VideoId) : Bool :=
  r.currentSource.any (fun e => e.is video) || r.queue.contains video

def getSegmentForTime (r : Room) (time : ℚ) : Option Segment :=
  r.videoSegments.find? (fun s => time ≥ s.startTime ∧ time ≤ s.endTime)

/-! ### Users and roles -/

/-- The role an account has by itself. -/
def roleOfAccount (r : Room) (id : UserId) : Option Role :=
  [Role.administrator, .moderator, .trustedUser].find?
    (fun role => (r.userRoles.get? role).any (fun set => set.has id))

def isOwner (r : Room) (u : RoomUser) : Bool :=
  match u.user, r.owner with
  | some user, some owner => user.id = owner.id
  | _, _ => false

def getRole (r : Room) (u : RoomUser) : Role :=
  if r.isOwner u then .owner
  else match u.user.bind (fun user => r.roleOfAccount user.id) with
    | some role => role
    | none => if u.isLoggedIn then .registeredUser else .unregisteredUser

def getRoleFromSession (r : Room) : SessionInfo → Role
  | .loggedIn userId =>
    if r.owner.any (fun owner => owner.id = userId) then .owner
    else (r.roleOfAccount userId).getD .registeredUser
  | .loggedOut _ => .unregisteredUser

def getUser (r : Room) (client : ClientId) : Option RoomUser :=
  r.realusers.find? (fun u => u.id = client)

def userInfo (r : Room) (u : RoomUser) : RoomUserInfo :=
  ⟨u.id, u.username, u.isLoggedIn, u.playerStatus, r.getRole u⟩

/-- `users`. -/
def users (r : Room) : List RoomUserInfo := r.realusers.map r.userInfo

def getUserInfo (r : Room) (client : ClientId) : Except RoomError RoomUserInfo :=
  match r.users.find? (fun info => info.id = client) with
  | some info => .ok info
  | none => .error .clientNotFound

def getClientIdFromToken (r : Room) (token : AuthToken) : Option ClientId :=
  (r.realusers.find? (fun u => u.token = token)).map (·.id)

/-! ### Votes -/

def voteCounts (r : Room) : List (String × Nat) := r.votes.entries.map (fun e => (e.1, e.2.size))

/-- The key a video's votes are kept under. -/
def voteKey (video : VideoId) : String := video.service.name ++ video.id

/-- `countEligibleVoters`. -/
def countEligibleVoters (users : List RoomUserInfo) (grants : Grants) : Nat :=
  (users.filter (fun u => grants.granted u.role "playback.skip")).length

/-- `Math.ceil(users * 0.5)`. -/
def voteSkipThreshold (users : Nat) : Nat := (users + 1) / 2

/-! ### What is sent -/

/-- A property as it is serialized for the clients at a time. -/
def syncableAt (r : Room) (now : Time) : (prop : SyncProp) → prop.Value
  | .name => r.name
  | .title => r.title
  | .description => r.description
  | .isTemporary => r.isTemporary
  | .visibility => r.visibility
  | .queueMode => r.queueMode
  | .currentSource => r.currentSource.map (·.item)
  | .queue => r.queue.map (·.item)
  | .isPlaying => r.isPlaying
  | .playbackPosition => r.realPlaybackPosition now
  | .playbackSpeed => r.playbackSpeed
  | .grants => r.grants.masks.entries
  | .hasOwner => r.owner.isSome
  | .voteCounts => r.voteCounts
  | .videoSegments => r.videoSegments
  | .autoSkipSegmentCategories => r.autoSkipSegmentCategories
  | .prevQueue => r.prevQueue
  | .restoreQueueBehavior => r.restoreQueueBehavior
  | .enableVoteSkip => r.enableVoteSkip
  | .votesToSkip => r.votesToSkip.toList

theorem getUserInfo_of_getUser {r : Room} {client : ClientId} {u : RoomUser}
    (h : r.getUser client = some u) : r.getUserInfo client = .ok (r.userInfo u) := by
  unfold getUser at h
  unfold getUserInfo users
  rw [List.find?_map]
  have hcomp : ((fun info : RoomUserInfo => decide (info.id = client)) ∘ r.userInfo) =
      fun u => decide (u.id = client) := rfl
  rw [hcomp, h]
  rfl

theorem getUserInfo_of_no_user {r : Room} {client : ClientId} (h : r.getUser client = none) :
    r.getUserInfo client = .error .clientNotFound := by
  unfold getUser at h
  unfold getUserInfo users
  rw [List.find?_map]
  have hcomp : ((fun info : RoomUserInfo => decide (info.id = client)) ∘ r.userInfo) =
      fun u => decide (u.id = client) := rfl
  rw [hcomp, h]
  rfl

end Room

end OpenTogetherTube.Server
