import OpenTogetherTube.Common.Permissions
import Mathlib.Data.Rat.Init
import Mathlib.Algebra.Order.Ring.Rat

/-!
# Videos, users and requests

The values that clients, rooms and the database exchange. Numbers that measure something are
rationals, numbers that name something are integers, and times are milliseconds since the epoch. An
optional field is an `Option`.
-/

namespace OpenTogetherTube.Common

open OpenTogetherTube.Lib

abbrev ClientId := String
abbrev AuthToken := String
abbrev UserId := Int
abbrev Time := Int

/-! ## Videos -/

inductive VideoService where
  | youtube | vimeo | direct | hls | dash | tubi | reddit | googledrive | peertube | pluto
  | invidious | odysee
  deriving DecidableEq, Repr

def VideoService.name : VideoService → String
  | youtube => "youtube"
  | vimeo => "vimeo"
  | direct => "direct"
  | hls => "hls"
  | dash => "dash"
  | tubi => "tubi"
  | reddit => "reddit"
  | googledrive => "googledrive"
  | peertube => "peertube"
  | pluto => "pluto"
  | invidious => "invidious"
  | odysee => "odysee"

structure VideoId where
  service : VideoService
  id : String
  deriving DecidableEq, Repr

/-- The part of a video that no room operation reads; it is stored and sent along. -/
structure VideoMetadata where
  title : Option String
  description : Option String
  thumbnail : Option String
  mime : Option String
  highlight : Bool
  hlsUrl : Option String
  dashUrl : Option String
  srcUrl : Option String
  deriving DecidableEq, Repr

def VideoMetadata.none : VideoMetadata := ⟨.none, .none, .none, .none, false, .none, .none, .none⟩

structure QueueItemExtras where
  startAt : Option ℚ
  endAt : Option ℚ
  subtitleUrl : Option String
  deriving DecidableEq, Repr

/-- A video as a client asks for it. -/
structure VideoAdd extends VideoId, QueueItemExtras
  deriving DecidableEq, Repr

/-- A video in a queue, with what was looked up about it. `Video` is the same type: its `startAt`
and `endAt` are absent. -/
structure QueueItem extends VideoId, QueueItemExtras where
  length : Option ℚ
  metadata : VideoMetadata
  deriving DecidableEq, Repr

/-- A video of which only the id is known. -/
def QueueItem.ofVideoId (v : VideoId) : QueueItem :=
  { v with startAt := none, endAt := none, subtitleUrl := none, length := none, metadata := .none }

inductive Category where
  | sponsor | intro | outro | interaction | selfpromo | musicOfftopic | preview
  deriving DecidableEq, Repr

def Category.name : Category → String
  | sponsor => "sponsor"
  | intro => "intro"
  | outro => "outro"
  | interaction => "interaction"
  | selfpromo => "selfpromo"
  | musicOfftopic => "music_offtopic"
  | preview => "preview"

/-- `ALL_SKIP_CATEGORIES`. -/
def allSkipCategories : List Category :=
  [.sponsor, .intro, .outro, .interaction, .selfpromo, .musicOfftopic, .preview]

/-- A sponsorblock segment of a video. -/
structure Segment where
  startTime : ℚ
  endTime : ℚ
  category : Category
  deriving DecidableEq, Repr

/-! ## Room options -/

inductive Visibility where
  | Public | Unlisted | Private
  deriving DecidableEq, Repr

inductive QueueMode where
  | manual | vote | loop | dj
  deriving DecidableEq, Repr

inductive BehaviorOption where
  | never | prompt | always
  deriving DecidableEq, Repr

/-! ## Users -/

inductive PlayerStatus where
  | none | ready | buffering | error
  deriving DecidableEq, Repr

/-- An account. -/
structure User where
  id : UserId
  username : String
  deriving DecidableEq, Repr

/-- What is stored for an auth token. -/
inductive SessionInfo where
  | loggedOut (username : String)
  | loggedIn (userId : UserId)
  deriving DecidableEq, Repr

/-- `user_id` of a session, `undefined` when it is not logged in. -/
def SessionInfo.userId? : SessionInfo → Option UserId
  | .loggedOut _ => none
  | .loggedIn id => some id

structure ClientInfo where
  id : ClientId
  username : Option String
  userId : Option UserId
  status : Option PlayerStatus
  deriving DecidableEq, Repr

structure RoomUserInfo where
  id : ClientId
  name : String
  isLoggedIn : Bool
  status : PlayerStatus
  role : Role
  deriving DecidableEq, Repr

/-! ## Requests -/

/-- What an event says besides its request. -/
structure RoomEventContext where
  video : Option QueueItem
  videos : Option (List QueueItem)
  prevPosition : Option ℚ
  queueIdx : Option ℚ
  user : Option RoomUserInfo
  deriving DecidableEq, Repr

def RoomEventContext.none : RoomEventContext := ⟨.none, .none, .none, .none, .none⟩

/-- One property of a settings object, `grants` apart. -/
inductive RoomSetting where
  | title (value : String)
  | description (value : String)
  | visibility (value : Visibility)
  | queueMode (value : QueueMode)
  | autoSkipSegmentCategories (value : List Category)
  | restoreQueueBehavior (value : BehaviorOption)
  | enableVoteSkip (value : Bool)
  deriving DecidableEq, Repr

/-- The name of the property. -/
def RoomSetting.name : RoomSetting → String
  | title _ => "title"
  | description _ => "description"
  | visibility _ => "visibility"
  | queueMode _ => "queueMode"
  | autoSkipSegmentCategories _ => "autoSkipSegmentCategories"
  | restoreQueueBehavior _ => "restoreQueueBehavior"
  | enableVoteSkip _ => "enableVoteSkip"

/-- The `grants` of a settings object: an instance of the class, or the plain JSON value that a
websocket message can carry, which has none of its methods. -/
inductive GrantsPayload where
  | grants (value : Grants)
  | plain
  deriving DecidableEq

/-- A settings object: its properties in the order in which they are listed, each once. -/
structure RoomSettingsPatch where
  props : List RoomSetting
  grants : Option GrantsPayload
  nodupProps : (props.map RoomSetting.name).Nodup
  deriving DecidableEq

inductive RoomRequest where
  | join (info : ClientInfo)
  | leave
  | playback (state : Bool)
  | skip
  | seek (value : Option ℚ)
  | add (video : Option VideoAdd) (videos : Option (List VideoAdd)) (url : Option String)
  | remove (video : VideoId)
  | order (fromIdx toIdx : ℚ)
  | vote (video : VideoId) (add : Bool)
  | promote (targetClientId : ClientId) (role : Int)
  | updateUser (info : ClientInfo)
  | chat (text : String)
  | undo (request : RoomRequest) (additional : RoomEventContext)
  | applySettings (settings : RoomSettingsPatch)
  | playNow (video : VideoAdd)
  | shuffle
  | playbackSpeed (speed : ℚ)
  | restoreQueue (discard : Bool)
  | kick (clientId : ClientId)
  | updateQueueItem (video : VideoId) (update : QueueItemExtras)
  deriving DecidableEq

/-- Who a request comes from, as the client manager knows it. -/
structure RoomRequestAuthorization where
  token : AuthToken
  clientId : Option ClientId
  deriving DecidableEq, Repr

/-- Who a request comes from, as the room knows it. -/
structure RoomRequestContext where
  username : String
  role : Role
  clientId : Option ClientId
  auth : Option RoomRequestAuthorization
  deriving DecidableEq, Repr

/-! ## Errors -/

/-- What the handlers of a room throw. -/
inductive RoomError where
  | permissionDenied (permission : PermissionName)
  | videoAlreadyQueued
  | videoNotFound
  | unsupportedSubtitleType
  | impossiblePromotion
  | clientNotFoundInRoom (roomName : String)
  | voteWithoutClient
  | promotedClientNotFound
  | clientNotFound
  | noAuthToken
  | clientIdUndefined
  | videoUndefined
  | noPreviousQueue
  | indexOutOfBounds
  | fromIdxOutOfBounds
  | toIdxOutOfBounds
  | userNotFound
  | invalidUserParameters
  | noSessionInfo
  /-- A counter of the metrics library refuses to be decreased. -/
  | counterDecreased
  /-- It takes finite numbers only. -/
  | counterNotFinite (negative : Bool)
  /-- A method was called on a value that does not have it. -/
  | notAFunction
  /-- A property of `undefined` was set. -/
  | undefinedProperty
  /-- Looking up a video failed. -/
  | lookup (message : String)
  deriving DecidableEq, Repr

/-- The text of an error. -/
def RoomError.message : RoomError → String
  | permissionDenied permission => "Permission denied: " ++ permission
  | videoAlreadyQueued => "Video(s) are already in the queue"
  | videoNotFound => "Video not found."
  | unsupportedSubtitleType => "Subtitle URL must end with .vtt"
  | impossiblePromotion => "Can't promote/demote unregistered user"
  | clientNotFoundInRoom roomName =>
      "The server was unable to find a client in the room \"" ++ roomName ++
      "\" associated with the session. This might mean that your browser isn't saving cookies, " ++
      "try refreshing. If you aren't connected to the room, reconnect to the room and try again. " ++
      "This could also mean that the room does not exist at all."
  | voteWithoutClient => "Can't vote if not connected to room."
  | promotedClientNotFound => "Client not found."
  | clientNotFound => "Client not found"
  | noAuthToken => "No auth token"
  | clientIdUndefined => "context.clientId was undefined"
  | videoUndefined => "video was undefined"
  | noPreviousQueue => "No previous queue to restore"
  | indexOutOfBounds => "Index out of bounds"
  | fromIdxOutOfBounds => "'fromIdx' out of bounds"
  | toIdxOutOfBounds => "'toIdx' out of bounds"
  | userNotFound => "User not found"
  | invalidUserParameters => "Invalid parameters to find user"
  | noSessionInfo => "No session info found"
  | counterDecreased => "It is not possible to decrease a counter"
  | counterNotFinite negative =>
      "Value is not a valid number: " ++ if negative then "-Infinity" else "Infinity"
  | notAFunction => "request.settings.grants.getRoles is not a function"
  | undefinedProperty => "Cannot set properties of undefined (setting 'subtitleUrl')"
  | lookup message => message

/-! ## Clock arithmetic -/

/-- `calculateCurrentPosition`: where the playback head is, with playback started at `startTime`. -/
def calculateCurrentPosition (startTime now : Time) (offset playbackSpeed : ℚ) : ℚ :=
  offset + ((now - startTime : Int) : ℚ) / 1000 * playbackSpeed

/-- A playback head moves on by the speed for each second. -/
theorem calculateCurrentPosition_self (t : Time) (offset speed : ℚ) :
    calculateCurrentPosition t t offset speed = offset := by
  simp [calculateCurrentPosition]

end OpenTogetherTube.Common
