import OpenTogetherTube.Server.Requests

/-!
# What clients are told about users

A room tells its clients about one user at a time, in a message of its own kind. A join, an update
of a user and a promotion end with such a message, about the user that the request names. The other
requests and the periodic update are `Silent`: whatever else they publish, it is not about users.
-/

namespace OpenTogetherTube.Server

open OpenTogetherTube.Common OpenTogetherTube.Lib

/-- The user that a message is about. -/
def RoomOutput.user? : RoomOutput → Option RoomUserInfo
  | .user info => some info
  | _ => none

/-- The users that clients are told about, in order. -/
def told {ε α : Type} (o : Outcome Room RoomOutput ε α) : List RoomUserInfo :=
  o.published.filterMap RoomOutput.user?

namespace Room

/-- Nothing that is published is about a user. -/
abbrev Silent {α : Type} (h : RoomM α) : Prop := h.Emits (fun w => w.user? = none)

/-- After a silent handler clients have been told nothing about users. -/
theorem Silent.told {α : Type} {h : RoomM α} (hh : Silent h) (r : Room) : told (h.run r) = [] :=
  List.filterMap_eq_nil_iff.mpr (hh r)

/-! ## Building blocks -/

section Blocks

variable {p : RoomOutput → Prop} (env : Env) (context : RoomRequestContext)

/-- A check publishes nothing. -/
theorem checkGrant_emits (role : Role) (permission : PermissionName) :
    (checkGrant role permission).Emits p :=
  .bind .get (fun _ => .when (.throw _))

theorem checkGrants_emits (role : Role) (permissions : List PermissionName) :
    (checkGrants role permissions).Emits p := by
  induction permissions with
  | nil => exact .pure ()
  | cons permission permissions ih => exact .bind (checkGrant_emits role permission) (fun _ => ih)

/-- Nor does the counter. -/
theorem countSecondsWatched_emits : (countSecondsWatched env).Emits p :=
  .bind .get (fun _ => .when (.throw _))

/-- An operation of the queue publishes nothing of its own. -/
theorem onQueue_emits {α : Type} (op : VideoQueue → QueueStep α) : (onQueue op).Emits p :=
  fun _ _ hw => absurd hw List.not_mem_nil

/-- An event is a message of another kind, even if it says that a user joined. -/
theorem publishRoomEvent_silent (request : RoomRequest) (additional : RoomEventContext) :
    Silent (publishRoomEvent request context additional) := by
  unfold publishRoomEvent
  split
  · exact .pure ()
  · exact .bind .get (fun _ => .bind (.liftExcept _) (fun _ => .emit rfl))

/-- The permissions are checked before the handler runs. -/
theorem mediated_silent {request : RoomRequest} {handler : RoomM Unit} (h : Silent handler) :
    Silent (mediated request context handler) :=
  .bind (checkGrants_emits _ _) (fun _ => h)

end Blocks

/-! ## Playback -/

section Playback

variable {p : RoomOutput → Prop} (env : Env) (context : RoomRequestContext)

theorem flushPlaybackPosition_emits : (flushPlaybackPosition env).Emits p :=
  .bind (countSecondsWatched_emits env) (fun _ => .modify _)

theorem play_silent : Silent (play env) := .bind .get (fun _ => .when (.modify _))

theorem pause_silent : Silent (pause env) :=
  .bind .get (fun _ => .when (.bind (flushPlaybackPosition_emits env) (fun _ => .modify _)))

/-- Playing and pausing end with an event. -/
theorem playback_silent (state : Bool) : Silent (playback env state context) := by
  unfold playback
  split
  · exact .bind (play_silent env) (fun _ => publishRoomEvent_silent context _ _)
  · exact .bind (pause_silent env) (fun _ => publishRoomEvent_silent context _ _)

/-- Going on to the next video is not told. -/
theorem dequeueNext_emits : (dequeueNext env).Emits p := by
  refine .bind (.modify _) (fun _ => .bind .get (fun r => ?_))
  cases r.currentSource with
  | none => exact .modify _
  | some current =>
    refine .bind (countSecondsWatched_emits env) (fun _ => ?_)
    cases r.queueMode with
    | loop => exact .bind (onQueue_emits _) (fun _ => .modify _)
    | _ => exact .modify _

/-- Nobody waits for the next video, but the event of the skip is published. -/
theorem skip_silent : Silent (skip env context) := by
  refine .bind .get (fun r => ?_)
  cases r.currentSource with
  | none => exact .pure ()
  | some current =>
    refine .bind (.modify _) (fun _ => .bind .get (fun _ => .when ?_))
    exact .bind (.unawaited (dequeueNext_emits env)) (fun _ =>
      .bind (publishRoomEvent_silent context _ _) (fun _ => .modify _))

theorem seekRaw_silent (value : ℚ) : Silent (seekRaw env value) :=
  .bind (countSecondsWatched_emits env) (fun _ => .modify _)

/-- Without a position nothing is done. -/
theorem seek_silent (value : Option ℚ) : Silent (seek env value context) := by
  cases value with
  | none => exact .pure ()
  | some position =>
    exact .bind .get (fun _ => .bind (seekRaw_silent env position) (fun _ =>
      .bind (publishRoomEvent_silent context _ _) (fun _ => .modify _)))

theorem setPlaybackSpeedTo_silent (speed : ℚ) : Silent (setPlaybackSpeedTo env speed) :=
  .bind (flushPlaybackPosition_emits env) (fun _ => .modify _)

/-- A segment that is skipped is an event of its own. -/
theorem autoSkip_silent : Silent (autoSkip env) := by
  refine .bind .get (fun r => .ite ?_ (.pure ()))
  cases r.getSegmentForTime (r.realPlaybackPosition env.now) with
  | none => exact .pure ()
  | some segment => exact .when (.bind (seekRaw_silent env _) (fun _ => .emit rfl))

/-- **The periodic update.** -/
theorem update_silent : Silent (update env) := by
  refine .bind .get (fun _ => .bind (.when (dequeueNext_emits env)) (fun _ => ?_))
  refine .bind (.modify _) (fun _ => .bind .get (fun _ => .when ?_))
  exact .bind (.modify _) (fun _ => .bind (.modify _) (fun _ => autoSkip_silent env))

end Playback

/-! ## The queue -/

section Queue

variable (env : Env) (context : RoomRequestContext)

/-- The queue does the adding, and the event follows. -/
theorem addVideo_silent (request : RoomRequest) (video : VideoAdd) :
    Silent (addVideo env request video context) := by
  refine .bind .get (fun _ => .ite (.throw _) (.bind (.liftExcept _) (fun found => ?_)))
  cases found with
  | none => exact .throw _
  | some found =>
    refine .bind (.liftExcept _) (fun _ => .bind (.unawaited (onQueue_emits _)) (fun _ => ?_))
    exact .bind (.modify _) (fun _ => publishRoomEvent_silent context _ _)

theorem addVideos_silent (request : RoomRequest) (videos : List VideoAdd) :
    Silent (addVideos env request videos context) := by
  refine .bind (.liftExcept _) (fun _ => .bind .get (fun _ => .bind (.liftExcept _) (fun _ => ?_)))
  refine .ite (.throw _) (.bind (.unawaited (onQueue_emits _)) (fun _ => ?_))
  exact publishRoomEvent_silent context _ _

/-- One video, or several. -/
theorem addToQueue_silent (video : Option VideoAdd) (videos : Option (List VideoAdd))
    (url : Option String) : Silent (addToQueue env video videos url context) := by
  refine .bind (.liftExcept _) (fun found => ?_)
  cases found with
  | some found => exact addVideo_silent env context _ _
  | none =>
    cases videos with
    | some list => exact addVideos_silent env context _ _
    | none => exact .pure ()

theorem updateQueueItem_silent (video : VideoId) (update : QueueItemExtras) :
    Silent (updateQueueItem video update context) := by
  refine .ite (.throw _) (.bind (onQueue_emits _) (fun _ => .bind (.modify _) (fun _ => ?_)))
  exact publishRoomEvent_silent context _ _

/-- The event says at which place the video was. -/
theorem removeFromQueue_silent (video : VideoId) : Silent (removeFromQueue video context) := by
  refine .bind .get (fun _ => .ite (.throw _) (.bind (onQueue_emits _) (fun _ => ?_)))
  exact publishRoomEvent_silent context _ _

theorem fetchToPlay_silent (video : VideoAdd) (alreadyInQueue : Bool) :
    Silent (fetchToPlay env video alreadyInQueue) :=
  .ite (.map _ (onQueue_emits _)) (.map _ (.liftExcept _))

/-- The subtitles are checked, and noted on the video. -/
theorem subtitleToPlay_silent (subtitleUrl : Option String) (video : Option QueueEntry) :
    Silent (subtitleToPlay subtitleUrl video) := by
  unfold subtitleToPlay
  cases truthy subtitleUrl with
  | none => exact .pure _
  | some url =>
    refine .ite (.throw _) ?_
    cases video with
    | none => exact .throw _
    | some video => exact .bind (.modify _) (fun _ => .pure _)

theorem requeueCurrent_silent : Silent (requeueCurrent env) := by
  refine .bind .get (fun r => ?_)
  cases r.currentSource with
  | none => exact .pure ()
  | some current => exact .bind (.modify _) (fun _ => onQueue_emits _)

/-- What plays now is not even an event. -/
theorem playNow_silent (video : VideoAdd) : Silent (playNow env video context) := by
  refine .bind .get (fun _ => .ite (.pure ()) (.bind (checkGrant_emits _ _) (fun _ => ?_)))
  refine .bind (fetchToPlay_silent env _ _) (fun _ => ?_)
  refine .bind (subtitleToPlay_silent _ _) (fun _ => ?_)
  exact .bind (requeueCurrent_silent env) (fun _ => .modify _)

theorem restoreQueue_silent (discard : Bool) : Silent (restoreQueue env discard) := by
  refine .bind .get (fun r => ?_)
  cases r.prevQueue with
  | none => exact .throw _
  | some items => exact .ite (.modify _) (.bind (onQueue_emits _) (fun _ => .modify _))

theorem vote_silent (video : VideoId) (add : Bool) : Silent (vote video add context) := by
  unfold vote
  cases truthy context.clientId with
  | none => exact .throw _
  | some client => exact .modify _

/-- What is undone is done by another handler, which is silent too. -/
theorem undo_silent (request : RoomRequest) (additional : RoomEventContext) :
    Silent (undo env request additional context) := by
  unfold undo
  split
  · split
    · exact mediated_silent context (seek_silent env context _)
    · exact .pure ()
  · exact .modify _
  · refine .bind .get (fun r => ?_)
    split
    · exact mediated_silent context (removeFromQueue_silent context _)
    · exact .modify _
  · split
    · exact .unawaited (onQueue_emits _)
    · exact .pure ()
  · exact .pure ()

end Queue

/-! ## Users and settings -/

section Users

variable (context : RoomRequestContext)

/-- That a user left is told as an event. -/
theorem leaveRoom_silent : Silent (leaveRoom context) := by
  unfold leaveRoom
  cases context.clientId with
  | none => exact .throw _
  | some client =>
    refine .bind .get (fun _ => .bind (.liftExcept _) (fun _ => ?_))
    exact .bind (publishRoomEvent_silent context _ _) (fun _ => .modify _)

/-- A chat message has its sender in it, but it is no message about a user. -/
theorem chat_silent (text : String) : Silent (chat text context) := by
  unfold chat
  cases context.clientId with
  | none => exact .throw _
  | some client => exact .bind .get (fun _ => .bind (.liftExcept _) (fun _ => .emit rfl))

/-- A kick is about a client. -/
theorem kickUser_silent (clientId : ClientId) : Silent (kickUser clientId context) := by
  refine .bind .get (fun r => ?_)
  cases r.getUser clientId with
  | none => exact .throw _
  | some user => exact .when (.emit rfl)

/-- Settings are sent with the next sync. -/
theorem applySettings_silent (settings : RoomSettingsPatch) :
    Silent (applySettings settings context) := by
  refine .bind .get (fun _ => .bind (.liftExcept _) (fun _ => ?_))
  refine .bind (checkGrants_emits _ _) (fun _ => .bind (checkGrants_emits _ _) (fun _ => ?_))
  exact .bind (.modify _) (fun _ => .bind (.modify _) (fun _ => .modify _))

end Users

/-! ## Requests -/

/-- The requests that end with a message about a user. -/
def tellsUser : RoomRequest → Bool
  | .join _ | .promote _ _ | .updateUser _ => true
  | _ => false

/-- **The other requests say nothing about users.** -/
theorem processRequest_silent {request : RoomRequest} (h : tellsUser request = false) (env : Env)
    (context : RoomRequestContext) : Silent (processRequest env request context) := by
  apply mediated_silent
  cases request with
  | join info => cases h
  | promote target role => cases h
  | updateUser info => cases h
  | leave => exact leaveRoom_silent context
  | playback state => exact playback_silent env context state
  | skip => exact skip_silent env context
  | seek value => exact seek_silent env context value
  | add video videos url => exact addToQueue_silent env context video videos url
  | updateQueueItem video update => exact updateQueueItem_silent context video update
  | remove video => exact removeFromQueue_silent context video
  | order fromIdx toIdx => exact onQueue_emits (·.move fromIdx toIdx)
  | vote video add => exact vote_silent context video add
  | chat text => exact chat_silent context text
  | undo request additional => exact undo_silent env context request additional
  | applySettings settings => exact applySettings_silent context settings
  | playNow video => exact playNow_silent env context video
  | shuffle => exact .bind (checkGrant_emits _ _) (fun _ => onQueue_emits _)
  | playbackSpeed speed => exact setPlaybackSpeedTo_silent env speed
  | restoreQueue discard => exact restoreQueue_silent env discard
  | kick clientId => exact kickUser_silent context clientId

end Room

end OpenTogetherTube.Server
