import OpenTogetherTube.Server.Announce
import OpenTogetherTube.Server.Persistence

/-!
# A room that plays knows since when

A room is created with playback stopped, or comes back from redis with both, whether it plays and
since when. No request and no update starts playback without the time, and none takes the time away
while the room plays, so every room that plays has it (`Live.started`).
-/

namespace OpenTogetherTube.Server.Room

open OpenTogetherTube.Common OpenTogetherTube.Lib

/-- The rooms that clients can be in. Neither a row of the database nor a request to create a room
says whether the room plays. -/
inductive Live : Room → Prop where
  | created (options : RoomOptions) (now : Time) (hplaying : options.isPlaying = none) :
      Live (construct options now)
  | revived {r : Room} (h : Live r) (now : Time) : Live (r.revive now)
  | requested {r : Room} (h : Live r) (env : Env) (request : RoomRequest)
      (authorization : RoomRequestAuthorization) :
      Live ((processUnauthorizedRequest env request authorization).run r).state
  | trusted {r : Room} (h : Live r) (env : Env) (request : RoomRequest) (client : ClientId) :
      Live ((processRequestUnsafe env request client).run r).state
  | updated {r : Room} (h : Live r) (env : Env) : Live ((update env).run r).state
  | claimed {r : Room} (h : Live r) (user : User) : Live (r.setOwner (some user))
  | synced {r : Room} (h : Live r) : Live { r with dirty := ∅ }

/-- A room that plays still knows since when. -/
def KeepsStarted (r r' : Room) : Prop := r.Started → r'.Started

instance : IsPreorder Room KeepsStarted where
  refl _ h := h
  trans _ _ _ h h' hr := h' (h hr)

/-- Whether the room plays, and since when. -/
def playing (r : Room) : Bool × Option Time := (r.isPlaying, r.playbackStart)

theorem Started.congr {r r' : Room} (h : r.Started) (hsame : r'.playing = r.playing) :
    r'.Started := by
  have hplaying : r'.isPlaying = r.isPlaying := congrArg Prod.fst hsame
  have hstart : r'.playbackStart = r.playbackStart := congrArg Prod.snd hsame
  unfold Started
  rw [hplaying, hstart]
  exact h

theorem keepsStarted_of_announces {α : Type} {handler : RoomM α} (h : handler.Keeps Announces) :
    handler.Keeps KeepsStarted := fun r => (h r).started

/-! ## Requests -/

theorem withQueue_playing {α : Type} (r : Room) (step : QueueStep α) :
    (r.withQueue step).playing = r.playing := by
  unfold withQueue
  split <;> rfl

theorem setPrevQueue_playing (r : Room) (value : Option (List QueueItem)) :
    (r.setPrevQueue value).playing = r.playing := by
  unfold setPrevQueue
  split <;> rfl

/-- The requests that leave alone whether the room plays, and since when. -/
def leavesPlaying : RoomRequest → Bool
  | .playback _ | .seek _ | .playbackSpeed _ | .skip | .playNow _ | .undo _ _ => false
  | _ => true

section Frames

theorem castVote_playing (r : Room) (video : VideoId) (add : Bool) (client : ClientId) :
    ((r.castVote video add client).markDirty .voteCounts).playing = r.playing :=
  castVote_keeps (R := Handler.SameOn playing) (fun _ _ => rfl) r video add client

theorem dropVotes_playing (r : Room) (client : ClientId) :
    (r.dropVotes client).playing = r.playing :=
  dropVotes_keeps (R := Handler.SameOn playing) (fun _ _ => rfl) (fun _ => rfl) r client

/-- **Fourteen requests leave it alone.** -/
theorem processRequest_playing {request : RoomRequest} (h : leavesPlaying request = true)
    (env : Env) (context : RoomRequestContext) :
    (processRequest env request context).Keeps (Handler.SameOn playing) := by
  have hqueue : ∀ {α : Type} (r : Room) {step : QueueStep α}, step.Told r.queue →
    (r.withQueue step).playing = r.playing := fun r step _ => withQueue_playing r step
  refine mediated_keeps ?_
  cases request with
  | playback state => cases h
  | seek value => cases h
  | playbackSpeed speed => cases h
  | skip => cases h
  | playNow video => cases h
  | undo request additional => cases h
  | join info => exact joinRoom_keeps (fun _ _ => rfl) env info context
  | leave => exact leaveRoom_keeps (fun _ _ => rfl) dropVotes_playing (fun _ _ => rfl) context
  | add video videos url =>
    exact addToQueue_keeps hqueue (fun r => setPrevQueue_playing r none) env video videos url
      context
  | remove video => exact removeFromQueue_keeps hqueue video context
  | order fromIdx toIdx => exact onQueue_keeps hqueue (fun q => q.move_told fromIdx toIdx)
  | vote video add => exact vote_keeps (fun r client => castVote_playing r video add client) context
  | promote target role =>
    exact promoteUser_keeps (promoted_keeps (R := Handler.SameOn playing) (fun _ _ _ => rfl)) target
      role context
  | updateUser info => exact updateUser_keeps (fun _ _ => rfl) env info
  | chat text => exact chat_keeps text context
  | shuffle => exact .bind (checkGrant_keeps _ _) (fun _ r => withQueue_playing r _)
  | restoreQueue discard =>
    exact restoreQueue_keeps hqueue (fun r => setPrevQueue_playing r none) env discard
  | kick clientId => exact kickUser_keeps clientId context
  | updateQueueItem video update =>
    exact updateQueueItem_keeps (fun r _ _ => withQueue_playing r _) (fun _ _ _ => rfl) video update
      context
  | applySettings settings =>
    have hignores : IgnoresSettings (Handler.SameOn playing) := fun _ _ _ _ _ _ _ _ _ _ _ => rfl
    exact hignores.applySettings settings context

theorem undoSkip_playing (env : Env) (additional : RoomEventContext) (r : Room) :
    (undoSkip env additional r).playing = r.playing :=
  undoSkip_keeps (R := Handler.SameOn playing) (fun r step _ => withQueue_playing r step)
    (fun _ _ _ => rfl) env additional r

/-- An undo goes through a request, or starts and stops nothing. -/
theorem undo_keepsStarted (env : Env) (request : RoomRequest) (additional : RoomEventContext)
    (context : RoomRequestContext) :
    (undo env request additional context).Keeps KeepsStarted :=
  undo_keeps (fun r step _ h => h.congr (withQueue_playing r step))
    (fun value => keepsStarted_of_announces (seek_announces env value context))
    (fun additional r h => h.congr (undoSkip_playing env additional r)) (fun _ h => h) request
    additional

/-- **Requests keep it so.** -/
theorem processRequest_keepsStarted (env : Env) (request : RoomRequest)
    (context : RoomRequestContext) : (processRequest env request context).Keeps KeepsStarted := by
  have hleft : leavesPlaying request = true →
      (processRequest env request context).Keeps KeepsStarted :=
    fun h r hr => hr.congr (processRequest_playing h env context r)
  have hannounced : ∀ {handler : RoomM Unit}, handler.Keeps Announces →
      (mediated request context handler).Keeps KeepsStarted :=
    fun h => mediated_keeps (keepsStarted_of_announces h)
  cases request with
  | playback state => exact hannounced (playback_announces env state context)
  | seek value => exact hannounced (seek_announces env value context)
  | playbackSpeed speed => exact hannounced (setPlaybackSpeedTo_announces env speed)
  | skip => exact hannounced (skip_announces env context)
  | playNow video => exact hannounced (playNow_announces env video context)
  | undo request additional =>
    exact mediated_keeps (undo_keepsStarted env request additional context)
  | _ => exact hleft rfl

end Frames

/-! ## Every room -/

theorem construct_isPlaying {options : RoomOptions} (h : options.isPlaying = none) (now : Time) :
    (construct options now).isPlaying = false := by
  have hassigned : ((blank now).assignOptions options).isPlaying = false := by
    unfold assignOptions
    dsimp only
    iterate 2 refine (assign_same (f := isPlaying) (by exact fun _ _ => rfl) _ _).trans ?_
    refine (assign_same (f := isPlaying)
      (fun r value => congrArg Prod.fst (setPrevQueue_playing r value)) _ _).trans ?_
    iterate 2 refine (assign_same (f := isPlaying) (by exact fun _ _ => rfl) _ _).trans ?_
    have hunset : ∀ r : Room, r.assign options.isPlaying setIsPlaying = r := by
      intro r
      rw [h]
      rfl
    rw [hunset]
    iterate 10 refine (assign_same (f := isPlaying) (by exact fun _ _ => rfl) _ _).trans ?_
    rfl
  obtain ⟨queue, prevQueue, dirty, hrestored⟩ := ((blank now).assignOptions options).restored_frame
  rw [construct_eq, hrestored]
  exact hassigned

theorem revive_playing (r : Room) (now : Time) : (r.revive now).playing = r.playing := by
  obtain ⟨queue, prevQueue, dirty, hrestored⟩ := (r.beforeRestore now).restored_frame
  rw [revive_eq, hrestored, beforeRestore_eq]
  simp only [playing]

/-- **Every room that plays knows since when.** -/
theorem Live.started {r : Room} (h : r.Live) : r.Started := by
  induction h with
  | created options now hplaying =>
    intro h
    rw [construct_isPlaying hplaying] at h
    cases h
  | @revived r h now ih => exact ih.congr (revive_playing r now)
  | @requested r h env request authorization ih =>
    exact processUnauthorizedRequest_keeps (processRequest_keepsStarted env request) authorization r
      ih
  | @trusted r h env request client ih =>
    exact processRequestUnsafe_keeps (processRequest_keepsStarted env request) client r ih
  | @updated r h env ih => exact (update_announces env r).started ih
  | claimed h user ih => exact ih
  | synced h ih => exact ih

end OpenTogetherTube.Server.Room
