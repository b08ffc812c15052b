import OpenTogetherTube.Server.Requests

/-!
# Who can change what plays

A role without any of the `playback.*` and `manage-queue.*` permissions is not meant to change what
a room plays or has queued. `processRequest` refuses thirteen request types by a table of
permissions; the others reach their handler in any case, and four of the ways through them change
the queue or the current source without a check of their own: `UndoRequest` for a skip, an add or a
remove, and `RestoreQueueRequest`.

`media_unchanged_iff` is the exact statement: without those permissions a request leaves the media
state alone if and only if it is `Mediated`, that is, none of these four with something to do.
-/

namespace OpenTogetherTube.Server

open OpenTogetherTube.Common OpenTogetherTube.Lib

namespace Room

/-- What plays, how, and what comes next. -/
structure Media where
  queue : VideoQueue
  prevQueue : Option (List QueueItem)
  currentSource : Option QueueEntry
  isPlaying : Bool
  playbackPosition : ℚ
  playbackSpeed : ℚ
  deriving DecidableEq

def media (r : Room) : Media :=
  ⟨r.queue, r.prevQueue, r.currentSource, r.isPlaying, r.playbackPosition, r.playbackSpeed⟩

/-- The permission is about playback or the queue. -/
def isMediaPermission (permission : PermissionName) : Bool :=
  startsWith permission "playback." || startsWith permission "manage-queue."

/-- The role has no permission about playback or the queue. -/
def NoMediaGrants (grants : Grants) (role : Role) : Prop :=
  ∀ p ∈ permissions, isMediaPermission p.name = true → grants.granted role p.name = false

/-- The request has no way around the permission table. Undoing a skip does when there is something
to push back or to restore, undoing an add when it stops the current source, undoing a remove when
its index fits, and restoring the queue whenever there is one to restore. -/
def Mediated (r : Room) : RoomRequest → Prop
  | .undo .skip additional =>
      r.currentSource = none ∧
        (additional.video = none ∨ truthyNumber additional.prevPosition = none)
  | .undo (.add video _ _) _ => (r.queue ≠ [] ∧ video ≠ none) ∨ r.currentSource = none
  | .undo (.remove _) additional =>
      ∀ video queueIdx, additional.video = some video → additional.queueIdx = some queueIdx →
        queueIdx < 0 ∨ queueIdx > r.queue.length
  | .restoreQueue _ => r.prevQueue = none
  | _ => True

/-! ## Handlers that leave the media state alone -/

theorem joinRoom_media (env : Env) (info : ClientInfo) (context : RoomRequestContext) :
    (joinRoom env info context).Keeps (Handler.SameOn media) :=
  joinRoom_keeps (R := Handler.SameOn media) (fun _ _ => rfl) env info context

theorem leaveRoom_media (context : RoomRequestContext) :
    (leaveRoom context).Keeps (Handler.SameOn media) := by
  apply leaveRoom_keeps (R := Handler.SameOn media) (fun _ _ => rfl)
  · exact dropVotes_keeps (R := Handler.SameOn media) (fun _ _ => rfl) (fun _ => rfl)
  · exact fun _ _ => rfl

theorem updateUser_media (env : Env) (info : ClientInfo) :
    (updateUser env info).Keeps (Handler.SameOn media) :=
  updateUser_keeps (R := Handler.SameOn media) (fun _ _ => rfl) env info

theorem promoteUser_media (targetClientId : ClientId) (role : Int) (context : RoomRequestContext) :
    (promoteUser targetClientId role context).Keeps (Handler.SameOn media) := by
  apply promoteUser_keeps (R := Handler.SameOn media)
  exact promoted_keeps (R := Handler.SameOn media) (fun _ _ _ => rfl)

theorem applySettings_media (settings : RoomSettingsPatch) (context : RoomRequestContext) :
    (applySettings settings context).Keeps (Handler.SameOn media) := by
  have hignores : IgnoresSettings (Handler.SameOn media) := fun _ _ _ _ _ _ _ _ _ _ _ => rfl
  exact hignores.applySettings settings context

/-! ## Requests that go around the table -/

/-- Undoing a remove puts a video into the queue, wherever the index fits. -/
theorem undo_remove_media_iff (env : Env) (video : VideoId) (additional : RoomEventContext)
    (context : RoomRequestContext) (r : Room) :
    ((undo env (.remove video) additional context).run r).state.media = r.media ↔
      r.Mediated (.undo (.remove video) additional) := by
  simp only [undo, Mediated]
  cases hv : additional.video with
  | none => simp
  | some v =>
    cases hidx : additional.queueIdx with
    | none => simp
    | some idx =>
      have hfits : (∀ v' idx', some v = some v' → some idx = some idx' →
          idx' < 0 ∨ idx' > r.queue.length) ↔ idx < 0 ∨ idx > r.queue.length := by
        constructor
        · exact fun h => h v idx rfl rfl
        · rintro h v' idx' - hidx'
          cases hidx'
          exact h
      rw [hfits]
      simp only [Handler.run_unawaited, onQueue, VideoQueue.insert]
      split
      · next h => exact iff_of_true rfl h
      · next h =>
        refine iff_of_false (fun heq => ?_) h
        have hlen := congrArg (fun m => m.queue.length) heq
        simp [media, withQueue, markDirty] at hlen
        omega

/-- Undoing a skip pushes the current source back, and restores the video that it is given. -/
theorem undo_skip_media_iff (env : Env) (additional : RoomEventContext)
    (context : RoomRequestContext) (r : Room) :
    ((undo env .skip additional context).run r).state.media = r.media ↔
      r.Mediated (.undo .skip additional) := by
  show (undoSkip env additional r).media = r.media ↔ _
  have hrestored : ∀ (r : Room) (source : Option QueueEntry) (position : ℚ),
      ((r.setCurrentSource source).setPlaybackPosition position).media =
        { r.media with currentSource := source, playbackPosition := position } :=
    fun _ _ _ => rfl
  simp only [undoSkip, Mediated]
  cases hc : r.currentSource with
  | some current =>
    have hpushed : (r.withQueue (VideoQueue.pushTop r.queue [current])).media.queue ≠
        r.media.queue := by
      simp [media, withQueue, VideoQueue.pushTop, markDirty]
    refine iff_of_false (fun heq => hpushed ?_) (by simp)
    have hqueue := congrArg Media.queue heq
    cases hv : additional.video with
    | none => simpa [hv] using hqueue
    | some v =>
      cases hp : truthyNumber additional.prevPosition with
      | none => simpa [hv, hp] using hqueue
      | some position => simpa only [hv, hp, hrestored] using hqueue
  | none =>
    cases hv : additional.video with
    | none => simp
    | some v =>
      cases hp : truthyNumber additional.prevPosition with
      | none => simp
      | some position =>
        refine iff_of_false (fun heq => ?_) (by simp)
        rw [hrestored] at heq
        have hsource := congrArg Media.currentSource heq
        simp [hc, media] at hsource

/-- Undoing an add either removes the video, which needs a permission, or stops what plays. -/
theorem undo_add_media_iff (env : Env) {video : Option VideoAdd} {videos : Option (List VideoAdd)}
    {url : Option String} (additional : RoomEventContext) {context : RoomRequestContext} {r : Room}
    (h : NoMediaGrants r.grants context.role) :
    ((undo env (.add video videos url) additional context).run r).state.media = r.media ↔
      r.Mediated (.undo (.add video videos url) additional) := by
  have hdenied : r.grants.granted context.role "manage-queue.remove" = false :=
    h ⟨"manage-queue.remove", 1 <<< 4, .unregisteredUser⟩ (by decide) (by decide)
  have hstop : media (r.setCurrentSource none) = r.media ↔ r.currentSource = none := by
    constructor
    · intro heq
      exact (congrArg Media.currentSource heq).symm
    · intro hc
      simp [media, setCurrentSource, markDirty, hc]
  simp only [undo, Mediated, Handler.run_bind, Handler.run_get, Outcome.andThen_ok]
  cases hq : r.queue with
  | nil => simpa using hstop
  | cons head tail =>
    cases video with
    | none => simpa using hstop
    | some video =>
      refine iff_of_true ?_ (by simp)
      dsimp only
      rw [mediated_denied (.remove video.toVideoId) rfl hdenied]

theorem undo_seek_media (env : Env) (value : Option ℚ) (additional : RoomEventContext)
    {context : RoomRequestContext} {r : Room} (h : NoMediaGrants r.grants context.role) :
    ((undo env (.seek value) additional context).run r).state.media = r.media := by
  have hdenied : r.grants.granted context.role "playback.seek" = false :=
    h ⟨"playback.seek", 1 <<< 2, .unregisteredUser⟩ (by decide) (by decide)
  simp only [undo]
  cases truthyNumber additional.prevPosition with
  | none => rfl
  | some position => rw [mediated_denied (.seek (some position)) rfl hdenied]

theorem restoreQueue_media_iff (env : Env) (discard : Bool) (r : Room) :
    ((restoreQueue env discard).run r).state.media = r.media ↔ r.prevQueue = none := by
  unfold restoreQueue
  cases hp : r.prevQueue with
  | none => exact iff_of_true (by simp [hp]) rfl
  | some items =>
    refine iff_of_false (fun heq => ?_) (by simp)
    have hprev := congrArg Media.prevQueue heq
    cases discard with
    | true => simp [hp, media, setPrevQueue, markDirty] at hprev
    | false =>
      have hres : (VideoQueue.enqueue r.queue (restoredEntries env items)).result = .ok () := by
        unfold VideoQueue.enqueue
        split <;> rfl
      have hkeep : (r.withQueue (VideoQueue.enqueue r.queue (restoredEntries env items))).prevQueue
          = some items := by
        unfold withQueue
        split <;> exact hp
      simp [hp, onQueue, hres, media, setPrevQueue, markDirty, hkeep] at hprev

/-! ## The exact condition -/

/-- **Without the permissions, a request leaves the media state alone if and only if it has no way
around the permission table.** -/
theorem media_unchanged_iff (env : Env) (request : RoomRequest) {context : RoomRequestContext}
    {r : Room} (h : NoMediaGrants r.grants context.role) :
    ((processRequest env request context).run r).state.media = r.media ↔ r.Mediated request := by
  -- what the table lists under a media permission is refused
  have hrefused : ∀ p ∈ permissions, isMediaPermission p.name = true →
      requestPermission request = some p.name →
      ((processRequest env request context).run r).state.media = r.media := by
    intro p hp hmedia hreq
    rw [processRequest, mediated_denied request hreq (h p hp hmedia)]
  have hkept : (handle env request context).Keeps (Handler.SameOn media) →
      ((processRequest env request context).run r).state.media = r.media :=
    fun hk => mediated_keeps hk r
  cases request with
  | join info => exact iff_of_true (hkept (joinRoom_media env info context)) trivial
  | leave => exact iff_of_true (hkept (leaveRoom_media context)) trivial
  | promote target role =>
    exact iff_of_true (hkept (promoteUser_media target role context)) trivial
  | updateUser info => exact iff_of_true (hkept (updateUser_media env info)) trivial
  | chat text => exact iff_of_true (hkept (chat_keeps text context)) trivial
  | applySettings settings =>
    exact iff_of_true (hkept (applySettings_media settings context)) trivial
  | kick clientId => exact iff_of_true (hkept (kickUser_keeps clientId context)) trivial
  | playback state =>
    exact iff_of_true (hrefused ⟨"playback.play-pause", 1 <<< 0, .unregisteredUser⟩ (by decide)
      (by decide) rfl) trivial
  | skip =>
    exact iff_of_true (hrefused ⟨"playback.skip", 1 <<< 1, .unregisteredUser⟩ (by decide)
      (by decide) rfl) trivial
  | seek value =>
    exact iff_of_true (hrefused ⟨"playback.seek", 1 <<< 2, .unregisteredUser⟩ (by decide)
      (by decide) rfl) trivial
  | add video videos url =>
    exact iff_of_true (hrefused ⟨"manage-queue.add", 1 <<< 3, .unregisteredUser⟩ (by decide)
      (by decide) rfl) trivial
  | remove video =>
    exact iff_of_true (hrefused ⟨"manage-queue.remove", 1 <<< 4, .unregisteredUser⟩ (by decide)
      (by decide) rfl) trivial
  | order fromIdx toIdx =>
    exact iff_of_true (hrefused ⟨"manage-queue.order", 1 <<< 5, .unregisteredUser⟩ (by decide)
      (by decide) rfl) trivial
  | shuffle =>
    exact iff_of_true (hrefused ⟨"manage-queue.order", 1 <<< 5, .unregisteredUser⟩ (by decide)
      (by decide) rfl) trivial
  | vote video add =>
    exact iff_of_true (hrefused ⟨"manage-queue.vote", 1 <<< 6, .unregisteredUser⟩ (by decide)
      (by decide) rfl) trivial
  | playbackSpeed speed =>
    exact iff_of_true (hrefused ⟨"playback.speed", 1 <<< 23, .unregisteredUser⟩ (by decide)
      (by decide) rfl) trivial
  | playNow video =>
    exact iff_of_true (hrefused ⟨"manage-queue.play-now", 1 <<< 25, .unregisteredUser⟩ (by decide)
      (by decide) rfl) trivial
  | updateQueueItem video update =>
    exact iff_of_true (hrefused ⟨"manage-queue.edit", 1 <<< 26, .unregisteredUser⟩ (by decide)
      (by decide) rfl) trivial
  | restoreQueue discard =>
    rw [processRequest, mediated_unlisted _ rfl]
    exact restoreQueue_media_iff env discard r
  | undo request additional =>
    rw [processRequest, mediated_unlisted _ rfl]
    cases request with
    | seek value => exact iff_of_true (undo_seek_media env value additional h) trivial
    | skip => exact undo_skip_media_iff env additional context r
    | add video videos url => exact undo_add_media_iff env additional h
    | remove video => exact undo_remove_media_iff env video additional context r
    | _ => exact iff_of_true rfl trivial

/-! ## A video nobody may queue -/

/-- A room whose unregistered users may do nothing. -/
def restrictedRoom : Room := { Room.new "foo" 0 with grants := Grants.ofMasks ∅ }

/-- An anonymous visitor. -/
def visitor : RoomRequestContext := ⟨"visitor", .unregisteredUser, none, none⟩

/-- The undo of a removal that never happened. -/
def forgedUndo : RoomRequest :=
  .undo (.remove ⟨.youtube, "made-up"⟩) { RoomEventContext.none with
    video := some (.ofVideoId ⟨.youtube, "made-up"⟩), queueIdx := some 0 }

theorem restrictedRoom_noMediaGrants : NoMediaGrants restrictedRoom.grants .unregisteredUser := by
  unfold NoMediaGrants
  decide +kernel

/-- The condition is met, for one, by a restore when there is nothing to restore. -/
theorem media_unchanged_iff_restoreQueue :
    NoMediaGrants restrictedRoom.grants visitor.role ∧
    (((processRequest (emptyEnv 0) (.restoreQueue false) visitor).run restrictedRoom).state.media =
      restrictedRoom.media ↔ restrictedRoom.Mediated (.restoreQueue false)) :=
  ⟨restrictedRoom_noMediaGrants,
    media_unchanged_iff (emptyEnv 0) (.restoreQueue false) restrictedRoom_noMediaGrants⟩

/-- **The permissions do not protect the queue**: undoing a made-up removal adds a video. -/
theorem not_media_unchanged :
    ¬ ∀ (env : Env) (request : RoomRequest) (context : RoomRequestContext) (r : Room),
      NoMediaGrants r.grants context.role →
      ((processRequest env request context).run r).state.media = r.media := by
  intro h
  have hkept := h (emptyEnv 0) forgedUndo visitor restrictedRoom restrictedRoom_noMediaGrants
  have hlen := congrArg (fun m => m.queue.length) hkept
  revert hlen
  decide +kernel

end Room

end OpenTogetherTube.Server
