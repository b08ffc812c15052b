import OpenTogetherTube.Lib.Machine
import OpenTogetherTube.Server.Requests
import Mathlib.Data.List.Perm.Subperm
import Mathlib.Data.List.ReduceOption

/-!
# Videos that are queued twice

A video that is already in the room is refused when it is added. The check is made in some of the
places where videos come into a room, and there on the id that was asked for. `brought` lists, for
each request, what it brings in: what was looked up, the video of an event that is undone, the stored
queue.

`distinct_iff` says that the videos of a room stay distinct exactly as long as what is brought in is
new to the room and has no repetitions. `not_distinct_throughout` adds one video twice, in one list.
-/

namespace OpenTogetherTube.Server

open OpenTogetherTube.Common OpenTogetherTube.Lib

namespace Room

/-- The videos of a room: the one that plays, and the queue. -/
def videoIds (r : Room) : List VideoId := (r.currentSource.toList ++ r.queue).map (·.videoId)

/-- **The purpose**: no video is there twice. -/
def Distinct (r : Room) : Prop := r.videoIds.Nodup

instance (r : Room) : Decidable r.Distinct := inferInstanceAs (Decidable (List.Nodup _))

/-! ## What requests bring in -/

/-- A video that is looked up and has its subtitles accepted. -/
def foundVideo (env : Env) (video : VideoAdd) : Option VideoId :=
  match env.getVideoInfo video.toVideoId with
  | .ok (some found) =>
    match withSubtitles video.subtitleUrl found with
    | .ok item => some item.toVideoId
    | .error _ => none
  | _ => none

/-- The videos of a list that are looked up, unless one of them is not found. -/
def foundVideos (env : Env) (videos : List VideoAdd) : List VideoId :=
  match env.getManyVideoInfo videos with
  | .ok found => if none ∈ found then [] else found.reduceOption.map (·.videoId)
  | .error _ => []

/-- The video that undoing a skip puts into its place. Without one, what plays is put onto the queue
and plays on. -/
def unskipped (r : Room) (additional : RoomEventContext) : List VideoId :=
  match additional.video, truthyNumber additional.prevPosition with
  | some video, some _ => [video.toVideoId]
  | _, _ => r.currentSource.toList.map (·.videoId)

/-- The video that undoing a removal inserts, where the index fits. -/
def reinserted (r : Room) (additional : RoomEventContext) : List VideoId :=
  match additional.video, additional.queueIdx with
  | some video, some queueIdx =>
    if queueIdx < 0 ∨ queueIdx > r.queue.length then [] else [video.toVideoId]
  | _, _ => []

/-- What a request that is permitted brings in. -/
def brought (r : Room) (env : Env) (context : RoomRequestContext) : RoomRequest → List VideoId
  | .add video videos url =>
    match resolvedVideo env video url with
    | .ok (some video) =>
      if r.isVideoInQueue video.toVideoId then [] else (foundVideo env video).toList
    | .ok none =>
      match videos with
      | some list => (foundVideos env list).filter (fun v => r.isVideoInQueue v = false)
      | none => []
    | .error _ => []
  | .playNow video =>
    if r.isVideoInQueue video.toVideoId ∨
      r.grants.granted context.role "manage-queue.add" = false then []
    else (foundVideo env video).toList
  | .undo .skip additional => r.unskipped additional
  | .undo (.remove _) additional => r.reinserted additional
  | .restoreQueue discard =>
    match r.prevQueue with
    | some items => if discard then [] else items.map (·.toVideoId)
    | none => []
  | _ => []

instance (r : Room) (request : RoomRequest) (context : RoomRequestContext) :
    Decidable (r.Permitted request context) :=
  inferInstanceAs (Decidable (∀ permission ∈ requestPermission request, _))

/-- What a request brings in. -/
def incoming (r : Room) (env : Env) (request : RoomRequest) (context : RoomRequestContext) :
    List VideoId :=
  if r.Permitted request context then r.brought env context request else []

end Room

/-! ## The system -/

namespace Duplicates

/-- A room, and what it has published. -/
structure World where
  room : Room
  published : List RoomOutput

inductive Event where
  | request (env : Env) (request : RoomRequest) (context : RoomRequestContext)
  | update (env : Env)

/-- What is undone is an event that the room itself has published. -/
def Undoable (published : List RoomOutput) : RoomRequest → Prop
  | .undo request additional => ∃ user, RoomOutput.event request user additional ∈ published
  | _ => True

instance (published : List RoomOutput) : (request : RoomRequest) →
    Decidable (Undoable published request)
  | .undo request additional =>
    decidable_of_iff (published.any (fun output => match output with
      | .event request' _ additional' => request' = request ∧ additional' = additional
      | _ => false) = true) (by
        rw [List.any_eq_true]
        constructor
        · rintro ⟨output, hmem, h⟩
          cases output with
          | event request' user additional' =>
            obtain ⟨rfl, rfl⟩ := of_decide_eq_true h
            exact ⟨user, hmem⟩
          | _ => cases h
        · rintro ⟨user, hmem⟩
          exact ⟨_, hmem, decide_eq_true ⟨rfl, rfl⟩⟩)
  | .join _ | .leave | .playback _ | .skip | .seek _ | .add _ _ _ | .remove _ | .order _ _
  | .vote _ _ | .promote _ _ | .updateUser _ | .chat _ | .applySettings _ | .playNow _ | .shuffle
  | .playbackSpeed _ | .restoreQueue _ | .kick _ | .updateQueueItem _ _ => isTrue trivial

def World.after (w : World) (o : Outcome Room RoomOutput RoomError Unit) : World :=
  ⟨o.state, w.published ++ o.published⟩

def World.step (w : World) : Event → Option World
  | .request env request context =>
    if Undoable w.published request then
      some (w.after ((Room.processRequest env request context).run w.room))
    else none
  | .update env => some (w.after ((Room.update env).run w.room))

/-- A room whose operations run one after the other. -/
def system : Machine World Event := ⟨World.step⟩

/-- The condition on a step: what it brings in is new, and has no repetitions. -/
def Fresh (w : World) : Event → Prop
  | .request env request context =>
    (w.room.incoming env request context ++ w.room.videoIds).Nodup
  | .update _ => True

end Duplicates

namespace Room

/-! ## Operations that bring in nothing -/

/-- Some of the videos may be gone. -/
def Fewer (r r' : Room) : Prop := r'.videoIds.Subperm r.videoIds

instance : IsPreorder Room Fewer where
  refl _ := .refl _
  trans _ _ _ h h' := h'.trans h

theorem Fewer.of_same {r r' : Room} (hsource : r'.currentSource = r.currentSource)
    (hqueue : r'.queue = r.queue) : Fewer r r' := by
  unfold Fewer videoIds
  rw [hsource, hqueue]

theorem Fewer.of_perm {r r' : Room} (h : r'.videoIds.Perm r.videoIds) : Fewer r r' := h.subperm

theorem videoIds_eq (r : Room) :
    r.videoIds = r.currentSource.toList.map (·.videoId) ++ r.queue.map (·.videoId) :=
  List.map_append

theorem videoIds_withQueue {α : Type} (r : Room) (step : QueueStep α) :
    (r.withQueue step).videoIds =
      r.currentSource.toList.map (·.videoId) ++ step.items.map (·.videoId) := by
  rw [videoIds_eq, withQueue_queue, withQueue_currentSource]

/-- The videos are there however they are played. -/
theorem fewer_ignoresHead : IgnoresHead Fewer := fun _ _ _ _ _ _ _ _ _ _ _ => .of_same rfl rfl

/-- An operation on the queue. -/
theorem onQueue_fewer {α : Type} {op : VideoQueue → QueueStep α}
    (h : ∀ q : VideoQueue, ((op q).items.map (·.videoId)).Subperm (q.map (·.videoId))) :
    (onQueue op).Keeps Fewer := by
  intro r
  show ((r.withQueue (op r.queue)).videoIds).Subperm r.videoIds
  rw [videoIds_withQueue, videoIds_eq]
  exact (List.subperm_append_left _).mpr (h r.queue)

theorem contains_iff {q : VideoQueue} {video : VideoId} :
    q.contains video = true ↔ video ∈ q.map (·.videoId) := by
  rw [VideoQueue.contains, List.any_eq_true, List.mem_map]
  exact exists_congr (fun e => and_congr_right (fun _ => QueueEntry.is_iff))

/-! ### The queue -/

theorem videoId_mutate (object : ObjectId) {f : QueueItem → QueueItem}
    (hf : ∀ item, (f item).toVideoId = item.toVideoId) (e : QueueEntry) :
    (e.mutate object f).videoId = e.videoId := by
  unfold QueueEntry.mutate
  split
  · exact hf e.item
  · rfl

theorem move_perm (q : VideoQueue) (fromIdx toIdx : ℚ) : (q.move fromIdx toIdx).items.Perm q := by
  unfold VideoQueue.move
  split
  · exact .refl _
  split
  · exact .refl _
  split
  · exact .refl _
  · let i := VideoQueue.spliceIndex fromIdx
    let item := (q.drop i).take 1
    let rest := q.take i ++ q.drop (i + 1)
    have hparts : q.take i ++ (item ++ q.drop (i + 1)) = q := by
      rw [← List.drop_drop, List.take_append_drop, List.take_append_drop]
    have hrest : ∀ n, (rest.take n ++ item ++ rest.drop n).Perm (item ++ rest) := by
      intro n
      rw [List.append_assoc]
      refine List.perm_append_comm_assoc _ _ _ |>.trans ?_
      rw [List.take_append_drop]
    have hback : (item ++ rest).Perm q := by
      refine (List.perm_append_comm_assoc _ _ _).trans ?_
      rw [hparts]
    exact (hrest _).trans hback

theorem update_videoIds (q : VideoQueue) (video : VideoId) (patch : QueueItemExtras) :
    (q.update video patch).items.map (·.videoId) = q.map (·.videoId) := by
  unfold VideoQueue.update
  split
  · rfl
  · rw [List.map_map]
    exact List.map_congr_left (fun e _ => videoId_mutate _ (by exact fun _ => rfl) e)

theorem evict_sublist (q : VideoQueue) (video : VideoId) :
    (q.evict video).items.Sublist q := by
  unfold VideoQueue.evict
  split
  · exact .refl _
  split
  · exact .refl _
  · exact List.eraseIdx_sublist q _

/-! ### Playing the next video -/

theorem videoIds_advance_cons {r : Room} {head : QueueEntry} {tail : List QueueEntry}
    (h : r.queue = head :: tail) (now : Time) :
    (r.advance now).videoIds = r.queue.map (·.videoId) := by
  have hdrop : ∀ r : Room, r.dropVideoSegments.videoIds = r.videoIds := by
    intro r
    unfold dropVideoSegments
    split <;> rfl
  simp only [advance, h]
  rw [hdrop]
  show ((some head).toList ++ (r.withQueue (VideoQueue.dequeue (head :: tail))).queue).map _ = _
  rw [withQueue_queue]
  rfl

theorem advance_fewer (r : Room) (now : Time) : Fewer r (r.advance now) := by
  cases hq : r.queue with
  | cons head tail =>
    unfold Fewer
    rw [videoIds_advance_cons hq, videoIds_eq]
    exact (List.sublist_append_right _ _).subperm
  | nil =>
    unfold advance
    rw [hq]
    dsimp only
    split
    · have hstopped : ∀ r : Room, (((r.setPlaybackPosition 0).setPlaybackStart
          (some now)).setCurrentSource none).queue = r.queue := fun _ => rfl
      have hpaused : (if r.isPlaying then r.setIsPlaying false else r).queue = [] := by
        rw [← hq]
        split <;> rfl
      show (List.map _ (none.toList ++ _)).Subperm _
      rw [hstopped, hpaused]
      exact List.nil_subperm
    · exact refl_of Fewer r

/-- In loop mode what plays goes to the end of the queue, in the others it is gone. -/
theorem replaced_fewer (env : Env) {r : Room} {current : QueueEntry}
    (h : r.currentSource = some current) : Fewer r (replaced env r current) := by
  have hids : r.videoIds = current.videoId :: r.queue.map (·.videoId) := by
    rw [videoIds_eq, h]
    rfl
  have hplain : Fewer r (afterAdvance env (r.advance env.now)) :=
    trans_of Fewer (advance_fewer r env.now) (fewer_ignoresHead.afterAdvance env _)
  unfold replaced
  dsimp only
  split
  · exact refl_of Fewer r
  cases r.queueMode with
  | dj =>
    refine .of_perm ?_
    rw [hids]
    exact .refl _
  | loop =>
    refine trans_of Fewer (.of_perm ?_) (fewer_ignoresHead.afterAdvance env _)
    let trimmed : QueueEntry := ⟨env.fresh, clearQueueItemTrim current.item⟩
    have hqueue : (r.withQueue (r.queue.enqueue [trimmed])).queue = r.queue ++ [trimmed] := by
      rw [withQueue_queue]
      rfl
    obtain ⟨head, tail, hcons⟩ : ∃ head tail, r.queue ++ [trimmed] = head :: tail := by
      cases r.queue with
      | nil => exact ⟨_, _, rfl⟩
      | cons head tail => exact ⟨_, _, rfl⟩
    rw [videoIds_advance_cons (hqueue.trans hcons), hqueue, hids, List.map_append]
    exact List.perm_append_comm
  | manual => exact hplain
  | vote => exact hplain

theorem dequeueNext_fewer (env : Env) : (dequeueNext env).Keeps Fewer := by
  intro r
  have hclear : Fewer r r.clearVotes := clearVotes_keeps (fun _ _ => .of_same rfl rfl) r
  cases hc : r.currentSource with
  | none =>
    rw [dequeueNext_state_none env hc]
    exact trans_of Fewer hclear
      (trans_of Fewer (advance_fewer _ env.now) (fewer_ignoresHead.afterAdvance env _))
  | some current =>
    rw [dequeueNext_state env hc]
    refine trans_of Fewer hclear (replaced_fewer env ?_)
    unfold clearVotes
    split <;> exact hc

/-! ### Requests -/

theorem skip_fewer (env : Env) (context : RoomRequestContext) :
    (skip env context).Keeps Fewer := by
  apply fewer_ignoresHead.skip (dequeueNext_fewer env)
  exact voteToSkip_keeps (fun _ _ => .of_same rfl rfl) context

theorem updateQueueItem_fewer (video : VideoId) (update : QueueItemExtras)
    (context : RoomRequestContext) : (updateQueueItem video update context).Keeps Fewer := by
  refine updateQueueItem_keeps (fun r video update => ?_) (fun r object update => ?_) video update
    context
  · have hkeeps : (onQueue (·.update video update)).Keeps Fewer :=
      onQueue_fewer (fun q => by rw [update_videoIds])
    exact hkeeps r
  · refine .of_perm (.of_eq ?_)
    rw [videoIds_eq, videoIds_eq]
    congr 1
    show List.map _ (r.currentSource.map _).toList = _
    cases r.currentSource with
    | none => rfl
    | some current =>
      exact congrArg (· :: []) (videoId_mutate object (by exact fun _ => rfl) current)

theorem removeFromQueue_fewer (video : VideoId) (context : RoomRequestContext) :
    (removeFromQueue video context).Keeps Fewer :=
  .bind .get (fun _ => .ite (fun _ => .throw _) (fun _ =>
    .bind (onQueue_fewer (fun q => ((evict_sublist q video).map _).subperm))
      (fun _ => publishRoomEvent_keeps _ _ _)))

theorem reorderQueue_fewer (fromIdx toIdx : ℚ) : (reorderQueue fromIdx toIdx).Keeps Fewer :=
  onQueue_fewer (fun q => ((move_perm q fromIdx toIdx).map _).subperm)

theorem shuffle_fewer (env : Env) (context : RoomRequestContext) :
    (shuffle env context).Keeps Fewer :=
  .bind (checkGrant_keeps _ _) (fun _ =>
    onQueue_fewer (fun q => ((env.shuffle_perm q).map _).subperm))

theorem vote_fewer (video : VideoId) (add : Bool) (context : RoomRequestContext) :
    (vote video add context).Keeps Fewer := by
  refine vote_keeps (fun r client => ?_) context
  have hcast : Fewer r (r.castVote video add client) :=
    castVote_keeps (fun _ _ => .of_same rfl rfl) r video add client
  exact trans_of Fewer hcast (.of_same rfl rfl)

theorem applySettings_fewer (settings : RoomSettingsPatch) (context : RoomRequestContext) :
    (applySettings settings context).Keeps Fewer := by
  have hignores : IgnoresSettings Fewer := fun _ _ _ _ _ _ _ _ _ _ _ => .of_same rfl rfl
  exact hignores.applySettings settings context

theorem leaveRoom_fewer (context : RoomRequestContext) : (leaveRoom context).Keeps Fewer := by
  apply leaveRoom_keeps (R := Fewer) (fun _ _ => .of_same rfl rfl)
  · exact dropVotes_keeps (fun _ _ => .of_same rfl rfl) (fun _ => .of_same rfl rfl)
  · exact fun _ _ => .of_same rfl rfl

theorem promoteUser_fewer (targetClientId : ClientId) (role : Int) (context : RoomRequestContext) :
    (promoteUser targetClientId role context).Keeps Fewer :=
  promoteUser_keeps (promoted_keeps (fun _ _ _ => .of_same rfl rfl)) targetClientId role context

theorem sortByVotes_fewer (r : Room) : Fewer r r.sortByVotes := by
  unfold sortByVotes
  split
  · refine .of_perm ?_
    rw [videoIds_withQueue, videoIds_eq]
    exact ((List.perm_insertionSort _ r.queue).map _).append_left _
  · exact refl_of Fewer r

theorem update_fewer (env : Env) : (update env).Keeps Fewer :=
  fewer_ignoresHead.update (dequeueNext_fewer env) sortByVotes_fewer

/-! ## Requests that bring in something -/

/-- The videos that are brought in are there, and no other has gone; or none is brought in. -/
def Adds (added : List VideoId) (r r' : Room) : Prop :=
  (added = [] ∧ Fewer r r') ∨ r'.videoIds.Perm (added ++ r.videoIds)

theorem Adds.of_fewer {r r' : Room} (h : Fewer r r') : Adds [] r r' := .inl ⟨rfl, h⟩

theorem Adds.refl (r : Room) : Adds [] r r := .of_fewer (refl_of Fewer r)

/-- What is brought in has to be new. -/
theorem Adds.keeps_distinct_iff {added : List VideoId} {r r' : Room} (h : Adds added r r')
    (hr : r.Distinct) : r'.Distinct ↔ (added ++ r.videoIds).Nodup := by
  obtain ⟨rfl, hfewer⟩ | hperm := h
  · refine iff_of_true ?_ hr
    obtain ⟨kept, hkept, hsub⟩ := hfewer
    exact hkept.nodup_iff.mp (hr.sublist hsub)
  · exact hperm.nodup_iff

/-- An operation that leaves the videos as they are. -/
theorem publishRoomEvent_videoIds (request : RoomRequest) (context : RoomRequestContext)
    (additional : RoomEventContext) (r : Room) :
    ((publishRoomEvent request context additional).run r).state.videoIds = r.videoIds :=
  publishRoomEvent_keeps (R := Handler.SameOn videoIds) request context additional r

theorem videoIds_setPrevQueue (r : Room) (value : Option (List QueueItem)) :
    (r.setPrevQueue value).videoIds = r.videoIds := by
  unfold setPrevQueue
  split <;> rfl

theorem videoIds_enqueue (r : Room) (videos : List QueueEntry) :
    (r.withQueue (r.queue.enqueue videos)).videoIds.Perm
      (videos.map (·.videoId) ++ r.videoIds) := by
  have hitems : (r.queue.enqueue videos).items = r.queue ++ videos := by
    unfold VideoQueue.enqueue
    split
    next h => rw [h, List.append_nil]; rfl
    · rfl
  rw [videoIds_withQueue, hitems, List.map_append, ← List.append_assoc, ← videoIds_eq]
  exact List.perm_append_comm

theorem addVideo_adds (env : Env) (request : RoomRequest) (video : VideoAdd)
    (context : RoomRequestContext) (r : Room) :
    Adds (if r.isVideoInQueue video.toVideoId then [] else (foundVideo env video).toList) r
      ((addVideo env request video context).run r).state := by
  by_cases hqueued : r.isVideoInQueue video.toVideoId = true
  · rw [if_pos hqueued]
    simpa [addVideo, hqueued] using Adds.refl r
  rw [if_neg hqueued]
  unfold addVideo foundVideo
  simp only [Handler.run_bind, Handler.run_get, Outcome.andThen_ok, if_neg hqueued]
  cases env.getVideoInfo video.toVideoId with
  | error e => exact .refl r
  | ok found =>
    cases found with
    | none => exact .refl r
    | some found =>
      simp only [Handler.run_bind, Handler.run_liftExcept, Outcome.andThen_ok]
      cases withSubtitles video.subtitleUrl found with
      | error e => exact .refl r
      | ok item =>
        refine .inr ?_
        show ((publishRoomEvent request context _).run ((r.withQueue (r.queue.enqueue
          [⟨env.fresh, item⟩])).setPrevQueue none)).state.videoIds.Perm _
        rw [publishRoomEvent_videoIds, videoIds_setPrevQueue]
        exact videoIds_enqueue r [⟨env.fresh, item⟩]

/-- The videos of a list that are not in the room yet. -/
theorem notQueued_eq (r : Room) (found : List (Option QueueEntry)) :
    r.notQueued found = if none ∈ found then .error .videoUndefined else
      .ok (found.reduceOption.filter (fun e => r.isVideoInQueue e.videoId = false)) := by
  induction found with
  | nil => rfl
  | cons video found ih =>
    cases video with
    | none => simp [notQueued]
    | some video =>
      rw [notQueued, ih]
      by_cases hnone : none ∈ found
      · simp [hnone, Except.map]
      · have hid : r.isVideoInQueue video.item.toVideoId = r.isVideoInQueue video.videoId := rfl
        rw [hid]
        cases hq : r.isVideoInQueue video.videoId <;>
          simp [hnone, hq, Except.map, List.reduceOption_cons_of_some]

theorem addVideos_adds (env : Env) (request : RoomRequest) (videos : List VideoAdd)
    (context : RoomRequestContext) (r : Room) :
    Adds ((foundVideos env videos).filter (fun v => r.isVideoInQueue v = false)) r
      ((addVideos env request videos context).run r).state := by
  simp only [addVideos, Handler.run_bind, Handler.run_liftExcept, foundVideos]
  cases env.getManyVideoInfo videos with
  | error e => exact .refl r
  | ok found =>
    simp only [Outcome.andThen_ok, Handler.run_get, Handler.run_bind, Handler.run_liftExcept,
      notQueued_eq]
    by_cases hnone : none ∈ found
    · simpa [hnone] using Adds.refl r
    rw [if_neg hnone, if_neg hnone]
    simp only [Outcome.andThen_ok]
    have hmap : (found.reduceOption.map (·.videoId)).filter (fun v => r.isVideoInQueue v = false) =
        (found.reduceOption.filter (fun e => r.isVideoInQueue e.videoId = false)).map
          (·.videoId) := List.filter_map
    rw [hmap]
    generalize found.reduceOption.filter (fun e => r.isVideoInQueue e.videoId = false) = added
    split
    next h =>
      rw [h]
      exact .refl r
    · refine .inr ?_
      show ((publishRoomEvent request context _).run
        (r.withQueue (r.queue.enqueue added))).state.videoIds.Perm _
      rw [publishRoomEvent_videoIds]
      exact videoIds_enqueue r added

theorem addToQueue_adds (env : Env) (video : Option VideoAdd) (videos : Option (List VideoAdd))
    (url : Option String) (context : RoomRequestContext) (r : Room) :
    Adds (r.brought env context (.add video videos url)) r
      ((addToQueue env video videos url context).run r).state := by
  simp only [addToQueue, Handler.run_bind, Handler.run_liftExcept, brought]
  cases resolvedVideo env video url with
  | error e => exact .refl r
  | ok found =>
    cases found with
    | some found => exact addVideo_adds env _ found context r
    | none =>
      cases videos with
      | some list => exact addVideos_adds env _ list context r
      | none => exact .refl r

/-! ### Playing a video at once -/

/-- Taking a video out of the queue. -/
theorem videoIds_evict {r : Room} {i : Nat} {e : QueueEntry} (h : r.queue[i]? = some e) :
    (e.videoId :: (r.queue.eraseIdx i).map (·.videoId)).Perm (r.queue.map (·.videoId)) := by
  obtain ⟨hi, rfl⟩ := List.getElem?_eq_some_iff.mp h
  exact (List.getElem_cons_eraseIdx_perm hi).map (·.videoId)

/-- What plays goes back onto the queue, and the video takes its place. -/
theorem videoIds_putInPlace (env : Env) (r : Room) (video : Option QueueEntry) :
    (putInPlace env video ((requeueCurrent env).run r).state).videoIds =
      video.toList.map (·.videoId) ++ r.videoIds := by
  have hplace : ∀ r : Room, (putInPlace env video r).videoIds =
      video.toList.map (·.videoId) ++ r.queue.map (·.videoId) := by
    intro r
    have hqueue : (((((r.setCurrentSource video).markDirty .queue).setPlaybackPosition
        0).setPlaybackStart (some env.now)).setVideoSegments []).queue = r.queue := by
      dsimp only [setVideoSegments, setPlaybackStart, setPlaybackPosition, markDirty,
        setCurrentSource]
    have hsource : (((((r.setCurrentSource video).markDirty .queue).setPlaybackPosition
        0).setPlaybackStart (some env.now)).setVideoSegments []).currentSource = video := rfl
    have hplaced := videoIds_eq (((((r.setCurrentSource video).markDirty .queue).setPlaybackPosition
      0).setPlaybackStart (some env.now)).setVideoSegments [])
    rw [hsource, hqueue] at hplaced
    unfold putInPlace
    dsimp only
    generalize ((((r.setCurrentSource video).markDirty .queue).setPlaybackPosition
      0).setPlaybackStart (some env.now)).setVideoSegments [] = placed at hplaced ⊢
    split
    · exact hplaced
    · exact hplaced
  have hrequeue : ((requeueCurrent env).run r).state.queue.map (·.videoId) = r.videoIds := by
    rw [videoIds_eq]
    cases hc : r.currentSource with
    | none =>
      simp only [requeueCurrent, Handler.run_bind, Handler.run_get, Outcome.andThen_ok, hc]
      rfl
    | some current =>
      let stopped (item : QueueItem) : QueueItem :=
        { item with startAt := some (r.realPlaybackPosition env.now) }
      have hstate : ((requeueCurrent env).run r).state.queue =
          current.mutate current.object stopped ::
            r.queue.map (QueueEntry.mutate current.object stopped) := by
        simp only [requeueCurrent, Handler.run_bind, Handler.run_get, Outcome.andThen_ok, hc,
          Handler.run_modify, run_onQueue, withQueue_queue]
        rfl
      have hid : ∀ e : QueueEntry, (e.mutate current.object stopped).videoId = e.videoId :=
        videoId_mutate current.object (fun _ => rfl)
      rw [hstate, List.map_cons, List.map_map, hid]
      refine congrArg (current.videoId :: ·) (List.map_congr_left (fun e _ => hid e))
  rw [hplace, hrequeue]

theorem videoIds_mutateRoom (r : Room) (object : ObjectId) {f : QueueItem → QueueItem}
    (hf : ∀ item, (f item).toVideoId = item.toVideoId) : (r.mutate object f).videoIds = r.videoIds := by
  have hid : ∀ e : QueueEntry, (e.mutate object f).videoId = e.videoId := videoId_mutate object hf
  show ((r.currentSource.map (QueueEntry.mutate object f)).toList ++
    r.queue.map (QueueEntry.mutate object f)).map (·.videoId) = r.videoIds
  have hcurrent : (r.currentSource.map (QueueEntry.mutate object f)).toList =
      r.currentSource.toList.map (QueueEntry.mutate object f) := by
    cases r.currentSource <;> rfl
  rw [hcurrent, ← List.map_append, List.map_map]
  exact List.map_congr_left (fun e _ => hid e)

/-- The subtitles of the video to play are refused, or they are set. -/
theorem subtitleToPlay_cases (subtitleUrl : Option String) (e : QueueEntry) (r : Room) :
    (∃ error error', (subtitleToPlay subtitleUrl (some e)).run r = ⟨r, [], .error error⟩ ∧
      withSubtitles subtitleUrl e.item = .error error') ∨
    (∃ r' e' item, (subtitleToPlay subtitleUrl (some e)).run r = ⟨r', [], .ok (some e')⟩ ∧
      r'.videoIds = r.videoIds ∧ e'.videoId = e.videoId ∧
      withSubtitles subtitleUrl e.item = .ok item ∧ item.toVideoId = e.videoId) := by
  unfold subtitleToPlay withSubtitles
  cases truthy subtitleUrl with
  | none => exact .inr ⟨r, e, e.item, rfl, rfl, rfl, rfl, rfl⟩
  | some url =>
    dsimp only
    cases hvtt : hasVttExtension url with
    | false => exact .inl ⟨_, _, rfl, rfl⟩
    | true =>
      refine .inr ⟨_, _, _, rfl, ?_, ?_, rfl, rfl⟩
      · exact videoIds_mutateRoom r e.object (by exact fun _ => rfl)
      · exact videoId_mutate e.object (by exact fun _ => rfl) e

/-- The end of `playNow`. -/
def placeVideo (env : Env) (subtitleUrl : Option String) (found : Option QueueEntry) :
    RoomM Unit := do
  let videoToPlay ← subtitleToPlay subtitleUrl found
  requeueCurrent env
  Handler.modify (putInPlace env videoToPlay)

theorem requeueCurrent_bind (env : Env) (f : Room → Room) (r : Room) :
    ((requeueCurrent env >>= fun _ => Handler.modify f).run r).state =
      f ((requeueCurrent env).run r).state := by
  obtain ⟨r', hr'⟩ := requeueCurrent_returns env r
  simp [hr']

/-- It is placed, unless its subtitles are refused. -/
theorem placeVideo_some (env : Env) (subtitleUrl : Option String) (e : QueueEntry) (r : Room) :
    (((placeVideo env subtitleUrl (some e)).run r).state = r ∧
      ∃ error, withSubtitles subtitleUrl e.item = .error error) ∨
    (((placeVideo env subtitleUrl (some e)).run r).state.videoIds = e.videoId :: r.videoIds ∧
      ∃ item, withSubtitles subtitleUrl e.item = .ok item ∧ item.toVideoId = e.videoId) := by
  obtain ⟨error, error', hrun, hrefused⟩ | ⟨r', e', item, hrun, hids, hid, hitem, hitemId⟩ :=
    subtitleToPlay_cases subtitleUrl e r
  · refine .inl ⟨?_, error', hrefused⟩
    rw [placeVideo, Handler.run_bind, hrun]
    rfl
  · refine .inr ⟨?_, item, hitem, hitemId⟩
    rw [placeVideo, Handler.run_bind, hrun, Outcome.andThen_ok]
    show ((requeueCurrent env >>= fun _ => Handler.modify (putInPlace env (some e'))).run
      r').state.videoIds = _
    rw [requeueCurrent_bind, videoIds_putInPlace, hids]
    exact congrArg (· :: r.videoIds) hid

/-- Nothing was found: nothing plays, and what played is queued. -/
theorem placeVideo_none (env : Env) (subtitleUrl : Option String) (r : Room) :
    Fewer r ((placeVideo env subtitleUrl none).run r).state := by
  have hplaced : Fewer r ((requeueCurrent env >>= fun _ =>
      Handler.modify (putInPlace env none)).run r).state := by
    rw [requeueCurrent_bind]
    refine .of_perm ?_
    rw [videoIds_putInPlace]
    exact .refl _
  unfold placeVideo subtitleToPlay
  cases truthy subtitleUrl with
  | none => exact hplaced
  | some url =>
    dsimp only
    split <;> exact refl_of Fewer r

theorem playNow_adds (env : Env) (video : VideoAdd) (context : RoomRequestContext) (r : Room) :
    Adds (r.brought env context (.playNow video)) r ((playNow env video context).run r).state := by
  have hrun : (playNow env video context).run r =
      ((if r.currentSource.any (fun e => e.is video.toVideoId) then pure ()
        else checkGrant context.role (if r.isVideoInQueue video.toVideoId then
            "manage-queue.order" else "manage-queue.add") >>= fun _ =>
          fetchToPlay env video (r.isVideoInQueue video.toVideoId) >>= fun found =>
            placeVideo env video.subtitleUrl found : RoomM Unit).run r) := rfl
  rw [hrun]
  show Adds (if r.isVideoInQueue video.toVideoId = true ∨
    r.grants.granted context.role "manage-queue.add" = false then []
    else (foundVideo env video).toList) r _
  cases hqueued : r.isVideoInQueue video.toVideoId with
  | true =>
    rw [if_pos (Or.inl rfl), if_pos rfl]
    split
    · exact .refl r
    next hcurrent =>
    have hcontains : VideoQueue.contains r.queue video.toVideoId = true := by
      unfold isVideoInQueue at hqueued
      simpa [hcurrent] using hqueued
    rw [Handler.run_bind, run_checkGrant]
    split
    · obtain ⟨i, e, hget, -, hevict⟩ := VideoQueue.evict_of_contains hcontains
      let evicted := r.withQueue (⟨r.queue.eraseIdx i, true, .ok (i, e)⟩ : QueueStep (Nat × QueueEntry))
      have hfetch : (fetchToPlay env video true).run r = ⟨evicted, [], .ok (some e)⟩ := by
        simp [fetchToPlay, onQueue, hevict, evicted]
      rw [Outcome.andThen_ok, Handler.run_bind, hfetch, Outcome.andThen_ok]
      have hids : evicted.videoIds =
          r.currentSource.toList.map (·.videoId) ++ (r.queue.eraseIdx i).map (·.videoId) :=
        videoIds_withQueue r _
      have hback : (e.videoId :: evicted.videoIds).Perm r.videoIds := by
        rw [hids, videoIds_eq]
        exact List.perm_middle.symm.trans ((videoIds_evict hget).append_left _)
      refine .of_fewer ?_
      show Fewer r ((placeVideo env video.subtitleUrl (some e)).run evicted).state
      obtain ⟨hstate, -⟩ | ⟨hstate, -⟩ := placeVideo_some env video.subtitleUrl e evicted
      · rw [hstate]
        exact ((List.sublist_cons_self _ _).subperm).trans hback.subperm
      · refine .of_perm ?_
        rw [hstate]
        exact hback
    · exact .refl r
  | false =>
    have hcurrent : ¬ r.currentSource.any (fun e => e.is video.toVideoId) = true := by
      intro h
      rw [isVideoInQueue, h] at hqueued
      cases hqueued
    rw [if_neg hcurrent, if_neg (by simp : ¬ (false = true)), Handler.run_bind, run_checkGrant]
    cases hgranted : r.grants.granted context.role "manage-queue.add" with
    | false => simpa using Adds.refl r
    | true =>
      simp only [if_true, Outcome.andThen_ok, Handler.run_bind]
      rw [if_neg (by simp)]
      unfold foundVideo
      have hfetch : ∀ lookup, env.getVideoInfo video.toVideoId = lookup →
          (fetchToPlay env video false).run r =
            ⟨r, [], lookup.map (fun found => found.map (fun item => ⟨env.fresh, item⟩))⟩ := by
        rintro _ rfl
        unfold fetchToPlay
        cases env.getVideoInfo video.toVideoId <;> rfl
      cases hlookup : env.getVideoInfo video.toVideoId with
      | error e =>
        rw [hfetch _ hlookup]
        exact .refl r
      | ok found =>
        rw [hfetch _ hlookup]
        cases found with
        | none => exact .of_fewer (placeVideo_none env video.subtitleUrl r)
        | some item =>
          let entry : QueueEntry := ⟨env.fresh, item⟩
          show Adds _ r ((placeVideo env video.subtitleUrl (some entry)).run r).state
          obtain ⟨hstate, error, hrefused⟩ | ⟨hstate, item', hitem, hid⟩ :=
            placeVideo_some env video.subtitleUrl entry r
          · rw [hstate]
            change withSubtitles video.subtitleUrl item = .error error at hrefused
            simp only [hrefused]
            exact .refl r
          · change withSubtitles video.subtitleUrl item = .ok item' at hitem
            simp only [hitem, hid]
            refine .inr ?_
            rw [hstate]
            exact .refl _

/-! ### Undoing and restoring -/

theorem videoIds_pushTop (r : Room) (e : QueueEntry) :
    (r.withQueue (r.queue.pushTop [e])).queue.map (·.videoId) =
      e.videoId :: r.queue.map (·.videoId) := by
  rw [withQueue_queue]
  rfl

/-- Undoing a skip puts what plays onto the queue, and the video that it restores in its place. If it
restores none, what plays is there twice. -/
theorem undoSkip_adds (env : Env) (additional : RoomEventContext) (r : Room) :
    Adds (r.unskipped additional) r (undoSkip env additional r) := by
  obtain ⟨pushed, hpushed, hundo⟩ := undoSkip_cases env additional r
  have hsource : pushed.currentSource = r.currentSource := by
    rcases hpushed with ⟨-, rfl⟩ | ⟨current, -, rfl⟩
    · rfl
    · exact withQueue_currentSource _ _
  -- the current source is back on top of the queue
  have hqueue : pushed.queue.map (·.videoId) = r.videoIds := by
    rw [videoIds_eq]
    rcases hpushed with ⟨hc, rfl⟩ | ⟨current, hc, rfl⟩
    · rw [hc]
      rfl
    · rw [hc]
      exact videoIds_pushTop r current
  have hkept : Adds (r.currentSource.toList.map (·.videoId)) r pushed := by
    refine .inr ?_
    rw [videoIds_eq, hsource, hqueue]
  unfold unskipped
  rcases hundo with ⟨hnone, heq⟩ | ⟨video, position, hvideo, hposition, heq⟩
  · rw [heq]
    split
    · next hvideo hposition =>
      simp [hvideo, hposition] at hnone
    · exact hkept
  · rw [heq, hvideo, hposition]
    refine .inr ?_
    rw [videoIds_eq]
    show (video.toVideoId :: pushed.queue.map (·.videoId)).Perm _
    rw [hqueue]
    exact .refl _

theorem undoRemove_adds (env : Env) (video : VideoId) (additional : RoomEventContext)
    (context : RoomRequestContext) (r : Room) :
    Adds (r.reinserted additional) r
      ((undo env (.remove video) additional context).run r).state := by
  unfold reinserted
  change Adds _ r ((match additional.video, additional.queueIdx with
    | some video, some queueIdx =>
      Handler.unawaited (onQueue (·.insert ⟨env.fresh, video⟩ queueIdx))
    | _, _ => pure () : RoomM Unit).run r).state
  cases additional.video with
  | none => exact .refl r
  | some video =>
    cases additional.queueIdx with
    | none => exact .refl r
    | some queueIdx =>
      show Adds _ r (r.withQueue (r.queue.insert ⟨env.fresh, video⟩ queueIdx))
      unfold VideoQueue.insert
      dsimp only
      split
      · exact .refl r
      · refine .inr ?_
        let i := VideoQueue.spliceIndex queueIdx
        let entry : QueueEntry := ⟨env.fresh, video⟩
        rw [videoIds_withQueue, videoIds_eq]
        have hinsert : (r.queue.take i ++ [entry] ++ r.queue.drop i).Perm (entry :: r.queue) := by
          rw [List.append_assoc, List.singleton_append]
          refine List.perm_middle.trans ?_
          rw [List.take_append_drop]
        exact ((hinsert.map (·.videoId)).append_left _).trans List.perm_middle

theorem undo_adds (env : Env) (request : RoomRequest) (additional : RoomEventContext)
    (context : RoomRequestContext) (r : Room) :
    Adds (r.brought env context (.undo request additional)) r
      ((undo env request additional context).run r).state := by
  cases request with
  | skip => exact undoSkip_adds env additional r
  | remove video => exact undoRemove_adds env video additional context r
  | seek value =>
    refine .of_fewer ?_
    simp only [undo]
    cases truthyNumber additional.prevPosition with
    | none => exact refl_of Fewer r
    | some position => exact mediated_keeps (fewer_ignoresHead.seek env _ context) r
  | add video videos url =>
    refine .of_fewer ?_
    have hundo : (undo env (.add video videos url) additional context).Keeps Fewer := by
      refine .bind .get (fun r => ?_)
      split
      · exact mediated_keeps (removeFromQueue_fewer _ context)
      · refine .modify (fun r => ?_)
        show (List.map _ (none.toList ++ r.queue)).Subperm _
        rw [videoIds_eq]
        exact (List.sublist_append_right _ _).subperm
    exact hundo r
  | _ => exact .refl r

theorem restoreQueue_adds (env : Env) (discard : Bool) (context : RoomRequestContext) (r : Room) :
    Adds (r.brought env context (.restoreQueue discard)) r
      ((restoreQueue env discard).run r).state := by
  simp only [brought, restoreQueue, Handler.run_bind, Handler.run_get, Outcome.andThen_ok]
  cases r.prevQueue with
  | none => exact .refl r
  | some items =>
    dsimp only
    split
    · exact .of_fewer (.of_perm (.of_eq (videoIds_setPrevQueue r none)))
    · refine .inr ?_
      have hids : (restoredEntries env items).map (·.videoId) = items.map (·.toVideoId) := by
        refine List.ext_getElem (by simp [restoredEntries]) (fun i _ _ => ?_)
        simp [restoredEntries, QueueEntry.videoId]
      have hresult : ∀ videos, (r.queue.enqueue videos).result = .ok () := by
        intro videos
        unfold VideoQueue.enqueue
        split <;> rfl
      rw [Handler.run_bind, run_onQueue, hresult, Outcome.andThen_ok]
      show ((r.withQueue (r.queue.enqueue (restoredEntries env items))).setPrevQueue
        none).videoIds.Perm _
      rw [videoIds_setPrevQueue, ← hids]
      exact videoIds_enqueue r (restoredEntries env items)

/-! ## Every request -/

theorem handle_adds (env : Env) (request : RoomRequest) (context : RoomRequestContext) (r : Room) :
    Adds (r.brought env context request) r ((handle env request context).run r).state := by
  cases request with
  | add video videos url => exact addToQueue_adds env video videos url context r
  | playNow video => exact playNow_adds env video context r
  | undo request additional => exact undo_adds env request additional context r
  | restoreQueue discard => exact restoreQueue_adds env discard context r
  | join info => exact .of_fewer (joinRoom_keeps (fun _ _ => .of_same rfl rfl) env info context r)
  | leave => exact .of_fewer (leaveRoom_fewer context r)
  | playback state => exact .of_fewer (fewer_ignoresHead.playback env state context r)
  | skip => exact .of_fewer (skip_fewer env context r)
  | seek value => exact .of_fewer (fewer_ignoresHead.seek env value context r)
  | updateQueueItem video update => exact .of_fewer (updateQueueItem_fewer video update context r)
  | remove video => exact .of_fewer (removeFromQueue_fewer video context r)
  | order fromIdx toIdx => exact .of_fewer (reorderQueue_fewer fromIdx toIdx r)
  | vote video add => exact .of_fewer (vote_fewer video add context r)
  | promote target role => exact .of_fewer (promoteUser_fewer target role context r)
  | updateUser info => exact .of_fewer (updateUser_keeps (fun _ _ => .of_same rfl rfl) env info r)
  | chat text => exact .of_fewer (chat_keeps text context r)
  | applySettings settings => exact .of_fewer (applySettings_fewer settings context r)
  | shuffle => exact .of_fewer (shuffle_fewer env context r)
  | playbackSpeed speed => exact .of_fewer (fewer_ignoresHead.setPlaybackSpeedTo env speed r)
  | kick clientId => exact .of_fewer (kickUser_keeps clientId context r)

/-- **What a request adds** is what it brings in, if it is permitted. -/
theorem processRequest_adds (env : Env) (request : RoomRequest) (context : RoomRequestContext)
    (r : Room) :
    Adds (r.incoming env request context) r ((processRequest env request context).run r).state := by
  unfold incoming processRequest
  obtain ⟨hpermitted, hrun⟩ | ⟨hdenied, hstate⟩ :=
    mediated_cases request context (handle env request context) r
  · rw [if_pos hpermitted, hrun]
    exact handle_adds env request context r
  · rw [if_neg hdenied, hstate]
    exact .refl r

end Room

namespace Duplicates

open Room

/-- One step keeps the videos distinct exactly if what it brings in is fresh. -/
theorem step_distinct_iff {w w' : World} {e : Event} (hw : w.room.Distinct)
    (hstep : system.step w e = some w') : w'.room.Distinct ↔ Fresh w e := by
  change w.step e = some w' at hstep
  cases e with
  | request env request context =>
    simp only [World.step] at hstep
    split at hstep <;> cases hstep
    exact (processRequest_adds env request context w.room).keeps_distinct_iff hw
  | update env =>
    cases hstep
    exact (Adds.of_fewer (update_fewer env w.room)).keeps_distinct_iff hw |>.trans
      (iff_of_true hw trivial)

/-- **No video is queued twice exactly in the runs from a room without duplicates whose steps bring
in only videos that are new.** -/
theorem distinct_iff (r : Room) (es : List Event) :
    system.Always (fun w => w.room.Distinct) ⟨r, []⟩ es ↔
      r.Distinct ∧ system.Along Fresh ⟨r, []⟩ es := by
  have hruns : ∀ hr : r.Distinct, system.Always (fun w => w.room.Distinct) ⟨r, []⟩ es ↔
      system.Along Fresh ⟨r, []⟩ es :=
    fun hr => Machine.always_iff_along (fun _ _ _ => step_distinct_iff) hr
  exact ⟨fun h => ⟨h.head, (hruns h.head).mp h⟩, fun ⟨hr, h⟩ => (hruns hr).mpr h⟩

/-- A lookup that returns each video of a list as it was asked for. -/
def listingEnv : Env :=
  { emptyEnv 0 with
    getManyVideoInfo := fun videos => .ok (videos.mapIdx (fun i video =>
      some ⟨i, .ofVideoId video.toVideoId⟩)) }

/-- **A list that names one video twice is queued with both.** -/
theorem not_distinct_throughout :
    ¬ ∀ (name : String) (now : Time) (es : List Event),
      system.Always (fun w => w.room.Distinct) ⟨Room.new name now, []⟩ es := by
  intro h
  let video : VideoAdd := ⟨⟨.youtube, "a"⟩, none, none, none⟩
  have hrun : ∃ w ∈ system.run ⟨Room.new "foo" 0, []⟩
      [.request listingEnv (.add none (some [video, video]) none) ⟨"owner", .owner, none, none⟩],
      ¬ w.room.Distinct := by
    decide +kernel
  obtain ⟨w, hw, hdouble⟩ := hrun
  exact hdouble ((h "foo" 0 _).last hw)

end Duplicates

end OpenTogetherTube.Server
