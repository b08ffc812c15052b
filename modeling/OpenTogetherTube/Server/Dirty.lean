import OpenTogetherTube.Server.Requests

/-!
# Dirty tracking

A room sends its clients the properties it has marked dirty, so a change that marks nothing never
reaches them. `Complete` says of two states that the second has marked every syncable property whose
serialized value differs from the first's.

`Tracked now S r r'` is the relation the proofs run on: the marks only grow, and what is neither
marked nor in the set `S` has kept its value. It is a preorder, so an operation has it as soon as
each of its steps does, and a property in `S` may change unmarked for a while as long as it is
marked in the end (`Tracked.marked`). Values are compared at the operation's own time, which is what
the passing of time accounts for.

Three operations do not have it for `S = ∅`: shuffling, the setting `restoreQueueBehavior`, and
updating a queue item whose object is also playing; and `dequeueNext` does not when there is nothing
to play and nothing playing. `complete_iff` says when exactly the marks are complete.
-/

namespace OpenTogetherTube.Server

open OpenTogetherTube.Common OpenTogetherTube.Lib

namespace Room

/-- Everything that differs is marked. -/
def Complete (now : Time) (r r' : Room) : Prop :=
  ∀ prop ∉ r'.dirty, r'.syncableAt now prop = r.syncableAt now prop

/-- The marks grow, and what is neither marked nor in `S` is as it was. -/
structure Tracked (now : Time) (S : Set SyncProp) (r r' : Room) : Prop where
  marks : r.dirty ⊆ r'.dirty
  same : ∀ prop ∉ r'.dirty, prop ∉ S → r'.syncableAt now prop = r.syncableAt now prop

variable {now : Time} {S : Set SyncProp} {r r' : Room}

instance : IsPreorder Room (Tracked now S) where
  refl _ := ⟨Finset.Subset.refl _, fun _ _ _ => rfl⟩
  trans _ _ _ h h' := ⟨h.marks.trans h'.marks, fun prop hp hS =>
    (h'.same prop hp hS).trans (h.same prop (fun hm => hp (h'.marks hm)) hS)⟩

namespace Tracked

theorem mono {S' : Set SyncProp} (h : Tracked now S r r') (hS : S ⊆ S') : Tracked now S' r r' :=
  ⟨h.marks, fun prop hp hS' => h.same prop hp (fun hm => hS' (hS hm))⟩

/-- A property that is marked in the end may have changed. -/
theorem marked (prop : SyncProp) (h : Tracked now (insert prop S) r r') (hp : prop ∈ r'.dirty) :
    Tracked now S r r' := by
  refine ⟨h.marks, fun prop' hp' hS => h.same prop' hp' ?_⟩
  rintro (rfl | hm)
  · exact hp' hp
  · exact hS hm

/-- A property that has its old value in the end may have changed in between. -/
theorem restored (prop : SyncProp) (h : Tracked now (insert prop S) r r')
    (hp : r'.syncableAt now prop = r.syncableAt now prop) : Tracked now S r r' := by
  refine ⟨h.marks, fun prop' hp' hS => ?_⟩
  by_cases heq : prop' = prop
  · subst heq
    exact hp
  · exact h.same prop' hp' (fun hm => hm.elim heq hS)

/-- Nothing is marked, and nothing outside `S` changes. -/
theorem unmarked (hd : r'.dirty = r.dirty)
    (h : ∀ prop ∉ S, r'.syncableAt now prop = r.syncableAt now prop) : Tracked now S r r' :=
  ⟨hd ▸ Finset.Subset.refl _, fun prop _ hS => h prop hS⟩

/-- One property is marked, and nothing else outside `S` changes. -/
theorem mark {prop : SyncProp} (hd : r'.dirty = r.dirty)
    (h : ∀ prop' ∉ S, prop' ≠ prop → r'.syncableAt now prop' = r.syncableAt now prop') :
    Tracked now S r (r'.markDirty prop) := by
  refine ⟨?_, fun prop' hp' hS => ?_⟩
  · rw [← hd]
    exact Finset.subset_insert _ _
  · have hne : prop' ≠ prop := by
      rintro rfl
      exact hp' (Finset.mem_insert_self _ _)
    rw [← h prop' hS hne]
    cases prop' <;> rfl

theorem complete_iff_of_singleton {prop : SyncProp} (h : Tracked now {prop} r r') :
    Complete now r r' ↔ (prop ∉ r'.dirty → r'.syncableAt now prop = r.syncableAt now prop) := by
  constructor
  · exact fun hc => hc prop
  · intro hp prop' hd
    by_cases heq : prop' = prop
    · subst heq
      exact hp hd
    · exact h.same prop' hd heq

theorem complete (h : Tracked now ∅ r r') : Complete now r r' :=
  fun prop hp => h.same prop hp (fun hm => hm)

end Tracked

/-! ## The setters mark what they set -/

section Setters

theorem setTitle_tracked (value : String) : Tracked now S r (r.setTitle value) :=
  .mark rfl (fun prop _ hne => by cases prop <;> first | exact absurd rfl hne | rfl)

theorem setDescription_tracked (value : String) : Tracked now S r (r.setDescription value) :=
  .mark rfl (fun prop _ hne => by cases prop <;> first | exact absurd rfl hne | rfl)

theorem setVisibility_tracked (value : Visibility) : Tracked now S r (r.setVisibility value) :=
  .mark rfl (fun prop _ hne => by cases prop <;> first | exact absurd rfl hne | rfl)

theorem setQueueMode_tracked (value : QueueMode) : Tracked now S r (r.setQueueMode value) :=
  .mark rfl (fun prop _ hne => by cases prop <;> first | exact absurd rfl hne | rfl)

theorem setAutoSkipSegmentCategories_tracked (value : List Category) :
    Tracked now S r (r.setAutoSkipSegmentCategories value) :=
  .mark rfl (fun prop _ hne => by cases prop <;> first | exact absurd rfl hne | rfl)

theorem setEnableVoteSkip_tracked (value : Bool) : Tracked now S r (r.setEnableVoteSkip value) :=
  .mark rfl (fun prop _ hne => by cases prop <;> first | exact absurd rfl hne | rfl)

theorem setCurrentSource_tracked (value : Option QueueEntry) :
    Tracked now S r (r.setCurrentSource value) :=
  .mark rfl (fun prop _ hne => by cases prop <;> first | exact absurd rfl hne | rfl)

theorem setPlaybackPosition_tracked (value : ℚ) :
    Tracked now S r (r.setPlaybackPosition value) :=
  .mark rfl (fun prop _ hne => by cases prop <;> first | exact absurd rfl hne | rfl)

theorem setVideoSegments_tracked (value : List Segment) :
    Tracked now S r (r.setVideoSegments value) :=
  .mark rfl (fun prop _ hne => by cases prop <;> first | exact absurd rfl hne | rfl)

theorem setVotesToSkip_tracked (value : OrderedSet ClientId) :
    Tracked now S r (r.setVotesToSkip value) :=
  .mark rfl (fun prop _ hne => by cases prop <;> first | exact absurd rfl hne | rfl)

theorem setPrevQueue_tracked (value : Option (List QueueItem)) :
    Tracked now S r (r.setPrevQueue value) := by
  unfold setPrevQueue
  split
  · exact refl_of (Tracked now S) r
  · exact .mark rfl (fun prop _ hne => by cases prop <;> first | exact absurd rfl hne | rfl)

theorem markDirty_tracked (prop : SyncProp) : Tracked now S r (r.markDirty prop) :=
  .mark rfl (fun _ _ _ => rfl)

/-- Playing, the speed and the start of playback move the playback head. -/
theorem setIsPlaying_tracked (hS : .playbackPosition ∈ S) (value : Bool) :
    Tracked now S r (r.setIsPlaying value) :=
  .mark rfl (fun prop hp hne => by
    cases prop <;> first | exact absurd rfl hne | exact absurd hS hp | rfl)

theorem setPlaybackSpeed_tracked (hS : .playbackPosition ∈ S) (value : ℚ) :
    Tracked now S r (r.setPlaybackSpeed value) :=
  .mark rfl (fun prop hp hne => by
    cases prop <;> first | exact absurd rfl hne | exact absurd hS hp | rfl)

theorem setPlaybackStart_tracked (hS : .playbackPosition ∈ S) (value : Option Time) :
    Tracked now S r (r.setPlaybackStart value) :=
  .unmarked rfl (fun prop hp => by cases prop <;> first | exact absurd hS hp | rfl)

/-- The one setting without a setter. -/
theorem setRestoreQueueBehavior_tracked (hS : .restoreQueueBehavior ∈ S) (value : BehaviorOption) :
    Tracked now S r (r.setRestoreQueueBehavior value) :=
  .unmarked rfl (fun prop hp => by cases prop <;> first | exact absurd hS hp | rfl)

theorem mutateCurrent_tracked (hS : .currentSource ∈ S) (object : ObjectId)
    (f : QueueItem → QueueItem) : Tracked now S r (r.mutateCurrent object f) :=
  .unmarked rfl (fun prop hp => by cases prop <;> first | exact absurd hS hp | rfl)

theorem mutate_tracked (hS : .currentSource ∈ S) (hS' : .queue ∈ S) (object : ObjectId)
    (f : QueueItem → QueueItem) : Tracked now S r (r.mutate object f) :=
  .unmarked rfl (fun prop hp => by
    cases prop <;> first | exact absurd hS hp | exact absurd hS' hp | rfl)

/-- A queue operation that tells the room what it changes. -/
theorem withQueue_tracked {α : Type} (r : Room) {step : QueueStep α} (h : step.Told r.queue) :
    Tracked now S r (r.withQueue step) := by
  unfold withQueue
  split
  · exact .mark rfl (fun prop _ hne => by cases prop <;> first | exact absurd rfl hne | rfl)
  · next hd =>
    have hitems : step.items.map (·.item) = r.queue.map (·.item) := h.resolve_left hd
    refine .unmarked rfl (fun prop _ => ?_)
    cases prop <;> first | rfl | exact hitems

/-- Any queue operation, when the queue may change unmarked. -/
theorem withQueue_tracked_of_mem {α : Type} (hS : .queue ∈ S) (step : QueueStep α) :
    Tracked now S r (r.withQueue step) := by
  unfold withQueue
  split
  · exact .mark rfl (fun prop _ hne => by cases prop <;> first | exact absurd rfl hne | rfl)
  · exact .unmarked rfl (fun prop hp => by cases prop <;> first | exact absurd hS hp | rfl)

end Setters

theorem onQueue_tracked {α : Type} {op : VideoQueue → QueueStep α}
    (h : ∀ q, (op q).Told q) : (onQueue op).Keeps (Tracked now S) :=
  onQueue_keeps withQueue_tracked h

/-! ## Playing the next video -/

theorem dropVideoSegments_tracked : Tracked now S r r.dropVideoSegments :=
  dropVideoSegments_keeps (fun _ segments => setVideoSegments_tracked segments) r

theorem startSource_tracked (start : Time) (source : Option QueueEntry) (position : ℚ) :
    Tracked now S r (r.startSource start source position) ∧
      .playbackPosition ∈ (r.startSource start source position).dirty := by
  have hmark : .playbackPosition ∈ (r.startSource start source position).dirty :=
    Finset.mem_insert_self _ _
  have hsource : Tracked now (insert .playbackPosition S) r (r.setCurrentSource source) :=
    setCurrentSource_tracked source
  exact ⟨.marked .playbackPosition (trans_of _ (trans_of _ hsource
    (setPlaybackPosition_tracked position)) (setPlaybackStart_tracked (Set.mem_insert _ _) _)) hmark,
    hmark⟩

/-- There is something to play, or something that plays. -/
def HasNext (r : Room) : Prop := r.currentSource ≠ none ∨ r.queue ≠ []

theorem advance_tracked (start : Time) :
    Tracked now (insert .playbackPosition S) r (r.advance start) ∧
      (r.HasNext → .playbackPosition ∈ (r.advance start).dirty) := by
  unfold advance
  cases hq : r.queue with
  | cons head tail =>
    dsimp only
    have hqueue : Tracked now (insert .playbackPosition S) r
        (r.withQueue (VideoQueue.dequeue (head :: tail))) := withQueue_tracked _ (.inl rfl)
    have hstart := @startSource_tracked now (insert .playbackPosition S)
      (r.withQueue (VideoQueue.dequeue (head :: tail))) start (some head)
      (head.item.startAt.getD 0)
    have hdrop := @dropVideoSegments_tracked now (insert .playbackPosition S)
      ((r.withQueue (VideoQueue.dequeue (head :: tail))).startSource start (some head)
        (head.item.startAt.getD 0))
    exact ⟨trans_of _ hqueue (trans_of _ hstart.1 hdrop), fun _ => hdrop.marks hstart.2⟩
  | nil =>
    dsimp only
    split
    · have hplaying : Tracked now (insert .playbackPosition S) r
          (if r.isPlaying = true then r.setIsPlaying false else r) := by
        split
        · exact setIsPlaying_tracked (Set.mem_insert _ _) false
        · exact refl_of (Tracked now (insert .playbackPosition S)) r
      generalize (if r.isPlaying = true then r.setIsPlaying false else r) = stopped at hplaying ⊢
      exact ⟨trans_of _ hplaying (trans_of _ (trans_of _ (setPlaybackPosition_tracked 0)
        (setPlaybackStart_tracked (Set.mem_insert _ _) _)) (setCurrentSource_tracked none)),
        fun _ => by simp [setCurrentSource, setPlaybackStart, setPlaybackPosition, markDirty]⟩
    · next hc => exact ⟨refl_of _ r, fun h => h.elim (fun h => by simp_all) (absurd hq)⟩

theorem afterAdvance_tracked (env : Env) :
    Tracked now (insert .playbackPosition S) r (afterAdvance env r) := by
  have hwant : ∀ r : Room, Tracked now (insert .playbackPosition S) r
      (if env.sponsorblockEnabled = true ∧ r.autoSkipSegmentCategories.length > 0 ∧
        r.currentSource.isSome = true then { r with wantSponsorBlock := true } else r) := by
    intro r
    split
    · exact .unmarked rfl (fun prop _ => by cases prop <;> rfl)
    · exact refl_of (Tracked now (insert .playbackPosition S)) r
  have hdrop : ∀ r : Room, Tracked now (insert .playbackPosition S) r
      (if r.currentSource = none then r.dropVideoSegments else r) := by
    intro r
    split
    · exact dropVideoSegments_tracked
    · exact refl_of (Tracked now (insert .playbackPosition S)) r
  exact trans_of _ (hwant r) (trans_of _ (hdrop _)
    (setPlaybackSpeed_tracked (Set.mem_insert _ _) 1))

/-- Going on to the next video may move the playback head unmarked only if there is none. -/
theorem playNext_tracked (env : Env) :
    Tracked now (insert .playbackPosition S) r (afterAdvance env (r.advance env.now)) ∧
      (r.HasNext → .playbackPosition ∈ (afterAdvance env (r.advance env.now)).dirty) := by
  have hadvance := @advance_tracked now S r env.now
  have hafter := @afterAdvance_tracked now S (r.advance env.now) env
  exact ⟨trans_of _ hadvance.1 hafter, fun h => hafter.marks (hadvance.2 h)⟩

theorem clearVotes_tracked : Tracked now S r r.clearVotes :=
  clearVotes_keeps (fun _ value => setVotesToSkip_tracked value) r

theorem clearVotes_hasNext : r.clearVotes.HasNext ↔ r.HasNext := by
  unfold clearVotes
  split <;> exact Iff.rfl

/-- Going on to the next video marks all it changes if there is one, or one to end. -/
theorem playNext_tracked_of_hasNext (env : Env) (h : r.HasNext) :
    Tracked now S r (afterAdvance env (r.advance env.now)) :=
  (playNext_tracked env).1.marked _ ((@playNext_tracked now S r env).2 h)

theorem replaced_tracked (env : Env) (current : QueueEntry) (h : r.HasNext) :
    Tracked now S r (r.replaced env current) := by
  unfold replaced
  dsimp only
  split
  · exact refl_of (Tracked now S) r
  cases r.queueMode with
  | manual => exact playNext_tracked_of_hasNext env h
  | vote => exact playNext_tracked_of_hasNext env h
  | dj => exact (startSource_tracked env.now _ 0).1
  | loop =>
    have hqueued : (r.withQueue (r.queue.enqueue
        [⟨env.fresh, clearQueueItemTrim current.item⟩])).HasNext :=
      .inr (by simp [withQueue, VideoQueue.enqueue, markDirty])
    exact trans_of _ (withQueue_tracked _ (VideoQueue.enqueue_told _ _))
      (playNext_tracked_of_hasNext env hqueued)

theorem dequeueNext_tracked (env : Env) (h : r.HasNext) :
    Tracked env.now S r ((dequeueNext env).run r).state := by
  have hcleared := clearVotes_hasNext.mpr h
  cases hc : r.currentSource with
  | none =>
    rw [dequeueNext_state_none env hc]
    exact trans_of _ clearVotes_tracked (playNext_tracked_of_hasNext env hcleared)
  | some current =>
    rw [dequeueNext_state env hc]
    exact trans_of _ clearVotes_tracked (replaced_tracked env current hcleared)

/-! ## Playback requests -/

/-- Playback that starts now starts from where the playback head is. -/
theorem play_tracked (env : Env) : (play env).Keeps (Tracked env.now S) := by
  intro r
  simp only [play, Handler.run_bind, Handler.run_get, Outcome.andThen_ok, Handler.run_when]
  split
  · next hstopped =>
    have hmoved : Tracked env.now (insert .playbackPosition S) r
        ((r.setIsPlaying true).setPlaybackStart (some env.now)) :=
      trans_of _ (setIsPlaying_tracked (Set.mem_insert _ _) true)
        (setPlaybackStart_tracked (Set.mem_insert _ _) _)
    refine hmoved.restored .playbackPosition ?_
    show realPlaybackPosition _ _ = realPlaybackPosition _ _
    simp [realPlaybackPosition, calcDurationFromPlaybackStart, setIsPlaying,
      setPlaybackStart, markDirty, calculateCurrentPosition_self, hstopped]
  · exact refl_of (Tracked env.now S) r

/-- Where the playback head is becomes where playback starts from; what then changes how it moves
has marked the position. -/
theorem flush_tracked (env : Env) {f : Room → Room}
    (hf : ∀ r, Tracked env.now (insert .playbackPosition S) r (f r)) :
    (flushPlaybackPosition env >>= fun _ => Handler.modify f).Keeps (Tracked env.now S) := by
  rw [flushPlaybackPosition, Handler.bind_assoc]
  refine .bind (countSecondsWatched_keeps env) (fun _ r => ?_)
  generalize hflushed : (r.setPlaybackPosition (r.realPlaybackPosition env.now)).setPlaybackStart
    (some env.now) = flushed
  have hmark : .playbackPosition ∈ flushed.dirty := by
    rw [← hflushed]
    exact Finset.mem_insert_self _ _
  have htracked : Tracked env.now (insert .playbackPosition S) r flushed := by
    rw [← hflushed]
    exact trans_of _ (setPlaybackPosition_tracked _) (setPlaybackStart_tracked (Set.mem_insert _ _) _)
  simp only [Handler.run_bind, Handler.run_modify, Outcome.andThen_ok, hflushed]
  exact (trans_of _ htracked (hf flushed)).marked _ ((hf flushed).marks hmark)

theorem pause_tracked (env : Env) : (pause env).Keeps (Tracked env.now S) :=
  .bind .get (fun _ => .when (fun _ => flush_tracked env (fun _ =>
    trans_of _ (setPlaybackStart_tracked (Set.mem_insert _ _) none)
      (setIsPlaying_tracked (Set.mem_insert _ _) false))))

theorem setPlaybackSpeedTo_tracked (env : Env) (speed : ℚ) :
    (setPlaybackSpeedTo env speed).Keeps (Tracked env.now S) :=
  flush_tracked env (fun _ => setPlaybackSpeed_tracked (Set.mem_insert _ _) speed)

theorem playback_tracked (env : Env) (state : Bool) (context : RoomRequestContext) :
    (playback env state context).Keeps (Tracked env.now S) := by
  cases state with
  | true => exact .bind (play_tracked env) (fun _ => publishRoomEvent_keeps _ _ _)
  | false => exact .bind (pause_tracked env) (fun _ => publishRoomEvent_keeps _ _ _)

theorem seekRaw_tracked (env : Env) (value : ℚ) : (seekRaw env value).Keeps (Tracked env.now S) :=
  .bind (countSecondsWatched_keeps env) (fun _ => .modify (fun _ => .marked .playbackPosition
    (trans_of _ (setPlaybackPosition_tracked value)
      (setPlaybackStart_tracked (Set.mem_insert _ _) _)) (Finset.mem_insert_self _ _)))

theorem seek_tracked (env : Env) (value : Option ℚ) (context : RoomRequestContext) :
    (seek env value context).Keeps (Tracked env.now S) := by
  unfold seek
  cases value with
  | none => exact .pure ()
  | some position =>
    exact .bind .get (fun _ => .bind (seekRaw_tracked env position) (fun _ =>
      .bind (publishRoomEvent_keeps _ _ _) (fun _ => .modify (fun _ =>
        .unmarked rfl (fun prop _ => by cases prop <;> rfl)))))

theorem voteToSkip_tracked (context : RoomRequestContext) :
    Tracked now S r (r.voteToSkip context) :=
  voteToSkip_keeps (fun _ value => setVotesToSkip_tracked value) context r

theorem skip_tracked (env : Env) (context : RoomRequestContext) :
    (skip env context).Keeps (Tracked env.now S) := by
  refine .get_bind (fun r => ?_)
  cases hc : r.currentSource with
  | none => exact refl_of (Tracked env.now S) r
  | some current =>
    have hvoted : (r.voteToSkip context).HasNext := by
      obtain ⟨-, h⟩ | ⟨-, votes, dirty, h⟩ := voteToSkip_cases context r
      · exact .inl (by rw [h, hc]; exact Option.some_ne_none _)
      · exact .inl (by rw [h]; show r.currentSource ≠ none; rw [hc]; exact Option.some_ne_none _)
    simp only [Handler.run_bind, Handler.run_modify, Outcome.andThen_ok, Handler.run_get,
      Handler.run_when]
    refine trans_of _ (voteToSkip_tracked context) ?_
    split
    · exact Handler.Keeps.bind_at (dequeueNext_tracked env hvoted) (fun _ =>
        .bind (publishRoomEvent_keeps _ _ _) (fun _ => .modify (fun _ =>
          setVideoSegments_tracked [])))
    · exact refl_of (Tracked env.now S) _

/-! ## Queue requests -/

theorem addToQueue_tracked (env : Env) (video : Option VideoAdd) (videos : Option (List VideoAdd))
    (url : Option String) (context : RoomRequestContext) :
    (addToQueue env video videos url context).Keeps (Tracked now S) :=
  addToQueue_keeps withQueue_tracked (fun _ => setPrevQueue_tracked none) env video videos url
    context

theorem removeFromQueue_tracked (video : VideoId) (context : RoomRequestContext) :
    (removeFromQueue video context).Keeps (Tracked now S) :=
  removeFromQueue_keeps withQueue_tracked video context

theorem requeueCurrent_tracked (env : Env) (hS : .currentSource ∈ S) (hS' : .queue ∈ S) :
    (requeueCurrent env).Keeps (Tracked now S) :=
  requeueCurrent_keeps withQueue_tracked (fun _ object f _ => mutate_tracked hS hS' object f) env

/-- The video that is put into place is marked, and so is the queue. -/
theorem putInPlace_tracked (env : Env) (videoToPlay : Option QueueEntry) :
    Tracked now (insert .playbackPosition S) r (putInPlace env videoToPlay r) ∧
      ∀ prop ∈ [SyncProp.currentSource, .queue, .playbackPosition],
        prop ∈ (putInPlace env videoToPlay r).dirty := by
  have hplaced : Tracked now (insert .playbackPosition S) r
      (((((r.setCurrentSource videoToPlay).markDirty .queue).setPlaybackPosition 0).setPlaybackStart
        (some env.now)).setVideoSegments []) :=
    trans_of _ (setCurrentSource_tracked videoToPlay) (trans_of _ (markDirty_tracked .queue)
      (trans_of _ (setPlaybackPosition_tracked 0) (trans_of _
        (setPlaybackStart_tracked (Set.mem_insert _ _) _) (setVideoSegments_tracked []))))
  unfold putInPlace
  dsimp only
  generalize hplace : ((((r.setCurrentSource videoToPlay).markDirty .queue).setPlaybackPosition
    0).setPlaybackStart (some env.now)).setVideoSegments [] = placed at hplaced ⊢
  have hmark : ∀ prop ∈ [SyncProp.currentSource, .queue, .playbackPosition],
      prop ∈ placed.dirty := by
    rw [← hplace]
    simp [setVideoSegments, setPlaybackStart, setPlaybackPosition, setCurrentSource, markDirty]
  split
  · have hwant : Tracked now (insert .playbackPosition S) placed
        { placed with wantSponsorBlock := true } :=
      .unmarked rfl (fun prop _ => by cases prop <;> rfl)
    exact ⟨trans_of _ hplaced hwant, hmark⟩
  · exact ⟨hplaced, hmark⟩

/-- The end of `playNow`: what was changed in objects before is marked by it. -/
theorem playNow_end_tracked (env : Env) (videoToPlay : Option QueueEntry) {r' : Room}
    (h : Tracked env.now (insert .currentSource (insert .queue S)) r r') :
    Tracked env.now S r ((requeueCurrent env >>= fun _ =>
      Handler.modify (putInPlace env videoToPlay)).run r').state := by
  have hrequeue := @requeueCurrent_tracked env.now
    (insert .currentSource (insert .queue S)) env (Set.mem_insert _ _)
    (Set.mem_insert_of_mem _ (Set.mem_insert _ _)) r'
  obtain ⟨r'', hrun⟩ := requeueCurrent_returns env r'
  rw [hrun] at hrequeue
  simp only [Handler.run_bind, hrun, Outcome.andThen_ok, Handler.run_modify]
  obtain ⟨hplace, hmark⟩ := @putInPlace_tracked env.now
    (insert .currentSource (insert .queue S)) r'' env videoToPlay
  have hall := trans_of _ (h.mono (Set.subset_insert .playbackPosition _))
    (trans_of _ (hrequeue.mono (Set.subset_insert .playbackPosition _)) hplace)
  exact ((hall.marked _ (hmark _ (by simp))).marked _ (hmark _ (by simp))).marked _
    (hmark _ (by simp))

theorem playNow_tracked (env : Env) (video : VideoAdd) (context : RoomRequestContext) :
    (playNow env video context).Keeps (Tracked env.now S) := by
  refine .bind .get (fun r => ?_)
  dsimp only
  split
  · exact .pure ()
  refine .bind (checkGrant_keeps _ _) (fun _ =>
    .bind (fetchToPlay_keeps withQueue_tracked env video _) (fun found r => ?_))
  have hrefl := refl_of (Tracked env.now (insert .currentSource (insert .queue S))) r
  unfold subtitleToPlay
  cases truthy video.subtitleUrl with
  | none => exact playNow_end_tracked env found hrefl
  | some url =>
    dsimp only
    split
    · exact refl_of (Tracked env.now S) r
    · cases found with
      | none => exact refl_of (Tracked env.now S) r
      | some found =>
        exact playNow_end_tracked env _ (mutate_tracked (Set.mem_insert _ _)
          (Set.mem_insert_of_mem _ (Set.mem_insert _ _)) _ _)

theorem restoreQueue_tracked (env : Env) (discard : Bool) :
    (restoreQueue env discard).Keeps (Tracked now S) :=
  restoreQueue_keeps withQueue_tracked (fun _ => setPrevQueue_tracked none) env discard

/-! ## Votes and users -/

theorem castVote_tracked (video : VideoId) (add : Bool) (client : ClientId)
    (hS : .voteCounts ∈ S) : Tracked now S r (r.castVote video add client) :=
  castVote_keeps (fun _ _ => .unmarked rfl (fun prop hp => by
    cases prop <;> first | exact absurd hS hp | rfl)) r video add client

theorem vote_tracked (video : VideoId) (add : Bool) (context : RoomRequestContext) :
    (vote video add context).Keeps (Tracked now S) :=
  vote_keeps (fun _ client => .marked .voteCounts (trans_of _
    (castVote_tracked video add client (Set.mem_insert _ _)) (markDirty_tracked .voteCounts))
    (Finset.mem_insert_self _ _)) context

/-- Taking a client's votes away changes no count unless it voted for something. -/
theorem dropVotes_tracked (client : ClientId) : Tracked now S r (r.dropVotes client) := by
  unfold dropVotes
  split
  · have hvotes : Tracked now (insert .voteCounts S) r
        { r with votes := r.votes.mapValues (fun _ set => set.delete client) } :=
      .unmarked rfl (fun prop hp => by
        cases prop <;> first | exact absurd (Set.mem_insert _ _) hp | rfl)
    dsimp only
    split
    · exact (trans_of _ hvotes (markDirty_tracked .voteCounts)).marked .voteCounts
        (Finset.mem_insert_self _ _)
    · next hvoted =>
      refine hvotes.restored .voteCounts ?_
      show (r.votes.mapValues _).entries.map _ = r.votes.entries.map _
      simp only [OrderedMap.mapValues, List.map_map]
      refine List.map_congr_left (fun e he => ?_)
      have hnot : e.2.has client = false := by
        by_contra h
        exact hvoted (List.any_eq_true.mpr ⟨e, he, by simpa using h⟩)
      simp [OrderedSet.delete_of_not_has hnot]
  · exact refl_of (Tracked now S) r

theorem joinRoom_tracked (env : Env) (info : ClientInfo) (context : RoomRequestContext) :
    (joinRoom env info context).Keeps (Tracked now S) :=
  joinRoom_keeps (fun _ _ => .unmarked rfl (fun prop _ => by cases prop <;> rfl)) env info context

theorem leaveRoom_tracked (context : RoomRequestContext) :
    (leaveRoom context).Keeps (Tracked now S) :=
  leaveRoom_keeps (fun _ value => setVotesToSkip_tracked value)
    (fun _ client => dropVotes_tracked client)
    (fun _ _ => .unmarked rfl (fun prop _ => by cases prop <;> rfl)) context

theorem updateUser_tracked (env : Env) (info : ClientInfo) :
    (updateUser env info).Keeps (Tracked now S) :=
  updateUser_keeps (fun _ _ => .unmarked rfl (fun prop _ => by cases prop <;> rfl)) env info

/-- Roles are not sent to the clients as a property of the room. -/
theorem promoteUser_tracked (targetClientId : ClientId) (role : Int)
    (context : RoomRequestContext) :
    (promoteUser targetClientId role context).Keeps (Tracked now S) := by
  apply promoteUser_keeps
  exact promoted_keeps (fun _ _ _ => .unmarked rfl (fun prop _ => by cases prop <;> rfl))

/-! ## Settings -/

theorem applySetting_tracked (setting : RoomSetting) (hS : .restoreQueueBehavior ∈ S) :
    Tracked now S r (r.applySetting setting) := by
  cases setting with
  | title v => exact setTitle_tracked v
  | description v => exact setDescription_tracked v
  | visibility v => exact setVisibility_tracked v
  | queueMode v => exact setQueueMode_tracked v
  | autoSkipSegmentCategories v => exact setAutoSkipSegmentCategories_tracked v
  | restoreQueueBehavior v => exact setRestoreQueueBehavior_tracked hS v
  | enableVoteSkip v => exact setEnableVoteSkip_tracked v

/-- Whatever grants take the place of the old ones. -/
theorem replaceGrants_tracked (grants : Grants) :
    Tracked now S r ({ r with grants := grants }.markDirty .grants) :=
  .mark rfl (fun prop _ hne => by cases prop <;> first | exact absurd rfl hne | rfl)

theorem applyMask_tracked (mask : Role × GrantMask) : Tracked now S r (r.applyMask mask) :=
  replaceGrants_tracked _

theorem applySettings_tracked (settings : RoomSettingsPatch) (context : RoomRequestContext) :
    (applySettings settings context).Keeps (Tracked now {.restoreQueueBehavior}) :=
  applySettings_keeps (R := Tracked now {.restoreQueueBehavior})
    (fun _ setting => applySetting_tracked setting rfl)
    (fun _ mask _ => applyMask_tracked mask)
    (fun _ => .unmarked rfl (fun prop _ => by cases prop <;> rfl)) settings context

/-! ## Undoing, and the periodic update -/

theorem undo_tracked (env : Env) (request : RoomRequest) (additional : RoomEventContext)
    (context : RoomRequestContext) :
    (undo env request additional context).Keeps (Tracked env.now S) :=
  undo_keeps withQueue_tracked (fun value => seek_tracked env value context)
    (fun additional r => undoSkip_keeps withQueue_tracked (fun _ source position =>
      trans_of _ (setCurrentSource_tracked source) (setPlaybackPosition_tracked position)) env
        additional r) (fun _ => setCurrentSource_tracked none) request additional

theorem updateRest_tracked (env : Env) : (updateRest env).Keeps (Tracked env.now S) := by
  apply updateRest_keeps
  · exact fun _ _ _ _ => .unmarked rfl (fun prop _ => by cases prop <;> rfl)
  · exact sortByVotes_keeps withQueue_tracked
  · exact fun _ segments => setVideoSegments_tracked segments
  · exact seekRaw_tracked env

/-- The update goes on to the next video only when there is one, or one has ended. -/
theorem update_tracked (env : Env) : (update env).Keeps (Tracked env.now S) := by
  refine .get_bind (fun r => Handler.Keeps.bind_at ?_ (fun _ => updateRest_tracked env))
  rw [Handler.run_when]
  split
  · next h =>
    refine dequeueNext_tracked env (h.elim (fun h => .inr h.2) (fun h => .inl ?_))
    intro hnone
    simp [sourceEnded, hnone] at h
  · exact refl_of (Tracked env.now S) r

end Room

/-! ## The operations -/

/-- The operations of the video queue. -/
inductive QueueOperation where
  | set (items : List QueueEntry)
  | enqueue (videos : List QueueEntry)
  | dequeue
  | pushTop (videos : List QueueEntry)
  | insert (video : QueueEntry) (index : ℚ)
  | move (fromIdx toIdx : ℚ)
  | evict (video : VideoId)
  | update (video : VideoId) (patch : QueueItemExtras)
  | orderBy (criterion : QueueItem → Nat)
  | shuffle

/-- The operations of a room. -/
inductive Operation where
  | request (request : RoomRequest) (context : RoomRequestContext)
  | dequeueNext
  | update
  | setGrants (grants : Grants)
  | queue (operation : QueueOperation)

open Room

/-- An operation on the room's queue. A change of an object shows wherever the room holds it. -/
def QueueOperation.run (env : Env) : QueueOperation → RoomM Unit
  | .set items => onQueue (·.set items)
  | .enqueue videos => onQueue (·.enqueue videos)
  | .dequeue => (fun _ => ()) <$> onQueue (·.dequeue)
  | .pushTop videos => onQueue (·.pushTop videos)
  | .insert video index => onQueue (·.insert video index)
  | .move fromIdx toIdx => onQueue (·.move fromIdx toIdx)
  | .evict video => (fun _ => ()) <$> onQueue (·.evict video)
  | .update video patch => do
    let object ← onQueue (·.update video patch)
    Handler.modify (fun r => r.mutateCurrent object (assignExtras patch))
  | .orderBy criterion => onQueue (·.orderBy criterion)
  | .shuffle => onQueue (fun q => q.shuffle (env.shuffle q))

def Operation.run (env : Env) : Operation → RoomM Unit
  | .request req context => processRequest env req context
  | .dequeueNext => Room.dequeueNext env
  | .update => Room.update env
  | .setGrants grants => Room.setGrants grants
  | .queue operation => operation.run env

/-! ## When the marks are complete -/

namespace Room

/-- A shuffled queue is not marked: it has to be marked already, or to look the same. -/
def ShuffleMarks (env : Env) (r : Room) : Prop :=
  .queue ∈ r.dirty ∨ (env.shuffle r.queue).map (·.item) = r.queue.map (·.item)

/-- Where the object of a queued item is also playing, changing it does not mark what plays. -/
def UpdateMarks (r : Room) (video : VideoId) (patch : QueueItemExtras) : Prop :=
  ∀ e current, r.queue.find? (fun e => e.is video) = some e → r.currentSource = some current →
    current.object = e.object →
      .currentSource ∈ r.dirty ∨ assignExtras patch current.item = current.item

/-- The settings pass all checks. -/
def Accepts (r : Room) (settings : RoomSettingsPatch) (context : RoomRequestContext) : Prop :=
  (∀ setting ∈ settings.props, r.holdsSetting setting = false →
    r.grants.granted context.role (settingPermission setting) = true) ∧
  ∃ masks, r.changedMasks settings.grants = .ok masks ∧ ∀ mask ∈ masks,
    ∀ permission, rolePermission mask.1 = some permission →
      r.grants.granted context.role permission = true

/-- The one setting that is a plain field is not marked. -/
def SettingsMark (r : Room) (settings : RoomSettingsPatch) : Prop :=
  .restoreQueueBehavior ∈ r.dirty ∨
    ∀ v, .restoreQueueBehavior v ∈ settings.props → v = r.restoreQueueBehavior

/-- With nothing playing and nothing queued, `dequeueNext` resets the speed of a playback head that
is still moving, without marking where it is. -/
def DequeueMarks (env : Env) (r : Room) : Prop :=
  r.HasNext ∨ .playbackPosition ∈ r.dirty ∨
    ∀ start, r.isPlaying = true → r.playbackStart = some start →
      start = env.now ∨ r.playbackSpeed = 1

/-- The request marks what it changes. -/
def RequestMarks (env : Env) (r : Room) (context : RoomRequestContext) : RoomRequest → Prop
  | .shuffle => r.Permitted .shuffle context → r.ShuffleMarks env
  | .updateQueueItem video update =>
    r.Permitted (.updateQueueItem video update) context →
      (∀ url, update.subtitleUrl = some url → endsWithVtt url = true) → r.UpdateMarks video update
  | .applySettings settings => r.Accepts settings context → r.SettingsMark settings
  | _ => True

end Room

/-- The operation marks what it changes. -/
def Operation.Marks (env : Env) (r : Room) : Operation → Prop
  | .request req context => r.RequestMarks env context req
  | .dequeueNext => r.DequeueMarks env
  | .queue .shuffle => r.ShuffleMarks env
  | .queue (.update video patch) => r.UpdateMarks video patch
  | _ => True

namespace Room

variable {now : Time} {S : Set SyncProp} {r r' : Room}

theorem shuffle_complete_iff (env : Env) :
    Complete now r ((onQueue (fun q => q.shuffle (env.shuffle q))).run r).state ↔
      r.ShuffleMarks env := by
  rw [run_onQueue]
  have htracked : Tracked now {.queue} r (r.withQueue (r.queue.shuffle (env.shuffle r.queue))) :=
    withQueue_tracked_of_mem (Set.mem_singleton _) _
  rw [htracked.complete_iff_of_singleton, ShuffleMarks, or_iff_not_imp_left]
  exact Iff.rfl

theorem updateObject_complete_iff (env : Env) (video : VideoId) (patch : QueueItemExtras) :
    Complete now r (((QueueOperation.update video patch).run env).run r).state ↔
      r.UpdateMarks video patch := by
  simp only [QueueOperation.run, Handler.run_bind, run_onQueue]
  cases hfind : r.queue.find? (fun e => e.is video) with
  | none =>
    refine iff_of_true ?_ (fun e current he => by rw [hfind] at he; cases he)
    simp only [VideoQueue.update, hfind, VideoQueue.refused, Outcome.andThen_error]
    exact fun prop _ => by cases prop <;> rfl
  | some e =>
    simp only [VideoQueue.update, hfind, Outcome.andThen_ok, Handler.run_modify]
    generalize hstep : (⟨r.queue.map (QueueEntry.mutate e.object (assignExtras patch)), true,
      .ok e.object⟩ : QueueStep ObjectId) = step
    have hdirty : step.dirty = true := by rw [← hstep]
    have htracked : Tracked now {.currentSource} r
        ((r.withQueue step).mutateCurrent e.object (assignExtras patch)) :=
      trans_of _ (withQueue_tracked _ (.inl hdirty))
        (mutateCurrent_tracked (Set.mem_singleton _) _ _)
    have hmark : .currentSource ∈
        ((r.withQueue step).mutateCurrent e.object (assignExtras patch)).dirty ↔
          .currentSource ∈ r.dirty := by
      simp [withQueue, hdirty, mutateCurrent, markDirty]
    have hcurrent : ((r.withQueue step).mutateCurrent e.object
        (assignExtras patch)).currentSource =
          r.currentSource.map (QueueEntry.mutate e.object (assignExtras patch)) := by
      simp only [withQueue, hdirty, mutateCurrent, markDirty, if_true]
    rw [htracked.complete_iff_of_singleton, hmark, ← or_iff_not_imp_left, UpdateMarks]
    simp only [syncableAt, SyncProp.Value, hcurrent, hfind]
    cases r.currentSource with
    | none => simp
    | some current =>
      simp only [Option.map_some, QueueEntry.mutate, Option.some.injEq]
      constructor
      · rintro h _ _ rfl rfl hobject
        exact h.imp_right (fun h => by simpa [hobject] using h)
      · intro h
        by_cases hobject : current.object = e.object
        · exact (h e current rfl rfl hobject).imp_right (fun h => by simpa [hobject] using h)
        · exact .inr (by simp [hobject])

/-- Nothing happens, so nothing has to be marked. -/
theorem complete_refl : Complete now r r := fun _ _ => rfl

theorem updateQueueItem_complete_iff (env : Env) (video : VideoId) (update : QueueItemExtras)
    (context : RoomRequestContext) :
    Complete now r ((updateQueueItem video update context).run r).state ↔
      ((∀ url, update.subtitleUrl = some url → endsWithVtt url = true) →
        r.UpdateMarks video update) := by
  unfold updateQueueItem
  split
  · next hvtt =>
    refine iff_of_true complete_refl (fun hall => ?_)
    obtain ⟨url, hurl, hend⟩ := (Option.any_eq_true _ _).mp hvtt
    rw [hall url hurl] at hend
    simp at hend
  · next hvtt =>
    have hends : ∀ url, update.subtitleUrl = some url → endsWithVtt url = true := by
      intro url hurl
      by_contra hend
      exact hvtt ((Option.any_eq_true _ _).mpr ⟨url, hurl, by simpa using hend⟩)
    -- the event that is published in the end changes nothing
    have hassoc : (onQueue (fun q => q.update video update) >>= fun object =>
        Handler.modify (fun r => r.mutateCurrent object (assignExtras update)) >>= fun _ =>
          publishRoomEvent (.updateQueueItem video update) context .none) =
        ((QueueOperation.update video update).run env >>= fun _ =>
          publishRoomEvent (.updateQueueItem video update) context .none) :=
      (Handler.bind_assoc _ _ _).symm
    rw [hassoc]
    rw [Handler.Keeps.state_bind (fun _ => publishRoomEvent_keeps _ _ _),
      updateObject_complete_iff]
    exact ⟨fun h _ => h, fun h => h hends⟩

/-- Where nothing is next, all that is left of `dequeueNext` is that the speed is reset. -/
theorem afterAdvance_idle (env : Env) (h : r.currentSource = none) :
    (afterAdvance env r).realPlaybackPosition now =
        { r with playbackSpeed := 1 }.realPlaybackPosition now ∧
      (.playbackPosition ∈ (afterAdvance env r).dirty ↔ .playbackPosition ∈ r.dirty) := by
  simp only [afterAdvance, h, Option.isSome_none, Bool.false_eq_true, and_false, if_false, if_true]
  unfold dropVideoSegments
  split <;> exact ⟨rfl, by simp [setPlaybackSpeed, setVideoSegments, markDirty]⟩

/-- Another speed puts a playback head elsewhere if it is moving and has moved. -/
theorem realPlaybackPosition_speed_iff (now : Time) (r : Room) :
    { r with playbackSpeed := 1 }.realPlaybackPosition now = r.realPlaybackPosition now ↔
      ∀ start, r.isPlaying = true → r.playbackStart = some start →
        start = now ∨ r.playbackSpeed = 1 := by
  simp only [realPlaybackPosition, calcDurationFromPlaybackStart]
  cases hstart : r.playbackStart with
  | none => simp
  | some start =>
    cases hplaying : r.isPlaying with
    | false => simp
    | true =>
      have hmoved : ((now - start : Int) : ℚ) / 1000 = 0 ↔ start = now := by
        rw [div_eq_zero_iff, Int.cast_eq_zero, sub_eq_zero, eq_comm]
        simp
      have hspeed : ((now - start : Int) : ℚ) / 1000 * 1 =
          ((now - start : Int) : ℚ) / 1000 * r.playbackSpeed ↔ start = now ∨ r.playbackSpeed = 1 := by
        rw [mul_eq_mul_left_iff, hmoved, eq_comm, or_comm]
      simpa [calculateCurrentPosition] using hspeed

theorem dequeueNext_complete_iff (env : Env) (r : Room) :
    Complete env.now r ((dequeueNext env).run r).state ↔ r.DequeueMarks env := by
  by_cases hnext : r.HasNext
  · exact iff_of_true (dequeueNext_tracked env hnext).complete (.inl hnext)
  · have hcurrent : r.clearVotes.currentSource = none := by
      by_contra h
      exact hnext (clearVotes_hasNext.mp (.inl h))
    have hqueue : r.clearVotes.queue = [] := by
      by_contra h
      exact hnext (clearVotes_hasNext.mp (.inr h))
    have hadvance : r.clearVotes.advance env.now = r.clearVotes := by
      simp [advance, hqueue, hcurrent]
    have hcleared : { r.clearVotes with playbackSpeed := 1 }.realPlaybackPosition env.now =
        { r with playbackSpeed := 1 }.realPlaybackPosition env.now ∧
        (.playbackPosition ∈ r.clearVotes.dirty ↔ .playbackPosition ∈ r.dirty) := by
      unfold clearVotes
      split
      · exact ⟨rfl, by simp [setVotesToSkip, markDirty]⟩
      · exact ⟨rfl, Iff.rfl⟩
    have htracked : Tracked env.now {.playbackPosition} r (afterAdvance env r.clearVotes) := by
      have hplay := @afterAdvance_tracked env.now ∅ r.clearVotes env
      rw [insert_empty_eq] at hplay
      exact trans_of _ clearVotes_tracked hplay
    obtain ⟨hposition, hmark⟩ := @afterAdvance_idle env.now r.clearVotes env hcurrent
    have hsame : (afterAdvance env r.clearVotes).syncableAt env.now .playbackPosition =
        r.syncableAt env.now .playbackPosition ↔
          ∀ start, r.isPlaying = true → r.playbackStart = some start →
            start = env.now ∨ r.playbackSpeed = 1 := by
      rw [← realPlaybackPosition_speed_iff, ← hcleared.1, ← hposition]
      exact Iff.rfl
    have hnone : r.currentSource = none := by
      by_contra h
      exact hnext (.inl h)
    rw [dequeueNext_state_none env hnone, hadvance, htracked.complete_iff_of_singleton, hmark,
      hcleared.2, hsame, ← or_iff_not_imp_left, DequeueMarks]
    simp [hnext]

/-- A field that the settings leave alone, or set to one value. -/
theorem foldl_applySetting_eq {β : Type} {f : Room → β} {setting : β → RoomSetting}
    (hset : ∀ r v, f (applySetting r (setting v)) = v)
    (hother : ∀ r s, (∀ v, s ≠ setting v) → f (applySetting r s) = f r) {l : List RoomSetting}
    {v : β} {r : Room} (hall : ∀ v', setting v' ∈ l → v' = v) (hsome : f r = v ∨ setting v ∈ l) :
    f (l.foldl applySetting r) = v := by
  induction l generalizing r with
  | nil => simpa using hsome
  | cons s l ih =>
    refine ih (fun v' hv' => hall v' (List.mem_cons_of_mem _ hv')) ?_
    by_cases hs : ∃ v', s = setting v'
    · obtain ⟨v', rfl⟩ := hs
      rw [hset]
      exact .inl (hall v' List.mem_cons_self)
    · rw [hother r s (fun v' h => hs ⟨v', h⟩)]
      rcases hsome with h | h
      · exact .inl h
      · rcases List.mem_cons.mp h with rfl | hl
        · exact absurd ⟨v, rfl⟩ hs
        · exact .inr hl

theorem foldl_restoreQueueBehavior {l : List RoomSetting} {v : BehaviorOption} {r : Room}
    (hall : ∀ v', .restoreQueueBehavior v' ∈ l → v' = v)
    (hsome : r.restoreQueueBehavior = v ∨ .restoreQueueBehavior v ∈ l) :
    (l.foldl applySetting r).restoreQueueBehavior = v := by
  refine foldl_applySetting_eq (f := restoreQueueBehavior) (fun _ _ => rfl) (fun r s hs => ?_) hall
    hsome
  cases s with
  | restoreQueueBehavior v => exact absurd rfl (hs v)
  | _ => rfl

/-- Whether the field is marked, which no setting changes. -/
def restoreMarked (r : Room) : Prop := .restoreQueueBehavior ∈ r.dirty

theorem foldl_restoreMarked (l : List RoomSetting) (r : Room) :
    (l.foldl applySetting r).restoreMarked = r.restoreMarked := by
  refine foldl_keeps (R := Handler.SameOn restoreMarked) l (fun r setting _ => propext ?_) r
  cases setting <;> simp [restoreMarked, applySetting, setTitle, setDescription, setVisibility,
    setQueueMode, setAutoSkipSegmentCategories, setRestoreQueueBehavior, setEnableVoteSkip,
    markDirty]

/-- What is set where the room holds something else. -/
def settingsToApply (r : Room) (props : List RoomSetting) : List RoomSetting :=
  (props.filter (fun prop => r.holdsSetting prop = false)).map r.normalizeSetting

/-- A settings request is applied as a whole, or not at all. -/
theorem applySettings_run (settings : RoomSettingsPatch) (context : RoomRequestContext) (r : Room) :
    (r.Accepts settings context ∧ ∃ masks want, r.changedMasks settings.grants = .ok masks ∧
      (applySettings settings context).run r =
        ⟨{ masks.foldl applyMask ((r.settingsToApply settings.props).foldl applySetting r) with
          wantSponsorBlock := want }, [], .ok ()⟩) ∨
    (¬ r.Accepts settings context ∧
      ∃ e, (applySettings settings context).run r = ⟨r, [], .error e⟩) := by
  simp only [applySettings, Handler.run_bind, Handler.run_get, Outcome.andThen_ok,
    Handler.run_liftExcept, Accepts]
  cases hmasks : r.changedMasks settings.grants with
  | error e => exact .inr ⟨by simp, e, rfl⟩
  | ok masks =>
    simp only [Outcome.andThen_ok, Handler.run_bind]
    obtain ⟨hprops, hrun⟩ | ⟨⟨p, hp, hdenied⟩, e, hrun⟩ := run_checkGrants context.role
      ((settings.props.filter (fun prop => r.holdsSetting prop = false)).map settingPermission) r
    · rw [hrun]
      simp only [Outcome.andThen_ok, Handler.run_bind]
      obtain ⟨hgranted, hrun'⟩ | ⟨⟨p, hp, hdenied⟩, e, hrun'⟩ :=
        run_checkGrants context.role (masks.filterMap (fun e => rolePermission e.1)) r
      · refine .inl ⟨⟨fun setting hsetting hheld => ?_, masks, rfl, fun mask hmask p hp => ?_⟩, ?_⟩
        · exact hprops _ (List.mem_map_of_mem
            (List.mem_filter.mpr ⟨hsetting, by simpa using hheld⟩))
        · exact hgranted p (List.mem_filterMap.mpr ⟨mask, hmask, hp⟩)
        · rw [hrun']
          simp only [Outcome.andThen_ok, Handler.run_modify, Handler.run_bind]
          split
          · exact ⟨masks, true, rfl, rfl⟩
          · exact ⟨masks, _, rfl, rfl⟩
      · refine .inr ⟨fun hall => ?_, e, by rw [hrun']; rfl⟩
        obtain ⟨masks', hmasks', hall⟩ := hall.2
        cases hmasks'
        obtain ⟨mask, hmask, hp⟩ := List.mem_filterMap.mp hp
        rw [hall mask hmask p hp] at hdenied
        cases hdenied
    · refine .inr ⟨fun hall => ?_, e, by rw [hrun]; rfl⟩
      obtain ⟨setting, hmem, rfl⟩ := List.mem_map.mp hp
      obtain ⟨hsetting, hheld⟩ := List.mem_filter.mp hmem
      rw [hall.1 setting hsetting (by simpa using hheld)] at hdenied
      cases hdenied

theorem applySettings_cases (settings : RoomSettingsPatch) (context : RoomRequestContext)
    (r : Room) :
    (r.Accepts settings context ∧
      ((applySettings settings context).run r).state.restoreQueueBehavior =
        ((r.settingsToApply settings.props).foldl applySetting r).restoreQueueBehavior ∧
      ((applySettings settings context).run r).state.restoreMarked = r.restoreMarked) ∨
    (¬ r.Accepts settings context ∧ ((applySettings settings context).run r).state = r) := by
  obtain ⟨haccepts, masks, want, -, hrun⟩ | ⟨haccepts, e, hrun⟩ :=
    applySettings_run settings context r
  · have hafter : ∀ r' : Room, ((masks.foldl applyMask r').restoreQueueBehavior,
        (masks.foldl applyMask r').restoreMarked) = (r'.restoreQueueBehavior, r'.restoreMarked) :=
      foldl_keeps (R := Handler.SameOn (fun r => (r.restoreQueueBehavior, r.restoreMarked)))
        masks (fun r mask _ => by simp [Handler.SameOn, restoreMarked, applyMask, markDirty])
    have hsettings := hafter ((r.settingsToApply settings.props).foldl applySetting r)
    rw [foldl_restoreMarked] at hsettings
    rw [hrun]
    exact .inl ⟨haccepts, Prod.mk.inj hsettings⟩
  · rw [hrun]
    exact .inr ⟨haccepts, rfl⟩

theorem mem_settingsToApply {r : Room} {props : List RoomSetting} {v : BehaviorOption} :
    .restoreQueueBehavior v ∈ r.settingsToApply props ↔
      .restoreQueueBehavior v ∈ props ∧ v ≠ r.restoreQueueBehavior := by
  have hnormal : ∀ setting, r.normalizeSetting setting = .restoreQueueBehavior v ↔
      setting = .restoreQueueBehavior v := by
    intro setting
    cases setting with
    | autoSkipSegmentCategories v => simp only [normalizeSetting]; split <;> simp
    | _ => simp [normalizeSetting]
  simp only [settingsToApply, List.mem_map, List.mem_filter, hnormal]
  constructor
  · rintro ⟨setting, ⟨hmem, hheld⟩, rfl⟩
    exact ⟨hmem, fun h => by simp [holdsSetting, h] at hheld⟩
  · rintro ⟨hmem, hne⟩
    exact ⟨_, ⟨hmem, by simpa [holdsSetting] using fun h => hne h.symm⟩, rfl⟩

/-- Properties with the same name are the same property. -/
theorem eq_of_restoreQueueBehavior_mem {settings : RoomSettingsPatch} {v v' : BehaviorOption}
    (h : .restoreQueueBehavior v ∈ settings.props) (h' : .restoreQueueBehavior v' ∈ settings.props) :
    v' = v := by
  have heq := List.inj_on_of_nodup_map settings.nodupProps h' h rfl
  cases heq
  rfl

theorem settingsToApply_restore_iff (settings : RoomSettingsPatch) (r : Room) :
    ((r.settingsToApply settings.props).foldl applySetting r).restoreQueueBehavior =
        r.restoreQueueBehavior ↔
      ∀ v, .restoreQueueBehavior v ∈ settings.props → v = r.restoreQueueBehavior := by
  constructor
  · intro hkept v hv
    by_contra hne
    have happly := mem_settingsToApply.mpr ⟨hv, hne⟩
    have hset := foldl_restoreQueueBehavior (r := r) (fun v' hv' =>
      eq_of_restoreQueueBehavior_mem hv (mem_settingsToApply.mp hv').1) (.inr happly)
    exact hne (hset.symm.trans hkept)
  · intro hall
    refine foldl_restoreQueueBehavior (fun v hv => ?_) (.inl rfl)
    obtain ⟨hmem, hne⟩ := mem_settingsToApply.mp hv
    exact absurd (hall v hmem) hne

theorem applySettings_complete_iff (settings : RoomSettingsPatch) (context : RoomRequestContext)
    (r : Room) :
    Complete now r ((applySettings settings context).run r).state ↔
      (r.Accepts settings context → r.SettingsMark settings) := by
  have htracked := @applySettings_tracked now settings context r
  obtain ⟨haccepts, hvalue, hmark⟩ | ⟨haccepts, hstate⟩ :=
    applySettings_cases settings context r
  · have hmarked : .restoreQueueBehavior ∈ ((applySettings settings context).run r).state.dirty ↔
        .restoreQueueBehavior ∈ r.dirty := iff_of_eq hmark
    have hsame : ((applySettings settings context).run r).state.syncableAt now
        .restoreQueueBehavior = r.syncableAt now .restoreQueueBehavior ↔
          ∀ v, .restoreQueueBehavior v ∈ settings.props → v = r.restoreQueueBehavior := by
      rw [← settingsToApply_restore_iff, ← hvalue]
      exact Iff.rfl
    rw [htracked.complete_iff_of_singleton, hmarked, hsame, ← or_iff_not_imp_left]
    exact ⟨fun h _ => h, fun h => h haccepts⟩
  · rw [hstate]
    exact iff_of_true complete_refl (fun h => absurd h haccepts)

theorem processRequest_complete_iff (env : Env) (req : RoomRequest) (context : RoomRequestContext)
    (r : Room) :
    Complete env.now r ((processRequest env req context).run r).state ↔
      r.RequestMarks env context req := by
  have htracked : ∀ {handler : RoomM Unit}, handler.Keeps (Tracked env.now ∅) →
      (Complete env.now r ((mediated req context handler).run r).state ↔ True) :=
    fun h => iff_of_true (mediated_keeps h r).complete trivial
  cases req with
  | join info => exact htracked (joinRoom_tracked env info context)
  | leave => exact htracked (leaveRoom_tracked context)
  | playback state => exact htracked (playback_tracked env state context)
  | skip => exact htracked (skip_tracked env context)
  | seek value => exact htracked (seek_tracked env value context)
  | add video videos url => exact htracked (addToQueue_tracked env video videos url context)
  | remove video => exact htracked (removeFromQueue_tracked video context)
  | order fromIdx toIdx => exact htracked (onQueue_tracked (fun q => q.move_told _ _))
  | vote video add => exact htracked (vote_tracked video add context)
  | promote target role => exact htracked (promoteUser_tracked target role context)
  | updateUser info => exact htracked (updateUser_tracked env info)
  | chat text => exact htracked (chat_keeps text context)
  | undo request additional => exact htracked (undo_tracked env request additional context)
  | playNow video => exact htracked (playNow_tracked env video context)
  | playbackSpeed speed => exact htracked (setPlaybackSpeedTo_tracked env speed)
  | restoreQueue discard => exact htracked (restoreQueue_tracked env discard)
  | kick clientId => exact htracked (kickUser_keeps clientId context)
  | applySettings settings =>
    rw [processRequest, mediated_unlisted _ rfl]
    exact applySettings_complete_iff settings context r
  | shuffle =>
    obtain ⟨hp, hrun⟩ | ⟨hp, hstate⟩ := mediated_cases .shuffle context (shuffle env context) r
    · have hgranted := hp "manage-queue.order" rfl
      have hshuffle : (shuffle env context).run r =
          (onQueue (fun q => q.shuffle (env.shuffle q))).run r := by
        simp [shuffle, run_checkGrant, hgranted, run_onQueue]
      show Complete env.now r ((mediated .shuffle context (shuffle env context)).run r).state ↔ _
      rw [hrun, hshuffle, shuffle_complete_iff]
      exact ⟨fun h _ => h, fun h => h hp⟩
    · show Complete env.now r ((mediated .shuffle context (shuffle env context)).run r).state ↔ _
      rw [hstate]
      exact iff_of_true complete_refl (fun h => absurd h hp)
  | updateQueueItem video update =>
    show Complete env.now r ((mediated (.updateQueueItem video update) context
      (updateQueueItem video update context)).run r).state ↔ _
    obtain ⟨hp, hrun⟩ | ⟨hp, hstate⟩ := mediated_cases (.updateQueueItem video update) context
      (updateQueueItem video update context) r
    · rw [hrun, updateQueueItem_complete_iff env]
      exact ⟨fun h _ => h, fun h => h hp⟩
    · rw [hstate]
      exact iff_of_true complete_refl (fun h => absurd h hp)

theorem onQueue_complete {α : Type} {op : VideoQueue → QueueStep α} (h : ∀ q, (op q).Told q)
    (r : Room) : Complete now r ((onQueue op).run r).state :=
  (onQueue_tracked (S := ∅) h r).complete

end Room

/-- **When an operation marks everything it changes.** -/
theorem complete_iff (env : Env) (op : Operation) (r : Room) :
    Complete env.now r ((op.run env).run r).state ↔ op.Marks env r := by
  cases op with
  | request req context => exact processRequest_complete_iff env req context r
  | dequeueNext => exact dequeueNext_complete_iff env r
  | update => exact iff_of_true (update_tracked env r).complete trivial
  | setGrants grants =>
    have htracked : Tracked env.now ∅ r ((Room.setGrants grants).run r).state :=
      .mark rfl (fun prop _ hne => by cases prop <;> first | exact absurd rfl hne | rfl)
    exact iff_of_true htracked.complete trivial
  | queue operation =>
    cases operation with
    | shuffle => exact shuffle_complete_iff env
    | update video patch => exact updateObject_complete_iff env video patch
    | set items =>
      have htold : ∀ q : VideoQueue, (q.set items).Told q := fun _ => .inl rfl
      exact iff_of_true (onQueue_complete htold r) trivial
    | enqueue videos => exact iff_of_true (onQueue_complete (fun q => q.enqueue_told _) r) trivial
    | dequeue =>
      have htold : ∀ q : VideoQueue, q.dequeue.Told q := fun _ => .inl rfl
      exact iff_of_true (onQueue_complete htold r) trivial
    | pushTop videos => exact iff_of_true (onQueue_complete (fun q => q.pushTop_told _) r) trivial
    | insert video index =>
      exact iff_of_true (onQueue_complete (fun q => q.insert_told _ _) r) trivial
    | move fromIdx toIdx => exact iff_of_true (onQueue_complete (fun q => q.move_told _ _) r) trivial
    | evict video =>
      have hkeeps : ((QueueOperation.evict video).run env).Keeps (Tracked env.now ∅) :=
        .bind (onQueue_tracked (fun q => q.evict_told video)) (fun _ => .pure ())
      exact iff_of_true (hkeeps r).complete trivial
    | orderBy criterion =>
      exact iff_of_true (onQueue_complete (fun q => q.orderBy_told _) r) trivial

/-- Two videos are queued, and all clients know it. -/
def syncedRoom : Room :=
  { Room.new "foo" 0 with
    queue := [⟨0, .ofVideoId ⟨.youtube, "first"⟩⟩, ⟨1, .ofVideoId ⟨.youtube, "second"⟩⟩]
    dirty := ∅ }

/-- A world in which shuffling turns the queue round. -/
def reversing : Env :=
  { emptyEnv 0 with shuffle := List.reverse, shuffle_perm := List.reverse_perm }

/-- **A shuffled queue is not marked**: the clients never see the new order. -/
theorem not_complete :
    ¬ ∀ (env : Env) (op : Operation) (r : Room), Complete env.now r ((op.run env).run r).state := by
  intro h
  let after := ((Operation.request .shuffle ⟨"host", .owner, none, none⟩).run reversing).run
    syncedRoom
  have hrun : .queue ∉ after.state.dirty ∧
      (after.state.queue.map (·.item) ≠ syncedRoom.queue.map (·.item)) := by
    decide +kernel
  have hcomplete : Complete 0 syncedRoom after.state := h reversing _ syncedRoom
  generalize after.state = shuffled at hrun hcomplete
  exact hrun.2 (hcomplete .queue hrun.1)

end OpenTogetherTube.Server
