import OpenTogetherTube.Server.Position

/-!
# What is announced with the position

A client works out by itself where the playback head is, from what it was told last. That only works
if the position is told together with everything that puts the head somewhere else or changes how it
moves: with a new source, with another speed, and when playback stops. `Announces` says of two
states that this is so. Only when playback starts is the position left out: the client has it.

`Announces` is a preorder, as `Tracked` is, and it is proved of the operations in the same way.
-/

namespace OpenTogetherTube.Server

open OpenTogetherTube.Common OpenTogetherTube.Lib

namespace Room

/-- The position is marked with all that a client could not work out without it. -/
structure Announces (r r' : Room) : Prop where
  marks : r.dirty ⊆ r'.dirty
  source : .currentSource ∈ r'.dirty → .currentSource ∈ r.dirty ∨ .playbackPosition ∈ r'.dirty
  speed : r'.playbackSpeed ≠ r.playbackSpeed → .playbackPosition ∈ r'.dirty
  stopped : r.isPlaying = true → r'.isPlaying = false → .playbackPosition ∈ r'.dirty
  started : r.Started → r'.Started

variable {r r' : Room}

instance : IsPreorder Room Announces where
  refl r := by
    refine ⟨Finset.Subset.refl _, .inl, fun h => absurd rfl h, fun h h' => ?_, id⟩
    rw [h] at h'
    cases h'
  trans r r' r'' h h' := by
    refine ⟨h.marks.trans h'.marks, fun hsource => ?_, fun hspeed => ?_,
      fun hplaying hstopped => ?_, h'.started ∘ h.started⟩
    · rcases h'.source hsource with hsource | hmark
      · exact (h.source hsource).imp_right (fun hmark => h'.marks hmark)
      · exact .inr hmark
    · by_cases heq : r''.playbackSpeed = r'.playbackSpeed
      · exact h'.marks (h.speed (heq ▸ hspeed))
      · exact h'.speed heq
    · cases hp : r'.isPlaying with
      | true => exact h'.stopped hp hstopped
      | false => exact h'.marks (h.stopped hplaying hp)

namespace Announces

/-- What a client's clock runs by. -/
def clock (r : Room) : Bool × ℚ × Option Time := (r.isPlaying, r.playbackSpeed, r.playbackStart)

/-- Everything is announced if the position is. -/
theorem of_mark (hmarks : r.dirty ⊆ r'.dirty) (hposition : .playbackPosition ∈ r'.dirty)
    (hstarted : r.Started → r'.Started) : Announces r r' :=
  ⟨hmarks, fun _ => .inr hposition, fun _ => hposition, fun _ _ => hposition, hstarted⟩

/-- Nothing is to be announced if the clock runs on and no source is marked. -/
theorem of_clock (hmarks : r.dirty ⊆ r'.dirty) (hsource : .currentSource ∈ r'.dirty →
    .currentSource ∈ r.dirty) (hclock : clock r' = clock r) : Announces r r' := by
  have hplaying : r'.isPlaying = r.isPlaying := congrArg Prod.fst hclock
  have hspeed : r'.playbackSpeed = r.playbackSpeed := congrArg (fun clock => clock.2.1) hclock
  have hstart : r'.playbackStart = r.playbackStart := congrArg (fun clock => clock.2.2) hclock
  refine ⟨hmarks, fun h => .inl (hsource h), fun h => absurd hspeed h, fun h h' => ?_, ?_⟩
  · rw [hplaying, h] at h'
    cases h'
  · intro h
    unfold Started
    rw [hplaying, hstart]
    exact h

theorem unmarked (hd : r'.dirty = r.dirty) (hclock : clock r' = clock r) : Announces r r' := by
  apply of_clock _ _ hclock <;> rw [hd]
  exact id

/-- A property that is not the source may be marked. -/
theorem mark {prop : SyncProp} (hprop : prop ≠ .currentSource) (hd : r'.dirty = r.dirty)
    (hclock : clock r' = clock r) : Announces r (r'.markDirty prop) := by
  refine of_clock ?_ (fun h => ?_) hclock
  · rw [← hd]
    exact Finset.subset_insert _ _
  · rw [← hd]
    exact (Finset.mem_insert.mp h).resolve_left (Ne.symm hprop)

end Announces

section Setters

theorem setVotesToSkip_announces (value : OrderedSet ClientId) :
    Announces r (r.setVotesToSkip value) := .mark SyncProp.noConfusion rfl rfl

theorem setVideoSegments_announces (value : List Segment) :
    Announces r (r.setVideoSegments value) := .mark SyncProp.noConfusion rfl rfl

theorem withQueue_announces {α : Type} (step : QueueStep α) : Announces r (r.withQueue step) := by
  unfold withQueue
  split
  · exact .mark SyncProp.noConfusion rfl rfl
  · exact .unmarked rfl rfl

theorem clearVotes_announces : Announces r r.clearVotes :=
  clearVotes_keeps (fun _ value => setVotesToSkip_announces value) r

theorem voteToSkip_announces (context : RoomRequestContext) :
    Announces r (r.voteToSkip context) :=
  voteToSkip_keeps (fun _ value => setVotesToSkip_announces value) context r

end Setters

/-! ## Playing the next video -/

/-- A video that is put into place comes with its position. -/
theorem dequeueNext_marks (env : Env) (h : r.HasNext) (hcan : r.CanAdvance env.now) :
    .playbackPosition ∈ ((dequeueNext env).run r).state.dirty := by
  have hplay : ∀ r : Room, r.HasNext →
      .playbackPosition ∈ (afterAdvance env (r.advance env.now)).dirty :=
    fun r hr => (@playNext_tracked env.now ∅ r env).2 hr
  have hnext : r.clearVotes.HasNext := clearVotes_hasNext.mpr h
  cases hc : r.currentSource with
  | none =>
    rw [dequeueNext_state_none env hc]
    exact hplay _ hnext
  | some current =>
    have hcounts : r.Counts env.now := hcan.resolve_left (by simp [hc])
    have hcleared := (clearVotes_counts r env.now).mpr hcounts
    rw [dequeueNext_state env hc, replaced, if_neg (not_not.mpr hcleared)]
    cases r.clearVotes.queueMode with
    | manual => exact hplay _ hnext
    | vote => exact hplay _ hnext
    | dj => exact (@startSource_tracked env.now ∅ r.clearVotes env.now _ 0).2
    | loop =>
      refine hplay _ (.inr ?_)
      rw [withQueue_queue]
      exact List.append_ne_nil_of_right_ne_nil _ (List.cons_ne_nil _ _)

theorem dequeueNext_announces (env : Env) (h : r.HasNext) :
    Announces r ((dequeueNext env).run r).state := by
  by_cases hcan : r.CanAdvance env.now
  · exact .of_mark (dequeueNext_tracked (S := ∅) env h).marks (dequeueNext_marks env h hcan)
      (fun _ => (dequeueNext_cued env h hcan).started)
  · rw [dequeueNext_refused env hcan]
    exact clearVotes_announces

/-! ## Playback requests -/

theorem play_announces (env : Env) : (play env).Keeps Announces := by
  refine .bind .get (fun _ => .when (fun _ => .modify (fun r => ?_)))
  refine ⟨Finset.subset_insert _ _, fun h => ?_, fun h => absurd rfl h, ?_, ?_⟩
  · exact .inl ((Finset.mem_insert.mp h).resolve_left SyncProp.noConfusion)
  · exact fun _ h => absurd h Bool.true_eq_false.mp
  · exact fun _ _ => Option.some_ne_none env.now

/-- What follows a flush may do what it likes with the clock, as long as a room that plays knows
since when. -/
theorem flush_announces (env : Env) {f : Room → Room} (hmarks : ∀ r : Room, r.dirty ⊆ (f r).dirty)
    (hstarted : ∀ r : Room, r.playbackStart = some env.now → (f r).Started) :
    (flushPlaybackPosition env >>= fun _ => Handler.modify f).Keeps Announces := by
  rw [flushPlaybackPosition, Handler.bind_assoc]
  refine .bind (countSecondsWatched_keeps env) (fun _ r => ?_)
  simp only [Handler.run_bind, Handler.run_modify, Outcome.andThen_ok]
  have hflushed := hmarks ((r.setPlaybackPosition
    (r.realPlaybackPosition env.now)).setPlaybackStart (some env.now))
  refine .of_mark (fun prop hprop => ?_) ?_ (fun _ => hstarted _ rfl)
  · exact hflushed (Finset.mem_insert_of_mem hprop)
  · exact hflushed (Finset.mem_insert_self _ _)

theorem pause_announces (env : Env) : (pause env).Keeps Announces := by
  refine .bind .get (fun _ => .when (fun _ => flush_announces env (fun r => ?_) (fun r _ h => ?_)))
  · exact Finset.subset_insert _ _
  · exact absurd h Bool.false_ne_true

theorem setPlaybackSpeedTo_announces (env : Env) (speed : ℚ) :
    (setPlaybackSpeedTo env speed).Keeps Announces := by
  refine flush_announces env (fun r => Finset.subset_insert _ _) (fun r hstart _ => ?_)
  show r.playbackStart ≠ none
  rw [hstart]
  exact Option.some_ne_none _

theorem playback_announces (env : Env) (state : Bool) (context : RoomRequestContext) :
    (playback env state context).Keeps Announces := by
  cases state with
  | true => exact .bind (play_announces env) (fun _ => publishRoomEvent_keeps _ _ _)
  | false => exact .bind (pause_announces env) (fun _ => publishRoomEvent_keeps _ _ _)

theorem seekRaw_announces (env : Env) (value : ℚ) : (seekRaw env value).Keeps Announces := by
  refine .bind (countSecondsWatched_keeps env) (fun _ => .modify (fun r => ?_))
  exact .of_mark (Finset.subset_insert _ _) (Finset.mem_insert_self _ _)
    (fun _ _ => Option.some_ne_none env.now)

theorem seek_announces (env : Env) (value : Option ℚ) (context : RoomRequestContext) :
    (seek env value context).Keeps Announces := by
  unfold seek
  cases value with
  | none => exact .pure ()
  | some position =>
    exact .bind .get (fun _ => .bind (seekRaw_announces env position) (fun _ =>
      .bind (publishRoomEvent_keeps _ _ _) (fun _ => .modify (fun _ => .unmarked rfl rfl))))

theorem skip_announces (env : Env) (context : RoomRequestContext) :
    (skip env context).Keeps Announces := by
  refine .get_bind (fun r => ?_)
  cases hc : r.currentSource with
  | none => exact refl_of Announces r
  | some current =>
    have hvoted : (r.voteToSkip context).HasNext := by
      have hsource : (r.voteToSkip context).currentSource = r.currentSource := by
        obtain ⟨-, h⟩ | ⟨-, votes, dirty, h⟩ := voteToSkip_cases context r <;> rw [h]
      left
      rw [hsource, hc]
      exact Option.some_ne_none current
    simp only [Handler.run_bind, Handler.run_modify, Outcome.andThen_ok, Handler.run_get,
      Handler.run_when]
    refine trans_of _ (voteToSkip_announces context) ?_
    split
    · exact Handler.Keeps.bind_at (dequeueNext_announces env hvoted) (fun _ =>
        .bind (publishRoomEvent_keeps _ _ _) (fun _ => .modify (fun _ =>
          setVideoSegments_announces [])))
    · exact refl_of Announces _

/-! ## Playing a video at once -/

theorem putInPlace_announces (env : Env) (videoToPlay : Option QueueEntry) :
    Announces r (putInPlace env videoToPlay r) := by
  obtain ⟨htracked, hmark⟩ := @putInPlace_tracked env.now ∅ r env videoToPlay
  refine .of_mark htracked.marks (hmark .playbackPosition (by decide)) (fun _ _ => ?_)
  have hstart : (putInPlace env videoToPlay r).playbackStart = some env.now := by
    simp only [putInPlace]
    split <;> rfl
  rw [hstart]
  exact Option.some_ne_none env.now

theorem playNow_announces (env : Env) (video : VideoAdd) (context : RoomRequestContext) :
    (playNow env video context).Keeps Announces := by
  apply playNow_keeps (fun _ step _ => withQueue_announces step)
  · exact fun _ _ _ _ => .unmarked rfl rfl
  · exact fun videoToPlay _ => putInPlace_announces env videoToPlay

/-! ## The periodic update -/

theorem update_announces (env : Env) : (update env).Keeps Announces := by
  refine .get_bind (fun r => Handler.Keeps.bind_at ?_ (fun _ => ?_))
  · rw [Handler.run_when]
    split
    · next h =>
      refine dequeueNext_announces env (h.elim (fun h => .inr h.2) (fun h => .inl ?_))
      intro hnone
      simp [sourceEnded, hnone] at h
    · exact refl_of Announces r
  · apply updateRest_keeps
    · exact fun _ _ _ _ => .unmarked rfl rfl
    · exact sortByVotes_keeps (fun _ step _ => withQueue_announces step)
    · exact fun _ segments => setVideoSegments_announces segments
    · exact seekRaw_announces env

end Room

end OpenTogetherTube.Server
