import OpenTogetherTube.Server.ClientManager
import OpenTogetherTube.Server.Stock

/-!
# Ballots

The clients of a room vote on two things: which queued videos come next, and whether to skip the one
that plays. A `Ballot` is both, with the video that the votes to skip are about. Fifteen requests
leave it alone (`processRequest_ballot`), and eighteen and the updates leave the votes for videos
alone (`processRequest_votes`). Skipping, playing a video at once, undoing and updating are
described one by one.
-/

namespace OpenTogetherTube.Server.Room

open OpenTogetherTube.Common OpenTogetherTube.Lib

/-- What is voted on, and who votes. -/
structure Ballot where
  votes : OrderedMap String (OrderedSet ClientId)
  votesToSkip : OrderedSet ClientId
  video : Option VideoId

def ballot (r : Room) : Ballot :=
  ⟨r.votes, r.votesToSkip, r.currentSource.map (·.videoId)⟩

/-! ## What leaves it alone -/

@[simp] theorem withQueue_ballot {α : Type} (r : Room) (step : QueueStep α) :
    (r.withQueue step).ballot = r.ballot := by
  unfold withQueue
  split <;> rfl

/-- It does not matter to the ballot how what plays is played. -/
theorem ballot_ignoresHead : IgnoresHead (Handler.SameOn ballot) := by
  intro r _ _ _ _ _ _ _ _ _ _
  rfl

/-- An object that changes stays the same video. -/
theorem mutateCurrent_ballot (r : Room) (object : ObjectId) {f : QueueItem → QueueItem}
    (hf : ∀ item, (f item).toVideoId = item.toVideoId) :
    (r.mutateCurrent object f).ballot = r.ballot := by
  have hvideo : ((r.currentSource.map (QueueEntry.mutate object f)).map (·.videoId)) =
      r.currentSource.map (·.videoId) := by
    rw [Option.map_map]
    congr 1
    funext e
    show (QueueEntry.mutate object f e).videoId = e.videoId
    unfold QueueEntry.mutate
    split
    · exact hf e.item
    · rfl
  exact congrArg (Ballot.mk r.votes r.votesToSkip) hvideo

theorem mutate_ballot (r : Room) (object : ObjectId) {f : QueueItem → QueueItem}
    (hf : ∀ item, (f item).toVideoId = item.toVideoId) : (r.mutate object f).ballot = r.ballot :=
  mutateCurrent_ballot r object hf

/-- The requests that leave the ballot alone. -/
def leavesBallot : RoomRequest → Bool
  | .vote _ _ | .leave | .skip | .playNow _ | .undo _ _ => false
  | _ => true

theorem promoted_ballot (target : RoomUser) (role : Int) (r : Room) :
    (promoted target role r).ballot = r.ballot :=
  promoted_keeps (R := Handler.SameOn ballot) (fun _ _ _ => rfl) target role r

/-- **Fifteen requests leave it alone.** -/
theorem processRequest_ballot {request : RoomRequest} (h : leavesBallot request = true) (env : Env)
    (context : RoomRequestContext) :
    (processRequest env request context).Keeps (Handler.SameOn ballot) := by
  have hprev : ∀ r : Room, Handler.SameOn ballot r (r.setPrevQueue none) :=
    fun r => ballot_ignoresHead.setPrevQueue r none
  have hqueue : ∀ {α : Type} (r : Room) {step : QueueStep α}, step.Told r.queue →
    Handler.SameOn ballot r (r.withQueue step) := fun r step _ => withQueue_ballot r step
  apply mediated_keeps
  cases request with
  | vote video add => cases h
  | leave => cases h
  | skip => cases h
  | playNow video => cases h
  | undo request additional => cases h
  | join info => exact joinRoom_keeps (fun _ _ => rfl) env info context
  | playback state => exact ballot_ignoresHead.playback env state context
  | seek value => exact ballot_ignoresHead.seek env value context
  | add video videos url =>
    exact addToQueue_keeps hqueue hprev env video videos url context
  | remove video => exact removeFromQueue_keeps hqueue video context
  | order fromIdx toIdx => exact onQueue_keeps hqueue (fun q => q.move_told fromIdx toIdx)
  | promote target role => exact promoteUser_keeps promoted_ballot target role context
  | updateUser info => exact updateUser_keeps (fun _ _ => rfl) env info
  | chat text => exact chat_keeps text context
  | applySettings settings =>
    have hignores : IgnoresSettings (Handler.SameOn ballot) := fun _ _ _ _ _ _ _ _ _ _ _ => rfl
    exact hignores.applySettings settings context
  | shuffle => exact .bind (checkGrant_keeps _ _) (fun _ r => withQueue_ballot r _)
  | playbackSpeed speed => exact ballot_ignoresHead.setPlaybackSpeedTo env speed
  | restoreQueue discard => exact restoreQueue_keeps hqueue hprev env discard
  | kick clientId => exact kickUser_keeps clientId context
  | updateQueueItem video update =>
    exact updateQueueItem_keeps (fun r _ _ => withQueue_ballot r _)
      (fun r object update => mutateCurrent_ballot (f := assignExtras update) r object
        (fun _ => rfl)) video update context

/-! ## What leaves the votes for videos alone -/

theorem votes_ignoresPlayback : IgnoresPlayback (Handler.SameOn Room.votes) := by
  intro r _ _ _ _ _ _ _ _ _ _ _ _
  rfl

theorem clearVotes_votes (r : Room) : r.clearVotes.votes = r.votes :=
  clearVotes_keeps (R := Handler.SameOn Room.votes) (fun _ _ => rfl) r

theorem voteToSkip_votes (context : RoomRequestContext) (r : Room) :
    (r.voteToSkip context).votes = r.votes :=
  voteToSkip_keeps (R := Handler.SameOn Room.votes) (fun _ _ => rfl) context r

/-- Only votes and leaves change the votes for videos. -/
theorem processRequest_votes {request : RoomRequest}
    (hvote : ∀ video add, request ≠ .vote video add) (hleave : request ≠ .leave) (env : Env)
    (context : RoomRequestContext) :
    (processRequest env request context).Keeps (Handler.SameOn Room.votes) := by
  by_cases hballot : leavesBallot request = true
  · exact (processRequest_ballot hballot env context).part Ballot.votes
  · apply votes_ignoresPlayback.processRequest clearVotes_votes (voteToSkip_votes context)
    · intro video add h
      exact absurd h (hvote video add)
    · cases request <;> simp_all [leavesBallot, changesStanding]

theorem update_votes (env : Env) : (update env).Keeps (Handler.SameOn Room.votes) :=
  votes_ignoresPlayback.update clearVotes_votes env

/-! ## What the others do to the votes to skip -/

theorem votesToSkip_ignoresPlayback : IgnoresPlayback (Handler.SameOn Room.votesToSkip) := by
  intro r _ _ _ _ _ _ _ _ _ _ _ _
  rfl

theorem clearVotes_votesToSkip (r : Room) :
    r.clearVotes.votesToSkip = if r.enableVoteSkip then ∅ else r.votesToSkip := by
  unfold clearVotes
  split <;> rfl

/-- Going on to the next video clears the votes, and leaves them alone then. -/
theorem dequeueNext_votesToSkip (env : Env) (r : Room) :
    ((dequeueNext env).run r).state.votesToSkip = r.clearVotes.votesToSkip := by
  have hadvance : ∀ r : Room,
      (afterAdvance env (r.advance env.now)).votesToSkip = r.votesToSkip :=
    fun r => (votesToSkip_ignoresPlayback.ignoresHead.afterAdvance env _).trans
      (votesToSkip_ignoresPlayback.advance env.now r)
  cases hc : r.currentSource with
  | none => rw [dequeueNext_state_none env hc, hadvance]
  | some current =>
    rw [dequeueNext_state env hc]
    unfold replaced
    dsimp only
    split
    · rfl
    split
    · rfl
    · rw [hadvance, votesToSkip_ignoresPlayback.withQueue]
    · exact hadvance _

/-- **A skip** is a vote that does not suffice, or it clears the votes, or it does nothing. -/
theorem skip_cases (env : Env) (context : RoomRequestContext) (r : Room) :
    (r.currentSource = none ∧ ((skip env context).run r).state = r) ∨
    (r.currentSource ≠ none ∧ r.enableVoteSkip = true ∧ (r.voteToSkip context).skipVoted = false ∧
      ((skip env context).run r).state = r.voteToSkip context) ∨
    (r.currentSource ≠ none ∧
      (r.enableVoteSkip = true → (r.voteToSkip context).skipVoted = true) ∧
      ((skip env context).run r).state.votesToSkip =
        (r.voteToSkip context).clearVotes.votesToSkip) := by
  have henabled : (r.voteToSkip context).enableVoteSkip = r.enableVoteSkip :=
    congrArg Standing.enableVoteSkip (voteToSkip_standing context r)
  cases hc : r.currentSource with
  | none =>
    refine .inl ⟨rfl, ?_⟩
    simp only [skip, Handler.run_bind, Handler.run_get, Outcome.andThen_ok, hc]
    rfl
  | some current =>
    right
    simp only [skip, Handler.run_bind, Handler.run_get, Outcome.andThen_ok, hc, Handler.run_modify,
      Handler.run_when, henabled]
    by_cases hvoted : r.enableVoteSkip = true → (r.voteToSkip context).skipVoted = true
    · refine .inr ⟨Option.some_ne_none _, hvoted, ?_⟩
      rw [if_pos hvoted, Handler.run_unawaited, Outcome.andThen_ok, ← dequeueNext_votesToSkip env]
      generalize ((dequeueNext env).run (r.voteToSkip context)).state = dequeued
      exact Handler.Keeps.bind (publishRoomEvent_keeps _ _ _) (fun _ => .modify (fun r =>
        votesToSkip_ignoresPlayback r _ _ _ _ _ _ _ _ _ _ _ _)) dequeued
    · obtain ⟨henable, hnot⟩ := Classical.not_imp.mp hvoted
      refine .inl ⟨Option.some_ne_none _, henable, Bool.eq_false_of_not_eq_true hnot, ?_⟩
      rw [if_neg hvoted]

theorem has_voteToSkip {r : Room} (henable : r.enableVoteSkip = true)
    (context : RoomRequestContext) (c : ClientId) : (r.voteToSkip context).votesToSkip.has c =
      if truthy context.clientId = some c then !(r.votesToSkip.has c) else r.votesToSkip.has c := by
  rw [voteToSkip, if_pos henable]
  cases truthy context.clientId with
  | none => rfl
  | some client =>
    have htoggled : (r.toggleVoteToSkip client).votesToSkip = if r.votesToSkip.has client then
        r.votesToSkip.delete client else r.votesToSkip.add client := rfl
    rw [htoggled]
    by_cases hc : client = c
    · subst hc
      cases hhas : r.votesToSkip.has client <;> simp
    · have hc' : c ≠ client := Ne.symm hc
      cases r.votesToSkip.has client <;> simp [hc, hc']

theorem voteToSkip_currentSource (context : RoomRequestContext) (r : Room) :
    (r.voteToSkip context).currentSource = r.currentSource := by
  rcases voteToSkip_cases context r with ⟨-, h⟩ | ⟨-, votes, dirty, h⟩ <;> rw [h]

/-- What the votes for videos are not about. -/
def unvoted (r : Room) : OrderedSet ClientId × Option QueueEntry := (r.votesToSkip, r.currentSource)

theorem dropVotes_unvoted (r : Room) (client : ClientId) :
    (r.dropVotes client).unvoted = r.unvoted :=
  dropVotes_keeps (R := Handler.SameOn unvoted) (fun _ _ => rfl) (fun _ => rfl) r client

theorem left_votesToSkip (r : Room) (client : ClientId) : (r.left client).votesToSkip =
    if r.enableVoteSkip then r.votesToSkip.delete client else r.votesToSkip := by
  have hdrop : ∀ r : Room, ((r.dropVotes client).removeUser client).votesToSkip = r.votesToSkip :=
    fun r => congrArg Prod.fst (dropVotes_unvoted r client)
  unfold left
  dsimp only
  rw [hdrop]
  split <;> rfl

theorem left_video (r : Room) (client : ClientId) :
    (r.left client).ballot.video = r.ballot.video := by
  have hdrop : ∀ r : Room,
      ((r.dropVotes client).removeUser client).currentSource = r.currentSource :=
    fun r => congrArg Prod.snd (dropVotes_unvoted r client)
  have hcurrent : (r.left client).currentSource = r.currentSource := by
    unfold left
    dsimp only
    rw [hdrop]
    split <;> rfl
  exact congrArg (Option.map (·.videoId)) hcurrent

/-! ### Updates -/

theorem updateRest_votesToSkip (env : Env) :
    (updateRest env).Keeps (Handler.SameOn Room.votesToSkip) :=
  votesToSkip_ignoresPlayback.ignoresHead.updateRest votesToSkip_ignoresPlayback.sortByVotes env

theorem updateRest_currentSource (env : Env) :
    (updateRest env).Keeps (Handler.SameOn Room.currentSource) := by
  have hhead : IgnoresHead (Handler.SameOn Room.currentSource) := by
    intro r _ _ _ _ _ _ _ _ _ _
    rfl
  apply hhead.updateRest
  exact sortByVotes_keeps (fun r step _ => withQueue_currentSource r step)

/-- **An update** clears the votes, or leaves them and the video alone. -/
theorem update_cases (env : Env) (r : Room) :
    ((update env).run r).state.votesToSkip = r.clearVotes.votesToSkip ∨
    (((update env).run r).state.votesToSkip = r.votesToSkip ∧
      ((update env).run r).state.currentSource = r.currentSource) := by
  rw [run_update, Handler.run_when]
  split
  · left
    have hdequeued := dequeueNext_votesToSkip env r
    generalize (dequeueNext env).run r = o at hdequeued ⊢
    obtain ⟨r', published, result⟩ := o
    cases result with
    | ok _ => exact (updateRest_votesToSkip env r').trans hdequeued
    | error e => exact hdequeued
  · exact .inr ⟨updateRest_votesToSkip env r, updateRest_currentSource env r⟩

/-! ### Playing a video at once, and undoing -/

/-- The subtitles that are asked for can be set. -/
def subtitlesFit (subtitleUrl : Option String) (found : Bool) : Bool :=
  match truthy subtitleUrl with
  | none => true
  | some url => hasVttExtension url && found

/-- What a request to play a video at once puts in place of what plays, if it gets that far. -/
def placed (env : Env) (video : VideoAdd) (context : RoomRequestContext) (r : Room) :
    Option (Option VideoId) :=
  if r.currentSource.any (fun e => e.is video.toVideoId) then none
  else if r.queue.contains video.toVideoId then
    if r.grants.granted context.role "manage-queue.order" ∧ subtitlesFit video.subtitleUrl true then
      some (some video.toVideoId)
    else none
  else if r.grants.granted context.role "manage-queue.add" then
    match env.getVideoInfo video.toVideoId with
    | .ok found =>
      if subtitlesFit video.subtitleUrl found.isSome then some (found.map (·.toVideoId)) else none
    | .error _ => none
  else none

/-- What an undo puts in place of what plays, if it does. -/
def undone (request : RoomRequest) (additional : RoomEventContext) (r : Room) :
    Option (Option VideoId) :=
  match request with
  | .skip =>
    match additional.video, truthyNumber additional.prevPosition with
    | some video, some _ => some (some video.toVideoId)
    | _, _ => none
  | .add video _ _ =>
    match r.queue, video with
    | _ :: _, some _ => none
    | _, _ => some none
  | _ => none

theorem undoSkip_ballot (env : Env) (additional : RoomEventContext) (r : Room) :
    (undoSkip env additional r).ballot =
      { r.ballot with
        video := (undone .skip additional r).getD r.ballot.video } := by
  obtain ⟨pushed, hpushed, hundo⟩ := undoSkip_cases env additional r
  have hsame : pushed.ballot = r.ballot := by
    rcases hpushed with ⟨-, rfl⟩ | ⟨current, -, rfl⟩
    · rfl
    · exact withQueue_ballot r _
  rcases hundo with ⟨hmissing, heq⟩ | ⟨video, position, hvideo, hposition, heq⟩
  · have hundone : undone .skip additional r = none := by
      rcases hmissing with h | h
      · simp only [undone, h]
      · cases hvideo : additional.video <;> simp only [undone, hvideo, h]
    rw [heq, hsame, hundone]
    rfl
  · rw [heq]
    simp only [undone, hvideo, hposition, Option.getD_some]
    rw [← hsame]
    rfl

/-- **An undo** puts what it puts in place, and leaves the votes alone. -/
theorem undo_ballot (env : Env) (request : RoomRequest) (additional : RoomEventContext)
    (context : RoomRequestContext) (r : Room) :
    ((undo env request additional context).run r).state.ballot =
      { r.ballot with
        video := (undone request additional r).getD r.ballot.video } := by
  have hkept : ∀ handler : RoomM Unit, handler.Keeps (Handler.SameOn ballot) →
      undone request additional r = none → (handler.run r).state.ballot =
        { r.ballot with
          video := (undone request additional r).getD r.ballot.video } := by
    intro handler hkeeps hnone
    rw [hnone]
    exact hkeeps r
  cases request with
  | skip => exact undoSkip_ballot env additional r
  | seek value =>
    apply hkept
    · simp only [undo]
      cases truthyNumber additional.prevPosition with
      | none => exact .pure ()
      | some position => exact mediated_keeps (ballot_ignoresHead.seek env _ context)
    · rfl
  | remove video =>
    apply hkept
    · simp only [undo]
      split
      · exact .unawaited (fun r => withQueue_ballot r _)
      · exact .pure ()
    · rfl
  | add video videos url =>
    have hremoved : ∀ video, ((mediated (.remove video) context
        (removeFromQueue video context)).run r).state.ballot = r.ballot := fun video =>
      mediated_keeps (R := Handler.SameOn ballot)
        (removeFromQueue_keeps (fun r step _ => withQueue_ballot r step) video context) r
    cases hq : r.queue with
    | nil => simp [undo, undone, hq, setCurrentSource, markDirty, ballot]
    | cons head tail =>
      cases video with
      | none => simp [undo, undone, hq, setCurrentSource, markDirty, ballot]
      | some video => simp [undo, undone, hq, hremoved]
  | _ => exact hkept _ (.pure ()) rfl

theorem putInPlace_ballot (env : Env) (video : Option QueueEntry) (r : Room) :
    (putInPlace env video r).ballot = { r.ballot with video := video.map (·.videoId) } := by
  have hwant : ∀ r' : Room, (if r'.autoSkipSegmentCategories.length > 0 then
      { r' with wantSponsorBlock := true } else r').ballot = r'.ballot := by
    intro r'
    rw [apply_ite ballot]
    exact ite_self _
  have hstart : ∀ r' : Room, (((r'.setPlaybackPosition 0).setPlaybackStart
      (some env.now)).setVideoSegments []).ballot = r'.ballot := fun _ => rfl
  exact (hwant _).trans (hstart _)

/-- Subtitles are set, or the request is refused. -/
theorem subtitleToPlay_ballot (subtitleUrl : Option String) (found : Option QueueEntry) (r : Room) :
    (subtitlesFit subtitleUrl found.isSome = true ∧ ∃ r' video, r'.ballot = r.ballot ∧
      video.map (·.videoId) = found.map (·.videoId) ∧
      (subtitleToPlay subtitleUrl found).run r = ⟨r', [], .ok video⟩) ∨
    (subtitlesFit subtitleUrl found.isSome = false ∧
      ∃ e, (subtitleToPlay subtitleUrl found).run r = ⟨r, [], .error e⟩) := by
  unfold subtitlesFit subtitleToPlay
  cases truthy subtitleUrl with
  | none => exact .inl ⟨rfl, r, found, rfl, rfl, rfl⟩
  | some url =>
    dsimp only
    cases hasVttExtension url with
    | false => exact .inr ⟨rfl, _, rfl⟩
    | true =>
      cases found with
      | none => exact .inr ⟨rfl, _, rfl⟩
      | some found =>
        refine .inl ⟨rfl, _, _, mutate_ballot r found.object ?_, ?_, rfl⟩
        · exact fun _ => rfl
        · rw [Option.map_some, Option.map_some, QueueEntry.mutate, if_pos rfl]
          rfl

/-- From where the video to play is there. -/
theorem playFound_ballot (env : Env) (subtitleUrl : Option String) (found : Option QueueEntry)
    (r : Room) :
    ((subtitleToPlay subtitleUrl found >>= fun videoToPlay => requeueCurrent env >>= fun _ =>
      Handler.modify (putInPlace env videoToPlay)).run r).state.ballot =
      { r.ballot with
        video := if subtitlesFit subtitleUrl found.isSome then found.map (·.videoId)
          else r.ballot.video } := by
  rcases subtitleToPlay_ballot subtitleUrl found r with
    ⟨hfit, r', video, hballot, hvideo, hrun⟩ | ⟨hunfit, e, hrun⟩
  · have hkept := requeueCurrent_keeps (R := Handler.SameOn ballot)
      (fun r step _ => withQueue_ballot r step) (fun r object _ hf => mutate_ballot r object hf)
      env r'
    obtain ⟨requeued, hrequeue⟩ := requeueCurrent_returns env r'
    rw [hrequeue] at hkept
    have hsame : requeued.ballot = r.ballot := hkept.trans hballot
    rw [Handler.run_bind, hrun, Outcome.andThen_ok, Handler.run_bind, hrequeue, Outcome.andThen_ok,
      Handler.run_modify, putInPlace_ballot, hsame, hvideo, if_pos hfit]
  · rw [Handler.run_bind, hrun, Outcome.andThen_error, if_neg (Bool.eq_false_iff.mp hunfit)]

/-- **Playing a video at once** puts what it puts in place, and leaves the votes alone. -/
theorem playNow_ballot (env : Env) (video : VideoAdd) (context : RoomRequestContext) (r : Room) :
    ((playNow env video context).run r).state.ballot =
      { r.ballot with
        video := (placed env video context r).getD r.ballot.video } := by
  unfold placed
  rw [playNow, Handler.run_bind, Handler.run_get, Outcome.andThen_ok]
  by_cases hcur : r.currentSource.any (fun e => e.is video.toVideoId) = true
  · simp only [hcur, if_true]
    rfl
  have hin : r.isVideoInQueue video.toVideoId = r.queue.contains video.toVideoId := by
    rw [isVideoInQueue, Bool.eq_false_of_not_eq_true hcur, Bool.false_or]
  simp only [hcur, hin, Bool.false_eq_true, if_false]
  cases hq : VideoQueue.contains r.queue video.toVideoId with
  | true =>
    obtain ⟨i, e, -, his, hevict⟩ := VideoQueue.evict_of_contains hq
    have hfetch : (fetchToPlay env video true).run r =
        ⟨r.withQueue (VideoQueue.evict r.queue video.toVideoId), [], .ok (some e)⟩ := by
      simp [fetchToPlay, onQueue, hevict]
    have hfound := playFound_ballot env video.subtitleUrl (some e)
      (r.withQueue (VideoQueue.evict r.queue video.toVideoId))
    rw [withQueue_ballot, Option.map_some, QueueEntry.is_iff.mp his] at hfound
    simp only [if_true, Handler.run_bind, run_checkGrant]
    cases r.grants.granted context.role "manage-queue.order" with
    | false => simp
    | true =>
      rw [if_pos rfl, Outcome.andThen_ok, Handler.run_bind, hfetch, Outcome.andThen_ok]
      refine hfound.trans ?_
      cases hfit : subtitlesFit video.subtitleUrl true <;> simp [hfit]
  | false =>
    simp only [Bool.false_eq_true, if_false, Handler.run_bind, run_checkGrant]
    cases r.grants.granted context.role "manage-queue.add" with
    | false => simp
    | true =>
      rw [if_pos rfl, Outcome.andThen_ok, Handler.run_bind]
      cases hinfo : env.getVideoInfo video.toVideoId with
      | error e =>
        have hfetch : (fetchToPlay env video false).run r = ⟨r, [], .error e⟩ := by
          simp [fetchToPlay, hinfo]
        rw [hfetch, Outcome.andThen_error]
        simp
      | ok found =>
        have hfetch : (fetchToPlay env video false).run r =
            ⟨r, [], .ok (found.map (fun item => ⟨env.fresh, item⟩))⟩ := by
          simp [fetchToPlay, hinfo]
        rw [hfetch, Outcome.andThen_ok]
        refine (playFound_ballot env video.subtitleUrl _ r).trans ?_
        have hvideo : (found.map (fun item => (⟨env.fresh, item⟩ : QueueEntry))).map (·.videoId) =
            found.map (·.toVideoId) := by
          rw [Option.map_map]
          rfl
        rw [hvideo, Option.isSome_map]
        cases hfit : subtitlesFit video.subtitleUrl found.isSome <;> simp [hfit]

end OpenTogetherTube.Server.Room
