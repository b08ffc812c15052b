import OpenTogetherTube.Server.Advance

/-!
# Whose segments are skipped

The segments to skip are fetched for one video, and kept in the room without saying for which. What
changes the current source clears them, or does not: `putInPlace` and the end of `dequeueNext` do,
undoing does not. `dontSkipSegmentsUntil` is the end of a segment that someone has sought into, and
nothing that changes the current source clears it. And segments that are fetched arrive whenever they
do.

A `State` has with the room what the code does not have: the video that `videoSegments` was fetched
for, and the video that `dontSkipSegmentsUntil` is about. `belongs_throughout_iff` lists the steps
that can leave them behind, each with what has to hold for it not to; in `not_belongs_throughout` the
segments of a video arrive after it has been skipped.
-/

namespace OpenTogetherTube.Server

open OpenTogetherTube.Common OpenTogetherTube.Lib

namespace SkipSegments

open Room

/-! ## Tasks -/

inductive Task where
  /-- An update, in `dequeueNext`. -/
  | ticking (advance : AdvanceTask)
  /-- `dequeueNext` is over. -/
  | advanced
  /-- Redis has been asked to keep the room. -/
  | refreshed
  /-- The lock is awaited, to sort the queue. -/
  | sorting
  | sorted
  /-- The segments of a video are being fetched. -/
  | fetching (video : VideoId)
  | fetched
  /-- A skip: its `dequeueNext` is not awaited, and its event is being published. -/
  | skipping (advance : Option AdvanceTask) (publishing : Bool)
  /-- A seek, whose event is being published. -/
  | seeking
  /-- A video to play is to be taken out of the queue, or has been, or is looked up. -/
  | evicting (video : VideoAdd)
  | evicted (video : VideoAdd) (found : QueueEntry)
  | lookingUp (video : VideoAdd)
  /-- What plays is to be put back onto the queue, or has been. -/
  | requeueing (current : QueueEntry) (videoToPlay : Option QueueEntry)
  | requeued (videoToPlay : Option QueueEntry)
  /-- Undoing a skip has put something back onto the queue. -/
  | undoing (current : QueueEntry)
  deriving DecidableEq

inductive Answer where
  /-- What is awaited has settled. -/
  | go (env : Env)
  /-- The un-awaited `dequeueNext` of a skip goes on. -/
  | advance (env : Env)

inductive Call where
  | update (env : Env)
  | skip (env : Env) (context : RoomRequestContext)
  | seek (env : Env) (value : Option ℚ) (context : RoomRequestContext)
  | playNow (env : Env) (video : VideoAdd) (context : RoomRequestContext)
  | undo (env : Env) (request : RoomRequest) (additional : RoomEventContext)

/-! ### Updates -/

/-- From the segments on. -/
def autoSkipStage (env : Env) (r : Room) : Room × Progress Task Unit :=
  (((autoSkip env).run (endDontSkip env r)).state, .done ())

def fetchStage (env : Env) (r : Room) : Room × Progress Task Unit :=
  if env.sponsorblockEnabled = true ∧ r.autoSkipSegmentCategories.length > 0 then
    if r.wantSponsorBlock then
      let r := { r with wantSponsorBlock := false }
      match r.currentSource with
      | some e =>
        if e.item.service = .youtube then (r, .waiting (.fetching e.videoId))
        else (r.dropVideoSegments, .waiting .fetched)
      | none => (r.dropVideoSegments, .waiting .fetched)
    else autoSkipStage env r
  else (r, .done ())

def sortStage (env : Env) (r : Room) : Room × Progress Task Unit :=
  if r.queueMode = .vote then (r, .waiting .sorting) else fetchStage env r

def keepAliveStage (env : Env) (r : Room) : Room × Progress Task Unit :=
  if r.realusers.length > 0 ∧ (r.keepAlivePing : ℚ) + env.unloadAfter * 500 < env.now then
    ({ r with keepAlivePing := env.now }, .waiting .refreshed)
  else sortStage env r

/-- A segment of the update's `dequeueNext`. -/
def tick (segment : AdvanceSegment) : Room × Progress Task Unit :=
  match segment.progress with
  | .waiting advance => (segment.room, .waiting (.ticking advance))
  | .done (.ok _) => (segment.room, .waiting .advanced)
  | .done (.error _) => (segment.room, .done ())

/-! ### Skips -/

/-- A skip is over when both of its parts are. -/
def skipTask (advance : AdvanceProgress) (publishing : Bool) : Progress Task Unit :=
  match advance, publishing with
  | .waiting advance, publishing => .waiting (.skipping (some advance) publishing)
  | .done _, true => .waiting (.skipping none true)
  | .done _, false => .done ()

/-- Whether the event of a request can be published. -/
def published (request : RoomRequest) (context : RoomRequestContext) (additional : RoomEventContext)
    (r : Room) : Bool :=
  ((publishRoomEvent request context additional).run r).result.isOk

/-- The first segment of a skip that goes through. -/
def beginSkip (env : Env) (context : RoomRequestContext) (current : QueueEntry) (r : Room) :
    Room × Progress Task Unit :=
  let segment := beginAdvance env r
  (segment.room, skipTask segment.progress (published .skip context
    { RoomEventContext.none with
      video := some current.item, prevPosition := some (r.realPlaybackPosition env.now) }
    segment.room))

/-! ### Playing a video now -/

/-- From where the video to play is there. -/
def playFound (env : Env) (subtitleUrl : Option String) (found : Option QueueEntry) (r : Room) :
    Room × Progress Task Unit :=
  let subtitled := (subtitleToPlay subtitleUrl found).run r
  match subtitled.result with
  | .error _ => (subtitled.state, .done ())
  | .ok videoToPlay =>
    match subtitled.state.currentSource with
    | none => (putInPlace env videoToPlay subtitled.state, .done ())
    | some current =>
      let stopped (item : QueueItem) : QueueItem :=
        { item with startAt := some (subtitled.state.realPlaybackPosition env.now) }
      (subtitled.state.mutate current.object stopped,
        .waiting (.requeueing (current.mutate current.object stopped) videoToPlay))

/-! ### Undoing -/

/-- What plays is pushed onto the queue, which is not awaited, and the video that was skipped comes
back. -/
def undoSkipSegment (env : Env) (additional : RoomEventContext) (r : Room) :
    Room × Progress Task Unit :=
  let pushed := match r.currentSource with
    | some current => .waiting (.undoing current)
    | none => .done ()
  match additional.video, truthyNumber additional.prevPosition with
  | some video, some position =>
    ((r.setCurrentSource (some ⟨env.fresh, video⟩)).setPlaybackPosition position, pushed)
  | _, _ => (r, pushed)

/-- The video is removed by a request of its own, which leaves the current source alone; or the
current source is taken to be the video. -/
def undoAddSegment (video : Option VideoAdd) (r : Room) : Room × Progress Task Unit :=
  match r.queue, video with
  | _ :: _, some _ => (r, .done ())
  | _, _ => (r.setCurrentSource none, .done ())

/-! ### First segments -/

def Call.segment (r : Room) : Call → Room × Progress Task Unit
  | .update env =>
    if r.currentSource = none ∧ r.queue ≠ [] ∨ r.sourceEnded env.now = true then
      tick (beginAdvance env r)
    else keepAliveStage env r
  | .skip env context =>
    match r.currentSource with
    | none => (r, .done ())
    | some current =>
      let r := r.voteToSkip context
      if r.enableVoteSkip = true → r.skipVoted = true then beginSkip env context current r
      else (r, .done ())
  | .seek env value context =>
    match value with
    | none => (r, .done ())
    | some position =>
      let sought := (seekRaw env position >>= fun _ => publishRoomEvent (.seek value) context
        { RoomEventContext.none with prevPosition := some (r.realPlaybackPosition env.now) }).run r
      match sought.result with
      | .ok _ => (sought.state, .waiting .seeking)
      | .error _ => (sought.state, .done ())
  | .playNow _ video context =>
    if r.currentSource.any (fun e => e.is video.toVideoId) then (r, .done ())
    else if r.isVideoInQueue video.toVideoId then
      if r.grants.granted context.role "manage-queue.order" = false then (r, .done ())
      else (r, .waiting (.evicting video))
    else
      if r.grants.granted context.role "manage-queue.add" = false then (r, .done ())
      else (r, .waiting (.lookingUp video))
  | .undo env request additional =>
    match request with
    | .skip => undoSkipSegment env additional r
    | .add video _ _ => undoAddSegment video r
    -- a seek is a call of its own, and the rest leaves the current source alone
    | _ => (r, .done ())

/-! ### Later segments -/

def resumeRoom (r : Room) : Task → Answer → Option (Room × Progress Task Unit)
  | .ticking advance, .go env => some (tick (resumeAdvance env r advance))
  | .advanced, .go env => some (keepAliveStage env r)
  | .refreshed, .go env => some (sortStage env r)
  | .sorting, .go _ =>
    some (r.withQueue (r.queue.orderBy (fun item =>
      ((r.votes.get? (voteKey item.toVideoId)).map (·.size)).getD 0)), .waiting .sorted)
  | .sorted, .go env => some (fetchStage env r)
  | .fetching video, .go env =>
    match env.fetchSegments video.id with
    | .ok segments => some (r.setVideoSegments segments, .waiting .fetched)
    | .error _ => some (r, .waiting .fetched)
  | .fetched, .go env => some (autoSkipStage env r)
  | .skipping (some advance) publishing, .advance env =>
    let segment := resumeAdvance env r advance
    some (segment.room, skipTask segment.progress publishing)
  | .skipping (some advance) true, .go _ =>
    some (r.setVideoSegments [], .waiting (.skipping (some advance) false))
  | .skipping none true, .go _ => some (r.setVideoSegments [], .done ())
  | .seeking, .go _ =>
    some ({ r with
      dontSkipSegmentsUntil := (r.getSegmentForTime r.playbackPosition).map (·.endTime) }, .done ())
  | .evicting video, .go _ =>
    let step := r.queue.evict video.toVideoId
    match step.result with
    | .ok (_, found) => some (r.withQueue step, .waiting (.evicted video found))
    | .error _ => some (r.withQueue step, .done ())
  | .evicted video found, .go env => some (playFound env video.subtitleUrl (some found) r)
  | .lookingUp video, .go env =>
    match env.getVideoInfo video.toVideoId with
    | .ok found =>
      some (playFound env video.subtitleUrl (found.map (fun item => ⟨env.fresh, item⟩)) r)
    | .error _ => some (r, .done ())
  | .requeueing current videoToPlay, .go _ =>
    some (r.withQueue (r.queue.pushTop [current]), .waiting (.requeued videoToPlay))
  | .requeued videoToPlay, .go env => some (putInPlace env videoToPlay r, .done ())
  | .undoing current, .go _ => some (r.withQueue (r.queue.pushTop [current]), .done ())
  | _, _ => none

/-! ### An update that runs alone -/

/-- The segments that follow, with nothing in between. -/
def finish (env : Env) : Nat → Room × Progress Task Unit → Room × Progress Task Unit
  | 0, next => next
  | fuel + 1, next =>
    match next.2 with
    | .done _ => next
    | .waiting task =>
      match resumeRoom next.1 task (.go env) with
      | some next => finish env fuel next
      | none => next

section Alone

variable (env : Env) {r : Room} (fuel : Nat)

theorem finish_done (r : Room) : finish env fuel (r, .done ()) = (r, .done ()) := by
  cases fuel <;> rfl

theorem finish_waiting {task : Task} {next : Room × Progress Task Unit}
    (h : resumeRoom r task (.go env) = some next) :
    finish env (fuel + 1) (r, .waiting task) = finish env fuel next := by
  rw [finish]
  simp only [h]

/-- What an update does to the segments, all at once. -/
def fetchAlone (r : Room) : Room :=
  if env.sponsorblockEnabled = true ∧ r.autoSkipSegmentCategories.length > 0 then
    ((autoSkip env).run (endDontSkip env (if r.wantSponsorBlock then
      fetchSponsorBlockSegments env { r with wantSponsorBlock := false } else r))).state
  else r

theorem updateRest_state (r : Room) : ((updateRest env).run r).state =
    fetchAlone env (refreshKeepAlive env r).sortByVotes := by
  unfold updateRest fetchAlone
  rw [Handler.run_bind, Handler.run_modify, Outcome.andThen_ok, Handler.run_bind, Handler.run_get,
    Outcome.andThen_ok, Handler.run_when]
  split <;> rfl

theorem finish_fetchStage (r : Room) :
    finish env (fuel + 2) (fetchStage env r) = (fetchAlone env r, .done ()) := by
  have hfetched : ∀ (n : Nat) (r : Room), finish env (n + 1) (r, .waiting .fetched) =
      (((autoSkip env).run (endDontSkip env r)).state, .done ()) := fun n r => finish_done env n _
  unfold fetchStage fetchAlone
  split
  · split
    · generalize ({ r with wantSponsorBlock := false } : Room) = wanted
      dsimp only
      split
      · next e hsource =>
        split
        · next hyoutube =>
          have hwanted : resumeRoom wanted (.fetching e.videoId) (.go env) =
              some (fetchSponsorBlockSegments env wanted, .waiting .fetched) := by
            simp only [resumeRoom, fetchSponsorBlockSegments, hsource, if_pos hyoutube]
            rw [show e.videoId.id = e.item.id from rfl]
            cases env.fetchSegments e.item.id <;> rfl
          rw [finish_waiting env (fuel + 1) hwanted, hfetched]
        · next hother =>
          rw [hfetched]
          simp only [fetchSponsorBlockSegments, hsource, if_neg hother]
      · next hnone =>
        rw [hfetched]
        simp only [fetchSponsorBlockSegments, hnone]
    · exact finish_done env (fuel + 2) _
  · rw [finish_done]

theorem finish_keepAliveStage (r : Room) :
    finish env (fuel + 5) (keepAliveStage env r) = (((updateRest env).run r).state, .done ()) := by
  have hsort : ∀ (n : Nat) (r : Room),
      finish env (n + 4) (sortStage env r) = (fetchAlone env r.sortByVotes, .done ()) := by
    intro n r
    unfold sortStage sortByVotes
    split
    · exact finish_fetchStage env n _
    · exact finish_fetchStage env (n + 2) r
  rw [updateRest_state]
  unfold keepAliveStage refreshKeepAlive
  split
  · exact hsort fuel _
  · exact hsort (fuel + 1) r

/-- The advance of an update. -/
theorem finish_tick (n : Nat) (segment : AdvanceSegment) {result : Except RoomError Unit}
    (h : (finishAdvance env n segment).progress = .done result) :
    ∃ m, finish env (m + fuel) (tick segment) =
      finish env fuel (tick (finishAdvance env n segment)) := by
  induction n generalizing segment with
  | zero => exact ⟨0, by rw [Nat.zero_add]; rfl⟩
  | succ n ih =>
    cases hprogress : segment.progress with
    | done result' =>
      refine ⟨0, ?_⟩
      simp only [finishAdvance, hprogress, Nat.zero_add]
    | waiting advance =>
      simp only [finishAdvance, hprogress] at h ⊢
      obtain ⟨m, hfinish⟩ := ih (resumeAdvance env segment.room advance) h
      refine ⟨m + 1, ?_⟩
      have htick : tick segment = (segment.room, .waiting (.ticking advance)) := by
        unfold tick
        rw [hprogress]
      rw [htick, show m + 1 + fuel = (m + fuel) + 1 by omega, finish_waiting env (m + fuel) rfl,
        hfinish]

/-- **An update that runs alone is `update`.** -/
theorem finish_update (r : Room) : ∃ n,
    finish env n (Call.segment r (.update env)) = (((update env).run r).state, .done ()) := by
  rw [run_update, Handler.run_when, Call.segment]
  split
  · obtain ⟨hroom, hprogress⟩ := @finish_begin env r
    obtain ⟨m, hfinish⟩ := finish_tick env 6 4 (beginAdvance env r) hprogress
    refine ⟨m + 6, hfinish.trans ?_⟩
    unfold tick
    rw [hprogress, hroom]
    generalize (dequeueNext env).run r = o
    obtain ⟨room, published, result⟩ := o
    cases result with
    | ok value => exact finish_keepAliveStage env 0 room
    | error e => exact finish_done env 6 room
  · exact ⟨5, finish_keepAliveStage env 0 r⟩

end Alone

/-! ## The system -/

/-- What the steps here are about: the video that plays, and the data for skipping. -/
structure Marks where
  playing : Option VideoId
  videoSegments : List Segment
  dontSkipSegmentsUntil : Option ℚ
  deriving DecidableEq

def marks (r : Room) : Marks :=
  ⟨r.currentSource.map (·.videoId), r.videoSegments, r.dontSkipSegmentsUntil⟩

/-- A room, the video that its segments were fetched for, and the video that the end of a segment in
`dontSkipSegmentsUntil` is about. -/
structure State where
  room : Room
  segmentsOf : VideoId
  dontSkipOf : VideoId

/-- What a segment of a task writes down besides the room. -/
def State.note (s : State) : Task → Answer → State
  | .fetching video, .go env =>
    match env.fetchSegments video.id with
    | .ok _ => { s with segmentsOf := video }
    | .error _ => s
  | .seeking, _ => { s with dontSkipOf := s.segmentsOf }
  | _, _ => s

def State.put (s : State) (next : Room × Progress Task Unit) : State × Progress Task Unit :=
  ({ s with room := next.1 }, next.2)

/-- Whatever else happens in the room leaves the marks alone, and changes the rest in any way. -/
def program : Program State Call Task Answer Room Unit where
  start c s := s.put (c.segment s.room)
  resume task x s := (resumeRoom s.room task x).map (s.note task x).put
  environment r s := if marks r = marks s.room then some { s with room := r } else none

abbrev Tasks := Pool State Task Unit

abbrev Event := PoolEvent Call Answer Room

def system : Machine Tasks Event := program.machine

/-- **The purpose**: all segments were fetched for the video that plays, and what keeps segments from
being skipped is the end of one of its segments. -/
structure Belongs (s : State) : Prop where
  segments : s.room.videoSegments ≠ [] → (marks s.room).playing = some s.segmentsOf
  dontSkip : s.room.dontSkipSegmentsUntil ≠ none → (marks s.room).playing = some s.dontSkipOf

/-! ### The condition -/

/-- What keeps segments from being skipped is about the video. -/
def State.Fits (s : State) (video : Option VideoId) : Prop :=
  s.room.dontSkipSegmentsUntil = none ∨ video = some s.dontSkipOf

/-- So are the segments. -/
def State.Matches (s : State) (video : Option VideoId) : Prop :=
  s.Fits video ∧ (s.room.videoSegments = [] ∨ video = some s.segmentsOf)

/-- `dequeueNext` begins: it may end playback at once. -/
def BeginFits (env : Env) (s : State) : Prop :=
  s.room.currentSource ≠ none → s.room.Counts env.now →
    Consumes s.room.queueMode → s.room.queue = [] → s.Fits none

/-- `dequeueNext` goes on: it may end playback, and it puts a video into place. -/
def AdvanceFits (s : State) : AdvanceTask → Prop
  | .enqueued _ => s.room.queue = [] → s.Fits none
  | .dequeued _ item => s.Fits (item.map (·.videoId))
  | _ => True

def CallFits (s : State) : Call → Prop
  | .update env => s.room.sourceEnded env.now = true → BeginFits env s
  | .skip env context =>
    ((s.room.voteToSkip context).enableVoteSkip = true →
      (s.room.voteToSkip context).skipVoted = true) →
      BeginFits env { s with room := s.room.voteToSkip context }
  | .undo _ .skip additional =>
    ∀ video ∈ additional.video, truthyNumber additional.prevPosition ≠ none →
      s.Matches (some video.toVideoId)
  | .undo _ (.add video _ _) _ => s.room.queue = [] ∨ video = none → s.Matches none
  | _ => True

def TaskFits (s : State) : Task → Answer → Prop
  | .ticking advance, .go _ => AdvanceFits s advance
  | .skipping (some advance) _, .advance _ => AdvanceFits s advance
  -- the segments arrive
  | .fetching video, .go env =>
    ∀ segments, env.fetchSegments video.id = .ok segments →
      segments = [] ∨ (marks s.room).playing = some video
  | .requeued videoToPlay, .go _ => s.Fits (videoToPlay.map (·.videoId))
  | _, _ => True

/-- The condition on a step: where it gives the room another video, or none, the data it does not
clear is about that video already; and segments arrive while their video plays. -/
def Fits (p : Tasks) : Event → Prop
  | .call c => CallFits p.shared c
  | .answer i x => ∀ task, p.tasks[i]? = some (.waiting task) → TaskFits p.shared task x
  | .external _ => True

/-! ## What steps do to the marks -/

/-- The video that plays is another, and its segments are cleared. -/
def Marks.place (m : Marks) (video : Option VideoId) : Marks :=
  { m with playing := video, videoSegments := [] }

/-- The same plays, and the data for skipping is kept or cleared. -/
structure Forgets (r r' : Room) : Prop where
  playing : (marks r').playing = (marks r).playing
  segments : r'.videoSegments = [] ∨ r'.videoSegments = r.videoSegments
  dontSkip : r'.dontSkipSegmentsUntil = none ∨ r'.dontSkipSegmentsUntil = r.dontSkipSegmentsUntil

instance : IsPreorder Room Forgets where
  refl _ := ⟨rfl, .inr rfl, .inr rfl⟩
  trans _ _ _ h h' := by
    refine ⟨h'.playing.trans h.playing, ?_, ?_⟩
    · obtain hnone | hsame := h'.segments
      · exact .inl hnone
      · rw [hsame]
        exact h.segments
    · obtain hnone | hsame := h'.dontSkip
      · exact .inl hnone
      · rw [hsame]
        exact h.dontSkip

section Marks

variable {r r' : Room}

theorem Forgets.of_marks (h : marks r' = marks r) : Forgets r r' where
  playing := congrArg Marks.playing h
  segments := .inr (congrArg Marks.videoSegments h)
  dontSkip := .inr (congrArg Marks.dontSkipSegmentsUntil h)

theorem withQueue_marks {α : Type} (r : Room) (step : QueueStep α) :
    marks (r.withQueue step) = marks r := by
  unfold withQueue
  split <;> rfl

theorem clearVotes_marks (r : Room) : marks r.clearVotes = marks r :=
  clearVotes_keeps (R := Handler.SameOn marks) (fun _ _ => rfl) r

theorem voteToSkip_marks (context : RoomRequestContext) (r : Room) :
    marks (r.voteToSkip context) = marks r :=
  voteToSkip_keeps (R := Handler.SameOn marks) (fun _ _ => rfl) context r

theorem dropVideoSegments_marks (r : Room) :
    marks r.dropVideoSegments = { marks r with videoSegments := [] } := by
  unfold dropVideoSegments
  split
  · rfl
  · next hnone =>
    have hempty : r.videoSegments = [] := by
      cases hsegments : r.videoSegments with
      | nil => rfl
      | cons segment segments => simp [hsegments] at hnone
    unfold marks
    rw [hempty]

/-- An object is changed, but not the video it stands for. -/
theorem mutate_marks (r : Room) (object : ObjectId) {f : QueueItem → QueueItem}
    (hf : ∀ item, (f item).toVideoId = item.toVideoId) : marks (r.mutate object f) = marks r := by
  have hvideo : ∀ e : QueueEntry, (e.mutate object f).videoId = e.videoId := by
    intro e
    unfold QueueEntry.mutate
    split
    · exact hf e.item
    · rfl
  unfold marks mutate mutateCurrent
  simp [hvideo, Function.comp_def]

/-- The end of `dequeueNext` clears the segments if nothing plays. -/
theorem afterAdvance_marks (env : Env) (r : Room) : marks (afterAdvance env r) =
    if r.currentSource = none then { marks r with videoSegments := [] } else marks r := by
  have hwant : ∀ (p : Prop) [Decidable p],
      marks (if p then { r with wantSponsorBlock := true } else r) = marks r ∧
      (if p then { r with wantSponsorBlock := true } else r).currentSource = r.currentSource := by
    intro p _
    split <;> exact ⟨rfl, rfl⟩
  have hspeed : ∀ r : Room, marks (r.setPlaybackSpeed 1) = marks r := fun _ => rfl
  unfold afterAdvance
  dsimp only
  obtain ⟨hmarks, hsource⟩ := hwant (env.sponsorblockEnabled ∧
    r.autoSkipSegmentCategories.length > 0 ∧ r.currentSource.isSome)
  rw [hspeed, hsource, apply_ite marks, dropVideoSegments_marks, hmarks]

theorem goOn_marks (env : Env) (source : Option VideoId) (r : Room) :
    marks (goOn env source r).room = if r.queue = [] then (marks r).place none else marks r := by
  unfold goOn
  split
  · next hq =>
    have hadvanced : marks (r.advance env.now) = { marks r with playing := none } ∧
        (r.advance env.now).currentSource = none := by
      by_cases hsource : r.currentSource = none
      · rw [advance_idle hq hsource, marks, hsource]
        exact ⟨rfl, rfl⟩
      · have hsome : r.currentSource.isSome = true := Option.isSome_iff_ne_none.mpr hsource
        unfold advance
        rw [hq]
        dsimp only
        rw [if_pos hsome]
        cases r.isPlaying <;> exact ⟨rfl, rfl⟩
    rw [afterAdvance_marks, if_pos hadvanced.2, hadvanced.1]
    rfl
  · rfl

/-- **The first segment** ends playback, or leaves the marks alone. -/
theorem beginAdvance_marks (env : Env) (r : Room) : marks (beginAdvance env r).room =
    if (r.currentSource ≠ none → r.Counts env.now ∧
      Consumes r.queueMode) ∧ r.queue = [] then (marks r).place none else marks r := by
  have hcleared := clearVotes_marks r
  have hstock := clearVotes_stock r
  simp only [← clearVotes_counts r env.now]
  rw [← hcleared, ← show r.clearVotes.queueMode = r.queueMode from
      congrArg Stock.queueMode hstock, ← show r.clearVotes.queue = r.queue from
      congrArg Stock.queue hstock, ← show r.clearVotes.currentSource = r.currentSource from
      congrArg Stock.currentSource hstock]
  unfold beginAdvance
  generalize r.clearVotes = r
  dsimp only
  split
  · next hnone => simp [goOn_marks, hnone]
  · next current hcurrent =>
    split
    · next hpast => simp [hcurrent, hpast]
    · next hpast =>
      split
      · next hmode =>
        have hsame : marks (r.startSource env.now (some ⟨env.fresh, clearQueueItemTrim current.item⟩)
            0) = marks r := by
          unfold marks
          rw [hcurrent]
          rfl
        simp [hsame, hmode, hcurrent, Consumes]
      · next hmode => simp [hcurrent, hmode, Consumes]
      · next hdj hloop =>
        have hmode : Consumes r.queueMode := by
          cases hmode : r.queueMode with
          | manual => exact .inl rfl
          | vote => exact .inr rfl
          | dj => exact absurd hmode hdj
          | loop => exact absurd hmode hloop
        simp [goOn_marks, not_not.mp hpast, hmode]

theorem placeDequeued_marks (env : Env) (r : Room) (item : Option QueueEntry) :
    marks (placeDequeued env r item) = (marks r).place (item.map (·.videoId)) := by
  unfold placeDequeued
  rw [afterAdvance_marks, dropVideoSegments_marks]
  exact ite_self _

theorem putInPlace_marks (env : Env) (video : Option QueueEntry) (r : Room) :
    marks (putInPlace env video r) = (marks r).place (video.map (·.videoId)) := by
  have hwant : ∀ (p : Prop) [Decidable p] (r : Room),
      marks (if p then { r with wantSponsorBlock := true } else r) = marks r := by
    intro p _ r
    split <;> rfl
  exact hwant _ _

/-! ### Steps that forget at most -/

theorem seekRaw_marks (env : Env) (value : ℚ) : (seekRaw env value).Keeps (Handler.SameOn marks) :=
  .bind (countSecondsWatched_keeps env) (fun _ => .modify (fun _ => rfl))

theorem autoSkip_marks (env : Env) (r : Room) :
    marks ((autoSkip env).run r).state = marks r := by
  have hkeeps : (autoSkip env).Keeps (Handler.SameOn marks) := by
    refine .bind .get (fun r => ?_)
    split
    · split
      · exact .when (fun _ => .bind (seekRaw_marks env _) (fun _ => .emit _))
      · exact .pure ()
    · exact .pure ()
  exact hkeeps r

theorem autoSkipStage_forgets (env : Env) (r : Room) : Forgets r (autoSkipStage env r).1 := by
  have hended : Forgets r (endDontSkip env r) := by
    unfold endDontSkip
    split
    · split
      · exact ⟨rfl, .inr rfl, .inl rfl⟩
      · exact refl_of Forgets r
    · exact refl_of Forgets r
  exact trans_of Forgets hended (.of_marks (autoSkip_marks env _))

theorem dropVideoSegments_forgets (r : Room) : Forgets r r.dropVideoSegments := by
  have hdropped := dropVideoSegments_marks r
  refine ⟨?_, .inl (congrArg Marks.videoSegments hdropped),
    .inr (congrArg Marks.dontSkipSegmentsUntil hdropped)⟩
  rw [hdropped]

theorem fetchStage_forgets (env : Env) (r : Room) : Forgets r (fetchStage env r).1 := by
  unfold fetchStage
  split
  · split
    · have hwant : Forgets r { r with wantSponsorBlock := false } := .of_marks rfl
      dsimp only
      split
      · split
        · exact hwant
        · exact trans_of Forgets hwant (dropVideoSegments_forgets _)
      · exact trans_of Forgets hwant (dropVideoSegments_forgets _)
    · exact autoSkipStage_forgets env r
  · exact refl_of Forgets r

theorem sortStage_forgets (env : Env) (r : Room) : Forgets r (sortStage env r).1 := by
  unfold sortStage
  split
  · exact refl_of Forgets r
  · exact fetchStage_forgets env r

theorem keepAliveStage_forgets (env : Env) (r : Room) : Forgets r (keepAliveStage env r).1 := by
  unfold keepAliveStage
  split
  · exact .of_marks rfl
  · exact sortStage_forgets env r

end Marks

/-! ## Single steps -/

section Steps

variable {s : State} {r : Room}

theorem Belongs.forgets (hs : Belongs s) (h : Forgets s.room r) : Belongs { s with room := r } where
  segments hne := by
    obtain hnone | hsame := h.segments
    · exact absurd hnone hne
    · rw [hsame] at hne
      exact h.playing.trans (hs.segments hne)
  dontSkip hne := by
    obtain hnone | hsame := h.dontSkip
    · exact absurd hnone hne
    · rw [hsame] at hne
      exact h.playing.trans (hs.dontSkip hne)

/-- Another video plays: what is not cleared is about it already, or does not belong. -/
theorem belongs_replace_iff {video : Option VideoId}
    (h : marks r = { marks s.room with playing := video }) :
    Belongs { s with room := r } ↔ s.Matches video := by
  have hplaying : (marks r).playing = video := congrArg Marks.playing h
  have hsegments : r.videoSegments = s.room.videoSegments := congrArg Marks.videoSegments h
  have hdontSkip : r.dontSkipSegmentsUntil = s.room.dontSkipSegmentsUntil :=
    congrArg Marks.dontSkipSegmentsUntil h
  constructor
  · intro hs
    refine ⟨?_, ?_⟩
    · by_cases hnone : s.room.dontSkipSegmentsUntil = none
      · exact .inl hnone
      · exact .inr (hplaying.symm.trans (hs.dontSkip (hdontSkip ▸ hnone)))
    · by_cases hnone : s.room.videoSegments = []
      · exact .inl hnone
      · exact .inr (hplaying.symm.trans (hs.segments (hsegments ▸ hnone)))
  · rintro ⟨hfits, hmatches⟩
    refine ⟨fun hne => ?_, fun hne => ?_⟩
    · exact hplaying.trans (hmatches.resolve_left (hsegments ▸ hne))
    · exact hplaying.trans (hfits.resolve_left (hdontSkip ▸ hne))

theorem belongs_place_iff {video : Option VideoId} (h : marks r = (marks s.room).place video) :
    Belongs { s with room := r } ↔ s.Fits video := by
  have hcleared : Belongs { s with room := r } ↔
      State.Matches { s with room := { s.room with videoSegments := [] } } video :=
    belongs_replace_iff (s := { s with room := { s.room with videoSegments := [] } }) h
  exact hcleared.trans (and_iff_left (.inl rfl))

/-- Where nothing plays, nothing keeps segments from being skipped. -/
theorem Belongs.fits_none (hs : Belongs s) (hnone : s.room.currentSource = none) : s.Fits none := by
  refine .inl (by_contra fun hne => ?_)
  have hplaying := hs.dontSkip hne
  unfold marks at hplaying
  rw [hnone] at hplaying
  cases hplaying

theorem beginAdvance_belongs_iff (env : Env) (hs : Belongs s) :
    Belongs { s with room := (beginAdvance env s.room).room } ↔ BeginFits env s := by
  have hmarks := beginAdvance_marks env s.room
  split at hmarks
  · next hends =>
    rw [belongs_place_iff hmarks]
    constructor
    · intro hfits _ _ _ _
      exact hfits
    · intro hbegin
      by_cases hnone : s.room.currentSource = none
      · exact hs.fits_none hnone
      · obtain ⟨hcounts, hmode⟩ := hends.1 hnone
        exact hbegin hnone hcounts hmode hends.2
  · next hends =>
    refine iff_of_true (hs.forgets (.of_marks hmarks)) (fun hsome hcounts hmode hq => ?_)
    exact absurd ⟨fun _ => ⟨hcounts, hmode⟩, hq⟩ hends

theorem resumeAdvance_belongs_iff (env : Env) (hs : Belongs s) (task : AdvanceTask) :
    Belongs { s with room := (resumeAdvance env s.room task).room } ↔ AdvanceFits s task := by
  cases task with
  | enqueue trimmed =>
    exact iff_of_true (hs.forgets (.of_marks (withQueue_marks _ _))) trivial
  | enqueued source =>
    have hmarks := goOn_marks env (some source) s.room
    split at hmarks
    · next hq => exact (belongs_place_iff hmarks).trans ⟨fun hfits _ => hfits, fun h => h hq⟩
    · next hq => exact iff_of_true (hs.forgets (.of_marks hmarks)) (fun h => absurd h hq)
  | dequeue source =>
    exact iff_of_true (hs.forgets (.of_marks (withQueue_marks _ _))) trivial
  | dequeued source item => exact belongs_place_iff (placeDequeued_marks env s.room item)

theorem tick_fst (segment : AdvanceSegment) : (tick segment).1 = segment.room := by
  unfold tick
  split <;> rfl

/-- From where the video to play is there, it is put into place at once only if nothing plays. -/
theorem playFound_belongs (env : Env) (subtitleUrl : Option String) (found : Option QueueEntry)
    (hs : Belongs s) : Belongs { s with room := (playFound env subtitleUrl found s.room).1 } := by
  have hsubtitled : marks ((subtitleToPlay subtitleUrl found).run s.room).state = marks s.room := by
    have hkeeps : (subtitleToPlay subtitleUrl found).Keeps (Handler.SameOn marks) := by
      unfold subtitleToPlay
      split
      · exact .pure _
      · split
        · exact .throw _
        · split
          · exact .throw _
          · exact .bind (.modify (fun r => mutate_marks r _ (fun _ => rfl))) (fun _ => .pure _)
    exact hkeeps s.room
  unfold playFound
  dsimp only
  split
  · exact hs.forgets (.of_marks hsubtitled)
  · next videoToPlay _ =>
    split
    · next hnone =>
      have hplaying : s.room.currentSource = none := by
        have hsame := congrArg Marks.playing hsubtitled
        unfold marks at hsame
        rw [hnone] at hsame
        exact Option.map_eq_none_iff.mp hsame.symm
      have hplaced := putInPlace_marks env videoToPlay
        ((subtitleToPlay subtitleUrl found).run s.room).state
      rw [hsubtitled] at hplaced
      exact (belongs_place_iff hplaced).mpr (.inl ((hs.fits_none hplaying).resolve_right (by simp)))
    · next current _ =>
      refine hs.forgets (.of_marks (Eq.trans ?_ hsubtitled))
      dsimp only
      exact mutate_marks _ _ (fun _ => rfl)

theorem seek_belongs (env : Env) (position : ℚ) (context : RoomRequestContext)
    (request : RoomRequest) (additional : RoomEventContext) (hs : Belongs s) :
    Belongs { s with room := ((seekRaw env position >>= fun _ =>
      publishRoomEvent request context additional).run s.room).state } := by
  have hkeeps : (seekRaw env position >>= fun _ =>
      publishRoomEvent request context additional).Keeps (Handler.SameOn marks) :=
    .bind (seekRaw_marks env position) (fun _ => publishRoomEvent_keeps request context additional)
  exact hs.forgets (.of_marks (hkeeps s.room))

theorem undoSkip_belongs_iff (env : Env) (additional : RoomEventContext) (hs : Belongs s) :
    Belongs { s with room := (undoSkipSegment env additional s.room).1 } ↔
      ∀ video ∈ additional.video, truthyNumber additional.prevPosition ≠ none →
        s.Matches (some video.toVideoId) := by
  unfold undoSkipSegment
  dsimp only
  split
  · next video position hvideo hposition =>
    have hmarks : marks ((s.room.setCurrentSource (some ⟨env.fresh, video⟩)).setPlaybackPosition
        position) = { marks s.room with playing := some video.toVideoId } := rfl
    rw [hvideo, hposition, belongs_replace_iff hmarks]
    constructor
    · intro hmatches v hv _
      cases hv
      exact hmatches
    · intro h
      exact h video rfl (Option.some_ne_none position)
  · next hother =>
    refine iff_of_true hs (fun video hvideo hposition => ?_)
    obtain ⟨position, hposition⟩ := Option.ne_none_iff_exists'.mp hposition
    exact absurd hposition (hother video position hvideo)

theorem undoAdd_belongs_iff (video : Option VideoAdd) (hs : Belongs s) :
    Belongs { s with room := (undoAddSegment video s.room).1 } ↔
      (s.room.queue = [] ∨ video = none → s.Matches none) := by
  have hmarks : marks (s.room.setCurrentSource none) = { marks s.room with playing := none } := rfl
  unfold undoAddSegment
  cases hq : s.room.queue with
  | nil => exact (belongs_replace_iff hmarks).trans ⟨fun hmatches _ => hmatches, fun h => h (.inl rfl)⟩
  | cons head tail =>
    cases video with
    | none =>
      exact (belongs_replace_iff hmarks).trans ⟨fun hmatches _ => hmatches, fun h => h (.inr rfl)⟩
    | some video =>
      refine iff_of_true hs (fun hor => ?_)
      obtain hor | hor := hor <;> cases hor

/-- **First segments.** -/
theorem call_belongs_iff (hs : Belongs s) (c : Call) :
    Belongs { s with room := (c.segment s.room).1 } ↔ CallFits s c := by
  cases c with
  | update env =>
    rw [Call.segment]
    split
    · next hbegins =>
      rw [tick_fst, beginAdvance_belongs_iff env hs]
      constructor
      · exact fun hbegin _ => hbegin
      · intro hfits hsome
        obtain ⟨hnone, -⟩ | hended := hbegins
        · exact absurd hnone hsome
        · exact hfits hended hsome
    · next hbegins =>
      exact iff_of_true (hs.forgets (keepAliveStage_forgets env s.room))
        (fun hended => absurd (.inr hended) hbegins)
  | skip env context =>
    have hvoted := hs.forgets (.of_marks (voteToSkip_marks context s.room))
    rw [Call.segment]
    split
    · next hnone =>
      have hnone' : (s.room.voteToSkip context).currentSource = none := by
        have hsame := congrArg Marks.playing (voteToSkip_marks context s.room)
        unfold marks at hsame
        rw [hnone] at hsame
        exact Option.map_eq_none_iff.mp hsame
      exact iff_of_true hs (fun _ hsome => absurd hnone' hsome)
    · dsimp only
      split
      · next hpasses =>
        refine (beginAdvance_belongs_iff env hvoted).trans ⟨fun hbegin _ => hbegin, fun h => ?_⟩
        exact h hpasses
      · next hpasses => exact iff_of_true hvoted (fun h => absurd h hpasses)
  | seek env value context =>
    refine iff_of_true ?_ trivial
    cases value with
    | none => exact hs
    | some position =>
      rw [Call.segment]
      dsimp only
      split
      · exact seek_belongs env position context _ _ hs
      · exact seek_belongs env position context _ _ hs
  | playNow env video context =>
    refine iff_of_true ?_ trivial
    rw [Call.segment]
    split
    · exact hs
    · split
      · split <;> exact hs
      · split <;> exact hs
  | undo env request additional =>
    cases request with
    | skip => exact undoSkip_belongs_iff env additional hs
    | add video videos url => exact undoAdd_belongs_iff video hs
    | _ => exact iff_of_true hs trivial

/-- The segments that were fetched for a video arrive. -/
theorem arrival_belongs_iff (segments : List Segment) (video : VideoId) (hs : Belongs s) :
    Belongs { s with room := s.room.setVideoSegments segments, segmentsOf := video } ↔
      (segments = [] ∨ (marks s.room).playing = some video) := by
  constructor
  · intro h
    by_cases hnone : segments = []
    · exact .inl hnone
    · exact .inr (h.segments hnone)
  · intro hor
    exact ⟨fun hne => hor.resolve_left hne, hs.dontSkip⟩

/-- The end of a segment that was sought into is about the video of the segments. -/
theorem seeking_belongs (hs : Belongs s) :
    Belongs { s with
      room := { s.room with
        dontSkipSegmentsUntil :=
          (s.room.getSegmentForTime s.room.playbackPosition).map (·.endTime) }
      dontSkipOf := s.segmentsOf } := by
  refine ⟨hs.segments, fun hne => hs.segments (fun hnone => hne ?_)⟩
  unfold getSegmentForTime
  rw [hnone]
  rfl

/-- **Later segments.** -/
theorem resume_belongs_iff (hs : Belongs s) {task : Task} {x : Answer}
    {next : Room × Progress Task Unit} (h : resumeRoom s.room task x = some next) :
    Belongs { s.note task x with room := next.1 } ↔ TaskFits s task x := by
  have hstill : ∀ {room : Room}, marks room = marks s.room → Belongs { s with room := room } :=
    fun hmarks => hs.forgets (.of_marks hmarks)
  cases task with
  | ticking advance =>
    cases x with
    | go env =>
      cases h
      rw [tick_fst]
      exact resumeAdvance_belongs_iff env hs advance
    | advance env => cases h
  | advanced =>
    cases x <;> cases h
    exact iff_of_true (hs.forgets (keepAliveStage_forgets _ s.room)) trivial
  | refreshed =>
    cases x <;> cases h
    exact iff_of_true (hs.forgets (sortStage_forgets _ s.room)) trivial
  | sorting =>
    cases x <;> cases h
    exact iff_of_true (hstill (withQueue_marks _ _)) trivial
  | sorted =>
    cases x <;> cases h
    exact iff_of_true (hs.forgets (fetchStage_forgets _ s.room)) trivial
  | fetching video =>
    cases x with
    | go env =>
      show Belongs _ ↔ ∀ segments, env.fetchSegments video.id = .ok segments →
        segments = [] ∨ (marks s.room).playing = some video
      simp only [resumeRoom] at h
      cases hfetched : env.fetchSegments video.id with
      | ok segments =>
        rw [hfetched] at h
        cases h
        unfold State.note
        simp only [hfetched]
        refine (arrival_belongs_iff segments video hs).trans ⟨fun hor found hfound => ?_, fun h => ?_⟩
        · cases hfound
          exact hor
        · exact h segments rfl
      | error e =>
        rw [hfetched] at h
        cases h
        unfold State.note
        simp only [hfetched]
        exact iff_of_true hs (fun _ hfound => by cases hfound)
    | advance env => cases h
  | fetched =>
    cases x <;> cases h
    exact iff_of_true (hs.forgets (autoSkipStage_forgets _ s.room)) trivial
  | skipping advance publishing =>
    have hcleared : Belongs { s with room := s.room.setVideoSegments [] } :=
      hs.forgets ⟨rfl, .inl rfl, .inr rfl⟩
    cases advance with
    | none =>
      cases publishing <;> cases x <;> cases h
      exact iff_of_true hcleared trivial
    | some advance =>
      cases x with
      | go env =>
        cases publishing <;> cases h
        exact iff_of_true hcleared trivial
      | advance env =>
        cases h
        exact resumeAdvance_belongs_iff env hs advance
  | seeking =>
    cases x <;> cases h
    exact iff_of_true (seeking_belongs hs) trivial
  | evicting video =>
    cases x with
    | go env =>
      refine iff_of_true (hstill ?_) trivial
      simp only [resumeRoom] at h
      split at h <;> cases h <;> exact withQueue_marks _ _
    | advance env => cases h
  | evicted video found =>
    cases x <;> cases h
    exact iff_of_true (playFound_belongs _ _ _ hs) trivial
  | lookingUp video =>
    cases x with
    | go env =>
      refine iff_of_true ?_ trivial
      simp only [resumeRoom] at h
      split at h <;> cases h
      · exact playFound_belongs env _ _ hs
      · exact hs
    | advance env => cases h
  | requeueing current videoToPlay =>
    cases x <;> cases h
    exact iff_of_true (hstill (withQueue_marks _ _)) trivial
  | requeued videoToPlay =>
    cases x <;> cases h
    exact belongs_place_iff (putInPlace_marks _ videoToPlay s.room)
  | undoing current =>
    cases x <;> cases h
    exact iff_of_true (hstill (withQueue_marks _ _)) trivial

end Steps

/-- **The step lemma.** -/
theorem step_belongs_iff {p p' : Tasks} {e : Event} (hs : Belongs p.shared)
    (h : system.step p e = some p') : Belongs p'.shared ↔ Fits p e := by
  obtain ⟨c, rfl, rfl⟩ | ⟨i, x, task, s, pr, rfl, htask, hresume, rfl⟩ | ⟨r, s, rfl, henv, rfl⟩ :=
    Program.step_cases h
  · exact call_belongs_iff hs c
  · obtain ⟨next, hnext, hput⟩ := Option.map_eq_some_iff.mp hresume
    cases hput
    refine (resume_belongs_iff hs hnext).trans ⟨fun hfits task' htask' => ?_, fun h => h task htask⟩
    rw [htask] at htask'
    cases htask'
    exact hfits
  · refine iff_of_true ?_ trivial
    simp only [program] at henv
    split at henv
    · next hmarks =>
      cases henv
      exact hs.forgets (.of_marks hmarks)
    · cases henv

/-- **The data for skipping is about the video that plays, throughout, exactly in the runs that begin
so and whose steps leave nothing behind.** -/
theorem belongs_throughout_iff (s : State) (es : List Event) :
    system.Always (fun p => Belongs p.shared) (.idle s) es ↔
      Belongs s ∧ system.Along Fits (.idle s) es := by
  have hruns : ∀ hs : Belongs s, system.Always (fun p => Belongs p.shared) (.idle s) es ↔
      system.Along Fits (.idle s) es := by
    intro hs
    exact Machine.always_iff_along (fun _ _ _ hP hstep => step_belongs_iff hP hstep) hs
  constructor
  · intro h
    exact ⟨h.head, (hruns h.head).mp h⟩
  · rintro ⟨hs, h⟩
    exact (hruns hs).mpr h

/-- A world in which every video has a segment at its start. -/
def sponsoredEnv : Env :=
  { emptyEnv 0 with
    sponsorblockEnabled := true
    fetchSegments := fun _ => .ok [⟨0, 10, .sponsor⟩] }

/-- A room whose first video has just started. -/
def sponsoredRoom : Room := { Advancing.twoVideos .manual with wantSponsorBlock := true }

/-- **The segments of a video arrive after it has been skipped.** -/
theorem not_belongs_throughout :
    ¬ ∀ (s : State) (es : List Event), Belongs s →
      system.Always (fun p => Belongs p.shared) (.idle s) es := by
  intro h
  let first : VideoId := ⟨.youtube, "first"⟩
  have hrun : ∃ p ∈ system.run (.idle ⟨sponsoredRoom, first, first⟩)
      [.call (.update sponsoredEnv), .call (.skip sponsoredEnv ⟨"owner", .owner, none, none⟩),
        .answer 1 (.advance sponsoredEnv), .answer 1 (.advance sponsoredEnv),
        .answer 1 (.go sponsoredEnv), .answer 0 (.go sponsoredEnv)],
      p.shared.room.videoSegments ≠ [] ∧
        (marks p.shared.room).playing ≠ some p.shared.segmentsOf := by
    decide +kernel
  obtain ⟨p, hp, hsegments, hplaying⟩ := hrun
  have hbelongs : Belongs ⟨sponsoredRoom, first, first⟩ :=
    ⟨fun hne => absurd rfl hne, fun hne => absurd rfl hne⟩
  exact hplaying (((h _ _ hbelongs).last hp).segments hsegments)

end SkipSegments

end OpenTogetherTube.Server
