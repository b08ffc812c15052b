import OpenTogetherTube.Server.Requests

/-!
# What a rejected request leaves behind

A request that throws is meant to have no effect. Most handlers check everything before they write
anything; the exceptions are those that change the room and **then** publish an event, because
publishing throws when the client is not in the room, and `playNow`, which takes a video out of the
queue before it looks at the subtitles.

`Traces` lists, request by request, when a rejection leaves something changed, in terms of the room
and the request alone. `rejected_unchanged_iff` says that this list is exact.
-/

namespace OpenTogetherTube.Server

open OpenTogetherTube.Common OpenTogetherTube.Lib

namespace Room

/-- What a rejected request must not change. -/
structure Guarded where
  queue : List QueueItem
  currentSource : Option QueueItem
  playbackPosition : ℚ
  isPlaying : Bool
  playbackSpeed : ℚ
  playbackStart : Option Time
  grants : Grants
  userRoles : OrderedMap Role (OrderedSet UserId)
  votes : OrderedMap String (OrderedSet ClientId)
  votesToSkip : OrderedSet ClientId
  deriving DecidableEq

def guarded (r : Room) : Guarded where
  queue := r.queue.map (·.item)
  currentSource := r.currentSource.map (·.item)
  playbackPosition := r.playbackPosition
  isPlaying := r.isPlaying
  playbackSpeed := r.playbackSpeed
  playbackStart := r.playbackStart
  grants := r.grants
  userRoles := r.userRoles
  votes := r.votes
  votesToSkip := r.votesToSkip

section Setters

variable (r : Room)

@[simp] theorem markDirty_guarded (prop : SyncProp) : (r.markDirty prop).guarded = r.guarded := rfl

@[simp] theorem setCurrentSource_guarded (value : Option QueueEntry) :
    (r.setCurrentSource value).guarded =
      { r.guarded with currentSource := value.map (·.item) } := rfl

@[simp] theorem setIsPlaying_guarded (value : Bool) :
    (r.setIsPlaying value).guarded = { r.guarded with isPlaying := value } := rfl

@[simp] theorem setPlaybackPosition_guarded (value : ℚ) :
    (r.setPlaybackPosition value).guarded = { r.guarded with playbackPosition := value } := rfl

@[simp] theorem setPlaybackSpeed_guarded (value : ℚ) :
    (r.setPlaybackSpeed value).guarded = { r.guarded with playbackSpeed := value } := rfl

@[simp] theorem setPlaybackStart_guarded (value : Option Time) :
    (r.setPlaybackStart value).guarded = { r.guarded with playbackStart := value } := rfl

@[simp] theorem setVideoSegments_guarded (value : List Segment) :
    (r.setVideoSegments value).guarded = r.guarded := rfl

@[simp] theorem setPrevQueue_guarded (value : Option (List QueueItem)) :
    (r.setPrevQueue value).guarded = r.guarded := by
  unfold setPrevQueue
  split <;> rfl

@[simp] theorem dropVideoSegments_guarded : r.dropVideoSegments.guarded = r.guarded := by
  unfold dropVideoSegments
  split <;> rfl

theorem withQueue_guarded {α : Type} (step : QueueStep α) :
    (r.withQueue step).guarded = { r.guarded with queue := step.items.map (·.item) } := by
  unfold withQueue
  split <;> rfl

theorem startSource_guarded (now : Time) (source : Option QueueEntry) (position : ℚ) :
    (r.startSource now source position).guarded = { r.guarded with
      currentSource := source.map (·.item)
      playbackPosition := position
      playbackStart := some now } := rfl

end Setters

/-- The request names a client, and that client is not in the room. -/
def Absent (r : Room) (context : RoomRequestContext) : Prop :=
  ∃ client, context.clientId = some client ∧ r.getUser client = none

/-! ## When a rejection leaves traces -/

/-- A seek would change nothing: the playback head is there, as of now. -/
def SeekIdle (env : Env) (r : Room) (position : ℚ) : Prop :=
  r.playbackPosition = position ∧ r.playbackStart = some env.now

def SeekTraces (env : Env) (r : Room) (context : RoomRequestContext) (position : ℚ) : Prop :=
  r.Permitted (.seek (some position)) context ∧ r.Absent context ∧
    r.Counts env.now ∧ ¬ r.SeekIdle env position

def RemoveTraces (r : Room) (context : RoomRequestContext) (video : VideoId) : Prop :=
  r.Permitted (.remove video) context ∧ r.Absent context ∧ r.queue.contains video = true

/-- Skipping the current item would change nothing: there are no votes to clear, and either the
metrics stop it at once, or the queue mode plays the very same item again from the same position. -/
def SkipIdle (env : Env) (r : Room) (current : QueueItem) : Prop :=
  (r.enableVoteSkip = true → r.votesToSkip = ∅) ∧
  (¬ r.Counts env.now ∨
    clearQueueItemTrim current = current ∧ r.playbackPosition = 0 ∧
      r.playbackStart = some env.now ∧
      (r.queueMode = .dj ∨
        r.queueMode = .loop ∧ r.playbackSpeed = 1 ∧ ∀ e ∈ r.queue, e.item = current))

def SkipTraces (env : Env) (r : Room) (context : RoomRequestContext) : Prop :=
  r.Permitted .skip context ∧ r.Absent context ∧
    ∃ current, r.currentSource = some current ∧
      (r.enableVoteSkip = true → (r.voteToSkip context).skipVoted = true) ∧
      ¬ r.SkipIdle env current.item

/-- The video of an add request can be looked up and is not queued yet. -/
def Addable (env : Env) (r : Room) (video : VideoAdd) : Prop :=
  r.isVideoInQueue video.toVideoId = false ∧
    ∃ found item, env.getVideoInfo video.toVideoId = .ok (some found) ∧
      withSubtitles video.subtitleUrl found = .ok item

/-- The videos of an add request can be looked up and some are not queued yet. -/
def AllAddable (env : Env) (r : Room) (videos : List VideoAdd) : Prop :=
  ∃ found added, env.getManyVideoInfo videos = .ok found ∧ r.notQueued found = .ok added ∧
    added ≠ []

def AddTraces (env : Env) (r : Room) (context : RoomRequestContext) (video : Option VideoAdd)
    (videos : Option (List VideoAdd)) (url : Option String) : Prop :=
  r.Permitted (.add video videos url) context ∧ r.Absent context ∧
    ((∃ v, resolvedVideo env video url = .ok (some v) ∧ r.Addable env v) ∨
      (∃ vs, resolvedVideo env video url = .ok none ∧ videos = some vs ∧ r.AllAddable env vs))

/-- The item is queued, and the patch changes it, here or where else the room holds it. -/
def UpdateTraces (r : Room) (context : RoomRequestContext) (video : VideoId)
    (update : QueueItemExtras) : Prop :=
  r.Permitted (.updateQueueItem video update) context ∧ r.Absent context ∧
    (∀ url, update.subtitleUrl = some url → endsWithVtt url = true) ∧
    ∃ e, r.queue.find? (fun e => e.is video) = some e ∧
      ∃ e', (e' ∈ r.queue ∨ r.currentSource = some e') ∧ e'.object = e.object ∧
        assignExtras update e'.item ≠ e'.item

/-- The video is queued, the role may play it, and the subtitles are refused. -/
def PlayNowTraces (r : Room) (context : RoomRequestContext) (video : VideoAdd) : Prop :=
  r.Permitted (.playNow video) context ∧
    r.currentSource.any (fun e => e.is video.toVideoId) = false ∧
    r.queue.contains video.toVideoId = true ∧
    r.grants.granted context.role "manage-queue.order" = true ∧
    ∃ url, truthy video.subtitleUrl = some url ∧ hasVttExtension url = false

/-- A rejection of the request leaves something changed. -/
def Traces (env : Env) (r : Room) (context : RoomRequestContext) : RoomRequest → Prop
  | .playback true =>
      r.Permitted (.playback true) context ∧ r.Absent context ∧ r.isPlaying = false
  | .playback false =>
      r.Permitted (.playback false) context ∧ r.Absent context ∧ r.isPlaying = true ∧
        r.Counts env.now
  | .skip => r.SkipTraces env context
  | .seek (some position) => r.SeekTraces env context position
  | .add video videos url => r.AddTraces env context video videos url
  | .updateQueueItem video update => r.UpdateTraces context video update
  | .remove video => r.RemoveTraces context video
  | .playNow video => r.PlayNowTraces context video
  | .undo (.seek _) additional =>
      ∃ position, truthyNumber additional.prevPosition = some position ∧
        r.SeekTraces env context position
  | .undo (.add (some video) _ _) _ =>
      r.queue ≠ [] ∧ r.RemoveTraces context video.toVideoId
  | _ => False

/-! ## Throws of the building blocks -/

section OnThrow

variable {Q : Room → Prop} {r : Room} {α : Type}

theorem onThrow_checkGrant_bind (role : Role) (permission : PermissionName)
    (k : Unit → RoomM α) :
    Handler.OnThrow Q (checkGrant role permission >>= k) r ↔
      (r.grants.granted role permission = true → Handler.OnThrow Q (k ()) r) ∧
      (r.grants.granted role permission = false → Q r) := by
  cases h : r.grants.granted role permission with
  | true =>
    rw [Handler.onThrow_bind_of_ok (by rw [run_checkGrant, if_pos h])]
    simp
  | false =>
    rw [Handler.onThrow_bind_of_error (by rw [run_checkGrant, if_neg (by simp [h])])]
    simp

theorem onThrow_mediated_iff {request : RoomRequest} {context : RoomRequestContext}
    {handler : RoomM Unit} (hQ : Q r) :
    Handler.OnThrow Q (mediated request context handler) r ↔
      (r.Permitted request context → Handler.OnThrow Q handler r) := by
  unfold Permitted
  cases hp : requestPermission request with
  | none => simp [Handler.OnThrow, mediated_unlisted request hp]
  | some permission =>
    cases hg : r.grants.granted context.role permission with
    | true => simp [Handler.OnThrow, mediated_granted request hp hg, hg]
    | false => simp [Handler.OnThrow, mediated_denied request hp hg, hg, hQ]

theorem onThrow_countSecondsWatched_bind (env : Env) (k : Unit → RoomM α) :
    Handler.OnThrow Q (countSecondsWatched env >>= k) r ↔
      (¬ r.Counts env.now → Q r) ∧ (r.Counts env.now → Handler.OnThrow Q (k ()) r) := by
  unfold countSecondsWatched
  rw [Handler.bind_assoc, Handler.onThrow_get_bind, Handler.onThrow_when_bind,
    Handler.onThrow_throw_bind, not_not]

/-- Publishing an event throws exactly when its client is not in the room. -/
theorem run_publishRoomEvent (request : RoomRequest) (context : RoomRequestContext)
    (additional : RoomEventContext) (r : Room) :
    (r.Absent context ∧
      (publishRoomEvent request context additional).run r = ⟨r, [], .error .clientNotFound⟩) ∨
    (¬ r.Absent context ∧ ∃ out,
      (publishRoomEvent request context additional).run r = ⟨r, out, .ok ()⟩) := by
  unfold publishRoomEvent Absent
  cases hc : context.clientId with
  | none => exact .inr ⟨by simp, [], rfl⟩
  | some client =>
    cases hu : r.getUser client with
    | none =>
      refine .inl ⟨⟨client, rfl, hu⟩, ?_⟩
      simp [getUserInfo_of_no_user hu]
    | some user =>
      refine .inr ⟨?_, ?_⟩
      · rintro ⟨client', hc', hu'⟩
        cases hc'
        rw [hu] at hu'
        cases hu'
      · exact ⟨_, by simp [getUserInfo_of_getUser hu]; rfl⟩

theorem onThrow_publishRoomEvent_bind (request : RoomRequest) (context : RoomRequestContext)
    (additional : RoomEventContext) (k : Unit → RoomM α) :
    Handler.OnThrow Q (publishRoomEvent request context additional >>= k) r ↔
      (r.Absent context → Q r) ∧ (¬ r.Absent context → Handler.OnThrow Q (k ()) r) := by
  rcases run_publishRoomEvent request context additional r with ⟨ha, hrun⟩ | ⟨ha, out, hrun⟩
  · rw [Handler.onThrow_bind_of_error hrun]
    simp [ha]
  · rw [Handler.onThrow_bind_of_ok hrun]
    simp [ha]

theorem onThrow_publishRoomEvent (request : RoomRequest) (context : RoomRequestContext)
    (additional : RoomEventContext) :
    Handler.OnThrow Q (publishRoomEvent request context additional) r ↔
      (r.Absent context → Q r) := by
  rcases run_publishRoomEvent request context additional r with ⟨ha, hrun⟩ | ⟨ha, out, hrun⟩ <;>
    simp [Handler.OnThrow, hrun, ha]

theorem onThrow_onQueue_bind_of_ok {β : Type} {op : VideoQueue → QueueStep β} {b : β}
    (h : (op r.queue).result = .ok b) (k : β → RoomM α) :
    Handler.OnThrow Q (onQueue op >>= k) r ↔
      Handler.OnThrow Q (k b) (r.withQueue (op r.queue)) := by
  have hrun : (onQueue op).run r = ⟨r.withQueue (op r.queue), [], .ok b⟩ := by
    simp only [onQueue, h]
  exact Handler.onThrow_bind_of_ok hrun

end OnThrow

/-! ## Who is absent does not depend on what plays -/

theorem absent_congr {r r' : Room} (h : r'.realusers = r.realusers)
    (context : RoomRequestContext) : r'.Absent context ↔ r.Absent context := by
  unfold Absent getUser
  rw [h]

/-! ## Playback -/

theorem playback_traces_iff (env : Env) (state : Bool) (context : RoomRequestContext) (r : Room) :
    Handler.OnThrow (fun r' => r'.guarded = r.guarded) (playback env state context) r ↔
      (r.Absent context → r.isPlaying = state ∨ state = false ∧ ¬ r.Counts env.now) := by
  unfold playback
  cases state with
  | true =>
    simp only [if_true, play, Handler.bind_assoc, Handler.onThrow_get_bind,
      Handler.onThrow_when_bind, Handler.onThrow_modify_bind, onThrow_publishRoomEvent]
    have husers : ((r.setIsPlaying true).setPlaybackStart (some env.now)).realusers =
        r.realusers := rfl
    rw [absent_congr husers]
    cases hp : r.isPlaying with
    | true => simp
    | false => simp [guarded, setIsPlaying, setPlaybackStart, markDirty, hp]
  | false =>
    simp only [Bool.false_eq_true, if_false, pause, flushPlaybackPosition, Handler.bind_assoc,
      Handler.onThrow_get_bind, Handler.onThrow_when_bind, onThrow_countSecondsWatched_bind,
      Handler.onThrow_modify_bind, onThrow_publishRoomEvent]
    generalize hr' : ((((r.setPlaybackPosition _).setPlaybackStart _).setPlaybackStart none
      ).setIsPlaying false) = r'
    have husers : r'.realusers = r.realusers := by
      rw [← hr']
      simp only [setIsPlaying, setPlaybackStart, setPlaybackPosition, markDirty]
    have hchanged : r.isPlaying = true → r'.guarded ≠ r.guarded := by
      intro hp heq
      have hplaying := congrArg Guarded.isPlaying heq
      rw [← hr'] at hplaying
      simp [guarded, setIsPlaying, markDirty, hp] at hplaying
    rw [absent_congr husers]
    cases hp : r.isPlaying with
    | false => simp
    | true =>
      have hne := hchanged hp
      simp only [hne, forall_const, imp_false, not_true_eq_false, false_imp_iff, and_true]
      constructor
      · intro h ha
        by_cases hc : r.Counts env.now
        · exact absurd ha (h.2 hc)
        · exact .inr ⟨trivial, hc⟩
      · intro h
        refine ⟨fun _ => trivial, fun hc ha => ?_⟩
        rcases h ha with h | h
        · cases h
        · exact absurd hc h.2

theorem seek_traces_iff (env : Env) (position : ℚ) (context : RoomRequestContext) (r : Room) :
    Handler.OnThrow (fun r' => r'.guarded = r.guarded) (seek env (some position) context) r ↔
      (r.Absent context → r.Counts env.now → r.SeekIdle env position) := by
  simp only [seek, seekRaw, Handler.bind_assoc, Handler.onThrow_get_bind,
    onThrow_countSecondsWatched_bind, Handler.onThrow_modify_bind, onThrow_publishRoomEvent_bind,
    Handler.onThrow_modify]
  have husers : ((r.setPlaybackPosition position).setPlaybackStart (some env.now)).realusers =
      r.realusers := rfl
  have hsame : ((r.setPlaybackPosition position).setPlaybackStart (some env.now)).guarded =
      r.guarded ↔ r.SeekIdle env position := by
    simp only [SeekIdle, guarded, setPlaybackPosition, setPlaybackStart, markDirty, Guarded.mk.injEq,
      true_and, and_true, eq_comm]
  rw [absent_congr husers, hsame]
  simp only [implies_true, and_true, true_and]
  exact forall_comm

/-! ## Skipping -/

theorem afterAdvance_guarded (env : Env) (r : Room) :
    (afterAdvance env r).guarded = { r.guarded with playbackSpeed := 1 } := by
  have hwant : ∀ r : Room, (if env.sponsorblockEnabled = true ∧
      r.autoSkipSegmentCategories.length > 0 ∧ r.currentSource.isSome = true then
      { r with wantSponsorBlock := true } else r).guarded = r.guarded := by
    intro r
    split <;> rfl
  have hdrop : ∀ r : Room, (if r.currentSource = none then r.dropVideoSegments else r).guarded =
      r.guarded := by
    intro r
    split
    · exact r.dropVideoSegments_guarded
    · rfl
  rw [afterAdvance, setPlaybackSpeed_guarded, hdrop, hwant]

theorem advance_guarded_cons (now : Time) {r : Room} {head : QueueEntry} {tail : List QueueEntry}
    (h : r.queue = head :: tail) :
    (r.advance now).guarded = { r.guarded with
      queue := tail.map (·.item)
      currentSource := some head.item
      playbackPosition := head.item.startAt.getD 0
      playbackStart := some now } := by
  simp only [advance, h, dropVideoSegments_guarded, startSource_guarded, withQueue_guarded,
    VideoQueue.dequeue]
  rfl

/-- Playback ends: there is no current source any more. -/
theorem advance_nil_currentSource (now : Time) {r : Room} (h : r.queue = []) :
    (r.advance now).currentSource = none := by
  unfold advance
  rw [h]
  dsimp only
  split
  · rfl
  · next hc => simpa using hc

/-- Turning a queue round by its first element leaves it alone only if it has no other. -/
theorem append_single_eq_cons_iff {α : Type} {l : List α} {a b : α} :
    l ++ [b] = a :: l ↔ b = a ∧ ∀ x ∈ l, x = a := by
  induction l generalizing a with
  | nil => simp
  | cons c l ih =>
    simp only [List.cons_append, List.cons.injEq, ih, List.mem_cons, forall_eq_or_imp]
    constructor
    · rintro ⟨rfl, rfl, h⟩
      exact ⟨rfl, rfl, h⟩
    · rintro ⟨rfl, rfl, h⟩
      exact ⟨rfl, rfl, h⟩

/-- **When playing the next video changes nothing.** -/
theorem replaced_guarded_iff (env : Env) {r : Room} {current : QueueEntry}
    (h : r.currentSource = some current) (votesToSkip : OrderedSet ClientId) :
    (replaced env r current).guarded = { r.guarded with votesToSkip := votesToSkip } ↔
      r.votesToSkip = votesToSkip ∧
      (¬ r.Counts env.now ∨
        clearQueueItemTrim current.item = current.item ∧ r.playbackPosition = 0 ∧
          r.playbackStart = some env.now ∧
          (r.queueMode = .dj ∨
            r.queueMode = .loop ∧ r.playbackSpeed = 1 ∧ ∀ e ∈ r.queue, e.item = current.item)) := by
  have hsource : r.guarded.currentSource = some current.item := by simp [guarded, h]
  -- in manual and vote mode the queue gets shorter, or the current source goes
  have hplain : (afterAdvance env (r.advance env.now)).guarded ≠
      { r.guarded with votesToSkip := votesToSkip } := by
    rw [afterAdvance_guarded]
    cases hq : r.queue with
    | nil =>
      intro heq
      have hnone := congrArg Guarded.currentSource heq
      simp [guarded, advance_nil_currentSource env.now hq, h] at hnone
    | cons head tail =>
      rw [advance_guarded_cons env.now hq]
      intro heq
      have hlen := congrArg (fun g => g.queue.length) heq
      simp [guarded, hq] at hlen
  unfold replaced
  dsimp only
  by_cases hc : r.Counts env.now
  swap
  · simp [hc, guarded]
  · simp only [hc, if_false, not_true_eq_false, false_or]
    cases hm : r.queueMode with
    | manual => simp [hplain]
    | vote => simp [hplain]
    | dj =>
      simp only [startSource, guarded, setCurrentSource, setPlaybackPosition, setPlaybackStart,
        markDirty, Guarded.mk.injEq, h, true_and, Option.map_some, Option.some.injEq]
      tauto
    | loop =>
      rw [afterAdvance_guarded]
      cases hq : r.queue with
      | nil =>
        have hqueue : (r.withQueue (VideoQueue.enqueue [] [⟨env.fresh,
            clearQueueItemTrim current.item⟩])).queue =
              [⟨env.fresh, clearQueueItemTrim current.item⟩] := rfl
        rw [advance_guarded_cons env.now hqueue, withQueue_guarded]
        simp only [guarded, Guarded.mk.injEq, h, hq, Option.map_some, Option.some.injEq,
          clearQueueItemTrim, List.map_nil]
        simp
        tauto
      | cons head tail =>
        have hqueue : (r.withQueue (VideoQueue.enqueue (head :: tail) [⟨env.fresh,
            clearQueueItemTrim current.item⟩])).queue =
              head :: (tail ++ [⟨env.fresh, clearQueueItemTrim current.item⟩]) := rfl
        rw [advance_guarded_cons env.now hqueue, withQueue_guarded]
        simp only [guarded, Guarded.mk.injEq, h, hq, Option.map_some, Option.some.injEq,
          List.map_append, List.map_cons, List.map_nil, append_single_eq_cons_iff]
        constructor
        · rintro ⟨⟨hlast, htail⟩, hhead, hpos, -, hspeed, hstart, -, -, -, hvotes⟩
          have huntrimmed : clearQueueItemTrim current.item = current.item := hlast.trans hhead
          have hstartAt : head.item.startAt = none := by
            rw [hhead, ← huntrimmed]; rfl
          refine ⟨hvotes, huntrimmed, ?_, hstart.symm, .inr ⟨trivial, hspeed.symm, ?_⟩⟩
          · rw [← hpos, hstartAt]; rfl
          · intro e he
            rcases List.mem_cons.mp he with rfl | he
            · exact hhead
            · exact (htail _ (List.mem_map_of_mem he)).trans hhead
        · rintro ⟨hvotes, huntrimmed, hpos, hstart, hmode⟩
          rcases hmode with hmode | ⟨-, hspeed, hall⟩
          · cases hmode
          have hhead : head.item = current.item := hall head (by simp)
          have hstartAt : head.item.startAt = none := by
            rw [hhead, ← huntrimmed]; rfl
          refine ⟨⟨huntrimmed.trans hhead.symm, ?_⟩, hhead, ?_, trivial, hspeed.symm, hstart.symm,
            trivial, trivial, trivial, hvotes⟩
          · intro x hx
            obtain ⟨e, he, rfl⟩ := List.mem_map.mp hx
            exact (hall e (by simp [he])).trans hhead.symm
          · rw [hpos, hstartAt]; rfl

theorem skip_traces_iff (env : Env) (context : RoomRequestContext) {r : Room}
    {current : QueueEntry} (h : r.currentSource = some current) :
    Handler.OnThrow (fun r' => r'.guarded = r.guarded) (skip env context) r ↔
      (r.Absent context → (r.enableVoteSkip = true → (r.voteToSkip context).skipVoted = true) →
        r.SkipIdle env current.item) := by
  -- the room once the vote is cast, and once the votes are cleared
  have hvoted : (r.voteToSkip context).currentSource = some current ∧
      (r.voteToSkip context).realusers = r.realusers ∧
      (r.voteToSkip context).enableVoteSkip = r.enableVoteSkip := by
    rcases r.voteToSkip_cases context with ⟨-, heq⟩ | ⟨-, votes, dirty, heq⟩ <;> rw [heq] <;>
      exact ⟨h, rfl, rfl⟩
  have hcleared : ∃ votes dirty, (r.voteToSkip context).clearVotes =
      { r with votesToSkip := votes, dirty := dirty } ∧
      (votes = r.votesToSkip ↔ (r.enableVoteSkip = true → r.votesToSkip = ∅)) := by
    rcases r.voteToSkip_cases context with ⟨hoff, heq⟩ | ⟨hon, votes, dirty, heq⟩
    · refine ⟨r.votesToSkip, r.dirty, ?_, by simp [hoff]⟩
      rw [heq, clearVotes, if_neg (by simp [hoff])]
    · refine ⟨∅, insert .votesToSkip dirty, ?_, by simp [hon, eq_comm]⟩
      rw [heq, clearVotes]
      exact if_pos hon
  obtain ⟨votes, dirty, hclear, hvotes⟩ := hcleared
  have hidle : (replaced env (r.voteToSkip context).clearVotes current).guarded = r.guarded ↔
      r.SkipIdle env current.item := by
    rw [hclear]
    have hiff := replaced_guarded_iff env (r := { r with votesToSkip := votes, dirty := dirty })
      h r.votesToSkip
    rw [SkipIdle, ← hvotes]
    exact hiff
  have husers : (replaced env (r.voteToSkip context).clearVotes current).realusers =
      r.realusers := by
    rw [← dequeueNext_state env hvoted.1]
    exact ((dequeueNext_standing env).part Standing.realusers _).trans hvoted.2.1
  simp only [skip, Handler.onThrow_get_bind, h, Handler.onThrow_modify_bind, Handler.onThrow_when,
    Handler.onThrow_unawaited_bind, dequeueNext_state env hvoted.1, onThrow_publishRoomEvent_bind,
    Handler.onThrow_modify, hvoted.2.2, absent_congr husers, hidle, implies_true, and_true]
  exact forall_comm

/-! ## The queue -/

/-- A longer queue is another queue. -/
theorem guarded_ne_of_length {r r' : Room} (h : r'.queue.length ≠ r.queue.length) :
    r'.guarded ≠ r.guarded := by
  intro heq
  have hlen := congrArg (fun g => g.queue.length) heq
  simp only [guarded, List.length_map] at hlen
  exact h hlen

theorem remove_traces_iff (video : VideoId) (context : RoomRequestContext) (r : Room) :
    Handler.OnThrow (fun r' => r'.guarded = r.guarded) (removeFromQueue video context) r ↔
      (r.Absent context → r.queue.contains video = false) := by
  simp only [removeFromQueue, Handler.onThrow_get_bind]
  cases hc : VideoQueue.contains r.queue video with
  | false => simp
  | true =>
    obtain ⟨i, e, hget, -, hevict⟩ := VideoQueue.evict_of_contains hc
    have hchanged : (r.withQueue (VideoQueue.evict r.queue video)).guarded ≠ r.guarded := by
      refine guarded_ne_of_length ?_
      obtain ⟨hi, -⟩ := List.getElem?_eq_some_iff.mp hget
      rw [withQueue_queue, hevict, List.length_eraseIdx_of_lt hi]
      omega
    have hresult : (VideoQueue.evict r.queue video).result = .ok (i, e) := by rw [hevict]
    simp only [Bool.true_eq_false, if_false]
    rw [onThrow_onQueue_bind_of_ok hresult, onThrow_publishRoomEvent,
      absent_congr (withQueue_realusers r _)]
    simp [hchanged]

/-- Queueing something changes the queue. -/
theorem enqueue_guarded_ne (r : Room) {entries : List QueueEntry} (h : entries ≠ []) :
    (r.withQueue (r.queue.enqueue entries)).guarded ≠ r.guarded := by
  refine guarded_ne_of_length ?_
  rw [withQueue_queue, VideoQueue.enqueue, if_neg h, List.length_append]
  have hpos := List.length_pos_iff.mpr h
  omega

theorem addVideo_traces_iff (env : Env) (request : RoomRequest) (video : VideoAdd)
    (context : RoomRequestContext) (r : Room) :
    Handler.OnThrow (fun r' => r'.guarded = r.guarded) (addVideo env request video context) r ↔
      (r.Absent context → ¬ r.Addable env video) := by
  simp only [addVideo, Handler.onThrow_get_bind]
  cases hq : r.isVideoInQueue video.toVideoId with
  | true => simp [Addable, hq]
  | false =>
    simp only [Bool.false_eq_true, if_false]
    cases hi : env.getVideoInfo video.toVideoId with
    | error e => simp [Addable, hi]
    | ok found =>
      cases found with
      | none => simp [Addable, hi]
      | some found =>
        cases hs : withSubtitles video.subtitleUrl found with
        | error e => simp [Addable, hi, hs]
        | ok item =>
          have hadd : r.Addable env video := ⟨hq, found, item, hi, hs⟩
          simp only [Handler.onThrow_liftExcept_ok_bind, hs, Handler.onThrow_unawaited_bind, onQueue,
            Handler.onThrow_modify_bind, onThrow_publishRoomEvent, setPrevQueue_guarded,
            hadd, absent_congr ((setPrevQueue_realusers _ none).trans (withQueue_realusers r _)),
            not_true_eq_false]
          have hne := enqueue_guarded_ne r (List.cons_ne_nil ⟨env.fresh, item⟩ [])
          simp [hne]

theorem addVideos_traces_iff (env : Env) (request : RoomRequest) (videos : List VideoAdd)
    (context : RoomRequestContext) (r : Room) :
    Handler.OnThrow (fun r' => r'.guarded = r.guarded) (addVideos env request videos context) r ↔
      (r.Absent context → ¬ r.AllAddable env videos) := by
  simp only [addVideos]
  cases hi : env.getManyVideoInfo videos with
  | error e => simp [AllAddable, hi]
  | ok found =>
    simp only [Handler.onThrow_liftExcept_ok_bind, Handler.onThrow_get_bind]
    cases hn : r.notQueued found with
    | error e => simp [AllAddable, hi, hn]
    | ok added =>
      simp only [Handler.onThrow_liftExcept_ok_bind]
      by_cases hempty : added = []
      · simp [AllAddable, hi, hn, hempty]
      · have hadd : r.AllAddable env videos := ⟨found, added, hi, hn, hempty⟩
        have hne := enqueue_guarded_ne r hempty
        simp only [hempty, if_false, Handler.onThrow_unawaited_bind, onQueue,
          onThrow_publishRoomEvent, absent_congr (withQueue_realusers r _), hadd, hne,
          not_true_eq_false]

theorem add_traces_iff (env : Env) (video : Option VideoAdd) (videos : Option (List VideoAdd))
    (url : Option String) (context : RoomRequestContext) (r : Room) :
    Handler.OnThrow (fun r' => r'.guarded = r.guarded) (addToQueue env video videos url context) r ↔
      (r.Absent context →
        ¬ ((∃ v, resolvedVideo env video url = .ok (some v) ∧ r.Addable env v) ∨
          (∃ vs, resolvedVideo env video url = .ok none ∧ videos = some vs ∧
            r.AllAddable env vs))) := by
  simp only [addToQueue]
  cases hr : resolvedVideo env video url with
  | error e => simp
  | ok found =>
    simp only [Handler.onThrow_liftExcept_ok_bind]
    cases found with
    | some found => simpa using addVideo_traces_iff env _ found context r
    | none =>
      cases videos with
      | none => simp
      | some list => simpa using addVideos_traces_iff env _ list context r

/-- Changing an object leaves a list of items alone exactly if it changes none of them. -/
theorem map_mutate_items_iff (object : ObjectId) (f : QueueItem → QueueItem)
    (l : List QueueEntry) : (l.map (QueueEntry.mutate object f)).map (·.item) = l.map (·.item) ↔
      ∀ e ∈ l, e.object = object → f e.item = e.item := by
  rw [List.map_map]
  constructor
  · intro h e he hobj
    have heq := List.map_inj_left.mp h e he
    simpa [QueueEntry.mutate, hobj] using heq
  · intro h
    refine List.map_inj_left.mpr (fun e he => ?_)
    by_cases hobj : e.object = object
    · simpa [QueueEntry.mutate, hobj] using h e he hobj
    · simp [QueueEntry.mutate, hobj]

theorem update_traces_iff (video : VideoId) (update : QueueItemExtras)
    (context : RoomRequestContext) (r : Room) :
    Handler.OnThrow (fun r' => r'.guarded = r.guarded) (updateQueueItem video update context) r ↔
      (r.Absent context →
        ¬ ((∀ url, update.subtitleUrl = some url → endsWithVtt url = true) ∧
          ∃ e, r.queue.find? (fun e => e.is video) = some e ∧
            ∃ e', (e' ∈ r.queue ∨ r.currentSource = some e') ∧ e'.object = e.object ∧
              assignExtras update e'.item ≠ e'.item)) := by
  unfold updateQueueItem
  split
  · next h =>
    obtain ⟨url, hurl, hend⟩ := (Option.any_eq_true _ _).mp h
    have hnot : ¬ ∀ url, update.subtitleUrl = some url → endsWithVtt url = true := by
      intro hall
      simp [hall url hurl] at hend
    simp [hnot]
  · next h =>
    have hall : ∀ url, update.subtitleUrl = some url → endsWithVtt url = true := by
      intro url hurl
      simpa [hurl] using h
    cases hf : r.queue.find? (fun e => e.is video) with
    | none =>
      have hrun : (onQueue (·.update video update)).run r =
          ⟨r.withQueue (VideoQueue.update r.queue video update), [], .error .videoNotFound⟩ := by
        simp [onQueue, VideoQueue.update, hf, VideoQueue.refused]
      rw [Handler.onThrow_bind_of_error hrun, withQueue_guarded]
      simp [VideoQueue.update, hf, VideoQueue.refused, guarded]
    | some e =>
      have hresult : (VideoQueue.update r.queue video update).result = .ok e.object := by
        simp [VideoQueue.update, hf]
      rw [onThrow_onQueue_bind_of_ok hresult, Handler.onThrow_modify_bind, onThrow_publishRoomEvent]
      generalize hr' : (r.withQueue (VideoQueue.update r.queue video update)).mutateCurrent
        e.object (assignExtras update) = r'
      have husers : r'.realusers = r.realusers := by
        rw [← hr']; exact withQueue_realusers r _
      -- the queue's items and the current source, each changed or not
      have hguarded : r'.guarded = { r.guarded with
          queue := (r.queue.map (QueueEntry.mutate e.object (assignExtras update))).map (·.item)
          currentSource := (r.currentSource.map
            (QueueEntry.mutate e.object (assignExtras update))).map (·.item) } := by
        rw [← hr', withQueue, VideoQueue.update, hf]
        rfl
      have hsource : (r.currentSource.map
          (QueueEntry.mutate e.object (assignExtras update))).map (·.item) =
            r.currentSource.map (·.item) ↔
          ∀ e', r.currentSource = some e' → e'.object = e.object →
            assignExtras update e'.item = e'.item := by
        cases hc : r.currentSource with
        | none => simp
        | some current =>
          by_cases hobj : current.object = e.object <;> simp [QueueEntry.mutate, hobj]
      have hsame : r'.guarded = r.guarded ↔
          ∀ e', (e' ∈ r.queue ∨ r.currentSource = some e') → e'.object = e.object →
            assignExtras update e'.item = e'.item := by
        rw [hguarded]
        constructor
        · intro heq e' he' hobj
          rcases he' with he' | he'
          · exact (map_mutate_items_iff _ _ _).mp (congrArg Guarded.queue heq) e' he' hobj
          · exact hsource.mp (congrArg Guarded.currentSource heq) e' he' hobj
        · intro h
          rw [(map_mutate_items_iff _ _ _).mpr (fun e' he' => h e' (.inl he')),
            hsource.mpr (fun e' he' => h e' (.inr he'))]
          rfl
      rw [absent_congr husers, hsame]
      refine imp_congr_right (fun _ => ?_)
      simp only [Option.some.injEq, exists_eq_left', not_exists, not_and, not_not, ne_eq]
      exact ⟨fun h _ => h, fun h => h hall⟩

theorem requeueCurrent_noThrow (Q : Room → Prop) (env : Env) (k : Unit → RoomM Unit) (r : Room)
    (hk : ∀ r', Handler.OnThrow Q (k ()) r') : Handler.OnThrow Q (requeueCurrent env >>= k) r := by
  obtain ⟨r', h⟩ := requeueCurrent_returns env r
  exact (Handler.onThrow_bind_of_ok h).mpr (hk r')

theorem playNow_traces_iff (env : Env) (video : VideoAdd) (context : RoomRequestContext)
    (r : Room) :
    Handler.OnThrow (fun r' => r'.guarded = r.guarded) (playNow env video context) r ↔
      ¬ (r.currentSource.any (fun e => e.is video.toVideoId) = false ∧
        r.queue.contains video.toVideoId = true ∧
        r.grants.granted context.role "manage-queue.order" = true ∧
        ∃ url, truthy video.subtitleUrl = some url ∧ hasVttExtension url = false) := by
  simp only [playNow, Handler.onThrow_get_bind]
  cases hcur : r.currentSource.any (fun e => e.is video.toVideoId) with
  | true => simp
  | false =>
    have hin : r.isVideoInQueue video.toVideoId = r.queue.contains video.toVideoId := by
      rw [isVideoInQueue, hcur, Bool.false_or]
    simp only [Bool.false_eq_true, if_false, hin, onThrow_checkGrant_bind]
    cases hq : VideoQueue.contains r.queue video.toVideoId with
    | false =>
      -- the video is looked up: nothing is written before the last throw
      refine iff_of_true ⟨fun _ => ?_, fun _ => trivial⟩ (by simp)
      simp only [fetchToPlay, Bool.false_eq_true, if_false]
      cases hi : env.getVideoInfo video.toVideoId with
      | error e => exact (Handler.onThrow_bind_of_error rfl).mpr rfl
      | ok found =>
        refine (Handler.onThrow_bind_of_ok rfl).mpr ?_
        simp only [subtitleToPlay]
        cases truthy video.subtitleUrl with
        | none => simpa using requeueCurrent_noThrow _ env _ r (by simp)
        | some url =>
          cases hv : hasVttExtension url with
          | false => simp [hv]
          | true =>
            cases found with
            | none => simp [hv]
            | some item =>
              simp only [hv, Bool.true_eq_false, if_false, Option.map_some, Handler.bind_assoc,
                Handler.onThrow_modify_bind, Handler.onThrow_pure_bind]
              exact requeueCurrent_noThrow _ env _ _ (by simp)
    | true =>
      obtain ⟨i, e, hget, -, hevict⟩ := VideoQueue.evict_of_contains hq
      have hchanged : (r.withQueue (VideoQueue.evict r.queue video.toVideoId)).guarded ≠
          r.guarded := by
        refine guarded_ne_of_length ?_
        obtain ⟨hi, -⟩ := List.getElem?_eq_some_iff.mp hget
        rw [withQueue_queue, hevict, List.length_eraseIdx_of_lt hi]
        omega
      have hfetch : (fetchToPlay env video true).run r =
          ⟨r.withQueue (VideoQueue.evict r.queue video.toVideoId), [], .ok (some e)⟩ := by
        simp [fetchToPlay, onQueue, hevict]
      simp only [if_true, Handler.onThrow_bind_of_ok hfetch, true_and]
      cases hg : r.grants.granted context.role "manage-queue.order" with
      | false => simp
      | true =>
        simp only [subtitleToPlay]
        cases truthy video.subtitleUrl with
        | none => simpa using requeueCurrent_noThrow _ env _ _ (by simp)
        | some url =>
          cases hv : hasVttExtension url with
          | false => simp [hv, hchanged]
          | true =>
            refine iff_of_true ⟨fun _ => ?_, by simp⟩ (by simp [hv])
            simp only [hv, Bool.true_eq_false, if_false, Handler.bind_assoc,
              Handler.onThrow_modify_bind, Handler.onThrow_pure_bind]
            exact requeueCurrent_noThrow _ env _ _ (by simp)

/-! ## Requests that are rejected cleanly -/

/-- A queue operation that throws has not touched the items. -/
theorem reorderQueue_clean (fromIdx toIdx : ℚ) (r : Room) :
    Handler.OnThrow (fun r' => r'.guarded = r.guarded) (reorderQueue fromIdx toIdx) r := by
  rintro ⟨e, he⟩
  simp only [reorderQueue, onQueue] at he ⊢
  rw [withQueue_guarded]
  unfold VideoQueue.move at he ⊢
  split_ifs at he ⊢ <;> rfl

theorem joinRoom_clean (env : Env) (info : ClientInfo) (context : RoomRequestContext) (r : Room) :
    Handler.OnThrow (fun r' => r'.guarded = r.guarded) (joinRoom env info context) r :=
  Handler.onThrow_of_keeps (joinRoom_keeps (fun _ _ => rfl) env info context) rfl

theorem leaveRoom_clean (context : RoomRequestContext) (r : Room) :
    Handler.OnThrow (fun r' => r'.guarded = r.guarded) (leaveRoom context) r := by
  unfold leaveRoom
  cases context.clientId with
  | none => simp
  | some client =>
    simp only [Handler.onThrow_get_bind]
    cases r.getUserInfo client with
    | error e => simp
    | ok info => simp [onThrow_publishRoomEvent_bind]

theorem updateUser_clean (env : Env) (info : ClientInfo) (r : Room) :
    Handler.OnThrow (fun r' => r'.guarded = r.guarded) (updateUser env info) r :=
  Handler.onThrow_of_keeps (updateUser_keeps (fun _ _ => rfl) env info) rfl

theorem vote_clean (video : VideoId) (add : Bool) (context : RoomRequestContext) (r : Room) :
    Handler.OnThrow (fun r' => r'.guarded = r.guarded) (vote video add context) r := by
  unfold vote
  cases truthy context.clientId <;> simp

theorem chat_clean (text : String) (context : RoomRequestContext) (r : Room) :
    Handler.OnThrow (fun r' => r'.guarded = r.guarded) (chat text context) r :=
  Handler.onThrow_of_keeps (chat_keeps text context) rfl

theorem kickUser_clean (clientId : ClientId) (context : RoomRequestContext) (r : Room) :
    Handler.OnThrow (fun r' => r'.guarded = r.guarded) (kickUser clientId context) r :=
  Handler.onThrow_of_keeps (kickUser_keeps clientId context) rfl

/-- Once the roles are assigned nothing throws: the target is in the room. -/
theorem promoteUser_clean (targetClientId : ClientId) (role : Int) (context : RoomRequestContext)
    (r : Room) :
    Handler.OnThrow (fun r' => r'.guarded = r.guarded) (promoteUser targetClientId role context)
      r := by
  unfold promoteUser
  rw [Handler.onThrow_get_bind]
  cases ht : r.getUser targetClientId with
  | none => simp
  | some target =>
    have hid : target.id = targetClientId := by simpa [getUser] using List.find?_some ht
    refine Handler.onThrow_check_bind (checkGrants_keeps _ _) rfl (fun _ => ?_)
    dsimp only
    refine Handler.onThrow_check_bind (.when (fun _ => ?_)) rfl (fun _ => ?_)
    · cases demotePermission (r.getRole target) with
      | none => exact .throw _
      | some permission => exact checkGrant_keeps _ _
    refine Handler.onThrow_check_bind (.when (fun _ => .throw _)) rfl (fun _ => ?_)
    rw [Handler.onThrow_modify_bind]
    have husers : (promoted target role r).getUser target.id = some target := by
      rw [hid, ← ht]
      unfold promoted
      cases target.userId <;> rfl
    simp [syncUser, getUserInfo_of_getUser husers]

theorem applySettings_clean (settings : RoomSettingsPatch) (context : RoomRequestContext)
    (r : Room) :
    Handler.OnThrow (fun r' => r'.guarded = r.guarded) (applySettings settings context) r := by
  unfold applySettings
  rw [Handler.onThrow_get_bind]
  dsimp only
  refine Handler.onThrow_check_bind (.liftExcept _) rfl (fun masks => ?_)
  refine Handler.onThrow_check_bind (checkGrants_keeps _ _) rfl (fun _ => ?_)
  refine Handler.onThrow_check_bind (checkGrants_keeps _ _) rfl (fun _ => ?_)
  simp

theorem shuffle_clean (env : Env) (context : RoomRequestContext) (r : Room) :
    Handler.OnThrow (fun r' => r'.guarded = r.guarded) (shuffle env context) r := by
  unfold shuffle
  rw [onThrow_checkGrant_bind]
  refine ⟨fun _ => ?_, fun _ => rfl⟩
  rintro ⟨e, he⟩
  cases he

theorem setPlaybackSpeedTo_clean (env : Env) (speed : ℚ) (r : Room) :
    Handler.OnThrow (fun r' => r'.guarded = r.guarded) (setPlaybackSpeedTo env speed) r := by
  simp [setPlaybackSpeedTo, flushPlaybackPosition, Handler.bind_assoc,
    onThrow_countSecondsWatched_bind]

theorem restoreQueue_clean (env : Env) (discard : Bool) (r : Room) :
    Handler.OnThrow (fun r' => r'.guarded = r.guarded) (restoreQueue env discard) r := by
  unfold restoreQueue
  rw [Handler.onThrow_get_bind]
  cases r.prevQueue with
  | none => simp
  | some items =>
    cases discard with
    | true => simp
    | false =>
      have hres : (VideoQueue.enqueue r.queue (restoredEntries env items)).result = .ok () := by
        unfold VideoQueue.enqueue
        split <;> rfl
      simp only [Bool.false_eq_true, if_false]
      rw [onThrow_onQueue_bind_of_ok hres]
      simp

/-! ## The exact condition -/

/-- What an undo leaves behind is what the seek or the remove that it turns into does. -/
theorem undo_traces_iff (env : Env) (request : RoomRequest) (additional : RoomEventContext)
    (context : RoomRequestContext) (r : Room) :
    Handler.OnThrow (fun r' => r'.guarded = r.guarded) (undo env request additional context) r ↔
      ¬ r.Traces env context (.undo request additional) := by
  cases request with
  | seek value =>
    simp only [undo, Traces]
    cases truthyNumber additional.prevPosition with
    | none => simp
    | some position =>
      simp only [onThrow_mediated_iff, seek_traces_iff, Option.some.injEq, exists_eq_left',
        SeekTraces, not_and, not_not]
  | add video videos url =>
    simp only [undo]
    rw [Handler.onThrow_get_bind]
    cases video with
    | none => cases r.queue <;> simp [Traces]
    | some video =>
      simp only [Traces]
      cases hq : r.queue with
      | nil => simp
      | cons head tail =>
        simp only [onThrow_mediated_iff, remove_traces_iff, RemoveTraces, hq, ne_eq, not_and,
          reduceCtorEq, not_false_eq_true, true_imp_iff, Bool.not_eq_true]
  | skip => exact iff_of_true (by simp [undo]) id
  | remove video =>
    refine iff_of_true ?_ id
    simp only [undo]
    cases additional.video <;> cases additional.queueIdx <;> simp
  | _ => exact iff_of_true (by simp [undo]) id

/-- A room with one video in the queue and nothing playing. -/
def oneVideoRoom : Room :=
  { Room.new "foo" 0 with queue := [⟨0, .ofVideoId ⟨.youtube, "queued"⟩⟩] }

/-- Play the queued video now, with subtitles in a format that is refused. -/
def refusedPlayNow : RoomRequest :=
  .playNow ⟨⟨.youtube, "queued"⟩, ⟨none, none, some "https://example.com/captions.srt"⟩⟩

end Room

end OpenTogetherTube.Server
