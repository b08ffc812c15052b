import OpenTogetherTube.Lib.Doubles
import OpenTogetherTube.Server.Started

/-!
# The room as a client has it

A client keeps the properties of its room in a store, and the time since when the video plays, which
nobody tells it: it takes the time at which a message comes that starts playback, or that has a
source or a position while the video plays. From these it works out, every quarter of a second,
where the playback head is (`RoomState.truePosition`).

`Follows` says that the store has what the room has, as far as the head is concerned, so that both
have the head at the same place at all times. A full sync establishes it, and the sync message of a
step that announces what it does keeps it, so it holds throughout (`truePosition_eq`).

All of this is in exact arithmetic. In double precision the two add up different numbers, and may
differ in the last bit (`not_truePosition_eq`).
-/

namespace OpenTogetherTube.Client

open OpenTogetherTube.Common OpenTogetherTube.Lib OpenTogetherTube.Server

/-! ## The store -/

/-- `ServerMessageSync`: some of the properties. -/
abbrev ServerMessageSync := (prop : SyncProp) → Option prop.Value

/-- `RoomState`. Maps, sets and grants are kept as they are serialized; the store makes a `Map`, a `Set`
and `new Grants(message.grants)` of them. -/
structure RoomState where
  name : String
  title : String
  description : String
  isTemporary : Bool
  visibility : Visibility
  queueMode : QueueMode
  currentSource : Option QueueItem
  queue : List QueueItem
  isPlaying : Bool
  playbackPosition : ℚ
  playbackSpeed : ℚ
  hasOwner : Bool
  voteCounts : Option (List (String × Nat))
  playbackStartTime : Option Time
  videoSegments : Option (List Segment)
  grants : List (Role × GrantMask)
  prevQueue : Option (List QueueItem)
  enableVoteSkip : Bool
  votesToSkip : List ClientId

namespace RoomState

/-- The time since when the video plays, after a message that says this of the three. -/
def startTime (s : RoomState) (now : Time) (isPlaying : Option Bool)
    (currentSource : Option (Option QueueItem)) (playbackPosition : Option ℚ) : Option Time :=
  let start :=
    match isPlaying with
    | some isPlaying =>
      if s.isPlaying ≠ isPlaying then if isPlaying then some now else s.playbackStartTime
      else s.playbackStartTime
    | none => s.playbackStartTime
  if (currentSource.join.isSome ∨ playbackPosition.isSome) ∧ s.isPlaying then some now else start

/-- The `sync` action. -/
def sync (now : Time) (message : ServerMessageSync) (s : RoomState) : RoomState where
  name := (message .name).getD s.name
  title := (message .title).getD s.title
  description := (message .description).getD s.description
  isTemporary := (message .isTemporary).getD s.isTemporary
  visibility := (message .visibility).getD s.visibility
  queueMode := (message .queueMode).getD s.queueMode
  currentSource := (message .currentSource).getD s.currentSource
  queue := (message .queue).getD s.queue
  isPlaying := (message .isPlaying).getD s.isPlaying
  playbackPosition := (message .playbackPosition).getD s.playbackPosition
  playbackSpeed := (message .playbackSpeed).getD s.playbackSpeed
  hasOwner := (message .hasOwner).getD s.hasOwner
  voteCounts := (message .voteCounts).or s.voteCounts
  playbackStartTime :=
    s.startTime now (message .isPlaying) (message .currentSource) (message .playbackPosition)
  videoSegments := (message .videoSegments).or s.videoSegments
  grants := (message .grants).getD s.grants
  prevQueue := (message .prevQueue).getD s.prevQueue
  enableVoteSkip := (message .enableVoteSkip).getD s.enableVoteSkip
  votesToSkip := (message .votesToSkip).getD s.votesToSkip

/-- Where the head is if there is a video. Without a start it is taken to start now. -/
def position (s : RoomState) (now : Time) : ℚ :=
  if s.isPlaying then
    calculateCurrentPosition (s.playbackStartTime.getD now) now s.playbackPosition s.playbackSpeed
  else s.playbackPosition

/-- `timestampUpdate`. -/
def truePosition (s : RoomState) (now : Time) : ℚ :=
  if s.currentSource.isSome then s.position now else 0

theorem position_paused {s : RoomState} (h : s.isPlaying = false) (t : Time) :
    s.position t = s.playbackPosition := by
  simp [position, h]

theorem position_playing {s : RoomState} (h : s.isPlaying = true) {start : Time}
    (hstart : s.playbackStartTime = some start) (t : Time) :
    s.position t = s.playbackPosition + ((t - start : Int) : ℚ) / 1000 * s.playbackSpeed := by
  simp [position, h, hstart, calculateCurrentPosition]

end RoomState

/-! ## What the room sends -/

/-- All of `syncableState`. -/
def fullSync (r : Room) (now : Time) : ServerMessageSync := fun prop => some (r.syncableAt now prop)

/-- The dirty properties of it. -/
def deltaSync (r : Room) (now : Time) : ServerMessageSync := fun prop =>
  if prop ∈ r.dirty then some (r.syncableAt now prop) else none

/-- A room, and a client of it. -/
structure Pair where
  room : Room
  client : RoomState

/-- `Room.sync`, delivered at once. -/
def Pair.sync (now : Time) (p : Pair) : Pair :=
  if p.room.dirty = ∅ then p
  else ⟨{ p.room with dirty := ∅ }, p.client.sync now (deltaSync p.room now)⟩

/-! ## The store follows the room -/

/-- The store has what the room has, as far as the playback head is concerned. -/
structure Follows (r : Room) (s : RoomState) : Prop where
  isPlaying : s.isPlaying = r.isPlaying
  currentSource : s.currentSource = r.currentSource.map (·.item)
  playbackSpeed : s.playbackSpeed = r.playbackSpeed
  position : ∀ t, s.position t = r.realPlaybackPosition t
  started : r.Started

section Follows

variable {r r' : Room} {s : RoomState} {now : Time}

/-- A store that has the position of now has that of any time. -/
theorem position_eq_of_start (now : Time) (hplaying : s.isPlaying = r.isPlaying)
    (hspeed : s.playbackSpeed = r.playbackSpeed)
    (hposition : s.playbackPosition = r.realPlaybackPosition now) (hstarted : r.Started)
    (hstart : s.isPlaying = true → s.playbackStartTime = some now) (t : Time) :
    s.position t = r.realPlaybackPosition t := by
  rw [Room.realPlaybackPosition_later hstarted now t]
  cases hs : s.isPlaying with
  | false =>
    have hrate : r.rate = 0 := by simp [Room.rate, ← hplaying, hs]
    rw [RoomState.position_paused hs, hposition, hrate, mul_zero, add_zero]
  | true =>
    have hrate : r.rate = r.playbackSpeed := by simp [Room.rate, ← hplaying, hs]
    rw [RoomState.position_playing hs (hstart hs), hposition, hspeed, hrate]

/-- A message with the position starts the clock anew. -/
theorem startTime_of_position {isPlaying : Option Bool} {source : Option (Option QueueItem)}
    {position : ℚ} (hplaying : isPlaying.getD s.isPlaying = true) :
    s.startTime now isPlaying source (some position) = some now := by
  unfold RoomState.startTime
  cases hs : s.isPlaying <;> cases isPlaying <;> simp_all

/-- A message without a position and a source starts it only if playback starts. -/
theorem startTime_of_none {isPlaying : Option Bool} {source : Option (Option QueueItem)}
    (hsource : source.join = none) : s.startTime now isPlaying source none =
      if s.isPlaying = false ∧ isPlaying = some true then some now else s.playbackStartTime := by
  unfold RoomState.startTime
  cases hs : s.isPlaying <;> rcases isPlaying with _ | _ | _ <;> simp [hsource]

/-- **A full sync brings the store up to date**, whatever it had before. -/
theorem follows_fullSync (hr : r.Started) (now : Time) (s : RoomState) :
    Follows r (s.sync now (fullSync r now)) := by
  refine ⟨rfl, rfl, rfl, position_eq_of_start now rfl rfl rfl hr (fun hplaying => ?_), hr⟩
  show s.startTime now (some r.isPlaying) _ (some (r.realPlaybackPosition now)) = some now
  exact startTime_of_position hplaying

/-- What the store has of a property after the sync message. -/
theorem deltaSync_getD (htracked : Room.Tracked now ∅ r r') (prop : SyncProp) :
    (deltaSync r' now prop).getD (r.syncableAt now prop) = r'.syncableAt now prop := by
  unfold deltaSync
  split
  · rfl
  · next hprop => exact (htracked.same prop hprop (Set.notMem_empty prop)).symm

/-- Without a position in the message the store keeps what it has, and its clock starts only if
playback does. -/
theorem sync_unmarked (hsource : .currentSource ∉ r'.dirty)
    (hposition : .playbackPosition ∉ r'.dirty) :
    (s.sync now (deltaSync r' now)).playbackPosition = s.playbackPosition ∧
    (s.sync now (deltaSync r' now)).playbackStartTime =
      if s.isPlaying = false ∧ .isPlaying ∈ r'.dirty ∧ r'.isPlaying = true then some now
      else s.playbackStartTime := by
  have hnone : deltaSync r' now .playbackPosition = none := if_neg hposition
  have hnosource : deltaSync r' now .currentSource = none := if_neg hsource
  constructor
  · show (deltaSync r' now .playbackPosition).getD s.playbackPosition = _
    rw [hnone]
    rfl
  · show s.startTime now _ (deltaSync r' now .currentSource)
      (deltaSync r' now .playbackPosition) = _
    rw [hnone, hnosource]
    by_cases hplaying : .isPlaying ∈ r'.dirty
    · have hsome : deltaSync r' now .isPlaying = some r'.isPlaying := if_pos hplaying
      rw [hsome]
      refine (startTime_of_none rfl).trans ?_
      simp [hplaying]
    · have hunsaid : deltaSync r' now .isPlaying = none := if_neg hplaying
      rw [hunsaid]
      refine (startTime_of_none rfl).trans ?_
      simp [hplaying]

/-- A head that moves on as it did is where it would have been. -/
theorem realPlaybackPosition_eq_of_rate (hr : r.Started) (hr' : r'.Started)
    (hnow : r'.realPlaybackPosition now = r.realPlaybackPosition now) (hrate : r'.rate = r.rate)
    (t : Time) : r'.realPlaybackPosition t = r.realPlaybackPosition t := by
  rw [Room.realPlaybackPosition_later hr' now t, Room.realPlaybackPosition_later hr now t, hnow,
    hrate]

/-- **The sync message of a step that announces what it does.** -/
theorem Follows.sync (h : Follows r s) (hdirty : .currentSource ∈ r.dirty →
    .playbackPosition ∈ r.dirty) (htracked : Room.Tracked now ∅ r r') (ha : r.Announces r') :
    Follows r' (s.sync now (deltaSync r' now)) := by
  have hstarted : r'.Started := ha.started h.started
  have hplaying : (s.sync now (deltaSync r' now)).isPlaying = r'.isPlaying := by
    show (deltaSync r' now .isPlaying).getD s.isPlaying = r'.isPlaying
    rw [h.isPlaying]
    exact deltaSync_getD htracked .isPlaying
  have hspeed : (s.sync now (deltaSync r' now)).playbackSpeed = r'.playbackSpeed := by
    show (deltaSync r' now .playbackSpeed).getD s.playbackSpeed = r'.playbackSpeed
    rw [h.playbackSpeed]
    exact deltaSync_getD htracked .playbackSpeed
  have hsource : (s.sync now (deltaSync r' now)).currentSource =
      r'.currentSource.map (·.item) := by
    show (deltaSync r' now .currentSource).getD s.currentSource = _
    rw [h.currentSource]
    exact deltaSync_getD htracked .currentSource
  refine ⟨hplaying, hsource, hspeed, ?_, hstarted⟩
  by_cases hposition : .playbackPosition ∈ r'.dirty
  · have hsome : deltaSync r' now .playbackPosition = some (r'.realPlaybackPosition now) :=
      if_pos hposition
    refine position_eq_of_start now hplaying hspeed ?_ hstarted (fun hs => ?_)
    · show (deltaSync r' now .playbackPosition).getD s.playbackPosition = _
      rw [hsome]
      rfl
    · show s.startTime now _ _ (deltaSync r' now .playbackPosition) = some now
      rw [hsome]
      exact startTime_of_position hs
  · have hunmarked : .currentSource ∉ r'.dirty := by
      intro hmark
      rcases ha.source hmark with hmark | hmark
      · exact hposition (ha.marks (hdirty hmark))
      · exact hposition hmark
    have hsame : r'.playbackSpeed = r.playbackSpeed := by
      by_contra hne
      exact hposition (ha.speed hne)
    have hnow : r'.realPlaybackPosition now = r.realPlaybackPosition now :=
      htracked.same .playbackPosition hposition (Set.notMem_empty _)
    obtain ⟨hkept, hstart⟩ := @sync_unmarked r' s now hunmarked hposition
    cases hr : r.isPlaying with
    | true =>
      -- the head moves on as it did
      have hr' : r'.isPlaying = true := by
        by_contra hstopped
        exact hposition (ha.stopped hr (Bool.eq_false_of_not_eq_true hstopped))
      have hs : s.isPlaying = true := h.isPlaying.trans hr
      have hrate : r'.rate = r.rate := by simp [Room.rate, hr, hr', hsame]
      intro t
      rw [realPlaybackPosition_eq_of_rate h.started hstarted hnow hrate t, ← h.position t]
      rw [if_neg (by simp [hs])] at hstart
      unfold RoomState.position
      rw [hplaying, hspeed, hkept, hstart, hr', hs, hsame, h.playbackSpeed]
    | false =>
      -- the head stands still, or starts to move from where it is
      have hs : s.isPlaying = false := h.isPlaying.trans hr
      refine position_eq_of_start now hplaying hspeed ?_ hstarted (fun hs' => ?_)
      · rw [hkept, hnow, ← h.position now, RoomState.position_paused hs]
      · have hr' : r'.isPlaying = true := hplaying.symm.trans hs'
        have hmark : .isPlaying ∈ r'.dirty := by
          by_contra hmark
          have heq : r'.isPlaying = r.isPlaying :=
            htracked.same .isPlaying hmark (Set.notMem_empty _)
          rw [hr, hr'] at heq
          cases heq
        rw [hstart, if_pos ⟨hs, hmark, hr'⟩]

end Follows

/-! ## Runs -/

/-- The requests that the run is about. -/
def movesHead : RoomRequest → Bool
  | .playback _ | .seek _ | .playbackSpeed _ | .skip | .playNow _ => true
  | _ => false

/-- A request, or the periodic update. -/
inductive Op where
  | request (request : RoomRequest) (context : RoomRequestContext)
  | update

def Op.run (env : Env) : Op → RoomM Unit
  | .request req context => Room.processRequest env req context
  | .update => Room.update env

structure Step where
  env : Env
  op : Op

/-- The step is the update, or one of those requests. -/
def Step.MovesHead (s : Step) : Prop :=
  match s.op with
  | .request request _ => movesHead request = true
  | .update => True

instance (s : Step) : Decidable s.MovesHead :=
  match s with
  | ⟨_, .request request _⟩ => inferInstanceAs (Decidable (movesHead request = true))
  | ⟨_, .update⟩ => inferInstanceAs (Decidable True)

/-- The step is taken, and what it marked is sent. -/
def Step.apply (s : Step) (p : Pair) : Pair :=
  Pair.sync s.env.now ⟨((s.op.run s.env).run p.room).state, p.client⟩

theorem Step.kept {s : Step} (hs : s.MovesHead) (r : Room) :
    Room.Tracked s.env.now ∅ r ((s.op.run s.env).run r).state ∧
      r.Announces ((s.op.run s.env).run r).state := by
  obtain ⟨env, op⟩ := s
  cases op with
  | update => exact ⟨Room.update_tracked env r, Room.update_announces env r⟩
  | request request context =>
    have hboth : ∀ {handler : RoomM Unit}, handler.Keeps (Room.Tracked env.now ∅) →
        handler.Keeps Room.Announces →
        Room.Tracked env.now ∅ r ((Room.mediated request context handler).run r).state ∧
          r.Announces ((Room.mediated request context handler).run r).state :=
      fun h h' => ⟨Room.mediated_keeps h r, Room.mediated_keeps h' r⟩
    have hmoves : movesHead request = true := hs
    cases request with
    | playback state =>
      exact hboth (Room.playback_tracked env state context)
        (Room.playback_announces env state context)
    | seek value =>
      exact hboth (Room.seek_tracked env value context) (Room.seek_announces env value context)
    | playbackSpeed speed =>
      exact hboth (Room.setPlaybackSpeedTo_tracked env speed)
        (Room.setPlaybackSpeedTo_announces env speed)
    | skip => exact hboth (Room.skip_tracked env context) (Room.skip_announces env context)
    | playNow video =>
      exact hboth (Room.playNow_tracked env video context)
        (Room.playNow_announces env video context)
    | _ => cases hmoves

/-- The client follows the room, and no source waits to be sent without its position. -/
structure Pair.InStep (p : Pair) : Prop where
  follows : Follows p.room p.client
  source : .currentSource ∈ p.room.dirty → .playbackPosition ∈ p.room.dirty

theorem Follows.clean {r : Room} {s : RoomState} (h : Follows r s) :
    Follows { r with dirty := ∅ } s :=
  ⟨h.isPlaying, h.currentSource, h.playbackSpeed, h.position, h.started⟩

/-- Without dirty properties there is nothing to send, and a message would change nothing. -/
theorem sync_of_clean {r : Room} (h : r.dirty = ∅) (now : Time) (s : RoomState) :
    s.sync now (deltaSync r now) = s := by
  have hnone : deltaSync r now = fun _ => none := by
    funext prop
    apply if_neg
    rw [h]
    exact Finset.notMem_empty prop
  rw [hnone]
  rfl

theorem Pair.InStep.apply {p : Pair} (h : p.InStep) {s : Step} (hs : s.MovesHead) :
    (s.apply p).InStep := by
  obtain ⟨htracked, ha⟩ := s.kept hs p.room
  have hfollows := h.follows.sync h.source htracked ha
  unfold Step.apply Pair.sync
  split
  · next hclean =>
    rw [sync_of_clean hclean] at hfollows
    refine ⟨hfollows, fun hmark => ?_⟩
    rw [hclean] at hmark
    exact absurd hmark (Finset.notMem_empty _)
  · refine ⟨hfollows.clean, fun hmark => ?_⟩
    exact absurd hmark (Finset.notMem_empty _)

/-- A client has just been sent everything. -/
def Pair.start (r : Room) (s : RoomState) (now : Time) : Pair :=
  ⟨{ r with dirty := ∅ }, s.sync now (fullSync r now)⟩

theorem Pair.inStep_start {r : Room} (hr : r.Started) (s : RoomState) (now : Time) :
    (Pair.start r s now).InStep :=
  ⟨(follows_fullSync hr now s).clean, fun hmark => absurd hmark (Finset.notMem_empty _)⟩

def Pair.after (p : Pair) (run : List Step) : Pair := run.foldl (fun p s => s.apply p) p

theorem Pair.InStep.after {p : Pair} (h : p.InStep) {run : List Step}
    (hrun : ∀ s ∈ run, s.MovesHead) : (p.after run).InStep := by
  induction run generalizing p with
  | nil => exact h
  | cons s run ih =>
    exact ih (h.apply (hrun s List.mem_cons_self)) (fun s hs => hrun s (List.mem_cons_of_mem _ hs))

theorem Follows.truePosition {r : Room} {s : RoomState} (h : Follows r s)
    (hsource : r.currentSource ≠ none) (t : Time) :
    s.truePosition t = r.realPlaybackPosition t := by
  have hsome : s.currentSource.isSome = true := by
    rw [h.currentSource, Option.isSome_map, Option.isSome_iff_ne_none]
    exact hsource
  rw [RoomState.truePosition, if_pos hsome, h.position]

/-- **The client has the playback head where the room has it**, at every time at which there is a
video. -/
theorem truePosition_eq {r : Room} (hr : r.Live) (s : RoomState) (now : Time) {run : List Step}
    (hrun : ∀ s ∈ run, s.MovesHead)
    (hsource : ((Pair.start r s now).after run).room.currentSource ≠ none) (t : Time) :
    ((Pair.start r s now).after run).client.truePosition t =
      ((Pair.start r s now).after run).room.realPlaybackPosition t :=
  ((Pair.inStep_start hr.started s now).after hrun).follows.truePosition hsource t

/-- A store with nothing in it. -/
def emptyStore : RoomState where
  name := ""
  title := ""
  description := ""
  isTemporary := false
  visibility := .Unlisted
  queueMode := .manual
  currentSource := none
  queue := []
  isPlaying := false
  playbackPosition := 0
  playbackSpeed := 1
  hasOwner := false
  voteCounts := none
  playbackStartTime := none
  videoSegments := none
  grants := []
  prevQueue := none
  enableVoteSkip := false
  votesToSkip := []

/-- A room whose saved queue has been brought back. -/
def restoredRoom : Room :=
  Room.construct
    { name := some "room"
      queue := some [.ofVideoId ⟨.youtube, "first"⟩, .ofVideoId ⟨.direct, "second"⟩] }
    0

/-- The first video is taken from the queue, played fast, stopped, and skipped. -/
def someSteps : List Step :=
  let host : RoomRequestContext := ⟨"host", .owner, none, none⟩
  [⟨emptyEnv 1000, .update⟩,
    ⟨emptyEnv 1500, .request (.playback true) host⟩,
    ⟨emptyEnv 2500, .request (.playbackSpeed 2) host⟩,
    ⟨emptyEnv 4000, .request (.seek (some 30)) host⟩,
    ⟨emptyEnv 5000, .request (.playback false) host⟩,
    ⟨emptyEnv 6000, .request .skip host⟩,
    ⟨emptyEnv 6000, .request (.playback true) host⟩]

theorem truePosition_eq_someSteps :
    (∀ s ∈ someSteps, s.MovesHead) ∧
    ((Pair.start restoredRoom emptyStore 500).after someSteps).room.currentSource ≠ none ∧
    ((Pair.start restoredRoom emptyStore 500).after someSteps).client.truePosition 7000 =
      ((Pair.start restoredRoom emptyStore 500).after someSteps).room.realPlaybackPosition
        7000 := by
  have hsource :
      ((Pair.start restoredRoom emptyStore 500).after someSteps).room.currentSource ≠ none := by
    decide +kernel
  have hrun : ∀ s ∈ someSteps, s.MovesHead := by decide +kernel
  have hlive : restoredRoom.Live := .created _ 0 rfl
  exact ⟨hrun, hsource, truePosition_eq hlive emptyStore 500 hrun hsource 7000⟩

/-! ## In doubles

The same formulas, with each result rounded by `rnd`. -/

section Doubles

variable (rnd : ℚ → ℚ)

/-- `calculateCurrentPosition`. -/
def calculateCurrentPositionIn (startTime now : Time) (offset playbackSpeed : ℚ) : ℚ :=
  rnd (offset + rnd (rnd (((now - startTime : Int) : ℚ) / 1000) * playbackSpeed))

/-- `realPlaybackPosition`. -/
def realPlaybackPositionIn (r : Room) (now : Time) : ℚ :=
  match r.playbackStart with
  | some start =>
    if r.isPlaying then
      rnd (r.playbackPosition + calculateCurrentPositionIn rnd start now 0 r.playbackSpeed)
    else r.playbackPosition
  | none => r.playbackPosition

/-- All of `syncableState`. -/
def fullSyncIn (r : Room) (now : Time) : ServerMessageSync
  | .playbackPosition => some (realPlaybackPositionIn rnd r now)
  | prop => some (r.syncableAt now prop)

/-- `timestampUpdate`. -/
def RoomState.truePositionIn (s : RoomState) (now : Time) : ℚ :=
  if s.currentSource.isSome then
    if s.isPlaying then
      calculateCurrentPositionIn rnd (s.playbackStartTime.getD now) now s.playbackPosition
        s.playbackSpeed
    else s.playbackPosition
  else 0

end Doubles

theorem realPlaybackPositionIn_id (r : Room) (now : Time) :
    realPlaybackPositionIn id r now = r.realPlaybackPosition now := by
  unfold realPlaybackPositionIn Room.realPlaybackPosition Room.calcDurationFromPlaybackStart
  cases r.playbackStart with
  | none => rfl
  | some start => simp [calculateCurrentPositionIn, calculateCurrentPosition]

theorem fullSyncIn_id (r : Room) (now : Time) : fullSyncIn id r now = fullSync r now := by
  funext prop
  cases prop with
  | playbackPosition => exact congrArg some (realPlaybackPositionIn_id r now)
  | _ => rfl

theorem RoomState.truePositionIn_id (s : RoomState) (now : Time) :
    s.truePositionIn id now = s.truePosition now := rfl

/-- The first video plays since time 0. -/
def playingRoom : Room :=
  let env := { emptyEnv 0 with session := fun _ => some (.loggedOut "visitor") }
  ((Room.processUnauthorizedRequest env (.playback true) ⟨"token", none⟩).run
    ((Room.update env).run restoredRoom).state).state

/-- **In doubles the heads come apart** for a client that was just sent everything: 0.1 seconds and
0.2 more are not 0.3. -/
theorem not_truePosition_eq : ¬ ∀ (r : Room) (_ : r.Live) (s : RoomState) (now : Time),
    r.currentSource ≠ none → ∀ t,
    (s.sync now (fullSyncIn Double.nearest r now)).truePositionIn Double.nearest t =
      realPlaybackPositionIn Double.nearest r t := by
  intro h
  have hlive : playingRoom.Live := .requested (.updated (.created _ 0 rfl) _) _ _ _
  have hheads := h playingRoom hlive emptyStore 100 (by decide +kernel) 300
  exact absurd hheads (by decide +kernel)

end OpenTogetherTube.Client
