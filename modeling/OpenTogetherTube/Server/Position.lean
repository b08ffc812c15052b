import OpenTogetherTube.Lib.StepIntegral
import OpenTogetherTube.Server.Dirty
import OpenTogetherTube.Server.Stock

/-!
# The playback head moves by the speed

Where the playback head is, a room keeps in four fields: whether it plays, how fast, a position, and
since when it has played from there. Seeking and going on to the next video put the head somewhere
(`RestartsAt`); every other operation on playback leaves it where it is at that moment (`Continues`)
and only changes how it moves from there on.

So the head is where it was put last, and then moved on by the speed for as long as the room played:
its position is the integral of the `rate` over the time since (`position_eq_integral`).
-/

namespace OpenTogetherTube.Server

open OpenTogetherTube.Common OpenTogetherTube.Lib

namespace Room

/-- How fast the playback head moves. -/
def rate (r : Room) : ℚ := if r.isPlaying then r.playbackSpeed else 0

/-- A room that plays knows since when. -/
def Started (r : Room) : Prop := r.isPlaying = true → r.playbackStart ≠ none

section Head

variable {r : Room} {now : Time}

theorem realPlaybackPosition_paused (h : r.isPlaying = false) (t : Time) :
    r.realPlaybackPosition t = r.playbackPosition := by
  simp [realPlaybackPosition, h]

theorem realPlaybackPosition_playing (h : r.isPlaying = true) {start : Time}
    (hstart : r.playbackStart = some start) (t : Time) :
    r.realPlaybackPosition t =
      r.playbackPosition + ((t - start : Int) : ℚ) / 1000 * r.playbackSpeed := by
  simp [realPlaybackPosition, calcDurationFromPlaybackStart, calculateCurrentPosition, h, hstart]

/-- Playback that starts now has moved nowhere yet. -/
theorem realPlaybackPosition_of_start (h : r.playbackStart = some now) :
    r.realPlaybackPosition now = r.playbackPosition := by
  simp [realPlaybackPosition, calcDurationFromPlaybackStart, h, calculateCurrentPosition_self]

/-- **The head moves on by the rate.** -/
theorem realPlaybackPosition_later (h : r.Started) (now t : Time) :
    r.realPlaybackPosition t =
      r.realPlaybackPosition now + ((t - now : Int) : ℚ) / 1000 * r.rate := by
  cases hplaying : r.isPlaying with
  | false =>
    have hrate : r.rate = 0 := by simp [rate, hplaying]
    rw [realPlaybackPosition_paused hplaying, realPlaybackPosition_paused hplaying, hrate]
    ring
  | true =>
    obtain ⟨start, hstart⟩ := Option.ne_none_iff_exists'.mp (h hplaying)
    have hrate : r.rate = r.playbackSpeed := by simp [rate, hplaying]
    rw [realPlaybackPosition_playing hplaying hstart, realPlaybackPosition_playing hplaying hstart,
      hrate]
    push_cast
    ring

end Head

/-! ## What an operation does to the head -/

/-- The head is where it was, whatever it does from now on. -/
structure Continues (now : Time) (r r' : Room) : Prop where
  started : r.Started → r'.Started
  position : r'.realPlaybackPosition now = r.realPlaybackPosition now

instance {now : Time} : IsPreorder Room (Continues now) where
  refl _ := ⟨id, rfl⟩
  trans _ _ _ h h' := ⟨h'.started ∘ h.started, h'.position.trans h.position⟩

/-- The head is put somewhere. -/
structure RestartsAt (now : Time) (position : ℚ) (r : Room) : Prop where
  start : r.playbackStart = some now
  position : r.playbackPosition = position

section RestartsAt

variable {r : Room} {now : Time} {position : ℚ}

theorem RestartsAt.started (h : r.RestartsAt now position) : r.Started := by
  intro _
  rw [h.start]
  exact Option.some_ne_none now

theorem RestartsAt.realPlaybackPosition (h : r.RestartsAt now position) :
    r.realPlaybackPosition now = position := by
  rw [realPlaybackPosition_of_start h.start, h.position]

end RestartsAt

section Operations

variable {r : Room}

theorem run_countSecondsWatched (env : Env) (h : r.Counts env.now) :
    (countSecondsWatched env).run r = ⟨r, [], .ok ()⟩ := by
  simp [countSecondsWatched, Handler.run_when, h]

theorem run_countSecondsWatched_throws (env : Env) (h : ¬ r.Counts env.now) :
    (countSecondsWatched env).run r = ⟨r, [], .error (r.countError env.now)⟩ := by
  simp [countSecondsWatched, Handler.run_when, h]

theorem play_continues (env : Env) : (play env).Keeps (Continues env.now) := by
  intro r
  simp only [play, Handler.run_bind, Handler.run_get, Outcome.andThen_ok, Handler.run_when]
  split
  · next hstopped =>
    constructor
    · intro _ _
      exact Option.some_ne_none env.now
    · rw [realPlaybackPosition_of_start rfl, realPlaybackPosition_paused hstopped]
      rfl
  · exact refl_of (Continues env.now) r

/-- After a flush the head moves on from where it is. -/
theorem flush_continues (env : Env) {f : Room → Room}
    (hf : ∀ r : Room, r.playbackStart = some env.now → Continues env.now r (f r)) :
    (flushPlaybackPosition env >>= fun _ => Handler.modify f).Keeps (Continues env.now) := by
  rw [flushPlaybackPosition, Handler.bind_assoc]
  refine .bind (countSecondsWatched_keeps env) (fun _ r => ?_)
  simp only [Handler.run_bind, Handler.run_modify, Outcome.andThen_ok]
  have hflush : Continues env.now r ((r.setPlaybackPosition
      (r.realPlaybackPosition env.now)).setPlaybackStart (some env.now)) := by
    constructor
    · intro _ _
      exact Option.some_ne_none env.now
    · exact realPlaybackPosition_of_start rfl
  exact trans_of _ hflush (hf _ rfl)

theorem pause_continues (env : Env) : (pause env).Keeps (Continues env.now) := by
  refine .bind .get (fun _ => .when (fun _ => flush_continues env (fun r hstart => ?_)))
  constructor
  · intro _ hplaying
    exact absurd hplaying Bool.false_ne_true
  · rw [realPlaybackPosition_of_start hstart]
    exact realPlaybackPosition_paused rfl env.now

theorem setPlaybackSpeedTo_continues (env : Env) (speed : ℚ) :
    (setPlaybackSpeedTo env speed).Keeps (Continues env.now) := by
  refine flush_continues env (fun r hstart => ?_)
  constructor
  · exact id
  · rw [realPlaybackPosition_of_start hstart]
    exact realPlaybackPosition_of_start hstart

theorem seek_restarts (env : Env) (value : ℚ) (context : RoomRequestContext)
    (h : r.Counts env.now) :
    RestartsAt env.now value ((seek env (some value) context).run r).state := by
  have hrest : (seek env (some value) context).run r =
      (publishRoomEvent (.seek (some value)) context
        { RoomEventContext.none with prevPosition := some (r.realPlaybackPosition env.now) } >>=
        fun _ => Handler.modify (fun r =>
          { r with dontSkipSegmentsUntil :=
              (r.getSegmentForTime r.playbackPosition).map (·.endTime) })).run
        ((r.setPlaybackPosition value).setPlaybackStart (some env.now)) := by
    simp [seek, seekRaw, run_countSecondsWatched env h]
  have hkept : (publishRoomEvent (.seek (some value)) context
        { RoomEventContext.none with prevPosition := some (r.realPlaybackPosition env.now) } >>=
        fun _ => Handler.modify (fun r =>
          { r with dontSkipSegmentsUntil :=
              (r.getSegmentForTime r.playbackPosition).map (·.endTime) })).Keeps
        (Handler.SameOn (fun r : Room => (r.playbackStart, r.playbackPosition))) :=
    .bind (publishRoomEvent_keeps _ _ _) (fun _ => .modify (fun _ => rfl))
  have hsame := hkept ((r.setPlaybackPosition value).setPlaybackStart (some env.now))
  rw [hrest]
  exact ⟨congrArg Prod.fst hsame, congrArg Prod.snd hsame⟩

/-- A seek that cannot be counted is not made. -/
theorem seek_refused (env : Env) (value : ℚ) (context : RoomRequestContext)
    (h : ¬ r.Counts env.now) : ((seek env (some value) context).run r).state = r := by
  simp [seek, seekRaw, run_countSecondsWatched_throws env h]

end Operations

/-! ## Going on to the next video -/

/-- Where what plays starts. -/
def startPosition (r : Room) : ℚ := (r.currentSource.bind (fun e => e.item.startAt)).getD 0

section DequeueNext

variable {r : Room} {now : Time}

/-- What plays has just been put into place. -/
def Cued (now : Time) (r : Room) : Prop := r.RestartsAt now r.startPosition

theorem Cued.of_place {r' : Room} (h : r'.stock.place now r'.currentSource = r'.stock) :
    r'.Cued now :=
  ⟨(congrArg Stock.playbackStart h).symm, (congrArg Stock.playbackPosition h).symm⟩

/-- A video that is put into place is cued, and so is a room that has come to its end. -/
theorem advance_cued (h : r.HasNext) (now : Time) : (r.advance now).Cued now := by
  apply Cued.of_place
  cases hq : r.queue with
  | cons head tail =>
    have hstock := advance_stock_cons hq now
    have hhead : r.stock.playHead now = { r.stock with queue := tail }.place now (some head) := by
      unfold Stock.playHead stock
      rw [hq]
    rw [hhead] at hstock
    rw [hstock, show (r.advance now).currentSource = some head from
      congrArg Stock.currentSource hstock]
    rfl
  | nil =>
    have hstock := advance_stock_nil hq (h.resolve_right (not_not_intro hq)) now
    rw [hstock, show (r.advance now).currentSource = none from
      congrArg Stock.currentSource hstock]
    rfl

theorem playNext_cued (env : Env) (h : r.HasNext) :
    (afterAdvance env (r.advance env.now)).Cued env.now := by
  have hsame := afterAdvance_stock env (r.advance env.now)
  have hsource : (afterAdvance env (r.advance env.now)).currentSource =
      (r.advance env.now).currentSource := congrArg Stock.currentSource hsame
  have hcued := advance_cued h env.now
  constructor
  · exact (congrArg Stock.playbackStart hsame).trans hcued.start
  · rw [startPosition, hsource]
    exact (congrArg Stock.playbackPosition hsame).trans hcued.position

/-- The next video can be played: nothing plays whose seconds cannot be counted. -/
def CanAdvance (r : Room) (now : Time) : Prop := r.currentSource = none ∨ r.Counts now

instance (r : Room) (now : Time) : Decidable (r.CanAdvance now) :=
  inferInstanceAs (Decidable (r.currentSource = none ∨ r.Counts now))

theorem dequeueNext_cued (env : Env) (h : r.HasNext) (hcan : r.CanAdvance env.now) :
    ((dequeueNext env).run r).state.Cued env.now := by
  have hnext : r.clearVotes.HasNext := clearVotes_hasNext.mpr h
  cases hc : r.currentSource with
  | none =>
    rw [dequeueNext_state_none env hc]
    exact playNext_cued env hnext
  | some current =>
    have hcounts : r.Counts env.now := hcan.resolve_left (by simp [hc])
    have hcleared := (clearVotes_counts r env.now).mpr hcounts
    rw [dequeueNext_state env hc, replaced, if_neg (not_not.mpr hcleared)]
    cases r.clearVotes.queueMode with
    | manual => exact playNext_cued env hnext
    | vote => exact playNext_cued env hnext
    | dj => exact ⟨rfl, rfl⟩
    | loop =>
      refine playNext_cued env (.inr ?_)
      rw [withQueue_queue]
      exact List.append_ne_nil_of_right_ne_nil _ (List.cons_ne_nil _ _)

/-- A video whose seconds cannot be counted goes on playing. -/
theorem dequeueNext_refused (env : Env) (h : ¬ r.CanAdvance env.now) :
    ((dequeueNext env).run r).state = r.clearVotes := by
  obtain ⟨hsource, hcounts⟩ := not_or.mp h
  obtain ⟨current, hc⟩ := Option.ne_none_iff_exists'.mp hsource
  have hcleared := mt (clearVotes_counts r env.now).mp hcounts
  rw [dequeueNext_state env hc, replaced, if_pos hcleared]

/-- In loop mode what played goes to the end of the queue without its trim, and the head of that
queue is played. -/
theorem dequeueNext_loop (env : Env) (hmode : r.queueMode = .loop) {current : QueueEntry}
    (hcurrent : r.currentSource = some current) (hcounts : r.Counts env.now) :
    ∃ head tail, r.queue ++ [⟨env.fresh, clearQueueItemTrim current.item⟩] = head :: tail ∧
      ((dequeueNext env).run r).state.stock =
        { r.stock with queue := tail }.place env.now (some head) ∧
      ((dequeueNext env).run r).state.playbackSpeed = 1 := by
  have hcleared := (clearVotes_counts r env.now).mpr hcounts
  have hstock := clearVotes_stock r
  have hmode' : r.clearVotes.queueMode = .loop := (congrArg Stock.queueMode hstock).trans hmode
  have hqueue : r.clearVotes.queue = r.queue := congrArg Stock.queue hstock
  obtain ⟨head, tail, hcons⟩ := List.exists_cons_of_ne_nil (List.append_ne_nil_of_right_ne_nil
    r.queue (List.cons_ne_nil (⟨env.fresh, clearQueueItemTrim current.item⟩ : QueueEntry) []))
  refine ⟨head, tail, hcons, ?_⟩
  rw [dequeueNext_state env hcurrent, replaced, if_neg (not_not.mpr hcleared), hmode']
  refine ⟨?_, rfl⟩
  dsimp only
  generalize hrequeued : r.clearVotes.withQueue (r.clearVotes.queue.enqueue
    [⟨env.fresh, clearQueueItemTrim current.item⟩]) = requeued
  have hrest : requeued.stock = { r.stock with queue := head :: tail } := by
    rw [← hrequeued, withQueue_stock, hstock, VideoQueue.enqueue, if_neg (List.cons_ne_nil _ _),
      hqueue, hcons]
  have hhead : requeued.queue = head :: tail := congrArg Stock.queue hrest
  rw [afterAdvance_stock, advance_stock_cons hhead, hrest]
  rfl

theorem clearVotes_continues (r : Room) (now : Time) : Continues now r r.clearVotes :=
  clearVotes_keeps (fun _ _ => ⟨id, rfl⟩) r

end DequeueNext

end Room

/-! ## Runs -/

/-- The operations on playback. -/
inductive PlaybackOp where
  | play | pause
  | seek (value : Option ℚ) (context : RoomRequestContext)
  | setPlaybackSpeed (speed : ℚ)
  | dequeueNext
  deriving DecidableEq

def PlaybackOp.run (env : Env) : PlaybackOp → RoomM Unit
  | .play => Room.play env
  | .pause => Room.pause env
  | .seek value context => Room.seek env value context
  | .setPlaybackSpeed speed => Room.setPlaybackSpeedTo env speed
  | .dequeueNext => Room.dequeueNext env

/-- An operation, at its time and with what it sees of the world. -/
structure PlaybackStep where
  env : Env
  op : PlaybackOp

namespace PlaybackStep

def now (s : PlaybackStep) : Time := s.env.now

def apply (s : PlaybackStep) (r : Room) : Room := ((s.op.run s.env).run r).state

/-- Going on to the next video is only asked for if something plays or is queued. -/
def Guarded (s : PlaybackStep) (r : Room) : Prop := s.op = .dequeueNext → r.HasNext

/-- The position that the step puts the head to, if it does, and when. -/
def base? (s : PlaybackStep) (r : Room) : Option (ℚ × Time) :=
  match s.op with
  | .seek (some value) _ => if r.Counts s.now then some (value, s.now) else none
  | .dequeueNext =>
    if r.CanAdvance s.now then some ((s.apply r).startPosition, s.now) else none
  | _ => none

/-- **What a step does to the head.** -/
theorem apply_cases {s : PlaybackStep} {r : Room} (h : s.Guarded r) :
    s.base? r = none ∧ Room.Continues s.now r (s.apply r) ∨
    ∃ position, s.base? r = some (position, s.now) ∧ (s.apply r).RestartsAt s.now position := by
  obtain ⟨env, op⟩ := s
  cases op with
  | play => exact .inl ⟨rfl, Room.play_continues env r⟩
  | pause => exact .inl ⟨rfl, Room.pause_continues env r⟩
  | setPlaybackSpeed speed => exact .inl ⟨rfl, Room.setPlaybackSpeedTo_continues env speed r⟩
  | seek value context =>
    cases value with
    | none => exact .inl ⟨rfl, refl_of (Room.Continues env.now) r⟩
    | some value =>
      by_cases hcounts : r.Counts env.now
      · exact .inr ⟨value, if_pos hcounts, Room.seek_restarts env value context hcounts⟩
      · refine .inl ⟨if_neg hcounts, ?_⟩
        have hrefused : apply ⟨env, .seek (some value) context⟩ r = r :=
          Room.seek_refused env value context hcounts
        rw [hrefused]
        exact refl_of (Room.Continues env.now) r
  | dequeueNext =>
    by_cases hcan : r.CanAdvance env.now
    · exact .inr ⟨_, if_pos hcan, Room.dequeueNext_cued env (h rfl) hcan⟩
    · refine .inl ⟨if_neg hcan, ?_⟩
      have hrefused : apply ⟨env, .dequeueNext⟩ r = r.clearVotes :=
        Room.dequeueNext_refused env hcan
      rw [hrefused]
      exact Room.clearVotes_continues r env.now

end PlaybackStep

/-- The room after a run. -/
def roomAfter (r : Room) : List PlaybackStep → Room
  | [] => r
  | s :: run => roomAfter (s.apply r) run

/-- The room at a time: after the steps that have been taken by then. -/
noncomputable def roomAt (r : Room) : List PlaybackStep → ℝ → Room
  | [], _ => r
  | s :: run, τ => if τ < s.now then r else roomAt (s.apply r) run τ

/-- The position that the head was put to last, and when. -/
def baseAfter (r : Room) (base : ℚ × Time) : List PlaybackStep → ℚ × Time
  | [] => base
  | s :: run => baseAfter (s.apply r) ((s.base? r).getD base) run

/-- The steps are taken one after the other, from a time on. -/
def Timed (r : Room) (now : Time) : List PlaybackStep → Prop
  | [] => True
  | s :: run => now ≤ s.now ∧ s.Guarded r ∧ Timed (s.apply r) s.now run

/-- No step comes after a time. -/
def UpTo (run : List PlaybackStep) (t : Time) : Prop := ∀ s ∈ run, s.now ≤ t

instance (run : List PlaybackStep) (t : Time) : Decidable (UpTo run t) :=
  inferInstanceAs (Decidable (∀ s ∈ run, s.now ≤ t))

/-- How much of a video passes in each millisecond at a time. -/
noncomputable def rateAt (r : Room) (run : List PlaybackStep) (τ : ℝ) : ℝ :=
  ((roomAt r run τ).rate : ℝ) / 1000

section Runs

variable {r : Room} {now t : Time} {f : ℝ → ℝ} {base : ℚ × Time}

/-- The head is where the rate has taken it since it was put to the base. -/
def MovedBy (r : Room) (f : ℝ → ℝ) (base : ℚ × Time) (t : Time) : Prop :=
  Accumulates f (base.1, base.2) t (r.realPlaybackPosition t)

/-- Until the next step the head moves on by the rate of the room. -/
theorem MovedBy.idle (h : MovedBy r f base now) (hr : r.Started) (ht : now ≤ t) :
    MovedBy r (switch now f fun _ => (r.rate : ℝ) / 1000) base t := by
  have hlater : (r.realPlaybackPosition t : ℝ) =
      r.realPlaybackPosition now + (t - now) * ((r.rate : ℝ) / 1000) := by
    rw [Room.realPlaybackPosition_later hr now t]
    push_cast
    ring
  unfold MovedBy
  rw [hlater]
  exact Accumulates.switch_const h (Int.cast_le.mpr ht) _

/-- A step goes on from the base there is, or sets one. -/
theorem MovedBy.apply {s : PlaybackStep} (h : MovedBy r f base s.now) (hr : r.Started)
    (hs : s.Guarded r) :
    MovedBy (s.apply r) f ((s.base? r).getD base) s.now ∧ (s.apply r).Started := by
  obtain ⟨hbase, hcontinues⟩ | ⟨position, hbase, hrestarts⟩ := PlaybackStep.apply_cases hs
  · refine ⟨?_, hcontinues.started hr⟩
    unfold MovedBy
    rw [hbase, hcontinues.position]
    exact h
  · refine ⟨?_, hrestarts.started⟩
    unfold MovedBy
    rw [hbase, hrestarts.realPlaybackPosition]
    exact accumulates_base

theorem rateAt_nil : rateAt r [] = fun _ => (r.rate : ℝ) / 1000 := rfl

theorem rateAt_cons (s : PlaybackStep) (run : List PlaybackStep) :
    rateAt r (s :: run) =
      switch s.now (fun _ => (r.rate : ℝ) / 1000) (rateAt (s.apply r) run) := by
  funext τ
  by_cases hτ : τ < s.now
  · have hroom : roomAt r (s :: run) τ = r := if_pos hτ
    rw [rateAt, hroom, switch_before hτ]
  · have hroom : roomAt r (s :: run) τ = roomAt (s.apply r) run τ := if_neg hτ
    rw [rateAt, hroom, switch_after (not_lt.mp hτ)]
    rfl

/-- The steps of a run, from a head that has moved by `f` so far. -/
theorem MovedBy.run (run : List PlaybackStep) (h : MovedBy r f base now) (hr : r.Started)
    (hrun : Timed r now run) (hnow : now ≤ t) (ht : UpTo run t) :
    MovedBy (roomAfter r run) (switch now f (rateAt r run)) (baseAfter r base run) t ∧
      (roomAfter r run).Started := by
  induction run generalizing r now f base with
  | nil =>
    rw [rateAt_nil]
    exact ⟨h.idle hr hnow, hr⟩
  | cons s run ih =>
    obtain ⟨hlater, hguarded, hrun⟩ := hrun
    have hstep := (h.idle hr hlater).apply hr hguarded
    have hrest := ih hstep.1 hstep.2 hrun (ht s List.mem_cons_self)
      (fun s hs => ht s (List.mem_cons_of_mem _ hs))
    rw [switch_switch (Int.cast_le.mpr hlater), ← rateAt_cons] at hrest
    exact hrest

end Runs

/-- **The position is the integral of the speed** over the time during which the room played, since
the head was put somewhere last; and a room that plays knows since when. -/
theorem position_eq_integral {r : Room} (hpaused : r.isPlaying = false)
    (hposition : r.playbackPosition = 0) {now t : Time} {run : List PlaybackStep}
    (hrun : Timed r now run) (hnow : now ≤ t) (ht : UpTo run t) :
    ((roomAfter r run).realPlaybackPosition t : ℝ) =
        (baseAfter r (0, now) run).1 +
          ∫ τ in ((baseAfter r (0, now) run).2 : ℝ)..t, rateAt r run τ ∧
      ((roomAfter r run).isPlaying = true → (roomAfter r run).playbackStart ≠ none) := by
  have hstarted : r.Started := by
    intro hplaying
    rw [hpaused] at hplaying
    cases hplaying
  have hzero : MovedBy r (rateAt r run) (0, now) now := by
    unfold MovedBy
    rw [Room.realPlaybackPosition_paused hpaused, hposition]
    exact accumulates_base
  have hmoved := hzero.run run hstarted hrun hnow ht
  rw [switch_self] at hmoved
  exact ⟨hmoved.1.value, hmoved.2⟩

/-- Something is played fast, stopped, sought in and ended. -/
def someRun : List PlaybackStep :=
  [⟨emptyEnv 1000, .dequeueNext⟩, ⟨emptyEnv 1000, .play⟩, ⟨emptyEnv 3000, .setPlaybackSpeed 2⟩,
    ⟨emptyEnv 3000, .play⟩, ⟨emptyEnv 4500, .pause⟩,
    ⟨emptyEnv 5000, .seek (some 90) ⟨"", .owner, none, none⟩⟩, ⟨emptyEnv 6000, .play⟩]

/-- A room in which one video is queued. -/
def queuedRoom : Room :=
  { Room.new "room" 0 with
    queue := [⟨0, { QueueItem.ofVideoId ⟨.youtube, "BTZ5KVRUy1Q"⟩ with startAt := some 7 }⟩] }

theorem position_eq_integral_someRun :
    Timed queuedRoom 0 someRun ∧ UpTo someRun 7000 ∧
    ((roomAfter queuedRoom someRun).realPlaybackPosition 7000 : ℝ) =
        (baseAfter queuedRoom (0, 0) someRun).1 +
          ∫ τ in ((baseAfter queuedRoom (0, 0) someRun).2 : ℝ)..(7000 : Time),
            rateAt queuedRoom someRun τ ∧
      ((roomAfter queuedRoom someRun).isPlaying = true →
        (roomAfter queuedRoom someRun).playbackStart ≠ none) := by
  have hqueued : (⟨emptyEnv 1000, .dequeueNext⟩ : PlaybackStep).Guarded queuedRoom :=
    fun _ => .inr (List.cons_ne_nil _ _)
  have hrun : Timed queuedRoom 0 someRun := by
    refine ⟨by decide, hqueued, by decide, ?_, by decide, ?_, by decide, ?_, by decide, ?_,
      by decide, ?_, by decide, ?_, trivial⟩ <;>
      · intro h
        cases h
  have hupTo : UpTo someRun 7000 := by decide
  exact ⟨hrun, hupTo, position_eq_integral rfl rfl hrun (by decide) hupTo⟩

/-- Two seconds at normal speed, and three times half a second at double speed, are five seconds. -/
example : (roomAfter queuedRoom (someRun.take 5)).realPlaybackPosition 5000 = 7 + 5 := by
  decide +kernel

end OpenTogetherTube.Server
