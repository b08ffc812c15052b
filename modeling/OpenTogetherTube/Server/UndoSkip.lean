import OpenTogetherTube.Server.Position
import OpenTogetherTube.Server.UserMessages

/-!
# Undoing a skip

A skip tells the clients which video it skipped and where the playback head was, and with that an
undo is to put the video back: what plays goes back to the top of the queue, and the video that was
skipped continues where it was.

`undo_skip_restores_iff` says exactly when it does. The skip must have taken the next video off the
queue, which it does not do in the modes that play a video again, nor when the seconds watched
cannot be counted. And the undo sets the position but not the time since when it is played from
there, so the head is ahead by the time between skip and undo; a position of zero is not set at all.
-/

namespace OpenTogetherTube.Server

open OpenTogetherTube.Common OpenTogetherTube.Lib

namespace Room

/-! ## The skip -/

section Skip

variable {r : Room} {current : QueueEntry}

/-- An event that is told says what it was given, and nothing kept the rest from being done. -/
theorem publishRoomEvent_told {request request' : RoomRequest} {context : RoomRequestContext}
    {additional additional' : RoomEventContext} {user : RoomUserInfo} {f : Room → Room}
    (h : .event request' user additional' ∈ ((publishRoomEvent request context additional >>=
      fun _ => Handler.modify f).run r).published) :
    additional' = additional ∧ ((publishRoomEvent request context additional >>=
      fun _ => Handler.modify f).run r).state = f r := by
  unfold publishRoomEvent at h ⊢
  cases hclient : context.clientId with
  | none =>
    simp only [hclient] at h
    cases h
  | some client =>
    simp only [hclient, Handler.run_bind, Handler.run_get, Outcome.andThen_ok,
      Handler.run_liftExcept] at h ⊢
    cases hinfo : r.getUserInfo client with
    | error e =>
      rw [hinfo] at h
      cases h
    | ok info =>
      rw [hinfo] at h
      obtain ⟨-, -, hadditional⟩ := RoomOutput.event.inj (List.mem_singleton.mp h)
      exact ⟨hadditional, rfl⟩

/-- What a skip tells the clients about a video. -/
def skipEvent (r : Room) (now : Time) (current : QueueEntry) : RoomEventContext :=
  { RoomEventContext.none with
    video := some current.item, prevPosition := some (r.realPlaybackPosition now) }

theorem voteToSkip_same (context : RoomRequestContext) (r : Room) : ∃ votes dirty,
    r.voteToSkip context = { r with votesToSkip := votes, dirty := dirty } := by
  obtain ⟨-, heq⟩ | ⟨-, votes, dirty, heq⟩ := r.voteToSkip_cases context
  · exact ⟨r.votesToSkip, r.dirty, heq⟩
  · exact ⟨votes, dirty, heq⟩

/-- **A skip that is told** has gone on to the next video. -/
theorem skip_told (env : Env) (context : RoomRequestContext)
    (hcurrent : r.currentSource = some current) {request : RoomRequest} {user : RoomUserInfo}
    {additional : RoomEventContext}
    (h : .event request user additional ∈ ((skip env context).run r).published) :
    additional = r.skipEvent env.now current ∧ ((skip env context).run r).state =
      ((dequeueNext env).run (r.voteToSkip context)).state.setVideoSegments [] := by
  obtain ⟨votes, dirty, hvoted⟩ := voteToSkip_same context r
  simp only [skip, Handler.run_bind, Handler.run_get, Outcome.andThen_ok, hcurrent,
    Handler.run_modify, Handler.run_when] at h ⊢
  have hevent : { RoomEventContext.none with
      video := some current.item
      prevPosition := some ((r.voteToSkip context).realPlaybackPosition env.now) } =
        r.skipEvent env.now current := by
    rw [hvoted]
    rfl
  rw [hevent] at h ⊢
  split at h
  · next hdecided =>
    rw [if_pos hdecided]
    simp only [Handler.run_unawaited, (dequeueNext_emits env).published_eq_nil,
      Outcome.andThen_ok, List.nil_append] at h ⊢
    exact publishRoomEvent_told h
  · cases h

theorem clearVotes_currentSource (r : Room) : r.clearVotes.currentSource = r.currentSource :=
  congrArg Stock.currentSource (clearVotes_stock r)

/-- The skip takes the next video off the queue: the mode does not play the video again, and the
seconds watched can be counted. -/
def GoesOn (r : Room) (now : Time) : Prop :=
  (r.queueMode = .manual ∨ r.queueMode = .vote) ∧ r.Counts now

/-- What a skip leaves that goes on. -/
theorem dequeueNext_goesOn (env : Env) (hcurrent : r.currentSource = some current)
    (h : r.GoesOn env.now) :
    ((dequeueNext env).run r).state.playbackSpeed = 1 ∧
    ((dequeueNext env).run r).state.stock =
      if r.queue = [] then r.stock.stop env.now else r.stock.playHead env.now := by
  have hcleared := (clearVotes_counts r env.now).mpr h.2
  have hstock := clearVotes_stock r
  have hmode : r.clearVotes.queueMode = r.queueMode := congrArg Stock.queueMode hstock
  have hreplaced : replaced env r.clearVotes current =
      afterAdvance env (r.clearVotes.advance env.now) := by
    rw [replaced, if_neg (not_not.mpr hcleared), hmode]
    rcases h.1 with hmanual | hvote
    · rw [hmanual]
    · rw [hvote]
  rw [dequeueNext_state env hcurrent, hreplaced, afterAdvance_stock]
  refine ⟨rfl, ?_⟩
  have hqueue : r.clearVotes.queue = r.queue := congrArg Stock.queue hstock
  cases hq : r.queue with
  | nil =>
    have hsource : r.clearVotes.currentSource ≠ none := by
      rw [clearVotes_currentSource, hcurrent]
      exact Option.some_ne_none current
    rw [if_pos rfl, advance_stock_nil (hqueue.trans hq) hsource, hstock]
  | cons head tail =>
    rw [if_neg (List.cons_ne_nil head tail), advance_stock_cons (hqueue.trans hq), hstock]

/-- What a skip leaves that does not go on: something plays, and the queue is as long as it was. -/
theorem dequeueNext_stays (env : Env) (hcurrent : r.currentSource = some current)
    (h : ¬ r.GoesOn env.now) :
    ((dequeueNext env).run r).state.currentSource ≠ none ∧
    ((dequeueNext env).run r).state.queue.length = r.queue.length := by
  have hstock := clearVotes_stock r
  have hqueue : r.clearVotes.queue = r.queue := congrArg Stock.queue hstock
  by_cases hcounts : r.Counts env.now
  · cases hq : r.queueMode with
    | manual => exact absurd ⟨.inl hq, hcounts⟩ h
    | vote => exact absurd ⟨.inr hq, hcounts⟩ h
    | dj =>
      have hcleared := (clearVotes_counts r env.now).mpr hcounts
      have hmode : r.clearVotes.queueMode = .dj := (congrArg Stock.queueMode hstock).trans hq
      rw [dequeueNext_state env hcurrent, replaced, if_neg (not_not.mpr hcleared), hmode]
      exact ⟨Option.some_ne_none _, congrArg List.length hqueue⟩
    | loop =>
      obtain ⟨head, tail, hcons, hplayed, -⟩ := dequeueNext_loop env hq hcurrent hcounts
      constructor
      · rw [show ((dequeueNext env).run r).state.currentSource = some head from
          congrArg Stock.currentSource hplayed]
        exact Option.some_ne_none head
      · have hlength := congrArg List.length hcons
        rw [List.length_append, List.length_singleton, List.length_cons] at hlength
        rw [show ((dequeueNext env).run r).state.queue = tail from congrArg Stock.queue hplayed]
        omega
  · rw [dequeueNext_refused env (not_or.mpr ⟨hcurrent ▸ Option.some_ne_none current, hcounts⟩)]
    constructor
    · rw [clearVotes_currentSource, hcurrent]
      exact Option.some_ne_none current
    · rw [hqueue]

end Skip

/-! ## The undo -/

section Undo

variable {env : Env} {additional : RoomEventContext} {r : Room}

/-- What plays goes back onto the queue. -/
def repushed (r : Room) : Room :=
  match r.currentSource with
  | some current => r.withQueue (r.queue.pushTop [current])
  | none => r

theorem repushed_stock (r : Room) :
    r.repushed.stock = { r.stock with queue := r.currentSource.toList ++ r.queue } := by
  unfold repushed
  cases hcurrent : r.currentSource with
  | none => rfl
  | some current => exact withQueue_stock r _

/-- The video that was skipped is put back, unless it was at its very start. -/
theorem undoSkip_stock {video : QueueItem} {position : ℚ} (hvideo : additional.video = some video)
    (hposition : additional.prevPosition = some position) :
    (undoSkip env additional r).stock =
      if position = 0 then r.repushed.stock
      else { r.repushed.stock with
        currentSource := some ⟨env.fresh, video⟩, playbackPosition := position } := by
  have hundo : undoSkip env additional r =
      if position = 0 then r.repushed
      else (r.repushed.setCurrentSource
        (some ⟨env.fresh, video⟩)).setPlaybackPosition position := by
    by_cases hzero : position = 0
    · have hfalsy : truthyNumber additional.prevPosition = none := by
        simp [truthyNumber, hposition, hzero]
      rw [if_pos hzero, undoSkip, hvideo, hfalsy]
      rfl
    · have htruthy : truthyNumber additional.prevPosition = some position := by
        simp [truthyNumber, hposition, hzero]
      rw [if_neg hzero, undoSkip, hvideo, htruthy]
      rfl
  rw [hundo]
  split <;> rfl

theorem undoSkip_playbackSpeed (env : Env) (additional : RoomEventContext) (r : Room) :
    (undoSkip env additional r).playbackSpeed = r.playbackSpeed := by
  have hpush : ∀ current, (r.withQueue (r.queue.pushTop [current])).playbackSpeed =
      r.playbackSpeed := by
    intro current
    unfold withQueue
    split <;> rfl
  obtain ⟨pushed, hpushed, hundo⟩ := undoSkip_cases env additional r
  have hspeed : pushed.playbackSpeed = r.playbackSpeed := by
    rcases hpushed with ⟨-, rfl⟩ | ⟨current, -, rfl⟩
    · rfl
    · exact hpush current
  rcases hundo with ⟨-, heq⟩ | ⟨video, position, -, -, heq⟩
  · rw [heq, hspeed]
  · rw [heq]
    exact hspeed

/-- Where a head is that has moved at normal speed since it was put there. -/
theorem realPlaybackPosition_normal {start : Time} (hstart : r.playbackStart = some start)
    (hspeed : r.playbackSpeed = 1) (t : Time) : r.realPlaybackPosition t =
      r.playbackPosition + if r.isPlaying then ((t - start : Int) : ℚ) / 1000 else 0 := by
  cases hplaying : r.isPlaying with
  | true => simp [realPlaybackPosition_playing hplaying hstart, hspeed]
  | false => simp [realPlaybackPosition_paused hplaying]

/-- A head that is somewhere at one time moves on from there. -/
theorem moves_on_iff (h : r.Started) (undone : Time) (position : ℚ) :
    (∀ now, undone ≤ now →
      r.realPlaybackPosition now = position + ((now - undone : Int) : ℚ) / 1000 * r.rate) ↔
      r.realPlaybackPosition undone = position := by
  constructor
  · intro hall
    rw [hall undone (le_refl undone)]
    simp
  · intro hat now _
    rw [realPlaybackPosition_later h undone now, hat]

end Undo

/-! ## One after the other -/

/-- **The purpose** of undoing a skip: the video plays again, the queue is what it was, and the head
is where it was at the skip, and moves on from there since the undo. -/
structure Restored (r : Room) (current : QueueEntry) (skipped undone : Time) (r' : Room) :
    Prop where
  currentSource : r'.currentSource.map (·.item) = some current.item
  queue : r'.queue.map (·.item) = r.queue.map (·.item)
  position : ∀ now, undone ≤ now → r'.realPlaybackPosition now =
    r.realPlaybackPosition skipped + ((now - undone : Int) : ℚ) / 1000 * r'.rate

theorem Restored.at_undo {r r' : Room} {current : QueueEntry} {skipped undone : Time}
    (h : r.Restored current skipped undone r') :
    r'.realPlaybackPosition undone = r.realPlaybackPosition skipped := by
  rw [h.position undone (le_refl undone)]
  simp

/-- How far the head is ahead after the undo. -/
def lead (r : Room) (skipped undone : Time) : ℚ :=
  if r.isPlaying then ((undone - skipped : Int) : ℚ) / 1000 else 0

/-- What has to be the case when a skip is to be undone. A head that was at zero is not put back, so
the next video stands in for the one that was skipped. -/
structure Undoable (r : Room) (current : QueueEntry) (skipped undone : Time) : Prop where
  goesOn : r.GoesOn skipped
  lead : r.realPlaybackPosition skipped ≠ 0 → r.queue = [] ∨ r.lead skipped undone = 0
  start : r.realPlaybackPosition skipped = 0 → ∃ next rest, r.queue = next :: rest ∧
    next.item = current.item ∧ next.item.startAt.getD 0 + r.lead skipped undone = 0

section Restored

variable {r s : Room} {current : QueueEntry} {env : Env} {skipped undone : Time}

/-- The room after the undo. -/
abbrev afterUndo (env : Env) (r : Room) (skipped : Time) (current : QueueEntry) (s : Room) : Room :=
  undoSkip env (r.skipEvent skipped current) s

theorem afterUndo_stock :
    (afterUndo env r skipped current s).stock =
      if r.realPlaybackPosition skipped = 0 then s.repushed.stock
      else { s.repushed.stock with
        currentSource := some ⟨env.fresh, current.item⟩
        playbackPosition := r.realPlaybackPosition skipped } :=
  undoSkip_stock rfl rfl

theorem afterUndo_queue : (afterUndo env r skipped current s).queue =
    s.currentSource.toList ++ s.queue := by
  have hstock := congrArg Stock.queue (@afterUndo_stock r s current env skipped)
  rw [repushed_stock, apply_ite Stock.queue, ite_self] at hstock
  exact hstock

/-- A skip that did not go on leaves one video too many. -/
theorem not_restored_of_stays (hsource : s.currentSource ≠ none)
    (hlength : s.queue.length = r.queue.length) :
    ¬ r.Restored current skipped undone (afterUndo env r skipped current s) := by
  intro h
  obtain ⟨playing, hplaying⟩ := Option.ne_none_iff_exists'.mp hsource
  have hqueue := congrArg List.length h.queue
  rw [afterUndo_queue, hplaying, List.length_map, List.length_map] at hqueue
  simp only [Option.toList_some, List.singleton_append, List.length_cons] at hqueue
  omega

/-- Nothing was queued: what was skipped is put back, and does not play. -/
theorem restored_stop_iff (hstock : s.stock = r.stock.stop skipped) (hq : r.queue = []) :
    r.Restored current skipped undone (afterUndo env r skipped current s) ↔
      r.realPlaybackPosition skipped ≠ 0 := by
  have hafter := @afterUndo_stock r s current env skipped
  have hsource : s.repushed.currentSource = none := by
    rw [show s.repushed.currentSource = s.currentSource from
      congrArg Stock.currentSource (repushed_stock s)]
    exact congrArg Stock.currentSource hstock
  have hplaying : (afterUndo env r skipped current s).isPlaying = false := by
    have hsame := congrArg Stock.isPlaying hafter
    rw [apply_ite Stock.isPlaying, ite_self, repushed_stock, hstock] at hsame
    exact hsame
  constructor
  · intro h hzero
    rw [if_pos hzero] at hafter
    have hnone : (afterUndo env r skipped current s).currentSource = none :=
      (congrArg Stock.currentSource hafter).trans hsource
    have hrestored := h.currentSource
    rw [hnone] at hrestored
    cases hrestored
  · intro hne
    rw [if_neg hne] at hafter
    have hput : (afterUndo env r skipped current s).currentSource =
        some ⟨env.fresh, current.item⟩ := congrArg Stock.currentSource hafter
    have hposition : (afterUndo env r skipped current s).playbackPosition =
        r.realPlaybackPosition skipped := congrArg Stock.playbackPosition hafter
    refine ⟨by rw [hput]; rfl, ?_, (moves_on_iff ?_ undone _).mpr ?_⟩
    · have hqueue : s.currentSource.toList ++ s.queue = [] := by
        rw [show s.currentSource = none from congrArg Stock.currentSource hstock,
          show s.queue = r.queue from congrArg Stock.queue hstock, hq]
        rfl
      rw [afterUndo_queue, hqueue, hq]
    · intro htrue
      rw [hplaying] at htrue
      cases htrue
    · rw [realPlaybackPosition_paused hplaying, hposition]

/-- The next video played: it is queued again, and the head is ahead. -/
theorem restored_playHead_iff {next : QueueEntry} {rest : List QueueEntry}
    (hstock : s.stock = r.stock.playHead skipped) (hspeed : s.playbackSpeed = 1)
    (hq : r.queue = next :: rest) :
    r.Restored current skipped undone (afterUndo env r skipped current s) ↔
      (r.realPlaybackPosition skipped ≠ 0 → r.lead skipped undone = 0) ∧
      (r.realPlaybackPosition skipped = 0 → next.item = current.item ∧
        next.item.startAt.getD 0 + r.lead skipped undone = 0) := by
  have hplayed : r.stock.playHead skipped =
      { r.stock with queue := rest }.place skipped (some next) := by
    unfold Stock.playHead stock
    rw [hq]
  rw [hplayed] at hstock
  have hsource : s.currentSource = some next := congrArg Stock.currentSource hstock
  have hqueue : (afterUndo env r skipped current s).queue = r.queue := by
    rw [afterUndo_queue, hsource, show s.queue = rest from congrArg Stock.queue hstock, hq]
    rfl
  have hafter := @afterUndo_stock r s current env skipped
  have hplaying : (afterUndo env r skipped current s).isPlaying = r.isPlaying := by
    have hsame := congrArg Stock.isPlaying hafter
    rw [apply_ite Stock.isPlaying, ite_self, repushed_stock, hstock] at hsame
    exact hsame
  have hstart : (afterUndo env r skipped current s).playbackStart = some skipped := by
    have hsame := congrArg Stock.playbackStart hafter
    rw [apply_ite Stock.playbackStart, ite_self, repushed_stock, hstock] at hsame
    exact hsame
  have hstarted : (afterUndo env r skipped current s).Started := by
    intro _
    rw [hstart]
    exact Option.some_ne_none skipped
  -- the head moves since the skip, from where the undo has put it
  have hhead : (afterUndo env r skipped current s).realPlaybackPosition undone =
      (afterUndo env r skipped current s).playbackPosition + r.lead skipped undone := by
    rw [realPlaybackPosition_normal hstart ((undoSkip_playbackSpeed _ _ _).trans hspeed), hplaying]
    rfl
  have hrestored : r.Restored current skipped undone (afterUndo env r skipped current s) ↔
      (afterUndo env r skipped current s).currentSource.map (·.item) = some current.item ∧
        (afterUndo env r skipped current s).playbackPosition + r.lead skipped undone =
          r.realPlaybackPosition skipped := by
    rw [← hhead, ← moves_on_iff hstarted undone]
    constructor
    · intro h
      exact ⟨h.currentSource, h.position⟩
    · rintro ⟨hput, hposition⟩
      exact ⟨hput, congrArg _ hqueue, hposition⟩
  rw [hrestored]
  by_cases hzero : r.realPlaybackPosition skipped = 0
  · rw [if_pos hzero, repushed_stock, hstock] at hafter
    have hput : (afterUndo env r skipped current s).currentSource = some next :=
      congrArg Stock.currentSource hafter
    have hposition : (afterUndo env r skipped current s).playbackPosition =
        next.item.startAt.getD 0 := congrArg Stock.playbackPosition hafter
    rw [hput, hposition, hzero]
    simp
  · rw [if_neg hzero] at hafter
    have hput : (afterUndo env r skipped current s).currentSource =
        some ⟨env.fresh, current.item⟩ := congrArg Stock.currentSource hafter
    have hposition : (afterUndo env r skipped current s).playbackPosition =
        r.realPlaybackPosition skipped := congrArg Stock.playbackPosition hafter
    rw [hput, hposition]
    simp [hzero]

/-- **When an undo takes a skip back.** -/
theorem restored_iff (hstays : ¬ r.GoesOn skipped →
      s.currentSource ≠ none ∧ s.queue.length = r.queue.length)
    (hgoes : r.GoesOn skipped → s.playbackSpeed = 1 ∧
      s.stock = if r.queue = [] then r.stock.stop skipped else r.stock.playHead skipped) :
    r.Restored current skipped undone (afterUndo env r skipped current s) ↔
      r.Undoable current skipped undone := by
  by_cases hgo : r.GoesOn skipped
  · obtain ⟨hspeed, hstock⟩ := hgoes hgo
    cases hq : r.queue with
    | nil =>
      rw [if_pos hq] at hstock
      rw [restored_stop_iff hstock hq]
      constructor
      · intro hne
        exact ⟨hgo, fun _ => .inl hq, fun hzero => absurd hzero hne⟩
      · intro h hzero
        obtain ⟨next, rest, hcons, -⟩ := h.start hzero
        rw [hq] at hcons
        cases hcons
    | cons next rest =>
      rw [if_neg (hq ▸ List.cons_ne_nil next rest)] at hstock
      rw [restored_playHead_iff hstock hspeed hq]
      constructor
      · rintro ⟨hlead, hstart⟩
        exact ⟨hgo, fun hne => .inr (hlead hne), fun hzero => ⟨next, rest, hq, hstart hzero⟩⟩
      · intro h
        refine ⟨fun hne => (h.lead hne).resolve_left (hq ▸ List.cons_ne_nil next rest),
          fun hzero => ?_⟩
        obtain ⟨next', rest', hcons, hsame⟩ := h.start hzero
        rw [hq] at hcons
        cases hcons
        exact hsame
  · obtain ⟨hsource, hlength⟩ := hstays hgo
    exact iff_of_false (not_restored_of_stays hsource hlength) (fun h => hgo h.goesOn)

end Restored

end Room

/-- The first video is at ten seconds, the second is queued, and somebody watches. -/
def watchedRoom (playing : Bool) : Room :=
  { Room.new "foo" 0 with
    currentSource := some ⟨0, .ofVideoId ⟨.youtube, "first"⟩⟩
    queue := [⟨1, .ofVideoId ⟨.youtube, "second"⟩⟩]
    isPlaying := playing
    playbackPosition := 10
    playbackStart := some 0
    realusers := [.new "host" "token"] }

def hostContext : RoomRequestContext := ⟨"", .unregisteredUser, some "host", none⟩

/-- The event of a skip right away. -/
theorem watchedRoom_event (playing : Bool) :
    .event .skip ⟨"host", "", false, .none, .unregisteredUser⟩
        ((watchedRoom playing).skipEvent 0 ⟨0, .ofVideoId ⟨.youtube, "first"⟩⟩) ∈
      ((Room.processRequest (emptyEnv 0) .skip hostContext).run
        (watchedRoom playing)).published := by
  cases playing <;> decide +kernel

end OpenTogetherTube.Server
