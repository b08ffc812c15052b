import OpenTogetherTube.Server.Persistence
import OpenTogetherTube.Server.Stock

/-!
# Unloaded and loaded again

When a permanent room is unloaded, the video that plays goes in front of its queue, to start where
the playback head is, and the queue is saved in the room's row. The room that is loaded from the row
takes the saved queue for its own if it is set up to always restore it, and its first update plays
the head.

So a video that played goes on where it was, and the queue is what it was. Where nothing played,
the first update plays what is queued, as it would have done in the room that was unloaded.
-/

namespace OpenTogetherTube.Server

open OpenTogetherTube.Common OpenTogetherTube.Lib

namespace Room

/-! ## Unloading -/

/-- The video that plays, to be continued where it is, and the queue. -/
def queueToSave (r : Room) (now : Time) : List QueueItem :=
  let playing :=
    match r.currentSource with
    | some current => [{ current.item with startAt := some (r.realPlaybackPosition now) }]
    | none => []
  playing ++ r.queue.map (·.item)

/-- What `onBeforeUnload` passes to `updateRoom`, besides the name. -/
def savedQueue (r : Room) (now : Time) : PersistablePartial where
  title := none
  description := none
  visibility := none
  queueMode := none
  owner := none
  grants := none
  userRoles := none
  autoSkipSegmentCategories := none
  prevQueue := some (if r.queueToSave now = [] then none else some (r.queueToSave now))
  restoreQueueBehavior := none
  enableVoteSkip := none

/-- `onBeforeUnload`, and the room's row after it. -/
def onBeforeUnload (r : Room) (now : Time) (row : DbRoom) : DbRoom :=
  if r.isTemporary then row else row.update (roomToDbPartial (r.savedQueue now))

theorem onBeforeUnload_eq {r : Room} (h : r.isTemporary = false) (now : Time) (row : DbRoom) :
    r.onBeforeUnload now row =
      { row with
        prevQueue := if r.queueToSave now = [] then none else some (r.queueToSave now) } := by
  have hwritten : ¬ r.isTemporary = true := by
    rw [h]
    exact Bool.false_ne_true
  rw [onBeforeUnload, if_neg hwritten]
  unfold DbRoom.update
  congr 1

/-! ## Loading -/

/-- Nothing plays, and nobody has voted. -/
structure Idle (r : Room) : Prop where
  stopped : r.isPlaying = false
  unvoted : r.votes = ∅

theorem Idle.congr {r r' : Room} (h : r.Idle) (hstock : r'.stock = r.stock) : r'.Idle :=
  ⟨(congrArg Stock.isPlaying hstock).trans h.stopped,
    (congrArg Stock.votes hstock).trans h.unvoted⟩

/-- The stock of a room with a queue to start with. -/
def loadedStock (queueMode : QueueMode) (items : List QueueItem) : Stock where
  queueMode := queueMode
  currentSource := none
  queue := entriesFrom 1 items
  prevQueue := none
  isPlaying := false
  playbackPosition := 0
  playbackStart := none
  votes := ∅

section Load

variable (users : UserId → Option User) {row : DbRoom} (now : Time)

/-- The room before the restore rules. -/
theorem assigned_eq : ∃ dirty, (blank now).assignOptions (dbToRoomArgs users row) =
    { blank now with
      name := row.name
      title := row.title
      description := row.description
      visibility := row.visibility
      queueMode := row.queueMode
      isTemporary := false
      owner := row.ownerId.bind users
      autoSkipSegmentCategories := row.autoSkipSegmentCategories
      prevQueue := row.prevQueue
      restoreQueueBehavior := row.restoreQueueBehavior
      enableVoteSkip := row.enableVoteSkip
      dirty := dirty } := by
  refine ⟨((blank now).assignOptions (dbToRoomArgs users row)).dirty, ?_⟩
  simp only [assignOptions, dbToRoomArgs, assign, setName, setTitle, setDescription, setVisibility,
    setQueueMode, setOwner, setAutoSkipSegmentCategories, setPrevQueue_eq, setRestoreQueueBehavior,
    setEnableVoteSkip, markDirty]

/-- **A loaded room that always restores its queue** has it for its own, and nothing that plays. -/
theorem construct_stock (halways : row.restoreQueueBehavior = .always) :
    (construct (dbToRoomArgs users row) now).stock =
      loadedStock row.queueMode (row.prevQueue.getD []) := by
  obtain ⟨dirty, hassigned⟩ := @assigned_eq users row now
  have hcases := ((blank now).assignOptions (dbToRoomArgs users row)).restored_cases
  rw [construct_eq]
  rw [hassigned] at hcases ⊢
  obtain ⟨hnever, -⟩ | ⟨-, -, items, hitems, hrestored⟩ | ⟨-, hnone, hrestored⟩ := hcases
  · rw [show row.restoreQueueBehavior = .never from hnever] at halways
    cases halways
  · rw [hrestored, setPrevQueue_eq, show row.prevQueue = some items from hitems]
    rfl
  · have hprev : row.prevQueue = none := hnone halways rfl
    rw [hrestored, hprev]
    rfl

end Load

/-! ## The first update -/

/-- A room in which nothing plays goes on with what it has. -/
def KeepsStock (r r' : Room) : Prop := r.Idle → r'.stock = r.stock

instance : IsPreorder Room KeepsStock where
  refl _ _ := rfl
  trans _ _ _ h h' hr := (h' (hr.congr (h hr))).trans (h hr)

section Update

variable {r : Room}

/-- Without votes the queue is sorted already. -/
theorem sortByVotes_keepsStock : KeepsStock r r.sortByVotes := by
  intro h
  unfold sortByVotes
  split
  · have hsorted : r.queue.insertionSort (fun a b =>
        ((r.votes.get? (voteKey a.item.toVideoId)).map (·.size)).getD 0 ≥
          ((r.votes.get? (voteKey b.item.toVideoId)).map (·.size)).getD 0) = r.queue := by
      apply List.Pairwise.insertionSort_eq
      rw [h.unvoted]
      exact List.pairwise_of_forall (fun _ _ => le_rfl)
    unfold withQueue VideoQueue.orderBy
    dsimp only
    rw [hsorted]
    split <;> rfl
  · rfl

theorem autoSkip_keepsStock (env : Env) : (autoSkip env).Keeps KeepsStock := by
  refine .get_bind (fun r h => ?_)
  have hstopped : ¬ (r.isPlaying = true ∧ r.videoSegments.length > 0 ∧
      r.dontSkipSegmentsUntil = none) := by
    rw [h.stopped]
    exact fun hplaying => Bool.false_ne_true hplaying.1
  rw [if_neg hstopped]
  rfl

theorem updateRest_keepsStock (env : Env) : (updateRest env).Keeps KeepsStock := by
  have hrefresh : ∀ r : Room, KeepsStock r (refreshKeepAlive env r) :=
    fun r _ => refreshKeepAlive_stock env r
  refine .bind (.modify (fun r => trans_of KeepsStock (hrefresh r) sortByVotes_keepsStock))
    (fun _ => .bind .get (fun _ => .when (fun _ => .bind (.modify (fun r => ?_)) (fun _ =>
      .bind (.modify (fun r _ => endDontSkip_stock env r)) (fun _ => autoSkip_keepsStock env)))))
  split
  · exact fun _ => fetchSponsorBlockSegments_stock env _
  · exact refl_of KeepsStock r

theorem run_dequeueNext_none (env : Env) (hsource : r.currentSource = none) :
    (dequeueNext env).run r =
      ⟨afterAdvance env (r.clearVotes.advance env.now), [], .ok ()⟩ := by
  have hcleared : (if r.enableVoteSkip then r.setVotesToSkip ∅ else r).currentSource = none := by
    split <;> exact hsource
  simp only [dequeueNext, Handler.run_bind, Handler.run_modify, Outcome.andThen_ok, Handler.run_get,
    hcleared]
  rfl

/-- The update of a room in which nothing plays begins with the next video, if there is one. -/
theorem update_idle (env : Env) (hsource : r.currentSource = none) :
    ((update env).run r).state = ((updateRest env).run
      (if r.queue = [] then r else afterAdvance env (r.clearVotes.advance env.now))).state := by
  have hended : ¬ r.sourceEnded env.now = true := by simp [sourceEnded, hsource]
  by_cases hq : r.queue = []
  · have hidle : ¬ (r.currentSource = none ∧ r.queue ≠ [] ∨ r.sourceEnded env.now = true) := by
      simp [hq, hended]
    rw [if_pos hq, update, Handler.run_bind, Handler.run_get, Outcome.andThen_ok, Handler.run_bind,
      Handler.run_when, if_neg hidle]
    rfl
  · rw [if_neg hq, update, Handler.run_bind, Handler.run_get, Outcome.andThen_ok, Handler.run_bind,
      Handler.run_when, if_pos (.inl ⟨hsource, hq⟩), run_dequeueNext_none env hsource]
    rfl

/-- **The first update** plays the head of the queue. -/
theorem update_stock (env : Env) (hidle : r.Idle) (hsource : r.currentSource = none) :
    ((update env).run r).state.stock = r.stock.playHead env.now := by
  have hcleared : r.clearVotes.stock = r.stock := clearVotes_stock r
  rw [update_idle env hsource]
  cases hq : r.queue with
  | nil =>
    rw [if_pos rfl, updateRest_keepsStock env r hidle]
    unfold Stock.playHead stock
    rw [hq]
  | cons head tail =>
    have hqueue : r.clearVotes.queue = head :: tail := (congrArg Stock.queue hcleared).trans hq
    have hplayed : (afterAdvance env (r.clearVotes.advance env.now)).stock =
        r.stock.playHead env.now := by
      rw [afterAdvance_stock, advance_stock_cons hqueue, hcleared]
    have hstill : ∀ s : Stock, (s.playHead env.now).isPlaying = s.isPlaying ∧
        (s.playHead env.now).votes = s.votes := by
      intro s
      unfold Stock.playHead
      split <;> exact ⟨rfl, rfl⟩
    have hplayedIdle : (afterAdvance env (r.clearVotes.advance env.now)).Idle := by
      constructor
      · exact (congrArg Stock.isPlaying hplayed).trans ((hstill _).1.trans hidle.stopped)
      · exact (congrArg Stock.votes hplayed).trans ((hstill _).2.trans hidle.unvoted)
    rw [if_neg (List.cons_ne_nil head tail), updateRest_keepsStock env _ hplayedIdle, hplayed]

end Update

/-! ## All together -/

/-- The room is unloaded, and loaded again from its row, and updated. -/
def reload (r : Room) (unload : Time) (row : DbRoom) (users : UserId → Option User) (load : Time)
    (env : Env) : Room :=
  ((update env).run
    (construct (dbToRoomArgs users (r.onBeforeUnload unload row)) load)).state

section Reload

variable {r : Room} {row : DbRoom} (users : UserId → Option User) (unload load : Time) (env : Env)

theorem reload_stock (hpermanent : r.isTemporary = false)
    (halways : row.restoreQueueBehavior = .always) :
    (r.reload unload row users load env).stock =
      (loadedStock row.queueMode (r.queueToSave unload)).playHead env.now := by
  have hrow := onBeforeUnload_eq hpermanent unload row
  have hsaved : (r.onBeforeUnload unload row).prevQueue.getD [] = r.queueToSave unload := by
    rw [hrow]
    dsimp only
    split
    · next hempty => exact hempty.symm
    · rfl
  have hrestores : (r.onBeforeUnload unload row).restoreQueueBehavior = .always := by
    rw [hrow]
    exact halways
  have hmode : (r.onBeforeUnload unload row).queueMode = row.queueMode := by rw [hrow]
  have hloaded := construct_stock users load hrestores
  rw [hsaved, hmode] at hloaded
  have hidle : (construct (dbToRoomArgs users (r.onBeforeUnload unload row)) load).Idle :=
    ⟨congrArg Stock.isPlaying hloaded, congrArg Stock.votes hloaded⟩
  unfold reload
  rw [update_stock env hidle (congrArg Stock.currentSource hloaded), hloaded]

/-- **A reloaded room goes on with the first video of the saved queue.** -/
theorem reload_cases (hpermanent : r.isTemporary = false)
    (halways : row.restoreQueueBehavior = .always) :
    (r.reload unload row users load env).prevQueue = none ∧
    (r.reload unload row users load env).currentSource.map (·.item) =
      (r.queueToSave unload).head? ∧
    (r.reload unload row users load env).queue.map (·.item) = (r.queueToSave unload).tail ∧
    ∀ t, (r.reload unload row users load env).realPlaybackPosition t =
      (((r.queueToSave unload).head?.bind (·.startAt)).getD 0) := by
  have hstock := @reload_stock r row users unload load env hpermanent halways
  have hitems := entriesFrom_items 1 (r.queueToSave unload)
  generalize r.reload unload row users load env = reloaded at hstock
  rw [← hitems]
  unfold loadedStock at hstock
  cases hsaved : entriesFrom 1 (r.queueToSave unload) with
  | nil =>
    rw [hsaved] at hstock
    refine ⟨congrArg Stock.prevQueue hstock, ?_, ?_, fun t => ?_⟩
    · rw [show reloaded.currentSource = none from congrArg Stock.currentSource hstock]
      rfl
    · rw [show reloaded.queue = [] from congrArg Stock.queue hstock]
      rfl
    · have hstopped : reloaded.isPlaying = false := congrArg Stock.isPlaying hstock
      have hposition : reloaded.playbackPosition = 0 := congrArg Stock.playbackPosition hstock
      simp [realPlaybackPosition, hstopped, hposition]
  | cons head tail =>
    rw [hsaved] at hstock
    refine ⟨congrArg Stock.prevQueue hstock, ?_, ?_, fun t => ?_⟩
    · rw [show reloaded.currentSource = some head from congrArg Stock.currentSource hstock]
      rfl
    · rw [show reloaded.queue = tail from congrArg Stock.queue hstock]
      rfl
    · have hstopped : reloaded.isPlaying = false := congrArg Stock.isPlaying hstock
      have hposition : reloaded.playbackPosition = head.item.startAt.getD 0 :=
        congrArg Stock.playbackPosition hstock
      simp [realPlaybackPosition, hstopped, hposition]

/-- **Unloading and loading again preserves playback.** The video that played goes on where it was,
and the queue is the same. Where nothing played, the first of the queue is played from its start;
and where nothing was queued either, nothing is. -/
theorem reload_preserves (hpermanent : r.isTemporary = false)
    (halways : row.restoreQueueBehavior = .always) :
    (r.reload unload row users load env).prevQueue = none ∧
    (∀ current, r.currentSource = some current →
      (r.reload unload row users load env).currentSource.map (·.videoId) = some current.videoId ∧
      (∀ t, (r.reload unload row users load env).realPlaybackPosition t =
        r.realPlaybackPosition unload) ∧
      (r.reload unload row users load env).queue.map (·.item) = r.queue.map (·.item)) ∧
    (r.currentSource = none → r.queue = [] →
      (r.reload unload row users load env).currentSource = none ∧
      (r.reload unload row users load env).queue = []) ∧
    ∀ head tail, r.currentSource = none → r.queue = head :: tail →
      (r.reload unload row users load env).currentSource.map (·.item) = some head.item ∧
      (∀ t, (r.reload unload row users load env).realPlaybackPosition t =
        head.item.startAt.getD 0) ∧
      (r.reload unload row users load env).queue.map (·.item) = tail.map (·.item) := by
  obtain ⟨hprev, hsource, hqueue, hposition⟩ :=
    @reload_cases r row users unload load env hpermanent halways
  generalize r.reload unload row users load env = reloaded at hprev hsource hqueue hposition ⊢
  refine ⟨hprev, fun current hcurrent => ?_, fun hnone hempty => ?_, fun head tail hnone hq => ?_⟩
  · have hsaved : r.queueToSave unload =
        { current.item with startAt := some (r.realPlaybackPosition unload) } ::
          r.queue.map (·.item) := by
      simp [queueToSave, hcurrent]
    rw [hsaved] at hsource hqueue hposition
    refine ⟨?_, hposition, hqueue⟩
    have hvideo := congrArg (Option.map (fun item : QueueItem => item.toVideoId)) hsource
    rw [Option.map_map] at hvideo
    exact hvideo
  · have hsaved : r.queueToSave unload = [] := by simp [queueToSave, hnone, hempty]
    rw [hsaved] at hsource hqueue
    exact ⟨Option.map_eq_none_iff.mp hsource, List.map_eq_nil_iff.mp hqueue⟩
  · have hsaved : r.queueToSave unload = head.item :: tail.map (·.item) := by
      simp [queueToSave, hnone, hq]
    rw [hsaved] at hsource hqueue hposition
    exact ⟨hsource, hposition, hqueue⟩

end Reload

/-- The row of a room that always restores its queue. -/
def alwaysRow : DbRoom := { promptRow with prevQueue := none, restoreQueueBehavior := .always }

/-- A permanent room that plays one video, and has another in its queue. -/
def playingRoom : Room :=
  { construct (dbToRoomArgs (fun _ => none) alwaysRow) 0 with
    currentSource := some ⟨1, QueueItem.ofVideoId ⟨.youtube, "first"⟩⟩
    queue := [⟨2, QueueItem.ofVideoId ⟨.vimeo, "second"⟩⟩]
    isPlaying := true
    playbackStart := some 1000 }

theorem reload_preserves_playingRoom :
    playingRoom.isTemporary = false ∧ alwaysRow.restoreQueueBehavior = .always ∧
    (playingRoom.reload 5000 alwaysRow (fun _ => none) 9000 (emptyEnv 10000)).currentSource.map
        (·.videoId) = some ⟨.youtube, "first"⟩ ∧
    ∀ t, (playingRoom.reload 5000 alwaysRow (fun _ => none) 9000
        (emptyEnv 10000)).realPlaybackPosition t = playingRoom.realPlaybackPosition 5000 := by
  have hpreserves := reload_preserves (fun _ => none) 5000 9000 (emptyEnv 10000)
    (show playingRoom.isTemporary = false from rfl)
    (show alwaysRow.restoreQueueBehavior = .always from rfl)
  have hplayed := hpreserves.2.1 _ rfl
  exact ⟨rfl, rfl, hplayed.1, hplayed.2.1⟩

/-- A room in which a video has been queued since the last update. -/
def queuedOnly : Room :=
  { construct (dbToRoomArgs (fun _ => none) alwaysRow) 0 with
    queue := [⟨1, QueueItem.ofVideoId ⟨.youtube, "first"⟩⟩] }

/-- **Where nothing played, the queue is not the same**: its first video is played. -/
theorem not_reload_preserves :
    ¬ ∀ (r : Room) (row : DbRoom) (users : UserId → Option User) (unload load : Time) (env : Env),
      r.isTemporary = false → row.restoreQueueBehavior = .always →
      (r.reload unload row users load env).currentSource.map (·.videoId) =
          r.currentSource.map (·.videoId) ∧
        (r.reload unload row users load env).realPlaybackPosition env.now =
          r.realPlaybackPosition unload ∧
        (r.reload unload row users load env).queue.map (·.videoId) = r.queue.map (·.videoId) ∧
        (r.reload unload row users load env).prevQueue = none := by
  intro h
  have hqueue := (h queuedOnly alwaysRow (fun _ => none) 0 0 (emptyEnv 1000) rfl rfl).2.2.1
  have hlost : (queuedOnly.reload 0 alwaysRow (fun _ => none) 0 (emptyEnv 1000)).queue.map
      (·.videoId) ≠ queuedOnly.queue.map (·.videoId) := by
    decide +kernel
  exact hlost hqueue

end Room

end OpenTogetherTube.Server
