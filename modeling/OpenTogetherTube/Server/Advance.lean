import OpenTogetherTube.Lib.Tasks
import OpenTogetherTube.Server.Duplicates
import OpenTogetherTube.Server.Stock

/-!
# Going on to the next video, in segments

`dequeueNext` awaits the queue's lock: once to requeue the video that played, in loop mode, and once
to take the next one out. Each body runs under the lock in a segment of its own, and what is awaited
goes on in the segment after it. `Room.finish_begin` says that the segments of a call that runs alone
are `dequeueNext`.

Calls that run at the same time decide by what they have read before an await. In manual and vote
mode no video gets lost by that, but a call that finds the queue empty by then leaves a room that
plays nothing. In loop mode a call has requeued the video that played when it began, and replaces the
one that plays when it ends. `not_conserves_overlapping` is a run of two skips, and
`conserves_throughout` says what has to hold at the end of each call.
-/

namespace OpenTogetherTube.Server

open OpenTogetherTube.Common OpenTogetherTube.Lib

namespace Room

/-! ## Segments -/

/-- A call of `dequeueNext` that waits, with the video that played when it was made. -/
inductive AdvanceTask where
  /-- The lock is awaited, to requeue a video. -/
  | enqueue (trimmed : QueueEntry)
  /-- It is requeued. -/
  | enqueued (source : VideoId)
  /-- The lock is awaited, to take the next video out. -/
  | dequeue (source : Option VideoId)
  /-- It is taken out, if there was one. -/
  | dequeued (source : Option VideoId) (item : Option QueueEntry)
  deriving DecidableEq, Repr

/-- How a call stands. -/
abbrev AdvanceProgress := Progress AdvanceTask (Except RoomError Unit)

/-- What a segment leaves: the room, what it has assigned to `currentSource`, and how the call goes
on. -/
structure AdvanceSegment where
  room : Room
  assigned : List (Option QueueEntry)
  progress : AdvanceProgress

/-- `dequeueNext` from where it asks for the length of the queue. -/
def goOn (env : Env) (source : Option VideoId) (r : Room) : AdvanceSegment :=
  if r.queue = [] then
    ⟨afterAdvance env (r.advance env.now), if r.currentSource.isSome then [none] else [],
      .done (.ok ())⟩
  else ⟨r, [], .waiting (.dequeue source)⟩

/-- The first segment of `dequeueNext`. -/
def beginAdvance (env : Env) (r : Room) : AdvanceSegment :=
  let r := r.clearVotes
  match r.currentSource with
  | none => goOn env none r
  | some current =>
    -- the counter throws
    if ¬ r.Counts env.now then ⟨r, [], .done (.error (r.countError env.now))⟩
    else
      let trimmed : QueueEntry := ⟨env.fresh, clearQueueItemTrim current.item⟩
      match r.queueMode with
      | .dj => ⟨r.startSource env.now (some trimmed) 0, [some trimmed], .done (.ok ())⟩
      | .loop => ⟨r, [], .waiting (.enqueue trimmed)⟩
      | _ => goOn env (some current.videoId) r

/-- What was taken out of the queue is put into place. -/
def placeDequeued (env : Env) (r : Room) (item : Option QueueEntry) : Room :=
  afterAdvance env
    (r.startSource env.now item ((item.bind (·.item.startAt)).getD 0)).dropVideoSegments

/-- The later segments. -/
def resumeAdvance (env : Env) (r : Room) : AdvanceTask → AdvanceSegment
  | .enqueue trimmed =>
    ⟨r.withQueue (r.queue.enqueue [trimmed]), [], .waiting (.enqueued trimmed.videoId)⟩
  | .enqueued source => goOn env (some source) r
  | .dequeue source =>
    ⟨r.withQueue r.queue.dequeue, [], .waiting (.dequeued source r.queue.head?)⟩
  | .dequeued _ item => ⟨placeDequeued env r item, [item], .done (.ok ())⟩

/-! ### A call that runs alone -/

/-- The segments that follow, with nothing in between. -/
def finishAdvance (env : Env) : Nat → AdvanceSegment → AdvanceSegment
  | 0, segment => segment
  | fuel + 1, segment =>
    match segment.progress with
    | .done _ => segment
    | .waiting task => finishAdvance env fuel (resumeAdvance env segment.room task)

section Alone

variable (env : Env) {r : Room}

/-- From the length of the queue on, two awaits are left at most. -/
theorem finish_goOn (fuel : Nat) (source : Option VideoId) :
    (finishAdvance env (fuel + 2) (goOn env source r)).room =
        afterAdvance env (r.advance env.now) ∧
      (finishAdvance env (fuel + 2) (goOn env source r)).progress = .done (.ok ()) := by
  unfold goOn
  split
  · exact ⟨rfl, rfl⟩
  · next hne =>
    have hplaced : ∀ head tail, r.queue = head :: tail →
        placeDequeued env (r.withQueue r.queue.dequeue) (some head) =
          afterAdvance env (r.advance env.now) := by
      intro head tail hq
      unfold placeDequeued advance
      rw [hq]
      rfl
    cases hq : r.queue with
    | nil => exact absurd hq hne
    | cons head tail =>
      have hrun : finishAdvance env (fuel + 2) ⟨r, [], .waiting (.dequeue source)⟩ =
          finishAdvance env fuel
            ⟨placeDequeued env (r.withQueue r.queue.dequeue) r.queue.head?, [r.queue.head?],
              .done (.ok ())⟩ := rfl
      have hdone : ∀ (n : Nat) (room : Room) (assigned : List (Option QueueEntry)),
          finishAdvance env n ⟨room, assigned, .done (.ok ())⟩ = ⟨room, assigned, .done (.ok ())⟩ := by
        intro n room assigned
        cases n <;> rfl
      rw [hrun, hdone]
      refine ⟨?_, rfl⟩
      rw [← hplaced head tail hq, hq]
      rfl

theorem dequeueNext_result (env : Env) (r : Room) : ((dequeueNext env).run r).result =
    if r.currentSource ≠ none ∧ ¬ r.clearVotes.Counts env.now then
      .error (r.clearVotes.countError env.now)
    else .ok () := by
  have hsource : r.clearVotes.currentSource = r.currentSource :=
    congrArg Stock.currentSource (clearVotes_stock r)
  have hcleared : (if r.enableVoteSkip then r.setVotesToSkip ∅ else r) = r.clearVotes := rfl
  rw [← hsource]
  simp only [dequeueNext, Handler.run_bind, Handler.run_modify, Outcome.andThen_ok, Handler.run_get,
    hcleared]
  generalize r.clearVotes = cleared
  cases hcurrent : cleared.currentSource with
  | none => rfl
  | some current =>
    by_cases hcounts : cleared.Counts env.now
    · cases cleared.queueMode <;>
        simp [countSecondsWatched, Handler.run_when, hcounts, onQueue, VideoQueue.enqueue]
    · simp [countSecondsWatched, Handler.run_when, hcounts]

/-- **A call that runs alone is `dequeueNext`.** -/
theorem finish_begin :
    (finishAdvance env 4 (beginAdvance env r)).room = ((dequeueNext env).run r).state ∧
      (finishAdvance env 4 (beginAdvance env r)).progress =
        .done ((dequeueNext env).run r).result := by
  rw [dequeueNext_result]
  cases hsource : r.currentSource with
  | none =>
    have hcleared : r.clearVotes.currentSource = none :=
      (congrArg Stock.currentSource (clearVotes_stock r)).trans hsource
    rw [dequeueNext_state_none env hsource, beginAdvance]
    simp only [hcleared]
    exact finish_goOn env 2 none
  | some current =>
    have hcleared : r.clearVotes.currentSource = some current :=
      (congrArg Stock.currentSource (clearVotes_stock r)).trans hsource
    rw [dequeueNext_state env hsource, beginAdvance, replaced]
    simp only [hcleared]
    generalize r.clearVotes = cleared
    split
    · next hpast => exact ⟨rfl, by rw [if_pos ⟨Option.some_ne_none current, hpast⟩]; rfl⟩
    · next hpast =>
      rw [if_neg (fun h => hpast h.2)]
      cases cleared.queueMode with
      | dj => exact ⟨rfl, rfl⟩
      | loop => exact finish_goOn env 0 _
      | manual => exact finish_goOn env 2 _
      | vote => exact finish_goOn env 2 _

end Alone

/-! ## What happens in between -/

/-- What else `update` and `skip` do to the room. -/
inductive AdvanceContext where
  | refreshKeepAlive (env : Env)
  | sortByVotes
  | fetchSegments (env : Env)
  | endDontSkip (env : Env)
  | autoSkip (env : Env)
  | clearSegments

def inContext (r : Room) : AdvanceContext → Room
  | .refreshKeepAlive env => refreshKeepAlive env r
  | .sortByVotes => r.sortByVotes
  | .fetchSegments env =>
    if r.wantSponsorBlock then fetchSponsorBlockSegments env { r with wantSponsorBlock := false }
    else r
  | .endDontSkip env => endDontSkip env r
  | .autoSkip env => ((autoSkip env).run r).state
  | .clearSegments => r.setVideoSegments []

/-- The same plays, and the same is queued, in some order. -/
structure SameVideos (r r' : Room) : Prop where
  mode : r'.queueMode = r.queueMode
  source : r'.currentSource = r.currentSource
  playing : r'.isPlaying = r.isPlaying
  queue : r'.queue.Perm r.queue

instance : IsPreorder Room SameVideos where
  refl _ := ⟨rfl, rfl, rfl, .refl _⟩
  trans _ _ _ h h' := ⟨h'.mode.trans h.mode, h'.source.trans h.source, h'.playing.trans h.playing,
    h'.queue.trans h.queue⟩

section Same

variable {r r' : Room}

theorem SameVideos.of_stock (h : r'.stock = r.stock) : SameVideos r r' where
  mode := congrArg Stock.queueMode h
  source := congrArg Stock.currentSource h
  playing := congrArg Stock.isPlaying h
  queue := .of_eq (congrArg Stock.queue h)

theorem sortByVotes_sameVideos (r : Room) : SameVideos r r.sortByVotes := by
  unfold sortByVotes
  split
  · generalize hstep : r.queue.orderBy _ = step
    have hperm : step.items.Perm r.queue := by
      rw [← hstep]
      exact List.perm_insertionSort _ _
    have hstock := withQueue_stock r step
    refine ⟨congrArg Stock.queueMode hstock, congrArg Stock.currentSource hstock,
      congrArg Stock.isPlaying hstock, ?_⟩
    rw [show (r.withQueue step).queue = step.items from congrArg Stock.queue hstock]
    exact hperm
  · exact refl_of SameVideos r

theorem autoSkip_sameVideos (env : Env) : (autoSkip env).Keeps SameVideos :=
  autoSkip_keeps (fun _ => .bind (countSecondsWatched_keeps env)
    (fun _ => .modify (fun _ => ⟨rfl, rfl, rfl, .refl _⟩)))

/-- What happens in between moves no video. -/
theorem inContext_sameVideos (r : Room) (e : AdvanceContext) : SameVideos r (r.inContext e) := by
  cases e with
  | refreshKeepAlive env => exact .of_stock (refreshKeepAlive_stock env r)
  | sortByVotes => exact sortByVotes_sameVideos r
  | fetchSegments env =>
    refine .of_stock ((apply_ite stock _ _ _).trans ?_)
    rw [fetchSponsorBlockSegments_stock]
    exact ite_self _
  | endDontSkip env => exact .of_stock (endDontSkip_stock env r)
  | autoSkip env => exact autoSkip_sameVideos env r
  | clearSegments => exact .of_stock rfl

theorem voteToSkip_sameVideos (context : RoomRequestContext) (r : Room) :
    SameVideos r (r.voteToSkip context) := voteToSkip_keeps (fun _ _ => .of_stock rfl) context r

end Same

/-! ## What a segment does with the videos -/

/-- What a call has taken out of the queue, and not put into place yet. -/
def held : AdvanceProgress → Option QueueEntry
  | .waiting (.dequeued _ item) => item
  | _ => none

/-- The video that a call has requeued, or was going to replace, and has not replaced yet. -/
def owed : AdvanceProgress → Option VideoId
  | .waiting (.enqueued source) => some source
  | .waiting (.dequeue source) => source
  | .waiting (.dequeued source _) => source
  | _ => none

/-- Videos that have been played do not come back. -/
def Consumes (mode : QueueMode) : Prop := mode = .manual ∨ mode = .vote

instance (mode : QueueMode) : Decidable (Consumes mode) := inferInstanceAs (Decidable (_ ∨ _))

/-- What a segment does, of a call that stood at `before`: what it takes out of the queue is held or
has been put into place; in loop mode what it has too much is owed; and in the modes that use videos
up it stops playback when it leaves nothing to play. -/
structure AdvanceSegment.Sound (r : Room) (before : AdvanceProgress)
    (segment : AdvanceSegment) : Prop where
  mode : segment.room.queueMode = r.queueMode
  kept : ∀ e, r.queue.count e + (held before).toList.count e ≤
    segment.room.queue.count e + (held segment.progress).toList.count e +
      segment.assigned.reduceOption.count e
  loop : r.queueMode = .loop → ∀ v,
    segment.room.videoIds.count v + ((held segment.progress).map (·.videoId)).toList.count v +
        (owed before).toList.count v =
      r.videoIds.count v + ((held before).map (·.videoId)).toList.count v +
        (owed segment.progress).toList.count v
  stopped : Consumes r.queueMode →
    (segment.assigned = [] ∧ segment.room.isPlaying = r.isPlaying) ∨
      ∃ source, segment.assigned = [source] ∧ (source = none → segment.room.isPlaying = false)

section Sound

variable {r r' : Room} {before : AdvanceProgress} {segment : AdvanceSegment}

theorem SameVideos.videoIds (h : SameVideos r r') : r'.videoIds.Perm r.videoIds := by
  unfold Room.videoIds
  rw [h.source]
  exact (h.queue.append_left _).map _

theorem AdvanceSegment.Sound.of_same (hsame : SameVideos r r') (h : segment.Sound r' before) :
    segment.Sound r before where
  mode := h.mode.trans hsame.mode
  kept e := by
    rw [← hsame.queue.count_eq e]
    exact h.kept e
  loop hloop v := by
    rw [← hsame.videoIds.count_eq v]
    exact h.loop (hsame.mode.trans hloop) v
  stopped hmode := by
    rw [← hsame.playing]
    exact h.stopped (hsame.mode.symm ▸ hmode)

/-- A segment that moves nothing. -/
theorem AdvanceSegment.Sound.of_still (hsame : SameVideos r segment.room)
    (hassigned : segment.assigned = []) (hheld : held segment.progress = held before)
    (howed : r.queueMode = .loop → owed segment.progress = owed before) :
    segment.Sound r before where
  mode := hsame.mode
  kept e := by
    rw [hassigned, hheld, hsame.queue.count_eq e]
    exact Nat.le_refl _
  loop hloop v := by rw [hheld, howed hloop, hsame.videoIds.count_eq v]
  stopped _ := .inl ⟨hassigned, hsame.playing⟩

/-- In loop mode, the call that finds the queue empty replaces what it has requeued. -/
theorem goOn_sound (env : Env) (source : Option VideoId) (hheld : held before = none)
    (howed : r.queueMode = .loop → owed before = source)
    (htimely : r.queueMode = .loop → r.queue = [] → r.currentSource.map (·.videoId) = source) :
    (goOn env source r).Sound r before := by
  unfold goOn
  split
  · next hq =>
    by_cases hsource : r.currentSource = none
    · refine .of_still ?_ ?_ hheld.symm (fun hloop => ?_)
      · rw [advance_idle hq hsource]
        exact .of_stock (afterAdvance_stock env r)
      · rw [hsource]
        rfl
      · rw [howed hloop, ← htimely hloop hq, hsource]
        rfl
    · have hsome : r.currentSource.isSome = true := Option.isSome_iff_ne_none.mpr hsource
      have hstock : (afterAdvance env (r.advance env.now)).stock = r.stock.stop env.now :=
        (afterAdvance_stock env _).trans (advance_stock_nil hq hsource env.now)
      have hqueue : (afterAdvance env (r.advance env.now)).queue = [] :=
        (congrArg Stock.queue hstock).trans hq
      have hnone : (afterAdvance env (r.advance env.now)).currentSource = none :=
        congrArg Stock.currentSource hstock
      rw [if_pos hsome]
      refine ⟨congrArg Stock.queueMode hstock, fun e => ?_, fun hloop v => ?_, fun _ => ?_⟩
      · rw [hheld, hq]
        simp
      · have hplays := htimely hloop hq
        rw [hheld, howed hloop, ← hplays]
        simp only [Room.videoIds, hqueue, hnone, hq]
        cases r.currentSource <;> simp [held, owed]
      · exact .inr ⟨none, rfl, fun _ => congrArg Stock.isPlaying hstock⟩
  · exact .of_still (refl_of SameVideos r) rfl hheld.symm (fun hloop => (howed hloop).symm)

/-- **The first segment** needs nothing. -/
theorem beginAdvance_sound (env : Env) (r : Room) :
    (beginAdvance env r).Sound r (.done (.ok ())) := by
  refine .of_same (.of_stock (clearVotes_stock r)) ?_
  unfold beginAdvance
  generalize r.clearVotes = r
  dsimp only
  split
  · next hsource => exact goOn_sound env none rfl (fun _ => rfl) (fun _ _ => by rw [hsource]; rfl)
  · next current hsource =>
    split
    · exact .of_still (refl_of SameVideos r) rfl rfl (fun _ => rfl)
    · split
      · next hdj =>
        refine ⟨rfl, fun e => ?_, fun hloop => ?_, fun hmode => ?_⟩
        · exact Nat.le_add_right _ _
        · rw [hdj] at hloop
          cases hloop
        · rw [hdj] at hmode
          obtain hmode | hmode := hmode <;> cases hmode
      · exact .of_still (refl_of SameVideos r) rfl rfl (fun _ => rfl)
      · next hdj hloop =>
        exact goOn_sound env _ rfl (fun h => absurd h hloop) (fun h => absurd h hloop)

/-- A call goes on where what it has read still holds: what it replaces is what played when it was
made, and where it was given no video nothing is set to play. -/
def Timely (r : Room) : AdvanceProgress → Prop
  | .waiting (.enqueued source) =>
    r.queueMode = .loop → r.queue = [] → r.currentSource.map (·.videoId) = some source
  | .waiting (.dequeued source item) =>
    (r.queueMode = .loop → r.currentSource.map (·.videoId) = source) ∧
      (Consumes r.queueMode → item = none → r.isPlaying = false)
  | _ => True

instance (r : Room) : (t : AdvanceProgress) → Decidable (Timely r t)
  | .waiting (.enqueued _) => inferInstanceAs (Decidable (_ → _ → _))
  | .waiting (.dequeued _ _) => inferInstanceAs (Decidable ((_ → _) ∧ (_ → _ → _)))
  | .waiting (.enqueue _) | .waiting (.dequeue _) | .done _ => inferInstanceAs (Decidable True)

theorem count_head?_tail {α : Type} [DecidableEq α] (l : List α) (a : α) :
    l.tail.count a + l.head?.toList.count a = l.count a := by
  cases l with
  | nil => rfl
  | cons b l => rw [List.tail_cons, List.head?_cons, Option.toList_some, Nat.add_comm,
      ← List.count_append, List.singleton_append]

/-- **The later segments**, where they are timely. -/
theorem resumeAdvance_sound (env : Env) {r : Room} {task : AdvanceTask} (htimely : Timely r (.waiting task)) :
    (resumeAdvance env r task).Sound r (.waiting task) := by
  cases task with
  | enqueue trimmed =>
    have hstock := withQueue_stock r (r.queue.enqueue [trimmed])
    have hqueue : (r.withQueue (r.queue.enqueue [trimmed])).queue = r.queue ++ [trimmed] :=
      congrArg Stock.queue hstock
    have hsource : (r.withQueue (r.queue.enqueue [trimmed])).currentSource = r.currentSource :=
      congrArg Stock.currentSource hstock
    refine ⟨congrArg Stock.queueMode hstock, fun e => ?_, fun _ v => ?_, fun _ => .inl ⟨rfl, ?_⟩⟩
    · show r.queue.count e + 0 ≤ (r.withQueue (r.queue.enqueue [trimmed])).queue.count e + 0 + 0
      rw [hqueue, List.count_append]
      omega
    · show (r.withQueue (r.queue.enqueue [trimmed])).videoIds.count v + 0 + 0 =
        r.videoIds.count v + 0 + [trimmed.videoId].count v
      unfold Room.videoIds
      rw [hqueue, hsource, ← List.append_assoc, List.map_append, List.count_append]
      rfl
    · exact congrArg Stock.isPlaying hstock
  | enqueued source => exact goOn_sound env (some source) rfl (fun _ => rfl) htimely
  | dequeue source =>
    have hstock := withQueue_stock r r.queue.dequeue
    have hqueue : (r.withQueue r.queue.dequeue).queue = r.queue.tail := congrArg Stock.queue hstock
    have hsource : (r.withQueue r.queue.dequeue).currentSource = r.currentSource :=
      congrArg Stock.currentSource hstock
    refine ⟨congrArg Stock.queueMode hstock, fun e => ?_, fun _ v => ?_, fun _ => .inl ⟨rfl, ?_⟩⟩
    · show r.queue.count e + 0 ≤
        (r.withQueue r.queue.dequeue).queue.count e + r.queue.head?.toList.count e + 0
      rw [hqueue, count_head?_tail]
    · have htaken := count_head?_tail (r.queue.map (·.videoId)) v
      rw [← List.map_tail, List.head?_map] at htaken
      show (r.withQueue r.queue.dequeue).videoIds.count v +
          (r.queue.head?.map (·.videoId)).toList.count v + source.toList.count v =
        r.videoIds.count v + 0 + source.toList.count v
      unfold Room.videoIds
      rw [hqueue, hsource, List.map_append, List.map_append, List.count_append, List.count_append]
      omega
    · exact congrArg Stock.isPlaying hstock
  | dequeued source item =>
    have hstock : (placeDequeued env r item).stock = r.stock.place env.now item := by
      unfold placeDequeued
      rw [afterAdvance_stock, dropVideoSegments_stock]
      exact startSource_stock r env.now item
    have hqueue : (placeDequeued env r item).queue = r.queue := congrArg Stock.queue hstock
    have hsource : (placeDequeued env r item).currentSource = item :=
      congrArg Stock.currentSource hstock
    refine ⟨congrArg Stock.queueMode hstock, fun e => ?_, fun hloop v => ?_, fun hmode =>
      .inr ⟨item, rfl, fun hnone => ?_⟩⟩
    · show r.queue.count e + item.toList.count e ≤
        (placeDequeued env r item).queue.count e + 0 + [item].reduceOption.count e
      rw [hqueue]
      cases item <;> simp
    · show (placeDequeued env r item).videoIds.count v + 0 + source.toList.count v =
        r.videoIds.count v + (item.map (·.videoId)).toList.count v + 0
      unfold Room.videoIds
      rw [hqueue, hsource, ← htimely.1 hloop, Option.toList_map, Option.toList_map,
        List.map_append, List.map_append, List.count_append, List.count_append]
      omega
    · exact (congrArg Stock.isPlaying hstock).trans (htimely.2 hmode hnone)

end Sound

end Room

/-! ## The system -/

namespace Advancing

open Room

/-- A room, and what has been assigned to its `currentSource`, in that order. -/
structure State where
  room : Room
  sources : List (Option QueueEntry)

inductive Call where
  | update (env : Env)
  | skip (env : Env) (context : RoomRequestContext)

/-- The call of `dequeueNext`, where it is made. -/
def Call.segment (r : Room) : Call → AdvanceSegment
  | .update env =>
    if r.currentSource = none ∧ r.queue ≠ [] ∨ r.sourceEnded env.now = true then beginAdvance env r
    else ⟨r, [], .done (.ok ())⟩
  | .skip env context =>
    match r.currentSource with
    | none => ⟨r, [], .done (.ok ())⟩
    | some _ =>
      let r := r.voteToSkip context
      if r.enableVoteSkip = true → r.skipVoted = true then beginAdvance env r
      else ⟨r, [], .done (.ok ())⟩

def State.after (s : State) (segment : AdvanceSegment) : State × AdvanceProgress :=
  (⟨segment.room, s.sources ++ segment.assigned⟩, segment.progress)

def program : Program State Call AdvanceTask Env AdvanceContext
    (Except RoomError Unit) where
  start c s := s.after (c.segment s.room)
  resume task env s := some (s.after (resumeAdvance env s.room task))
  environment e s := some { s with room := s.room.inContext e }

/-- Any number of calls, with what else `update` and `skip` do in between. -/
def system : Machine (Pool State AdvanceTask (Except RoomError Unit)) (PoolEvent Call Env AdvanceContext) :=
  program.machine

/-- **The purpose.** In loop mode the videos are the same when all calls are over. In manual and vote
mode what is not in the queue then has been put into place; and where the last thing that happened to
`currentSource` is that nothing was left for it, nothing is set to play. -/
structure Conserves (initial : Room) (p : Pool State AdvanceTask (Except RoomError Unit)) : Prop where
  loop : initial.queueMode = .loop → p.suspended = [] →
    p.shared.room.videoIds.Perm initial.videoIds
  played : Consumes initial.queueMode → p.suspended = [] →
    initial.queue.Subperm (p.shared.room.queue ++ p.shared.sources.reduceOption)
  stopped : Consumes initial.queueMode → p.shared.sources.getLast? = some none →
    p.shared.room.isPlaying = false

/-- The condition on a step: a call that goes on is timely. -/
def Timely (p : Pool State AdvanceTask (Except RoomError Unit)) : PoolEvent Call Env AdvanceContext → Prop
  | .answer i _ => ∀ t ∈ p.tasks[i]?, Room.Timely p.shared.room t
  | _ => True

instance (p : Pool State AdvanceTask (Except RoomError Unit)) :
    (e : PoolEvent Call Env AdvanceContext) → Decidable (Timely p e)
  | .answer i _ => inferInstanceAs (Decidable (∀ t ∈ p.tasks[i]?, Room.Timely p.shared.room t))
  | .call _ | .external _ => inferInstanceAs (Decidable True)

/-! ### The invariant -/

/-- What is missing is held by a call, and what is there too often is owed by one. -/
structure Inv (initial : Room) (p : Pool State AdvanceTask (Except RoomError Unit)) : Prop where
  mode : p.shared.room.queueMode = initial.queueMode
  kept : ∀ e, initial.queue.count e ≤ p.shared.room.queue.count e +
    (p.tasks.filterMap held).count e + p.shared.sources.reduceOption.count e
  loop : initial.queueMode = .loop → ∀ v,
    p.shared.room.videoIds.count v +
        (p.tasks.filterMap (fun t => (held t).map (·.videoId))).count v =
      initial.videoIds.count v + (p.tasks.filterMap owed).count v
  stopped : Consumes initial.queueMode → p.shared.sources.getLast? = some none →
    p.shared.room.isPlaying = false

theorem inv_idle (r : Room) : Inv r (.idle ⟨r, []⟩) where
  mode := rfl
  kept _ := Nat.le_refl _
  loop _ _ := rfl
  stopped _ h := by cases h

section Step

variable {initial : Room} {p : Pool State AdvanceTask (Except RoomError Unit)} {before : AdvanceProgress}
  {segment : AdvanceSegment} {tasks : List (AdvanceProgress)}

/-- One task is exchanged for another. -/
def Exchanged (tasks : List (AdvanceProgress)) (before after : AdvanceProgress)
    (tasks' : List (AdvanceProgress)) : Prop :=
  ∀ {β : Type} (f : AdvanceProgress → Option β), (∀ result, f (.done result) = none) →
    ∃ rest, (tasks.filterMap f).Perm ((f before).toList ++ rest) ∧
      (tasks'.filterMap f).Perm ((f after).toList ++ rest)

theorem exchanged_append (tasks : List (AdvanceProgress))
    (t : AdvanceProgress) : Exchanged tasks (.done (.ok ())) t (tasks ++ [t]) := by
  intro β f hdone
  refine ⟨tasks.filterMap f, ?_, ?_⟩
  · rw [hdone]
    exact .refl _
  · rw [List.filterMap_append]
    refine List.perm_append_comm.trans (List.Perm.append_right _ ?_)
    cases hf : f t <;> simp [hf]

theorem Exchanged.count {β : Type} [DecidableEq β] {after : AdvanceProgress}
    (h : Exchanged p.tasks before after tasks) (f : AdvanceProgress → Option β)
    (hdone : ∀ result, f (.done result) = none) (b : β) :
    (tasks.filterMap f).count b + (f before).toList.count b =
      (p.tasks.filterMap f).count b + (f after).toList.count b := by
  obtain ⟨rest, hbefore, hafter⟩ := h f hdone
  rw [hbefore.count_eq, hafter.count_eq, List.count_append, List.count_append]
  omega

/-- **A segment keeps the invariant.** -/
theorem Inv.after (hinv : Inv initial p) (hsound : segment.Sound p.shared.room before)
    (htasks : Exchanged p.tasks before segment.progress tasks) :
    Inv initial ⟨(p.shared.after segment).1, tasks⟩ where
  mode := hsound.mode.trans hinv.mode
  kept e := by
    have hheld := htasks.count held (fun _ => rfl) e
    have hkept := hinv.kept e
    have hseg := hsound.kept e
    show initial.queue.count e ≤ segment.room.queue.count e + (tasks.filterMap held).count e +
      (p.shared.sources ++ segment.assigned).reduceOption.count e
    rw [List.reduceOption_append, List.count_append]
    omega
  loop hloop v := by
    have hheld := htasks.count (fun t => (held t).map (·.videoId)) (fun _ => rfl) v
    have howed := htasks.count owed (fun _ => rfl) v
    have hbalance := hinv.loop hloop v
    have hseg := hsound.loop (hinv.mode.trans hloop) v
    show segment.room.videoIds.count v +
        (tasks.filterMap (fun t => (held t).map (·.videoId))).count v =
      initial.videoIds.count v + (tasks.filterMap owed).count v
    omega
  stopped hmode hlast := by
    have hstopped := hsound.stopped (hinv.mode.symm ▸ hmode)
    obtain ⟨hnone, hplaying⟩ | ⟨source, hsome, hplaying⟩ := hstopped
    · have hsources : (p.shared.after segment).1.sources = p.shared.sources := by
        show p.shared.sources ++ segment.assigned = p.shared.sources
        rw [hnone, List.append_nil]
      rw [hsources] at hlast
      exact hplaying.trans (hinv.stopped hmode hlast)
    · have hsources : (p.shared.after segment).1.sources.getLast? = some source := by
        show (p.shared.sources ++ segment.assigned).getLast? = some source
        rw [hsome, List.getLast?_append, List.getLast?_singleton]
        rfl
      rw [hsources] at hlast
      exact hplaying (Option.some.inj hlast)

theorem call_sound (r : Room) (c : Call) : (c.segment r).Sound r (.done (.ok ())) := by
  have hstill : ∀ r' : Room, SameVideos r r' →
      (⟨r', [], .done (.ok ())⟩ : AdvanceSegment).Sound r (.done (.ok ())) :=
    fun r' h => .of_still h rfl rfl (fun _ => rfl)
  cases c with
  | update env =>
    rw [Call.segment]
    split
    · exact beginAdvance_sound env r
    · exact hstill r (refl_of SameVideos r)
  | skip env context =>
    have hvoted := voteToSkip_sameVideos context r
    rw [Call.segment]
    split
    · exact hstill r (refl_of SameVideos r)
    · dsimp only
      split
      · exact .of_same hvoted (beginAdvance_sound env _)
      · exact hstill _ hvoted

/-- **The step lemma.** -/
theorem inv_step {p' : Pool State AdvanceTask (Except RoomError Unit)} {e : PoolEvent Call Env AdvanceContext}
    (hinv : Inv initial p) (htimely : Timely p e) (h : system.step p e = some p') :
    Inv initial p' := by
  obtain ⟨c, -, rfl⟩ | ⟨i, env, task, s, pr, rfl, htask, hresume, rfl⟩ |
    ⟨context, s, -, henv, rfl⟩ := Program.step_cases h
  · exact hinv.after (call_sound p.shared.room c) (exchanged_append _ _)
  · cases hresume
    exact hinv.after (resumeAdvance_sound env (htimely _ htask))
      (fun f _ => Program.filterMap_set_perm f htask _)
  · cases henv
    have hsame := inContext_sameVideos p.shared.room context
    refine ⟨hsame.mode.trans hinv.mode, fun v => ?_, fun hloop v => ?_, fun hmode hlast => ?_⟩
    · show _ ≤ (p.shared.room.inContext context).queue.count v + _ + _
      rw [hsame.queue.count_eq]
      exact hinv.kept v
    · show (p.shared.room.inContext context).videoIds.count v + _ = _
      rw [hsame.videoIds.count_eq]
      exact hinv.loop hloop v
    · exact hsame.playing.trans (hinv.stopped hmode hlast)

theorem filterMap_eq_nil {β : Type} {f : AdvanceProgress → Option β}
    (hdone : ∀ result, f (.done result) = none) (h : p.suspended = []) :
    p.tasks.filterMap f = [] := by
  rw [List.filterMap_eq_nil_iff]
  intro t ht
  cases t with
  | waiting task =>
    have hmem := Pool.mem_suspended.mpr ht
    rw [h] at hmem
    cases hmem
  | done result => exact hdone result

/-- When all calls are over, nothing is held and nothing is owed. -/
theorem Inv.conserves (hinv : Inv initial p) : Conserves initial p where
  loop hloop hover := by
    rw [List.perm_iff_count]
    intro v
    have hbalance := hinv.loop hloop v
    rw [filterMap_eq_nil (fun _ => rfl) hover, filterMap_eq_nil (fun _ => rfl) hover] at hbalance
    exact hbalance
  played _ hover := by
    rw [List.subperm_iff_count]
    intro e
    have hkept := hinv.kept e
    rw [filterMap_eq_nil (fun _ => rfl) hover] at hkept
    rw [List.count_append]
    exact hkept
  stopped := hinv.stopped

end Step

/-- **Advances that overlap conserve the videos** in every run in which each call goes on while what
it has read still holds. -/
theorem conserves_throughout (r : Room) (es : List (PoolEvent Call Env AdvanceContext))
    (h : system.Along Timely (.idle ⟨r, []⟩) es) :
    system.Always (Conserves r) (.idle ⟨r, []⟩) es :=
  (Machine.always_of_along (fun _ _ _ hinv htimely hstep => inv_step hinv htimely hstep)
    (inv_idle r) h).imp (fun _ hinv => hinv.conserves)

/-- A room that plays one video, and has another in its queue. -/
def twoVideos (mode : QueueMode) : Room :=
  { Room.new "foo" 0 with
    queueMode := mode
    currentSource := some ⟨1, QueueItem.ofVideoId ⟨.youtube, "first"⟩⟩
    queue := [⟨2, QueueItem.ofVideoId ⟨.youtube, "second"⟩⟩]
    isPlaying := true
    playbackStart := some 0 }

def skipping (now : Time) : Call := .skip (emptyEnv now) ⟨"owner", .owner, none, none⟩

theorem conserves_throughout_skip :
    system.Always (Conserves (twoVideos .loop)) (.idle ⟨twoVideos .loop, []⟩)
      [.call (skipping 1000), .answer 0 (emptyEnv 1001), .answer 0 (emptyEnv 1002),
        .answer 0 (emptyEnv 1003), .external .clearSegments, .answer 0 (emptyEnv 1004)] :=
  conserves_throughout _ _ (by decide +kernel)

/-- **Two skips that overlap leave a room that plays nothing**: the second finds the queue empty. -/
theorem not_conserves_overlapping :
    ¬ ∀ (r : Room) (es : List (PoolEvent Call Env AdvanceContext)),
      system.Always (Conserves r) (.idle ⟨r, []⟩) es := by
  intro h
  have hrun : ∃ p ∈ system.run (.idle ⟨twoVideos .manual, []⟩)
      [.call (skipping 1000), .call (skipping 1001), .answer 0 (emptyEnv 1002),
        .answer 1 (emptyEnv 1003), .answer 0 (emptyEnv 1004), .answer 1 (emptyEnv 1005)],
      p.shared.sources.getLast? = some none ∧ p.shared.room.isPlaying = true := by
    decide +kernel
  obtain ⟨p, hp, hlast, hplaying⟩ := hrun
  have hstopped := ((h (twoVideos .manual) _).last hp).stopped (.inl rfl) hlast
  rw [hplaying] at hstopped
  cases hstopped

end Advancing

end OpenTogetherTube.Server
