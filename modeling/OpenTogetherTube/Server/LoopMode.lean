import OpenTogetherTube.Server.Advance
import OpenTogetherTube.Server.Position
import Mathlib.Logic.Function.Iterate

/-!
# Loop mode

In loop mode the videos of a room are a ring: going on to the next one takes the first of the
`playlist` to its end, where it has no trim any more. After as many turns as there are videos the
playlist is what it was, without trims (`iterate_turn_length`).

Each call of `dequeueNext` first adds the seconds watched to a counter, which throws if they are
negative, because playback runs backwards or the clock was put back, or if they overflow, because
the speed is huge. Then nothing turns: `loop_turns_iff`.
-/

namespace OpenTogetherTube.Server

open OpenTogetherTube.Common OpenTogetherTube.Lib

/-! ## Turns -/

/-- The first video goes to the end. -/
def turn : List QueueItem → List QueueItem
  | [] => []
  | item :: items => items ++ [clearQueueItemTrim item]

theorem iterate_turn {k : Nat} {l : List QueueItem} (hk : k ≤ l.length) :
    turn^[k] l = l.drop k ++ (l.take k).map clearQueueItemTrim := by
  induction k with
  | zero => simp
  | succ k ih =>
    rw [Function.iterate_succ_apply', ih (by omega), List.drop_eq_getElem_cons (by omega)]
    show l.drop (k + 1) ++ (l.take k).map clearQueueItemTrim ++ [clearQueueItemTrim l[k]] = _
    rw [List.append_assoc, List.take_succ_eq_append_getElem (by omega), List.map_append]
    rfl

/-- **A whole round.** -/
theorem iterate_turn_length (l : List QueueItem) :
    turn^[l.length] l = l.map clearQueueItemTrim := by
  rw [iterate_turn (Nat.le_refl _), List.drop_length, List.take_length, List.nil_append]

theorem videoIds_turn (l : List QueueItem) :
    ((turn l).map (·.toVideoId)).Perm (l.map (·.toVideoId)) := by
  cases l with
  | nil => exact .refl _
  | cons item items =>
    show ((items ++ [clearQueueItemTrim item]).map (·.toVideoId)).Perm _
    rw [List.map_append]
    exact List.perm_append_comm

namespace Room

/-- What plays, and what is queued behind it. -/
def playlist (r : Room) : List QueueItem := (r.currentSource.toList ++ r.queue).map (·.item)

/-- The seconds from one time to another, at normal speed, can be counted. -/
def CountsBetween (start now : Time) : Prop :=
  (Number.round (calculateCurrentPosition start now 0 1)).isNonneg = true

instance (start now : Time) : Decidable (CountsBetween start now) :=
  inferInstanceAs (Decidable (_ = true))

/-! ## One call -/

/-- A call returns, something plays, and the playlist has turned. -/
structure Turns (env : Env) (r : Room) : Prop where
  returns : ((dequeueNext env).run r).result = .ok ()
  plays : ((dequeueNext env).run r).state.currentSource ≠ none
  playlist : ((dequeueNext env).run r).state.playlist = turn r.playlist
  videos : ((dequeueNext env).run r).state.videoIds.Perm r.videoIds

section Call

variable {r : Room} {current : QueueEntry}

theorem videoIds_eq_playlist (r : Room) : r.videoIds = r.playlist.map (·.toVideoId) := by
  rw [videoIds, playlist, List.map_map]
  rfl

/-- **A call that can count the seconds watched**: the playlist turns, and the next call counts from
now on at normal speed. -/
theorem dequeueNext_turns (env : Env) (hmode : r.queueMode = .loop)
    (hcurrent : r.currentSource = some current) (hcounts : r.Counts env.now) :
    Turns env r ∧ ((dequeueNext env).run r).state.queueMode = .loop ∧
      ∀ now, ((dequeueNext env).run r).state.Counts now ↔ CountsBetween env.now now := by
  obtain ⟨head, tail, hcons, hstock, hspeed⟩ := dequeueNext_loop env hmode hcurrent hcounts
  have hsource : ((dequeueNext env).run r).state.currentSource = some head :=
    congrArg Stock.currentSource hstock
  have hqueue : ((dequeueNext env).run r).state.queue = tail := congrArg Stock.queue hstock
  have hplaylist : ((dequeueNext env).run r).state.playlist = turn r.playlist := by
    have hitems := congrArg (List.map (·.item)) hcons
    rw [List.map_append] at hitems
    rw [playlist, hsource, hqueue, playlist, hcurrent]
    exact hitems.symm
  refine ⟨⟨?_, ?_, hplaylist, ?_⟩, ?_, fun now => ?_⟩
  · have hcleared : r.clearVotes.Counts env.now := (clearVotes_counts r env.now).mpr hcounts
    rw [dequeueNext_result, if_neg (fun h => h.2 hcleared)]
  · rw [hsource]
    exact Option.some_ne_none head
  · rw [videoIds_eq_playlist, videoIds_eq_playlist, hplaylist]
    exact videoIds_turn r.playlist
  · exact (congrArg Stock.queueMode hstock).trans hmode
  · have hstart : ((dequeueNext env).run r).state.playbackStart = some env.now :=
      congrArg Stock.playbackStart hstock
    unfold Counts calcDurationFromPlaybackStart
    rw [hstart, hspeed]
    rfl

theorem turns_iff (env : Env) (hmode : r.queueMode = .loop)
    (hcurrent : r.currentSource = some current) : Turns env r ↔ r.Counts env.now := by
  constructor
  · intro h
    by_contra hcounts
    have hcleared : ¬ r.clearVotes.Counts env.now := mt (clearVotes_counts r env.now).mp hcounts
    have hreturns := h.returns
    rw [dequeueNext_result, if_pos ⟨hcurrent ▸ Option.some_ne_none current, hcleared⟩] at hreturns
    cases hreturns
  · intro hcounts
    exact (dequeueNext_turns env hmode hcurrent hcounts).1

end Call

/-! ## A round of calls -/

/-- Calls one after the other, as long as none throws. -/
def dequeueEach (r : Room) (envs : List Env) : Option Room :=
  envs.foldlM (fun r env =>
    match (dequeueNext env).run r with
    | ⟨r', _, .ok _⟩ => some r'
    | ⟨_, _, .error _⟩ => none) r

/-- The first call can count the seconds watched, and the time from each call to the next can be
counted: the clock is not put back between them. -/
def CountsEach (r : Room) (envs : List Env) : Prop :=
  (∀ env ∈ envs.head?, r.Counts env.now) ∧ envs.IsChain (fun env env' => CountsBetween env.now env'.now)

/-- All calls return, and the room plays the same video and has the same queue as before, but for
the trims. -/
def ComesRound (r : Room) (envs : List Env) : Prop :=
  ∃ r', r.dequeueEach envs = some r' ∧ r'.currentSource ≠ none ∧
    r'.playlist = r.playlist.map clearQueueItemTrim

section Round

variable {r : Room} {current : QueueEntry}

theorem dequeueEach_cons_of_returns {env : Env}
    (h : ((dequeueNext env).run r).result = .ok ()) (envs : List Env) :
    r.dequeueEach (env :: envs) = ((dequeueNext env).run r).state.dequeueEach envs := by
  unfold dequeueEach
  rw [List.foldlM_cons]
  generalize (dequeueNext env).run r = o at h ⊢
  obtain ⟨r', published, result⟩ := o
  dsimp only at h
  rw [h]
  rfl

theorem dequeueEach_cons_of_throws {env : Env} {e : RoomError}
    (h : ((dequeueNext env).run r).result = .error e) (envs : List Env) :
    r.dequeueEach (env :: envs) = none := by
  unfold dequeueEach
  rw [List.foldlM_cons]
  generalize (dequeueNext env).run r = o at h ⊢
  obtain ⟨r', published, result⟩ := o
  dsimp only at h
  rw [h]
  rfl

/-- **However many calls that count**: the playlist has turned as often. By induction on the calls,
each of which leaves a room in loop mode that counts from then on. -/
theorem dequeueEach_of_counts {envs : List Env} (hmode : r.queueMode = .loop)
    (hcurrent : r.currentSource = some current) (hcounts : r.CountsEach envs) :
    ∃ r', r.dequeueEach envs = some r' ∧ r'.currentSource ≠ none ∧
      r'.playlist = turn^[envs.length] r.playlist := by
  induction envs generalizing r current with
  | nil => exact ⟨r, rfl, hcurrent ▸ Option.some_ne_none current, rfl⟩
  | cons env envs ih =>
    obtain ⟨hfirst, hchain⟩ := hcounts
    rw [List.isChain_cons] at hchain
    obtain ⟨hturns, hmode', hlater⟩ :=
      dequeueNext_turns env hmode hcurrent (hfirst env rfl)
    obtain ⟨next, hnext⟩ := Option.ne_none_iff_exists'.mp hturns.plays
    have hrest : ((dequeueNext env).run r).state.CountsEach envs :=
      ⟨fun env' henv' => (hlater env'.now).mpr (hchain.1 env' henv'), hchain.2⟩
    obtain ⟨r', hrun, hplays, hplaylist⟩ := ih hmode' hnext hrest
    refine ⟨r', ?_, hplays, ?_⟩
    · rw [dequeueEach_cons_of_returns hturns.returns, hrun]
    · rw [hplaylist, hturns.playlist]
      rfl

/-- Calls that all return have all counted. -/
theorem counts_of_dequeueEach {envs : List Env} (hmode : r.queueMode = .loop)
    (hcurrent : r.currentSource = some current) {r' : Room} (h : r.dequeueEach envs = some r') :
    r.CountsEach envs := by
  induction envs generalizing r current with
  | nil => exact ⟨(fun _ henv => by cases henv), List.isChain_nil⟩
  | cons env envs ih =>
    by_cases hcounts : r.Counts env.now
    · obtain ⟨hturns, hmode', hlater⟩ := dequeueNext_turns env hmode hcurrent hcounts
      obtain ⟨next, hnext⟩ := Option.ne_none_iff_exists'.mp hturns.plays
      rw [dequeueEach_cons_of_returns hturns.returns] at h
      obtain ⟨hfirst, hchain⟩ := ih hmode' hnext h
      refine ⟨fun env' henv' => ?_, List.isChain_cons.mpr ⟨fun env' henv' => ?_, hchain⟩⟩
      · cases henv'
        exact hcounts
      · exact (hlater env'.now).mp (hfirst env' henv')
    · have hcleared : ¬ r.clearVotes.Counts env.now := mt (clearVotes_counts r env.now).mp hcounts
      have hthrows := dequeueNext_result env r
      rw [if_pos ⟨hcurrent ▸ Option.some_ne_none current, hcleared⟩] at hthrows
      rw [dequeueEach_cons_of_throws hthrows] at h
      cases h

end Round

/-- Two videos in loop mode; the first is trimmed, and plays at the given speed. -/
def loopingRoom (speed : ℚ) : Room :=
  { Room.new "foo" 0 with
    queueMode := .loop
    currentSource := some ⟨0, { QueueItem.ofVideoId ⟨.youtube, "first"⟩ with startAt := some 5 }⟩
    queue := [⟨1, .ofVideoId ⟨.youtube, "second"⟩⟩]
    isPlaying := true
    playbackPosition := 5
    playbackStart := some 0
    playbackSpeed := speed }

end Room

end OpenTogetherTube.Server
