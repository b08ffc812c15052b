import OpenTogetherTube.Server.Requests

/-!
# What a room goes on with

The `Stock` of a room is what plays, how it plays, and what is queued. Going on to the next video is
a change of the stock, `playHead` if something is queued and `stop` if not; the other things that
`dequeueNext` does on the way, to the votes to skip, the segments and the speed, leave it alone.
-/

namespace OpenTogetherTube.Server

open OpenTogetherTube.Common OpenTogetherTube.Lib

structure Stock where
  queueMode : QueueMode
  currentSource : Option QueueEntry
  queue : VideoQueue
  prevQueue : Option (List QueueItem)
  isPlaying : Bool
  playbackPosition : ℚ
  playbackStart : Option Time
  votes : OrderedMap String (OrderedSet ClientId)

namespace Stock

/-- A source is put into place, to be played from its start. -/
def place (s : Stock) (now : Time) (source : Option QueueEntry) : Stock :=
  { s with
    currentSource := source
    playbackPosition := (source.bind (fun e => e.item.startAt)).getD 0
    playbackStart := some now }

/-- The head of the queue is played, if there is one. -/
def playHead (s : Stock) (now : Time) : Stock :=
  match s.queue with
  | [] => s
  | head :: tail => { s with queue := tail }.place now (some head)

/-- Nothing is left to play. -/
def stop (s : Stock) (now : Time) : Stock :=
  { s with
    currentSource := none
    isPlaying := false
    playbackPosition := 0
    playbackStart := some now }

end Stock

namespace Room

def stock (r : Room) : Stock where
  queueMode := r.queueMode
  currentSource := r.currentSource
  queue := r.queue
  prevQueue := r.prevQueue
  isPlaying := r.isPlaying
  playbackPosition := r.playbackPosition
  playbackStart := r.playbackStart
  votes := r.votes

section Stock

variable {r : Room}

theorem withQueue_stock {α : Type} (r : Room) (step : QueueStep α) :
    (r.withQueue step).stock = { r.stock with queue := step.items } := by
  unfold withQueue
  split <;> rfl

theorem clearVotes_stock (r : Room) : r.clearVotes.stock = r.stock :=
  clearVotes_keeps (R := Handler.SameOn stock) (fun _ _ => rfl) r

theorem clearVotes_counts (r : Room) (now : Time) : r.clearVotes.Counts now ↔ r.Counts now :=
  iff_of_eq (clearVotes_keeps (R := Handler.SameOn (Counts · now)) (fun _ _ => rfl) r)

theorem dropVideoSegments_stock (r : Room) : r.dropVideoSegments.stock = r.stock :=
  dropVideoSegments_keeps (R := Handler.SameOn stock) (fun _ _ => rfl) r

theorem startSource_stock (r : Room) (now : Time) (source : Option QueueEntry) :
    (r.startSource now source ((source.bind (fun e => e.item.startAt)).getD 0)).stock =
      r.stock.place now source := rfl

theorem afterAdvance_stock (env : Env) (r : Room) : (afterAdvance env r).stock = r.stock :=
  afterAdvance_keeps (R := Handler.SameOn stock) (fun _ _ => rfl) (fun _ => rfl) (fun _ => rfl) env
    r

theorem stock_ignoresChores : IgnoresChores (Handler.SameOn stock) := fun _ _ _ _ => rfl

theorem refreshKeepAlive_stock (env : Env) (r : Room) :
    (refreshKeepAlive env r).stock = r.stock := refreshKeepAlive_keeps stock_ignoresChores env r

theorem fetchSponsorBlockSegments_stock (env : Env) (r : Room) :
    (fetchSponsorBlockSegments env r).stock = r.stock :=
  fetchSponsorBlockSegments_keeps (R := Handler.SameOn stock) (fun _ _ => rfl) env r

theorem endDontSkip_stock (env : Env) (r : Room) : (endDontSkip env r).stock = r.stock :=
  endDontSkip_keeps stock_ignoresChores env r

/-- The head of the queue starts to play. -/
theorem advance_stock_cons {head : QueueEntry} {tail : List QueueEntry}
    (hq : r.queue = head :: tail) (now : Time) : (r.advance now).stock = r.stock.playHead now := by
  unfold advance Stock.playHead stock
  rw [hq]
  exact dropVideoSegments_stock _

/-- Nothing is queued, and what plays ends. -/
theorem advance_stock_nil (hq : r.queue = []) (hsource : r.currentSource ≠ none) (now : Time) :
    (r.advance now).stock = r.stock.stop now := by
  have hsome : r.currentSource.isSome = true := Option.isSome_iff_ne_none.mpr hsource
  unfold advance
  rw [hq]
  dsimp only
  rw [if_pos hsome]
  cases hplaying : r.isPlaying with
  | true => rfl
  | false =>
    rw [if_neg Bool.false_ne_true]
    show ({ r.stock with
      currentSource := none, playbackPosition := 0, playbackStart := some now } : Stock) = _
    rw [Stock.stop, ← hplaying]
    rfl

/-- Nothing is queued, and nothing plays. -/
theorem advance_idle (hq : r.queue = []) (hsource : r.currentSource = none) (now : Time) :
    r.advance now = r := by
  unfold advance
  rw [hq]
  dsimp only
  rw [if_neg (by simp [hsource])]

end Stock

end Room

end OpenTogetherTube.Server
