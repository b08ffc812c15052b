import OpenTogetherTube.Client.RoomStore
import OpenTogetherTube.Server.Sync

/-!
# The store as a replica of the room

A client is sent the whole state of the room when it joins, and from then on every sync message that
the room publishes, in order. A message may take any time to arrive, while the room changes, calls of
`sync` wait for redis or for the database, and others begin.

`Server.Sync` keeps, for each property, the last message that contained it, as what the clients have.
Here is a client that has it. Whatever happens, when all messages have arrived its store has what the
last ones say (`Refines`), and so it has what the room has, if no call of `sync` is disturbed
(`replicated`).
-/

namespace OpenTogetherTube.Client.Replica

open OpenTogetherTube.Common OpenTogetherTube.Lib OpenTogetherTube.Server
open Sync (SyncMessage)

/-! ## The properties in the store -/

/-- The store has no place for two of the properties. -/
def kept : SyncProp → Bool
  | .autoSkipSegmentCategories | .restoreQueueBehavior => false
  | _ => true

/-- What the store has of a property. -/
def valueOf (s : RoomState) : (prop : SyncProp) → Option prop.Value
  | .name => some s.name
  | .title => some s.title
  | .description => some s.description
  | .isTemporary => some s.isTemporary
  | .visibility => some s.visibility
  | .queueMode => some s.queueMode
  | .currentSource => some s.currentSource
  | .queue => some s.queue
  | .isPlaying => some s.isPlaying
  | .playbackPosition => some s.playbackPosition
  | .playbackSpeed => some s.playbackSpeed
  | .grants => some s.grants
  | .hasOwner => some s.hasOwner
  | .voteCounts => s.voteCounts
  | .videoSegments => s.videoSegments
  | .autoSkipSegmentCategories | .restoreQueueBehavior => none
  | .prevQueue => some s.prevQueue
  | .enableVoteSkip => some s.enableVoteSkip
  | .votesToSkip => some s.votesToSkip

/-- A message overwrites the properties that it has. -/
theorem valueOf_sync {prop : SyncProp} (hkept : kept prop = true) (now : Time)
    (message : ServerMessageSync) (s : RoomState) :
    valueOf (s.sync now message) prop = (message prop).or (valueOf s prop) := by
  have hgetD : ∀ {α : Type} (new : Option α) (old : α), some (new.getD old) = new.or (some old) := by
    intro α new old
    cases new <;> rfl
  cases prop <;> first
    | exact hgetD _ _
    | rfl
    | cases hkept

/-! ## The state -/

/-- The room with its calls of `sync`, and a client. -/
structure World where
  /-- `received` is what this client was sent last. -/
  pool : Pool Sync.State Sync.Task Sync.Result
  store : RoomState
  /-- The sync messages that are on their way to the client. -/
  wire : List ServerMessageSync

inductive Event where
  /-- The room changes, or a call of `sync` begins or goes on. -/
  | room (e : Sync.Event)
  /-- The client joins, or joins again: what was on its way is lost. -/
  | join (now : Time)
  /-- The next message arrives. -/
  | deliver (now : Time)

/-- A sync message as it is sent. -/
def payload (message : SyncMessage) : ServerMessageSync := fun prop =>
  if prop ∈ message.props then some (message.value prop) else none

/-- What a segment of `sync` has published that ends where `publish` was called. -/
def sent : Progress Sync.Task Sync.Result → List SyncMessage
  | .waiting (.publish snapshot) => [snapshot.message]
  | _ => []

/-- What is published to the clients. -/
def published (p : Pool Sync.State Sync.Task Sync.Result) : Sync.Event → List SyncMessage
  | .call (.sync now) => sent (Sync.sync now p.shared).2
  | .answer i answer =>
    match p.tasks[i]? with
    | some (.waiting task) => sent (Sync.resume task answer p.shared).2
    | _ => []
  | .external (.joinRoom now) => [⟨p.shared.room, now, {.playbackPosition}⟩]
  | .external (.mutate _) => []

namespace World

abbrev room (w : World) : Room := w.pool.shared.room

/-- `onClientAuth`: the client is sent the state of the room, and then what is published. -/
def join (w : World) (now : Time) : World where
  pool := ⟨{ w.pool.shared with received := fun prop => ⟨w.room, now, {prop}⟩ }, w.pool.tasks⟩
  store := w.store
  wire := [fullSync w.room now]

def step (w : World) : Event → Option World
  | .room e => (Sync.syncing.machine.step w.pool e).map
      (fun pool => ⟨pool, w.store, w.wire ++ (published w.pool e).map payload⟩)
  | .join now => some (w.join now)
  | .deliver now =>
    match w.wire with
    | message :: wire => some ⟨w.pool, w.store.sync now message, wire⟩
    | [] => none

/-- The store when everything has arrived. -/
def caughtUp (w : World) (now : Time) : RoomState :=
  w.wire.foldl (fun s message => s.sync now message) w.store

/-- The store comes to have what the last message says. -/
def Refines (w : World) (prop : SyncProp) : Prop :=
  ∀ now, valueOf (w.caughtUp now) prop = some ((w.pool.shared.received prop).value prop)

end World

def replica : Machine World Event := ⟨World.step⟩

/-- The condition on a step, that of `Server.Sync`. -/
def Calm (w : World) : Event → Prop
  | .room e => Sync.Undisturbed w.pool e
  | _ => True

instance (w : World) : (e : Event) → Decidable (Calm w e)
  | .room e => inferInstanceAs (Decidable (Sync.Undisturbed w.pool e))
  | .join _ | .deliver _ => inferInstanceAs (Decidable True)

/-! ## What arrives -/

section Arriving

variable {prop : SyncProp} {w w' : World}

/-- What the messages make of a property. -/
theorem valueOf_foldl (hkept : kept prop = true) (now : Time) (wire : List ServerMessageSync)
    (s : RoomState) : valueOf (wire.foldl (fun s message => s.sync now message) s) prop =
      wire.foldl (fun value message => (message prop).or value) (valueOf s prop) := by
  induction wire generalizing s with
  | nil => rfl
  | cons message wire ih => rw [List.foldl_cons, List.foldl_cons, ih, valueOf_sync hkept]

/-- The last message that has the property. -/
def latest (prop : SyncProp) (old : SyncMessage) (messages : List SyncMessage) : SyncMessage :=
  messages.foldl (fun old message => if prop ∈ message.props then message else old) old

theorem foldl_payload (prop : SyncProp) (messages : List SyncMessage) (old : SyncMessage) :
    (messages.map payload).foldl (fun value message => (message prop).or value)
      (some (old.value prop)) = some ((latest prop old messages).value prop) := by
  induction messages generalizing old with
  | nil => rfl
  | cons message messages ih =>
    rw [List.map_cons, List.foldl_cons, latest, List.foldl_cons, payload]
    split
    · exact ih message
    · exact ih old

/-- **What is published** is what the clients were sent last. -/
theorem received_step {p p' : Pool Sync.State Sync.Task Sync.Result} {e : Sync.Event}
    (hstep : Sync.syncing.machine.step p e = some p') :
    p'.shared.received prop = latest prop (p.shared.received prop) (published p e) := by
  obtain ⟨⟨now⟩, rfl, rfl⟩ | ⟨i, answer, task, s, pr, rfl, htask, hresume, rfl⟩ |
    ⟨change, s, rfl, henv, rfl⟩ := Program.step_cases hstep
  · show (Sync.sync now p.shared).1.received prop = latest prop _ (sent (Sync.sync now p.shared).2)
    unfold Sync.sync
    split
    · rfl
    · dsimp only
      split <;> rfl
  · obtain ⟨rfl, rfl⟩ := Prod.mk.inj (Option.some.inj hresume)
    rw [published, htask]
    cases answer <;> cases task <;> rfl
  · cases henv
    cases change <;> rfl

theorem World.Refines.room (h : w.Refines prop) (hkept : kept prop = true) {e : Sync.Event}
    (hstep : replica.step w (.room e) = some w') : w'.Refines prop := by
  obtain ⟨pool, hpool, rfl⟩ := Option.map_eq_some_iff.mp hstep
  intro now
  have hold := h now
  rw [World.caughtUp, valueOf_foldl hkept] at hold ⊢
  rw [List.foldl_append, hold, foldl_payload, received_step hpool]

theorem refines_join (hkept : kept prop = true) (w : World) (now : Time) :
    (w.join now).Refines prop := by
  intro later
  rw [World.caughtUp, valueOf_foldl hkept]
  rfl

theorem World.Refines.deliver (h : w.Refines prop) (hkept : kept prop = true) {now : Time}
    (hstep : replica.step w (.deliver now) = some w') : w'.Refines prop := by
  change w.step (.deliver now) = some w' at hstep
  simp only [World.step] at hstep
  split at hstep
  · next message wire hwire =>
    cases hstep
    intro later
    have hold := h later
    rw [World.caughtUp, valueOf_foldl hkept] at hold ⊢
    rwa [hwire, List.foldl_cons, ← valueOf_sync hkept now] at hold
  · cases hstep

/-- **One step**, disturbed or not. -/
theorem World.Refines.step (h : w.Refines prop) (hkept : kept prop = true) {e : Event}
    (hstep : replica.step w e = some w') : w'.Refines prop := by
  cases e with
  | room e => exact h.room hkept hstep
  | join now => cases hstep; exact refines_join hkept w now
  | deliver now => exact h.deliver hkept hstep

end Arriving

/-! ## What the room has -/

section Knowing

variable {w w' : World}

/-- **A client that joins** is told everything, whatever calls of `sync` are on their way. -/
theorem inv_join (h : Sync.Inv w.pool) (now : Time) : Sync.Inv (w.join now).pool := by
  refine ⟨fun _ _ => rfl, fun task htask => ?_⟩
  have hknows := h.knows task htask
  cases task with
  | saveStateToRedis snapshot => exact ⟨hknows.current, hknows.dirty, hknows.marks⟩
  | publish snapshot | updateRoom snapshot =>
    exact ⟨⟨hknows.1.current, hknows.1.dirty, hknows.1.marks⟩, fun _ _ _ => rfl⟩

theorem inv_step (h : Sync.Inv w.pool) {e : Event} (hcalm : Calm w e)
    (hstep : replica.step w e = some w') : Sync.Inv w'.pool := by
  cases e with
  | room e =>
    obtain ⟨pool, hpool, rfl⟩ := Option.map_eq_some_iff.mp hstep
    exact Sync.step_inv h hcalm hpool
  | join now => cases hstep; exact inv_join h now
  | deliver now =>
    change w.step (.deliver now) = some w' at hstep
    simp only [World.step] at hstep
    split at hstep <;> cases hstep
    exact h

end Knowing

/-- A client joins a room in which nothing is on its way. -/
def start (r : Room) (store : RoomState) (now : Time) : World :=
  World.join ⟨Pool.idle ⟨r, fun prop => ⟨r, now, {prop}⟩, fun _ => 0⟩, store, []⟩ now

theorem start_inv (r : Room) (store : RoomState) (now : Time) :
    Sync.Inv (start r store now).pool :=
  ⟨fun _ _ => rfl, fun _ htask => absurd htask List.not_mem_nil⟩

/-- **The store is a replica of the room**: when everything has arrived, it has what the room has, of
every property that it keeps and that is not dirty. -/
theorem replicated (r : Room) (store : RoomState) (now : Time) {es : List Event}
    (h : replica.Along Calm (start r store now) es) :
    replica.Always (fun w => ∀ prop ∉ w.room.dirty, kept prop = true → prop ≠ .playbackPosition →
      ∀ later, valueOf (w.caughtUp later) prop = some (w.room.valueOf prop))
      (start r store now) es := by
  refine (Machine.always_of_along (I := fun w => Sync.Inv w.pool ∧
    ∀ prop, kept prop = true → w.Refines prop) (fun w e w' hw hcalm hstep => ?_) ?_ h).imp
    (fun w hw prop hclean hkept hprop later => ?_)
  · exact ⟨inv_step hw.1 hcalm hstep, fun prop hkept => (hw.2 prop hkept).step hkept hstep⟩
  · exact ⟨start_inv r store now, fun prop hkept => refines_join hkept _ now⟩
  · have hcurrent : (w.pool.shared.received prop).room.valueOf prop = w.room.valueOf prop :=
      hw.1.synced prop hclean
    rw [hw.2 prop hkept later, ← hcurrent, Room.valueOf_eq_syncableAt _ _ hprop]
    rfl

/-- The title is changed and sent twice, and the messages arrive late. -/
def lateTitle : List Event :=
  Sync.sendAgain.map .room ++ [.deliver 3, .deliver 3, .deliver 4]

/-- In such a run the client has the last title. -/
theorem replicated_lateTitle :
    ∃ w', replica.run (start (Room.new "room" 0) emptyStore 0) lateTitle = some w' ∧
      valueOf (w'.caughtUp 5) .title = some w'.room.title ∧ w'.room.title = "new" := by
  have hrun : ∃ w' ∈ replica.run (start (Room.new "room" 0) emptyStore 0) lateTitle,
      .title ∉ w'.room.dirty ∧ w'.room.title = "new" := by
    decide +kernel
  obtain ⟨w', hrun, hclean, htitle⟩ := hrun
  have hcalm : replica.Along Calm (start (Room.new "room" 0) emptyStore 0) lateTitle := by
    decide +kernel
  exact ⟨w', hrun, (replicated _ _ _ hcalm).last hrun .title hclean rfl (by decide) 5, htitle⟩

end OpenTogetherTube.Client.Replica
