import OpenTogetherTube.Lib.Tasks
import OpenTogetherTube.Server.Room
import Mathlib.Data.Finset.Lattice.Basic

/-!
# Sending what has changed

`Room.sync` takes a snapshot of the dirty properties, waits for redis, publishes the snapshot, waits
for the database, and then clears **all** dirty marks. It does not look whether anything was marked
in the meantime, and several calls may be on their way at once.

The state has, besides the room, the last published message that contained each property, which is
what the clients have of it, and for each property how often it has been marked. `Synced` says that
the clients have the current value of every property that is not dirty. It is an invariant of the
runs in which no call publishes, or clears, what was marked after its snapshot (`Undisturbed`).

The position a message carries is the one of the playback head at that moment. It counts as current
until the head is set to another place; that the head moves while the video plays is no update.
-/

namespace OpenTogetherTube.Server

open OpenTogetherTube.Common OpenTogetherTube.Lib

/-- A property itself, `this[prop]`: the position is the place where the head was set. -/
def Room.valueOf (r : Room) : (prop : SyncProp) → prop.Value
  | .playbackPosition => r.playbackPosition
  | prop => r.syncableAt 0 prop

theorem Room.valueOf_eq_syncableAt (r : Room) (now : Time) {prop : SyncProp}
    (h : prop ≠ .playbackPosition) : r.valueOf prop = r.syncableAt now prop := by
  cases prop <;> first | rfl | exact absurd rfl h

@[simp] theorem Room.valueOf_markDirty (r : Room) (prop prop' : SyncProp) :
    (r.markDirty prop).valueOf prop' = r.valueOf prop' := by
  cases prop' <;> rfl

namespace Sync

/-! ## The state -/

/-- A sync message: properties of a room at a time. -/
structure SyncMessage where
  room : Room
  now : Time
  props : Finset SyncProp

/-- What the message says of a property. -/
def SyncMessage.value (message : SyncMessage) (prop : SyncProp) : prop.Value :=
  message.room.syncableAt message.now prop

/-- The message was made when the property had the value that it has in the room now. -/
def SyncMessage.Current (message : SyncMessage) (r : Room) (prop : SyncProp) : Prop :=
  message.room.valueOf prop = r.valueOf prop

/-- The room, and the last published message that contained each property. `marks` counts the calls
of `markDirty`; the code does not keep it. -/
structure State where
  room : Room
  received : SyncProp → SyncMessage
  marks : SyncProp → Nat

/-- A change of the room, in one segment of some other task: it marks every property it changes. -/
structure Mutation where
  apply : Room → Room
  marks : Room → Finset SyncProp
  dirty : ∀ r, (apply r).dirty = r.dirty ∪ marks r
  same : ∀ r, ∀ prop ∉ marks r, (apply r).valueOf prop = r.valueOf prop

/-- A setter: one property is changed, and marked. -/
def Mutation.set (prop : SyncProp) (f : Room → Room) (hd : ∀ r, (f r).dirty = r.dirty)
    (hf : ∀ r, ∀ prop' ≠ prop, (f r).valueOf prop' = r.valueOf prop') : Mutation where
  apply r := (f r).markDirty prop
  marks _ := {prop}
  dirty r := by
    show insert prop (f r).dirty = r.dirty ∪ {prop}
    rw [hd, Finset.union_comm]
    rfl
  same r prop' hp := by
    rw [Room.valueOf_markDirty]
    exact hf r prop' (fun heq => hp (Finset.mem_singleton.mpr heq))

/-- `room.title = value`. -/
def Mutation.setTitle (value : String) : Mutation :=
  .set .title (fun r => { r with title := value }) (fun _ => rfl)
    (fun _ prop h => by cases prop <;> first | rfl | exact absurd rfl h)

/-! ## Segments -/

inductive Call where
  | sync (now : Time)

/-- What a call of `sync` has taken with it. -/
structure Snapshot where
  message : SyncMessage
  marks : SyncProp → Nat

/-- The awaits of `sync`. -/
inductive Task where
  | saveStateToRedis (snapshot : Snapshot)
  | publish (snapshot : Snapshot)
  | updateRoom (snapshot : Snapshot)

inductive Answer where
  | settled | rejected
  deriving DecidableEq, Repr

inductive Result where
  | nothingDirty | synced | rejected
  deriving DecidableEq, Repr

/-- What other tasks do to the room. A user who joins is told where the head is, and so is everybody
else. -/
inductive Change where
  | mutate (mutation : Mutation)
  | joinRoom (now : Time)

namespace State

def publish (s : State) (message : SyncMessage) : State :=
  { s with received := fun prop => if prop ∈ message.props then message else s.received prop }

/-- `cleanDirty`. -/
def cleanDirty (s : State) : State := { s with room := { s.room with dirty := ∅ } }

def mutate (s : State) (mutation : Mutation) : State where
  room := mutation.apply s.room
  received := s.received
  marks prop := if prop ∈ mutation.marks s.room then s.marks prop + 1 else s.marks prop

end State

/-- `sync`, up to its first await. The snapshot is a value here. In the code the message has the queue,
the grants and the votes of the room themselves until it is published, so what changes before that goes
along; a run that is `Undisturbed` has no such change. -/
def sync (now : Time) (s : State) : State × Progress Task Result :=
  if s.room.dirty = ∅ then (s, .done .nothingDirty)
  else
    let snapshot : Snapshot := ⟨⟨s.room, now, s.room.dirty⟩, s.marks⟩
    if ∃ prop ∈ s.room.dirty, prop.isStorable then (s, .waiting (.saveStateToRedis snapshot))
    else (s.publish snapshot.message, .waiting (.publish snapshot))

/-- The segments behind the awaits. -/
def resume (task : Task) (answer : Answer) (s : State) : State × Progress Task Result :=
  match task, answer with
  | _, .rejected => (s, .done .rejected)
  | .saveStateToRedis snapshot, .settled =>
    (s.publish snapshot.message, .waiting (.publish snapshot))
  | .publish snapshot, .settled => (s, .waiting (.updateRoom snapshot))
  | .updateRoom _, .settled => (s.cleanDirty, .done .synced)

def Change.apply (s : State) : Change → State
  | .mutate mutation => s.mutate mutation
  | .joinRoom now => s.publish ⟨s.room, now, {.playbackPosition}⟩

/-- Calls of `sync`, under every interleaving with each other and with changes. -/
def syncing : Program State Call Task Answer Change Result where
  start | .sync now => sync now
  resume task answer s := some (resume task answer s)
  environment change s := some (change.apply s)

abbrev Event := PoolEvent Call Answer Change

/-! ## What holds -/

/-- The clients have the current value of what is not dirty. -/
def Synced (s : State) : Prop :=
  ∀ prop ∉ s.room.dirty, (s.received prop).Current s.room prop

/-- The property has not been marked since the snapshot. -/
def Snapshot.Unmarked (snapshot : Snapshot) (s : State) (prop : SyncProp) : Prop :=
  snapshot.marks prop = s.marks prop

instance (snapshot : Snapshot) (s : State) (prop : SyncProp) :
    Decidable (snapshot.Unmarked s prop) :=
  inferInstanceAs (Decidable (_ = _))

/-- A call that publishes has nothing in its message that was marked since its snapshot, and one that
clears the marks clears none that was set since. -/
def Undisturbed (p : Pool State Task Result) : Event → Prop
  | .answer i .settled =>
    match p.tasks[i]? with
    | some (.waiting (.saveStateToRedis snapshot)) =>
      ∀ prop ∈ snapshot.message.props, snapshot.Unmarked p.shared prop
    | some (.waiting (.updateRoom snapshot)) =>
      ∀ prop ∈ p.shared.room.dirty, snapshot.Unmarked p.shared prop
    | _ => True
  | _ => True

instance (p : Pool State Task Result) : (e : Event) → Decidable (Undisturbed p e)
  | .answer i .settled =>
    match h : p.tasks[i]? with
    | some (.waiting (.saveStateToRedis snapshot)) =>
      decidable_of_iff (∀ prop ∈ snapshot.message.props, snapshot.Unmarked p.shared prop)
        (by simp only [Undisturbed, h])
    | some (.waiting (.updateRoom snapshot)) =>
      decidable_of_iff (∀ prop ∈ p.shared.room.dirty, snapshot.Unmarked p.shared prop)
        (by simp only [Undisturbed, h])
    | some (.waiting (.publish _)) | some (.done _) | none => isTrue (by simp only [Undisturbed, h])
  | .answer _ .rejected | .call _ | .external _ => inferInstanceAs (Decidable True)

/-! ## One step -/

/-- A snapshot still has the values of what was not marked since, and whatever else is dirty was
marked since. -/
structure Snapshot.Valid (snapshot : Snapshot) (s : State) : Prop where
  current : ∀ prop ∈ snapshot.message.props, snapshot.Unmarked s prop →
    snapshot.message.Current s.room prop
  dirty : ∀ prop ∈ s.room.dirty, snapshot.Unmarked s prop → prop ∈ snapshot.message.props
  marks : ∀ prop, snapshot.marks prop ≤ s.marks prop

/-- The clients have the snapshot, or what was published later and was not out of date. -/
def Snapshot.Delivered (snapshot : Snapshot) (s : State) : Prop :=
  ∀ prop ∈ snapshot.message.props, snapshot.Unmarked s prop →
    (s.received prop).Current s.room prop

/-- What a call knows at its awaits. -/
def Task.Knows (s : State) : Task → Prop
  | .saveStateToRedis snapshot => snapshot.Valid s
  | .publish snapshot | .updateRoom snapshot => snapshot.Valid s ∧ snapshot.Delivered s

/-- The invariant of the runs in which nothing is disturbed. -/
structure Inv (p : Pool State Task Result) : Prop where
  synced : Synced p.shared
  knows : ∀ task, .waiting task ∈ p.tasks → task.Knows p.shared

section Publish

variable {s : State} {message : SyncMessage}

/-- Publishing what is current makes nothing worse. -/
theorem publish_current (hmessage : ∀ prop ∈ message.props, message.Current s.room prop)
    {prop : SyncProp} (h : (s.received prop).Current s.room prop) :
    ((s.publish message).received prop).Current s.room prop := by
  show (if prop ∈ message.props then message else s.received prop).Current s.room prop
  split
  · next hmem => exact hmessage prop hmem
  · exact h

theorem Synced.publish (h : Synced s)
    (hmessage : ∀ prop ∈ message.props, message.Current s.room prop) :
    Synced (s.publish message) :=
  fun prop hp => publish_current hmessage (h prop hp)

theorem Snapshot.Valid.publish {snapshot : Snapshot} (h : snapshot.Valid s) :
    snapshot.Valid (s.publish message) :=
  ⟨h.current, h.dirty, h.marks⟩

theorem Task.Knows.publish {task : Task} (h : task.Knows s)
    (hmessage : ∀ prop ∈ message.props, message.Current s.room prop) :
    task.Knows (s.publish message) := by
  cases task with
  | saveStateToRedis snapshot => exact Snapshot.Valid.publish h
  | publish snapshot | updateRoom snapshot =>
    exact ⟨h.1.publish, fun prop hp hu => publish_current hmessage (h.2 prop hp hu)⟩

/-- What has just been published has been delivered. -/
theorem delivered_publish {snapshot : Snapshot}
    (h : ∀ prop ∈ snapshot.message.props, snapshot.message.Current s.room prop) :
    snapshot.Delivered (s.publish snapshot.message) := by
  intro prop hp _
  show (if prop ∈ snapshot.message.props then snapshot.message else s.received prop).Current _ _
  rw [if_pos hp]
  exact h prop hp

end Publish

section Mutate

variable {s : State} {mutation : Mutation}

/-- What is not marked by the mutation is as it was. -/
theorem current_mutate {message : SyncMessage} {prop : SyncProp}
    (hp : prop ∉ mutation.marks s.room) (h : message.Current s.room prop) :
    message.Current (s.mutate mutation).room prop :=
  h.trans (mutation.same s.room prop hp).symm

/-- A property that a snapshot still knows after a mutation was not marked by it. -/
theorem Snapshot.Valid.unmarked_mutate {snapshot : Snapshot} (h : snapshot.Valid s)
    {prop : SyncProp} (hu : snapshot.Unmarked (s.mutate mutation) prop) :
    prop ∉ mutation.marks s.room ∧ snapshot.Unmarked s prop := by
  have hmarks := h.marks prop
  have heq : snapshot.marks prop =
      if prop ∈ mutation.marks s.room then s.marks prop + 1 else s.marks prop := hu
  split at heq
  · omega
  · next hnot => exact ⟨hnot, heq⟩

theorem mem_dirty_mutate {prop : SyncProp} :
    prop ∈ (s.mutate mutation).room.dirty ↔
      prop ∈ s.room.dirty ∨ prop ∈ mutation.marks s.room := by
  show prop ∈ (mutation.apply s.room).dirty ↔ _
  rw [mutation.dirty, Finset.mem_union]

theorem Synced.mutate (h : Synced s) : Synced (s.mutate mutation) := by
  intro prop hp
  rw [mem_dirty_mutate, not_or] at hp
  exact current_mutate hp.2 (h prop hp.1)

theorem Snapshot.Valid.mutate {snapshot : Snapshot} (h : snapshot.Valid s) :
    snapshot.Valid (s.mutate mutation) := by
  constructor
  case current =>
    intro prop hp hu
    obtain ⟨hnot, hu⟩ := h.unmarked_mutate hu
    exact current_mutate hnot (h.current prop hp hu)
  case dirty =>
    intro prop hd hu
    obtain ⟨hnot, hu⟩ := h.unmarked_mutate hu
    exact h.dirty prop ((mem_dirty_mutate.mp hd).resolve_right hnot) hu
  case marks =>
    intro prop
    have hmarks := h.marks prop
    show _ ≤ if prop ∈ mutation.marks s.room then s.marks prop + 1 else s.marks prop
    split <;> omega

theorem Task.Knows.mutate {task : Task} (h : task.Knows s) : task.Knows (s.mutate mutation) := by
  have hdelivered {snapshot : Snapshot} (hv : snapshot.Valid s) (hd : snapshot.Delivered s) :
      snapshot.Delivered (s.mutate mutation) := by
    intro prop hp hu
    obtain ⟨hnot, hu⟩ := hv.unmarked_mutate hu
    exact current_mutate hnot (hd prop hp hu)
  cases task with
  | saveStateToRedis snapshot => exact Snapshot.Valid.mutate h
  | publish snapshot | updateRoom snapshot => exact ⟨h.1.mutate, hdelivered h.1 h.2⟩

end Mutate

section CleanDirty

variable {s : State}

theorem current_cleanDirty {message : SyncMessage} {prop : SyncProp} :
    message.Current s.cleanDirty.room prop ↔ message.Current s.room prop := by
  have hvalue : s.cleanDirty.room.valueOf prop = s.room.valueOf prop := by cases prop <;> rfl
  unfold SyncMessage.Current
  rw [hvalue]

theorem Snapshot.Valid.cleanDirty {snapshot : Snapshot} (h : snapshot.Valid s) :
    snapshot.Valid s.cleanDirty where
  current prop hp hu := current_cleanDirty.mpr (h.current prop hp hu)
  dirty prop hd := absurd hd (Finset.notMem_empty prop)
  marks := h.marks

theorem Task.Knows.cleanDirty {task : Task} (h : task.Knows s) : task.Knows s.cleanDirty := by
  cases task with
  | saveStateToRedis snapshot => exact Snapshot.Valid.cleanDirty h
  | publish snapshot | updateRoom snapshot =>
    exact ⟨h.1.cleanDirty, fun prop hp hu => current_cleanDirty.mpr (h.2 prop hp hu)⟩

/-- **The marks that a call clears** are those of its snapshot, if nothing was marked since. -/
theorem Synced.cleanDirty (h : Synced s) {snapshot : Snapshot} (hv : snapshot.Valid s)
    (hd : snapshot.Delivered s) (hmarks : ∀ prop ∈ s.room.dirty, snapshot.Unmarked s prop) :
    Synced s.cleanDirty := by
  intro prop _
  refine current_cleanDirty.mpr ?_
  by_cases hdirty : prop ∈ s.room.dirty
  · have hunmarked := hmarks prop hdirty
    exact hd prop (hv.dirty prop hdirty hunmarked) hunmarked
  · exact h prop hdirty

end CleanDirty

section Step

variable {p p' : Pool State Task Result}

/-- The tasks of a step: those that were there, and the one that ran. -/
theorem Inv.of_tasks {s : State} {tasks : List (Progress Task Result)} (hs : Synced s)
    (htasks : ∀ pr ∈ tasks, pr ∈ p.tasks ∨ ∀ task, pr = .waiting task → task.Knows s)
    (hold : ∀ task, .waiting task ∈ p.tasks → task.Knows s) : Inv ⟨s, tasks⟩ :=
  ⟨hs, fun task htask => (htasks _ htask).elim (hold task) (fun h => h task rfl)⟩

theorem Inv.sync (h : Inv p) (now : Time) :
    Inv ⟨(Sync.sync now p.shared).1, p.tasks ++ [(Sync.sync now p.shared).2]⟩ := by
  have hmem {pr : Progress Task Result} : ∀ t ∈ p.tasks ++ [pr], t ∈ p.tasks ∨ t = pr :=
    fun t ht => (List.mem_append.mp ht).imp_right List.mem_singleton.mp
  have hvalid : Snapshot.Valid ⟨⟨p.shared.room, now, p.shared.room.dirty⟩, p.shared.marks⟩ p.shared :=
    ⟨fun _ _ _ => rfl, fun _ hd _ => hd, fun _ => le_refl _⟩
  unfold Sync.sync
  split
  · exact .of_tasks h.synced (fun t ht => (hmem t ht).imp_right (by rintro rfl _ ⟨⟩)) h.knows
  dsimp only
  split
  · exact .of_tasks h.synced (fun t ht => (hmem t ht).imp_right
      (by rintro rfl _ ⟨⟩; exact hvalid)) h.knows
  · have hcurrent : ∀ prop ∈ p.shared.room.dirty,
        SyncMessage.Current ⟨p.shared.room, now, p.shared.room.dirty⟩ p.shared.room prop :=
      fun _ _ => rfl
    exact .of_tasks (h.synced.publish hcurrent) (fun t ht => (hmem t ht).imp_right
      (by rintro rfl _ ⟨⟩; exact ⟨hvalid.publish, delivered_publish hcurrent⟩))
      (fun task htask => (h.knows task htask).publish hcurrent)

theorem Inv.resume (h : Inv p) {i : Nat} {task : Task} {answer : Answer}
    (htask : p.tasks[i]? = some (.waiting task)) (hcond : Undisturbed p (.answer i answer)) :
    Inv ⟨(Sync.resume task answer p.shared).1, p.tasks.set i (Sync.resume task answer p.shared).2⟩ := by
  have hmem {pr : Progress Task Result} : ∀ t ∈ p.tasks.set i pr, t ∈ p.tasks ∨ t = pr :=
    fun t ht => List.mem_or_eq_of_mem_set ht
  have hknows := h.knows task (List.mem_of_getElem? htask)
  cases answer with
  | rejected =>
    have hresume : Sync.resume task .rejected p.shared = (p.shared, .done .rejected) := by
      cases task <;> rfl
    rw [hresume]
    exact .of_tasks h.synced (fun t ht => (hmem t ht).imp_right (by rintro rfl _ ⟨⟩)) h.knows
  | settled =>
    cases task with
    | saveStateToRedis snapshot =>
      have hunmarked : ∀ prop ∈ snapshot.message.props, snapshot.Unmarked p.shared prop := by
        simpa only [Undisturbed, htask] using hcond
      have hvalid : snapshot.Valid p.shared := hknows
      have hcurrent : ∀ prop ∈ snapshot.message.props,
          snapshot.message.Current p.shared.room prop :=
        fun prop hp => hvalid.current prop hp (hunmarked prop hp)
      exact .of_tasks (h.synced.publish hcurrent) (fun t ht => (hmem t ht).imp_right
        (by rintro rfl _ ⟨⟩; exact ⟨hvalid.publish, delivered_publish hcurrent⟩))
        (fun task htask => (h.knows task htask).publish hcurrent)
    | publish snapshot =>
      exact .of_tasks h.synced (fun t ht => (hmem t ht).imp_right
        (by rintro rfl _ ⟨⟩; exact hknows)) h.knows
    | updateRoom snapshot =>
      have hunmarked : ∀ prop ∈ p.shared.room.dirty, snapshot.Unmarked p.shared prop := by
        simpa only [Undisturbed, htask] using hcond
      exact .of_tasks (h.synced.cleanDirty hknows.1 hknows.2 hunmarked)
        (fun t ht => (hmem t ht).imp_right (by rintro rfl _ ⟨⟩))
        (fun task htask => (h.knows task htask).cleanDirty)

theorem Inv.change (h : Inv p) (change : Change) : Inv ⟨change.apply p.shared, p.tasks⟩ := by
  cases change with
  | mutate mutation => exact ⟨h.synced.mutate, fun task htask => (h.knows task htask).mutate⟩
  | joinRoom now =>
    have hcurrent : ∀ prop ∈ ({.playbackPosition} : Finset SyncProp),
        SyncMessage.Current ⟨p.shared.room, now, {.playbackPosition}⟩ p.shared.room prop :=
      fun _ _ => rfl
    exact ⟨h.synced.publish hcurrent, fun task htask => (h.knows task htask).publish hcurrent⟩

/-- **One step.** -/
theorem step_inv {e : Event} (h : Inv p) (hcond : Undisturbed p e)
    (hstep : syncing.machine.step p e = some p') : Inv p' := by
  obtain ⟨⟨now⟩, rfl, rfl⟩ | ⟨i, answer, task, s, pr, rfl, htask, hresume, rfl⟩ |
    ⟨change, s, rfl, henv, rfl⟩ := Program.step_cases hstep
  · exact h.sync now
  · have hs := h.resume htask hcond
    rwa [Option.some.inj hresume] at hs
  · cases henv
    exact h.change change

end Step

/-! ## Runs -/

/-- **No update is lost** in a run in which no call publishes or clears what was marked after its
snapshot: a property that is not dirty, or not dirty any more, is known to the clients. -/
theorem synced_throughout {s : State} (hs : Synced s) {events : List Event}
    (h : syncing.machine.Along Undisturbed (Pool.idle s) events) :
    syncing.machine.Always (fun p => Synced p.shared) (Pool.idle s) events := by
  have hstart : Inv (Pool.idle s) := ⟨hs, fun task htask => absurd htask List.not_mem_nil⟩
  exact (Machine.always_of_along (fun p e p' hp hcond hstep => step_inv hp hcond hstep) hstart h).imp
    (fun p hp => hp.synced)

/-- A room whose clients have everything. -/
def newRoom : State where
  room := Room.new "room" 0
  received _ := ⟨Room.new "room" 0, 0, ∅⟩
  marks _ := 0

theorem newRoom_synced : Synced newRoom := fun _ _ => rfl

/-- The title is changed again while it is sent, but the database fails, and it is sent once more. -/
def sendAgain : List Event :=
  [.external (.mutate (.setTitle "old")), .call (.sync 1), .answer 0 .settled,
    .external (.mutate (.setTitle "new")), .answer 0 .settled, .answer 0 .rejected,
    .call (.sync 2), .answer 1 .settled, .answer 1 .settled, .answer 1 .settled]

/-- A run in which nothing is disturbed. -/
theorem synced_throughout_sendAgain :
    Synced newRoom ∧ syncing.machine.Along Undisturbed (Pool.idle newRoom) sendAgain ∧
    syncing.machine.Always (fun p => Synced p.shared) (Pool.idle newRoom) sendAgain := by
  have hundisturbed : syncing.machine.Along Undisturbed (Pool.idle newRoom) sendAgain := by
    decide +kernel
  exact ⟨newRoom_synced, hundisturbed, synced_throughout newRoom_synced hundisturbed⟩

/-- The title is changed again while the call waits for redis. -/
def changeTwice : List Event :=
  [.external (.mutate (.setTitle "old")), .call (.sync 1), .external (.mutate (.setTitle "new")),
    .answer 0 .settled, .answer 0 .settled, .answer 0 .settled]

/-- **An update can be lost**: nothing is dirty, no call is on its way, and the clients have the old
title. -/
theorem not_synced_throughout :
    ¬ ∀ s, Synced s → ∀ events, syncing.machine.Always
      (fun p => p.suspended = [] → p.shared.room.dirty = ∅ →
        ∀ prop, (p.shared.received prop).Current p.shared.room prop) (Pool.idle s) events := by
  intro h
  have hrun : (syncing.machine.run (Pool.idle newRoom) changeTwice).map
      (fun p => (p.suspended.length, p.shared.room.dirty, (p.shared.received .title).room.title,
        p.shared.room.title)) = some (0, ∅, "old", "new") := by
    decide +kernel
  obtain ⟨p, hp, heq⟩ := Option.map_eq_some_iff.mp hrun
  simp only [Prod.mk.injEq] at heq
  obtain ⟨hnone, hclean, hold, hnew⟩ := heq
  have hcurrent : (p.shared.received .title).room.title = p.shared.room.title :=
    (h newRoom newRoom_synced changeTwice).last hp (List.eq_nil_of_length_eq_zero hnone) hclean .title
  rw [hold, hnew] at hcurrent
  exact absurd hcurrent (by decide)

end Sync

end OpenTogetherTube.Server
