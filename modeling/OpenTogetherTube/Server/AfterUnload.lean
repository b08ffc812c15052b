import OpenTogetherTube.Server.RoomManager
import OpenTogetherTube.Server.Storage

/-!
# A room after it was unloaded

A room object has two debounced timers: `markDirty` arms `throttledSync`, and a `sync` that has
something to store arms `saveStateToRedisDebounced`. Both outlive the room's time in the room
manager's array. `onBeforeUnload` flushes the second, saves the queue as `prevQueue` in the room's
row, and leaves the first alone; `unloadRoom` then deletes the room from redis.

A timer that is still armed can undo that. `not_stays_throughout` is a run in which a late `sync`
does, and `stays_throughout` says what keeps an unloaded room unloaded (`Timely`): nothing is under
way or armed when the room is unloaded, and nothing is started on the object afterwards.

One room object is modelled, with what is stored of it. A write to redis takes effect when it is
sent, because redis answers in order; a write to the database takes effect when its promise settles.
-/

namespace OpenTogetherTube.Server.AfterUnload

open OpenTogetherTube.Common OpenTogetherTube.Lib RoomManager

/-! ## The room object and its storage -/

/-- A write that the object starts. -/
inductive Write where
  | redis
  | prevQueue
  deriving DecidableEq, Repr

/-- The object, its timers, and its place in storage. The row is there for rooms in the database, and
only its `prevQueue` column is kept here. -/
structure State where
  room : Room
  syncTimer : Bool
  saveTimer : Bool
  /-- The room is in the room manager's array. -/
  listed : Bool
  redis : Option RedisState
  row : Option (Option (List QueueItem))
  /-- An `unloadRoom` without `preserveRedis` has completed. -/
  unloaded : Bool
  /-- What `onBeforeUnload` has saved for it. -/
  saved : Option (Option (List QueueItem))
  /-- The writes that were started after it has completed. -/
  late : List Write
  /-- The row was deleted after that. -/
  deleted : Bool

/-- A room that is loaded, whatever its timers do and whatever is stored. -/
def State.loaded (room : Room) (syncTimer saveTimer : Bool) (redis : Option RedisState)
    (row : Option (Option (List QueueItem))) : State :=
  ⟨room, syncTimer, saveTimer, true, redis, row, false, none, [], false⟩

namespace State

/-- `getRoom` finds the room. -/
def Found (s : State) : Prop := s.listed = true ∨ s.redis.isSome ∨ s.row.isSome

/-- `saveStateToRedis`. -/
def saveStateToRedis (s : State) : State :=
  { s with
    redis := some s.room.serializeState
    late := if s.unloaded then s.late ++ [.redis] else s.late }

/-- `saveStateToRedisDebounced.flush()`. -/
def flush (s : State) : State :=
  if s.saveTimer then { s with saveTimer := false }.saveStateToRedis else s

/-- `storage.updateRoom` is called with a `prevQueue`. -/
def updateRoom (s : State) : State :=
  { s with late := if s.unloaded ∧ s.row.isSome then s.late ++ [.prevQueue] else s.late }

/-- The row is updated, if there is one. -/
def land (s : State) (prevQueue : Option (List QueueItem)) : State :=
  { s with row := s.row.map (fun _ => prevQueue) }

/-- `cleanDirty`. -/
def cleanDirty (s : State) : State := { s with room := { s.room with dirty := ∅ } }

/-- The current source in the spread copy that is put on top of the queue. -/
def stoppedSource (s : State) (now : Time) (fresh : ObjectId) : List QueueEntry :=
  s.room.currentSource.toList.map (fun e =>
    ⟨fresh, { e.item with startAt := some (s.room.realPlaybackPosition now) }⟩)

/-- `this.queue.items.unshift(..)`. -/
def unshiftSource (s : State) (now : Time) (fresh : ObjectId) : State :=
  { s with room := { s.room with queue := s.stoppedSource now fresh ++ s.room.queue } }

/-- `prevQueue.length > 0 ? prevQueue : null`. -/
def queueToSave (s : State) : Option (List QueueItem) :=
  if s.room.queue = [] then none else some (s.room.queue.map (·.item))

end State

/-! ## Segments -/

inductive Call where
  /-- The timer of `throttledSync` fires. -/
  | throttledSync
  /-- `sync`, called by the room manager's update. -/
  | sync
  /-- `storage.updateRoom(room)`, called by `promoteUser` and when a room gets an owner. -/
  | store
  | unloadRoom (reason : UnloadReason) (preserveRedis : Option Bool)
  deriving DecidableEq, Repr

/-- The awaits. `saved` says whether `onBeforeUnload` has saved the queue. -/
inductive Task where
  -- `sync`
  | saveStateToRedisDebounced
  | publish
  | updateRoom (prevQueue : Option (List QueueItem))
  -- `store`
  | store (prevQueue : Option (List QueueItem))
  -- `onBeforeUnload`
  | flush (preserveRedis : Bool)
  | savePrevQueue (preserveRedis : Bool) (prevQueue : Option (List QueueItem))
  -- `unloadRoom`
  | onBeforeUnload (preserveRedis saved : Bool)
  | delRoom
  | delRoomSync
  deriving DecidableEq, Repr

inductive Answer where
  | settled
  | rejected
  /-- The time that it is, and the identity of the next object. -/
  | settledAt (now : Time) (fresh : ObjectId)
  deriving DecidableEq, Repr

inductive Result where
  | notArmed | nothingDirty | synced | stored | rejected | refused | preserved | unloaded
  deriving DecidableEq, Repr

/-- What happens to the object from outside. -/
inductive Change where
  /-- An operation leaves the room like this. `marks` says whether it calls `markDirty`. -/
  | operate (room : Room) (marks : Bool)
  /-- The timer of `saveStateToRedisDebounced` fires. -/
  | saveStateToRedisDebounced
  /-- `storage.deleteRoom`, after `unloadRoom`. -/
  | deleteRoom

abbrev Segment := State × Progress Task Result

def sync (s : State) : Segment :=
  if s.room.dirty = ∅ then (s, .done .nothingDirty)
  else if ∃ prop ∈ s.room.dirty, prop.isStorable then
    ({ s with saveTimer := true }, .waiting .saveStateToRedisDebounced)
  else (s, .waiting .publish)

/-- The room is taken off the array, and deleted from redis. -/
def remove (s : State) (preserveRedis : Bool) : Segment :=
  if preserveRedis then ({ s with listed := false }, .done .preserved)
  else ({ s with listed := false, redis := none }, .waiting .delRoom)

def unloadRoom (s : State) (reason : UnloadReason) (preserveRedis : Option Bool) : Segment :=
  let preserveRedis := preserveRedis.getD (reason = .commanded)
  if reason = .keepalive ∧ s.room.realusers ≠ [] then (s, .done .refused)
  else if reason = .commanded then remove s preserveRedis
  else (s.flush, .waiting (.flush preserveRedis))

def start (c : Call) (s : State) : Segment :=
  match c with
  | .throttledSync =>
    if s.syncTimer then sync { s with syncTimer := false } else (s, .done .notArmed)
  | .sync => sync s
  | .store => (s.updateRoom, .waiting (.store s.room.prevQueue))
  | .unloadRoom reason preserveRedis => unloadRoom s reason preserveRedis

/-- An unload that fails has saved nothing. -/
def failed (s : State) : Segment := ({ s with saved := none }, .done .rejected)

/-- The segments behind the awaits. `updateRoom` does not throw when the database does. -/
def resume (task : Task) (x : Answer) (s : State) : Option Segment :=
  match task, x with
  | .saveStateToRedisDebounced, .settled => some (s, .waiting .publish)
  | .saveStateToRedisDebounced, .rejected => some (s, .done .rejected)
  | .publish, .settled => some (s.updateRoom, .waiting (.updateRoom s.room.prevQueue))
  | .publish, .rejected => some (s, .done .rejected)
  | .updateRoom prevQueue, .settled => some ((s.land prevQueue).cleanDirty, .done .synced)
  | .updateRoom _, .rejected => some (s.cleanDirty, .done .synced)
  | .store prevQueue, .settled => some (s.land prevQueue, .done .stored)
  | .store _, .rejected => some (s, .done .stored)
  | .flush preserveRedis, .settledAt now fresh =>
    if s.room.isTemporary then some (s, .waiting (.onBeforeUnload preserveRedis false))
    else
      let s := s.unshiftSource now fresh
      some ({ s with saved := if preserveRedis then s.saved else none }.updateRoom,
        .waiting (.savePrevQueue preserveRedis s.queueToSave))
  | .flush _, .rejected => some (s, .done .rejected)
  | .savePrevQueue preserveRedis prevQueue, .settled =>
    some ({ s.land prevQueue with saved := if preserveRedis then s.saved else some prevQueue },
      .waiting (.onBeforeUnload preserveRedis true))
  | .savePrevQueue preserveRedis _, .rejected =>
    some (s, .waiting (.onBeforeUnload preserveRedis true))
  | .onBeforeUnload preserveRedis _, .settled => some (remove s preserveRedis)
  | .delRoom, .settled => some (s, .waiting .delRoomSync)
  | .delRoom, .rejected => some (failed s)
  | .delRoomSync, .settled => some ({ s with unloaded := true }, .done .unloaded)
  | .delRoomSync, .rejected => some (failed s)
  | _, _ => none

def Change.apply (change : Change) (s : State) : Option State :=
  match change with
  | .operate room marks =>
    if room.name = s.room.name ∧ room.isTemporary = s.room.isTemporary ∧
      s.room.dirty ⊆ room.dirty ∧ (marks = false → room.dirty = s.room.dirty) then
      some { s with room := room, syncTimer := s.syncTimer || marks }
    else none
  | .saveStateToRedisDebounced =>
    if s.saveTimer then some { s with saveTimer := false }.saveStateToRedis else none
  | .deleteRoom => if s.unloaded then some { s with row := none, deleted := true } else none

/-- The object, its timers and its awaits, under every interleaving. -/
def roomObject : Program State Call Task Answer Change Result where
  start := start
  resume := resume
  environment := Change.apply

abbrev Tasks := Pool State Task Result

abbrev Event := PoolEvent Call Answer Change

/-! ## The specification -/

/-- **The purpose**: after an unload has completed, the object starts no write, redis has nothing of
the room, the row has the queue that was saved, and a room that was deleted is not found. -/
structure Stays (s : State) : Prop where
  late : s.late = []
  redis : s.unloaded = true → s.redis = none
  saved : s.unloaded = true → ∀ prevQueue ∈ s.saved, ∀ prevQueue' ∈ s.row, prevQueue' = prevQueue
  deleted : s.deleted = true → ¬ s.Found

/-! ## The condition -/

/-- A sync of this room writes nothing: nothing is dirty, or nothing that is stored in redis, and the
room has no row. -/
def Harmless (dirty : Finset SyncProp) (row : Option (Option (List QueueItem))) : Prop :=
  dirty = ∅ ∨ (row = none ∧ ∀ prop ∈ dirty, prop.isStorable = false)

/-- If the sync timer fires, nothing is written. -/
def Settled (s : State) : Prop := s.syncTimer = true → Harmless s.room.dirty s.row

/-- The await leads to a write of the row, or has one under way. -/
def Writes : Progress Task Result → Bool
  | .waiting (.onBeforeUnload _ _) | .waiting .delRoom | .waiting .delRoomSync | .done _ => false
  | .waiting _ => true

/-- No other task is going to write the row. -/
def AloneAt (p : Tasks) (i : Nat) : Prop :=
  p.shared.row = none ∨ ∀ t ∈ p.tasks.eraseIdx i, Writes t = false

/-- An unload without `preserveRedis` that has called for its last write of the row. -/
def Closes : Progress Task Result → Bool
  | .waiting (.savePrevQueue false _) | .waiting (.onBeforeUnload false true) | .waiting .delRoom
  | .waiting .delRoomSync | .done .unloaded => true
  | _ => false

/-- Such an unload is under way, or has completed. -/
def Closing (p : Tasks) : Prop := ∃ t ∈ p.tasks, Closes t = true

/-- The condition where the queue is saved for an unload: no sync is due or under way. -/
def MaySave (p : Tasks) (i : Nat) : Prop := Settled p.shared ∧ AloneAt p i

/-- The condition where the room is taken off and deleted from redis: no save is due either. -/
def MayRemove (p : Tasks) (i : Nat) : Prop := p.shared.saveTimer = false ∧ MaySave p i

instance (dirty : Finset SyncProp) (row : Option (Option (List QueueItem))) :
    Decidable (Harmless dirty row) :=
  inferInstanceAs (Decidable (_ ∨ _))

instance (s : State) : Decidable (Settled s) :=
  inferInstanceAs (Decidable (_ = true → _))

instance (p : Tasks) (i : Nat) : Decidable (AloneAt p i) :=
  inferInstanceAs (Decidable (_ ∨ _))

instance (p : Tasks) : Decidable (Closing p) :=
  inferInstanceAs (Decidable (∃ t ∈ _, _))

instance (p : Tasks) (i : Nat) : Decidable (MaySave p i) :=
  inferInstanceAs (Decidable (_ ∧ _))

instance (p : Tasks) (i : Nat) : Decidable (MayRemove p i) :=
  inferInstanceAs (Decidable (_ ∧ _))

/-- The condition on a step. Once an unload is closing, nothing is started on the object that would
write. -/
def Timely (p : Tasks) : Event → Prop
  | .answer i (.settledAt _ _) => p.tasks[i]? = some (.waiting (.flush false)) →
      p.shared.room.isTemporary = true ∨ MaySave p i
  | .answer i .settled => (∃ saved, p.tasks[i]? = some (.waiting (.onBeforeUnload false saved))) →
      MayRemove p i
  | .answer _ .rejected => True
  | .call .throttledSync => True
  | .call .sync => Closing p → Harmless p.shared.room.dirty p.shared.row
  | .call .store => Closing p → p.shared.row = none
  | .call (.unloadRoom .commanded preserveRedis) =>
      preserveRedis = some false → MayRemove p p.tasks.length
  | .call (.unloadRoom _ _) => Closing p → p.shared.row = none
  | .external (.operate room marks) => Closing p → marks = true → Harmless room.dirty p.shared.row
  | .external _ => True

instance (p : Tasks) (e : Event) : Decidable (Timely p e) := by
  unfold Timely
  split <;> infer_instance

/-! ## The invariant -/

/-- The room was taken off the array by an unload without `preserveRedis`. -/
def Removed : Progress Task Result → Bool
  | .waiting .delRoom | .waiting .delRoomSync | .done .unloaded => true
  | _ => false

theorem closes_of_removed {t : Progress Task Result} (h : Removed t = true) : Closes t = true := by
  match t with
  | .waiting .delRoom | .waiting .delRoomSync | .done .unloaded => rfl

/-- What an unload leaves behind when it closes, and when it has taken off the room. -/
structure Inv (p : Tasks) : Prop where
  settled : Closing p → Settled p.shared
  alone : ∀ (i : Nat) (t : Progress Task Result), p.tasks[i]? = some t → Closes t = true → AloneAt p i
  removed : (∃ t ∈ p.tasks, Removed t = true) →
    p.shared.saveTimer = false ∧ p.shared.redis = none ∧ p.shared.listed = false
  unloaded : p.shared.unloaded = true → .done .unloaded ∈ p.tasks
  late : p.shared.late = []
  saved : ∀ prevQueue ∈ p.shared.saved, Closing p ∧ ∀ prevQueue' ∈ p.shared.row, prevQueue' = prevQueue
  unsaved : ∀ prevQueue, .waiting (.savePrevQueue false prevQueue) ∈ p.tasks →
    p.shared.row = none ∨ p.shared.saved = none
  deleted : p.shared.deleted = true → p.shared.unloaded = true ∧ p.shared.row = none

theorem Inv.stays {p : Tasks} (h : Inv p) : Stays p.shared where
  late := h.late
  redis hunloaded := (h.removed ⟨_, h.unloaded hunloaded, rfl⟩).2.1
  saved _ prevQueue hsaved := (h.saved prevQueue hsaved).2
  deleted hdeleted hfound := by
    obtain ⟨hunloaded, hrow⟩ := h.deleted hdeleted
    obtain ⟨-, hredis, hlisted⟩ := h.removed ⟨_, h.unloaded hunloaded, rfl⟩
    rcases hfound with hlisted' | hredis' | hrow'
    · rw [hlisted] at hlisted'
      cases hlisted'
    · rw [hredis] at hredis'
      cases hredis'
    · rw [hrow] at hrow'
      cases hrow'

/-! ## Steps -/

section Step

variable {p : Tasks} {s' : State} {i : Nat} {t : Progress Task Result}
  {tasks' : List (Progress Task Result)}

theorem AloneAt.row_eq_none {i k : Nat} {t : Progress Task Result} (h : AloneAt p k) (hne : i ≠ k)
    (ht : p.tasks[i]? = some t) (hwrites : Writes t = true) : p.shared.row = none := by
  refine h.resolve_right (fun hall => ?_)
  rw [hall t (List.mem_eraseIdx_iff_getElem?.mpr ⟨i, hne, ht⟩)] at hwrites
  cases hwrites

/-- Where an unload closes, every other task that writes does it without a row. -/
theorem Inv.row_eq_none (h : Inv p) {i : Nat} {t : Progress Task Result} (hclosing : Closing p)
    (ht : p.tasks[i]? = some t) (hwrites : Writes t = true) (hcloses : Closes t = false) :
    p.shared.row = none := by
  obtain ⟨t', hmem, hcloses'⟩ := hclosing
  obtain ⟨k, hk⟩ := List.mem_iff_getElem?.mp hmem
  refine (h.alone k t' hk hcloses').row_eq_none (fun hik => ?_) ht hwrites
  rw [hik, hk] at ht
  cases ht
  rw [hcloses] at hcloses'
  cases hcloses'

/-- What has completed has closed. -/
theorem Inv.closing_of_unloaded (h : Inv p) (hunloaded : p.shared.unloaded = true) : Closing p :=
  ⟨_, h.unloaded hunloaded, rfl⟩

/-- What a step does to the object, while an unload is closing. -/
structure Quiet (p : Tasks) (s' : State) : Prop where
  settled : Closing p → Settled s'
  saveTimer : Closing p → p.shared.saveTimer = false → s'.saveTimer = false
  redis : Closing p → p.shared.saveTimer = false → p.shared.redis = none → s'.redis = none
  listed : p.shared.listed = false → s'.listed = false
  row : p.shared.row = none → s'.row = none
  late : s'.late = p.shared.late
  deleted : s'.deleted = p.shared.deleted

/-- **One place of the pool goes on.** -/
theorem Inv.advance (h : Inv p) (hadvance : Program.Advance p.tasks i t tasks') (hq : Quiet p s')
    (hwrites : Writes t = true → ∀ k ≠ i, ∀ t', p.tasks[k]? = some t' → Closes t' = true →
      p.shared.row = none)
    (hcloses : Closes t = true → Settled s' ∧ AloneAt p i)
    (hremoved : Removed t = true → s'.saveTimer = false ∧ s'.redis = none ∧ s'.listed = false)
    (hunloaded : s'.unloaded = true ↔ p.shared.unloaded = true ∨ t = .done .unloaded)
    (hsaved : ∀ prevQueue ∈ s'.saved, Closing ⟨s', tasks'⟩ ∧
      ∀ prevQueue' ∈ s'.row, prevQueue' = prevQueue)
    (hunsaved : ∀ prevQueue, .waiting (.savePrevQueue false prevQueue) ∈ tasks' →
      s'.row = none ∨ s'.saved = none) : Inv ⟨s', tasks'⟩ where
  settled := by
    rintro ⟨t', ht', hcloses'⟩
    rcases hadvance.mem ht' with rfl | ⟨k, hk, hget⟩
    · exact (hcloses hcloses').1
    · exact hq.settled ⟨t', List.mem_of_getElem? hget, hcloses'⟩
  alone k t' hget hcloses' := by
    by_cases hki : k = i
    · subst hki
      rw [hadvance.here] at hget
      cases hget
      refine (hcloses hcloses').2.imp hq.row (fun hall t' ht' => ?_)
      exact hall t' (hadvance.eraseIdx_here.mp ht')
    · rw [hadvance.elsewhere k hki] at hget
      cases hw : Writes t with
      | true => exact .inl (hq.row (hwrites hw k hki t' hget hcloses'))
      | false =>
        refine (h.alone k t' hget hcloses').imp hq.row (fun hall t'' ht'' => ?_)
        rcases hadvance.eraseIdx_elsewhere ht'' with rfl | hold
        · exact hw
        · exact hall t'' hold
  removed := by
    rintro ⟨t', ht', hremoved'⟩
    rcases hadvance.mem ht' with rfl | ⟨k, hk, hget⟩
    · exact hremoved hremoved'
    · have hmem := List.mem_of_getElem? hget
      have hclosing : Closing p := ⟨t', hmem, closes_of_removed hremoved'⟩
      obtain ⟨hsave, hredis, hlisted⟩ := h.removed ⟨t', hmem, hremoved'⟩
      exact ⟨hq.saveTimer hclosing hsave, hq.redis hclosing hsave hredis, hq.listed hlisted⟩
  unloaded hdone := by
    rcases hunloaded.mp hdone with hold | rfl
    · exact hadvance.mem_done (h.unloaded hold)
    · exact List.mem_of_getElem? hadvance.here
  late := hq.late.trans h.late
  saved := hsaved
  unsaved := hunsaved
  deleted hdeleted := by
    obtain ⟨hold, hrow⟩ := h.deleted (hq.deleted ▸ hdeleted)
    exact ⟨hunloaded.mpr (.inl hold), hq.row hrow⟩

/-- What was saved stays, where the row is not written, and an unload that closes goes on. -/
theorem Inv.keep_saved (h : Inv p) (hadvance : Program.Advance p.tasks i t tasks')
    (hsaved : ∀ prevQueue ∈ s'.saved, prevQueue ∈ p.shared.saved)
    (hrow : Closing p → s'.row = p.shared.row ∨ s'.row = none)
    (hcloses : ∀ t', p.tasks[i]? = some t' → Closes t' = true → Closes t = true ∨ s'.saved = none) :
    ∀ prevQueue ∈ s'.saved, Closing ⟨s', tasks'⟩ ∧
      ∀ prevQueue' ∈ s'.row, prevQueue' = prevQueue := by
  intro prevQueue hprev
  obtain ⟨hclosing, hsame⟩ := h.saved prevQueue (hsaved prevQueue hprev)
  constructor
  · obtain ⟨t', hmem, hcloses'⟩ := hclosing
    obtain ⟨k, hk⟩ := List.mem_iff_getElem?.mp hmem
    by_cases hki : k = i
    · rcases hcloses t' (hki ▸ hk) hcloses' with hnew | hnone
      · exact ⟨t, List.mem_of_getElem? hadvance.here, hnew⟩
      · rw [hnone] at hprev
        cases hprev
    · exact ⟨t', hadvance.mem_of_ne hki hk, hcloses'⟩
  · intro prevQueue' hprev'
    rcases hrow hclosing with heq | hnone
    · exact hsame prevQueue' (heq ▸ hprev')
    · rw [hnone] at hprev'
      cases hprev'

theorem Inv.keep_unsaved (h : Inv p) (hadvance : Program.Advance p.tasks i t tasks')
    (hsaved : s'.saved = none ∨ s'.saved = p.shared.saved)
    (hrow : p.shared.row = none → s'.row = none)
    (hnew : ∀ prevQueue, t = .waiting (.savePrevQueue false prevQueue) →
      s'.row = none ∨ s'.saved = none) :
    ∀ prevQueue, .waiting (.savePrevQueue false prevQueue) ∈ tasks' →
      s'.row = none ∨ s'.saved = none := by
  intro prevQueue hmem
  rcases hadvance.mem hmem with heq | ⟨k, -, hk⟩
  · exact hnew prevQueue heq.symm
  · refine (h.unsaved prevQueue (List.mem_of_getElem? hk)).imp hrow (fun hnone => ?_)
    rcases hsaved with hcleared | hsame
    · exact hcleared
    · exact hsame.trans hnone

/-- A segment that changes nothing that is stored: its task is over, or goes on the same way. -/
theorem Inv.same (h : Inv p) (hadvance : Program.Advance p.tasks i t tasks') (hq : Quiet p s')
    (hrow : s'.row = p.shared.row) (hunloaded : s'.unloaded = p.shared.unloaded)
    (hsaved : s'.saved = p.shared.saved) (hdone : t ≠ .done .unloaded)
    (hwrites : Writes t = true → ∀ k ≠ i, ∀ t', p.tasks[k]? = some t' → Closes t' = true →
      p.shared.row = none)
    (hcloses : Closes t = false) (hopen : ∀ t', p.tasks[i]? = some t' → Closes t' = false) :
    Inv ⟨s', tasks'⟩ := by
  have hnot : ∀ {q : Prop}, Closes t = true → q := by
    intro q hq
    rw [hcloses] at hq
    cases hq
  refine h.advance hadvance hq hwrites hnot (fun hr => hnot (closes_of_removed hr)) ?_ ?_ ?_
  · rw [hunloaded]
    simp [hdone]
  · refine h.keep_saved hadvance (fun _ hp => hsaved ▸ hp) (fun _ => .inl hrow)
      (fun t' ht' hcloses' => ?_)
    rw [hopen t' ht'] at hcloses'
    cases hcloses'
  · refine h.keep_unsaved hadvance (.inr hsaved) (fun hnone => hrow.trans hnone) (fun _ heq => ?_)
    rw [heq] at hcloses
    cases hcloses

/-- A step that leaves the timers and what is stored alone. -/
theorem Inv.quiet (h : Inv p)
    (hdirty : s'.room.dirty = p.shared.room.dirty ∨ s'.room.dirty = ∅)
    (hsync : s'.syncTimer = true → p.shared.syncTimer = true)
    (hsave : s'.saveTimer = p.shared.saveTimer)
    (hredis : s'.redis = p.shared.redis ∨ s'.redis = none)
    (hlisted : s'.listed = p.shared.listed ∨ s'.listed = false)
    (hrow : p.shared.row = none → s'.row = none) (hlate : s'.late = p.shared.late)
    (hdeleted : s'.deleted = p.shared.deleted) : Quiet p s' where
  settled hclosing hs := by
    rcases hdirty with hsame | hclean
    · rw [hsame]
      exact (h.settled hclosing (hsync hs)).imp_right (fun hnone => ⟨hrow hnone.1, hnone.2⟩)
    · exact .inl hclean
  saveTimer _ hfalse := hsave.trans hfalse
  redis _ _ hnone := hredis.elim (fun heq => heq.trans hnone) id
  listed hfalse := hlisted.elim (fun heq => heq.trans hfalse) id
  row := hrow
  late := hlate
  deleted := hdeleted

theorem Inv.refl (h : Inv p) : Quiet p p.shared :=
  h.quiet (.inl rfl) id rfl (.inl rfl) (.inl rfl) id rfl rfl

/-- An update of the row is counted as late only if there is a row. -/
theorem Inv.updateRoom_late (h : Inv p) (hrow : Closing p → p.shared.row = none) {s : State}
    (hlate : s.late = p.shared.late) (hunloaded : s.unloaded = p.shared.unloaded)
    (hsame : s.row = p.shared.row) : s.updateRoom.late = p.shared.late := by
  have hnot : ¬ (s.unloaded = true ∧ s.row.isSome = true) := by
    rintro ⟨hu, hr⟩
    rw [hsame, hrow (h.closing_of_unloaded (hunloaded ▸ hu))] at hr
    cases hr
  show (if s.unloaded = true ∧ s.row.isSome = true then s.late ++ [.prevQueue] else s.late) = _
  rw [if_neg hnot, hlate]

/-- Nothing is saved to redis after an unload. -/
theorem Inv.saveStateToRedis_late (h : Inv p) (harmed : p.shared.saveTimer = true) :
    ({ p.shared with saveTimer := false } : State).saveStateToRedis.late = p.shared.late := by
  have hnot : ¬ p.shared.unloaded = true := by
    intro hu
    rw [(h.removed ⟨_, h.unloaded hu, rfl⟩).1] at harmed
    cases harmed
  exact if_neg hnot

/-! ### Calls -/

/-- There is no task yet at the end of the pool. -/
theorem open_end : ∀ t', p.tasks[p.tasks.length]? = some t' → Closes t' = false := by
  intro t' ht'
  rw [List.getElem?_eq_none (Nat.le_refl _)] at ht'
  cases ht'

section Calls

variable (h : Inv p)
include h

/-- **A sync starts**, with its timer or without. -/
theorem Inv.sync {armed : Bool} (harmed : armed = true → p.shared.syncTimer = true)
    (hharmless : Closing p → Harmless p.shared.room.dirty p.shared.row) :
    Inv ⟨(sync { p.shared with syncTimer := armed }).1,
      p.tasks ++ [(AfterUnload.sync { p.shared with syncTimer := armed }).2]⟩ := by
  have hq : Quiet p { p.shared with syncTimer := armed } :=
    h.quiet (.inl rfl) harmed rfl (.inl rfl) (.inl rfl) id rfl rfl
  unfold AfterUnload.sync
  dsimp only
  split
  · exact h.same (Program.advance_append _ _) hq rfl rfl rfl (by simp) (fun hw => by cases hw) rfl
      open_end
  next hdirty =>
  split
  next hstorable =>
    have hopen : ¬ Closing p := by
      intro hclosing
      obtain ⟨prop, hprop, hs⟩ := hstorable
      rcases hharmless hclosing with hclean | ⟨-, hnone⟩
      · exact hdirty hclean
      · rw [hnone prop hprop] at hs
        cases hs
    refine h.same (Program.advance_append _ _) ⟨?_, ?_, ?_, id, id, rfl, rfl⟩ rfl rfl rfl
      (by simp) ?_ rfl open_end
    · exact fun hclosing => absurd hclosing hopen
    · exact fun hclosing => absurd hclosing hopen
    · exact fun hclosing => absurd hclosing hopen
    · exact fun _ k _ t' hk hcloses => absurd ⟨t', List.mem_of_getElem? hk, hcloses⟩ hopen
  · refine h.same (Program.advance_append _ _) hq rfl rfl rfl (by simp) ?_ rfl open_end
    intro _ k _ t' hk hcloses
    rcases hharmless ⟨t', List.mem_of_getElem? hk, hcloses⟩ with hclean | ⟨hnone, -⟩
    · exact absurd hclean hdirty
    · exact hnone

theorem Inv.store (hrow : Closing p → p.shared.row = none) :
    Inv ⟨p.shared.updateRoom, p.tasks ++ [.waiting (.store p.shared.room.prevQueue)]⟩ := by
  refine h.same (Program.advance_append _ _) ?_ rfl rfl rfl (by simp) ?_ rfl open_end
  · exact h.quiet (.inl rfl) id rfl (.inl rfl) (.inl rfl) id
      (h.updateRoom_late hrow rfl rfl rfl) rfl
  · exact fun _ k _ t' hk hcloses => hrow ⟨t', List.mem_of_getElem? hk, hcloses⟩

/-- **The room is removed.** -/
theorem Inv.remove {preserveRedis : Bool} (hmay : preserveRedis = false → MayRemove p i)
    (hadvance : Program.Advance p.tasks i (remove p.shared preserveRedis).2 tasks')
    (hopen : preserveRedis = true → ∀ t', p.tasks[i]? = some t' → Closes t' = false) :
    Inv ⟨(AfterUnload.remove p.shared preserveRedis).1, tasks'⟩ := by
  cases preserveRedis with
  | true =>
    refine h.same hadvance ?_ rfl rfl rfl (by simp [AfterUnload.remove]) (fun hw => by cases hw) rfl
      (hopen rfl)
    exact h.quiet (.inl rfl) id rfl (.inl rfl) (.inr rfl) id rfl rfl
  | false =>
    obtain ⟨hsave, hsettled, halone⟩ := hmay rfl
    refine h.advance hadvance ?_ (fun hw => by cases hw) (fun _ => ⟨hsettled, halone⟩)
      (fun _ => ⟨hsave, rfl, rfl⟩) ?_ ?_ ?_
    · exact h.quiet (.inl rfl) id rfl (.inr rfl) (.inr rfl) id rfl rfl
    · simp [AfterUnload.remove]
    · exact h.keep_saved hadvance (fun _ hp => hp) (fun _ => .inl rfl) (fun _ _ _ => .inl rfl)
    · refine h.keep_unsaved hadvance (.inr rfl) id (fun _ heq => ?_)
      cases heq

/-- The queue is going to be saved for an unload. -/
theorem Inv.flush (preserveRedis : Bool) (hrow : Closing p → p.shared.row = none) :
    Inv ⟨p.shared.flush, p.tasks ++ [.waiting (.flush preserveRedis)]⟩ := by
  have hwrites : ∀ k ≠ p.tasks.length, ∀ t', p.tasks[k]? = some t' → Closes t' = true →
      p.shared.row = none :=
    fun k _ t' hk hcloses => hrow ⟨t', List.mem_of_getElem? hk, hcloses⟩
  unfold State.flush
  split
  next harmed =>
    refine h.same (Program.advance_append _ _) ?_ rfl rfl rfl (by simp) (fun _ => hwrites) rfl
      open_end
    have hnot : ∀ {q : Prop}, p.shared.saveTimer = false → q := by
      intro q hfalse
      rw [harmed] at hfalse
      cases hfalse
    exact ⟨h.settled, fun _ => hnot, fun _ => hnot, id, id, h.saveStateToRedis_late harmed, rfl⟩
  · exact h.same (Program.advance_append _ _) h.refl rfl rfl rfl (by simp) (fun _ => hwrites) rfl
      open_end

theorem Inv.call {c : Call} (htimely : Timely p (.call c)) :
    Inv ⟨(start c p.shared).1, p.tasks ++ [(start c p.shared).2]⟩ := by
  have hnothing : ∀ result, result ≠ .unloaded → Inv ⟨p.shared, p.tasks ++ [.done result]⟩ := by
    intro result hne
    refine h.same (Program.advance_append _ _) h.refl rfl rfl rfl (by simpa using hne)
      (fun hw => by cases hw) ?_ open_end
    cases result <;> first | rfl | exact absurd rfl hne
  cases c with
  | throttledSync =>
    simp only [start]
    split
    next harmed =>
      exact h.sync (fun hf => by cases hf) (fun hc => h.settled hc harmed)
    · exact hnothing .notArmed (by simp)
  | sync => exact h.sync id htimely
  | store => exact h.store htimely
  | unloadRoom reason preserveRedis =>
    simp only [start, AfterUnload.unloadRoom]
    split
    · exact hnothing .refused (by simp)
    split
    next hreason =>
      subst hreason
      refine h.remove (fun hfalse => htimely ?_) (Program.advance_append _ _) (fun _ => open_end)
      cases preserveRedis with
      | none => cases hfalse
      | some preserveRedis => exact congrArg some hfalse
    next hreason =>
      refine h.flush _ ?_
      cases reason with
      | commanded => exact absurd rfl hreason
      | keepalive => exact htimely
      | admin => exact htimely
      | shutdown => exact htimely

end Calls

/-! ### Awaits -/

section Awaits

variable {task : Task} (h : Inv p) (ht : p.tasks[i]? = some (.waiting task))
include h ht

/-- A task goes on that has nothing to do with unloading, or is not yet past its last write. -/
theorem Inv.goes_on (hopen : Closes (.waiting task) = false) (hnew : Closes t = false)
    (hwrites : Writes t = true → Writes (.waiting task) = true) (hq : Quiet p s')
    (hrow : s'.row = p.shared.row ∨ Writes (.waiting task) = true)
    (hrows : p.shared.row = none → s'.row = none)
    (hunloaded : s'.unloaded = p.shared.unloaded) (hsaved : s'.saved = p.shared.saved) :
    Inv ⟨s', p.tasks.set i t⟩ := by
  have hadvance := Program.advance_set ht t
  have hnot : ∀ {q : Prop}, Closes t = true → q := by
    intro q hc
    rw [hnew] at hc
    cases hc
  refine h.advance hadvance hq ?_ hnot (fun hr => hnot (closes_of_removed hr)) ?_ ?_ ?_
  · exact fun hw k hk t' hget hcloses =>
      (h.alone k t' hget hcloses).row_eq_none (Ne.symm hk) ht (hwrites hw)
  · rw [hunloaded]
    refine (or_iff_left (fun heq => ?_)).symm
    rw [heq] at hnew
    cases hnew
  · refine h.keep_saved hadvance (fun _ hp => hsaved ▸ hp) (fun hclosing => ?_) (fun t' ht' hc => ?_)
    · exact hrow.imp_right (fun hw => hrows (h.row_eq_none hclosing ht hw hopen))
    · rw [ht] at ht'
      cases ht'
      rw [hopen] at hc
      cases hc
  · refine h.keep_unsaved hadvance (.inr hsaved) hrows (fun _ heq => ?_)
    rw [heq] at hnew
    cases hnew

/-- An unload that closes goes on. -/
theorem Inv.closes_on (hclosed : Closes (.waiting task) = true)
    (hwrites : Writes t = false) (hq : Quiet p s')
    (hremoved : Removed t = true → s'.saveTimer = false ∧ s'.redis = none ∧ s'.listed = false)
    (hunloaded : s'.unloaded = true ↔ p.shared.unloaded = true ∨ t = .done .unloaded)
    (hsaved : ∀ prevQueue ∈ s'.saved, Closing ⟨s', p.tasks.set i t⟩ ∧
      ∀ prevQueue' ∈ s'.row, prevQueue' = prevQueue)
    (hunsaved : ∀ prevQueue, .waiting (.savePrevQueue false prevQueue) ∈ p.tasks.set i t →
      s'.row = none ∨ s'.saved = none) : Inv ⟨s', p.tasks.set i t⟩ := by
  refine h.advance (Program.advance_set ht t) hq (fun hw => ?_) (fun _ => ⟨?_, ?_⟩) hremoved
    hunloaded hsaved hunsaved
  · rw [hwrites] at hw
    cases hw
  · exact hq.settled ⟨_, List.mem_of_getElem? ht, hclosed⟩
  · exact h.alone i _ ht hclosed

/-- An unload that closes and fails has saved nothing. -/
theorem Inv.fails : Inv ⟨{ p.shared with saved := none }, p.tasks.set i (.done .rejected)⟩ := by
  have hadvance := Program.advance_set ht (.done .rejected : Progress Task Result)
  refine h.advance hadvance ?_ (fun hw => by cases hw) (fun hc => by cases hc)
    (fun hr => by cases hr) (by simp) (fun _ hp => by cases hp) (fun _ _ => .inr rfl)
  exact h.quiet (.inl rfl) id rfl (.inl rfl) (.inl rfl) id rfl rfl

end Awaits

/-- **An await settles.** -/
theorem Inv.resume {task : Task} {x : Answer} (h : Inv p)
    (ht : p.tasks[i]? = some (.waiting task)) (htimely : Timely p (.answer i x))
    (hres : resume task x p.shared = some (s', t)) : Inv ⟨s', p.tasks.set i t⟩ := by
  have hland : ∀ prevQueue, p.shared.row = none → (p.shared.land prevQueue).row = none := by
    intro prevQueue hnone
    show p.shared.row.map _ = none
    rw [hnone]
    rfl
  have hrow : ∀ {q : Tasks}, q = p → ∀ {task : Task}, p.tasks[i]? = some (.waiting task) →
      Writes (.waiting task) = true → Closes (.waiting task) = false → Closing q →
      p.shared.row = none := by
    rintro q rfl task ht hw hc hclosing
    exact h.row_eq_none hclosing ht hw hc
  cases task with
  | saveStateToRedisDebounced =>
    cases x <;> cases hres
    · exact h.goes_on ht rfl rfl id h.refl (.inl rfl) id rfl rfl
    · exact h.goes_on ht rfl rfl (fun hw => by cases hw) h.refl (.inl rfl) id rfl rfl
  | publish =>
    cases x <;> cases hres
    · refine h.goes_on ht rfl rfl id ?_ (.inl rfl) id rfl rfl
      exact h.quiet (.inl rfl) id rfl (.inl rfl) (.inl rfl) id
        (h.updateRoom_late (hrow rfl ht rfl rfl) rfl rfl rfl) rfl
    · exact h.goes_on ht rfl rfl (fun hw => by cases hw) h.refl (.inl rfl) id rfl rfl
  | updateRoom prevQueue =>
    cases x <;> cases hres
    · refine h.goes_on ht rfl rfl (fun hw => by cases hw) ?_ (.inr rfl) (hland prevQueue) rfl rfl
      exact h.quiet (.inr rfl) id rfl (.inl rfl) (.inl rfl) (hland prevQueue) rfl rfl
    · refine h.goes_on ht rfl rfl (fun hw => by cases hw) ?_ (.inl rfl) id rfl rfl
      exact h.quiet (.inr rfl) id rfl (.inl rfl) (.inl rfl) id rfl rfl
  | store prevQueue =>
    cases x <;> cases hres
    · refine h.goes_on ht rfl rfl (fun hw => by cases hw) ?_ (.inr rfl) (hland prevQueue) rfl rfl
      exact h.quiet (.inl rfl) id rfl (.inl rfl) (.inl rfl) (hland prevQueue) rfl rfl
    · exact h.goes_on ht rfl rfl (fun hw => by cases hw) h.refl (.inl rfl) id rfl rfl
  | flush preserveRedis =>
    cases x with
    | settled => cases hres
    | rejected =>
      cases hres
      exact h.goes_on ht rfl rfl (fun hw => by cases hw) h.refl (.inl rfl) id rfl rfl
    | settledAt now fresh =>
      simp only [AfterUnload.resume] at hres
      have hlate : ∀ {s : State}, s.late = p.shared.late → s.unloaded = p.shared.unloaded →
          s.row = p.shared.row → s.updateRoom.late = p.shared.late :=
        h.updateRoom_late (hrow rfl ht rfl rfl)
      split at hres
      · cases hres
        refine h.goes_on ht rfl ?_ (fun hw => by cases hw) h.refl (.inl rfl) id rfl rfl
        cases preserveRedis <;> rfl
      next htemporary =>
        cases hres
        cases preserveRedis with
        | true =>
          refine h.goes_on ht rfl rfl id ?_ (.inl rfl) id rfl rfl
          exact h.quiet (.inl rfl) id rfl (.inl rfl) (.inl rfl) id (hlate rfl rfl rfl) rfl
        | false =>
          obtain ⟨hsettled, halone⟩ := (htimely ht).resolve_left htemporary
          refine h.advance (Program.advance_set ht _) ?_ ?_ (fun _ => ⟨hsettled, halone⟩)
            (fun hr => by cases hr) ?_ (fun _ hp => by cases hp) (fun _ _ => .inr rfl)
          · exact h.quiet (.inl rfl) id rfl (.inl rfl) (.inl rfl) id (hlate rfl rfl rfl) rfl
          · exact fun _ k hk t' hget hcloses =>
              (h.alone k t' hget hcloses).row_eq_none (Ne.symm hk) ht rfl
          · simp [State.updateRoom, State.unshiftSource]
  | savePrevQueue preserveRedis prevQueue =>
    cases preserveRedis with
    | true =>
      cases x <;> cases hres
      · refine h.goes_on ht rfl rfl (fun hw => by cases hw) ?_ (.inr rfl) (hland prevQueue) rfl rfl
        exact h.quiet (.inl rfl) id rfl (.inl rfl) (.inl rfl) (hland prevQueue) rfl rfl
      · exact h.goes_on ht rfl rfl (fun hw => by cases hw) h.refl (.inl rfl) id rfl rfl
    | false =>
      have hadvance := Program.advance_set ht (.waiting (.onBeforeUnload false true) : Progress Task Result)
      have hunloaded : ∀ b : Bool, b = true ↔ b = true ∨
          (.waiting (.onBeforeUnload false true) : Progress Task Result) = .done .unloaded := by simp
      cases x <;> cases hres
      · refine h.closes_on ht rfl rfl ?_ (fun hr => by cases hr) (hunloaded _) ?_ ?_
        · exact h.quiet (.inl rfl) id rfl (.inl rfl) (.inl rfl) (hland prevQueue) rfl rfl
        · -- what was saved is what the row now has
          intro prevQueue' hp
          cases hp
          refine ⟨⟨_, List.mem_of_getElem? hadvance.here, rfl⟩, fun prevQueue'' hp => ?_⟩
          obtain ⟨_, -, rfl⟩ := Option.map_eq_some_iff.mp hp
          rfl
        · intro prevQueue' hmem
          rcases hadvance.mem hmem with heq | ⟨k, hk, hget⟩
          · cases heq
          · exact .inl (hland prevQueue ((h.alone k _ hget rfl).row_eq_none (Ne.symm hk) ht rfl))
      · refine h.closes_on ht rfl rfl h.refl (fun hr => by cases hr) (hunloaded _) ?_ ?_
        · exact h.keep_saved hadvance (fun _ hp => hp) (fun _ => .inl rfl) (fun _ _ _ => .inl rfl)
        · exact h.keep_unsaved hadvance (.inr rfl) id (fun _ heq => by cases heq)
  | onBeforeUnload preserveRedis saved =>
    cases x with
    | rejected => cases hres
    | settledAt => cases hres
    | settled =>
      obtain ⟨rfl, rfl⟩ := Prod.mk.inj (Option.some.inj hres)
      refine h.remove (fun hfalse => htimely ⟨saved, hfalse ▸ ht⟩) (Program.advance_set ht _) ?_
      rintro rfl t' ht'
      rw [ht] at ht'
      cases ht'
      rfl
  | delRoom =>
    have hgone := h.removed ⟨_, List.mem_of_getElem? ht, rfl⟩
    have hadvance := Program.advance_set ht (.waiting .delRoomSync : Progress Task Result)
    cases x <;> cases hres
    · refine h.closes_on ht rfl rfl h.refl (fun _ => hgone) (by simp) ?_ ?_
      · exact h.keep_saved hadvance (fun _ hp => hp) (fun _ => .inl rfl) (fun _ _ _ => .inl rfl)
      · exact h.keep_unsaved hadvance (.inr rfl) id (fun _ heq => by cases heq)
    · exact h.fails ht
  | delRoomSync =>
    have hgone := h.removed ⟨_, List.mem_of_getElem? ht, rfl⟩
    have hadvance := Program.advance_set ht (.done .unloaded : Progress Task Result)
    cases x <;> cases hres
    · refine h.closes_on ht rfl rfl ?_ (fun _ => hgone) (by simp) ?_ ?_
      · exact h.quiet (.inl rfl) id rfl (.inl rfl) (.inl rfl) id rfl rfl
      · exact h.keep_saved hadvance (fun _ hp => hp) (fun _ => .inl rfl) (fun _ _ _ => .inl rfl)
      · exact h.keep_unsaved hadvance (.inr rfl) id (fun _ heq => by cases heq)
    · exact h.fails ht

/-! ### From outside -/

/-- The tasks stay where they are. -/
theorem Inv.outside (h : Inv p) (hq : Quiet p s') (hrow : s'.row = p.shared.row)
    (hunloaded : s'.unloaded = p.shared.unloaded) (hsaved : s'.saved = p.shared.saved) :
    Inv ⟨s', p.tasks⟩ where
  settled := hq.settled
  alone k t hget hcloses := (h.alone k t hget hcloses).imp_left hrow.trans
  removed hremoved := by
    obtain ⟨t, ht, hr⟩ := hremoved
    obtain ⟨hsave, hredis, hlisted⟩ := h.removed ⟨t, ht, hr⟩
    have hclosing : Closing p := ⟨t, ht, closes_of_removed hr⟩
    exact ⟨hq.saveTimer hclosing hsave, hq.redis hclosing hsave hredis, hq.listed hlisted⟩
  unloaded hu := h.unloaded (hunloaded ▸ hu)
  late := hq.late.trans h.late
  saved prevQueue hp := by
    obtain ⟨hclosing, hsame⟩ := h.saved prevQueue (hsaved ▸ hp)
    exact ⟨hclosing, fun prevQueue' hp' => hsame prevQueue' (hrow ▸ hp')⟩
  unsaved prevQueue hmem := (h.unsaved prevQueue hmem).imp hrow.trans hsaved.trans
  deleted hd := by
    obtain ⟨hu, hnone⟩ := h.deleted (hq.deleted ▸ hd)
    exact ⟨hunloaded.trans hu, hrow.trans hnone⟩

theorem Inv.external {change : Change} (h : Inv p) (htimely : Timely p (.external change))
    (hchange : change.apply p.shared = some s') : Inv ⟨s', p.tasks⟩ := by
  cases change with
  | operate room marks =>
    simp only [Change.apply] at hchange
    split at hchange <;> cases hchange
    next hguard =>
      obtain ⟨-, -, -, hdirty⟩ := hguard
      refine h.outside ⟨fun hclosing harmed => ?_, fun _ => id, fun _ _ => id, id, id, rfl, rfl⟩
        rfl rfl rfl
      show Harmless room.dirty p.shared.row
      cases marks with
      | true => exact htimely hclosing rfl
      | false =>
        rw [hdirty rfl]
        refine h.settled hclosing ?_
        simpa using harmed
  | saveStateToRedisDebounced =>
    simp only [Change.apply] at hchange
    split at hchange <;> cases hchange
    next harmed =>
      have hnot : ∀ {q : Prop}, p.shared.saveTimer = false → q := by
        intro q hfalse
        rw [harmed] at hfalse
        cases hfalse
      exact h.outside ⟨h.settled, fun _ => hnot, fun _ => hnot, id, id,
        h.saveStateToRedis_late harmed, rfl⟩ rfl rfl rfl
  | deleteRoom =>
    simp only [Change.apply] at hchange
    split at hchange <;> cases hchange
    next hunloaded =>
      exact
        { settled := fun hclosing harmed =>
            (h.settled hclosing harmed).imp_right (fun hnone => ⟨rfl, hnone.2⟩)
          alone := fun _ _ _ _ => .inl rfl
          removed := h.removed
          unloaded := h.unloaded
          late := h.late
          saved := fun prevQueue hp => ⟨(h.saved prevQueue hp).1, fun _ hp' => by cases hp'⟩
          unsaved := fun _ _ => .inl rfl
          deleted := fun _ => ⟨hunloaded, rfl⟩ }

end Step

/-! ## Every run -/

theorem inv_loaded (room : Room) (syncTimer saveTimer : Bool) (redis : Option RedisState)
    (row : Option (Option (List QueueItem))) :
    Inv (.idle (.loaded room syncTimer saveTimer redis row)) where
  settled := by
    rintro ⟨t, ht, -⟩
    cases ht
  alone i t ht := by cases ht
  removed := by
    rintro ⟨t, ht, -⟩
    cases ht
  unloaded hu := by cases hu
  late := rfl
  saved _ hp := by cases hp
  unsaved _ hmem := by cases hmem
  deleted hd := by cases hd

/-- **One step** that is timely. -/
theorem step_inv {p p' : Tasks} {e : Event} (h : Inv p) (htimely : Timely p e)
    (hstep : roomObject.machine.step p e = some p') : Inv p' := by
  rcases Program.step_cases hstep with ⟨c, rfl, rfl⟩ | ⟨i, x, task, s, t, rfl, ht, hres, rfl⟩ |
    ⟨change, s, rfl, hchange, rfl⟩
  · exact h.call htimely
  · exact h.resume ht htimely hres
  · exact h.external htimely hchange

/-- **An unloaded room stays unloaded**, in every run whose steps are timely. -/
theorem stays_throughout (room : Room) (syncTimer saveTimer : Bool) (redis : Option RedisState)
    (row : Option (Option (List QueueItem))) {es : List Event}
    (h : roomObject.machine.Along Timely (.idle (.loaded room syncTimer saveTimer redis row)) es) :
    roomObject.machine.Always (fun p => Stays p.shared)
      (.idle (.loaded room syncTimer saveTimer redis row)) es :=
  (Machine.always_of_along (fun _ _ _ hp hc hs => step_inv hp hc hs)
    (inv_loaded room syncTimer saveTimer redis row) h).imp (fun _ hp => hp.stays)

/-- A new room, after its first sync. -/
def synced : Room := { Room.new "foo" 0 with dirty := ∅ }

/-- The run of a deletion: the room is unloaded, and then its row is deleted. -/
def deletion : List Event :=
  [.call (.unloadRoom .admin none), .answer 0 (.settledAt 0 0), .answer 0 .settled,
    .answer 0 .settled, .answer 0 .settled, .answer 0 .settled, .external .deleteRoom]

/-- A room in which nothing is due can be deleted. -/
theorem stays_throughout_deletion :
    roomObject.machine.Always (fun p => Stays p.shared)
      (.idle (.loaded synced false false none (some none))) deletion :=
  stays_throughout synced false false none (some none) (by decide +kernel)

/-- **A title that was set right before brings the room back**: the sync is still due, and the room
is saved to redis after it was deleted. -/
theorem not_stays_throughout :
    ¬ ∀ (room : Room) (syncTimer saveTimer : Bool) (redis : Option RedisState)
      (row : Option (Option (List QueueItem))) (es : List Event),
      roomObject.machine.Always (fun p => Stays p.shared)
        (.idle (.loaded room syncTimer saveTimer redis row)) es := by
  intro h
  have hrun : ∃ p ∈ roomObject.machine.run (.idle (.loaded synced false false none (some none)))
      (.external (.operate (synced.setTitle "bar") true) :: deletion ++
        [.call .throttledSync, .external .saveStateToRedisDebounced]),
      p.shared.deleted = true ∧ p.shared.redis.isSome = true := by
    decide +kernel
  obtain ⟨p, hp, hdeleted, hredis⟩ := hrun
  exact ((h _ _ _ _ _ _).last hp).deleted hdeleted (.inr (.inl hredis))

end OpenTogetherTube.Server.AfterUnload
