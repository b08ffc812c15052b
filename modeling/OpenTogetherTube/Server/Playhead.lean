import OpenTogetherTube.Server.Untyped

/-!
# Handlers that leave the playhead alone

A room is usable if its position is a finite number that is not negative and its speed a finite
number that is positive. An outcome is `Fine` if the room is still as it should be and nothing was
thrown because of position or speed.

Most handlers leave the playhead alone and throw nothing because of it, whatever they are sent. They
are `Calm`, and what is calm can be put behind any handler without a difference (`fine_bind_calm`).
-/

namespace OpenTogetherTube.Server.Untyped

open OpenTogetherTube.Common OpenTogetherTube.Lib

/-! ## Usable rooms -/

def isPosition : Json → Bool
  | .num n => n.isNonneg
  | _ => false

def isSpeed : Value → Bool
  | some (.num (.finite q)) => 0 < q
  | _ => false

namespace Room

structure Usable (r : Room) : Prop where
  position : isPosition r.playbackPosition = true
  speed : isSpeed r.playbackSpeed = true

instance (r : Room) : Decidable r.Usable :=
  decidable_of_iff (isPosition r.playbackPosition = true ∧ isSpeed r.playbackSpeed = true)
    ⟨fun h => ⟨h.1, h.2⟩, fun h => ⟨h.position, h.speed⟩⟩

end Room

/-! ## What is thrown -/

/-- Something was thrown because of the position or the speed. -/
def Note.blames : Note → Bool
  | .thrown .playback => true
  | _ => false

/-- The room keeps `I`, and nothing was thrown because of the position or the speed. -/
structure Fine {α : Type} (I : Room → Prop) (o : Outcome Room Note Fault α) : Prop where
  state : I o.state
  published : ∀ note ∈ o.published, note.blames = false
  result : o.result ≠ .error .playback

section Outcomes

variable {α β : Type} {I : Room → Prop} {r : Room}

/-- A handler that comes to its end is fine if it leaves the room as it should be and noted nothing
against the playhead. -/
@[simp] theorem fine_ok {notes : List Note} {a : α} :
    Fine I ⟨r, notes, .ok a⟩ ↔ I r ∧ ∀ note ∈ notes, note.blames = false :=
  ⟨fun h => ⟨h.state, h.published⟩, fun h => ⟨h.1, h.2, nofun⟩⟩

/-- A handler that throws is fine if what it throws is about something else. -/
@[simp] theorem fine_error {notes : List Note} {fault : Fault} :
    Fine I (⟨r, notes, .error fault⟩ : Outcome Room Note Fault α) ↔
      I r ∧ (∀ note ∈ notes, note.blames = false) ∧ fault ≠ .playback := by
  constructor
  · intro h
    exact ⟨h.state, h.published, fun heq => h.result (by rw [heq])⟩
  · rintro ⟨hstate, hnotes, hfault⟩
    exact ⟨hstate, hnotes, fun heq => hfault (by cases heq; rfl)⟩

/-- What comes after a handler that published nothing. -/
theorem andThen_ok_nil {a : α} {k : α → RoomM β} :
    Outcome.andThen ⟨r, [], .ok a⟩ k = (k a).run r := rfl

/-- What comes after a handler that is fine, and is fine itself. -/
theorem Fine.andThen {o : Outcome Room Note Fault α} {k : α → RoomM β} (ho : Fine I o)
    (hk : ∀ a r, I r → Fine I ((k a).run r)) : Fine I (o.andThen k) := by
  obtain ⟨r, notes, result⟩ := o
  cases result with
  | error fault =>
    rw [fine_error] at ho
    exact fine_error.mpr ho
  | ok a =>
    rw [fine_ok] at ho
    have hnext := hk a r ho.1
    refine ⟨hnext.state, fun note hnote => ?_, hnext.result⟩
    rcases List.mem_append.mp hnote with hnote | hnote
    · exact ho.2 note hnote
    · exact hnext.published note hnote

end Outcomes

/-! ## Safe and calm handlers -/

/-- The handler keeps `I`, and throws nothing because of the position or the speed. -/
def Safe {α : Type} (I : Room → Prop) (h : RoomM α) : Prop := ∀ r, I r → Fine I (h.run r)

/-- What playback goes on from. -/
def Room.playhead (r : Room) : Json × Value × Option Time :=
  (r.playbackPosition, r.playbackSpeed, r.playbackStart)

/-- Whether a room is usable is a matter of its playhead. -/
theorem usable_congr {r r' : Room} (h : r'.playhead = r.playhead) : r'.Usable ↔ r.Usable := by
  have hposition : r'.playbackPosition = r.playbackPosition := congrArg Prod.fst h
  have hspeed : r'.playbackSpeed = r.playbackSpeed := congrArg (fun head => head.2.1) h
  constructor
  · rintro ⟨hp, hs⟩
    exact ⟨hposition ▸ hp, hspeed ▸ hs⟩
  · rintro ⟨hp, hs⟩
    exact ⟨hposition ▸ hp, hspeed ▸ hs⟩

/-- At a room: the playhead stays what it is, whatever it is, and if it is usable then it makes
nothing throw. -/
def CalmAt {α : Type} (h : RoomM α) (r : Room) : Prop :=
  (h.run r).state.playhead = r.playhead ∧ (r.Usable → Fine Room.Usable (h.run r))

def Calm {α : Type} (h : RoomM α) : Prop := ∀ r, CalmAt h r

namespace Safe

variable {α β : Type} {I : Room → Prop}

theorem pure (a : α) : Safe I (Pure.pure a : RoomM α) := fun _ hr => fine_ok.mpr ⟨hr, nofun⟩

/-- Reading the room: what follows may be about the room that was read. -/
theorem get_bind {k : Room → RoomM β} (hk : ∀ r, I r → Fine I ((k r).run r)) :
    Safe I (Handler.get >>= k) := hk

theorem throw : Safe I (Handler.throw .other : RoomM α) :=
  fun _ hr => fine_error.mpr ⟨hr, nofun, nofun⟩

theorem orThrow (x : Option α) : Safe I (Untyped.orThrow x) := by
  cases x with
  | none => exact throw
  | some a => exact pure a

theorem modify {f : Room → Room} (hf : ∀ r, I r → I (f r)) :
    Safe I (Handler.modify f : RoomM Unit) := fun r hr => fine_ok.mpr ⟨hf r hr, nofun⟩

theorem bind {m : RoomM α} {k : α → RoomM β} (hm : Safe I m) (hk : ∀ a, Safe I (k a)) :
    Safe I (m >>= k) := fun r hr => (hm r hr).andThen hk

theorem ite {p : Prop} [Decidable p] {h h' : RoomM α} (hp : p → Safe I h)
    (hnp : ¬ p → Safe I h') : Safe I (if p then h else h') := by
  split
  · next hyes => exact hp hyes
  · next hno => exact hnp hno

theorem when {p : Prop} [Decidable p] {h : RoomM Unit} (hp : p → Safe I h) :
    Safe I (Handler.when p h) := ite hp (fun _ => pure ())

end Safe

namespace Calm

variable {α β : Type} {r : Room}

theorem safe {h : RoomM α} (hh : Calm h) : Safe Room.Usable h := fun r => (hh r).2

theorem pure (a : α) : Calm (Pure.pure a : RoomM α) := fun r => ⟨rfl, Safe.pure a r⟩

theorem throw : Calm (Handler.throw .other : RoomM α) := fun r => ⟨rfl, Safe.throw r⟩

theorem orThrow (x : Option α) : Calm (Untyped.orThrow x) := by
  cases x with
  | none => exact throw
  | some a => exact pure a

theorem found (video : Fields) : Calm (Handler.emit (.found video) : RoomM Unit) := by
  refine fun r => ⟨rfl, fun hr => fine_ok.mpr ⟨hr, fun note hnote => ?_⟩⟩
  rw [List.mem_singleton.mp hnote]
  rfl

theorem modify {f : Room → Room} (hf : ∀ r, (f r).playhead = r.playhead) :
    Calm (Handler.modify f : RoomM Unit) :=
  fun r => ⟨hf r, Safe.modify (fun r hr => (usable_congr (hf r)).mpr hr) r⟩

/-- Sequencing, at a room. -/
theorem bind_at {m : RoomM α} {k : α → RoomM β} (hm : CalmAt m r) (hk : ∀ a, Calm (k a)) :
    CalmAt (m >>= k) r := by
  refine ⟨?_, fun hr => (hm.2 hr).andThen (fun a => (hk a).safe)⟩
  have hstate := hm.1
  rw [Handler.run_bind]
  cases hrun : m.run r with
  | mk r' notes result =>
    rw [hrun] at hstate
    cases result with
    | ok a => exact ((hk a) r').1.trans hstate
    | error fault => exact hstate

theorem bind {m : RoomM α} {k : α → RoomM β} (hm : Calm m) (hk : ∀ a, Calm (k a)) :
    Calm (m >>= k) := fun r => bind_at (hm r) hk

/-- Reading the room: what follows may be about the room that was read. -/
theorem get_bind {k : Room → RoomM β} (hk : ∀ r, CalmAt (k r) r) : Calm (Handler.get >>= k) := hk

/-- What the room's own position and speed are asked for, they have if they are usable. -/
theorem playing_bind {x : Option α} {k : α → RoomM β} (hx : r.Usable → x.isSome = true)
    (hk : ∀ a, Calm (k a)) : CalmAt (playing x >>= k) r := by
  refine bind_at ⟨rfl, fun hr => ?_⟩ hk
  obtain ⟨a, ha⟩ := Option.isSome_iff_exists.mp (hx hr)
  rw [ha]
  exact fine_ok.mpr ⟨hr, nofun⟩

theorem ite {p : Prop} [Decidable p] {h h' : RoomM α} (hp : Calm h) (hnp : Calm h') :
    Calm (if p then h else h') := by
  split
  · exact hp
  · exact hnp

theorem when {p : Prop} [Decidable p] {h : RoomM Unit} (hh : Calm h) : Calm (Handler.when p h) :=
  ite hh (pure ())

end Calm

section Calm

variable {α β : Type} {r : Room}

/-- **What is calm makes no difference** to whether all is fine. -/
theorem fine_bind_calm {m : RoomM α} {k : α → RoomM β} (hk : ∀ a, Calm (k a)) :
    Fine Room.Usable ((m >>= k).run r) ↔ Fine Room.Usable (m.run r) := by
  refine ⟨fun h => ?_, fun h => h.andThen (fun a => (hk a).safe)⟩
  rw [Handler.run_bind] at h
  cases hrun : m.run r with
  | mk r' notes result =>
    rw [hrun] at h
    cases result with
    | error fault => exact fine_error.mpr (fine_error.mp h)
    | ok a =>
      have hr' : r'.Usable := (usable_congr ((hk a) r').1).mp h.state
      exact fine_ok.mpr ⟨hr', fun note hnote => h.published note (List.mem_append_left _ hnote)⟩

/-- A rejection that nobody waits for is noted. -/
theorem fine_settled {o : Outcome Room Note Fault Unit} :
    Fine Room.Usable (settled o) ↔ Fine Room.Usable o := by
  obtain ⟨r, notes, result⟩ := o
  cases result with
  | ok a => rfl
  | error fault =>
    show Fine Room.Usable ⟨r, notes ++ [.thrown fault], .ok ()⟩ ↔ _
    rw [fine_ok, fine_error]
    cases fault <;> simp [Note.blames, or_imp, forall_and]

/-- Whether anybody waits for a handler makes no difference to whether it is fine. -/
theorem fine_unawaited {h : RoomM Unit} :
    Fine Room.Usable ((unawaited h).run r) ↔ Fine Room.Usable (h.run r) := fine_settled

/-- A calm handler stays calm when nobody waits for it. -/
theorem Calm.unawaited {h : RoomM Unit} (hh : Calm h) : Calm (Untyped.unawaited h) := by
  refine fun r => ⟨?_, fun hr => fine_unawaited.mpr ((hh r).2 hr)⟩
  show (settled (h.run r)).state.playhead = r.playhead
  rw [settled_state]
  exact (hh r).1

end Calm

/-! ### The handlers that are calm -/

section Handlers

variable (platform : Platform) (world : World)

/-- The username may be missing, which is an error of another kind. -/
theorem publishRoomEvent_calm : Calm (publishRoomEvent world) := .when .throw

theorem label_calm (item : Option Item) : Calm (label platform item) := .when .throw

theorem enqueue_calm (items : List Item) : Calm (enqueue items) := .modify (fun _ => rfl)

/-- A lookup that fails is an error of another kind. -/
theorem lookup_calm (service id : Value) : Calm (lookup world service id) :=
  .bind (.orThrow _) (fun _ => .bind (.found _) (fun _ => .pure _))

/-- The notes say what was found, which is nothing against the playhead. -/
theorem noteFound_calm (videos : List (ObjectId × Fields)) : Calm (noteFound videos) := by
  induction videos with
  | nil => exact .pure ()
  | cons video videos ih => exact .bind (.found _) (fun _ => ih)

theorem subtitles_calm (subtitleUrl : Value) : Calm (subtitles subtitleUrl) :=
  .ite (.ite (.pure _) .throw) (.pure _)

/-- A video that is added goes to the end of the queue. -/
theorem addVideo_calm (service id subtitleUrl : Value) :
    Calm (addVideo world service id subtitleUrl) := by
  refine .get_bind (fun r => Calm.bind (.orThrow _) (fun _ => .bind (.when .throw) (fun _ => ?_)) r)
  refine .bind (lookup_calm world _ _) (fun _ => .bind (subtitles_calm _) (fun _ => ?_))
  exact .bind (enqueue_calm _) (fun _ => .bind (.modify (fun _ => rfl))
    (fun _ => publishRoomEvent_calm world))

theorem addVideos_calm (videos : Json) : Calm (addVideos world videos) := by
  refine .bind (.orThrow _) (fun _ => .bind (noteFound_calm _) (fun _ => .get_bind (fun r => ?_)))
  exact Calm.bind (.orThrow _) (fun _ => .bind (.when .throw) (fun _ => .bind (enqueue_calm _)
    (fun _ => publishRoomEvent_calm world))) r

/-- Whichever of the three ways a request adds videos by, nothing but the queue changes. -/
theorem addToQueue_calm (url video videos : Value) : Calm (addToQueue world url video videos) := by
  refine .ite (.bind (.orThrow _) (fun _ => addVideo_calm world _ _ _)) (.ite ?_ ?_)
  · exact .bind (.orThrow _) (fun _ => .bind (.orThrow _) (fun _ => .bind (.orThrow _)
      (fun _ => addVideo_calm world _ _ _)))
  · cases videos with
    | none => exact .pure ()
    | some videos => exact .ite (addVideos_calm world videos) (.pure ())

/-- To look for a video in the queue changes nothing. -/
theorem position_calm (service id : Value) : Calm (position service id) := by
  refine .get_bind (fun r => Calm.bind (.orThrow _) (fun _ => ?_) r)
  exact .bind (.orThrow _) (fun _ => .bind (.orThrow _) (fun _ => .pure _))

/-- An update is copied into items, and the position of the room is none of their fields. -/
theorem updateQueueItem_calm (video update : Value) : Calm (updateQueueItem world video update) := by
  refine .bind (.orThrow _) (fun _ => .bind (.when .throw) (fun _ => ?_))
  refine .bind (.orThrow _) (fun _ => .bind (.orThrow _) (fun _ => ?_))
  exact .bind (position_calm _ _) (fun _ => .bind (.modify (fun _ => rfl))
    (fun _ => publishRoomEvent_calm world))

theorem evict_calm (service id : Value) : Calm (evict service id) :=
  .bind (position_calm _ _) (fun _ => .bind (.modify (fun _ => rfl)) (fun _ => .pure _))

/-- What plays is not in the queue. -/
theorem removeFromQueue_calm (video : Value) : Calm (removeFromQueue world video) :=
  .bind (.orThrow _) (fun _ => .bind (.orThrow _) (fun _ => .bind (evict_calm _ _)
    (fun _ => publishRoomEvent_calm world)))

/-- Indices that are no numbers are errors of another kind. -/
theorem move_calm (fromIdx toIdx : Value) : Calm (move platform fromIdx toIdx) := by
  refine .ite (.pure ()) (.get_bind (fun r => ?_))
  refine Calm.bind (.orThrow _) (fun _ => .bind (.when .throw) (fun _ => ?_)) r
  exact .bind (.orThrow _) (fun _ => .bind (.when .throw) (fun _ => .modify (fun _ => rfl)))

/-- The item that is inserted may be anything. -/
theorem insert_calm (video : Json) (index : Value) : Calm (insert platform world video index) := by
  refine .get_bind (fun r => Calm.bind (.orThrow _) (fun _ => ?_) r)
  exact .bind (.when .throw) (fun _ => .modify (fun _ => rfl))

/-- The queue of before is put behind the present one, unless it is discarded. -/
theorem restoreQueue_calm (discard : Value) : Calm (restoreQueue discard) := by
  refine .get_bind (fun r => Calm.bind (.orThrow _) (fun _ => ?_) r)
  exact .bind (.when (enqueue_calm _)) (fun _ => .modify (fun _ => rfl))

/-- The video that was added is removed again, or what plays is cleared: neither is the playhead. -/
theorem undoAdd_calm (request : Value) : Calm (undoAdd world request) := by
  refine .get_bind (fun r => Calm.bind (.orThrow _) (fun _ => ?_) r)
  exact .ite (removeFromQueue_calm world _) (.modify (fun _ => rfl))

/-- The item of the event is inserted, and nobody waits for that. -/
theorem undoRemove_calm (event : Value) : Calm (undoRemove platform world event) := by
  refine .bind (.orThrow _) (fun _ => .bind (.orThrow _) (fun video => ?_))
  refine .bind (.orThrow _) (fun _ => ?_)
  cases video with
  | none => exact .pure ()
  | some video => exact .when (insert_calm platform world _ _).unawaited

/-- Settings are about other fields of the room. -/
theorem applySettings_calm : Calm (applySettings world) :=
  .bind (.orThrow _) (fun _ => .modify (fun _ => rfl))

theorem subtitleToPlay_calm (subtitleUrl : Value) (video : Item) :
    Calm (subtitleToPlay subtitleUrl video) :=
  .bind (subtitles_calm _) (fun _ => .bind (.when .throw) (fun _ => .bind (.modify (fun _ => rfl))
    (fun _ => .pure _)))

/-- Playing starts the clock, and keeps position and speed. -/
theorem play_safe : Safe Room.Usable (play world) :=
  .get_bind (fun r h => Safe.when (fun _ => .modify (fun _ h => ⟨h.position, h.speed⟩)) r h)

end Handlers

end OpenTogetherTube.Server.Untyped
