import OpenTogetherTube.Common.Models
import Mathlib.Data.List.Sort
import Mathlib.Data.Rat.Floor

/-!
# The video queue

A room's queue of videos. Each operation is a check of its arguments followed by a body that runs
under the queue's lock; run alone, as here, the two are one step. A step says what the items are
afterwards, whether the queue told its room that it is dirty, and what it returned or threw.

Items are **objects**: the queue, and the room's current source, can hold the same one, and then a
change made through one of them is a change of the other. A `QueueEntry` is an item with its
identity.
-/

namespace OpenTogetherTube.Server

open OpenTogetherTube.Common OpenTogetherTube.Lib

abbrev ObjectId := Nat

structure QueueEntry where
  object : ObjectId
  item : QueueItem
  deriving DecidableEq, Repr

namespace QueueEntry

/-- Whether the item is the video. -/
def is (e : QueueEntry) (video : VideoId) : Bool :=
  e.item.service = video.service && e.item.id = video.id

/-- What video it is. -/
def videoId (e : QueueEntry) : VideoId := e.item.toVideoId

theorem is_iff {e : QueueEntry} {video : VideoId} : e.is video = true ↔ e.videoId = video := by
  obtain ⟨service, id⟩ := video
  show e.is ⟨service, id⟩ = true ↔ (⟨e.item.service, e.item.id⟩ : VideoId) = ⟨service, id⟩
  simp [is]

/-- Change an object, if that is what this entry holds. -/
def mutate (object : ObjectId) (f : QueueItem → QueueItem) (e : QueueEntry) : QueueEntry :=
  if e.object = object then { e with item := f e.item } else e

end QueueEntry

/-- `clearQueueItemTrim`. -/
def clearQueueItemTrim (item : QueueItem) : QueueItem := { item with startAt := none, endAt := none }

/-- `Object.assign(item, patch)`: what the patch does not mention stays. -/
def assignExtras (patch : QueueItemExtras) (item : QueueItem) : QueueItem :=
  { item with
    startAt := patch.startAt <|> item.startAt
    endAt := patch.endAt <|> item.endAt
    subtitleUrl := patch.subtitleUrl <|> item.subtitleUrl }

/-- What an operation on a queue does. -/
structure QueueStep (α : Type) where
  items : List QueueEntry
  dirty : Bool
  result : Except RoomError α

abbrev VideoQueue := List QueueEntry

namespace VideoQueue

/-- An index as `splice` takes it: the fraction is dropped. -/
def spliceIndex (index : ℚ) : Nat := ⌊index⌋.toNat

/-- Nothing happens, and the operation returns. -/
def skipped (q : VideoQueue) : QueueStep Unit := ⟨q, false, .ok ()⟩

/-- Nothing happens, and the operation throws. -/
def refused {α : Type} (q : VideoQueue) (e : RoomError) : QueueStep α := ⟨q, false, .error e⟩

/-- All items are replaced. -/
def set (_q : VideoQueue) (items : List QueueEntry) : QueueStep Unit := ⟨items, true, .ok ()⟩

def enqueue (q : VideoQueue) (videos : List QueueEntry) : QueueStep Unit :=
  if videos = [] then q.skipped else ⟨q ++ videos, true, .ok ()⟩

def dequeue (q : VideoQueue) : QueueStep (Option QueueEntry) := ⟨q.tail, true, .ok q.head?⟩

def pushTop (q : VideoQueue) (videos : List QueueEntry) : QueueStep Unit :=
  if videos = [] then q.skipped else ⟨videos ++ q, true, .ok ()⟩

def insert (q : VideoQueue) (video : QueueEntry) (index : ℚ) : QueueStep Unit :=
  if index < 0 ∨ index > q.length then q.refused .indexOutOfBounds
  else ⟨q.take (spliceIndex index) ++ [video] ++ q.drop (spliceIndex index), true, .ok ()⟩

def move (q : VideoQueue) (fromIdx toIdx : ℚ) : QueueStep Unit :=
  if fromIdx = toIdx then q.skipped
  else if fromIdx < 0 ∨ fromIdx ≥ q.length then q.refused .fromIdxOutOfBounds
  else if toIdx < 0 ∨ toIdx ≥ q.length then q.refused .toIdxOutOfBounds
  else
    let item := (q.drop (spliceIndex fromIdx)).take 1
    let rest := q.take (spliceIndex fromIdx) ++ q.drop (spliceIndex fromIdx + 1)
    ⟨rest.take (spliceIndex toIdx) ++ item ++ rest.drop (spliceIndex toIdx), true, .ok ()⟩

/-- The place of the video, where the source returns `-1` if it has none. -/
def findIndex (q : VideoQueue) (video : VideoId) : Option Nat := q.findIdx? (fun e => e.is video)

def contains (q : VideoQueue) (video : VideoId) : Bool := q.any (fun e => e.is video)

/-- Returns the place the video had, and its entry. -/
def evict (q : VideoQueue) (video : VideoId) : QueueStep (Nat × QueueEntry) :=
  match q.findIndex video with
  | none => q.refused .videoNotFound
  | some matchIdx =>
    match q[matchIdx]? with
    | none => q.refused .videoNotFound
    | some removed => ⟨q.eraseIdx matchIdx, true, .ok (matchIdx, removed)⟩

/-- Returns the object that was changed, which the room may hold elsewhere too. -/
def update (q : VideoQueue) (video : VideoId) (patch : QueueItemExtras) : QueueStep ObjectId :=
  match q.find? (fun e => e.is video) with
  | none => q.refused .videoNotFound
  | some e => ⟨q.map (QueueEntry.mutate e.object (assignExtras patch)), true, .ok e.object⟩

/-- `orderBy` with one criterion, descending. The sort is stable, and the queue is dirty if the
items at some place differ. -/
def orderBy (q : VideoQueue) (criterion : QueueItem → Nat) : QueueStep Unit :=
  let sorted := q.insertionSort (fun a b => criterion a.item ≥ criterion b.item)
  ⟨sorted, sorted.map (·.item) ≠ q.map (·.item), .ok ()⟩

/-- The queue in another order. Nobody is told. -/
def shuffle (_q : VideoQueue) (shuffled : List QueueEntry) : QueueStep Unit :=
  ⟨shuffled, false, .ok ()⟩

/-! ## Telling the room -/

end VideoQueue

/-- The room is told that the queue is dirty, or the items are what they were. -/
def QueueStep.Told {α : Type} (step : QueueStep α) (q : VideoQueue) : Prop :=
  step.dirty = true ∨ step.items.map (·.item) = q.map (·.item)

namespace VideoQueue

theorem enqueue_told (q : VideoQueue) (videos : List QueueEntry) : (q.enqueue videos).Told q := by
  unfold enqueue
  split
  · exact .inr rfl
  · exact .inl rfl

theorem pushTop_told (q : VideoQueue) (videos : List QueueEntry) : (q.pushTop videos).Told q := by
  unfold pushTop
  split
  · exact .inr rfl
  · exact .inl rfl

theorem insert_told (q : VideoQueue) (video : QueueEntry) (index : ℚ) :
    (q.insert video index).Told q := by
  unfold insert
  split
  · exact .inr rfl
  · exact .inl rfl

theorem move_told (q : VideoQueue) (fromIdx toIdx : ℚ) : (q.move fromIdx toIdx).Told q := by
  unfold move
  split
  · exact .inr rfl
  split
  · exact .inr rfl
  split
  · exact .inr rfl
  · exact .inl rfl

theorem evict_told (q : VideoQueue) (video : VideoId) : (q.evict video).Told q := by
  unfold evict
  split
  · exact .inr rfl
  split
  · exact .inr rfl
  · exact .inl rfl

theorem orderBy_told (q : VideoQueue) (criterion : QueueItem → Nat) :
    (q.orderBy criterion).Told q := by
  by_cases h : (q.insertionSort (fun a b => criterion a.item ≥ criterion b.item)).map (·.item) =
      q.map (·.item)
  · exact .inr h
  · exact .inl (by simpa [orderBy] using h)

/-- Evicting a video that is queued returns it. -/
theorem evict_of_contains {q : VideoQueue} {video : VideoId} (h : q.contains video = true) :
    ∃ i e, q[i]? = some e ∧ e.is video = true ∧
      q.evict video = ⟨q.eraseIdx i, true, .ok (i, e)⟩ := by
  obtain ⟨e₀, he₀, his₀⟩ := List.any_eq_true.mp h
  cases hidx : q.findIndex video with
  | none =>
    rw [findIndex, List.findIdx?_eq_none_iff] at hidx
    rw [hidx e₀ he₀] at his₀
    cases his₀
  | some i =>
    obtain ⟨hi, his, -⟩ := List.findIdx?_eq_some_iff_getElem.mp hidx
    have hget : q[i]? = some q[i] := List.getElem?_eq_getElem hi
    exact ⟨i, q[i], hget, his, by simp only [evict, hidx, hget]⟩

end VideoQueue

end OpenTogetherTube.Server
