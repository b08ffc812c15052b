import OpenTogetherTube.Lib.Machine
import OpenTogetherTube.Lib.Splice
import OpenTogetherTube.Server.VideoQueue
import Mathlib.Data.List.ReduceOption

/-!
# The video queue under its lock

A call of a queue's operation checks its arguments at once, and runs its body when the lock has come
around to it: the bodies run one at a time, in the order of the calls. `VideoQueue` has both in one
step, which is right for an operation that has the queue for itself. Here other bodies run in between,
and a check may be out of date when its body runs.

For most operations that does no harm. A `move` whose `fromIdx` is past the end by then takes nothing
out, and puts that back in: `undefined`. `not_sound_interleaved` is such a run, and `sound_iff` says
that this is all that can go wrong.
-/

namespace OpenTogetherTube.Server.ConcurrentQueue

open OpenTogetherTube.Common OpenTogetherTube.Lib QueueEntry

/-- The elements of the array; `none` is `undefined`. -/
abbrev Items := List (Option QueueEntry)

/-! ## Calls -/

/-- What a call throws, or what its promise is rejected with. -/
inductive QueueError where
  | room (e : RoomError)
  /-- Null or undefined items cannot be enqueued. -/
  | nullItems
  /-- A property of `undefined` was read. -/
  | typeError
  deriving DecidableEq, Repr

/-- The operations, with arguments that have not been checked. -/
inductive Call where
  | enqueue (videos : Items)
  | dequeue
  | pushTop (videos : Items)
  | insert (video : Option QueueEntry) (index : Number)
  | move (fromIdx toIdx : Number)
  | evict (video : VideoId)
  | update (video : VideoId) (patch : QueueItemExtras)
  | orderBy
  | shuffle
  deriving DecidableEq, Repr

/-- What waits for the lock. -/
inductive Body where
  | enqueue (videos : List QueueEntry)
  | dequeue
  | pushTop (videos : List QueueEntry)
  | insert (video : QueueEntry) (index : Number)
  | move (fromIdx toIdx : Number)
  | evict (video : VideoId)
  | update (video : VideoId) (patch : QueueItemExtras)
  | orderBy
  | shuffle
  deriving DecidableEq, Repr

/-- `isAllVideos`. -/
def isAllVideos (videos : Items) : Bool := videos.all (·.isSome)

/-- The checks of a call: it throws, or it returns at once, or its body has to wait. -/
def Call.check (items : Items) : Call → Except QueueError (Option Body)
  | .enqueue videos =>
    if videos = [] then .ok none
    else if isAllVideos videos then .ok (some (.enqueue videos.reduceOption))
    else .error .nullItems
  | .dequeue => .ok (some .dequeue)
  | .pushTop videos =>
    if videos = [] then .ok none
    else if isAllVideos videos then .ok (some (.pushTop videos.reduceOption))
    else .error .nullItems
  | .insert video index =>
    if index.lt (.ofNat 0) || (Number.ofNat items.length).lt index then
      .error (.room .indexOutOfBounds)
    else
      match video with
      | none => .error .nullItems
      | some video => .ok (some (.insert video index))
  | .move fromIdx toIdx =>
    if fromIdx.same toIdx then .ok none
    else if fromIdx.lt (.ofNat 0) || fromIdx.ge (.ofNat items.length) then
      .error (.room .fromIdxOutOfBounds)
    else if toIdx.lt (.ofNat 0) || toIdx.ge (.ofNat items.length) then
      .error (.room .toIdxOutOfBounds)
    else .ok (some (.move fromIdx toIdx))
  | .evict video => .ok (some (.evict video))
  | .update video patch => .ok (some (.update video patch))
  | .orderBy => .ok (some .orderBy)
  | .shuffle => .ok (some .shuffle)

/-! ## Bodies -/

/-- What is decided outside: the order that a body brings the items into, or that its iteratee
throws. -/
inductive Answer where
  | plain
  | order (items : Items)
  | throws
  deriving DecidableEq, Repr

inductive Outcome where
  | done
  | item (item : Option QueueEntry)
  | evicted (index : Nat) (item : Option QueueEntry)
  deriving DecidableEq, Repr

/-- What a body does: the items, whether the queue is marked dirty, the object that was assigned to,
and what the promise settles with. -/
structure Effect where
  items : Items
  dirty : Bool
  assigned : Option (ObjectId × QueueItemExtras)
  result : Except QueueError Outcome
  deriving DecidableEq

/-- The array is replaced or changed in place, and the queue is dirty. -/
def Effect.changed (items : Items) (result : Outcome) : Effect := ⟨items, true, none, .ok result⟩

/-- Nothing happens, and the promise is rejected. -/
def Effect.rejected (items : Items) (e : QueueError) : Effect := ⟨items, false, none, .error e⟩

/-- The place of the video. Elements are looked at from the start, and `undefined` has no service. -/
def findIndex (video : VideoId) : Items → Except QueueError (Option Nat)
  | [] => .ok none
  | none :: _ => .error .typeError
  | some e :: items => if e.is video then .ok (some 0) else (findIndex video items).map (·.map (· + 1))

def Body.run (items : Items) : Body → Answer → Option Effect
  | .enqueue videos, .plain => some (.changed (items ++ videos.map some) .done)
  | .dequeue, .plain => some (.changed items.tail (.item items.head?.join))
  | .pushTop videos, .plain => some (.changed (videos.map some ++ items) .done)
  | .insert video index, .plain =>
    let (newItems, left) := splice items (.ofNat 0) index []
    some (.changed (newItems ++ [some video] ++ left) .done)
  | .move fromIdx toIdx, .plain =>
    let (removed, rest) := splice items fromIdx (.ofNat 1) []
    -- `[0]` of an empty array is `undefined`
    some (.changed (splice rest toIdx (.ofNat 0) [removed.head?.join]).2 .done)
  | .evict video, .plain =>
    match findIndex video items with
    | .error e => some (.rejected items e)
    | .ok none => some (.rejected items (.room .videoNotFound))
    | .ok (some i) =>
      let (removed, rest) := splice items (.ofNat i) (.ofNat 1) []
      some (.changed rest (.evicted i removed.head?.join))
  | .update video patch, .plain =>
    match findIndex video items with
    | .error e => some (.rejected items e)
    | .ok none => some (.rejected items (.room .videoNotFound))
    | .ok (some i) =>
      match items[i]?.join with
      | none => some (.rejected items .typeError)
      | some e => some { Effect.changed items .done with assigned := some (e.object, patch) }
  | .orderBy, .order sorted =>
    if sorted.isPerm items then
      let same := sorted.map (·.map (·.item)) = items.map (·.map (·.item))
      some ⟨sorted, ¬ same, none, .ok .done⟩
    else none
  | .orderBy, .throws => some (.rejected items .typeError)
  | .shuffle, .order shuffled =>
    if shuffled.isPerm items then some ⟨shuffled, false, none, .ok .done⟩ else none
  | _, _ => none

/-! ## The queue -/

/-- A queue with its lock, the ids of all videos that calls were accepted with, and what the calls
that are over have returned or thrown. -/
structure State where
  items : Items
  dirty : Bool
  lock : List Body
  accepted : List VideoId
  results : List (Except QueueError Outcome)
  deriving DecidableEq

/-- The constructor drops what is null or undefined. -/
def State.init (items : Items) : State := ⟨items.filter (·.isSome), false, [], [], []⟩

/-- Items that are objects are changed wherever they are held. -/
def Body.mutate (object : ObjectId) (f : QueueItem → QueueItem) : Body → Body
  | .enqueue videos => .enqueue (videos.map (QueueEntry.mutate object f))
  | .pushTop videos => .pushTop (videos.map (QueueEntry.mutate object f))
  | .insert video index => .insert (video.mutate object f) index
  | body => body

/-- The videos that a body inserts. -/
def Body.videos : Body → List QueueEntry
  | .enqueue videos => videos
  | .pushTop videos => videos
  | .insert video _ => [video]
  | _ => []

def State.assign (s : State) : Option (ObjectId × QueueItemExtras) → State
  | none => s
  | some (object, patch) =>
    { s with
      items := s.items.map (Option.map (QueueEntry.mutate object (assignExtras patch)))
      lock := s.lock.map (Body.mutate object (assignExtras patch)) }

inductive Event where
  | call (c : Call)
  /-- The first body in the lock's queue runs. -/
  | body (x : Answer)
  deriving DecidableEq, Repr

def State.step (s : State) : Event → Option State
  | .call c =>
    match c.check s.items with
    | .error e => some { s with results := s.results ++ [.error e] }
    | .ok none => some { s with results := s.results ++ [.ok .done] }
    | .ok (some body) =>
      some { s with lock := s.lock ++ [body], accepted := s.accepted ++ body.videos.map videoId }
  | .body x =>
    match s.lock with
    | [] => none
    | body :: lock =>
      (body.run s.items x).map (fun eff =>
        State.assign { s with
          items := eff.items, dirty := s.dirty || eff.dirty, lock := lock
          results := s.results ++ [eff.result] } eff.assigned)

def queue : Machine State Event := ⟨State.step⟩

/-! ## The specification -/

/-- The ids in the array. -/
def ids (items : Items) : List VideoId := items.reduceOption.map videoId

/-- What a call has taken out of the queue. -/
def returned : Except QueueError Outcome → Option QueueEntry
  | .ok (.item item) => item
  | .ok (.evicted _ item) => item
  | _ => none

def State.returned (s : State) : List VideoId :=
  (s.results.filterMap ConcurrentQueue.returned).map videoId

/-- **The purpose**: nothing in the queue is `undefined`, and when all calls are over, what was there
and what was inserted is in the queue or was returned. -/
structure Sound (initial : Items) (s : State) : Prop where
  defined : none ∉ s.items
  conserved : s.lock = [] → (ids s.items ++ s.returned).Perm (ids initial ++ s.accepted)

/-- A move finds an element at `fromIdx`. -/
def Body.InRange (items : Items) : Body → Prop
  | .move fromIdx _ => fromIdx.start items.length < items.length
  | _ => True

/-- The condition on a step: what runs is in range. -/
def InRange (s : State) : Event → Prop
  | .body _ => ∀ body ∈ s.lock.head?, body.InRange s.items
  | .call _ => True

/-! ## Bodies -/

section Run

variable {items : Items} {body : Body} {x : Answer} {eff : Effect}

@[simp] theorem reduceOption_map_some (videos : List QueueEntry) :
    (videos.map some).reduceOption = videos := by
  induction videos with
  | nil => rfl
  | cons e videos ih => rw [List.map_cons, List.reduceOption_cons_of_some, ih]

theorem reduceOption_perm {items' : Items} (h : items'.Perm items) :
    items'.reduceOption.Perm items.reduceOption := h.filterMap id

/-- The element that `splice(start, 1)[0]` is. -/
theorem head?_splice_one (items : Items) (start : Number) :
    (splice items start (.ofNat 1) []).1.head?.join = items[start.start items.length]?.join := by
  rw [splice_one]
  cases items[start.start items.length]? <;> rfl

/-- It is taken out, if it is there. -/
theorem take_out_perm (items : Items) (start : Number) :
    ((splice items start (.ofNat 1) []).2.reduceOption ++
      (splice items start (.ofNat 1) []).1.head?.join.toList).Perm items.reduceOption := by
  have hperm := reduceOption_perm (splice_perm items start (.ofNat 1) [])
  rw [List.append_nil, List.reduceOption_append] at hperm
  refine List.perm_append_comm.trans (List.Perm.trans ?_ hperm)
  rw [splice_one]
  cases items[start.start items.length]? with
  | none => exact .refl _
  | some item => rw [Option.toList_some, List.reduceOption_singleton]; exact .refl _

/-- What a move puts back goes among the rest. -/
theorem put_back_perm (rest : Items) (start : Number) (item : Option QueueEntry) :
    (splice rest start (.ofNat 0) [item]).2.Perm (rest ++ [item]) := by
  have hperm := splice_perm rest start (.ofNat 0) [item]
  rw [splice_zero, List.nil_append] at hperm
  exact hperm

theorem insert_perm (items : Items) (index : Number) (item : Option QueueEntry) :
    ((splice items (.ofNat 0) index []).1 ++ [item] ++ (splice items (.ofNat 0) index []).2).Perm
      (items ++ [item]) := by
  have hperm := splice_perm items (.ofNat 0) index []
  rw [List.append_nil] at hperm
  rw [List.append_assoc]
  refine (List.perm_append_left_iff _).mpr List.perm_append_comm |>.trans ?_
  rw [← List.append_assoc]
  exact hperm.append_right [item]

/-- **What a body conserves**: what it leaves and what it returns is what was there and what it
inserts. -/
theorem run_conserves (h : body.run items x = some eff) :
    (eff.items.reduceOption ++ (returned eff.result).toList).Perm
      (items.reduceOption ++ body.videos) := by
  have hidle : ∀ {items : Items}, (items.reduceOption ++ []).Perm (items.reduceOption ++ []) :=
    .refl _
  cases body with
  | enqueue videos =>
    cases x <;> cases h
    show ((items ++ videos.map some).reduceOption ++ []).Perm (items.reduceOption ++ videos)
    rw [List.append_nil, List.reduceOption_append, reduceOption_map_some]
  | dequeue =>
    cases x <;> cases h
    show (items.tail.reduceOption ++ items.head?.join.toList).Perm (items.reduceOption ++ [])
    rw [List.append_nil]
    match items with
    | [] => exact .refl _
    | none :: rest => rw [List.reduceOption_cons_of_none]; simp
    | some e :: rest =>
      rw [List.reduceOption_cons_of_some]
      exact List.perm_append_comm
  | pushTop videos =>
    cases x <;> cases h
    show ((videos.map some ++ items).reduceOption ++ []).Perm (items.reduceOption ++ videos)
    rw [List.append_nil, List.reduceOption_append, reduceOption_map_some]
    exact List.perm_append_comm
  | insert video index =>
    cases x <;> cases h
    have hperm := reduceOption_perm (insert_perm items index (some video))
    rw [List.reduceOption_append items, List.reduceOption_singleton] at hperm
    show (((splice items (.ofNat 0) index []).1 ++ [some video] ++
      (splice items (.ofNat 0) index []).2).reduceOption ++ []).Perm (items.reduceOption ++ [video])
    rw [List.append_nil]
    exact hperm
  | move fromIdx toIdx =>
    cases x <;> cases h
    have hback := reduceOption_perm (put_back_perm (splice items fromIdx (.ofNat 1) []).2 toIdx
      (splice items fromIdx (.ofNat 1) []).1.head?.join)
    rw [List.reduceOption_append, List.reduceOption_singleton] at hback
    show ((splice (splice items fromIdx (.ofNat 1) []).2 toIdx (.ofNat 0)
      [(splice items fromIdx (.ofNat 1) []).1.head?.join]).2.reduceOption ++ []).Perm
        (items.reduceOption ++ [])
    rw [List.append_nil, List.append_nil]
    exact hback.trans (take_out_perm items fromIdx)
  | evict video =>
    cases x <;> try cases h
    simp only [Body.run] at h
    split at h <;> cases h
    · exact hidle
    · exact hidle
    next i _ =>
      show ((splice items (.ofNat i) (.ofNat 1) []).2.reduceOption ++
        (splice items (.ofNat i) (.ofNat 1) []).1.head?.join.toList).Perm (items.reduceOption ++ [])
      rw [List.append_nil]
      exact take_out_perm items (.ofNat i)
  | update video patch =>
    cases x <;> try cases h
    simp only [Body.run] at h
    split at h
    · cases h
      exact hidle
    · cases h
      exact hidle
    · split at h <;> cases h <;> exact hidle
  | orderBy =>
    cases x with
    | plain => cases h
    | order sorted =>
      simp only [Body.run] at h
      split at h
      next hperm =>
        cases h
        show (sorted.reduceOption ++ []).Perm (items.reduceOption ++ [])
        simpa using reduceOption_perm (List.isPerm_iff.mp hperm)
      · cases h
    | throws =>
      cases h
      exact hidle
  | shuffle =>
    cases x <;> try cases h
    next shuffled =>
      simp only [Body.run] at h
      split at h
      next hperm =>
        cases h
        show (shuffled.reduceOption ++ []).Perm (items.reduceOption ++ [])
        simpa using reduceOption_perm (List.isPerm_iff.mp hperm)
      · cases h

/-- Taking an element out leaves no `undefined` that was not there. -/
theorem none_not_mem_take_out (h : none ∉ items) (start : Number) :
    none ∉ (splice items start (.ofNat 1) []).2 := by
  intro hmem
  have hperm := splice_perm items start (.ofNat 1) []
  rw [List.append_nil] at hperm
  exact h (hperm.mem_iff.mp (List.mem_append_right _ hmem))

/-- There is an element in the array, or `undefined`. -/
theorem getElem?_join_isSome (h : none ∉ items) (i : Nat) :
    (items[i]?.join).isSome ↔ i < items.length := by
  by_cases hi : i < items.length
  · have hne : items[i] ≠ none := fun heq => h (heq ▸ List.getElem_mem hi)
    rw [List.getElem?_eq_getElem hi, Option.join_some, Option.isSome_iff_ne_none]
    exact iff_of_true hne hi
  · rw [List.getElem?_eq_none (by omega)]
    simp [hi]

/-- **What leaves `undefined` behind**: nothing but a move that is out of range. -/
theorem run_defined (hdefined : none ∉ items) (h : body.run items x = some eff) :
    none ∉ eff.items ↔ body.InRange items := by
  cases body with
  | enqueue videos =>
    cases x <;> cases h
    refine iff_of_true ?_ trivial
    show none ∉ items ++ videos.map some
    simp [hdefined]
  | dequeue =>
    cases x <;> cases h
    exact iff_of_true (fun hmem => hdefined (List.mem_of_mem_tail hmem)) trivial
  | pushTop videos =>
    cases x <;> cases h
    refine iff_of_true ?_ trivial
    show none ∉ videos.map some ++ items
    simp [hdefined]
  | insert video index =>
    cases x <;> cases h
    refine iff_of_true ?_ trivial
    intro hmem
    have hmem' := (insert_perm items index (some video)).mem_iff.mp hmem
    simp [hdefined] at hmem'
  | move fromIdx toIdx =>
    cases x <;> cases h
    have hback : none ∈ (splice (splice items fromIdx (.ofNat 1) []).2 toIdx (.ofNat 0)
        [(splice items fromIdx (.ofNat 1) []).1.head?.join]).2 ↔
          items[fromIdx.start items.length]?.join = none := by
      rw [(put_back_perm _ _ _).mem_iff, List.mem_append, List.mem_singleton, head?_splice_one]
      have hrest := none_not_mem_take_out hdefined fromIdx
      exact ⟨fun hcase => (hcase.resolve_left hrest).symm, fun hnone => .inr hnone.symm⟩
    show none ∉ _ ↔ fromIdx.start items.length < items.length
    rw [← getElem?_join_isSome hdefined, Option.isSome_iff_ne_none]
    exact not_congr hback
  | evict video =>
    cases x <;> try cases h
    simp only [Body.run] at h
    refine iff_of_true ?_ trivial
    split at h <;> cases h
    · exact hdefined
    · exact hdefined
    next i _ => exact none_not_mem_take_out hdefined (.ofNat i)
  | update video patch =>
    cases x <;> try cases h
    simp only [Body.run] at h
    refine iff_of_true ?_ trivial
    split at h
    · cases h
      exact hdefined
    · cases h
      exact hdefined
    · split at h <;> cases h <;> exact hdefined
  | orderBy =>
    refine iff_of_true ?_ trivial
    cases x with
    | plain => cases h
    | order sorted =>
      simp only [Body.run] at h
      split at h
      next hperm =>
        cases h
        exact fun hmem => hdefined ((List.isPerm_iff.mp hperm).mem_iff.mp hmem)
      · cases h
    | throws =>
      cases h
      exact hdefined
  | shuffle =>
    cases x <;> try cases h
    next shuffled =>
      simp only [Body.run] at h
      refine iff_of_true ?_ trivial
      split at h
      next hperm =>
        cases h
        exact fun hmem => hdefined ((List.isPerm_iff.mp hperm).mem_iff.mp hmem)
      · cases h

end Run

/-! ## Steps -/

/-- The ids of what is still to be inserted. -/
def State.pending (s : State) : List VideoId := (s.lock.flatMap Body.videos).map videoId

/-- The invariant: nothing is lost, and nothing appears. -/
def Balanced (initial : Items) (s : State) : Prop :=
  (ids s.items ++ s.returned ++ s.pending).Perm (ids initial ++ s.accepted)

theorem balanced_init (initial : Items) : Balanced initial (.init initial) := by
  have hids : ids (initial.filter (·.isSome)) = ids initial := by
    unfold ids
    induction initial with
    | nil => rfl
    | cons item initial ih => cases item <;> simpa [List.reduceOption] using ih
  show (ids (initial.filter (·.isSome)) ++ [] ++ []).Perm (ids initial ++ [])
  rw [hids, List.append_nil]

@[simp] theorem videoId_mutate (object : ObjectId) (patch : QueueItemExtras) (e : QueueEntry) :
    videoId (e.mutate object (assignExtras patch)) = videoId e := by
  unfold QueueEntry.mutate
  split <;> rfl

theorem videos_mutate (object : ObjectId) (f : QueueItem → QueueItem) (body : Body) :
    (body.mutate object f).videos = body.videos.map (QueueEntry.mutate object f) := by
  cases body <;> rfl

section Assign

variable (s : State) (assigned : Option (ObjectId × QueueItemExtras))

@[simp] theorem ids_assign : ids (s.assign assigned).items = ids s.items := by
  match assigned with
  | none => rfl
  | some (object, patch) =>
    show (List.reduceOption (s.items.map (Option.map _))).map videoId = s.items.reduceOption.map videoId
    rw [List.reduceOption_map, List.map_map]
    exact List.map_congr_left (fun e _ => videoId_mutate object patch e)

@[simp] theorem pending_assign : (s.assign assigned).pending = s.pending := by
  match assigned with
  | none => rfl
  | some (object, patch) =>
    show ((s.lock.map (Body.mutate object (assignExtras patch))).flatMap Body.videos).map videoId =
      (s.lock.flatMap Body.videos).map videoId
    induction s.lock with
    | nil => rfl
    | cons body lock ih =>
      rw [List.map_cons, List.flatMap_cons, List.map_append, ih, List.flatMap_cons, List.map_append,
        videos_mutate, List.map_map]
      congr 1
      exact List.map_congr_left (fun e _ => videoId_mutate object patch e)

theorem none_mem_assign : none ∈ (s.assign assigned).items ↔ none ∈ s.items := by
  match assigned with
  | none => exact Iff.rfl
  | some (object, patch) =>
    show none ∈ s.items.map (Option.map _) ↔ none ∈ s.items
    simp

@[simp] theorem assign_accepted : (s.assign assigned).accepted = s.accepted := by
  cases assigned <;> rfl

@[simp] theorem assign_returned : (s.assign assigned).returned = s.returned := by
  cases assigned <;> rfl

end Assign

/-- **What a step can do**: a call is over at once, or its body waits; or the first body runs. -/
theorem step_cases {s s' : State} {e : Event} (h : queue.step s e = some s') :
    (∃ c result, e = .call c ∧ returned result = none ∧
      s' = { s with results := s.results ++ [result] }) ∨
    (∃ c body, e = .call c ∧
      s' = { s with lock := s.lock ++ [body], accepted := s.accepted ++ body.videos.map videoId }) ∨
    (∃ x body lock eff, e = .body x ∧ s.lock = body :: lock ∧ body.run s.items x = some eff ∧
      s' = State.assign { s with
        items := eff.items, dirty := s.dirty || eff.dirty, lock := lock
        results := s.results ++ [eff.result] } eff.assigned) := by
  cases e with
  | call c =>
    change s.step (.call c) = some s' at h
    simp only [State.step] at h
    split at h <;> cases h
    · exact .inl ⟨c, _, rfl, rfl, rfl⟩
    · exact .inl ⟨c, _, rfl, rfl, rfl⟩
    · exact .inr (.inl ⟨c, _, rfl, rfl⟩)
  | body x =>
    change s.step (.body x) = some s' at h
    simp only [State.step] at h
    split at h
    · cases h
    next body lock hlock =>
      obtain ⟨eff, heff, rfl⟩ := Option.map_eq_some_iff.mp h
      exact .inr (.inr ⟨x, body, lock, eff, rfl, hlock, heff, rfl⟩)

/-- **One step** keeps the balance. -/
theorem step_balanced {initial : Items} {s s' : State} {e : Event} (hs : Balanced initial s)
    (h : queue.step s e = some s') : Balanced initial s' := by
  unfold Balanced at hs ⊢
  rcases step_cases h with ⟨c, result, -, hnone, rfl⟩ | ⟨c, body, -, rfl⟩ |
    ⟨x, body, lock, eff, -, hlock, heff, rfl⟩
  · have hreturned : State.returned { s with results := s.results ++ [result] } = s.returned := by
      simp [State.returned, hnone]
    rw [hreturned]
    exact hs
  · have hpending : State.pending { s with
        lock := s.lock ++ [body], accepted := s.accepted ++ body.videos.map videoId } =
          s.pending ++ body.videos.map videoId := by
      simp [State.pending]
    rw [hpending, ← List.append_assoc, ← List.append_assoc]
    exact hs.append_right _
  · have hbody : (ids eff.items ++ (returned eff.result).toList.map videoId).Perm
        (ids s.items ++ body.videos.map videoId) := by
      have hmap := (run_conserves heff).map videoId
      rwa [List.map_append, List.map_append] at hmap
    have hbefore : s.pending = body.videos.map videoId ++ (lock.flatMap Body.videos).map videoId := by
      rw [State.pending, hlock, List.flatMap_cons, List.map_append]
    have hreturned : (s.results ++ [eff.result]).filterMap returned =
        s.results.filterMap returned ++ (returned eff.result).toList := by
      rw [List.filterMap_append]
      cases hr : returned eff.result <;> simp [hr]
    rw [ids_assign, assign_returned, pending_assign, assign_accepted]
    rw [hbefore] at hs
    show (ids eff.items ++ ((s.results ++ [eff.result]).filterMap returned).map videoId ++
      (lock.flatMap Body.videos).map videoId).Perm (ids initial ++ s.accepted)
    rw [hreturned, List.map_append]
    -- count each id: what the body moved is on one side or the other
    rw [List.perm_iff_count] at hs hbody ⊢
    intro v
    have hs' := hs v
    have hbody' := hbody v
    simp only [List.count_append, State.returned] at hs' hbody' ⊢
    omega

theorem Balanced.conserved {initial : Items} {s : State} (h : Balanced initial s)
    (hlock : s.lock = []) : (ids s.items ++ s.returned).Perm (ids initial ++ s.accepted) := by
  have hpending : s.pending = [] := by
    rw [State.pending, hlock]
    rfl
  unfold Balanced at h
  rwa [hpending, List.append_nil] at h

/-- One step keeps the queue sound exactly if it is in range. -/
theorem step_sound_iff {initial : Items} {s s' : State} {e : Event} (hs : Balanced initial s)
    (hsound : Sound initial s) (h : queue.step s e = some s') : Sound initial s' ↔ InRange s e := by
  have hbalanced := step_balanced hs h
  have hsound' : Sound initial s' ↔ none ∉ s'.items :=
    ⟨Sound.defined, fun hdefined => ⟨hdefined, hbalanced.conserved⟩⟩
  rw [hsound']
  rcases step_cases h with ⟨c, result, rfl, -, rfl⟩ | ⟨c, body, rfl, rfl⟩ |
    ⟨x, body, lock, eff, rfl, hlock, heff, rfl⟩
  · exact iff_of_true hsound.defined trivial
  · exact iff_of_true hsound.defined trivial
  · rw [none_mem_assign]
    show none ∉ eff.items ↔ ∀ body ∈ s.lock.head?, body.InRange s.items
    rw [run_defined hsound.defined heff, hlock, List.head?_cons]
    simp

/-- **The queue is sound throughout exactly in the runs in which every move finds an element at its
`fromIdx`** when its body runs. -/
theorem sound_iff (initial : Items) (es : List Event) :
    queue.Always (Sound initial) (.init initial) es ↔ queue.Along InRange (.init initial) es := by
  refine Machine.always_iff_along_of_step (fun _ _ _ => step_balanced)
    (fun _ _ _ => step_sound_iff) (balanced_init initial) ⟨?_, (balanced_init initial).conserved⟩
  simp [State.init]

/-- **A stale `move` puts `undefined` into the queue**: the item it was called for has moved up. -/
theorem not_sound_interleaved :
    ¬ ∀ (initial : Items) (es : List Event), queue.Always (Sound initial) (.init initial) es := by
  intro h
  let video : ObjectId → String → Option QueueEntry :=
    fun object id => some ⟨object, .ofVideoId ⟨.youtube, id⟩⟩
  have hrun : ∃ s ∈ queue.run (.init [video 1 "a", video 2 "b"])
      [.call .dequeue, .call (.move (.ofNat 1) (.ofNat 0)), .body .plain, .body .plain],
      none ∈ s.items := by
    decide +kernel
  obtain ⟨s, hs, hnone⟩ := hrun
  exact ((h _ _).last hs).defined hnone

end OpenTogetherTube.Server.ConcurrentQueue
