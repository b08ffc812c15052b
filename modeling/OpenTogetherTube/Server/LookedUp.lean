import OpenTogetherTube.Server.Untyped

/-!
# Media that was looked up, and media that was not

A video gets into a room in six ways: it is added alone or with others, it is to be played now, it was
in the queue of before, or an event is undone that says a video was skipped or removed. The first
three look it up. In the others it is what the room had, or what the event says; and an update copies
what it is sent into a video that is there.

`Admits` says what a request must be for all to stay as it was looked up. What is undone has to be
such a video itself, an update may set nothing but the three extras, and the subtitles, which are
checked in two ways of which one lets `vtt` pass, have to end as they should.
`onlyLookedUp_throughout` is that in every run, and `not_onlyLookedUp_throughout` a run with another.
-/

namespace OpenTogetherTube.Server.Untyped

open OpenTogetherTube.Common OpenTogetherTube.Lib

/-! ## Videos that were looked up -/

/-- What a request may set on a video. -/
def isExtra (name : String) : Bool := name = "startAt" || name = "endAt" || name = "subtitleUrl"

def Agrees (item : Item) (video : Fields) : Prop :=
  ∀ name, isExtra name = false → item.get? name = (Json.obj video).get? name

/-- There are no subtitles, or they end as they should. -/
def subtitleOk (url : Value) : Bool :=
  match url with
  | none | some .null => true
  | url => endsWithVtt url

structure LookedUp (looked : List Fields) (item : Item) : Prop where
  object : ∃ fields, item.value = .obj fields
  agrees : ∃ video ∈ looked, Agrees item video
  subtitle : subtitleOk (item.get? "subtitleUrl") = true

structure Room.OnlyLookedUp (looked : List Fields) (r : Room) : Prop where
  currentSource : ∀ item, r.currentSource = some item → LookedUp looked item
  queue : ∀ place ∈ r.queue, ∃ item, place = some item ∧ LookedUp looked item
  prevQueue : ∀ items, r.prevQueue = some items → ∀ item ∈ items, LookedUp looked item

def Note.video? : Note → Option Fields
  | .found video => some video
  | .thrown _ => none

/-- The videos that were looked up so far. -/
def State.looked (s : State) : List Fields := s.log.filterMap Note.video?

def State.OnlyLookedUp (s : State) : Prop := s.room.OnlyLookedUp s.looked

/-! ## Conditions -/

section Conditions

variable (platform : Platform) (world : World) (looked : List Fields) (r : Room)

/-- The subtitles that a video gets: those of the request, which are checked, or its own. -/
def SubtitlesAdmit (subtitleUrl own : Value) : Prop :=
  if Json.truthy subtitleUrl = true then
    hasVttExtension subtitleUrl = true → endsWithVtt subtitleUrl = true
  else subtitleOk own = true

def LookupAdmits (service id subtitleUrl : Value) : Prop :=
  r.isVideoInQueue service id = some false →
    ∀ video, world.getVideoInfo service id = some video →
      SubtitlesAdmit subtitleUrl ((Json.obj video).get? "subtitleUrl")

def AddAdmits (url video videos : Value) : Prop :=
  if Json.truthy url = true then
    ∀ found, url.bind world.resolveURL = some found → LookupAdmits world r found.1 found.2 none
  else if Json.truthy video = true then
    ∀ service id subtitleUrl, Json.read video "service" = some service →
      Json.read video "id" = some id → Json.read video "subtitleUrl" = some subtitleUrl →
        LookupAdmits world r service id subtitleUrl
  else
    ∀ list found added, videos = some list → world.getManyVideoInfo list = some found →
      notQueued r found = some added → ∀ item ∈ added, subtitleOk (item.get? "subtitleUrl") = true

/-- The item is somewhere in the room. -/
def Room.Has (item : Item) : Prop := r.currentSource = some item ∨ some item ∈ r.queue

/-- What a patch makes of a video is what it was, or another that was looked up. -/
def UpdateAdmits (video update : Value) : Prop :=
  ∀ subtitleUrl service id index item, Json.read update "subtitleUrl" = some subtitleUrl →
    (subtitleUrl.isSome = true → endsWithVtt subtitleUrl = true) →
    Json.read video "service" = some service → Json.read video "id" = some id →
    findIndex service id r.queue = some (some index) → r.queue[index]? = some (some item) →
    ∀ held, r.Has held → held.object = item.object →
      ∃ video ∈ looked, Agrees (held.assign (update.elim [] Json.properties)) video

/-- If nothing is there to be moved, then the indices are refused. -/
def MoveAdmits (fromIdx toIdx : Value) : Prop :=
  r.queue = [] → Json.same fromIdx toIdx = false →
    Json.asNumber? platform.conversions fromIdx = some .nan →
      Json.asNumber? platform.conversions toIdx ≠ some .nan

def PlayNowAdmits (video : Value) : Prop :=
  ∀ service id subtitleUrl, Json.read video "service" = some service →
    Json.read video "id" = some id → Json.read video "subtitleUrl" = some subtitleUrl →
      r.currentSource.any (fun item => item.is service id) = false →
        if r.isVideoInQueue service id = some true then
          Json.truthy subtitleUrl = true → hasVttExtension subtitleUrl = true →
            endsWithVtt subtitleUrl = true
        else LookupAdmits world r service id subtitleUrl

/-- The video of an event that is undone, if it is put into the room, was looked up. -/
def UndoAdmits (event : Value) : Prop :=
  ∀ video, additional event "video" = some video → Json.truthy (some video) = true →
    (Json.isNumber (eventType event) 3 = true →
      Json.truthy (additional event "prevPosition") = true →
        LookedUp looked ⟨world.fresh, video, []⟩) ∧
    (Json.isNumber (eventType event) 6 = true →
      ∀ n, Json.asNumber? platform.conversions (additional event "queueIdx") = some n →
        (additional event "queueIdx").isSome = true →
          ¬ (n.lt (.ofNat 0) = true ∨ (Number.ofNat r.queue.length).lt n = true) →
            LookedUp looked ⟨world.fresh, video, []⟩)

def RequestAdmits : Request → Prop
  | .add url video videos => AddAdmits world r url video videos
  | .updateQueueItem video update => UpdateAdmits looked r video update
  | .order fromIdx toIdx => MoveAdmits platform r fromIdx toIdx
  | .undo event => UndoAdmits platform world looked r event
  | .playNow video => PlayNowAdmits world r video
  | _ => True

def OperationAdmits : Operation → Prop
  | .request request => RequestAdmits platform world looked r request
  | .update | .updateSegments => True

end Conditions

/-- What is put into the room was looked up. -/
def Admits (platform : Platform) (s : State) (e : Event) : Prop :=
  OperationAdmits platform e.world s.looked s.room e.operation

/-! ## Items -/

section Items

variable {L : List Fields} {item : Item}

/-- Looking up more does no harm. -/
theorem LookedUp.mono {L' : List Fields} (hL : ∀ video ∈ L, video ∈ L') (h : LookedUp L item) :
    LookedUp L' item := by
  obtain ⟨video, hmem, hagrees⟩ := h.agrees
  exact ⟨h.object, ⟨video, hL video hmem, hagrees⟩, h.subtitle⟩

/-- A field of a patched item is the one of the patch, if it has it. -/
theorem get?_assign (hitem : item.value.hasProperties = true) (patch : Fields) (name : String) :
    (item.assign patch).get? name = ((Json.obj patch).get? name <|> item.get? name) := by
  unfold Item.assign
  rw [if_pos hitem]
  show ((Json.obj (item.assigned ++ patch)).get? name <|> _) = _
  rw [Json.get?_append]
  show _ = (_ <|> ((Json.obj item.assigned).get? name <|> item.value.property? name))
  cases (Json.obj patch).get? name <;> rfl

theorem LookedUp.hasProperties (h : LookedUp L item) : item.value.hasProperties = true := by
  obtain ⟨fields, hfields⟩ := h.object
  rw [hfields]
  rfl

/-- A patched object is an object. -/
theorem LookedUp.assign_object (h : LookedUp L item) (patch : Fields) :
    ∃ fields, (item.assign patch).value = .obj fields := by
  obtain ⟨fields, hfields⟩ := h.object
  refine ⟨fields, ?_⟩
  rw [← hfields]
  unfold Item.assign
  split <;> rfl

/-- A patch that sets extras alone, with subtitles that end as they should. -/
structure GoodPatch (patch : Fields) : Prop where
  extra : ∀ field ∈ patch, isExtra field.1 = true
  subtitle : ∀ url, (Json.obj patch).get? "subtitleUrl" = some url → subtitleOk (some url) = true

/-- A patch of extras leaves what was looked up. -/
theorem Agrees.assign {video : Fields} (h : Agrees item video)
    (hitem : item.value.hasProperties = true) {patch : Fields}
    (hextra : ∀ field ∈ patch, isExtra field.1 = true) : Agrees (item.assign patch) video := by
  intro name hname
  have hnone : (Json.obj patch).get? name = none := by
    refine Json.get?_eq_none (fun field hfield heq => ?_)
    have hyes := hextra field hfield
    rw [heq, hname] at hyes
    cases hyes
  rw [get?_assign hitem, hnone]
  exact h name hname

/-- **A good patch** leaves an item looked up. -/
theorem LookedUp.assign (h : LookedUp L item) {patch : Fields} (hpatch : GoodPatch patch) :
    LookedUp L (item.assign patch) := by
  obtain ⟨video, hmem, hagrees⟩ := h.agrees
  refine ⟨h.assign_object patch, ⟨video, hmem, hagrees.assign h.hasProperties hpatch.extra⟩, ?_⟩
  rw [get?_assign h.hasProperties]
  cases hurl : (Json.obj patch).get? "subtitleUrl" with
  | none => exact h.subtitle
  | some url => exact hpatch.subtitle url hurl

theorem goodPatch_nil : GoodPatch [] := ⟨nofun, nofun⟩

/-- Where to start is an extra. -/
theorem goodPatch_startAt (position : Json) : GoodPatch [("startAt", position)] := by
  refine ⟨fun field hfield => ?_, nofun⟩
  rw [List.mem_singleton.mp hfield]
  rfl

/-- Subtitles that end as they should are all right. -/
theorem subtitleOk_of_endsWithVtt {url : Value} (h : endsWithVtt url = true) :
    subtitleOk url = true := by
  unfold subtitleOk
  split
  · rfl
  · rfl
  · exact h

theorem goodPatch_subtitleUrl {url : Json} (h : endsWithVtt (some url) = true) :
    GoodPatch [("subtitleUrl", url)] := by
  refine ⟨fun field hfield => ?_, fun url' hurl => ?_⟩
  · rw [List.mem_singleton.mp hfield]
    rfl
  · have heq : some url = some url' := hurl
    exact heq ▸ subtitleOk_of_endsWithVtt h

/-- The copy without its trim is as good. -/
theorem LookedUp.clearQueueItemTrim (h : LookedUp L item) (object : ObjectId) :
    LookedUp L (item.clearQueueItemTrim object) := by
  obtain ⟨fields, hfields⟩ := h.object
  have hget : ∀ name, name ≠ "startAt" → name ≠ "endAt" →
      (item.clearQueueItemTrim object).get? name = item.get? name := by
    intro name hstart hend
    show (none <|> (Json.obj ((item.value.properties ++ item.assigned).filter _)).get? name) = _
    rw [Json.get?_filter, Json.get?_append, hfields]
    · show (none <|> _) = ((Json.obj item.assigned).get? name <|> item.value.property? name)
      rw [hfields]
      cases (Json.obj item.assigned).get? name <;> rfl
    · rintro field rfl
      simp [hstart, hend]
  obtain ⟨video, hmem, hagrees⟩ := h.agrees
  refine ⟨⟨_, rfl⟩, ⟨video, hmem, fun name hname => ?_⟩, ?_⟩
  · have hstart : name ≠ "startAt" := by
      rintro rfl
      cases hname
    have hend : name ≠ "endAt" := by
      rintro rfl
      cases hname
    rw [hget name hstart hend]
    exact hagrees name hname
  · rw [hget "subtitleUrl" (by decide) (by decide)]
    exact h.subtitle

/-- A video that was just looked up. -/
theorem lookedUp_ofFields {video : Fields} (hmem : video ∈ L) (object : ObjectId)
    (hsubtitle : subtitleOk ((Json.obj video).get? "subtitleUrl") = true) :
    LookedUp L (.ofFields object video) :=
  ⟨⟨video, rfl⟩, ⟨video, hmem, fun _ _ => rfl⟩, hsubtitle⟩

end Items

/-! ## Honest handlers -/

/-- What the notes say was looked up is in the list. -/
def Noted (looked : List Fields) (notes : List Note) : Prop :=
  ∀ video, Note.found video ∈ notes → video ∈ looked

/-- At a room: if all that the handler looks up is in the list, then nothing else gets into the room. -/
def HonestAt {α : Type} (looked : List Fields) (h : RoomM α) (r : Room) : Prop :=
  r.OnlyLookedUp looked → Noted looked (h.run r).published → (h.run r).state.OnlyLookedUp looked

def Honest {α : Type} (looked : List Fields) (h : RoomM α) : Prop := ∀ r, HonestAt looked h r

section Rules

variable {α β : Type} {L : List Fields} {r : Room}

/-- The rule of sequencing: what the first looked up is noted before the second starts. -/
theorem HonestAt.bind {m : RoomM α} {k : α → RoomM β} (hm : HonestAt L m r)
    (hk : ∀ a, Honest L (k a)) : HonestAt L (m >>= k) r := by
  intro hr hnoted
  rw [Handler.run_bind] at hnoted ⊢
  unfold HonestAt at hm
  cases hrun : m.run r with
  | mk r' notes result =>
    rw [hrun] at hm hnoted
    cases result with
    | error fault => exact hm hr hnoted
    | ok a =>
      have hr' := hm hr (fun video hvideo => hnoted video (List.mem_append_left _ hvideo))
      exact hk a r' hr' (fun video hvideo => hnoted video (List.mem_append_right _ hvideo))

/-- What follows a computation that may fail is about the value it had. -/
theorem HonestAt.orThrow_bind {x : Option α} {k : α → RoomM β}
    (hk : ∀ a, x = some a → HonestAt L (k a) r) : HonestAt L (orThrow x >>= k) r := by
  cases x with
  | none => exact fun hr _ => hr
  | some a => exact hk a rfl

/-- So it is where the computation is about the position. -/
theorem HonestAt.playing_bind {x : Option α} {k : α → RoomM β}
    (hk : ∀ a, x = some a → HonestAt L (k a) r) : HonestAt L (playing x >>= k) r := by
  cases x with
  | none => exact fun hr _ => hr
  | some a => exact hk a rfl

/-- After a check, it holds. -/
theorem HonestAt.check_bind {p : Prop} [Decidable p] {k : Unit → RoomM β}
    (hk : ¬ p → HonestAt L (k ()) r) :
    HonestAt L (Handler.when p (Handler.throw .other) >>= k) r := by
  by_cases hp : p
  · rw [Handler.when, if_pos hp]
    exact fun hr _ => hr
  · rw [Handler.when, if_neg hp]
    exact hk hp

/-- A change that keeps to what was looked up. -/
theorem HonestAt.modify {f : Room → Room} (hf : r.OnlyLookedUp L → (f r).OnlyLookedUp L) :
    HonestAt L (Handler.modify f : RoomM Unit) r := fun hr _ => hf hr

theorem HonestAt.modify_bind {f : Room → Room} {k : Unit → RoomM β}
    (hf : r.OnlyLookedUp L → (f r).OnlyLookedUp L) (hk : Honest L (k ())) :
    HonestAt L (Handler.modify f >>= k) r := (HonestAt.modify hf).bind (fun _ => hk)

/-- A video that is noted may be put into the room. -/
theorem HonestAt.found_bind {video : Fields} {k : Unit → RoomM β}
    (hk : video ∈ L → HonestAt L (k ()) r) :
    HonestAt L (Handler.emit (.found video) >>= k) r := by
  intro hr hnoted
  have hvideo : video ∈ L := hnoted video List.mem_cons_self
  exact hk hvideo hr (fun video hmem => hnoted video (List.mem_cons_of_mem _ hmem))

theorem HonestAt.when {p : Prop} [Decidable p] {h : RoomM Unit} (hh : p → HonestAt L h r) :
    HonestAt L (Handler.when p h) r := by
  by_cases hp : p
  · rw [Handler.when, if_pos hp]
    exact hh hp
  · rw [Handler.when, if_neg hp]
    exact fun hr _ => hr

theorem HonestAt.ite {p : Prop} [Decidable p] {h h' : RoomM α} (hp : p → HonestAt L h r)
    (hnp : ¬ p → HonestAt L h' r) : HonestAt L (if p then h else h') r := by
  split
  · next hyes => exact hp hyes
  · next hno => exact hnp hno

namespace Honest

theorem pure (a : α) : Honest L (Pure.pure a : RoomM α) := fun _ hr _ => hr

theorem throw (fault : Fault) : Honest L (Handler.throw fault : RoomM α) := fun _ hr _ => hr

theorem orThrow (x : Option α) : Honest L (Untyped.orThrow x) := fun _ hr _ => hr

theorem playing (x : Option α) : Honest L (Untyped.playing x) := fun _ hr _ => hr

theorem modify {f : Room → Room} (hf : ∀ r, r.OnlyLookedUp L → (f r).OnlyLookedUp L) :
    Honest L (Handler.modify f : RoomM Unit) := fun r => HonestAt.modify (hf r)

theorem bind {m : RoomM α} {k : α → RoomM β} (hm : Honest L m) (hk : ∀ a, Honest L (k a)) :
    Honest L (m >>= k) := fun r => (hm r).bind hk

/-- Reading the room: what follows may be about the room that was read. -/
theorem get_bind {k : Room → RoomM β} (hk : ∀ r, HonestAt L (k r) r) :
    Honest L (Handler.get >>= k) := hk

theorem get_all {k : Room → RoomM β} (hk : ∀ r, Honest L (k r)) : Honest L (Handler.get >>= k) :=
  get_bind (fun r => hk r r)

theorem ite {p : Prop} [Decidable p] {h h' : RoomM α} (hp : Honest L h) (hnp : Honest L h') :
    Honest L (if p then h else h') := fun r => .ite (fun _ => hp r) (fun _ => hnp r)

theorem when {p : Prop} [Decidable p] {h : RoomM Unit} (hh : Honest L h) :
    Honest L (Handler.when p h) := ite hh (pure ())

end Honest

/-- A rejection is a note that says nothing of videos. -/
theorem noted_settled {o : Outcome Room Note Fault Unit} (h : Noted L (settled o).published) :
    Noted L o.published := by
  obtain ⟨r, notes, result⟩ := o
  cases result with
  | ok a => exact h
  | error fault => exact fun video hvideo => h video (List.mem_append_left _ hvideo)

/-- Nobody waits for the handler, but what it changed remains. -/
theorem HonestAt.unawaited {h : RoomM Unit} (hh : HonestAt L h r) :
    HonestAt L (Untyped.unawaited h) r := by
  intro hr hnoted
  show (settled (h.run r)).state.OnlyLookedUp L
  rw [settled_state]
  exact hh hr (noted_settled hnoted)

/-! ### What a room that is changed still has -/

/-- Only three fields of a room have videos in them. -/
theorem Room.OnlyLookedUp.congr {r' : Room} (h : r.OnlyLookedUp L)
    (hcurrent : r'.currentSource = r.currentSource) (hqueue : r'.queue = r.queue)
    (hprev : r'.prevQueue = r.prevQueue) : r'.OnlyLookedUp L :=
  ⟨hcurrent ▸ h.currentSource, hqueue ▸ h.queue, hprev ▸ h.prevQueue⟩

/-- The queue has nothing new. -/
theorem Room.OnlyLookedUp.of_queue {queue : List (Option Item)} (h : r.OnlyLookedUp L)
    (hqueue : ∀ place ∈ queue, ∃ item, place = some item ∧ LookedUp L item) :
    Room.OnlyLookedUp L { r with queue := queue } := ⟨h.currentSource, hqueue, h.prevQueue⟩

/-- Looked-up videos go to the end of the queue. -/
theorem Room.OnlyLookedUp.queue_append {items : List Item} (h : r.OnlyLookedUp L)
    (hitems : ∀ item ∈ items, LookedUp L item) :
    Room.OnlyLookedUp L { r with queue := r.queue ++ items.map some } := by
  refine h.of_queue (fun place hplace => ?_)
  rcases List.mem_append.mp hplace with hplace | hplace
  · exact h.queue place hplace
  · obtain ⟨item, hmem, rfl⟩ := List.mem_map.mp hplace
    exact ⟨item, rfl, hitems item hmem⟩

/-- What comes off the queue was looked up, and so was the rest. -/
theorem Room.OnlyLookedUp.head (h : r.OnlyLookedUp L) {item : Option Item}
    {queue : List (Option Item)} (hqueue : r.queue = item :: queue) :
    (∀ current, item = some current → LookedUp L current) ∧
      ∀ place ∈ queue, ∃ item, place = some item ∧ LookedUp L item := by
  have hall := h.queue
  rw [hqueue] at hall
  refine ⟨fun current heq => ?_, fun place hplace => hall place (List.mem_cons_of_mem _ hplace)⟩
  obtain ⟨item', heq', hlooked⟩ := hall item List.mem_cons_self
  rw [heq] at heq'
  exact Option.some.inj heq' ▸ hlooked

/-- A change that is good for every item of that object. -/
theorem Room.OnlyLookedUp.mutate (h : r.OnlyLookedUp L) {object : ObjectId} {f : Item → Item}
    (hf : ∀ item, r.Has item → item.object = object → LookedUp L item → LookedUp L (f item)) :
    (r.mutate object f).OnlyLookedUp L := by
  have hitem : ∀ item, r.Has item → LookedUp L item → LookedUp L (Item.mutate object f item) := by
    intro item hhas hlooked
    unfold Item.mutate
    split
    · next hobject => exact hf item hhas hobject hlooked
    · exact hlooked
  refine ⟨fun item hcurrent => ?_, fun place hplace => ?_, h.prevQueue⟩
  · obtain ⟨current, hsome, rfl⟩ := Option.map_eq_some_iff.mp hcurrent
    exact hitem current (.inl hsome) (h.currentSource current hsome)
  · obtain ⟨place', hmem, rfl⟩ := List.mem_map.mp hplace
    obtain ⟨item, rfl, hlooked⟩ := h.queue place' hmem
    exact ⟨Item.mutate object f item, rfl, hitem item (.inr hmem) hlooked⟩

end Rules

/-! ### The handlers that look nothing up -/

section Handlers

variable (platform : Platform) (world : World) {L : List Fields} {r : Room}

theorem publishRoomEvent_honest : Honest L (publishRoomEvent world) := .when (.throw _)

theorem label_honest (item : Option Item) : Honest L (label platform item) := .when (.throw _)

theorem countSecondsWatched_honest : Honest L (countSecondsWatched platform world) :=
  .get_all (fun _ => .bind (label_honest platform _) (fun _ => .bind (.playing _)
    (fun _ => .when (.throw _))))

/-- The next video comes off the queue. -/
theorem advance_onlyLookedUp (h : r.OnlyLookedUp L) : (advance world r).OnlyLookedUp L := by
  unfold advance
  split
  · next item queue hqueue =>
    obtain ⟨hhead, htail⟩ := h.head hqueue
    exact ⟨hhead, htail, h.prevQueue⟩
  split
  · exact ⟨nofun, h.queue, h.prevQueue⟩
  · exact h

theorem afterAdvance_honest : Honest L (afterAdvance platform) :=
  .get_all (fun _ => .bind (.when (.throw _)) (fun _ => .modify (fun _ h => h.congr rfl rfl rfl)))

theorem playNext_honest : Honest L (playNext platform world) :=
  .bind (.modify (fun _ h => advance_onlyLookedUp world h)) (fun _ => afterAdvance_honest platform)

/-- **The next video** is the present one again, or the next of the queue. -/
theorem dequeueNext_honest : Honest L (dequeueNext platform world) := by
  refine .get_bind (fun r hr => ?_)
  cases hcurrent : r.currentSource with
  | none => exact playNext_honest platform world r hr
  | some current =>
    have htrimmed := (hr.currentSource current hcurrent).clearQueueItemTrim world.fresh
    refine Honest.bind (countSecondsWatched_honest platform world) (fun _ => .ite ?_ ?_) r hr
    · refine .modify (fun r h => ⟨?_, h.queue, h.prevQueue⟩)
      rintro item ⟨⟩
      exact htrimmed
    · refine .bind (.when (.modify (fun r h => ?_))) (fun _ => playNext_honest platform world)
      refine @Room.OnlyLookedUp.queue_append _ _ [_] h (fun item hitem => ?_)
      rw [List.mem_singleton.mp hitem]
      exact htrimmed

theorem play_honest : Honest L (play world) :=
  .get_all (fun _ => .when (.modify (fun _ h => h.congr rfl rfl rfl)))

theorem flushPlaybackPosition_honest : Honest L (flushPlaybackPosition platform world) :=
  .bind (countSecondsWatched_honest platform world) (fun _ => .get_all (fun _ =>
    .bind (.playing _) (fun _ => .modify (fun _ h => h.congr rfl rfl rfl))))

theorem pause_honest : Honest L (pause platform world) :=
  .get_all (fun _ => .when (.bind (flushPlaybackPosition_honest platform world)
    (fun _ => .modify (fun _ h => h.congr rfl rfl rfl))))

theorem playback_honest (state : Value) : Honest L (playback platform world state) :=
  .bind (.ite (play_honest world) (pause_honest platform world)) (fun _ => publishRoomEvent_honest world)

/-- A skip goes on to the next video. -/
theorem skip_honest : Honest L (skip platform world) := by
  refine .get_all (fun _ => .when (.bind (.playing _) (fun _ => ?_)))
  refine .bind (label_honest platform _) (fun _ => .bind (fun r => ?_) (fun _ => ?_))
  · exact HonestAt.unawaited (dequeueNext_honest platform world r)
  · exact .bind (publishRoomEvent_honest world) (fun _ => .modify (fun _ h => h.congr rfl rfl rfl))

theorem seekRaw_honest (value : Json) : Honest L (seekRaw platform world value) :=
  .bind (countSecondsWatched_honest platform world) (fun _ => .modify (fun _ h => h.congr rfl rfl rfl))

theorem keepSegment_honest : Honest L (keepSegment platform) :=
  .get_all (fun _ => .bind (.playing _) (fun _ => .modify (fun _ h => h.congr rfl rfl rfl)))

/-- A seek moves no video. -/
theorem seek_honest (value : Value) : Honest L (seek platform world value) := by
  cases value with
  | none => exact .pure ()
  | some value =>
    refine .when (.get_all (fun _ => .bind (.playing _) (fun _ => ?_)))
    refine .bind (seekRaw_honest platform world value) (fun _ => ?_)
    exact .bind (publishRoomEvent_honest world) (fun _ => keepSegment_honest platform)

theorem setPlaybackSpeed_honest (speed : Value) : Honest L (setPlaybackSpeed platform world speed) :=
  .bind (flushPlaybackPosition_honest platform world)
    (fun _ => .modify (fun _ h => h.congr rfl rfl rfl))

theorem enqueue_honest {items : List Item} (hitems : ∀ item ∈ items, LookedUp L item) :
    Honest L (enqueue items) := .modify (fun _ h => h.queue_append hitems)

/-- A place is found without a change, and it is the one that the video has. -/
theorem run_position (r : Room) (service id : Value) :
    ∃ result, (position service id).run r = ⟨r, [], result⟩ ∧
      ∀ index item, result = .ok (index, item) →
        findIndex service id r.queue = some (some index) ∧ r.queue[index]? = some (some item) := by
  have hrun : (position service id).run r = (orThrow (findIndex service id r.queue) >>= fun index =>
      orThrow index >>= fun index => orThrow (r.queue[index]?.join) >>= fun item =>
        pure (index, item)).run r := rfl
  rw [hrun]
  cases findIndex service id r.queue with
  | none => exact ⟨.error .other, rfl, nofun⟩
  | some index =>
    cases index with
    | none => exact ⟨.error .other, rfl, nofun⟩
    | some index =>
      cases hitem : r.queue[index]?.join with
      | none =>
        refine ⟨.error .other, ?_, nofun⟩
        show (orThrow (r.queue[index]?.join) >>= _).run r = _
        rw [hitem]
        rfl
      | some item =>
        refine ⟨.ok (index, item), ?_, ?_⟩
        · show (orThrow (r.queue[index]?.join) >>= _).run r = _
          rw [hitem]
          rfl
        · rintro index' item' ⟨⟩
          exact ⟨rfl, Option.join_eq_some_iff.mp hitem⟩

/-- What follows may be about the place that was found. -/
theorem position_bind_honest {α : Type} {service id : Value} {k : Nat × Item → RoomM α}
    (hk : ∀ index item, findIndex service id r.queue = some (some index) →
      r.queue[index]? = some (some item) → HonestAt L (k (index, item)) r) :
    HonestAt L (position service id >>= k) r := by
  obtain ⟨result, hrun, hfound⟩ := run_position r service id
  unfold HonestAt
  rw [Handler.run_bind, hrun]
  cases result with
  | error fault => exact fun hr _ => hr
  | ok found =>
    obtain ⟨hindex, hitem⟩ := hfound found.1 found.2 rfl
    exact hk found.1 found.2 hindex hitem

/-- The queue of before was looked up in its time. -/
theorem restoreQueue_honest (discard : Value) : Honest L (restoreQueue discard) := by
  refine .get_bind (fun r hr => HonestAt.orThrow_bind (fun items hitems => ?_) hr)
  refine Honest.bind (.when (enqueue_honest (hr.prevQueue items hitems))) (fun _ => ?_) r
  exact .modify (fun _ h => ⟨h.currentSource, h.queue, nofun⟩)

/-- A permutation has nothing new. -/
theorem shuffle_honest : Honest L (shuffle world) :=
  .modify (fun r h => h.of_queue (fun place hplace =>
    h.queue place ((world.shuffle_perm r.queue).mem_iff.mp hplace)))

theorem applySettings_honest : Honest L (applySettings world) :=
  .bind (.orThrow _) (fun _ => .modify (fun _ h => h.congr rfl rfl rfl))

/-- Nor has the queue in the order of votes. -/
theorem sortQueue_honest : Honest L (sortQueue world) := by
  refine .get_bind (fun r => HonestAt.when (fun _ => .orThrow_bind (fun queue hqueue => ?_)))
  refine HonestAt.modify (fun h => h.of_queue (fun place hplace => ?_))
  exact h.queue place ((world.orderBy_perm r.queue queue hqueue).mem_iff.mp hplace)

/-- An update goes on to the next video, if it does anything to the videos. -/
theorem update_honest : Honest L (update platform world) := by
  refine .bind (.get_all (fun r => ?_)) (fun past => .bind (.get_all (fun r => ?_)) (fun _ => ?_))
  · cases r.currentSource with
    | none => exact .pure _
    | some current =>
      exact .ite (.bind (.playing _) (fun _ => .bind (.playing _) (fun _ => .orThrow _))) (.pure _)
  · exact .bind (.when (label_honest platform _)) (fun _ => .when (dequeueNext_honest platform world))
  · exact .bind (.when (.throw _)) (fun _ => sortQueue_honest world)

theorem fetchSponsorBlockSegments_onlyLookedUp (h : r.OnlyLookedUp L) :
    (fetchSponsorBlockSegments world r).OnlyLookedUp L := by
  unfold fetchSponsorBlockSegments
  split
  · exact h.congr rfl rfl rfl
  split
  · split
    · exact h.congr rfl rfl rfl
    · exact h
  · exact h.congr rfl rfl rfl

/-- Segments are no videos. -/
theorem updateSegments_honest : Honest L (updateSegments platform world) := by
  refine .when (.get_all (fun r => .bind (.orThrow _) (fun categories => .when ?_)))
  refine .bind (.when (.modify (fun r h => ?_))) (fun _ => .bind (.get_all (fun r => ?_))
    (fun _ => .get_all (fun r => .when (.bind (.playing _) (fun _ => .bind (.playing _)
      (fun segment => ?_))))))
  · exact fetchSponsorBlockSegments_onlyLookedUp world (h.congr rfl rfl rfl)
  · cases r.dontSkipSegmentsUntil with
    | none => exact .pure ()
    | some time =>
      exact .when (.bind (.playing _) (fun _ => .bind (.playing _)
        (fun _ => .when (.modify (fun _ h => h.congr rfl rfl rfl)))))
  · cases segment with
    | none => exact .pure ()
    | some segment => exact .when (seekRaw_honest platform world _)

/-! ### The handlers that take a video out of the queue -/

/-- What is taken out of the queue was looked up. -/
theorem evict_bind_honest {α : Type} {service id : Value} {k : Item → RoomM α}
    (hk : ∀ item, LookedUp L item → Honest L (k item)) : Honest L (evict service id >>= k) := by
  intro r hr
  have hposition : HonestAt L (position service id >>= fun found =>
      Handler.modify (fun r => { r with queue := r.queue.eraseIdx found.1 }) >>= fun _ => k found.2) r := by
    refine position_bind_honest (fun index item _ hitem => ?_)
    obtain ⟨item', heq, hlooked⟩ := hr.queue (some item) (List.mem_of_getElem? hitem)
    cases heq
    refine .modify_bind (fun h => h.of_queue (fun place hplace => ?_)) (hk item hlooked)
    exact h.queue place (List.mem_of_mem_eraseIdx hplace)
  unfold evict
  rw [Handler.bind_assoc]
  exact hposition hr

/-- A video that is removed is not kept. -/
theorem removeFromQueue_honest (video : Value) : Honest L (removeFromQueue world video) :=
  .bind (.orThrow _) (fun _ => .bind (.orThrow _) (fun _ => evict_bind_honest
    (fun _ _ => publishRoomEvent_honest world)))

/-- An addition is undone by a removal, or by stopping what plays. -/
theorem undoAdd_honest (request : Value) : Honest L (undoAdd world request) := by
  refine .get_all (fun r => .bind (.orThrow _) (fun _ => .ite (removeFromQueue_honest world _) ?_))
  exact .modify (fun _ h => ⟨nofun, h.queue, h.prevQueue⟩)

theorem undoSeek_honest (event : Value) : Honest L (undoSeek platform world event) :=
  .bind (.orThrow _) (fun _ => .bind (.orThrow _) (fun _ => .when (seek_honest platform world _)))

/-- What goes back to the queue is what played, with the place where to start. -/
theorem requeueCurrent_honest : Honest L (requeueCurrent platform world) := by
  refine .get_bind (fun r hr => ?_)
  cases hcurrent : r.currentSource with
  | none => exact Honest.pure () r hr
  | some current =>
    have hlooked := hr.currentSource current hcurrent
    refine HonestAt.playing_bind (fun position _ => .check_bind (fun _ => ?_)) hr
    refine .modify_bind (fun h => h.mutate (fun item _ _ hitem => ?_)) (.modify (fun r h => ?_))
    · exact hitem.assign (goodPatch_startAt position)
    · refine h.of_queue (fun place hplace => ?_)
      rcases List.mem_cons.mp hplace with rfl | hplace
      · exact ⟨_, rfl, hlooked.assign (goodPatch_startAt position)⟩
      · exact h.queue place hplace

/-- What is put in place is what was found. -/
theorem putInPlace_honest {video : Item} (h : LookedUp L video) : Honest L (putInPlace world video) := by
  refine .bind (.modify (fun r hr => ⟨?_, hr.queue, hr.prevQueue⟩)) (fun _ => .get_all (fun r => ?_))
  · rintro item ⟨⟩
    exact h
  · exact .bind (.orThrow _) (fun _ => .when (.modify (fun _ h => h.congr rfl rfl rfl)))

/-! ### The handlers that look a video up -/

/-- After a lookup there is a video more. -/
theorem lookup_bind_honest {α : Type} {service id : Value} {k : Item → RoomM α}
    (hk : ∀ video, world.getVideoInfo service id = some video → video ∈ L →
      HonestAt L (k (.ofFields world.fresh video)) r) :
    HonestAt L (lookup world service id >>= k) r := by
  have hlookup : HonestAt L (orThrow (world.getVideoInfo service id) >>= fun video =>
      Handler.emit (.found video) >>= fun _ => k (.ofFields world.fresh video)) r :=
    .orThrow_bind (fun video hvideo => .found_bind (fun hmem => hk video hvideo hmem))
  unfold lookup
  rw [Handler.bind_assoc]
  exact hlookup

/-- After a lookup of many there are as many. -/
theorem noteFound_bind_honest {α : Type} {found : List (ObjectId × Fields)} {k : Unit → RoomM α}
    (hk : (∀ video ∈ found, video.2 ∈ L) → HonestAt L (k ()) r) :
    HonestAt L (noteFound found >>= k) r := by
  induction found with
  | nil => exact hk nofun
  | cons video videos ih =>
    have hnext : HonestAt L (Handler.emit (.found video.2) >>= fun _ => noteFound videos >>= k) r := by
      refine .found_bind (fun hmem => ih (fun hrest => hk (fun video' hvideo => ?_)))
      rcases List.mem_cons.mp hvideo with rfl | hvideo
      · exact hmem
      · exact hrest video' hvideo
    unfold noteFound
    rw [Handler.bind_assoc]
    exact hnext

/-- The patch that a request's subtitles are, if they are checked as they should be. -/
theorem subtitles_bind_honest {α : Type} {subtitleUrl : Value} {k : Fields → RoomM α}
    (hk : ∀ patch, (Json.truthy subtitleUrl = true → hasVttExtension subtitleUrl = true ∧
        patch = subtitleUrl.toList.map (fun url => ("subtitleUrl", url))) →
      (Json.truthy subtitleUrl = false → patch = []) → HonestAt L (k patch) r) :
    HonestAt L (subtitles subtitleUrl >>= k) r := by
  unfold subtitles
  by_cases htruthy : Json.truthy subtitleUrl = true
  · rw [if_pos htruthy]
    by_cases hvtt : hasVttExtension subtitleUrl = true
    · rw [if_pos hvtt]
      refine hk _ (fun _ => ⟨hvtt, rfl⟩) (fun hno => ?_)
      rw [htruthy] at hno
      cases hno
    · rw [if_neg hvtt]
      exact fun hr _ => hr
  · rw [if_neg htruthy]
    exact hk [] (fun hyes => absurd hyes htruthy) (fun _ => rfl)

/-- Subtitles that end as they should are a good patch. -/
theorem goodPatch_subtitles {subtitleUrl : Value} (h : endsWithVtt subtitleUrl = true) :
    GoodPatch (subtitleUrl.toList.map (fun url => ("subtitleUrl", url))) := by
  cases subtitleUrl with
  | none => exact goodPatch_nil
  | some url => exact goodPatch_subtitleUrl h

/-- A video that was just looked up, with the subtitles of the request. -/
theorem lookedUp_assign_subtitles {video : Fields} (hmem : video ∈ L) {subtitleUrl : Value}
    {patch : Fields}
    (hadmitted : SubtitlesAdmit subtitleUrl ((Json.obj video).get? "subtitleUrl"))
    (hpatch : Json.truthy subtitleUrl = true → hasVttExtension subtitleUrl = true ∧
      patch = subtitleUrl.toList.map (fun url => ("subtitleUrl", url)))
    (hnil : Json.truthy subtitleUrl = false → patch = []) (object : ObjectId) :
    LookedUp L ((Item.ofFields object video).assign patch) := by
  unfold SubtitlesAdmit at hadmitted
  by_cases htruthy : Json.truthy subtitleUrl = true
  · rw [if_pos htruthy] at hadmitted
    obtain ⟨hvtt, rfl⟩ := hpatch htruthy
    have hends := hadmitted hvtt
    have hgood := goodPatch_subtitles hends
    have hagrees : Agrees (Item.ofFields object video) video := fun _ _ => rfl
    refine ⟨⟨video, rfl⟩, ⟨video, hmem, hagrees.assign rfl hgood.extra⟩, ?_⟩
    obtain ⟨url, rfl⟩ : ∃ url, subtitleUrl = some url := by
      cases subtitleUrl with
      | none => cases htruthy
      | some url => exact ⟨url, rfl⟩
    rw [get?_assign rfl]
    exact subtitleOk_of_endsWithVtt hends
  · rw [if_neg htruthy] at hadmitted
    rw [hnil (by simpa using htruthy)]
    exact (lookedUp_ofFields hmem object hadmitted).assign goodPatch_nil

/-- **A video that is added** was looked up before, and only its subtitles are the request's. -/
theorem addVideo_honest {service id subtitleUrl : Value}
    (hadmitted : LookupAdmits world r service id subtitleUrl) :
    HonestAt L (addVideo world service id subtitleUrl) r := by
  have hbody : HonestAt L (orThrow (r.isVideoInQueue service id) >>= fun queued =>
      Handler.when (queued = true) (Handler.throw .other) >>= fun _ =>
        lookup world service id >>= fun video => subtitles subtitleUrl >>= fun patch =>
          enqueue [video.assign patch] >>= fun _ =>
            Handler.modify (fun r => { r with prevQueue := none }) >>= fun _ =>
              publishRoomEvent world) r := by
    refine .orThrow_bind (fun queued hqueued => .check_bind (fun hnot => ?_))
    have hfree : r.isVideoInQueue service id = some false := by simpa [hqueued] using hnot
    refine lookup_bind_honest world (fun video hvideo hmem => ?_)
    refine subtitles_bind_honest (fun patch hpatch hnil => ?_)
    have hlooked := lookedUp_assign_subtitles hmem (hadmitted hfree video hvideo) hpatch hnil world.fresh
    refine HonestAt.bind (enqueue_honest (fun item hitem => ?_) r) (fun _ => ?_)
    · rw [List.mem_singleton.mp hitem]
      exact hlooked
    · exact .bind (.modify (fun _ h => ⟨h.currentSource, h.queue, nofun⟩))
        (fun _ => publishRoomEvent_honest world)
  exact hbody

/-- What is not queued was found. -/
theorem mem_found_of_mem_notQueued {found : List (ObjectId × Fields)} {added : List Item}
    (h : notQueued r found = some added) {item : Item} (hitem : item ∈ added) :
    ∃ video ∈ found, item = .ofFields video.1 video.2 := by
  induction found generalizing added with
  | nil =>
    cases h
    cases hitem
  | cons video videos ih =>
    unfold notQueued at h
    obtain ⟨queued, -, h⟩ := Option.bind_eq_some_iff.mp h
    obtain ⟨rest, hrest, h⟩ := Option.bind_eq_some_iff.mp h
    cases h
    have htail : item ∈ rest → ∃ video' ∈ video :: videos, item = .ofFields video'.1 video'.2 := by
      intro hmem
      obtain ⟨video', hvideo', heq⟩ := ih hrest hmem
      exact ⟨video', List.mem_cons_of_mem _ hvideo', heq⟩
    split at hitem
    · exact htail hitem
    · rcases List.mem_cons.mp hitem with rfl | hmem
      · exact ⟨video, List.mem_cons_self, rfl⟩
      · exact htail hmem

/-- So were videos that are added together. -/
theorem addVideos_honest {videos : Json}
    (hadmitted : ∀ found added, world.getManyVideoInfo videos = some found →
      notQueued r found = some added → ∀ item ∈ added, subtitleOk (item.get? "subtitleUrl") = true) :
    HonestAt L (addVideos world videos) r := by
  have hbody : HonestAt L (orThrow (world.getManyVideoInfo videos) >>= fun found =>
      noteFound found >>= fun _ => Handler.get >>= fun r => orThrow (notQueued r found) >>= fun added =>
        Handler.when (added.isEmpty = true) (Handler.throw .other) >>= fun _ =>
          enqueue added >>= fun _ => publishRoomEvent world) r := by
    refine .orThrow_bind (fun found hfound => noteFound_bind_honest (fun hmem => ?_))
    show HonestAt L (orThrow (notQueued r found) >>= _) r
    refine .orThrow_bind (fun added hadded => .check_bind (fun _ => ?_))
    refine HonestAt.bind (enqueue_honest (fun item hitem => ?_) r) (fun _ => publishRoomEvent_honest world)
    obtain ⟨video, hvideo, heq⟩ := mem_found_of_mem_notQueued hadded hitem
    have hsubtitle := hadmitted found added hfound hadded item hitem
    rw [heq] at hsubtitle ⊢
    exact lookedUp_ofFields (hmem video hvideo) video.1 hsubtitle
  exact hbody

theorem addToQueue_honest {url video videos : Value} (hadmitted : AddAdmits world r url video videos) :
    HonestAt L (addToQueue world url video videos) r := by
  unfold AddAdmits at hadmitted
  unfold addToQueue
  split
  · next hurl =>
    rw [if_pos hurl] at hadmitted
    exact .orThrow_bind (fun found hfound => addVideo_honest world (hadmitted found hfound))
  · next hurl =>
    rw [if_neg hurl] at hadmitted
    split
    · next hvideo =>
      rw [if_pos hvideo] at hadmitted
      refine .orThrow_bind (fun service hservice => .orThrow_bind (fun id hid => ?_))
      refine .orThrow_bind (fun subtitleUrl hsubtitle => addVideo_honest world ?_)
      exact hadmitted service id subtitleUrl hservice hid hsubtitle
    · next hvideo =>
      rw [if_neg hvideo] at hadmitted
      cases videos with
      | none => exact fun hr _ => hr
      | some videos =>
        refine .ite (fun _ => addVideos_honest world (fun found added => ?_)) (fun _ hr _ => hr)
        exact hadmitted videos found added rfl

/-- The subtitles are set on the item, wherever it is in the room. -/
theorem subtitleToPlay_bind_honest {α : Type} {subtitleUrl : Value} {video : Item}
    {k : Item → RoomM α}
    (hk : ∀ patch, (Json.truthy subtitleUrl = true → hasVttExtension subtitleUrl = true ∧
        patch = subtitleUrl.toList.map (fun url => ("subtitleUrl", url))) →
      (Json.truthy subtitleUrl = false → patch = []) →
      GoodPatch patch ∧ Honest L (k (video.assign patch))) :
    Honest L (subtitleToPlay subtitleUrl video >>= k) := by
  intro r
  have hbody : HonestAt L (subtitles subtitleUrl >>= fun patch =>
      Handler.when (patch.isEmpty = false ∧ video.value.hasProperties = false) (Handler.throw .other)
        >>= fun _ => Handler.modify (fun r => r.mutate video.object (Item.assign patch)) >>= fun _ =>
          k (video.assign patch)) r := by
    refine subtitles_bind_honest (fun patch hpatch hnil => .check_bind (fun _ => ?_))
    obtain ⟨hgood, hnext⟩ := hk patch hpatch hnil
    exact .modify_bind (fun h => h.mutate (fun item _ _ hitem => hitem.assign hgood)) hnext
  unfold subtitleToPlay
  simp only [Handler.bind_assoc]
  exact hbody

/-- The patch that checked subtitles are is a good one. -/
theorem goodPatch_of_subtitles {subtitleUrl : Value} {patch : Fields}
    (hadmitted : Json.truthy subtitleUrl = true → hasVttExtension subtitleUrl = true →
      endsWithVtt subtitleUrl = true)
    (hpatch : Json.truthy subtitleUrl = true → hasVttExtension subtitleUrl = true ∧
      patch = subtitleUrl.toList.map (fun url => ("subtitleUrl", url)))
    (hnil : Json.truthy subtitleUrl = false → patch = []) : GoodPatch patch := by
  by_cases htruthy : Json.truthy subtitleUrl = true
  · obtain ⟨hvtt, rfl⟩ := hpatch htruthy
    exact goodPatch_subtitles (hadmitted htruthy hvtt)
  · rw [hnil (by simpa using htruthy)]
    exact goodPatch_nil

/-- A video that was found is requeued for, and put in place. -/
theorem play_found_honest {video : Item} (h : LookedUp L video) :
    Honest L (requeueCurrent platform world >>= fun _ => putInPlace world video) :=
  .bind (requeueCurrent_honest platform world) (fun _ => putInPlace_honest world h)

/-- **A video that is to play now** comes off the queue, or is looked up. -/
theorem playNow_honest {video : Value} (hadmitted : PlayNowAdmits world r video) :
    HonestAt L (playNow platform world video) r := by
  refine .orThrow_bind (fun service hservice => .orThrow_bind (fun id hid => ?_))
  refine .orThrow_bind (fun subtitleUrl hsubtitle => ?_)
  show HonestAt L (if r.currentSource.any (fun item => item.is service id) = true then _ else _) r
  refine .ite (fun _ hr _ => hr) (fun hcurrent => .orThrow_bind (fun queued hqueued => ?_))
  have hadmitted := hadmitted service id subtitleUrl hservice hid hsubtitle (by simpa using hcurrent)
  cases queued with
  | true =>
    rw [if_pos hqueued] at hadmitted
    refine evict_bind_honest (fun found hfound => ?_) r
    refine subtitleToPlay_bind_honest (fun patch hpatch hnil => ?_)
    have hgood := goodPatch_of_subtitles hadmitted hpatch hnil
    exact ⟨hgood, play_found_honest platform world (hfound.assign hgood)⟩
  | false =>
    rw [if_neg (by simp [hqueued])] at hadmitted
    refine lookup_bind_honest world (fun found hfound hmem => ?_)
    have hsubtitles := hadmitted hqueued found hfound
    refine subtitleToPlay_bind_honest (fun patch hpatch hnil => ?_) r
    refine ⟨goodPatch_of_subtitles (fun htruthy => ?_) hpatch hnil, ?_⟩
    · unfold SubtitlesAdmit at hsubtitles
      rw [if_pos htruthy] at hsubtitles
      exact hsubtitles
    · exact play_found_honest platform world
        (lookedUp_assign_subtitles hmem hsubtitles hpatch hnil world.fresh)

/-! ### The handlers that copy what they are sent -/

/-- An update is copied whole, so it is up to the request. -/
theorem updateQueueItem_honest {video update : Value} (hadmitted : UpdateAdmits L r video update) :
    HonestAt L (updateQueueItem world video update) r := by
  refine .orThrow_bind (fun subtitleUrl hsubtitle => .check_bind (fun hcheck => ?_))
  refine .orThrow_bind (fun service hservice => .orThrow_bind (fun id hid => ?_))
  refine position_bind_honest (fun index item hindex hitem => ?_)
  have hends : subtitleUrl.isSome = true → endsWithVtt subtitleUrl = true := by
    intro hsome
    by_contra hno
    exact hcheck ⟨hsome, by simpa using hno⟩
  refine .modify_bind (fun h => h.mutate (fun held hhas hobject hlooked => ?_))
    (publishRoomEvent_honest world)
  refine ⟨hlooked.assign_object _, ?_, ?_⟩
  · exact hadmitted subtitleUrl service id index item hsubtitle hends hservice hid hindex hitem held hhas
      hobject
  · cases update with
    | none => cases hsubtitle
    | some patch =>
      have hget : (Json.obj patch.properties).get? "subtitleUrl" = subtitleUrl := by
        rw [Json.get?_properties (by decide)]
        unfold Json.read at hsubtitle
        split at hsubtitle
        · cases hsubtitle
        · cases hsubtitle
        · next v hv heq =>
          cases heq
          exact Option.some.inj hsubtitle
      rw [get?_assign hlooked.hasProperties]
      show subtitleOk ((Json.obj patch.properties).get? "subtitleUrl" <|> _) = true
      rw [hget]
      cases subtitleUrl with
      | none => exact hlooked.subtitle
      | some url => exact subtitleOk_of_endsWithVtt (hends rfl)

/-- What is moved was there. -/
theorem move_honest {fromIdx toIdx : Value} (hadmitted : MoveAdmits platform r fromIdx toIdx) :
    HonestAt L (move platform fromIdx toIdx) r := by
  refine .ite (fun _ hr _ => hr) (fun hsame => ?_)
  show HonestAt L (orThrow (Json.asNumber? platform.conversions fromIdx) >>= _) r
  refine .orThrow_bind (fun n hn => .check_bind (fun hfrom => .orThrow_bind (fun m hm => ?_)))
  refine .check_bind (fun hto => .modify (fun h => h.of_queue (fun place hplace => ?_)))
  have hlow : n.lt (.ofNat 0) = false := by simpa using fun hyes => hfrom (.inl hyes)
  have hhigh : n.ge (.ofNat r.queue.length) = false := by simpa using fun hyes => hfrom (.inr hyes)
  cases hqueue : r.queue with
  | nil =>
    rw [hqueue] at hhigh hto
    have hmlow : m.lt (.ofNat 0) = false := by simpa using fun hyes => hto (.inl hyes)
    have hmhigh : m.ge (.ofNat 0) = false := by simpa using fun hyes => hto (.inr hyes)
    have hnan := Number.eq_nan_of_not_lt hlow hhigh
    have hmnan := Number.eq_nan_of_not_lt hmlow hmhigh
    rw [hnan] at hn
    rw [hmnan] at hm
    exact absurd hm (hadmitted hqueue (by simpa using hsame) hn)
  | cons head tail =>
    have hpos : 0 < r.queue.length := by simp [hqueue]
    have hstart := Number.start_lt_of_not_lt hpos hlow hhigh
    have hremoved : (splice r.queue n (.ofNat 1) []).1.head? = r.queue[n.start r.queue.length]? := by
      rw [splice_one, List.getElem?_eq_getElem hstart]
      rfl
    rcases mem_of_mem_splice (.inr hplace) with hrest | hitem
    · rcases mem_of_mem_splice (.inr hrest) with hmem | hnil
      · exact h.queue place hmem
      · cases hnil
    · have hplaced : place = r.queue[n.start r.queue.length]?.join :=
        (List.mem_singleton.mp hitem).trans (congrArg Option.join hremoved)
      rw [hplaced, List.getElem?_eq_getElem hstart, Option.join_some]
      exact h.queue _ (List.getElem_mem hstart)

/-- What is inserted is up to the event. -/
theorem insert_honest {video : Json} {index : Value}
    (hadmitted : ∀ n, Json.asNumber? platform.conversions index = some n →
      ¬ (n.lt (.ofNat 0) = true ∨ (Number.ofNat r.queue.length).lt n = true) →
        LookedUp L ⟨world.fresh, video, []⟩) :
    HonestAt L (insert platform world video index) r := by
  show HonestAt L (orThrow (Json.asNumber? platform.conversions index) >>= _) r
  refine .orThrow_bind (fun n hn => .check_bind (fun hbounds => ?_))
  refine .modify (fun h => h.of_queue (fun place hplace => ?_))
  simp only [List.mem_append, List.mem_singleton] at hplace
  rcases hplace with (hplace | rfl) | hplace
  · exact h.queue place (List.mem_of_mem_take hplace)
  · exact ⟨_, rfl, hadmitted n hn hbounds⟩
  · exact h.queue place (List.mem_of_mem_drop hplace)

theorem additional_eq {event additional' value : Value} {name : String}
    (hadditional : Json.read event "additional" = some additional')
    (hvalue : Json.read additional' name = some value) : additional event name = value := by
  unfold additional
  rw [hadditional, Option.bind_some, hvalue, Option.join_some]

/-- What plays is put at the front of the queue. -/
theorem pushCurrent_onlyLookedUp (h : r.OnlyLookedUp L) : (pushCurrent r).OnlyLookedUp L := by
  unfold pushCurrent
  split
  · next current hcurrent =>
    refine h.of_queue (fun place hplace => ?_)
    rcases List.mem_cons.mp hplace with rfl | hplace
    · exact ⟨current, rfl, h.currentSource current hcurrent⟩
    · exact h.queue place hplace
  · exact h

/-- The video of the event plays. -/
theorem undoSkip_honest {event : Value}
    (hadmitted : ∀ video, additional event "video" = some video → Json.truthy (some video) = true →
      Json.truthy (additional event "prevPosition") = true →
        LookedUp L ⟨world.fresh, video, []⟩) :
    Honest L (undoSkip world event) := by
  refine .bind (.modify (fun _ h => pushCurrent_onlyLookedUp h)) (fun _ r => ?_)
  refine .orThrow_bind (fun fields hfields => .orThrow_bind (fun video hvideo => ?_))
  refine .orThrow_bind (fun prevPosition hprev => ?_)
  cases video with
  | none => exact fun hr _ => hr
  | some video =>
    cases prevPosition with
    | none => exact fun hr _ => hr
    | some prevPosition =>
      refine .when (fun hboth => .modify (fun h => ⟨?_, h.queue, h.prevQueue⟩))
      have hprev' := additional_eq hfields hprev
      rintro item ⟨⟩
      exact hadmitted video (additional_eq hfields hvideo) hboth.1 (hprev' ▸ hboth.2)

/-- The video of the event is inserted, unless the index is refused. -/
theorem undoRemove_honest {event : Value}
    (hadmitted : ∀ video, additional event "video" = some video → Json.truthy (some video) = true →
      ∀ n, Json.asNumber? platform.conversions (additional event "queueIdx") = some n →
        (additional event "queueIdx").isSome = true →
          ¬ (n.lt (.ofNat 0) = true ∨ (Number.ofNat r.queue.length).lt n = true) →
            LookedUp L ⟨world.fresh, video, []⟩) :
    HonestAt L (undoRemove platform world event) r := by
  refine .orThrow_bind (fun fields hfields => .orThrow_bind (fun video hvideo => ?_))
  refine .orThrow_bind (fun queueIdx hindex => ?_)
  cases video with
  | none => exact fun hr _ => hr
  | some video =>
    have hindex' := additional_eq hfields hindex
    refine .when (fun hboth => HonestAt.unawaited (insert_honest platform world ?_))
    intro n hn hbounds
    exact hadmitted video (additional_eq hfields hvideo) hboth.1 n (hindex' ▸ hn) (hindex' ▸ hboth.2) hbounds

/-- **An undo** is up to the event. -/
theorem undo_honest {event : Value} (hadmitted : UndoAdmits platform world L r event) :
    HonestAt L (undo platform world event) r := by
  refine .orThrow_bind (fun request hrequest => .orThrow_bind (fun type htype => ?_))
  have heq : eventType event = type := by
    unfold eventType
    rw [hrequest, Option.bind_some, htype, Option.join_some]
  refine .ite (fun _ => undoSeek_honest platform world event r) (fun _ => .ite (fun hskip => ?_) ?_)
  · refine undoSkip_honest world (fun video hvideo htruthy => ?_) r
    exact (hadmitted video hvideo htruthy).1 (heq ▸ hskip)
  intro _
  refine .ite (fun _ => undoAdd_honest world request r) (fun _ => .ite (fun hremove => ?_) ?_)
  · refine undoRemove_honest platform world (fun video hvideo htruthy => ?_)
    exact (hadmitted video hvideo htruthy).2 (heq ▸ hremove)
  · exact fun _ hr _ => hr

theorem processRequest_honest {request : Request}
    (hadmitted : RequestAdmits platform world L r request) :
    HonestAt L (processRequest platform world request) r := by
  cases request with
  | playback state => exact playback_honest platform world state r
  | skip => exact skip_honest platform world r
  | seek value => exact seek_honest platform world value r
  | add url video videos => exact addToQueue_honest world hadmitted
  | updateQueueItem video update => exact updateQueueItem_honest world hadmitted
  | remove video => exact removeFromQueue_honest world video r
  | order fromIdx toIdx => exact move_honest platform hadmitted
  | undo event => exact undo_honest platform world hadmitted
  | applySettings => exact applySettings_honest world r
  | playNow video => exact playNow_honest platform world hadmitted
  | shuffle => exact shuffle_honest world r
  | playbackSpeed speed => exact setPlaybackSpeed_honest platform world speed r
  | restoreQueue discard => exact restoreQueue_honest discard r
  | other => exact fun hr _ => hr

/-- **Every operation** that is admitted is honest. -/
theorem handler_honest {operation : Operation}
    (hadmitted : OperationAdmits platform world L r operation) :
    HonestAt L (operation.handler platform world) r := by
  cases operation with
  | request request => exact processRequest_honest platform world hadmitted
  | update => exact update_honest platform world r
  | updateSegments => exact updateSegments_honest platform world r

end Handlers

/-! ## Runs -/

section Runs

variable {platform : Platform}

theorem Room.OnlyLookedUp.mono {L L' : List Fields} {r : Room} (hL : ∀ video ∈ L, video ∈ L')
    (h : r.OnlyLookedUp L) : r.OnlyLookedUp L' := by
  refine ⟨fun item hitem => (h.currentSource item hitem).mono hL, fun place hplace => ?_,
    fun items hitems item hitem => (h.prevQueue items hitems item hitem).mono hL⟩
  obtain ⟨item, heq, hlooked⟩ := h.queue place hplace
  exact ⟨item, heq, hlooked.mono hL⟩

/-- What is admitted stays so when more was looked up. -/
theorem OperationAdmits.mono {L L' : List Fields} {world : World} {r : Room} {operation : Operation}
    (hL : ∀ video ∈ L, video ∈ L') (h : OperationAdmits platform world L r operation) :
    OperationAdmits platform world L' r operation := by
  cases operation with
  | update => trivial
  | updateSegments => trivial
  | request request =>
    cases request with
    | updateQueueItem video update =>
      intro subtitleUrl service id index item hsubtitle hends hservice hid hindex hitem held hhas hobject
      obtain ⟨video', hmem, hagrees⟩ :=
        h subtitleUrl service id index item hsubtitle hends hservice hid hindex hitem held hhas hobject
      exact ⟨video', hL video' hmem, hagrees⟩
    | undo event =>
      intro video hvideo htruthy
      obtain ⟨hskip, hremove⟩ := h video hvideo htruthy
      exact ⟨fun htype hprev => (hskip htype hprev).mono hL,
        fun htype n hn hsome hbounds => (hremove htype n hn hsome hbounds).mono hL⟩
    | add => exact h
    | order => exact h
    | playNow => exact h
    | _ => trivial

/-- **One step.** -/
theorem onlyLookedUp_step (s : State) (e : Event) (s' : State) (h : s.OnlyLookedUp)
    (hadmitted : Admits platform s e) (hstep : (machine platform).step s e = some s') :
    s'.OnlyLookedUp := by
  obtain ⟨-, rfl⟩ := step_eq_some hstep
  unfold State.OnlyLookedUp State.looked
  rw [List.filterMap_append]
  have hL : ∀ notes : List Note, ∀ video ∈ s.looked,
      video ∈ s.log.filterMap Note.video? ++ notes.filterMap Note.video? :=
    fun _ video hvideo => List.mem_append_left _ hvideo
  refine handler_honest platform e.world (hadmitted.mono (hL _)) (h.mono (hL _)) (fun video hvideo => ?_)
  refine List.mem_append_right _ (List.mem_filterMap.mpr ⟨.found video, ?_, rfl⟩)
  exact List.mem_append_left _ hvideo

/-- **When only looked-up media is in a room.** In a run whose requests are all admitted, whatever is
in the room at any time was looked up before, but for its extras. -/
theorem onlyLookedUp_throughout {s : State} (h : s.OnlyLookedUp) {es : List Event}
    (hadmitted : (machine platform).Along (Admits platform) s es) :
    (machine platform).Always State.OnlyLookedUp s es :=
  Machine.always_of_along onlyLookedUp_step h hadmitted

end Runs

/-! ### One room, from the start -/

theorem onlyLookedUp_init : init.OnlyLookedUp := ⟨nofun, nofun, nofun⟩

def song : Fields :=
  [("service", .str "youtube"), ("id", .str "abc"), ("title", .str "Song"), ("length", .num (.ofNat 60))]

/-- The song is there to be looked up. -/
def songWorld : World := { plainWorld 0 with getVideoInfo := fun _ _ => some song }

/-- The song is added. -/
def addSong : Event :=
  ⟨songWorld, .request (.add none (some (.obj [("service", .str "youtube"), ("id", .str "abc")])) none)⟩

theorem onlyLookedUp_throughout_addSong :
    (machine plainPlatform).Always State.OnlyLookedUp init [addSong] := by
  refine onlyLookedUp_throughout onlyLookedUp_init (fun s' _ => ⟨?_, trivial⟩)
  show (_ : Prop)
  intro service id subtitleUrl hservice hid hsubtitle _ video hvideo
  cases hsubtitle
  cases hvideo
  exact rfl

/-- An event that nobody published: a video was removed that the room never had. -/
def madeUp : Json :=
  .obj [("request", .obj [("type", .num (.ofNat 6))]),
    ("additional", .obj
      [("video", .obj [("service", .str "direct"), ("id", .str "anywhere"), ("title", .str "Song")]),
        ("queueIdx", .num (.ofNat 0))])]

/-- Nothing was looked up, and there is something in the queue. -/
theorem not_onlyLookedUp_of_nil {s : State} (hlooked : s.looked = []) (hqueue : s.room.queue ≠ []) :
    ¬ s.OnlyLookedUp := by
  intro h
  obtain ⟨place, hplace⟩ := List.exists_mem_of_ne_nil _ hqueue
  obtain ⟨item, -, hitem⟩ := h.queue place hplace
  obtain ⟨video, hmem, -⟩ := hitem.agrees
  rw [hlooked] at hmem
  cases hmem

/-- **Other media gets into a room.** What the event says was removed is put into the queue, though
nothing was ever looked up. -/
theorem not_onlyLookedUp_throughout :
    ∃ es, ¬ (machine plainPlatform).Always State.OnlyLookedUp init es := by
  refine ⟨[⟨plainWorld 0, .request (.undo (some madeUp))⟩], fun h => ?_⟩
  have hrun : ∃ s ∈ (machine plainPlatform).run init
      [⟨plainWorld 0, .request (.undo (some madeUp))⟩],
        s.looked.isEmpty = true ∧ s.room.queue.isEmpty = false := by
    decide +kernel
  obtain ⟨s, hs, hlooked, hqueue⟩ := hrun
  exact not_onlyLookedUp_of_nil (by simpa using hlooked) (by simpa using hqueue) (h.last hs)

end OpenTogetherTube.Server.Untyped
