import OpenTogetherTube.Server.Playhead

/-!
# Positions and speeds that playback can go on from

A seek, a speed, and what an event says that is undone are stored as they are, and so is the start of
the next video. `Accepts` says when an operation leaves a usable room usable and throws nothing
because of it: whatever is stored is such a number, and what is counted or added up stays in the
range of numbers. `numeric_throughout_iff` is that in every run, and `not_numeric_throughout` a run in
which it is not so.
-/

namespace OpenTogetherTube.Server.Untyped

open OpenTogetherTube.Common OpenTogetherTube.Lib

namespace Room

/-- Playback was started before. -/
def Started (r : Room) (now : Time) : Prop := ∀ start, r.playbackStart = some start → start ≤ now

/-- The position, as a number. -/
def positionValue (r : Room) : ℚ :=
  match r.playbackPosition with
  | .num (.finite q) => q
  | _ => 0

/-- The speed, as a number. -/
def speedValue (r : Room) : ℚ :=
  match r.playbackSpeed with
  | some (.num (.finite q)) => q
  | _ => 1

/-- The seconds of the video that were played since playback was started. -/
def secondsPlayed (r : Room) (now : Time) : ℚ := r.elapsed now * r.speedValue

end Room

/-! ## Conditions -/

section Conditions

variable (platform : Platform) (world : World) (r : Room)

/-- The counter takes the current source's service. -/
def Labelled : Prop := platform.labels (r.currentSource.bind (·.get? "service")) = true

/-- The seconds played are no overflow. -/
def Counts : Prop := Number.InRange (r.secondsPlayed world.now)

/-- Nor is the position that playback has come to. -/
def Flushes : Prop :=
  Counts world r ∧ (r.playbackStart.isSome = true ∧ r.isPlaying = true →
    Number.InRange (r.positionValue + r.secondsPlayed world.now))

/-- Where the next video starts. -/
def nextStart : Json :=
  Json.nullish (r.queue.head?.join.bind (·.get? "startAt")) (.num (.ofNat 0))

def DequeueAccepts : Prop :=
  match r.currentSource with
  | none => isPosition (nextStart r) = true
  | some _ =>
    Labelled platform r → Counts world r ∧
      (Json.same r.queueMode (some (.str "dj")) = true ∨ isPosition (nextStart r) = true)

/-- A value that a seek goes to. -/
def SeekAccepts (value : Value) : Prop :=
  match value with
  | none => True
  | some value =>
    value.isNull = false → Labelled platform r → Counts world r ∧ isPosition value = true

def UndoAccepts (event : Value) : Prop :=
  if Json.isNumber (eventType event) 4 then
    Json.truthy (additional event "prevPosition") = true →
      SeekAccepts platform world r (additional event "prevPosition")
  else if Json.isNumber (eventType event) 3 then
    Json.truthy (additional event "video") = true →
      Json.truthy (additional event "prevPosition") = true →
        (additional event "prevPosition").any isPosition = true
  else True

def RequestAccepts : Request → Prop
  | .playback state =>
    Json.truthy state = false → r.isPlaying = true → Labelled platform r → Flushes world r
  | .skip => r.currentSource.isSome = true → world.skips = true → DequeueAccepts platform world r
  | .seek value => SeekAccepts platform world r value
  | .undo event => UndoAccepts platform world r event
  | .playbackSpeed speed => Labelled platform r → Flushes world r ∧ isSpeed speed = true
  | _ => True

/-- The tick plays the next video. -/
def Dequeues : Prop :=
  match ((ended platform world).run r).result with
  | .ok past => past = true ∨ (r.currentSource.isNone = true ∧ r.queue.isEmpty = false)
  | .error _ => False

def OperationAccepts : Operation → Prop
  | .request request => RequestAccepts platform world r request
  | .update => Dequeues platform world r → DequeueAccepts platform world r
  | .updateSegments => True

instance : Decidable (Labelled platform r) := inferInstanceAs (Decidable (_ = true))

instance : Decidable (Counts world r) := inferInstanceAs (Decidable (Number.InRange _))

instance : Decidable (Flushes world r) := inferInstanceAs (Decidable (_ ∧ (_ → _)))

instance : Decidable (DequeueAccepts platform world r) := by
  unfold DequeueAccepts
  cases r.currentSource <;> infer_instance

instance (value : Value) : Decidable (SeekAccepts platform world r value) := by
  unfold SeekAccepts
  cases value <;> infer_instance

instance (event : Value) : Decidable (UndoAccepts platform world r event) := by
  unfold UndoAccepts
  infer_instance

instance (request : Request) : Decidable (RequestAccepts platform world r request) := by
  unfold RequestAccepts
  cases request <;> infer_instance

instance : Decidable (Dequeues platform world r) := by
  unfold Dequeues
  cases ((ended platform world).run r).result <;> infer_instance

instance (operation : Operation) : Decidable (OperationAccepts platform world r operation) := by
  unfold OperationAccepts
  cases operation <;> infer_instance

end Conditions

/-- What is stored is a number as it should be, and nothing overflows. -/
def Accepts (platform : Platform) (s : State) (e : Event) : Prop :=
  OperationAccepts platform e.world s.room e.operation

instance (platform : Platform) (s : State) (e : Event) : Decidable (Accepts platform s e) :=
  inferInstanceAs (Decidable (OperationAccepts _ _ _ _))

/-! ## Histories -/

/-- A room with a usable position and speed, and a history in which they never made anything throw. -/
structure State.Numeric (s : State) : Prop where
  usable : s.room.Usable
  unblamed : ∀ note ∈ s.log, note.blames = false

instance (s : State) : Decidable s.Numeric :=
  decidable_of_iff (s.room.Usable ∧ ∀ note ∈ s.log, note.blames = false)
    ⟨fun h => ⟨h.1, h.2⟩, fun h => ⟨h.usable, h.unblamed⟩⟩

/-- The clock shows no time before the start of playback. -/
def State.Timed (s : State) : Prop := s.room.Started s.clock

/-- The history goes on as it was exactly if the outcome is fine. -/
theorem numeric_append_iff {log : List Note} (hlog : ∀ note ∈ log, note.blames = false)
    (o : Outcome Room Note Fault Unit) (now : Time) :
    State.Numeric ⟨o.state, now, log ++ (o.published ++ thrown o.result)⟩ ↔ Fine Room.Usable o := by
  obtain ⟨r, notes, result⟩ := o
  cases result with
  | ok a =>
    rw [fine_ok]
    constructor
    · rintro ⟨husable, hnotes⟩
      exact ⟨husable, fun note hnote => hnotes note (by simp [hnote])⟩
    · rintro ⟨husable, hnotes⟩
      refine ⟨husable, fun note hnote => ?_⟩
      simp only [thrown, List.append_nil, List.mem_append] at hnote
      exact hnote.elim (hlog note) (hnotes note)
  | error fault =>
    rw [fine_error]
    constructor
    · rintro ⟨husable, hnotes⟩
      refine ⟨husable, fun note hnote => hnotes note (by simp [hnote]), fun hfault => ?_⟩
      have hblames := hnotes (.thrown fault) (by simp [thrown])
      rw [hfault] at hblames
      cases hblames
    · rintro ⟨husable, hnotes, hfault⟩
      refine ⟨husable, fun note hnote => ?_⟩
      simp only [thrown, List.mem_append, List.mem_singleton] at hnote
      rcases hnote with hnote | hnote | rfl
      · exact hlog note hnote
      · exact hnotes note hnote
      · cases fault with
        | playback => exact absurd rfl hfault
        | other => rfl

/-! ## What a usable room counts -/

section Usable

variable (platform : Platform) {world : World} {r : Room}

/-- A usable position is a number, and it is not negative. -/
theorem Room.Usable.position_eq (h : r.Usable) :
    r.playbackPosition = .num (.finite r.positionValue) ∧ 0 ≤ r.positionValue := by
  have hposition := h.position
  unfold Room.positionValue
  unfold isPosition at hposition
  split at hposition
  · next n heq =>
    cases n with
    | nan => cases hposition
    | infinite => cases hposition
    | finite q =>
      rw [heq]
      exact ⟨rfl, of_decide_eq_true hposition⟩
  · cases hposition

/-- A usable speed is a number, and it is positive. -/
theorem Room.Usable.speed_eq (h : r.Usable) :
    r.playbackSpeed = some (.num (.finite r.speedValue)) ∧ 0 < r.speedValue := by
  have hspeed := h.speed
  unfold Room.speedValue
  unfold isSpeed at hspeed
  split at hspeed
  · next q heq =>
    rw [heq]
    exact ⟨rfl, of_decide_eq_true hspeed⟩
  · cases hspeed

/-- The clock does not go back. -/
theorem elapsed_nonneg {now : Time} (h : r.Started now) : 0 ≤ r.elapsed now := by
  unfold Room.elapsed
  split
  · exact le_rfl
  · next start heq =>
    have hle : start ≤ now := h start heq
    have hdiff : (0 : ℚ) ≤ ((now - start : Int) : ℚ) := by exact_mod_cast Int.sub_nonneg.mpr hle
    exact div_nonneg hdiff (by norm_num)

/-- What was played in the meantime is not negative. -/
theorem secondsPlayed_nonneg {now : Time} (h : r.Usable) (hstart : r.Started now) :
    0 ≤ r.secondsPlayed now := mul_nonneg (elapsed_nonneg hstart) h.speed_eq.2.le

/-- With a usable speed the seconds are found, and they are rounded, or overflow. -/
theorem calcDurationFromPlaybackStart_of_usable (h : r.Usable) (now : Time) :
    r.calcDurationFromPlaybackStart platform now = some (.round (r.secondsPlayed now)) := by
  have hspeed : r.speed? platform = some (.finite r.speedValue) := by
    unfold Room.speed?
    rw [h.speed_eq.1]
    rfl
  unfold Room.calcDurationFromPlaybackStart
  cases hstart : r.playbackStart with
  | none =>
    have hzero : r.secondsPlayed now = 0 := by
      unfold Room.secondsPlayed Room.elapsed
      rw [hstart]
      exact zero_mul _
    rw [hzero, Number.round_of_inRange le_rfl Number.inRange_zero]
    rfl
  | some start =>
    rw [hspeed]
    rfl

/-- The position that playback has come to is a number, and in the range it is what was added up. -/
theorem realPlaybackPosition_of_usable (h : r.Usable) (now : Time) :
    r.realPlaybackPosition platform now =
      some (if r.playbackStart.isSome = true ∧ r.isPlaying = true then
        .num ((Number.finite r.positionValue).add (.round (r.secondsPlayed now)))
      else r.playbackPosition) := by
  unfold Room.realPlaybackPosition
  rw [calcDurationFromPlaybackStart_of_usable platform h, h.position_eq.1]
  split <;> rfl

/-- A usable room has a position at any time. -/
theorem realPlaybackPosition_isSome (h : r.Usable) (now : Time) :
    (r.realPlaybackPosition platform now).isSome = true := by
  rw [realPlaybackPosition_of_usable platform h]
  rfl

/-- And it is a number. -/
theorem exists_realPlaybackPosition (h : r.Usable) (now : Time) :
    ∃ n, r.realPlaybackPosition platform now = some (.num n) := by
  rw [realPlaybackPosition_of_usable platform h]
  split
  · exact ⟨_, rfl⟩
  · exact ⟨.finite r.positionValue, by rw [h.position_eq.1]⟩

/-- The counter takes what did not overflow. -/
theorem counts_round (q : ℚ) (hq : 0 ≤ q) :
    platform.counts (.round q) = true ↔ Number.InRange q := by
  have hnan : Number.round q ≠ .nan := by
    unfold Number.round
    split
    · nofun
    split <;> nofun
  rw [platform.counts_eq _ hnan]
  exact Number.isNonneg_round hq

/-- The seconds played are counted, unless the counter refuses the label or there is an overflow. -/
theorem run_countSecondsWatched (h : r.Usable) (hstart : r.Started world.now) :
    (countSecondsWatched platform world).run r =
      if platform.labels (r.currentSource.bind (·.get? "service")) = false then
        ⟨r, [], .error .other⟩
      else if Number.InRange (r.secondsPlayed world.now) then ⟨r, [], .ok ()⟩
      else ⟨r, [], .error .playback⟩ := by
  have hcounts := counts_round platform _ (secondsPlayed_nonneg h hstart)
  simp only [countSecondsWatched, Handler.run_bind, Handler.run_get, Outcome.andThen_ok, label,
    calcDurationFromPlaybackStart_of_usable platform h, playing, Handler.run_when]
  by_cases hlabel : platform.labels (r.currentSource.bind (·.get? "service")) = false
  · simp [hlabel]
  · by_cases hrange : Number.InRange (r.secondsPlayed world.now)
    · simp [hlabel, hrange, Handler.run_when, hcounts.mpr hrange]
    · have hrefused : platform.counts (.round (r.secondsPlayed world.now)) = false := by
        simpa [hrange] using hcounts
      simp [hlabel, hrange, Handler.run_when, hrefused]

/-- What comes after the count matters if there is one. -/
theorem fine_countSecondsWatched_bind {β : Type} {k : Unit → RoomM β} (h : r.Usable)
    (hstart : r.Started world.now) :
    Fine Room.Usable ((countSecondsWatched platform world >>= k).run r) ↔
      (Labelled platform r → Counts world r ∧ Fine Room.Usable ((k ()).run r)) := by
  rw [Handler.run_bind, run_countSecondsWatched platform h hstart]
  unfold Labelled Counts
  by_cases hlabel : platform.labels (r.currentSource.bind (·.get? "service")) = false
  · simp [hlabel, h]
  · by_cases hrange : Number.InRange (r.secondsPlayed world.now) <;> simp [hlabel, hrange, h]

/-! ### One operation -/

/-- Where what has been published so far is nothing. -/
theorem fine_modify_bind {β : Type} {f : Room → Room} {k : Unit → RoomM β} :
    Fine Room.Usable ((Handler.modify f >>= k).run r) ↔ Fine Room.Usable ((k ()).run (f r)) := by
  rw [Handler.run_bind, Handler.run_modify, andThen_ok_nil]

/-- What is found goes on. -/
theorem fine_playing_bind {α β : Type} {I : Room → Prop} {x : Option α} {a : α} {k : α → RoomM β}
    (hx : x = some a) : Fine I ((playing x >>= k).run r) ↔ Fine I ((k a).run r) := by
  rw [hx, Handler.run_bind]
  show Fine I (Outcome.andThen ⟨r, [], .ok a⟩ k) ↔ _
  rw [andThen_ok_nil]

/-- A seek replaces the position, and leaves the speed. -/
theorem usable_seek_iff (h : r.Usable) (value : Json) (start : Option Time) :
    Room.Usable { r with playbackPosition := value, playbackStart := start } ↔
      isPosition value = true :=
  ⟨fun hr => hr.position, fun hvalue => ⟨hvalue, h.speed⟩⟩

/-- **A seek** is fine if the seconds before it count, and the value is a position. -/
theorem fine_seekRaw (h : r.Usable) (hstart : r.Started world.now) (value : Json) :
    Fine Room.Usable ((seekRaw platform world value).run r) ↔
      (Labelled platform r → Counts world r ∧ isPosition value = true) := by
  unfold seekRaw
  rw [fine_countSecondsWatched_bind platform h hstart, Handler.run_modify, fine_ok,
    usable_seek_iff h]
  simp

/-- The segments can be searched for a usable position. -/
theorem getSegmentForTime_isSome (h : r.Usable) :
    (r.getSegmentForTime platform r.playbackPosition).isSome = true := by
  rw [h.position_eq.1]
  unfold Room.getSegmentForTime
  split <;> rfl

theorem keepSegment_calm : Calm (keepSegment platform) := by
  refine .get_bind (fun r => Calm.playing_bind (getSegmentForTime_isSome platform) (fun _ => ?_))
  exact .modify (fun _ => rfl)

/-- Reading the old position, the event and the segments make no difference to a seek. -/
theorem fine_seek (h : r.Usable) (hstart : r.Started world.now) (value : Value) :
    Fine Room.Usable ((seek platform world value).run r) ↔ SeekAccepts platform world r value := by
  cases value with
  | none => exact iff_of_true (Safe.pure () r h) trivial
  | some value =>
    show Fine Room.Usable ((Handler.when (value.isNull = false) _).run r) ↔ (_ → _)
    rw [Handler.run_when]
    split
    · next hvalue =>
      obtain ⟨n, hreal⟩ := exists_realPlaybackPosition platform h world.now
      have hrest : ∀ _ : Unit, Calm (publishRoomEvent world >>= fun _ => keepSegment platform) :=
        fun _ => .bind (publishRoomEvent_calm world) (fun _ => keepSegment_calm platform)
      show Fine Room.Usable ((playing (r.realPlaybackPosition platform world.now) >>= _).run r) ↔ _
      rw [fine_playing_bind hreal, fine_bind_calm hrest, fine_seekRaw platform h hstart]
      exact ⟨fun haccepts _ => haccepts, fun haccepts => haccepts hvalue⟩
    · next hvalue => exact iff_of_true (Safe.pure () r h) (fun hno => absurd hno hvalue)

/-- What the position is after it was flushed. -/
def flushed (world : World) (r : Room) : Json :=
  if r.playbackStart.isSome = true ∧ r.isPlaying = true then
    .num ((Number.finite r.positionValue).add (.round (r.secondsPlayed world.now)))
  else r.playbackPosition

/-- The flushed position is one as long as the sum does not overflow. -/
theorem isPosition_flushed_iff (h : r.Usable) (hstart : r.Started world.now)
    (hcounts : Counts world r) :
    isPosition (flushed world r) = true ↔ Flushes world r := by
  have hseconds := secondsPlayed_nonneg h hstart
  unfold flushed Flushes
  by_cases hplaying : r.playbackStart.isSome = true ∧ r.isPlaying = true
  · rw [if_pos hplaying, Number.round_of_inRange hseconds hcounts]
    show (Number.round _).isNonneg = true ↔ _
    rw [Number.isNonneg_round (add_nonneg h.position_eq.2 hseconds)]
    exact ⟨fun hrange => ⟨hcounts, fun _ => hrange⟩, fun hflushes => hflushes.2 hplaying⟩
  · rw [if_neg hplaying]
    exact iff_of_true h.position ⟨hcounts, fun hyes => absurd hyes hplaying⟩

/-- What follows a flush starts from the flushed position, now. -/
theorem fine_flushPlaybackPosition_bind {β : Type} {k : Unit → RoomM β} (h : r.Usable)
    (hstart : r.Started world.now) :
    Fine Room.Usable ((flushPlaybackPosition platform world >>= k).run r) ↔
      (Labelled platform r → Counts world r ∧ Fine Room.Usable ((k ()).run
        { r with playbackPosition := flushed world r, playbackStart := some world.now })) := by
  unfold flushPlaybackPosition
  rw [Handler.bind_assoc, fine_countSecondsWatched_bind platform h hstart]
  have hreal := realPlaybackPosition_of_usable platform h world.now
  show (_ → _ ∧ Fine Room.Usable (((playing (r.realPlaybackPosition platform world.now) >>= _) >>= k).run r)) ↔ _
  rw [Handler.bind_assoc, fine_playing_bind hreal, fine_modify_bind]
  rfl

/-- **A pause** is fine if the position can be flushed. -/
theorem fine_pause (h : r.Usable) (hstart : r.Started world.now) :
    Fine Room.Usable ((pause platform world).run r) ↔
      (r.isPlaying = true → Labelled platform r → Flushes world r) := by
  show Fine Room.Usable ((Handler.when (r.isPlaying = true) _).run r) ↔ _
  rw [Handler.run_when]
  split
  · next hplaying =>
    rw [fine_flushPlaybackPosition_bind platform h hstart, Handler.run_modify, fine_ok]
    constructor
    · intro hfine _ hlabelled
      obtain ⟨hcounts, husable, -⟩ := hfine hlabelled
      exact (isPosition_flushed_iff h hstart hcounts).mp husable.position
    · intro hflushes hlabelled
      have hcounts := (hflushes hplaying hlabelled).1
      have hposition := (isPosition_flushed_iff h hstart hcounts).mpr (hflushes hplaying hlabelled)
      exact ⟨hcounts, ⟨hposition, h.speed⟩, nofun⟩
  · next hplaying => exact iff_of_true (Safe.pure () r h) (fun hyes => absurd hyes hplaying)

/-- Playing is always fine. -/
theorem fine_playback (h : r.Usable) (hstart : r.Started world.now) (state : Value) :
    Fine Room.Usable ((playback platform world state).run r) ↔
      RequestAccepts platform world r (.playback state) := by
  unfold playback
  rw [fine_bind_calm (fun _ => publishRoomEvent_calm world)]
  unfold playOrPause RequestAccepts
  by_cases hstate : Json.truthy state = true
  · rw [if_pos hstate]
    refine iff_of_true (play_safe world r h) (fun hno => ?_)
    rw [hstate] at hno
    cases hno
  · rw [if_neg hstate, fine_pause platform h hstart]
    exact ⟨fun hflushes _ => hflushes, fun hflushes => hflushes (by simpa using hstate)⟩

/-- **A new speed** is stored as it is, after the position was flushed at the old one. -/
theorem fine_setPlaybackSpeed (h : r.Usable) (hstart : r.Started world.now) (speed : Value) :
    Fine Room.Usable ((setPlaybackSpeed platform world speed).run r) ↔
      RequestAccepts platform world r (.playbackSpeed speed) := by
  unfold setPlaybackSpeed RequestAccepts
  rw [fine_flushPlaybackPosition_bind platform h hstart, Handler.run_modify, fine_ok]
  constructor
  · intro hfine hlabelled
    obtain ⟨hcounts, husable, -⟩ := hfine hlabelled
    exact ⟨(isPosition_flushed_iff h hstart hcounts).mp husable.position, husable.speed⟩
  · intro haccepts hlabelled
    obtain ⟨hflushes, hspeed⟩ := haccepts hlabelled
    have hposition := (isPosition_flushed_iff h hstart hflushes.1).mpr hflushes
    exact ⟨hflushes.1, ⟨hposition, hspeed⟩, nofun⟩

/-! ### The next video -/

/-- The end of `dequeueNext` leaves the position, and a speed of 1 if it comes to that. -/
theorem fine_afterAdvance (hspeed : isSpeed r.playbackSpeed = true) :
    Fine Room.Usable ((afterAdvance platform).run r) ↔ isPosition r.playbackPosition = true := by
  show Fine Room.Usable ((Handler.when _ _ >>= fun _ => Handler.modify _).run r) ↔ _
  rw [Handler.run_bind, Handler.run_when]
  split
  · rw [Handler.run_throw, Outcome.andThen_error, fine_error]
    exact ⟨fun h => h.1.position, fun h => ⟨⟨h, hspeed⟩, nofun, nofun⟩⟩
  · rw [andThen_ok_nil, Handler.run_modify, fine_ok]
    exact ⟨fun h => h.1.position, fun h => ⟨⟨h, rfl⟩, nofun⟩⟩

/-- The next video starts where its item says, or the end of the queue at 0. -/
theorem isPosition_advance_iff (h : r.Usable) :
    isPosition (advance world r).playbackPosition = true ↔ isPosition (nextStart r) = true := by
  unfold advance nextStart
  cases hqueue : r.queue with
  | cons item queue => exact Iff.rfl
  | nil =>
    refine iff_of_true ?_ rfl
    show isPosition (if r.currentSource.isSome = true then _ else r).playbackPosition = true
    split
    · rfl
    · exact h.position

/-- Playing the next video is fine if it starts at a position. -/
theorem fine_playNext (h : r.Usable) :
    Fine Room.Usable ((playNext platform world).run r) ↔ isPosition (nextStart r) = true := by
  have hspeed : (advance world r).playbackSpeed = r.playbackSpeed := by
    unfold advance
    split
    · rfl
    · split <;> rfl
  unfold playNext
  rw [fine_modify_bind, fine_afterAdvance platform (hspeed ▸ h.speed), isPosition_advance_iff h]

/-- A copy that was trimmed has no start. -/
theorem clearQueueItemTrim_startAt (object : ObjectId) (item : Item) :
    (item.clearQueueItemTrim object).get? "startAt" = none := by
  have hfind : ∀ fields : Fields, (Json.obj (fields.filter
      (fun field => field.1 ≠ "startAt" ∧ field.1 ≠ "endAt"))).get? "startAt" = none := by
    intro fields
    show Option.map _ (List.find? _ _) = none
    rw [Option.map_eq_none_iff, List.find?_eq_none]
    intro field hfield
    have hkept := (List.mem_filter.mp (List.mem_reverse.mp hfield)).2
    simp_all
  show (none <|> _) = none
  exact hfind _

/-- What is put at the end of the queue is next only if the queue is empty, and starts at 0 then. -/
theorem nextStart_append (object : ObjectId) (current : Item) :
    isPosition (nextStart
        { r with queue := r.queue ++ [some (current.clearQueueItemTrim object)] }) = true ↔
      isPosition (nextStart r) = true := by
  unfold nextStart
  cases hqueue : r.queue with
  | nil =>
    refine iff_of_true ?_ rfl
    show isPosition (Json.nullish ((current.clearQueueItemTrim object).get? "startAt") _) = true
    rw [clearQueueItemTrim_startAt]
    rfl
  | cons item queue => exact Iff.rfl

/-- **The next video** is fine if the seconds count and, but for a dj, it starts at a position. -/
theorem fine_dequeueNext (h : r.Usable) (hstart : r.Started world.now) :
    Fine Room.Usable ((dequeueNext platform world).run r) ↔ DequeueAccepts platform world r := by
  unfold dequeueNext DequeueAccepts
  rw [Handler.run_bind, Handler.run_get, andThen_ok_nil]
  cases hcurrent : r.currentSource with
  | none => exact fine_playNext platform h
  | some current =>
    show Fine Room.Usable ((countSecondsWatched platform world >>= _).run r) ↔ _
    rw [fine_countSecondsWatched_bind platform h hstart]
    by_cases hdj : Json.same r.queueMode (some (.str "dj")) = true
    · rw [if_pos hdj, Handler.run_modify, fine_ok]
      have hrestarted : (restart world current r).Usable := ⟨rfl, h.speed⟩
      exact ⟨fun haccepts hlabelled => ⟨(haccepts hlabelled).1, .inl hdj⟩,
        fun haccepts hlabelled => ⟨(haccepts hlabelled).1, hrestarted, nofun⟩⟩
    · rw [if_neg hdj]
      have hnext : Fine Room.Usable ((Handler.when (Json.same r.queueMode (some (.str "loop")) = true)
          (Handler.modify (fun r : Room =>
            { r with queue := r.queue ++ [some (current.clearQueueItemTrim world.fresh)] })) >>=
          fun _ => playNext platform world).run r) ↔ isPosition (nextStart r) = true := by
        by_cases hloop : Json.same r.queueMode (some (.str "loop")) = true
        · have hqueued : Room.Usable
              { r with queue := r.queue ++ [some (current.clearQueueItemTrim world.fresh)] } :=
            ⟨h.position, h.speed⟩
          rw [Handler.when, if_pos hloop, fine_modify_bind, fine_playNext platform hqueued,
            nextStart_append]
        · rw [Handler.when, if_neg hloop]
          exact fine_playNext platform h
      refine forall_congr' (fun _ => and_congr_right (fun _ => ?_))
      rw [hnext]
      exact ⟨.inr, fun haccepts => haccepts.resolve_left hdj⟩

/-- A skip that comes to nothing is fine, and any other one is as fine as the next video. -/
theorem fine_skip (h : r.Usable) (hstart : r.Started world.now) :
    Fine Room.Usable ((skip platform world).run r) ↔ RequestAccepts platform world r .skip := by
  show Fine Room.Usable ((Handler.when _ _).run r) ↔ (_ → _ → _)
  rw [Handler.run_when]
  split
  · next hskips =>
    obtain ⟨n, hreal⟩ := exists_realPlaybackPosition platform h world.now
    have hrest : ∀ _ : Unit, Calm (publishRoomEvent world >>= fun _ =>
        Handler.modify (fun r : Room => { r with videoSegments := [] })) :=
      fun _ => .bind (publishRoomEvent_calm world) (fun _ => .modify (fun _ => rfl))
    rw [fine_playing_bind hreal, Handler.run_bind, label, Handler.run_when]
    split
    · next hlabel =>
      obtain ⟨current, hcurrent⟩ := Option.isSome_iff_exists.mp hskips.1
      refine iff_of_true (fine_error.mpr ⟨h, nofun, nofun⟩) (fun _ _ => ?_)
      unfold DequeueAccepts
      rw [hcurrent]
      intro hlabelled
      exact absurd (hlabel.symm.trans hlabelled) Bool.false_ne_true
    · rw [Outcome.andThen_ok, List.nil_append]
      show Fine Room.Usable ((unawaited (dequeueNext platform world) >>= _).run r) ↔ _
      rw [fine_bind_calm hrest, fine_unawaited, fine_dequeueNext platform h hstart]
      exact ⟨fun haccepts _ _ => haccepts, fun haccepts => haccepts hskips.1 hskips.2⟩
  · next hskips =>
    exact iff_of_true (Safe.pure () r h) (fun hcurrent hvoted => absurd ⟨hcurrent, hvoted⟩ hskips)

/-! ### Update ticks -/

/-- The end of a video may be anything, and an error there is of another kind. -/
theorem run_isOver (h : r.Usable) (current : Item) :
    ∃ past : Option Bool, (isOver platform world r current).run r =
      ⟨r, [], past.elim (.error .other) .ok⟩ := by
  obtain ⟨n, hreal⟩ := exists_realPlaybackPosition platform h world.now
  refine ⟨Json.gt? platform.conversions (.num n)
    (Json.nullish (current.get? "endAt") (Json.nullish (current.get? "length") (.num (.ofNat 0)))), ?_⟩
  unfold isOver
  rw [hreal]
  rfl

/-- Whether the current source is over is found without a change, and nothing that is usable throws. -/
theorem run_ended (h : r.Usable) :
    (r.currentSource = none ∧ (ended platform world).run r = ⟨r, [], .ok false⟩) ∨
      (r.currentSource.isSome = true ∧ ∃ result, (ended platform world).run r = ⟨r, [], result⟩ ∧
        result ≠ .error .playback) := by
  unfold ended
  rw [Handler.run_bind, Handler.run_get, andThen_ok_nil]
  cases hcurrent : r.currentSource with
  | none => exact .inl ⟨rfl, rfl⟩
  | some current =>
    refine .inr ⟨rfl, ?_⟩
    show ∃ result, Handler.run (if r.isPlaying = true then _ else _) r = _ ∧ _
    split
    · obtain ⟨past, hover⟩ := run_isOver platform h current
      refine ⟨_, hover, ?_⟩
      cases past <;> nofun
    · exact ⟨.ok false, rfl, nofun⟩

theorem sortQueue_calm : Calm (sortQueue world) := by
  refine .get_bind (fun r => Calm.when (.bind (.orThrow _) (fun _ => .modify ?_)) r)
  exact fun _ => rfl

/-- The label is read before the next video; if it is refused, the counter would refuse it too. -/
theorem fine_dequeueIf (h : r.Usable) (hstart : r.Started world.now) {past : Bool}
    (hover : past = true → r.currentSource.isSome = true) :
    Fine Room.Usable ((dequeueIf platform world past).run r) ↔
      (past = true ∨ (r.currentSource.isNone = true ∧ r.queue.isEmpty = false) →
        DequeueAccepts platform world r) := by
  have hcases : Fine Room.Usable ((dequeueIf platform world past).run r) ↔
      Fine Room.Usable ((Handler.when (past = true) (label platform r.currentSource) >>= fun _ =>
        Handler.when (past = true ∨ (r.currentSource.isNone = true ∧ r.queue.isEmpty = false))
          (dequeueNext platform world)).run r) := Iff.rfl
  have hdequeue : Fine Room.Usable ((Handler.when
      (past = true ∨ (r.currentSource.isNone = true ∧ r.queue.isEmpty = false))
        (dequeueNext platform world)).run r) ↔
      (past = true ∨ (r.currentSource.isNone = true ∧ r.queue.isEmpty = false) →
        DequeueAccepts platform world r) := by
    rw [Handler.run_when]
    split
    · next hyes =>
      rw [fine_dequeueNext platform h hstart]
      exact ⟨fun haccepts _ => haccepts, fun haccepts => haccepts hyes⟩
    · next hno => exact iff_of_true (Safe.pure () r h) (fun hyes => absurd hyes hno)
  rw [hcases, Handler.run_bind, Handler.run_when]
  split
  · next hyes =>
    rw [label, Handler.run_when]
    split
    · next hlabel =>
      obtain ⟨current, hcurrent⟩ := Option.isSome_iff_exists.mp (hover hyes)
      refine iff_of_true (fine_error.mpr ⟨h, nofun, nofun⟩) (fun _ => ?_)
      unfold DequeueAccepts
      rw [hcurrent]
      exact fun hlabelled => absurd (hlabel.symm.trans hlabelled) Bool.false_ne_true
    · exact hdequeue
  · exact hdequeue

/-- **An update** is fine if it does not come to the next video, or that is fine. -/
theorem fine_update (h : r.Usable) (hstart : r.Started world.now) :
    Fine Room.Usable ((update platform world).run r) ↔
      (Dequeues platform world r → DequeueAccepts platform world r) := by
  have hrest : ∀ past, Fine Room.Usable ((dequeueIf platform world past >>= fun _ =>
      Handler.when (world.keptAlive = false) (Handler.throw .other) >>= fun _ =>
        sortQueue world).run r) ↔ Fine Room.Usable ((dequeueIf platform world past).run r) :=
    fun past => fine_bind_calm (fun _ => .bind (.when .throw) (fun _ => sortQueue_calm))
  have hrun : (update platform world).run r = ((ended platform world).run r).andThen (fun past =>
      dequeueIf platform world past >>= fun _ =>
        Handler.when (world.keptAlive = false) (Handler.throw .other) >>= fun _ =>
          sortQueue world) := rfl
  unfold Dequeues
  rw [hrun]
  rcases run_ended platform h with ⟨hcurrent, hended⟩ | ⟨hcurrent, result, hended, hresult⟩
  · rw [hended, andThen_ok_nil, hrest, fine_dequeueIf platform h hstart (fun hno => absurd hno Bool.false_ne_true)]
  · rw [hended]
    cases result with
    | error fault =>
      exact iff_of_true (fine_error.mpr ⟨h, nofun, fun heq => hresult (by rw [heq])⟩) nofun
    | ok past =>
      rw [andThen_ok_nil, hrest, fine_dequeueIf platform h hstart (fun _ => hcurrent)]

/-- The segment that playback is in ends behind the position, and what was played is counted. -/
theorem counts_of_segment (h : r.Usable) (hstart : r.Started world.now) (hplaying : r.isPlaying = true)
    {n : Number} (hreal : r.realPlaybackPosition platform world.now = some (.num n)) {q : ℚ}
    (hend : (Number.finite q).ge n = true) : Counts world r ∧ 0 ≤ q := by
  obtain ⟨hposition, hnonneg⟩ := h.position_eq
  have hseconds := secondsPlayed_nonneg h hstart
  rw [realPlaybackPosition_of_usable platform h] at hreal
  by_cases hstarted : r.playbackStart.isSome = true
  · rw [if_pos ⟨hstarted, hplaying⟩] at hreal
    cases hreal
    obtain ⟨hcounts, hle⟩ := Number.le_of_ge_add hnonneg hseconds hend
    exact ⟨hcounts, le_trans (add_nonneg hnonneg hseconds) hle⟩
  · have hno : ¬ (r.playbackStart.isSome = true ∧ r.isPlaying = true) := fun hyes => hstarted hyes.1
    rw [if_neg hno, hposition] at hreal
    cases hreal
    have hnone : r.playbackStart = none := by simpa using hstarted
    have hzero : r.secondsPlayed world.now = 0 := by
      unfold Room.secondsPlayed Room.elapsed
      rw [hnone]
      exact zero_mul _
    refine ⟨?_, le_trans hnonneg (Number.le_of_finite_ge hend)⟩
    show Number.InRange _
    rw [hzero]
    exact Number.inRange_zero

/-- A room whose position and speed are usable, and that was started before. -/
def Ready (now : Time) (r : Room) : Prop := r.Usable ∧ r.Started now

/-- Segments that arrive are no part of the playhead. -/
theorem fetchSponsorBlockSegments_ready {r : Room} (h : Ready world.now r) :
    Ready world.now (fetchSponsorBlockSegments world { r with wantSponsorBlock := false }) := by
  obtain ⟨⟨hposition, hspeed⟩, hstart⟩ := h
  unfold fetchSponsorBlockSegments
  split
  · exact ⟨⟨hposition, hspeed⟩, hstart⟩
  split
  · split <;> exact ⟨⟨hposition, hspeed⟩, hstart⟩
  · exact ⟨⟨hposition, hspeed⟩, hstart⟩

/-- The time until which segments are kept is compared with the position alone. -/
theorem releaseSegment_safe : Safe (Ready world.now) (releaseSegment platform world) := by
  refine .get_bind (fun r hr => ?_)
  obtain ⟨n, hreal⟩ := exists_realPlaybackPosition platform hr.1 world.now
  cases r.dontSkipSegmentsUntil with
  | none => exact Safe.pure () r hr
  | some time =>
    show Fine _ ((Handler.when (time ≠ 0) _).run r)
    rw [Handler.run_when]
    split
    · have hrelease : Safe (Ready world.now) (Handler.when (n.ge (.finite time) = true)
          (Handler.modify (fun r : Room => { r with dontSkipSegmentsUntil := none }))) :=
        .when (fun _ => .modify (fun r hr => ⟨⟨hr.1.position, hr.1.speed⟩, hr.2⟩))
      rw [fine_playing_bind hreal, fine_playing_bind (Json.ge?_num _ n time)]
      exact hrelease r hr
    · exact Safe.pure () r hr

/-- A seek to a position keeps the room ready. -/
theorem seekRaw_ready {r : Room} (hr : Ready world.now r) (hcounts : Counts world r) {value : Json}
    (hvalue : isPosition value = true) :
    Fine (Ready world.now) ((seekRaw platform world value).run r) := by
  unfold seekRaw
  rw [Handler.run_bind, run_countSecondsWatched platform hr.1 hr.2]
  split
  · exact fine_error.mpr ⟨hr, nofun, nofun⟩
  · have hcounted : Number.InRange (r.secondsPlayed world.now) := hcounts
    rw [if_pos hcounted, andThen_ok_nil, Handler.run_modify, fine_ok]
    refine ⟨⟨⟨hvalue, hr.1.speed⟩, ?_⟩, nofun⟩
    rintro start ⟨⟩
    exact le_rfl

/-- A segment that is skipped ends at a position. -/
theorem skipSegment_safe (categories : List Category) :
    Safe (Ready world.now) (skipSegment platform world categories) := by
  refine .get_bind (fun r hr => ?_)
  rw [Handler.run_when]
  split
  · next hcond =>
    obtain ⟨n, hreal⟩ := exists_realPlaybackPosition platform hr.1 world.now
    have hsegment : r.getSegmentForTime platform (.num n) = some (r.videoSegments.find?
        (fun s => n.ge (.finite s.startTime) && (Number.finite s.endTime).ge n)) := by
      unfold Room.getSegmentForTime
      rw [if_neg (by simp [hcond.2.1])]
      rfl
    rw [fine_playing_bind hreal, fine_playing_bind hsegment]
    cases hfind : r.videoSegments.find?
        (fun s => n.ge (.finite s.startTime) && (Number.finite s.endTime).ge n) with
    | none => exact Safe.pure () r hr
    | some segment =>
      have hfound := List.find?_some hfind
      rw [Bool.and_eq_true] at hfound
      obtain ⟨hcounts, hend⟩ := counts_of_segment platform hr.1 hr.2 hcond.1 hreal hfound.2
      show Fine _ ((Handler.when (segment.category ∈ categories) _).run r)
      rw [Handler.run_when]
      split
      · exact seekRaw_ready platform hr hcounts (decide_eq_true hend)
      · exact Safe.pure () r hr
  · exact Safe.pure () r hr

theorem updateSegments_safe : Safe (Ready world.now) (updateSegments platform world) := by
  refine .when (fun _ => .get_bind (fun r hr => ?_))
  refine Safe.bind (.orThrow _) (fun categories => .when (fun _ => ?_)) r hr
  refine .bind (.when (fun _ => .modify (fun r hr => fetchSponsorBlockSegments_ready hr)))
    (fun _ => ?_)
  exact .bind (releaseSegment_safe platform) (fun _ => skipSegment_safe platform categories)

/-- **The segments never do any harm.** -/
theorem fine_updateSegments (h : r.Usable) (hstart : r.Started world.now) :
    Fine Room.Usable ((updateSegments platform world).run r) := by
  have hfine := updateSegments_safe platform r ⟨h, hstart⟩
  exact ⟨hfine.state.1, hfine.published, hfine.result⟩

/-! ### What asks for nothing -/

/-- The position is copied into the item, and stays what it is. -/
theorem requeueCurrent_calm : Calm (requeueCurrent platform world) := by
  refine .get_bind (fun r => ?_)
  cases r.currentSource with
  | none => exact Calm.pure () r
  | some current =>
    refine Calm.playing_bind (fun h => realPlaybackPosition_isSome platform h world.now) (fun _ => ?_)
    exact .bind (.when .throw) (fun _ => .bind (.modify (fun _ => rfl))
      (fun _ => .modify (fun _ => rfl)))

/-- A video that is to play now starts at 0. -/
theorem putInPlace_safe (video : Item) : Safe Room.Usable (putInPlace world video) := by
  refine .bind (.modify (fun r h => ⟨rfl, h.speed⟩)) (fun _ => .get_bind (fun r h => ?_))
  exact Safe.bind (.orThrow _) (fun _ => .when (fun _ => .modify (fun r h => ⟨h.position, h.speed⟩)))
    r h

theorem fetchToPlay_calm (service id : Value) (queued : Bool) :
    Calm (fetchToPlay world service id queued) :=
  .ite (evict_calm service id) (lookup_calm world service id)

/-- So it is fine whatever the request says. -/
theorem playNow_safe (video : Value) : Safe Room.Usable (playNow platform world video) := by
  refine .bind (.orThrow _) (fun service => .bind (.orThrow _) (fun id => ?_))
  refine .bind (.orThrow _) (fun subtitleUrl => .get_bind (fun r h => ?_))
  refine Safe.ite (fun _ => .pure ()) (fun _ => .bind (.orThrow _) (fun queued => ?_)) r h
  refine .bind (fetchToPlay_calm service id queued).safe (fun found => ?_)
  refine .bind (subtitleToPlay_calm subtitleUrl found).safe ?_
  exact fun _ => .bind (requeueCurrent_calm platform).safe (fun _ => putInPlace_safe _)

/-! ### Undo -/

theorem fine_orThrow_none {α β : Type} {k : α → RoomM β} (h : r.Usable) :
    Fine Room.Usable ((orThrow none >>= k).run r) := fine_error.mpr ⟨h, nofun, nofun⟩

theorem fine_orThrow_some {α β : Type} {k : α → RoomM β} {a : α} :
    Fine Room.Usable ((orThrow (some a) >>= k).run r) ↔ Fine Room.Usable ((k a).run r) := Iff.rfl

theorem not_truthy_none : ¬ Json.truthy none = true := nofun

/-- To undo a seek is a seek to the position that the event says. -/
theorem fine_undoSeek (h : r.Usable) (hstart : r.Started world.now) (event : Value) :
    Fine Room.Usable ((undoSeek platform world event).run r) ↔
      (Json.truthy (additional event "prevPosition") = true →
        SeekAccepts platform world r (additional event "prevPosition")) := by
  unfold undoSeek additional
  cases Json.read event "additional" with
  | none => exact iff_of_true (fine_orThrow_none h) (fun hno => absurd hno not_truthy_none)
  | some fields =>
    rw [fine_orThrow_some, Option.bind_some]
    cases Json.read fields "prevPosition" with
    | none => exact iff_of_true (fine_orThrow_none h) (fun hno => absurd hno not_truthy_none)
    | some prevPosition =>
      rw [fine_orThrow_some, Option.join_some, Handler.run_when]
      split
      · next htruthy =>
        rw [fine_seek platform h hstart]
        exact ⟨fun haccepts _ => haccepts, fun haccepts => haccepts htruthy⟩
      · next hno => exact iff_of_true (Safe.pure () r h) (fun hyes => absurd hyes hno)

/-- The end of `undoSkip`. -/
theorem fine_restore (h : r.Usable) (video prevPosition : Json) :
    Fine Room.Usable ((Handler.when
        (Json.truthy (some video) = true ∧ Json.truthy (some prevPosition) = true)
        (Handler.modify (fun r : Room =>
          { r with
            currentSource := some ⟨world.fresh, video, []⟩
            playbackPosition := prevPosition }))).run r) ↔
      (Json.truthy (some video) = true → Json.truthy (some prevPosition) = true →
        isPosition prevPosition = true) := by
  rw [Handler.run_when]
  split
  · next hboth =>
    rw [Handler.run_modify, fine_ok]
    exact ⟨fun hfine _ _ => hfine.1.position,
      fun haccepts => ⟨⟨haccepts hboth.1 hboth.2, h.speed⟩, nofun⟩⟩
  · next hno =>
    exact iff_of_true (Safe.pure () r h) (fun hvideo hposition => absurd ⟨hvideo, hposition⟩ hno)

/-- To undo a skip stores what the event says, unchecked. -/
theorem fine_undoSkip (h : r.Usable) (event : Value) :
    Fine Room.Usable ((undoSkip world event).run r) ↔
      (Json.truthy (additional event "video") = true →
        Json.truthy (additional event "prevPosition") = true →
          (additional event "prevPosition").any isPosition = true) := by
  have hpushed : (pushCurrent r).Usable := by
    unfold pushCurrent
    split
    · exact ⟨h.position, h.speed⟩
    · exact h
  unfold undoSkip additional
  rw [fine_modify_bind]
  cases Json.read event "additional" with
  | none => exact iff_of_true (fine_orThrow_none hpushed) (fun hno => absurd hno not_truthy_none)
  | some fields =>
    rw [fine_orThrow_some, Option.bind_some, Option.bind_some]
    cases Json.read fields "video" with
    | none => exact iff_of_true (fine_orThrow_none hpushed) (fun hno => absurd hno not_truthy_none)
    | some video =>
      rw [fine_orThrow_some]
      cases Json.read fields "prevPosition" with
      | none =>
        exact iff_of_true (fine_orThrow_none hpushed) (fun _ hno => absurd hno not_truthy_none)
      | some prevPosition =>
        rw [fine_orThrow_some, Option.join_some, Option.join_some]
        cases video with
        | none => exact iff_of_true (Safe.pure () _ hpushed) (fun hno => absurd hno not_truthy_none)
        | some video =>
          cases prevPosition with
          | none =>
            exact iff_of_true (Safe.pure () _ hpushed) (fun _ hno => absurd hno not_truthy_none)
          | some prevPosition => exact fine_restore hpushed video prevPosition

/-- **An undo** is fine if what it stores is a position. -/
theorem fine_undo (h : r.Usable) (hstart : r.Started world.now) (event : Value) :
    Fine Room.Usable ((undo platform world event).run r) ↔ UndoAccepts platform world r event := by
  unfold undo UndoAccepts eventType
  cases Json.read event "request" with
  | none => exact iff_of_true (fine_orThrow_none h) trivial
  | some request =>
    rw [fine_orThrow_some, Option.bind_some]
    cases Json.read request "type" with
    | none => exact iff_of_true (fine_orThrow_none h) trivial
    | some type =>
      rw [fine_orThrow_some, Option.join_some]
      split
      · exact fine_undoSeek platform h hstart event
      split
      · exact fine_undoSkip h event
      split
      · exact iff_of_true ((undoAdd_calm world request r).2 h) trivial
      split
      · exact iff_of_true ((undoRemove_calm platform world event r).2 h) trivial
      · exact iff_of_true (Safe.pure () r h) trivial

/-! ### Any operation -/

/-- Each request is fine exactly if it is accepted. -/
theorem fine_processRequest (h : r.Usable) (hstart : r.Started world.now) (request : Request) :
    Fine Room.Usable ((processRequest platform world request).run r) ↔
      RequestAccepts platform world r request := by
  cases request with
  | playback state => exact fine_playback platform h hstart state
  | skip => exact fine_skip platform h hstart
  | seek value => exact fine_seek platform h hstart value
  | add url video videos => exact iff_of_true ((addToQueue_calm world url video videos r).2 h) trivial
  | updateQueueItem video update =>
    exact iff_of_true ((updateQueueItem_calm world video update r).2 h) trivial
  | remove video => exact iff_of_true ((removeFromQueue_calm world video r).2 h) trivial
  | order fromIdx toIdx => exact iff_of_true ((move_calm platform fromIdx toIdx r).2 h) trivial
  | undo event => exact fine_undo platform h hstart event
  | applySettings => exact iff_of_true ((applySettings_calm world r).2 h) trivial
  | playNow video => exact iff_of_true (playNow_safe platform video r h) trivial
  | shuffle => exact iff_of_true (Safe.modify (fun r h => ⟨h.position, h.speed⟩) r h) trivial
  | playbackSpeed speed => exact fine_setPlaybackSpeed platform h hstart speed
  | restoreQueue discard => exact iff_of_true ((restoreQueue_calm discard r).2 h) trivial
  | other => exact iff_of_true (Safe.pure () r h) trivial

/-- **One operation** leaves a usable room usable, and throws nothing because of position and speed,
exactly if it is accepted. -/
theorem fine_handler (h : r.Usable) (hstart : r.Started world.now) (operation : Operation) :
    Fine Room.Usable ((operation.handler platform world).run r) ↔
      OperationAccepts platform world r operation := by
  cases operation with
  | request request => exact fine_processRequest platform h hstart request
  | update => exact fine_update platform h hstart
  | updateSegments => exact iff_of_true (fine_updateSegments platform h hstart) trivial

end Usable

/-! ## The start of playback -/

/-- If playback was started before, it still was. -/
def StartsBy (now : Time) (r r' : Room) : Prop := r.Started now → r'.Started now

instance (now : Time) : IsPreorder Room (StartsBy now) where
  refl _ h := h
  trans _ _ _ h h' hr := h' (h hr)

section Starts

variable (platform : Platform) (world : World)

/-- What is calm leaves the start of playback. -/
theorem Calm.startsBy {α : Type} {h : RoomM α} (hh : Calm h) (now : Time) :
    h.Keeps (StartsBy now) := by
  intro r hr start hstart
  have hsame : (h.run r).state.playbackStart = r.playbackStart :=
    congrArg (fun head => head.2.2) (hh r).1
  exact hr start (hsame ▸ hstart)

theorem started_of_some {r : Room} {now : Time} (h : r.playbackStart = some now) :
    r.Started now := by
  rintro start hstart
  rw [h] at hstart
  cases hstart
  exact le_rfl

theorem started_of_none {r : Room} {now : Time} (h : r.playbackStart = none) : r.Started now :=
  fun _ hstart => nomatch h.symm.trans hstart

theorem countSecondsWatched_startsBy :
    (countSecondsWatched platform world).Keeps (StartsBy world.now) :=
  .bind .get (fun _ => .bind ((label_calm platform _).startsBy _) (fun _ => .bind (.liftExcept _)
    (fun _ => .when (fun _ => .throw _))))

theorem afterAdvance_startsBy : (afterAdvance platform).Keeps (StartsBy world.now) :=
  .bind .get (fun _ => .bind (.when (fun _ => .throw _)) (fun _ => .modify (fun _ h => h)))

theorem playNext_startsBy : (playNext platform world).Keeps (StartsBy world.now) := by
  refine .bind (.modify (fun r h => ?_)) (fun _ => afterAdvance_startsBy platform world)
  unfold advance
  split
  · exact started_of_some rfl
  split
  · exact started_of_some rfl
  · exact h

theorem dequeueNext_startsBy : (dequeueNext platform world).Keeps (StartsBy world.now) := by
  refine .bind .get (fun r => ?_)
  cases r.currentSource with
  | none => exact playNext_startsBy platform world
  | some current =>
    refine .bind (countSecondsWatched_startsBy platform world) (fun _ => .ite (fun _ => ?_)
      (fun _ => .bind (.when (fun _ => .modify (fun _ h => h)))
        (fun _ => playNext_startsBy platform world)))
    exact .modify (fun _ _ => started_of_some rfl)

theorem flushPlaybackPosition_startsBy :
    (flushPlaybackPosition platform world).Keeps (StartsBy world.now) :=
  .bind (countSecondsWatched_startsBy platform world) (fun _ => .bind .get (fun _ =>
    .bind (.liftExcept _) (fun _ => .modify (fun _ _ => started_of_some rfl))))

theorem playback_startsBy (state : Value) :
    (playback platform world state).Keeps (StartsBy world.now) := by
  refine .bind (.ite (fun _ => ?_) (fun _ => ?_)) (fun _ => (publishRoomEvent_calm world).startsBy _)
  · exact .bind .get (fun _ => .when (fun _ => .modify (fun _ _ => started_of_some rfl)))
  · refine .bind .get (fun _ => .when (fun _ => ?_))
    exact .bind (flushPlaybackPosition_startsBy platform world)
      (fun _ => .modify (fun _ _ => started_of_none rfl))

theorem unawaited_startsBy {h : RoomM Unit} {now : Time} (hh : h.Keeps (StartsBy now)) :
    (unawaited h).Keeps (StartsBy now) := by
  intro r
  show StartsBy now r (settled (h.run r)).state
  rw [settled_state]
  exact hh r

theorem skip_startsBy : (skip platform world).Keeps (StartsBy world.now) := by
  refine .bind .get (fun r => .when (fun _ => .bind (.liftExcept _) (fun _ => ?_)))
  refine .bind ((label_calm platform _).startsBy _) (fun _ => ?_)
  refine .bind (unawaited_startsBy (dequeueNext_startsBy platform world)) (fun _ => ?_)
  exact .bind ((publishRoomEvent_calm world).startsBy _) (fun _ => .modify (fun _ h => h))

theorem seekRaw_startsBy (value : Json) : (seekRaw platform world value).Keeps (StartsBy world.now) :=
  .bind (countSecondsWatched_startsBy platform world)
    (fun _ => .modify (fun _ _ => started_of_some rfl))

theorem seek_startsBy (value : Value) : (seek platform world value).Keeps (StartsBy world.now) := by
  cases value with
  | none => exact .pure ()
  | some value =>
    refine .when (fun _ => .bind .get (fun _ => .bind (.liftExcept _) (fun _ => ?_)))
    refine .bind (seekRaw_startsBy platform world value) (fun _ => ?_)
    exact .bind ((publishRoomEvent_calm world).startsBy _) (fun _ => (keepSegment_calm platform).startsBy _)

theorem setPlaybackSpeed_startsBy (speed : Value) :
    (setPlaybackSpeed platform world speed).Keeps (StartsBy world.now) :=
  .bind (flushPlaybackPosition_startsBy platform world) (fun _ => .modify (fun _ h => h))

theorem playNow_startsBy (video : Value) : (playNow platform world video).Keeps (StartsBy world.now) := by
  refine .bind (.liftExcept _) (fun service => .bind (.liftExcept _) (fun id => ?_))
  refine .bind (.liftExcept _) (fun subtitleUrl => .bind .get (fun r => ?_))
  refine .ite (fun _ => .pure ()) (fun _ => .bind (.liftExcept _) (fun queued => ?_))
  refine .bind ((fetchToPlay_calm service id queued).startsBy _) (fun found => ?_)
  refine .bind ((subtitleToPlay_calm subtitleUrl found).startsBy _) (fun video => ?_)
  refine .bind ((requeueCurrent_calm platform).startsBy _) (fun _ => ?_)
  refine .bind (.modify (fun _ _ => started_of_some rfl)) (fun _ => .bind .get (fun _ => ?_))
  exact .bind (.liftExcept _) (fun _ => .when (fun _ => .modify (fun _ h => h)))

theorem undoSeek_startsBy (event : Value) :
    (undoSeek platform world event).Keeps (StartsBy world.now) :=
  .bind (.liftExcept _) (fun _ => .bind (.liftExcept _)
    (fun _ => .when (fun _ => seek_startsBy platform world _)))

theorem undoSkip_startsBy (event : Value) : (undoSkip world event).Keeps (StartsBy world.now) := by
  refine .bind (.modify (fun r h => ?_)) (fun _ => .bind (.liftExcept _) (fun _ => ?_))
  · unfold pushCurrent
    split <;> exact h
  · refine .bind (.liftExcept _) (fun video => .bind (.liftExcept _) (fun prevPosition => ?_))
    cases video with
    | none => exact .pure ()
    | some video =>
      cases prevPosition with
      | none => exact .pure ()
      | some prevPosition => exact .when (fun _ => .modify (fun _ h => h))

theorem undo_startsBy (event : Value) : (undo platform world event).Keeps (StartsBy world.now) := by
  refine .bind (.liftExcept _) (fun request => .bind (.liftExcept _) (fun type => ?_))
  refine .ite (fun _ => undoSeek_startsBy platform world event) (fun _ => ?_)
  refine .ite (fun _ => undoSkip_startsBy world event) (fun _ => ?_)
  refine .ite (fun _ => (undoAdd_calm world request).startsBy _) (fun _ => ?_)
  exact .ite (fun _ => (undoRemove_calm platform world event).startsBy _) (fun _ => .pure ())

theorem update_startsBy : (update platform world).Keeps (StartsBy world.now) := by
  refine .bind (.bind .get (fun r => ?_)) (fun past => .bind (.bind .get (fun _ => ?_)) (fun _ => ?_))
  · cases r.currentSource with
    | none => exact .pure _
    | some current =>
      exact .ite (fun _ => .bind (.liftExcept _) (fun _ => .bind (.liftExcept _)
        (fun _ => .liftExcept _))) (fun _ => .pure _)
  · exact .bind (.when (fun _ => (label_calm platform _).startsBy _))
      (fun _ => .when (fun _ => dequeueNext_startsBy platform world))
  · exact .bind (.when (fun _ => .throw _)) (fun _ => sortQueue_calm.startsBy _)

theorem releaseSegment_startsBy : (releaseSegment platform world).Keeps (StartsBy world.now) := by
  refine .bind .get (fun r => ?_)
  cases r.dontSkipSegmentsUntil with
  | none => exact .pure ()
  | some time =>
    exact .when (fun _ => .bind (.liftExcept _) (fun _ => .bind (.liftExcept _)
      (fun _ => .when (fun _ => .modify (fun _ h => h)))))

theorem skipSegment_startsBy (categories : List Category) :
    (skipSegment platform world categories).Keeps (StartsBy world.now) := by
  refine .bind .get (fun r => .when (fun _ => .bind (.liftExcept _) (fun _ => ?_)))
  refine .bind (.liftExcept _) (fun segment => ?_)
  cases segment with
  | none => exact .pure ()
  | some segment => exact .when (fun _ => seekRaw_startsBy platform world _)

theorem updateSegments_startsBy : (updateSegments platform world).Keeps (StartsBy world.now) := by
  refine .when (fun _ => .bind .get (fun r => .bind (.liftExcept _) (fun categories => ?_)))
  refine .when (fun _ => .bind (.when (fun _ => .modify (fun r h => ?_))) (fun _ => ?_))
  · unfold fetchSponsorBlockSegments
    split
    · exact h
    split
    · split <;> exact h
    · exact h
  · exact .bind (releaseSegment_startsBy platform world)
      (fun _ => skipSegment_startsBy platform world categories)

theorem processRequest_startsBy (request : Request) :
    (processRequest platform world request).Keeps (StartsBy world.now) := by
  cases request with
  | playback state => exact playback_startsBy platform world state
  | skip => exact skip_startsBy platform world
  | seek value => exact seek_startsBy platform world value
  | add url video videos => exact (addToQueue_calm world url video videos).startsBy _
  | updateQueueItem video update => exact (updateQueueItem_calm world video update).startsBy _
  | remove video => exact (removeFromQueue_calm world video).startsBy _
  | order fromIdx toIdx => exact (move_calm platform fromIdx toIdx).startsBy _
  | undo event => exact undo_startsBy platform world event
  | applySettings => exact (applySettings_calm world).startsBy _
  | playNow video => exact playNow_startsBy platform world video
  | shuffle => exact .modify (fun _ h => h)
  | playbackSpeed speed => exact setPlaybackSpeed_startsBy platform world speed
  | restoreQueue discard => exact (restoreQueue_calm discard).startsBy _
  | other => exact .pure ()

/-- **Every operation** starts playback now, if it does. -/
theorem handler_startsBy (operation : Operation) :
    (operation.handler platform world).Keeps (StartsBy world.now) := by
  cases operation with
  | request request => exact processRequest_startsBy platform world request
  | update => exact update_startsBy platform world
  | updateSegments => exact updateSegments_startsBy platform world

end Starts

/-! ## Runs -/

section Runs

variable {platform : Platform}

theorem started_of_le {r : Room} {t now : Time} (h : r.Started t) (hle : t ≤ now) : r.Started now :=
  fun start hstart => le_trans (h start hstart) hle

/-- A step of time leaves the start behind. -/
theorem timed_step (s : State) (e : Event) (s' : State) (h : s.Timed)
    (hstep : (machine platform).step s e = some s') : s'.Timed := by
  obtain ⟨hnow, rfl⟩ := step_eq_some hstep
  exact handler_startsBy platform e.world e.operation s.room (started_of_le h hnow)

/-- **One step.** -/
theorem numeric_step_iff (s : State) (e : Event) (s' : State) (htimed : s.Timed) (h : s.Numeric)
    (hstep : (machine platform).step s e = some s') : s'.Numeric ↔ Accepts platform s e := by
  obtain ⟨hnow, rfl⟩ := step_eq_some hstep
  rw [numeric_append_iff h.unblamed]
  exact fine_handler platform h.usable (started_of_le htimed hnow) e.operation

end Runs

/-! ### One room, from the start -/

/-- Someone seeks, plays, and pauses a second later. -/
def seekPlayPause (position speed : Json) : List Event :=
  [⟨plainWorld 0, .request (.seek (some position))⟩,
    ⟨plainWorld 0, .request (.playback (some (.bool true)))⟩,
    ⟨plainWorld 0, .request (.playbackSpeed (some speed))⟩,
    ⟨plainWorld 1000, .request (.playback (some (.bool false)))⟩]

end OpenTogetherTube.Server.Untyped
