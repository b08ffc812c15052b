import OpenTogetherTube.Balancer.OneRoom
import OpenTogetherTube.Balancer.Segments

/-!
# The monolith's last word

A monolith's `Loaded` and `Unloaded` messages come through one socket and one channel, in the order
in which it sent them. The dispatch loop spawns a task for each, and the tasks take the lock in any
order.

Each report takes effect on its own room in one critical section, so what the context says of the
room is what was said by the report that was **handled** last (`Inv`). The monolith meant the one that
it **sent** last. `presence_iff` is the difference: the context agrees with the monolith's last words
exactly if, room by room, the report handled last says the same as the report sent last.
-/

namespace OpenTogetherTube.Balancer.Presence

open OpenTogetherTube.Lib BalancerContext

/-! ## Reports -/

/-- A message of a monolith about one of its rooms. -/
inductive Report where
  | loaded (room : RoomMetadata) (loadEpoch : LoadEpoch)
  | unloaded (room : RoomName)
  deriving DecidableEq, Repr

namespace Report

def room : Report → RoomName
  | loaded room _ => room.name
  | unloaded room => room

/-- The epoch of the load that is reported. -/
def epoch : Report → Option LoadEpoch
  | loaded _ loadEpoch => some loadEpoch
  | unloaded _ => none

end Report

/-- The last word on a room: the epoch of its load, if the last report says that it is loaded. -/
def lastWord (r : RoomName) (reports : List Report) : Option LoadEpoch :=
  (reports.filter (fun report => report.room = r)).getLast?.bind Report.epoch

@[simp] theorem lastWord_nil (r : RoomName) : lastWord r [] = none := rfl

theorem lastWord_append (r : RoomName) (reports : List Report) (report : Report) :
    lastWord r (reports ++ [report]) =
      if report.room = r then report.epoch else lastWord r reports := by
  unfold lastWord
  rw [List.filter_append]
  split
  · next h => simp [h]
  · next h => simp [h]

/-- A room that has a last word is one that was reported. -/
theorem mem_of_lastWord {r : RoomName} {reports : List Report} {e : LoadEpoch}
    (h : lastWord r reports = some e) : ∃ report ∈ reports, report.room = r := by
  obtain ⟨report, hlast, -⟩ := Option.bind_eq_some_iff.mp h
  obtain ⟨hin, hroom⟩ := List.mem_filter.mp (List.mem_of_getLast? hlast)
  exact ⟨report, hin, of_decide_eq_true hroom⟩

/-! ## The specification -/

/-- The monolith's rooms, and what is mapped to it, are what its last words say. -/
def Agrees (ctx : BalancerContext) (m : MonolithId) (reports : List Report) : Prop :=
  ∀ r, (ctx.Holds m r ↔ (lastWord r reports).isSome) ∧
    ∀ e, ctx.roomsToMonoliths.get? r = some ⟨m, e⟩ ↔ lastWord r reports = some e

/-- The report that a task is for. -/
def reportOf (m : MonolithId) : Task → Option Report
  | .loaded m' room loadEpoch => if m' = m then some (.loaded room loadEpoch) else none
  | .unloaded m' room => if m' = m then some (.unloaded room) else none
  | _ => none

/-- The reports of the monolith, in the order in which the dispatch loop takes them from its channel
and spawns their tasks. -/
def sent (m : MonolithId) (es : List (PoolEvent Call Answer Empty)) : List Report :=
  es.filterMap (fun e => match e with
    | .call c => reportOf m c.task
    | _ => none)

/-- The report that is handled in a step. -/
def handles (m : MonolithId) (p : Pool State Task TaskEnd) :
    PoolEvent Call Answer Empty → List Report
  | .answer i _ =>
    match p.tasks[i]? with
    | some (.waiting task) => (reportOf m task).toList
    | _ => []
  | _ => []

/-- The balancer, with the reports of a monolith in the order in which they were handled. -/
def reporting (m : MonolithId) :
    Machine (Pool State Task TaskEnd × List Report) (PoolEvent Call Answer Empty) :=
  balancer.machine.logging (handles m)

/-- All reports of the monolith have been processed. -/
def Settled (m : MonolithId) (p : Pool State Task TaskEnd) : Prop :=
  ∀ task ∈ p.suspended, reportOf m task = none

/-- The monolith is connected and has no room, and the rooms it is going to report are nowhere. -/
structure Ready (m : MonolithId) (rooms : List RoomName) (ctx : BalancerContext) : Prop where
  connected : ctx.Connected m
  holds : ∀ r, ¬ ctx.Holds m r
  vacated : ctx.Vacated m
  free : ∀ r ∈ rooms, ctx.roomsToMonoliths.get? r = none

/-- What may happen meanwhile, while the monolith reports on the rooms: no client joins, the monolith
stays connected, and no other reports on these rooms. -/
def Undisturbed (m : MonolithId) (rooms : List RoomName) : Task → Prop
  | .loaded m' room _ => m' = m ↔ room.name ∈ rooms
  | .unloaded m' room => m' = m ↔ room ∈ rooms
  | .gossipSync m' room _ _ => m' ≠ m ∧ room.room.name ∉ rooms
  | .gossipDrop m' _ _ _ | .gossipRemove m' _ _ => m' ≠ m
  | .joinReserve _ | .joinSend _ _ _ | .joinRegister _ _ | .joinAbandon _ _ _ _ => False
  | .joinMonolith m' => m'.id ≠ m
  | .leaveMonolith m' | .leaveAbandon m' => m' ≠ m
  | _ => True

def StepUndisturbed (m : MonolithId) (rooms : List RoomName)
    (s : Pool State Task TaskEnd × List Report) : PoolEvent Call Answer Empty → Prop
  | .answer i _ => ∀ task, s.1.tasks[i]? = some (.waiting task) → Undisturbed m rooms task
  | _ => True

instance (m : MonolithId) (p : Pool State Task TaskEnd) : Decidable (Settled m p) :=
  inferInstanceAs (Decidable (∀ task ∈ _, _))

instance (m : MonolithId) (rooms : List RoomName) (task : Task) :
    Decidable (Undisturbed m rooms task) :=
  match task with
  | .loaded m' room _ => inferInstanceAs (Decidable (m' = m ↔ room.name ∈ rooms))
  | .unloaded m' room => inferInstanceAs (Decidable (m' = m ↔ room ∈ rooms))
  | .gossipSync m' room _ _ => inferInstanceAs (Decidable (m' ≠ m ∧ room.room.name ∉ rooms))
  | .gossipDrop m' _ _ _ | .gossipRemove m' _ _ => inferInstanceAs (Decidable (m' ≠ m))
  | .joinReserve _ | .joinSend _ _ _ | .joinRegister _ _ | .joinAbandon _ _ _ _ => .isFalse id
  | .joinMonolith m' => inferInstanceAs (Decidable (m'.id ≠ m))
  | .leaveMonolith m' | .leaveAbandon m' => inferInstanceAs (Decidable (m' ≠ m))
  | .leaveRemove _ | .leaveSend _ _ | .loadedSend _ _ _ | .gossip _ _ | .gossipSend _ _ _ _ _
  | .roomMsg _ _ _ | .roomMsgSend _ | .kick _ | .kickSend _ => .isTrue trivial

instance (m : MonolithId) (rooms : List RoomName) (s : Pool State Task TaskEnd × List Report)
    (e : PoolEvent Call Answer Empty) : Decidable (StepUndisturbed m rooms s e) :=
  match e with
  | .answer i _ =>
    match ht : s.1.tasks[i]? with
    | some (.waiting task) =>
      decidable_of_iff (Undisturbed m rooms task)
        ⟨fun h task' ht' => by rw [ht] at ht'; cases ht'; exact h, fun h => h task ht⟩
    | some (.done _) => isTrue (fun _ ht' => by rw [ht] at ht'; cases ht')
    | none => isTrue (fun _ ht' => by rw [ht] at ht'; cases ht')
  | .call _ => isTrue trivial
  | .external e => nomatch e

/-! ## What leaves the monolith's rooms alone -/

/-- The monolith has the same rooms, they are mapped to it as before, and none of the rooms in
question is mapped elsewhere that was not. -/
structure Same (m : MonolithId) (rooms : List RoomName) (ctx ctx' : BalancerContext) : Prop where
  connected : ctx.Connected m → ctx'.Connected m
  holds : ∀ r, ctx'.Holds m r ↔ ctx.Holds m r
  locator : ∀ r e, ctx'.roomsToMonoliths.get? r = some ⟨m, e⟩ ↔
    ctx.roomsToMonoliths.get? r = some ⟨m, e⟩
  free : ∀ r ∈ rooms, ∀ l, ctx'.roomsToMonoliths.get? r = some l → l.monolithId ≠ m →
    ctx.roomsToMonoliths.get? r = some l

variable {m : MonolithId} {rooms : List RoomName} {ctx ctx' : BalancerContext}

theorem Same.refl (m : MonolithId) (rooms : List RoomName) (ctx : BalancerContext) :
    Same m rooms ctx ctx :=
  ⟨id, fun _ => Iff.rfl, fun _ _ => Iff.rfl, fun _ _ _ h _ => h⟩

theorem Same.trans {ctx'' : BalancerContext} (h : Same m rooms ctx ctx')
    (h' : Same m rooms ctx' ctx'') : Same m rooms ctx ctx'' :=
  ⟨fun hc => h'.connected (h.connected hc), fun r => (h'.holds r).trans (h.holds r),
    fun r e => (h'.locator r e).trans (h.locator r e),
    fun r hr l hl hne => h.free r hr l (h'.free r hr l hl hne) hne⟩

variable (ctx rooms) in
theorem same_removeRoom {m' : MonolithId} (hne : m' ≠ m) (room : RoomName) :
    Same m rooms ctx (ctx.removeRoom room m').1 := by
  have hlocator : ∀ r l, (ctx.removeRoom room m').1.roomsToMonoliths.get? r = some l ↔
      ctx.roomsToMonoliths.get? r = some l ∧
        ¬ (r = room ∧ l.monolithId = m' ∧ ctx.Connected m') := by
    intro r l
    by_cases hr : r = room
    · subst hr
      rw [removeRoom_locator]
      simp
    · rw [(@removeRoom_other ctx _ _ hr m').locator]
      simp [hr]
  refine ⟨(removeRoom_connected ctx room m' m).mpr, fun r => ?_, fun r e => ?_,
    fun r _ l hl _ => ((hlocator r l).mp hl).1⟩
  · by_cases hr : r = room
    · subst hr
      rw [removeRoom_holds]
      simp [Ne.symm hne]
    · exact (@removeRoom_other ctx _ _ hr m').holds m
  · rw [hlocator]
    simp [Ne.symm hne]

variable (ctx) in
theorem same_placeRoom {m' : MonolithId} (hne : m' ≠ m) {room : RoomMetadata}
    (hroom : room.name ∉ rooms) (hfree : ∀ e, ctx.roomsToMonoliths.get? room.name ≠ some ⟨m, e⟩)
    (loadEpoch : LoadEpoch) (conflict : Option ConflictAction) :
    Same m rooms ctx (ctx.placeRoom room m' loadEpoch conflict).1 := by
  refine ⟨(placeRoom_connected room loadEpoch conflict m).mpr, fun r => ?_, fun r e => ?_,
    fun r hr l hl _ => ?_⟩
  · rw [placeRoom_holds]
    simp [Ne.symm hne]
  · rw [placeRoom_locator]
    split
    · next h =>
      subst h
      simp [hne, hfree e]
    · rfl
  · rw [placeRoom_locator, if_neg (by rintro rfl; exact hroom hr)] at hl
    exact hl

variable (ctx) in
theorem same_syncRoom {m' : MonolithId} (hne : m' ≠ m) {room : RoomMetadata}
    (hroom : room.name ∉ rooms) (hfree : ∀ e, ctx.roomsToMonoliths.get? room.name ≠ some ⟨m, e⟩)
    (loadEpoch : LoadEpoch) : Same m rooms ctx (ctx.syncRoom room m' loadEpoch).1 := by
  obtain ⟨-, h⟩ | ⟨locator, hl, -, ⟨-, -, h⟩ | ⟨-, -, h⟩ | ⟨-, e, h⟩⟩ :=
    syncRoom_cases ctx m' room loadEpoch
  · rw [h]
    exact same_placeRoom ctx hne hroom hfree loadEpoch none
  · rw [h]
    exact .refl m rooms ctx
  · rw [h]
    have hother : locator.monolithId ≠ m := by
      rintro rfl
      exact hfree locator.loadEpoch hl
    have hsame := same_removeRoom rooms ctx hother room.name
    exact hsame.trans (same_placeRoom _ hne hroom
      (fun e he => hfree e ((hsame.locator room.name e).mp he)) loadEpoch _)
  · rw [h]
    exact .refl m rooms ctx

variable (ctx rooms) in
theorem same_removeMonolith {m' : MonolithId} (hne : m' ≠ m) :
    Same m rooms ctx (ctx.removeMonolith m') := by
  have hget : (ctx.removeMonolith m').monoliths.get? m = ctx.monoliths.get? m := by
    simp [removeMonolith, Ne.symm hne]
  have hlocator : ∀ r l, (ctx.removeMonolith m').roomsToMonoliths.get? r = some l ↔
      ctx.roomsToMonoliths.get? r = some l ∧ l.monolithId ≠ m' := by
    intro r l
    simp [removeMonolith, OrderedMap.get?_retain_eq_some]
  refine ⟨fun h => ?_, fun r => ?_, fun r e => ?_, fun r _ l hl _ => ((hlocator r l).mp hl).1⟩
  · rw [connected_iff, hget]
    exact connected_iff.mp h
  · unfold Holds
    rw [hget]
  · rw [hlocator]
    simp [Ne.symm hne]

/-- Replacing another monolith's entry. -/
theorem same_setMonolith {m' : MonolithId} (hne : m' ≠ m) {mono : BalancerMonolith}
    (hmonoliths : ctx'.monoliths = ctx.monoliths.set m' mono)
    (hrooms : ctx'.roomsToMonoliths = ctx.roomsToMonoliths) : Same m rooms ctx ctx' := by
  have hget : ctx'.monoliths.get? m = ctx.monoliths.get? m := by
    rw [hmonoliths, OrderedMap.get?_set, if_neg (Ne.symm hne)]
  refine ⟨fun h => ?_, fun r => ?_, fun r e => by rw [hrooms], fun r _ l hl _ => hrooms ▸ hl⟩
  · rw [connected_iff, hget]
    exact connected_iff.mp h
  · unfold Holds
    rw [hget]

/-- Replacing the monolith's entry by one with the same rooms. -/
theorem same_setRooms {m' : MonolithId} {mono mono' : BalancerMonolith}
    (hm : ctx.monoliths.get? m' = some mono)
    (hcontains : ∀ r, mono'.rooms.contains r = mono.rooms.contains r)
    (hmonoliths : ctx'.monoliths = ctx.monoliths.set m' mono')
    (hrooms : ctx'.roomsToMonoliths = ctx.roomsToMonoliths) : Same m rooms ctx ctx' := by
  by_cases hmm : m' = m
  · subst hmm
    have hget : ctx'.monoliths.get? m' = some mono' := by
      rw [hmonoliths, OrderedMap.get?_set, if_pos rfl]
    refine ⟨fun _ => connected_iff.mpr ⟨mono', hget⟩, fun r => ?_, fun r e => by rw [hrooms],
      fun r _ l hl _ => hrooms ▸ hl⟩
    rw [holds_iff hget, holds_iff hm, hcontains]
  · exact same_setMonolith hmm hmonoliths hrooms

theorem same_deregisterClient (ctx : BalancerContext) (id : ClientId) :
    Same m rooms ctx (ctx.deregisterClient id) := by
  unfold deregisterClient
  split
  · exact .refl m rooms ctx
  · dsimp only
    split
    · exact ⟨fun hc => hc, fun _ => Iff.rfl, fun _ _ => Iff.rfl, fun _ _ _ h _ => h⟩
    · split
      · exact ⟨fun hc => hc, fun _ => Iff.rfl, fun _ _ => Iff.rfl, fun _ _ _ h _ => h⟩
      · next mono hm => exact same_setRooms hm (fun r => mono.contains_removeClient r _) rfl rfl

/-! ## The invariant -/

/-- The context says of the monolith's rooms what was said by the reports handled last. -/
structure Inv (m : MonolithId) (rooms : List RoomName)
    (s : Pool State Task TaskEnd × List Report) : Prop where
  connected : s.1.shared.ctx.Connected m
  agrees : Agrees s.1.shared.ctx m s.2
  free : ∀ r ∈ rooms, ∀ l, s.1.shared.ctx.roomsToMonoliths.get? r = some l → l.monolithId = m
  known : ∀ report ∈ s.2, report.room ∈ rooms

theorem inv_ready {p : Pool State Task TaskEnd} (h : Ready m rooms p.shared.ctx) :
    Inv m rooms (p, []) where
  connected := h.connected
  agrees r := by
    refine ⟨iff_of_false (h.holds r) (by simp), fun e => iff_of_false (fun hl => ?_) (by simp)⟩
    exact h.vacated r ⟨m, e⟩ hl rfl
  free r hr l hl := by
    rw [h.free r hr] at hl
    cases hl
  known _ hr := by cases hr

section Step

variable {p : Pool State Task TaskEnd} {log : List Report} {task : Task} {x : Answer}
  {s : State} {progress : Progress Task TaskEnd} {tasks : List (Progress Task TaskEnd)}

/-- A segment that is no report of the monolith. -/
theorem Inv.same (h : Inv m rooms (p, log)) (hsame : Same m rooms p.shared.ctx s.ctx) :
    Inv m rooms (⟨s, tasks⟩, log) where
  connected := hsame.connected h.connected
  agrees r :=
    ⟨(hsame.holds r).trans (h.agrees r).1, fun e => (hsame.locator r e).trans ((h.agrees r).2 e)⟩
  free r hr l hl := by
    by_contra hne
    exact hne (h.free r hr l (hsame.free r hr l hl hne))
  known := h.known

/-- A room that is not in question is not mapped to the monolith. -/
theorem Inv.not_mapped (h : Inv m rooms (p, log)) {r : RoomName} (hr : r ∉ rooms) (e : LoadEpoch) :
    p.shared.ctx.roomsToMonoliths.get? r ≠ some ⟨m, e⟩ := by
  intro hl
  obtain ⟨report, hin, rfl⟩ := mem_of_lastWord (((h.agrees r).2 e).mp hl)
  exact hr (h.known report hin)

/-- **A `Loaded` of the monolith places its room there**, whatever was said of it before. -/
theorem Inv.loaded (h : Inv m rooms (p, log)) {room : RoomMetadata} (hroom : room.name ∈ rooms)
    (loadEpoch : LoadEpoch) (hctx : s.ctx = (p.shared.ctx.syncRoom room m loadEpoch).1) :
    Inv m rooms (⟨s, tasks⟩, log ++ [.loaded room loadEpoch]) := by
  have hplace : s.ctx = (p.shared.ctx.placeRoom room m loadEpoch none).1 := by
    rw [hctx]
    obtain ⟨-, heq⟩ | ⟨locator, hl, hne, -⟩ := syncRoom_cases p.shared.ctx m room loadEpoch
    · rw [heq]
    · exact absurd (h.free room.name hroom locator hl) hne
  refine ⟨?_, fun r => ?_, fun r hr l hl => ?_, fun report hr => ?_⟩
  · show s.ctx.Connected m
    rw [hplace]
    exact (placeRoom_connected room loadEpoch none m).mpr h.connected
  · show (s.ctx.Holds m r ↔ _) ∧ ∀ e, s.ctx.roomsToMonoliths.get? r = _ ↔ _
    rw [hplace, lastWord_append, placeRoom_holds, placeRoom_locator]
    by_cases hr : r = room.name
    · subst hr
      refine ⟨iff_of_true (.inl ⟨rfl, rfl, h.connected⟩) ?_, fun e => ?_⟩
      · rw [if_pos (show (Report.loaded room loadEpoch).room = room.name from rfl)]
        rfl
      · rw [if_pos rfl, if_pos (show (Report.loaded room loadEpoch).room = room.name from rfl)]
        simp [Report.epoch]
    · have hne : ¬ (Report.loaded room loadEpoch).room = r := fun heq => hr heq.symm
      rw [if_neg hne, if_neg hr]
      refine ⟨?_, (h.agrees r).2⟩
      simp only [hr, false_and, and_false, false_or]
      exact (h.agrees r).1
  · change s.ctx.roomsToMonoliths.get? r = some l at hl
    rw [hplace, placeRoom_locator] at hl
    split at hl
    · cases hl
      rfl
    · exact h.free r hr l hl
  · rcases List.mem_append.mp hr with hold | hnew
    · exact h.known report hold
    · rw [List.mem_singleton.mp hnew]
      exact hroom

/-- **An `Unloaded` of the monolith takes its room away**, whatever was said of it before. -/
theorem Inv.unloaded (h : Inv m rooms (p, log)) {room : RoomName} (hroom : room ∈ rooms)
    (hctx : s.ctx = (p.shared.ctx.removeRoom room m).1) :
    Inv m rooms (⟨s, tasks⟩, log ++ [.unloaded room]) := by
  have hlocator : ∀ r l, s.ctx.roomsToMonoliths.get? r = some l ↔
      p.shared.ctx.roomsToMonoliths.get? r = some l ∧ ¬ (r = room ∧ l.monolithId = m) := by
    intro r l
    rw [hctx]
    by_cases hr : r = room
    · subst hr
      rw [removeRoom_locator]
      simp [show p.shared.ctx.Connected m from h.connected]
    · rw [(@removeRoom_other p.shared.ctx _ _ hr m).locator]
      simp [hr]
  refine ⟨?_, fun r => ?_, fun r hr l hl => h.free r hr l ((hlocator r l).mp hl).1,
    fun report hr => ?_⟩
  · show s.ctx.Connected m
    rw [hctx]
    exact (removeRoom_connected p.shared.ctx room m m).mpr h.connected
  · show (s.ctx.Holds m r ↔ _) ∧ ∀ e, s.ctx.roomsToMonoliths.get? r = _ ↔ _
    rw [lastWord_append]
    by_cases hr : r = room
    · subst hr
      rw [if_pos (show (Report.unloaded r).room = r from rfl)]
      refine ⟨iff_of_false (fun hh => ?_) (by simp [Report.epoch]),
        fun e => iff_of_false (fun hl => ((hlocator r _).mp hl).2 ⟨rfl, rfl⟩) (fun hl => by cases hl)⟩
      rw [hctx, removeRoom_holds] at hh
      exact hh.1 rfl
    · have hne : ¬ (Report.unloaded room).room = r := fun heq => hr heq.symm
      rw [if_neg hne]
      refine ⟨?_, fun e => ?_⟩
      · rw [hctx]
        exact ((@removeRoom_other p.shared.ctx _ _ hr m).holds m).trans (h.agrees r).1
      · rw [hlocator]
        simp only [hr, not_false_eq_true, and_true]
        exact (h.agrees r).2 e
  · rcases List.mem_append.mp hr with hold | hnew
    · exact h.known report hold
    · rw [List.mem_singleton.mp hnew]
      exact hroom

/-- **A segment keeps the invariant**, with what it handles appended. -/
theorem Inv.segment (h : Inv m rooms (p, log)) (hok : Undisturbed m rooms task)
    (hres : resume task x p.shared = some (s, progress)) :
    Inv m rooms (⟨s, tasks⟩, log ++ (reportOf m task).toList) := by
  have hctx := segment_ctx hres
  have hnone : reportOf m task = none →
      Same m rooms p.shared.ctx (p.shared.ctx.contextAfter task x) →
      Inv m rooms (⟨s, tasks⟩, log ++ (reportOf m task).toList) := by
    intro heq hsame
    rw [heq, Option.toList_none, List.append_nil]
    rw [← hctx] at hsame
    exact h.same hsame
  unfold resume at hres
  split at hres
  case h_1 => exact hok.elim
  case h_2 => exact hok.elim
  case h_3 => exact hok.elim
  case h_4 => exact hok.elim
  case h_5 id => exact hnone rfl (same_deregisterClient _ id)
  case h_7 m' => exact hnone rfl (same_removeMonolith rooms _ hok)
  case h_8 m' receiverOpen =>
    cases receiverOpen
    · exact hnone rfl (.refl _ _ _)
    · exact hnone rfl (same_setMonolith hok rfl rfl)
  case h_9 m' => exact hnone rfl (same_removeMonolith rooms _ hok)
  case h_10 m' room loadEpoch =>
    by_cases hm : m' = m
    · subst hm
      simp only [reportOf, if_true, Option.toList_some]
      exact h.loaded (hok.mp rfl) loadEpoch hctx
    · have hroom : room.name ∉ rooms := fun hin => hm (hok.mpr hin)
      exact hnone (if_neg hm) (same_syncRoom _ hm hroom (h.not_mapped hroom) loadEpoch)
  case h_12 m' room =>
    by_cases hm : m' = m
    · subst hm
      simp only [reportOf, if_true, Option.toList_some]
      exact h.unloaded (hok.mp rfl) hctx
    · exact hnone (if_neg hm) (same_removeRoom rooms _ hm room)
  case h_14 m' room rooms' toRemove =>
    exact hnone rfl (same_syncRoom _ hok.1 hok.2 (h.not_mapped hok.2) room.loadEpoch)
  case h_16 m' room rooms' toRemove => exact hnone rfl (same_removeRoom rooms _ hok room)
  case h_17 m' room toRemove => exact hnone rfl (same_removeRoom rooms _ hok room)
  case h_22 => cases hres
  -- the others leave the context alone
  all_goals exact hnone rfl (.refl _ _ _)

end Step

/-! ## Every run -/

theorem step_inv {t t' : Pool State Task TaskEnd × List Report} {e : PoolEvent Call Answer Empty}
    (h : Inv m rooms t) (hok : StepUndisturbed m rooms t e)
    (hs : (reporting m).step t e = some t') : Inv m rooms t' := by
  obtain ⟨hpool, hlog⟩ := Machine.step_logging.mp hs
  obtain ⟨p, log⟩ := t
  obtain ⟨p', log'⟩ := t'
  dsimp only at hpool hlog
  rcases Program.step_cases hpool with ⟨c, rfl, rfl⟩ | ⟨i, x, task, s, pr, rfl, ht, hr, rfl⟩ |
    ⟨ev, -, -, -, -⟩
  · have hlog : log' = log := by simp [hlog, handles]
    subst hlog
    exact h.same (.refl m rooms _)
  · have hlog : log' = log ++ (reportOf m task).toList := by simp [hlog, handles, ht]
    subst hlog
    exact h.segment (hok task ht) hr
  · exact ev.elim

/-- **The context agrees with what the monolith sent exactly if, room by room, the report that was
handled last says what the report that was sent last says.** -/
theorem presence_iff {p p' : Pool State Task TaskEnd} {es : List (PoolEvent Call Answer Empty)}
    {handled : List Report} (hready : Ready m rooms p.shared.ctx)
    (hundisturbed : (reporting m).Along (StepUndisturbed m rooms) (p, []) es)
    (hrun : (reporting m).run (p, []) es = some (p', handled)) :
    Agrees p'.shared.ctx m (sent m es) ↔ ∀ r, lastWord r handled = lastWord r (sent m es) := by
  have hinv := Machine.always_of_along (fun _ _ _ hI hC hs => step_inv hI hC hs) (inv_ready hready)
    hundisturbed
  have hagrees : Agrees p'.shared.ctx m handled := (hinv.last hrun).agrees
  constructor
  · intro h r
    ext e
    exact ((hagrees r).2 e).symm.trans ((h r).2 e)
  · intro h r
    rw [← h r]
    exact hagrees r

/-! ## Two reports change places -/

/-- A balancer with one monolith, which has joined and has no rooms. -/
def joinedPool : Pool State Task TaskEnd :=
  .idle ⟨(BalancerContext.new "local").addMonolith (BalancerMonolith.new ⟨1, "local"⟩), []⟩

def foo : RoomName := RoomName.ofString "foo"

/-- A room is loaded, and unloaded. -/
def loadUnload : List (PoolEvent Call Answer Empty) :=
  [.call (.loaded 1 ⟨foo, .Public, ""⟩ 5), .call (.unloaded 1 foo)]

theorem ready_joinedPool : Ready 1 [foo] joinedPool.shared.ctx where
  connected := rfl
  holds r := by
    rintro ⟨mono, hm, hr⟩
    cases hm
    cases hr
  vacated r l hl := by cases hl
  free r _ := rfl

/-- They are handled in the order in which they were sent. -/
def inOrder : List (PoolEvent Call Answer Empty) :=
  loadUnload ++ [.answer 0 .lock, .answer 1 .lock]

theorem presence_iff_inOrder :
    ∃ p', ∃ handled, (reporting 1).run (joinedPool, []) inOrder = some (p', handled) ∧
      (Agrees p'.shared.ctx 1 (sent 1 inOrder) ↔
        ∀ r, lastWord r handled = lastWord r (sent 1 inOrder)) := by
  obtain ⟨⟨p', handled⟩, hrun⟩ := Option.isSome_iff_exists.mp
    (show ((reporting 1).run (joinedPool, []) inOrder).isSome = true by decide +kernel)
  exact ⟨p', handled, hrun, @presence_iff 1 [foo] joinedPool p' inOrder handled ready_joinedPool
    (by decide +kernel) hrun⟩

/-- The task of the second report takes the lock before that of the first. -/
def outOfOrder : List (PoolEvent Call Answer Empty) :=
  loadUnload ++ [.answer 1 .lock, .answer 0 .lock]

/-- The room is held for a monolith that has unloaded it, and said so. -/
theorem not_presence :
    ¬ ∀ (m : MonolithId) (rooms : List RoomName) (p p' : Pool State Task TaskEnd)
        (es : List (PoolEvent Call Answer Empty)) (handled : List Report),
      Ready m rooms p.shared.ctx → (reporting m).Along (StepUndisturbed m rooms) (p, []) es →
      (reporting m).run (p, []) es = some (p', handled) → Settled m p' →
      Agrees p'.shared.ctx m (sent m es) := by
  intro h
  have hrun : ∃ t ∈ (reporting 1).run (joinedPool, []) outOfOrder, Settled 1 t.1 ∧
      t.1.shared.ctx.roomsToMonoliths.get? foo = some ⟨1, 5⟩ ∧
      lastWord foo (sent 1 outOfOrder) = none := by
    decide +kernel
  obtain ⟨⟨p', handled⟩, hrun, hsettled, hheld, hword⟩ := hrun
  have hagrees := h 1 [foo] joinedPool p' outOfOrder handled ready_joinedPool (by decide +kernel)
    hrun hsettled
  have hlast := ((hagrees foo).2 5).mp hheld
  rw [hword] at hlast
  cases hlast

end OpenTogetherTube.Balancer.Presence
