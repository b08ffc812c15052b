import OpenTogetherTube.Common.Models
import OpenTogetherTube.Lib.Removal
import OpenTogetherTube.Server.RoomObjects
import Mathlib.Logic.Function.Basic

/-!
# Rooms without users

Every second `update` looks at all rooms, and unloads those that are stale: nobody has been in them
for a while. `unloadRoom` refuses to take a room off the array that has users, when the reason is
that it is stale. It looks once, and then it waits for the room to get ready. A client that joins
looks its room up, too, and is put into that object some awaits later.

Between the two looks and what follows from them the other may happen. `empty_throughout` says that
a room is never taken away from its users as long as joins and keep-alive unloads of a room do not
overlap, in the sense of `Apart`; and `not_empty_throughout` that the code does not see to it.

The calls are those of the room manager, and on top of them what clients do: `users` are the ids of
the users of each room object. What else a request does is left out, and so is what the client
manager keeps of its clients; a call says for which client it is, and which room the client wants.
-/

namespace OpenTogetherTube.Server.Keepalive

open OpenTogetherTube.Common OpenTogetherTube.Lib
open RoomManager (LoadedRoom Manager UnloadTask UnloadResult Answer)

/-- Times are in milliseconds. `unloaded` is written down: the objects that keep-alive unloads have
taken off the array. -/
structure State where
  rooms : List LoadedRoom
  fresh : ObjectId
  users : ObjectId → List ClientId
  keepAlivePing : ObjectId → Nat
  now : Nat
  unloaded : List ObjectId

/-- Nothing is loaded. -/
def initial : State := ⟨[], 0, fun _ => [], fun _ => 0, 0, []⟩

namespace State

def manager (s : State) : Manager := ⟨s.rooms, fun o => (s.users o).length, s.fresh⟩

/-- A segment of the room manager. A room that is made is not stale. -/
def setManager (s : State) (m : Manager) : State :=
  { s with
    rooms := m.rooms
    fresh := m.fresh
    keepAlivePing := fun o => if s.fresh ≤ o then s.now else s.keepAlivePing o }

/-- A segment of a keep-alive unload. -/
def setUnloaded (s : State) (m : Manager) : State :=
  { s.setManager m with
    unloaded := s.unloaded ++ (s.rooms.filter (fun room => room ∉ m.rooms)).map (·.object) }

def setUsers (s : State) (o : ObjectId) (users : List ClientId) : State :=
  { s with users := Function.update s.users o users }

end State

/-- What arrives. -/
inductive Call where
  /-- What HTTP requests, balancers and a shutdown want, or another unload. -/
  | manager (call : RoomManager.Call)
  | update
  /-- `onClientAuth`. -/
  | auth (client : ClientId) (room : String)
  /-- `makeRoomRequest`, by a message. -/
  | request (client : ClientId) (room : String) (request : RoomRequest)
  /-- `onClientDisconnect`. -/
  | disconnect (client : ClientId) (room : String)

/-- The awaits. A promise that is settled is awaited, too. -/
inductive Task where
  | manager (task : RoomManager.Task)
  /-- A keep-alive unload, and the place at which the updater is that has called it. -/
  | unload (i : Option Nat) (task : UnloadTask)
  -- `update`, at the place `i` of the array
  | roomUpdate (i : Nat) (room : LoadedRoom)
  | roomSync (i : Nat) (room : LoadedRoom)
  | unloadDone (i : Nat)
  -- `onClientAuth`
  | getRoom (client : ClientId) (task : RoomManager.Task)
  | gotRoom (client : ClientId) (room : LoadedRoom)
  -- `makeRoomRequest`, `processUnauthorizedRequest`
  | request (client : ClientId) (request : RoomRequest) (room : LoadedRoom)
  | deriveContext (client : ClientId) (request : RoomRequest) (room : LoadedRoom)
  -- `joinRoom`, `leaveRoom`
  | updateInfo (user : ClientId) (room : LoadedRoom)
  | publishLeave (client : ClientId) (room : LoadedRoom)
  -- `onClientDisconnect`
  | disconnect (client : ClientId) (room : LoadedRoom)

inductive Result where
  | finished | kicked | failed
  | manager (result : RoomManager.Result)

/-- Time goes by, and a room that has users is pinged by its own `update`. -/
inductive Change where
  | tick (milliseconds : Nat)
  | ping (o : ObjectId)

/-- A segment's outcome. -/
abbrev Outcome := State × Progress Task Result

section Segments

variable (toLowerCase : String → String) (unloadAfter : Nat)

/-- The room has not been used for `unload_after` seconds. -/
def State.isStale (s : State) (o : ObjectId) : Prop :=
  unloadAfter < (s.now - s.keepAlivePing o) / 1000

instance (s : State) (o : ObjectId) : Decidable (s.isStale unloadAfter o) :=
  inferInstanceAs (Decidable (_ < _))

def Change.apply : Change → State → Option State
  | .tick milliseconds, s => some { s with now := s.now + milliseconds }
  | .ping o, s =>
    if s.users o ≠ [] then
      some { s with keepAlivePing := Function.update s.keepAlivePing o s.now }
    else none

/-- A segment of a call of the room manager. -/
def managed (s : State) (r : Manager × Progress RoomManager.Task RoomManager.Result) : Outcome :=
  (s.setManager r.1, r.2.map .manager .manager)

/-- A segment of a keep-alive unload. Whatever it ends with, the updater goes on. -/
def unloading (s : State) (i : Option Nat) (r : Manager × Progress UnloadTask UnloadResult) :
    Outcome :=
  (s.setUnloaded r.1, match r.2, i with
    | .waiting task, i => .waiting (.unload i task)
    | .done _, some i => .waiting (.unloadDone i)
    | .done result, none => .done (.manager (.unload result)))

/-! ## The updater -/

/-- The next room of the array, which may have changed. -/
def nextRoom (s : State) (i : Nat) : Progress Task Result :=
  match s.rooms[i]? with
  | some room => .waiting (.roomUpdate i room)
  | none => .done .finished

/-- The rest of the updater's round, when the room has been updated or has failed to. -/
def unloadStale (s : State) (i : Nat) (room : LoadedRoom) : Outcome :=
  if s.isStale unloadAfter room.object then
    unloading s (some i)
      (RoomManager.unloadRoom toLowerCase ⟨.name room.name, .keepalive, none⟩ s.manager)
  else (s, nextRoom s (i + 1))

/-! ## Clients -/

/-- `getRoom` goes on, or has an answer for `onClientAuth`. -/
def onRoom (client : ClientId) : Progress RoomManager.Task RoomManager.Result → Progress Task Result
  | .waiting task => .waiting (.getRoom client task)
  | .done (.ok room) => .waiting (.gotRoom client room)
  | .done .rejected => .done .failed
  | .done _ => .done .kicked

/-- `makeRoomRequest`. The room is looked up at once. -/
def makeRoomRequest (s : State) (client : ClientId) (room : String) (request : RoomRequest) :
    Progress Task Result :=
  match RoomManager.findRoom toLowerCase s.manager room with
  | some room => .waiting (.request client request room)
  | none => .done .failed

/-- `onClientDisconnect`, when the client has joined. -/
def onClientDisconnect (s : State) (client : ClientId) (room : String) : Progress Task Result :=
  match RoomManager.findRoom toLowerCase s.manager room with
  | some room => .waiting (.disconnect client room)
  | none => .done .failed

/-- `leaveRoom`, to its first await. -/
def leaveRoom (s : State) (client : ClientId) (room : LoadedRoom) : Progress Task Result :=
  if client ∈ s.users room.object then .waiting (.publishLeave client room) else .done .failed

/-- `processRequest`. -/
def processRequest (s : State) (client : ClientId) (room : LoadedRoom) :
    RoomRequest → Progress Task Result
  | .join info => .waiting (.updateInfo info.id room)
  | .leave => leaveRoom s client room
  | _ => .done .finished

/-! ## The program -/

def call (call : Call) (s : State) : Outcome :=
  match call with
  | .manager (.unloadRoom call) =>
    if call.reason = .keepalive then
      unloading s none (RoomManager.unloadRoom toLowerCase call s.manager)
    else managed s (RoomManager.start toLowerCase (.unloadRoom call) s.manager)
  | .manager call => managed s (RoomManager.start toLowerCase call s.manager)
  | .update => (s, nextRoom s 0)
  | .auth client room =>
    let r := RoomManager.start toLowerCase (.getRoom room false) s.manager
    (s.setManager r.1, onRoom client r.2)
  | .request client room request => (s, makeRoomRequest toLowerCase s client room request)
  | .disconnect client room => (s, onClientDisconnect toLowerCase s client room)

def resume (task : Task) (answer : Answer) (s : State) : Option Outcome :=
  match task, answer with
  | .manager task, answer =>
    (RoomManager.resume toLowerCase task answer s.manager).map (managed s)
  | .unload i task, answer =>
    (RoomManager.resumeUnload task answer s.manager).map (unloading s i)
  | .roomUpdate i room, .settled => some (s, .waiting (.roomSync i room))
  | .roomUpdate i room, .rejected | .roomSync i room, .settled | .roomSync i room, .rejected =>
    some (unloadStale toLowerCase unloadAfter s i room)
  | .unloadDone i, .settled => some (s, nextRoom s (i + 1))
  | .getRoom client task, answer =>
    (RoomManager.resume toLowerCase task answer s.manager).map
      (fun r => (s.setManager r.1, onRoom client r.2))
  | .gotRoom client room, .settled =>
    some (s, makeRoomRequest toLowerCase s client room.name (.join ⟨client, none, none, none⟩))
  | .request client request room, .settled =>
    some (s, .waiting (.deriveContext client request room))
  | .deriveContext client request room, .settled => some (s, processRequest s client room request)
  | .updateInfo user room, .settled =>
    some (s.setUsers room.object (s.users room.object ++ [user]), .done .finished)
  | .publishLeave client room, .settled =>
    some (s.setUsers room.object ((s.users room.object).erase client), .done .finished)
  | .disconnect client room, .settled => some (s, leaveRoom s client room)
  | .deriveContext _ _ _, .rejected | .updateInfo _ _, .rejected | .publishLeave _ _, .rejected =>
    some (s, .done .failed)
  | _, _ => none

/-- Clients, the updater and the room manager, under every interleaving of their awaits. -/
def node : Program State Call Task Answer Change Result where
  start := call toLowerCase
  resume := resume toLowerCase unloadAfter
  environment := Change.apply

end Segments

abbrev Tasks := Pool State Task Result

abbrev Event := PoolEvent Call Answer Change

/-! ## The specification -/

/-- **The purpose**: a room that a keep-alive unload has taken off the array has no users. Asked for
in every state of a run, it had none when it was taken off, and no join puts one into it later. -/
def NoneStranded (p : Tasks) : Prop := ∀ o ∈ p.shared.unloaded, p.shared.users o = []

/-- The room that a join is on its way into. -/
def Task.joining : Task → Option ObjectId
  | .request _ (.join _) room | .deriveContext _ (.join _) room | .updateInfo _ room =>
    some room.object
  | _ => none

/-- The room that a join is put into next. -/
def Task.enters : Task → Option ObjectId
  | .updateInfo _ room => some room.object
  | _ => none

/-- The room and the place with which a keep-alive unload waits. -/
def Task.unloads : Task → Option (LoadedRoom × Int)
  | .unload _ (.onBeforeUnload room idx _) => some (room, idx)
  | _ => none

/-- The task that goes on. -/
def goesOn (p : Tasks) : Event → Option Task
  | .answer i .settled =>
    match p.tasks[i]? with
    | some (.waiting task) => some task
    | _ => none
  | _ => none

/-- What is at the unload's place, if anything, is not another room of the same name; the room is
still loaded; and no join is on its way into it. -/
def Clear (p : Tasks) (room : LoadedRoom) (idx : Int) : Prop :=
  ∀ there ∈ RoomManager.at? p.shared.rooms idx,
    room ∈ p.shared.rooms ∧ (there.name = room.name → there = room) ∧
      ∀ task ∈ p.suspended, task.joining ≠ some room.object

/-- **The condition**: a join does not end while a keep-alive unload waits for the room to get
ready, and none is on its way when the unload goes on. -/
def Apart (p : Tasks) (e : Event) : Prop :=
  ∀ task ∈ goesOn p e,
    (∀ o ∈ task.enters, ∀ other ∈ p.suspended, ∀ u ∈ other.unloads, u.1.object ≠ o) ∧
      ∀ u ∈ task.unloads, Clear p u.1 u.2

instance (p : Tasks) (e : Event) : Decidable (Apart p e) :=
  inferInstanceAs (Decidable (∀ task ∈ goesOn p e,
    (∀ o ∈ task.enters, ∀ other ∈ p.suspended, ∀ u ∈ other.unloads, u.1.object ≠ o) ∧
      ∀ u ∈ task.unloads, ∀ there ∈ RoomManager.at? p.shared.rooms u.2,
        u.1 ∈ p.shared.rooms ∧ (there.name = u.1.name → there = u.1) ∧
          ∀ task ∈ p.suspended, task.joining ≠ some u.1.object))

/-! ## The invariant -/

/-- The object of a room that is made, and not yet added. -/
def madeBy : Progress Task Result → Option ObjectId
  | .waiting (.manager task) | .waiting (.getRoom _ task) => task.made
  | _ => none

def made (p : Tasks) : List ObjectId := p.tasks.filterMap madeBy

structure Inv (p : Tasks) : Prop where
  issued : RoomManager.Issued p.shared.fresh
    (p.shared.unloaded ++ RoomManager.objects p.shared.rooms ++ made p)
  empty : NoneStranded p
  joining : ∀ task ∈ p.suspended, ∀ o ∈ task.joining, o ∉ p.shared.unloaded
  unloading : ∀ task ∈ p.suspended, ∀ u ∈ task.unloads, p.shared.users u.1.object = []

theorem inv_initial : Inv (Pool.idle initial) where
  issued := .nil 0
  empty _ h := by cases h
  joining _ h := by cases h
  unloading _ h := by cases h

/-- What a segment has to do for the invariant: its task held the room `old` that it had made. -/
structure Allowed (p : Tasks) (old : Option ObjectId) (o : Outcome) : Prop where
  issued : ∀ rest, RoomManager.Issued p.shared.fresh
      (p.shared.unloaded ++ RoomManager.objects p.shared.rooms ++ (old.toList ++ rest)) →
    RoomManager.Issued o.1.fresh
      (o.1.unloaded ++ RoomManager.objects o.1.rooms ++ ((madeBy o.2).toList ++ rest))
  empty : ∀ object ∈ o.1.unloaded, o.1.users object = []
  joining : ∀ task ∈ p.suspended, ∀ object ∈ task.joining, object ∉ o.1.unloaded
  unloading : ∀ task ∈ p.suspended, ∀ u ∈ task.unloads, o.1.users u.1.object = []
  joins : ∀ task, o.2 = .waiting task → ∀ object ∈ task.joining, object ∉ o.1.unloaded
  unloads : ∀ task, o.2 = .waiting task → ∀ u ∈ task.unloads, o.1.users u.1.object = []

section Segments

variable {p : Tasks} {old : Option ObjectId} {o : Outcome}

theorem Inv.advance (h : Inv p) (ho : Allowed p old o) {tasks : List (Progress Task Result)}
    (hmade : ∃ rest, (made p).Perm (old.toList ++ rest) ∧
      (tasks.filterMap madeBy).Perm ((madeBy o.2).toList ++ rest))
    (htasks : ∀ t ∈ tasks, t = o.2 ∨ t ∈ p.tasks) : Inv ⟨o.1, tasks⟩ := by
  have hsuspended : ∀ task ∈ (⟨o.1, tasks⟩ : Tasks).suspended,
      o.2 = .waiting task ∨ task ∈ p.suspended := by
    intro task htask
    exact (htasks _ (Pool.mem_suspended.mp htask)).imp Eq.symm Pool.mem_suspended.mpr
  constructor
  case issued =>
    obtain ⟨rest, hbefore, hafter⟩ := hmade
    have hissued := ho.issued rest (h.issued.perm (hbefore.append_left _))
    exact hissued.perm (hafter.symm.append_left _)
  case empty => exact ho.empty
  case joining =>
    intro task htask
    exact (hsuspended task htask).elim (ho.joins task) (ho.joining task)
  case unloading =>
    intro task htask
    exact (hsuspended task htask).elim (ho.unloads task) (ho.unloading task)

theorem Inv.call (h : Inv p) (ho : Allowed p none o) : Inv ⟨o.1, p.tasks ++ [o.2]⟩ := by
  refine h.advance ho ⟨made p, .refl _, ?_⟩ ?_
  · rw [List.filterMap_append]
    have hnew : [o.2].filterMap madeBy = (madeBy o.2).toList := by
      rw [List.filterMap_cons, List.filterMap_nil]
      cases madeBy o.2 <;> rfl
    rw [hnew]
    exact List.perm_append_comm
  · intro t ht
    exact (List.mem_append.mp ht).symm.imp_left List.mem_singleton.mp

theorem Inv.answer (h : Inv p) {i : Nat} {task : Task} (htask : p.tasks[i]? = some (.waiting task))
    (ho : Allowed p (madeBy (.waiting task)) o) : Inv ⟨o.1, p.tasks.set i o.2⟩ := by
  refine h.advance ho (Program.filterMap_set_perm madeBy htask o.2) ?_
  intro t ht
  exact (List.mem_or_eq_of_mem_set ht).symm

/-- A segment that unloads nothing, and does not bring users into rooms that have none. -/
theorem Inv.quiet (h : Inv p) (hunloaded : o.1.unloaded = p.shared.unloaded)
    (husers : ∀ object, p.shared.users object = [] → o.1.users object = [])
    (hissued : ∀ others, RoomManager.Issued p.shared.fresh
        (others ++ RoomManager.objects p.shared.rooms ++ old.toList) →
      RoomManager.Issued o.1.fresh
        (others ++ RoomManager.objects o.1.rooms ++ (madeBy o.2).toList))
    (hjoins : ∀ task, o.2 = .waiting task → ∀ object ∈ task.joining, object ∉ p.shared.unloaded)
    (hunloads : ∀ task, o.2 = .waiting task → ∀ u ∈ task.unloads, o.1.users u.1.object = []) :
    Allowed p old o where
  issued rest hrest := by
    have hswap : ∀ (unloaded rooms made : List ObjectId),
        (unloaded ++ rooms ++ (made ++ rest)).Perm (unloaded ++ rest ++ rooms ++ made) := by
      intro unloaded rooms made
      grind
    rw [hunloaded]
    exact (hissued _ (hrest.perm (hswap ..))).perm (hswap ..).symm
  empty object hobject := husers object (h.empty object (hunloaded ▸ hobject))
  joining task htask object hobject := hunloaded ▸ h.joining task htask object hobject
  unloading task htask u hu := husers _ (h.unloading task htask u hu)
  joins task htask object hobject := hunloaded ▸ hjoins task htask object hobject
  unloads := hunloads

theorem Inv.finish (h : Inv p) (result : Result) : Allowed p old (p.shared, .done result) := by
  refine h.quiet rfl (fun _ hnone => hnone) (fun others hissued => ?_) ?_ ?_
  · exact hissued.leave (m := p.shared.manager) rfl (.refl _) (.inr rfl)
  · exact fun task htask => by cases htask
  · exact fun task htask => by cases htask

theorem Inv.wait (h : Inv p) {task : Task} (hmade : madeBy (.waiting task) = none)
    (hunloads : task.unloads = none)
    (hjoins : ∀ object ∈ task.joining, object ∉ p.shared.unloaded) :
    Allowed p old (p.shared, .waiting task) := by
  refine h.quiet rfl (fun _ hnone => hnone) (fun others hissued => ?_) ?_ ?_
  · exact hissued.leave (m := p.shared.manager) rfl (.refl _) (.inr hmade)
  · intro task' htask
    cases htask
    exact hjoins
  · intro task' htask u hu
    cases htask
    rw [hunloads] at hu
    cases hu

/-- A room that is loaded has not been unloaded. -/
theorem Inv.not_unloaded (h : Inv p) {room : LoadedRoom} (hroom : room ∈ p.shared.rooms) :
    room.object ∉ p.shared.unloaded := by
  intro hmem
  have hnodup := (List.nodup_append.mp h.issued.once).1
  exact (List.nodup_append.mp hnodup).2.2 _ hmem _ (List.mem_map_of_mem hroom) rfl

theorem Inv.rooms_nodup (h : Inv p) : p.shared.rooms.Nodup := by
  have hnodup := (List.nodup_append.mp h.issued.once).1
  exact List.Nodup.of_map _ (List.nodup_append.mp hnodup).2.1

/-! ### Calls of the room manager -/

section Manager

variable {m : Manager} {pr : Progress RoomManager.Task RoomManager.Result}

theorem Inv.managed (h : Inv p)
    (hissued : ∀ others, RoomManager.Issued p.shared.fresh
        (others ++ RoomManager.objects p.shared.rooms ++ old.toList) →
      RoomManager.Issued m.fresh
        (others ++ RoomManager.objects m.rooms ++ (RoomManager.madeBy pr).toList)) :
    Allowed p old (Keepalive.managed p.shared (m, pr)) := by
  refine h.quiet rfl (fun _ hnone => hnone) (fun others hbefore => ?_) ?_ ?_
  · have hmade : madeBy (pr.map .manager .manager) = RoomManager.madeBy pr := by
      cases pr <;> rfl
    show RoomManager.Issued m.fresh (_ ++ (madeBy (pr.map .manager .manager)).toList)
    rw [hmade]
    exact hissued others hbefore
  all_goals
    intro task htask
    cases pr with
    | waiting task' =>
      cases htask
      exact fun _ hnone => by cases hnone
    | done result => cases htask

theorem Inv.onRoom (h : Inv p) (client : ClientId)
    (hissued : ∀ others, RoomManager.Issued p.shared.fresh
        (others ++ RoomManager.objects p.shared.rooms ++ old.toList) →
      RoomManager.Issued m.fresh
        (others ++ RoomManager.objects m.rooms ++ (RoomManager.madeBy pr).toList)) :
    Allowed p old (p.shared.setManager m, Keepalive.onRoom client pr) := by
  have hmade : madeBy (Keepalive.onRoom client pr) = RoomManager.madeBy pr := by
    cases pr with
    | waiting task => rfl
    | done result => cases result <;> rfl
  have htask : ∀ task, Keepalive.onRoom client pr = .waiting task →
      task.joining = none ∧ task.unloads = none := by
    intro task htask
    cases pr with
    | waiting task' =>
      cases htask
      exact ⟨rfl, rfl⟩
    | done result =>
      cases result with
      | ok room =>
        cases htask
        exact ⟨rfl, rfl⟩
      | _ => cases htask
  refine h.quiet rfl (fun _ hnone => hnone) (fun others hbefore => ?_) ?_ ?_
  · show RoomManager.Issued m.fresh (_ ++ (madeBy (Keepalive.onRoom client pr)).toList)
    rw [hmade]
    exact hissued others hbefore
  · intro task heq object hobject
    rw [(htask task heq).1] at hobject
    cases hobject
  · intro task heq u hu
    rw [(htask task heq).2] at hu
    cases hu

end Manager

/-! ### Keep-alive unloads -/

section Unload

variable {toLowerCase : String → String} {m : Manager} {i : Option Nat}

theorem unloading_task {s : State} {r : Manager × Progress UnloadTask UnloadResult} {task : Task}
    (h : (unloading s i r).2 = .waiting task) :
    (∃ t, r.2 = .waiting t ∧ task = .unload i t) ∨ ∃ k, task = .unloadDone k := by
  obtain ⟨m, t | result⟩ := r
  · cases h
    exact .inl ⟨t, rfl, rfl⟩
  · cases i with
    | some k =>
      cases h
      exact .inr ⟨k, rfl⟩
    | none => cases h

theorem madeBy_unloading (s : State) (i : Option Nat)
    (r : Manager × Progress UnloadTask UnloadResult) : madeBy (unloading s i r).2 = none := by
  obtain ⟨m, t | result⟩ := r
  · rfl
  · cases i <;> rfl

theorem unloading_joining {s : State} {r : Manager × Progress UnloadTask UnloadResult} {task : Task}
    (h : (unloading s i r).2 = .waiting task) : task.joining = none := by
  obtain ⟨t, -, rfl⟩ | ⟨k, rfl⟩ := unloading_task h
  · rfl
  · rfl

theorem unloaded_of_subset {s : State} (h : ∀ room ∈ s.rooms, room ∈ m.rooms) :
    (s.setUnloaded m).unloaded = s.unloaded := by
  have hnone : s.rooms.filter (fun room => room ∉ m.rooms) = [] :=
    List.filter_eq_nil_iff.mpr (fun room hroom => by simpa using h room hroom)
  show s.unloaded ++ (s.rooms.filter (fun room => room ∉ m.rooms)).map (·.object) = s.unloaded
  rw [hnone, List.map_nil, List.append_nil]

/-- A keep-alive unload waits, if its room has no users. -/
theorem unloadRoom_keepalive (toLowerCase : String → String) (m : Manager)
    {call : RoomManager.Unload} (hcall : call.reason = .keepalive) :
    (RoomManager.unloadRoom toLowerCase call m).1 = m ∧
      ∀ task, (RoomManager.unloadRoom toLowerCase call m).2 = .waiting task →
        ∃ room idx preserveRedis, task = .onBeforeUnload room idx preserveRedis ∧
          m.users room.object = 0 := by
  unfold RoomManager.unloadRoom
  dsimp only
  split
  · exact ⟨rfl, fun task htask => by cases htask⟩
  · next room idx _ =>
    split
    · exact ⟨rfl, fun task htask => by cases htask⟩
    · next hnone =>
      rw [if_pos (by rw [hcall]; simp)]
      refine ⟨rfl, fun task htask => ?_⟩
      cases htask
      refine ⟨room, idx, _, rfl, Nat.eq_zero_of_not_pos fun hpos => hnone ⟨hcall, hpos⟩⟩

/-- A segment of a keep-alive unload that takes nothing off. -/
theorem Inv.unloading_same (h : Inv p) {t : Progress UnloadTask UnloadResult}
    (hwaiting : ∀ room idx preserveRedis, t = .waiting (.onBeforeUnload room idx preserveRedis) →
      p.shared.users room.object = []) :
    Allowed p old (Keepalive.unloading p.shared i (p.shared.manager, t)) := by
  refine h.quiet (unloaded_of_subset fun _ hroom => hroom) (fun _ hnone => hnone)
    (fun others hissued => ?_) ?_ ?_
  · exact RoomManager.Issued.leave (m := p.shared.manager) hissued rfl (.refl _)
      (.inr (madeBy_unloading ..))
  · intro task htask object hobject
    rw [unloading_joining htask] at hobject
    cases hobject
  · intro task htask u hu
    obtain ⟨t', heq, rfl⟩ | ⟨k, rfl⟩ := unloading_task htask
    · cases t' with
      | onBeforeUnload room idx preserveRedis =>
        cases hu
        exact hwaiting room idx preserveRedis heq
      | _ => cases hu
    · cases hu

theorem Inv.unloadRoom (h : Inv p) {call : RoomManager.Unload} (hcall : call.reason = .keepalive) :
    Allowed p old (Keepalive.unloading p.shared i
      (RoomManager.unloadRoom toLowerCase call p.shared.manager)) := by
  obtain ⟨hm, hwaiting⟩ := unloadRoom_keepalive toLowerCase p.shared.manager hcall
  rw [← Prod.mk.eta (p := RoomManager.unloadRoom toLowerCase call p.shared.manager), hm]
  refine h.unloading_same (fun room idx preserveRedis heq => ?_)
  obtain ⟨room', idx', preserveRedis', htask, hnone⟩ := hwaiting _ heq
  cases htask
  exact List.length_eq_zero_iff.mp hnone

/-- What is gone is the room. -/
theorem filter_removed {rooms rooms' : List LoadedRoom} {room : LoadedRoom} (h : rooms.Nodup)
    (hroom : room ∈ rooms) (hrooms : rooms' = rooms.filter (fun r => r ≠ room)) :
    rooms.filter (fun r => r ∉ rooms') = [room] := by
  have hone : rooms.filter (fun r => r ∉ rooms') = rooms.filter (fun r => r = room) := by
    refine List.filter_congr (fun r hr => decide_eq_decide.mpr ?_)
    rw [hrooms, List.mem_filter, decide_eq_true_iff]
    grind
  rw [hone, List.filter_eq, List.count_eq_one_of_mem h hroom]
  rfl

theorem objects_perm {rooms : List LoadedRoom} {room : LoadedRoom} (h : rooms.Nodup)
    (hroom : room ∈ rooms) : (RoomManager.objects rooms).Perm
      (room.object :: RoomManager.objects (rooms.filter (fun r => r ≠ room))) := by
  rw [← erase_eq_filter_of_nodup h room]
  exact (List.perm_cons_erase hroom).map (fun room => room.object)

/-- **The room is taken off the array.** -/
theorem Inv.removeRoom (h : Inv p) {room : LoadedRoom} {idx : Int}
    (hwaits : p.shared.users room.object = []) (hclear : Clear p room idx) (preserveRedis : Bool) :
    Allowed p none (Keepalive.unloading p.shared i
      (RoomManager.removeRoom p.shared.manager room idx preserveRedis)) := by
  cases hthere : RoomManager.at? p.shared.rooms idx with
  | none =>
    rw [RoomManager.removeRoom_of_at?_eq_none hthere]
    exact h.unloading_same (fun _ _ _ heq => by cases heq)
  | some there =>
    obtain ⟨hroom, hname, hjoins⟩ := hclear there hthere
    have hrooms := RoomManager.removeRoom_of_place (m := p.shared.manager) h.rooms_nodup hroom
      hthere hname preserveRedis
    have hfresh := RoomManager.removeRoom_fresh p.shared.manager room idx preserveRedis
    have hwaiting : ∀ room' idx' preserveRedis',
        (RoomManager.removeRoom p.shared.manager room idx preserveRedis).2 ≠
          .waiting (.onBeforeUnload room' idx' preserveRedis') :=
      fun _ _ _ => RoomManager.removeRoom_waiting
    generalize RoomManager.removeRoom p.shared.manager room idx preserveRedis = r
      at hrooms hfresh hwaiting ⊢
    have hunloaded : (p.shared.setUnloaded r.1).unloaded = p.shared.unloaded ++ [room.object] :=
      congrArg (fun rooms => p.shared.unloaded ++ RoomManager.objects rooms)
        (filter_removed h.rooms_nodup hroom hrooms)
    have hmem : ∀ object ∈ (p.shared.setUnloaded r.1).unloaded,
        object ∈ p.shared.unloaded ∨ object = room.object := by
      rw [hunloaded]
      exact fun object hobject => (List.mem_append.mp hobject).imp_right List.mem_singleton.mp
    constructor
    case issued =>
      intro rest hissued
      show RoomManager.Issued r.1.fresh ((p.shared.setUnloaded r.1).unloaded ++
        RoomManager.objects r.1.rooms ++
          ((madeBy (Keepalive.unloading p.shared i r).2).toList ++ rest))
      rw [hfresh, hunloaded, hrooms, madeBy_unloading]
      refine hissued.perm (List.Perm.append_right _ ?_)
      rw [List.append_assoc]
      exact (objects_perm h.rooms_nodup hroom).append_left _
    case empty =>
      intro object hobject
      obtain hold | rfl := hmem object hobject
      · exact h.empty object hold
      · exact hwaits
    case joining =>
      intro task htask object hobject hgone
      obtain hold | rfl := hmem object hgone
      · exact h.joining task htask object hobject hold
      · exact hjoins task htask hobject
    case unloading => exact h.unloading
    case joins =>
      intro task htask object hobject
      rw [unloading_joining htask] at hobject
      cases hobject
    case unloads =>
      intro task htask u hu
      obtain ⟨t', heq, rfl⟩ | ⟨k, rfl⟩ := unloading_task htask
      · cases t' with
        | onBeforeUnload room' idx' preserveRedis' => exact absurd heq (hwaiting _ _ _)
        | _ => cases hu
      · cases hu

end Unload

/-! ### Clients -/

section Clients

variable {toLowerCase : String → String} {client : ClientId} {request : RoomRequest}

/-- A room that was looked up is loaded. -/
theorem mem_of_findRoom {m : Manager} {name : String} {room : LoadedRoom}
    (h : RoomManager.findRoom toLowerCase m name = some room) : room ∈ m.rooms :=
  List.mem_of_find?_eq_some h

theorem Inv.makeRoomRequest (h : Inv p) (room : String) : Allowed p old
    (p.shared, Keepalive.makeRoomRequest toLowerCase p.shared client room request) := by
  unfold Keepalive.makeRoomRequest
  cases hfind : RoomManager.findRoom toLowerCase p.shared.manager room with
  | none => exact h.finish _
  | some room =>
    refine h.wait rfl rfl (fun object hobject => ?_)
    cases request with
    | join info =>
      cases hobject
      exact h.not_unloaded (mem_of_findRoom hfind)
    | _ => cases hobject

theorem Inv.onClientDisconnect (h : Inv p) (room : String) : Allowed p old
    (p.shared, Keepalive.onClientDisconnect toLowerCase p.shared client room) := by
  unfold Keepalive.onClientDisconnect
  split
  · exact h.wait rfl rfl (fun _ hnone => by cases hnone)
  · exact h.finish _

theorem Inv.leaveRoom (h : Inv p) (room : LoadedRoom) :
    Allowed p old (p.shared, Keepalive.leaveRoom p.shared client room) := by
  unfold Keepalive.leaveRoom
  split
  · exact h.wait rfl rfl (fun _ hnone => by cases hnone)
  · exact h.finish _

theorem Inv.nextRoom (h : Inv p) (i : Nat) :
    Allowed p old (p.shared, Keepalive.nextRoom p.shared i) := by
  unfold Keepalive.nextRoom
  split
  · exact h.wait rfl rfl (fun _ hnone => by cases hnone)
  · exact h.finish _

theorem Inv.unloadStale (h : Inv p) (unloadAfter i : Nat) (room : LoadedRoom) :
    Allowed p old (Keepalive.unloadStale toLowerCase unloadAfter p.shared i room) := by
  unfold Keepalive.unloadStale
  split
  · exact h.unloadRoom rfl
  · exact h.nextRoom (i + 1)

theorem Inv.processRequest (h : Inv p) (room : LoadedRoom)
    (hjoining : ∀ info, request = .join info → room.object ∉ p.shared.unloaded) :
    Allowed p old (p.shared, Keepalive.processRequest p.shared client room request) := by
  cases request with
  | join info =>
    refine h.wait rfl rfl (fun object hobject => ?_)
    cases hobject
    exact hjoining info rfl
  | leave => exact h.leaveRoom room
  | _ => exact h.finish _

/-- A user is put into the room. -/
theorem Inv.enter (h : Inv p) {room : ObjectId} (hloaded : room ∉ p.shared.unloaded)
    (halone : ∀ task ∈ p.suspended, ∀ u ∈ task.unloads, u.1.object ≠ room) (user : ClientId) :
    Allowed p none (p.shared.setUsers room (p.shared.users room ++ [user]), .done .finished) where
  issued _ hissued := hissued
  empty object hobject := by
    have hne : object ≠ room := fun heq => hloaded (heq ▸ hobject)
    exact (Function.update_of_ne hne ..).trans (h.empty object hobject)
  joining := h.joining
  unloading task htask u hu :=
    (Function.update_of_ne (halone task htask u hu) ..).trans (h.unloading task htask u hu)
  joins task htask := by cases htask
  unloads task htask := by cases htask

theorem Inv.leave (h : Inv p) (room : ObjectId) (client : ClientId) : Allowed p old
    (p.shared.setUsers room ((p.shared.users room).erase client), .done .finished) := by
  refine h.quiet rfl (fun object hnone => ?_) (fun others hissued => ?_) ?_ ?_
  · show Function.update p.shared.users room _ object = []
    by_cases heq : object = room
    · subst heq
      rw [Function.update_self, hnone]
      rfl
    · rwa [Function.update_of_ne heq]
  · exact hissued.leave (m := p.shared.manager) rfl (.refl _) (.inr rfl)
  · exact fun task htask => by cases htask
  · exact fun task htask => by cases htask

end Clients

end Segments

/-! ## One step -/

section Step

variable {toLowerCase : String → String} {unloadAfter : Nat} {p p' : Tasks}

theorem Inv.start (h : Inv p) (c : Call) :
    Allowed p none (Keepalive.call toLowerCase c p.shared) := by
  have hmanaged : ∀ c : RoomManager.Call, Allowed p none
      (Keepalive.managed p.shared (RoomManager.start toLowerCase c p.shared.manager)) := by
    intro c
    obtain ⟨hrooms, hfresh, hmade⟩ := RoomManager.start_objects toLowerCase c p.shared.manager
    exact h.managed (fun others hissued => hissued.leave (m := p.shared.manager) hfresh hrooms
      (.inr hmade))
  cases c with
  | manager c =>
    cases c with
    | unloadRoom c =>
      show Allowed p none (if c.reason = .keepalive then _ else _)
      split
      · next hkeepalive => exact h.unloadRoom hkeepalive
      · exact hmanaged _
    | _ => exact hmanaged _
  | update => exact h.nextRoom 0
  | auth client room =>
    obtain ⟨hrooms, hfresh, hmade⟩ :=
      RoomManager.start_objects toLowerCase (.getRoom room false) p.shared.manager
    exact h.onRoom client (fun others hissued => hissued.leave (m := p.shared.manager) hfresh hrooms
      (.inr hmade))
  | request client room request => exact h.makeRoomRequest room
  | disconnect client room => exact h.onClientDisconnect room

theorem Inv.resume (h : Inv p) {i : Nat} {task : Task} (htask : p.tasks[i]? = some (.waiting task))
    {answer : Answer} (hapart : Apart p (.answer i answer)) {o : Outcome}
    (hresume : resume toLowerCase unloadAfter task answer p.shared = some o) :
    Allowed p (madeBy (.waiting task)) o := by
  have hmem : task ∈ p.suspended := Pool.mem_suspended.mpr (List.mem_of_getElem? htask)
  cases task with
  | manager task =>
    obtain ⟨r, hr, rfl⟩ := Option.map_eq_some_iff.mp hresume
    exact h.managed (fun others hissued => RoomManager.resume_objects hr hissued)
  | unload k task =>
    obtain ⟨⟨m, t⟩, hr, rfl⟩ := Option.map_eq_some_iff.mp hresume
    obtain ⟨rfl, -, -, hwaiting, -⟩ | ⟨room, idx, preserveRedis, rfl, rfl, rfl, rfl⟩ :=
      RoomManager.resumeUnload_cases hr
    · exact h.unloading_same (fun room idx preserveRedis heq => absurd heq (hwaiting _ _ _))
    · have hgoes : goesOn p (.answer i .settled) =
          some (.unload k (.onBeforeUnload room idx preserveRedis)) := by
        simp only [goesOn, htask]
      exact h.removeRoom (h.unloading _ hmem (room, idx) rfl) ((hapart _ hgoes).2 (room, idx) rfl)
        preserveRedis
  | getRoom client task =>
    obtain ⟨r, hr, rfl⟩ := Option.map_eq_some_iff.mp hresume
    exact h.onRoom client (fun others hissued => RoomManager.resume_objects hr hissued)
  | roomUpdate k room =>
    cases answer with
    | settled =>
      cases hresume
      exact h.wait rfl rfl (fun _ hnone => by cases hnone)
    | rejected =>
      cases hresume
      exact h.unloadStale unloadAfter k room
    | _ => cases hresume
  | roomSync k room =>
    cases answer with
    | settled =>
      cases hresume
      exact h.unloadStale unloadAfter k room
    | rejected =>
      cases hresume
      exact h.unloadStale unloadAfter k room
    | _ => cases hresume
  | unloadDone k =>
    cases answer with
    | settled =>
      cases hresume
      exact h.nextRoom (k + 1)
    | _ => cases hresume
  | gotRoom client room =>
    cases answer with
    | settled =>
      cases hresume
      exact h.makeRoomRequest room.name
    | _ => cases hresume
  | request client request room =>
    cases answer with
    | settled =>
      cases hresume
      refine h.wait rfl rfl (fun object hobject => h.joining _ hmem object ?_)
      cases request with
      | join info => exact hobject
      | _ => cases hobject
    | _ => cases hresume
  | deriveContext client request room =>
    cases answer with
    | settled =>
      cases hresume
      refine h.processRequest room (fun info hinfo => ?_)
      subst hinfo
      exact h.joining _ hmem room.object rfl
    | rejected =>
      cases hresume
      exact h.finish _
    | _ => cases hresume
  | updateInfo user room =>
    cases answer with
    | settled =>
      cases hresume
      have hgoes : goesOn p (.answer i .settled) = some (.updateInfo user room) := by
        simp only [goesOn, htask]
      exact h.enter (h.joining _ hmem room.object rfl) ((hapart _ hgoes).1 room.object rfl) user
    | rejected =>
      cases hresume
      exact h.finish _
    | _ => cases hresume
  | publishLeave client room =>
    cases answer with
    | settled =>
      cases hresume
      exact h.leave room.object client
    | rejected =>
      cases hresume
      exact h.finish _
    | _ => cases hresume
  | disconnect client room =>
    cases answer with
    | settled =>
      cases hresume
      exact h.leaveRoom room
    | _ => cases hresume

/-- **One step.** -/
theorem step_inv {e : Event} (h : Inv p) (hapart : Apart p e)
    (hstep : (node toLowerCase unloadAfter).machine.step p e = some p') : Inv p' := by
  obtain ⟨c, rfl, rfl⟩ | ⟨i, answer, task, s', t, rfl, htask, hresume, rfl⟩ |
    ⟨change, s', rfl, henv, rfl⟩ := Program.step_cases hstep
  · exact h.call (h.start c)
  · exact h.answer htask (h.resume htask hapart hresume)
  · cases change with
    | tick milliseconds =>
      cases henv
      exact ⟨h.issued, h.empty, h.joining, h.unloading⟩
    | ping object =>
      obtain ⟨-, heq⟩ := Option.ite_none_right_eq_some.mp henv
      cases heq
      exact ⟨h.issued, h.empty, h.joining, h.unloading⟩

end Step

/-- **No user is in a room that a keep-alive unload has taken away**, in every run in which joins
and keep-alive unloads of a room do not overlap. -/
theorem empty_throughout (toLowerCase : String → String) (unloadAfter : Nat) {events : List Event}
    (h : (node toLowerCase unloadAfter).machine.Along Apart (Pool.idle initial) events) :
    (node toLowerCase unloadAfter).machine.Always NoneStranded (Pool.idle initial) events :=
  (Machine.always_of_along (fun _ _ _ => step_inv) inv_initial h).imp (fun _ => Inv.empty)

/-- A client joins the room, and leaves it. Five minutes later the updater finds the room stale. -/
def goesStale : List Event :=
  [.call (.auth "a" "foo"), .answer 0 (.stored none), .answer 0 (.stored (some ⟨"foo", true⟩)),
    .answer 0 (.epoch 1), .answer 0 .settled, .answer 0 .settled, .answer 0 .settled,
    .answer 0 .settled, .call (.disconnect "a" "foo"), .answer 1 .settled, .answer 1 .settled,
    .external (.tick 301000), .call .update, .answer 2 .settled, .answer 2 .settled]

theorem empty_throughout_goesStale :
    (node id 300).machine.Along Apart (Pool.idle initial) (goesStale ++ [.answer 2 .settled]) ∧
    (node id 300).machine.Always NoneStranded (Pool.idle initial)
      (goesStale ++ [.answer 2 .settled]) := by
  have hapart : (node id 300).machine.Along Apart (Pool.idle initial)
      (goesStale ++ [.answer 2 .settled]) := by
    decide +kernel
  exact ⟨hapart, empty_throughout id 300 hapart⟩

/-- While the unload waits, another client joins. -/
def joinsStale : List Event :=
  goesStale ++ [.call (.auth "b" "foo"), .answer 3 .settled, .answer 3 .settled, .answer 3 .settled,
    .answer 3 .settled, .answer 2 .settled]

/-- **The room is taken away from the client.** -/
theorem not_empty_throughout :
    ¬ ∀ (toLowerCase : String → String) (unloadAfter : Nat) (events : List Event),
      (node toLowerCase unloadAfter).machine.Always NoneStranded (Pool.idle initial) events := by
  intro h
  have hrun : ((node id 300).machine.run (Pool.idle initial) joinsStale).map
      (fun p => (p.shared.unloaded, p.shared.users 0)) = some ([0], ["b"]) := by
    decide +kernel
  obtain ⟨p, hp, heq⟩ := Option.map_eq_some_iff.mp hrun
  obtain ⟨hunloaded, husers⟩ := Prod.mk.inj heq
  have hnone := (h id 300 joinsStale).last hp
  have hempty := hnone 0 (by rw [hunloaded]; exact List.mem_cons_self)
  rw [husers] at hempty
  cases hempty

end OpenTogetherTube.Server.Keepalive
