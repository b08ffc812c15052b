import OpenTogetherTube.Balancer.Cluster
import Mathlib.Data.Prod.Lex

/-!
# What is left to do

Every message between the balancer and its monoliths makes work at the other end, and some of that work
is messages again. What is on its way or suspended has a rank, and what comes of it has smaller ones: a
join makes a monolith look a room up, load and report it, a report may make the balancer tell a monolith
to unload, and an unload is reported again. Messages to clients have the smallest ranks, so that there
can be any number of them.

A gossip has a rank above all that: when the balancer begins to handle it, it finds rooms to remove that
nobody could count before.
-/

namespace OpenTogetherTube.Balancer.Cluster

open OpenTogetherTube.Lib
open Gossip (MsgM2B sentTo)

abbrev Rank := ℕ ×ₗ ℕ

def low (k : Nat) : Rank := toLex (0, k)

def high (k : Nat) : Rank := toLex (1, k)

@[simp] theorem low_lt_low {i j : Nat} : low i < low j ↔ i < j := by
  simp [low, Prod.Lex.toLex_lt_toLex]

/-- Any number of low ranks weighs less than one high one. -/
@[simp] theorem low_lt_high {i j : Nat} : low i < high j := by
  simp [low, high, Prod.Lex.toLex_lt_toLex]

@[simp] theorem high_lt_high {i j : Nat} : high i < high j ↔ i < j := by
  simp [high, Prod.Lex.toLex_lt_toLex]

/-! ## The balancer -/

/-- The rest of a gossip. For a listed room the balancer takes the lock, tells somebody to unload it, and
drops it. -/
def gossipRank (rooms : List GossipRoom) (toRemove : List RoomName) : Nat :=
  8 + 3 * rooms.length + toRemove.length

def taskRank : Task → Rank
  | .joinReserve _ => low 21
  | .joinSend _ _ _ => low 20
  | .joinRegister _ _ | .joinAbandon _ _ _ _ | .leaveAbandon _ => low 0
  | .leaveRemove _ => low 6
  | .leaveSend _ _ => low 5
  | .joinMonolith _ | .leaveMonolith _ => low 0
  | .loaded _ _ _ => low 9
  | .loadedSend _ _ _ => low 8
  | .unloaded _ _ => low 0
  | .gossip _ _ => high 0
  | .gossipSync _ room rooms toRemove => low (gossipRank (room :: rooms) toRemove)
  | .gossipSend _ _ _ rooms toRemove => low (2 + gossipRank rooms toRemove)
  | .gossipDrop _ _ rooms toRemove => low (1 + gossipRank rooms toRemove)
  | .gossipRemove _ _ toRemove => low (1 + gossipRank [] toRemove)
  | .roomMsg _ _ _ | .kick _ => low 1
  | .roomMsgSend _ | .kickSend _ => low 0

def inboxRank : MsgB2M → Rank
  | .join _ _ _ => low 19
  | .leave _ => low 4
  | .unload _ => low 7

/-- What a task leaves behind that goes on. -/
def progressRanks : Progress Task TaskEnd → List Rank
  | .waiting task => [taskRank task]
  | .done _ => []

variable {task : Task} {x : Answer} {s s' : State} {progress : Progress Task TaskEnd}

/-- What comes of a segment has smaller ranks. -/
structure Spends (task : Task) (s : State) (out : State × Progress Task TaskEnd) : Prop where
  goesOn : ∀ rank ∈ progressRanks out.2, rank < taskRank task
  sends : ∃ sent, out.1.outbox = s.outbox ++ sent ∧ ∀ e ∈ sent, inboxRank e.2 < taskRank task

theorem Spends.of_quiet (houtbox : s'.outbox = s.outbox)
    (hgoesOn : ∀ rank ∈ progressRanks progress, rank < taskRank task) :
    Spends task s (s', progress) :=
  ⟨hgoesOn, [], by rw [houtbox, List.append_nil], fun e he => nomatch he⟩

/-- A segment that only ends. -/
theorem Spends.stays {result : TaskEnd} : Spends task s (s, .done result) :=
  .of_quiet rfl (fun _ hrank => nomatch hrank)

/-- A segment that changes the context and ends. -/
theorem Spends.ends {ctx : BalancerContext} {result : TaskEnd} :
    Spends task s (s.withCtx ctx, .done result) :=
  .of_quiet rfl (fun _ hrank => nomatch hrank)

/-- A segment that waits for something smaller. -/
theorem Spends.of_waiting {task' : Task} (houtbox : s'.outbox = s.outbox)
    (hless : taskRank task' < taskRank task) : Spends task s (s', .waiting task') := by
  refine .of_quiet houtbox fun rank hrank => ?_
  rw [List.mem_singleton.mp hrank]
  exact hless

/-- A segment that sends a message. -/
theorem Spends.of_post {m : MonolithId} {msg : MsgB2M} (hmsg : inboxRank msg < taskRank task)
    (hgoesOn : ∀ rank ∈ progressRanks progress, rank < taskRank task) :
    Spends task s (s.post m msg, progress) := by
  refine ⟨hgoesOn, [(m, msg)], rfl, fun e he => ?_⟩
  rw [List.mem_singleton.mp he]
  exact hmsg

theorem gossipNext_ranks {m : MonolithId} {rooms : List GossipRoom} {toRemove : List RoomName}
    {rank : Rank} (h : rank ∈ progressRanks (gossipNext m rooms toRemove)) :
    rank = low (gossipRank rooms toRemove) := by
  cases rooms with
  | cons room rooms => exact List.mem_singleton.mp h
  | nil =>
    cases toRemove with
    | cons room toRemove =>
      rw [List.mem_singleton.mp h]
      simp only [taskRank, gossipRank, List.length_cons, List.length_nil]
      exact congrArg low (by omega)
    | nil => cases h

/-- The next room of a gossip. -/
theorem gossipNext_lt {m : MonolithId} {rooms : List GossipRoom} {toRemove : List RoomName}
    {k : Nat} (hk : gossipRank rooms toRemove < k) :
    ∀ rank ∈ progressRanks (gossipNext m rooms toRemove), rank < low k := by
  intro rank hrank
  rw [gossipNext_ranks hrank]
  exact low_lt_low.mpr hk

/-- A client is placed: nobody was told anything yet. -/
theorem joinReserve_spends {c : NewClient} {selected : Option MonolithId}
    (hres : joinReserve s c selected = some (s', progress)) :
    Spends (.joinReserve c) s (s', progress) := by
  have hsend : ∀ m shouldCreateRoom, taskRank (.joinSend c m shouldCreateRoom) <
      taskRank (.joinReserve c) :=
    fun _ _ => low_lt_low.mpr (Nat.lt_succ_self 20)
  unfold joinReserve at hres
  split at hres
  · split at hres
    · cases hres; exact .stays
    · split at hres <;> cases hres
      · exact .stays
      · exact .of_waiting rfl (hsend _ _)
  · split at hres
    · split at hres
      · cases hres; exact .stays
      · split at hres
        · cases hres; exact .ends
        · split at hres <;> cases hres
          · exact .ends
          · exact .of_waiting rfl (hsend _ _)
    · cases hres

/-- Telling a monolith to unload, or not getting through. -/
theorem unloadSend_outbox_cases (s : State) (room : RoomName)
    (conflict : BalancerContext.ConflictAction) (result : SendResult) :
    (unloadSend s room conflict result).1 = s ∨
      (unloadSend s room conflict result).1 = s.post conflict.handle (.unload room) := by
  cases conflict <;> cases result <;> first
    | exact .inl rfl
    | exact .inr rfl

/-- The answer to a conflict is at most one message. -/
theorem Spends.of_unloadSend {room : RoomName} {conflict : BalancerContext.ConflictAction}
    {result : SendResult} (hs : s' = (unloadSend s room conflict result).1)
    (hmsg : low 7 < taskRank task)
    (hgoesOn : ∀ rank ∈ progressRanks progress, rank < taskRank task) :
    Spends task s (s', progress) := by
  rcases unloadSend_outbox_cases s room conflict result with heq | heq
  · rw [hs, heq]
    exact .of_quiet rfl hgoesOn
  · rw [hs, heq]
    exact .of_post hmsg hgoesOn

/-- A room of a gossip is taken up: it may have to be unloaded somewhere. -/
theorem gossipSync_spends {m : MonolithId} {room : GossipRoom} {rooms : List GossipRoom}
    {toRemove : List RoomName} (hres : gossipSync s m room rooms toRemove = some (s', progress)) :
    Spends (.gossipSync m room rooms toRemove) s (s', progress) := by
  have hrank : gossipRank (room :: rooms) toRemove = 3 + gossipRank rooms toRemove := by
    simp only [gossipRank, List.length_cons]
    omega
  unfold gossipSync at hres
  split at hres <;> cases hres
  · exact .of_waiting rfl (low_lt_low.mpr (by omega))
  · exact .of_quiet rfl (gossipNext_lt (by omega))
  · exact .of_waiting rfl (low_lt_low.mpr (by omega))

/-- The monolith was told so, or not. -/
theorem gossipSend_spends {m : MonolithId} {room : RoomName}
    {conflict : BalancerContext.ConflictAction} {rooms : List GossipRoom} {toRemove : List RoomName}
    {result : SendResult}
    (hres : gossipSend s m room conflict rooms toRemove result = some (s', progress)) :
    Spends (.gossipSend m room conflict rooms toRemove) s (s', progress) := by
  have hmsg : low 7 < taskRank (.gossipSend m room conflict rooms toRemove) := by
    refine low_lt_low.mpr ?_
    unfold gossipRank
    omega
  unfold gossipSend at hres
  split at hres
  · next t e heq =>
    cases hres
    refine .of_unloadSend (congrArg Prod.fst heq).symm hmsg fun rank hrank => ?_
    rw [List.mem_singleton.mp hrank]
    exact low_lt_low.mpr (by omega)
  · next t heq =>
    cases hres
    exact .of_unloadSend (congrArg Prod.fst heq).symm hmsg (gossipNext_lt (by omega))

/-- **Every segment** spends. -/
theorem segment_spends (hres : resume task x s = some (s', progress)) :
    Spends task s (s', progress) := by
  unfold resume at hres
  split at hres
  case h_1 c selected => exact joinReserve_spends hres
  case h_2 c m shouldCreateRoom result =>
    have hleft : ∀ rank ∈ [low 0], rank < taskRank (.joinSend c m shouldCreateRoom) := by
      simp [taskRank]
    cases result with
    | ok =>
      cases hres
      exact .of_post (low_lt_low.mpr (Nat.lt_succ_self 19)) hleft
    | timeout => cases hres; exact .of_quiet rfl hleft
    | serde =>
      cases shouldCreateRoom <;> cases hres
      · exact .stays
      · exact .of_quiet rfl hleft
  case h_3 c m receiverOpen =>
    unfold joinRegister at hres
    split at hres <;> cases hres
    · exact .stays
    · exact .ends
  case h_4 => cases hres; exact .ends
  case h_5 id =>
    unfold leaveRemove at hres
    split at hres
    · cases hres; exact .stays
    · dsimp only at hres
      split at hres
      · cases hres; exact .ends
      · split at hres <;> cases hres
        · exact .ends
        · exact .of_waiting rfl (low_lt_low.mpr (Nat.lt_succ_self 5))
  case h_6 id m result =>
    cases result <;> cases hres
    · exact .of_post (low_lt_low.mpr (Nat.lt_succ_self 4)) (fun _ hrank => nomatch hrank)
    · exact .of_waiting rfl (low_lt_low.mpr (Nat.zero_lt_succ 4))
    · exact .stays
  case h_7 => cases hres; exact .ends
  case h_8 m receiverOpen =>
    cases receiverOpen <;> cases hres
    · exact .stays
    · exact .ends
  case h_9 => cases hres; exact .ends
  case h_10 m room loadEpoch =>
    unfold loaded at hres
    split at hres <;> cases hres
    · exact .ends
    · exact .ends
    · exact .of_waiting rfl (low_lt_low.mpr (Nat.lt_succ_self 8))
  case h_11 m room conflict result =>
    unfold loadedSend at hres
    split at hres <;> next heq =>
      cases hres
      exact .of_unloadSend (congrArg Prod.fst heq).symm (low_lt_low.mpr (Nat.lt_succ_self 7))
        (fun _ hrank => nomatch hrank)
  case h_12 m room =>
    unfold unloaded at hres
    split at hres <;> cases hres <;> exact .ends
  case h_13 m rooms toRemove =>
    unfold Balancer.gossip at hres
    split at hres
    · cases hres; exact .stays
    · split at hres <;> cases hres
      refine .of_quiet rfl fun rank hrank => ?_
      rw [gossipNext_ranks hrank]
      exact low_lt_high
  case h_14 m room rooms toRemove => exact gossipSync_spends hres
  case h_15 m room conflict rooms toRemove result => exact gossipSend_spends hres
  case h_16 m room rooms toRemove => cases hres; exact .of_quiet rfl (gossipNext_lt (by omega))
  case h_17 m room toRemove => cases hres; exact .of_quiet rfl (gossipNext_lt (by omega))
  case h_18 m room client receiverOpen =>
    cases client with
    | some client =>
      simp only [roomMsg] at hres
      split at hres <;> cases hres
      · exact .stays
      · exact .of_waiting rfl (low_lt_low.mpr Nat.one_pos)
    | none =>
      simp only [roomMsg] at hres
      split at hres
      · cases hres; exact .stays
      · split at hres <;> cases hres <;> exact .stays
  case h_19 client result => cases result <;> cases hres <;> exact .stays
  case h_20 client =>
    simp only [kick] at hres
    split at hres <;> cases hres
    · exact .stays
    · exact .of_waiting rfl (low_lt_low.mpr Nat.one_pos)
  case h_21 client result => cases result <;> cases hres <;> exact .stays
  case h_22 => cases hres

/-! ## Monoliths -/

section Monoliths

variable {toLowerCase : String → String} {task task' : Server.RoomManager.Task}
  {answer : Server.RoomManager.Answer} {manager manager' : Server.RoomManager.Manager}
  {progress : Progress Server.RoomManager.Task Server.RoomManager.Result}

/-- The awaits of the room manager. -/
def managerRank : Server.RoomManager.Task → Nat
  | .redisExists _ _ => 17
  | .isRoomNameTaken _ _ => 16
  | .saveRoom _ => 15
  | .redisGet _ | .update _ => 14
  | .getRoomByName _ | .sync _ => 13
  | .redisIncr _ _ => 12
  | .redisSet _ => 11
  | .unload (.onBeforeUnload _ _ _) => 6
  | .unload (.redisDelRoom _) => 5
  | .unload (.redisDelSync _) => 4

def choreRank : Chore → Rank
  | .auth _ => low 18
  | .joining task | .managing task => low (managerRank task)
  | .request => low 3

/-- Reading a frame makes a task. -/
def frameRank : Frame → Rank
  | .msg (.loaded _ _) => low 10
  | .msg (.unloaded _) | .closed => low 1
  | .msg (.gossip _ _) => high 1
  | .msg (.roomMsg _ _) | .msg (.kick _) => low 2
  | .unreadable => low 0

/-- The room manager always has more to do than a message to a client. -/
theorem managerRank_ge (task : Server.RoomManager.Task) : 4 ≤ managerRank task := by
  cases task with
  | unload task => cases task <;> simp [managerRank]
  | _ => simp [managerRank]

/-- It has less to do than a session to be read. -/
theorem managerRank_le (task : Server.RoomManager.Task) : managerRank task ≤ 17 := by
  cases task with
  | unload task => cases task <;> simp [managerRank]
  | _ => simp [managerRank]

/-- The task of a message is less than the message. -/
theorem Frame.call_lt {m : MonolithId} {frame : Frame} {k : Call} (h : frame.call m = some k) :
    taskRank k.task < frameRank frame := by
  cases frame with
  | msg message =>
    cases h
    cases message <;> simp [MsgM2B.call, Call.task, taskRank, frameRank]
  | unreadable => cases h
  | closed =>
    cases h
    simp [Call.task, taskRank, frameRank]

/-- Messages to clients are less than anything a monolith waits for. -/
theorem Chat.frame_lt (chat : Chat) : frameRank chat.frame < low 3 := by
  cases chat <;> simp [Chat.frame, frameRank]

/-- What the balancer is told at the end of a call is less than the call. -/
theorem reports_lt {load : Bool} {report : LoadReport} {k : Nat} (hk : 3 ≤ k)
    (hload : load = true → 11 ≤ k) : ∀ frame ∈ reports load report progress, frameRank frame < low k := by
  intro frame hframe
  unfold reports at hframe
  split at hframe
  · cases hframe
  · cases hframe
  · rw [List.mem_singleton.mp hframe]
    exact low_lt_low.mpr (by omega)
  · split at hframe
    · next hloads =>
      have hreport := hload hloads
      cases report with
      | gone => cases hframe
      | unreadable =>
        rw [List.mem_singleton.mp hframe]
        exact low_lt_low.mpr (by omega)
      | loaded room loadEpoch =>
        rw [List.mem_singleton.mp hframe]
        exact low_lt_low.mpr (by omega)
    · cases hframe

theorem managerRank_of_loads (h : loads task = true) : 11 ≤ managerRank task := by
  cases task with
  | redisIncr | redisSet => simp [managerRank]
  | _ => cases h

theorem removeRoom_lt {room : Server.RoomManager.LoadedRoom} {idx : Int} {preserveRedis : Bool}
    {task : Server.RoomManager.UnloadTask}
    (h : (Server.RoomManager.removeRoom manager room idx preserveRedis).2 = .waiting task) :
    managerRank (.unload task) < 6 := by
  unfold Server.RoomManager.removeRoom at h
  split at h
  · cases h
  · dsimp only at h
    split at h
    · cases h
    · cases h
      exact Nat.lt_succ_self 5

theorem resumeUnload_lt {task task' : Server.RoomManager.UnloadTask}
    (h : Server.RoomManager.resumeUnload task answer manager = some (manager', .waiting task')) :
    managerRank (.unload task') < managerRank (.unload task) := by
  unfold Server.RoomManager.resumeUnload at h
  split at h
  · cases h
  · exact removeRoom_lt (congrArg Prod.snd (Option.some.inj h))
  · cases h
    exact Nat.lt_succ_self 4
  · cases h
  · cases h

/-- An unload has less to do than the message that asked for it. -/
theorem start_unload_lt {call : Server.RoomManager.Unload}
    (h : (Server.RoomManager.start toLowerCase (.unloadRoom call) manager).2 = .waiting task) :
    managerRank task < 7 := by
  change Progress.map _ _ (Server.RoomManager.unloadRoom toLowerCase call manager).2 = _ at h
  cases hprogress : (Server.RoomManager.unloadRoom toLowerCase call manager).2 with
  | done result =>
    rw [hprogress] at h
    cases h
  | waiting task' =>
    rw [hprogress] at h
    cases h
    cases task' <;> simp [managerRank]

/-- An await that settles is followed by one of a smaller rank, if by any. -/
theorem resume_lt
    (h : Server.RoomManager.resume toLowerCase task answer manager = some (manager', .waiting task')) :
    managerRank task' < managerRank task := by
  unfold Server.RoomManager.resume at h
  split at h
  case h_1 task =>
    obtain ⟨⟨manager₁, progress⟩, hunload, heq⟩ := Option.map_eq_some_iff.mp h
    change Server.RoomManager.resumeUnload task _ manager = _ at hunload
    cases progress with
    | done result => cases heq
    | waiting task₁ =>
      cases heq
      exact resumeUnload_lt hunload
  case h_3 | h_9 | h_10 | h_11 => cases h; exact Nat.lt_succ_self _
  case h_4 | h_6 =>
    -- the room is made and pushed
    split at h <;> cases h
    simp [managerRank]
  case h_7 =>
    split at h <;> cases h
    exact Nat.lt_succ_self 16
  case h_8 name isTemporary taken =>
    split at h
    · cases h
    · cases h
      cases isTemporary <;> simp [managerRank]
  case h_12 =>
    split at h <;> cases h
    exact Nat.lt_succ_self 11
  all_goals cases h

end Monoliths

end OpenTogetherTube.Balancer.Cluster
