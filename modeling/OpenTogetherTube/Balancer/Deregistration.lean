import OpenTogetherTube.Balancer.Connections

/-!
# Clients that stay

When a monolith kicks a client, the `Close` goes to the client through `client_entry`, which takes it
for granted from then on that the balancer knows: `already_sent_close` keeps it from telling the
monolith's channel. So nobody calls `leave_client`, and the client stays registered.
`not_deregistered_throughout` is such a run.

`deregistered_throughout` is about the runs in which no `Close` is written before the client's own
has been passed on, and `leave_client` finds what it needs. The invariant follows a client from its
registration through the one `leave_client` that finds it.
-/

namespace OpenTogetherTube.Balancer.Connections

open OpenTogetherTube.Lib BalancerContext Listing Gossip

/-! ## Segments and `B2MLeave` -/

/-- What a segment does about `B2MLeave`s. -/
structure LeaveEffect (task : Task) (x : Answer) (s s' : State) (progress : Progress Task TaskEnd) :
    Prop where
  told : ∀ c, (∀ m, ¬ (task = .leaveSend c m ∧ x = .sent .ok)) → leavesSent s' c = leavesSent s c
  once : ∀ c m, task = .leaveSend c m → x = .sent .ok → leavesSent s' c = leavesSent s c + 1
  removed : ∀ c, progress ≠ .waiting (.leaveRemove c)
  sending : ∀ c m, progress = .waiting (.leaveSend c m) →
    task = .leaveRemove c ∧ s.ctx.directory.group c ≠ none

/-- A segment that sends no `B2MLeave`, and is not on the way to one. -/
theorem LeaveEffect.of_other {task : Task} {x : Answer} {s s' : State}
    {progress : Progress Task TaskEnd} (htask : ∀ c m, task ≠ .leaveSend c m)
    (houtbox : ∃ sent, s'.outbox = s.outbox ++ sent ∧ ∀ e ∈ sent, ∀ c, e.2 ≠ .leave c)
    (hnext : ∀ t, progress = .waiting t → ∀ c, t ≠ .leaveRemove c ∧ ∀ m, t ≠ .leaveSend c m) :
    LeaveEffect task x s s' progress where
  told c _ := by
    obtain ⟨sent, heq, hno⟩ := houtbox
    have hzero : sent.countP (fun e => e.2 = .leave c) = 0 :=
      List.countP_eq_zero.mpr (fun e he => by simpa using hno e he c)
    unfold leavesSent
    rw [heq, List.countP_append, hzero, Nat.add_zero]
  once c m h := absurd h (htask c m)
  removed c h := (hnext _ h c).1 rfl
  sending c m h := absurd rfl ((hnext _ h c).2 m)

/-- A segment that sends nothing. -/
theorem LeaveEffect.of_quiet {task : Task} {x : Answer} {s s' : State}
    {progress : Progress Task TaskEnd} (htask : ∀ c m, task ≠ .leaveSend c m)
    (houtbox : s'.outbox = s.outbox)
    (hnext : ∀ t, progress = .waiting t → ∀ c, t ≠ .leaveRemove c ∧ ∀ m, t ≠ .leaveSend c m) :
    LeaveEffect task x s s' progress :=
  .of_other htask ⟨[], by rw [houtbox, List.append_nil], fun _ h => by cases h⟩ hnext

/-- A segment that ends, and sends nothing. -/
theorem LeaveEffect.of_done {task : Task} {x : Answer} {s s' : State} {e : TaskEnd}
    (htask : ∀ c m, task ≠ .leaveSend c m) (houtbox : s'.outbox = s.outbox) :
    LeaveEffect task x s s' (.done e) :=
  .of_quiet htask houtbox (fun _ h => by cases h)

/-- A segment that goes on with something else, and sends nothing. -/
theorem LeaveEffect.of_waiting {task t : Task} {x : Answer} {s s' : State}
    (htask : ∀ c m, task ≠ .leaveSend c m) (houtbox : s'.outbox = s.outbox)
    (hnext : ∀ c, t ≠ .leaveRemove c ∧ ∀ m, t ≠ .leaveSend c m) :
    LeaveEffect task x s s' (.waiting t) :=
  .of_quiet htask houtbox (fun _ h => by cases h; exact hnext)

theorem gossipNext_not_leave (m : MonolithId) (rooms : List GossipRoom) (toRemove : List RoomName) :
    ∀ t, gossipNext m rooms toRemove = .waiting t →
      ∀ c, t ≠ .leaveRemove c ∧ ∀ m, t ≠ .leaveSend c m := by
  intro t ht c
  cases rooms with
  | cons room rooms =>
    cases ht
    exact ⟨nofun, nofun⟩
  | nil =>
    cases toRemove with
    | cons room toRemove =>
      cases ht
      exact ⟨nofun, nofun⟩
    | nil => cases ht

theorem unloadSend_not_leave (s : State) (room : RoomName) (conflict : ConflictAction)
    (result : SendResult) : ∃ sent, (unloadSend s room conflict result).1.outbox = s.outbox ++ sent ∧
      ∀ e ∈ sent, ∀ c, e.2 ≠ .leave c := by
  have hpost : ∀ handle, ∃ sent, (s.post handle (.unload room)).outbox = s.outbox ++ sent ∧
      ∀ e ∈ sent, ∀ c, e.2 ≠ .leave c := by
    refine fun handle => ⟨[(handle, .unload room)], rfl, fun e he c => ?_⟩
    rw [List.mem_singleton] at he
    rw [he]
    exact nofun
  have hnone : ∃ sent, s.outbox = s.outbox ++ sent ∧ ∀ e ∈ sent, ∀ c, e.2 ≠ .leave c :=
    ⟨[], (List.append_nil _).symm, fun _ h => by cases h⟩
  cases conflict with
  | reject handle =>
    cases result with
    | ok => exact hpost handle
    | _ => exact hnone
  | replace handle =>
    cases result with
    | ok => exact hpost handle
    | _ => exact hnone

theorem leaveRemove_leaveEffect {s s' : State} {id : ClientId} {x : Answer}
    {progress : Progress Task TaskEnd} (h : leaveRemove s id = some (s', progress)) :
    LeaveEffect (.leaveRemove id) x s s' progress := by
  have hquiet : s'.outbox = s.outbox ∧ ∀ t, progress = .waiting t →
      (∃ m, t = .leaveSend id m) ∧ s.ctx.directory.group id ≠ none := by
    unfold leaveRemove at h
    split at h
    · cases h
      exact ⟨rfl, by simp⟩
    · next removed hclient =>
      dsimp only at h
      split at h
      · cases h
        exact ⟨rfl, by simp⟩
      · split at h <;> cases h
        · exact ⟨rfl, by simp⟩
        · refine ⟨rfl, fun t ht => ?_⟩
          cases ht
          exact ⟨⟨_, rfl⟩, by simp [directory, hclient]⟩
  constructor
  · intro c _
    unfold leavesSent
    rw [hquiet.1]
  · intro c m ht
    cases ht
  · intro c hc
    obtain ⟨⟨m, hm⟩, -⟩ := hquiet.2 _ hc
    cases hm
  · intro c m hc
    obtain ⟨⟨m', hm⟩, hgroup⟩ := hquiet.2 _ hc
    cases hm
    exact ⟨rfl, hgroup⟩

theorem leaveSend_leaveEffect {s s' : State} {id : ClientId} {m : MonolithId} {result : SendResult}
    {progress : Progress Task TaskEnd} (h : leaveSend s id m result = some (s', progress)) :
    LeaveEffect (.leaveSend id m) (.sent result) s s' progress := by
  have hcount : ∀ c, leavesSent (s.post m (.leave id)) c =
      leavesSent s c + if id = c then 1 else 0 := by
    intro c
    show List.countP _ (s.outbox ++ [(m, MsgB2M.leave id)]) = _
    rw [List.countP_append, List.countP_singleton]
    simp [leavesSent]
  cases result with
  | ok =>
    cases h
    refine ⟨fun c hne => ?_, fun c m' heq _ => ?_, nofun, nofun⟩
    · rw [hcount, if_neg, Nat.add_zero]
      rintro rfl
      exact hne m ⟨rfl, rfl⟩
    · cases heq
      rw [hcount, if_pos rfl]
  | timeout =>
    cases h
    exact ⟨fun c _ => rfl, nofun, nofun, nofun⟩
  | serde =>
    cases h
    exact ⟨fun c _ => rfl, nofun, nofun, nofun⟩

/-- **What every segment does about `B2MLeave`s.** -/
theorem segment_leave {s s' : State} {task : Task} {x : Answer} {progress : Progress Task TaskEnd}
    (h : resume task x s = some (s', progress)) : LeaveEffect task x s s' progress := by
  unfold resume at h
  split at h
  case h_1 c selected =>
    have hquiet : s'.outbox = s.outbox ∧ ∀ t, progress = .waiting t → ∃ m b, t = .joinSend c m b := by
      unfold joinReserve at h
      split at h
      · split at h
        · cases h; exact ⟨rfl, by simp⟩
        · split at h <;> cases h
          · exact ⟨rfl, by simp⟩
          · exact ⟨rfl, fun t ht => by cases ht; exact ⟨_, _, rfl⟩⟩
      · split at h
        · cases selected with
          | none => cases h; exact ⟨rfl, by simp⟩
          | some m =>
            dsimp only at h
            split at h
            · cases h; exact ⟨rfl, by simp⟩
            · split at h <;> cases h
              · exact ⟨rfl, by simp⟩
              · exact ⟨rfl, fun t ht => by cases ht; exact ⟨_, _, rfl⟩⟩
        · cases h
    refine .of_quiet (by simp) hquiet.1 (fun t ht c' => ?_)
    obtain ⟨m, b, rfl⟩ := hquiet.2 t ht
    simp
  case h_2 c m shouldCreateRoom result =>
    cases result with
    | ok =>
      cases h
      refine .of_other (by simp) ⟨[(m, .join c.room c.id c.token)], rfl, fun e he c' => ?_⟩
        (fun t ht c' => by cases ht; simp)
      rw [List.mem_singleton] at he
      rw [he]
      simp
    | timeout =>
      cases h
      exact .of_waiting (by simp) rfl (by simp)
    | serde =>
      cases shouldCreateRoom <;> cases h
      · exact .of_done (by simp) rfl
      · exact .of_waiting (by simp) rfl (by simp)
  case h_3 c m receiverOpen =>
    unfold joinRegister at h
    split at h <;> cases h <;> exact .of_done (by simp) rfl
  case h_4 c m shouldCreateRoom badMonolith => cases h; exact .of_done (by simp) rfl
  case h_5 id => exact leaveRemove_leaveEffect h
  case h_6 id m result => exact leaveSend_leaveEffect h
  case h_7 m => cases h; exact .of_done (by simp) rfl
  case h_8 m receiverOpen => cases receiverOpen <;> cases h <;> exact .of_done (by simp) rfl
  case h_9 m => cases h; exact .of_done (by simp) rfl
  case h_10 m room loadEpoch =>
    unfold loaded at h
    split at h <;> cases h
    · exact .of_done (by simp) rfl
    · exact .of_done (by simp) rfl
    · exact .of_waiting (by simp) rfl (by simp)
  case h_11 m room conflict result =>
    have houtbox := unloadSend_not_leave s room conflict result
    unfold loadedSend at h
    split at h <;> next heq =>
      rw [heq] at houtbox
      cases h
      exact .of_other (by simp) houtbox (by simp)
  case h_12 m room =>
    unfold unloaded at h
    split at h <;> cases h <;> exact .of_done (by simp) rfl
  case h_13 m rooms toRemove =>
    unfold gossip at h
    split at h
    · cases h; exact .of_done (by simp) rfl
    · split at h <;> cases h
      exact .of_quiet (by simp) rfl (gossipNext_not_leave m rooms toRemove)
  case h_14 m room rooms toRemove =>
    unfold gossipSync at h
    split at h <;> cases h
    · exact .of_waiting (by simp) rfl (by simp)
    · exact .of_quiet (by simp) rfl (gossipNext_not_leave m rooms toRemove)
    · exact .of_waiting (by simp) rfl (by simp)
  case h_15 m room conflict rooms toRemove result =>
    have houtbox := unloadSend_not_leave s room conflict result
    unfold gossipSend at h
    split at h <;> next heq =>
      rw [heq] at houtbox
      cases h
      first
        | exact .of_other (by simp) houtbox (gossipNext_not_leave m rooms toRemove)
        | exact .of_other (by simp) houtbox (fun t ht c => by cases ht; simp)
  case h_16 m room rooms toRemove =>
    cases h
    exact .of_quiet (by simp) rfl (gossipNext_not_leave m rooms toRemove)
  case h_17 m room toRemove =>
    cases h
    exact .of_quiet (by simp) rfl (gossipNext_not_leave m [] toRemove)
  case h_18 m room client receiverOpen =>
    cases client with
    | some client =>
      simp only [roomMsg] at h
      split at h <;> cases h
      · exact .of_done (by simp) rfl
      · exact .of_waiting (by simp) rfl (by simp)
    | none =>
      simp only [roomMsg] at h
      split at h
      · cases h; exact .of_done (by simp) rfl
      · split at h <;> cases h <;> exact .of_done (by simp) rfl
  case h_19 client result => cases result <;> cases h <;> exact .of_done (by simp) rfl
  case h_20 client =>
    simp only [kick] at h
    split at h <;> cases h
    · exact .of_done (by simp) rfl
    · exact .of_waiting (by simp) rfl (by simp)
  case h_21 client result => cases result <;> cases h <;> exact .of_done (by simp) rfl
  case h_22 => cases h

/-! ## One client -/

/-- Only `leave_client` expels. -/
theorem expel_of_change {ctx : BalancerContext} {task : Task} {x : Answer} {c : ClientId}
    (h : ctx.change task x = .expel c) : task = .leaveRemove c := by
  unfold BalancerContext.change at h
  split at h
  case h_5 id => cases h; rfl
  all_goals first
    | cases h
    | (unfold closeChange at h; split at h <;> cases h)
    | (unfold reportChange at h; repeat' split at h) <;> cases h
    | (split at h <;> cases h)

/-- A monolith that is abandoned is gone. -/
theorem gone_of_abandon {s s' : State} {task : Task} {x : Answer} {progress : Progress Task TaskEnd}
    (hres : resume task x s = some (s', progress)) {m : MonolithId}
    (h : s.ctx.change task x = .abandon m) : s'.ctx.monoliths.contains m = false := by
  have hgone : ∀ ctx : BalancerContext, (ctx.removeMonolith m).monoliths.contains m = false := by
    intro ctx
    simp [removeMonolith]
  unfold BalancerContext.change at h
  split at h
  case h_3 c m' shouldCreateRoom =>
    cases h
    cases shouldCreateRoom <;> cases hres <;> exact hgone _
  case h_6 m' => cases h; cases hres; exact hgone _
  case h_8 m' => cases h; cases hres; exact hgone _
  all_goals first
    | cases h
    | (unfold closeChange at h; split at h <;> cases h)
    | (unfold reportChange at h; repeat' split at h) <;> cases h
    | (split at h <;> cases h)

/-- A client that has joined: nobody is joining it any more, and it is in one place at most. -/
structure Placed (p : Pool State Task TaskEnd) (c : ClientId) (conn : Connection) : Prop where
  joined : ∀ t ∈ p.tasks, taskJoinId t ≠ some c
  room : ∀ r, p.shared.ctx.directory.group c = some r → r = conn.room
  listed : ∀ m r, c ∈ p.shared.ctx.directory.listed m r → m = conn.monolith ∧ r = conn.room

/-- The client is not recorded anywhere. -/
structure Gone (p : Pool State Task TaskEnd) (c : ClientId) : Prop where
  group : p.shared.ctx.directory.group c = none
  listed : ∀ m r, c ∉ p.shared.ctx.directory.listed m r

/-- The task at `i` is about to send the client's `B2MLeave`. -/
def Sending (tasks : List (Progress Task TaskEnd)) (c : ClientId) (i : Nat) : Prop :=
  ∃ m, tasks[i]? = some (.waiting (.leaveSend c m))

/-- How far a client of the monolith `m` is on its way out. -/
inductive Stage (p : Pool State Task TaskEnd) (leaves : List (Nat × ClientId)) (c : ClientId)
    (m : MonolithId) : Prop
  | present (r : RoomName) (hgroup : p.shared.ctx.directory.group c = some r)
      (hsent : leavesSent p.shared c = 0) (hno : ∀ i, ¬ Sending p.tasks c i)
  | leaving (i : Nat) (hgone : Gone p c) (hsent : leavesSent p.shared c = 0)
      (hi : (i, c) ∈ leaves) (hsending : Sending p.tasks c i)
      (honly : ∀ j, Sending p.tasks c j → j = i)
  | timedOut (i : Nat) (hgone : Gone p c) (hno : ∀ i, ¬ Sending p.tasks c i) (hi : (i, c) ∈ leaves)
      (ht : p.tasks[i]? = some (.waiting (.leaveAbandon m)))
  | left (hgone : Gone p c) (hsent : leavesSent p.shared c = 1) (hno : ∀ i, ¬ Sending p.tasks c i)

/-- What a segment needs for one client. -/
structure Fair (p : Pool State Task TaskEnd) (c : ClientId) (conn : Connection) (task : Task)
    (x : Answer) : Prop where
  remove : task = .leaveRemove c → ∀ r, p.shared.ctx.directory.group c = some r →
    ∃ m, p.shared.ctx.directory.host r = some m ∧ p.shared.ctx.monoliths.contains m = true ∧
      (m = conn.monolith ∨ c ∉ p.shared.ctx.directory.listed conn.monolith conn.room)
  send : ∀ m result, task = .leaveSend c m → x = .sent result →
    result = .ok ∨ (result = .timeout ∧ m = conn.monolith)
  abandon : ∀ m, p.shared.ctx.change task x = .abandon m → m ≠ conn.monolith →
    ∀ r, p.shared.ctx.directory.group c = some r →
      ∃ m', p.shared.ctx.directory.host r = some m' ∧ m' ≠ m

section Segment

variable {p : Pool State Task TaskEnd} {c : ClientId} {conn : Connection} {i : Nat} {task : Task}
  {x : Answer} {s : State} {progress : Progress Task TaskEnd}

theorem Placed.not_enrolled (h : Placed p c conn) (ht : p.tasks[i]? = some (.waiting task)) :
    ∀ r m, p.shared.ctx.change task x ≠ .enroll c r m := by
  intro r m hchange
  obtain ⟨nc, rfl, rfl, -⟩ := enroll_of_change hchange
  exact h.joined _ (Program.mem_of_getElem? ht) rfl

/-- Nobody begins to join a client in a segment. -/
theorem joined_set (h : ∀ t ∈ p.tasks, taskJoinId t ≠ some c)
    (ht : p.tasks[i]? = some (.waiting task))
    (hres : resume task x p.shared = some (s, progress)) :
    ∀ t ∈ p.tasks.set i progress, taskJoinId t ≠ some c := by
  intro t hmem
  rcases List.mem_or_eq_of_mem_set hmem with hold | rfl
  · exact h t hold
  · intro hjoin
    cases t with
    | done result => cases hjoin
    | waiting t =>
      exact h _ (Program.mem_of_getElem? ht) ((segment_effect hres).joinId t rfl c hjoin)

theorem Placed.segment (h : Placed p c conn) (ht : p.tasks[i]? = some (.waiting task))
    (hres : resume task x p.shared = some (s, progress)) :
    Placed ⟨s, p.tasks.set i progress⟩ c conn := by
  have hdir := segment_directory hres
  have hnot := h.not_enrolled (x := x) ht
  refine ⟨joined_set h.joined ht hres, fun r hr => ?_, fun m r hr => ?_⟩
  · change s.ctx.directory.group c = some r at hr
    rw [hdir] at hr
    rcases Registry.group_apply hr with hold | ⟨m, hnew⟩
    · exact h.room r hold
    · exact absurd hnew (hnot r m)
  · change c ∈ s.ctx.directory.listed m r at hr
    rw [hdir] at hr
    rcases Registry.mem_listed_apply hr with hold | hnew
    · exact h.listed m r hold
    · exact absurd hnew (hnot r m)

/-- Who is gone stays gone. -/
theorem Gone.segment (hgone : Gone p c) (h : Placed p c conn)
    (ht : p.tasks[i]? = some (.waiting task))
    (hres : resume task x p.shared = some (s, progress)) :
    Gone ⟨s, p.tasks.set i progress⟩ c := by
  have hdir := segment_directory hres
  have hnot := h.not_enrolled (x := x) ht
  constructor
  · show s.ctx.directory.group c = none
    rw [hdir, Option.eq_none_iff_forall_ne_some]
    intro r hr
    rcases Registry.group_apply hr with hold | ⟨m, hnew⟩
    · rw [hgone.group] at hold
      cases hold
    · exact hnot r m hnew
  · intro m r hr
    change c ∈ s.ctx.directory.listed m r at hr
    rw [hdir] at hr
    rcases Registry.mem_listed_apply hr with hold | hnew
    · exact hgone.listed m r hold
    · exact hnot r m hnew

/-- A `B2MLeave` that is about to be sent after a segment was so before, or the segment was the
removal of a client that had a record. -/
theorem sending_set (ht : p.tasks[i]? = some (.waiting task))
    (hres : resume task x p.shared = some (s, progress)) {j : Nat}
    (h : Sending (p.tasks.set i progress) c j) :
    (j ≠ i ∧ Sending p.tasks c j) ∨
      (j = i ∧ task = .leaveRemove c ∧ p.shared.ctx.directory.group c ≠ none) := by
  obtain ⟨m, hm⟩ := h
  by_cases hji : j = i
  · subst hji
    rw [(Program.advance_set ht progress).here, Option.some.injEq] at hm
    exact .inr ⟨rfl, (segment_leave hres).sending c m hm⟩
  · rw [(Program.advance_set ht progress).elsewhere j hji] at hm
    exact .inl ⟨hji, m, hm⟩

/-- A client that is told about by nobody's segment. -/
theorem leavesSent_of_not_sending (hno : ∀ i, ¬ Sending p.tasks c i)
    (ht : p.tasks[i]? = some (.waiting task))
    (hres : resume task x p.shared = some (s, progress)) :
    leavesSent s c = leavesSent p.shared c := by
  refine (segment_leave hres).told c (fun m hm => hno i ⟨m, ?_⟩)
  rw [ht, hm.1]

/-- **A client goes through its stages.** Its monolith is still connected after the segment. -/
theorem Stage.segment {leaves : List (Nat × ClientId)} (h : Stage p leaves c conn.monolith)
    (hplaced : Placed p c conn) (hfair : Fair p c conn task x)
    (ht : p.tasks[i]? = some (.waiting task))
    (hres : resume task x p.shared = some (s, progress))
    (hconnected : s.ctx.monoliths.contains conn.monolith = true)
    (hleaves : task = .leaveRemove c → (i, c) ∈ leaves) :
    Stage ⟨s, p.tasks.set i progress⟩ leaves c conn.monolith := by
  have hdir := segment_directory hres
  have hadvance := Program.advance_set ht progress
  cases h with
  | present r hgroup hsent hno =>
    have hsent' : leavesSent s c = 0 := (leavesSent_of_not_sending hno ht hres).trans hsent
    by_cases hremove : task = .leaveRemove c
    · -- the client is struck out, and its monolith is to be told
      subst hremove
      obtain ⟨m, hhost, hm, hplace⟩ := hfair.remove rfl r hgroup
      obtain ⟨client, hclient, rfl⟩ := Option.map_eq_some_iff.mp hgroup
      obtain ⟨locator, hl, rfl⟩ := Option.map_eq_some_iff.mp hhost
      obtain ⟨mono, hmono⟩ := OrderedMap.contains_iff.mp hm
      have hx : x = .lock := by
        cases x with
        | lock => rfl
        | _ => cases hres
      subst hx
      have hnext : progress = .waiting (.leaveSend c locator.monolithId) := by
        change leaveRemove p.shared c = some (s, progress) at hres
        simp only [leaveRemove, hclient, hl, hmono, Option.some.injEq, Prod.mk.injEq] at hres
        exact hres.2.symm
      have hdir' : s.ctx.directory = p.shared.ctx.directory.expel c := hdir
      refine .leaving i ⟨?_, fun m r hlisted => ?_⟩ hsent' (hleaves rfl)
        ⟨locator.monolithId, hadvance.here.trans (congrArg some hnext)⟩ (fun j hj => ?_)
      · show s.ctx.directory.group c = none
        rw [hdir']
        exact if_pos rfl
      · change c ∈ s.ctx.directory.listed m r at hlisted
        rw [hdir'] at hlisted
        simp only [Registry.expel, hgroup, Option.bind_some, hhost, Option.some.injEq] at hlisted
        split at hlisted
        · simp at hlisted
        · next hne =>
          obtain ⟨rfl, rfl⟩ := hplaced.listed m r hlisted
          exact hplace.elim hne (fun hnot => hnot hlisted)
      · rcases sending_set ht hres hj with ⟨-, hold⟩ | ⟨rfl, -⟩
        · exact absurd hold (hno j)
        · rfl
    · have hno' : ∀ j, ¬ Sending (p.tasks.set i progress) c j := by
        intro j hj
        rcases sending_set ht hres hj with ⟨-, hold⟩ | ⟨-, heq, -⟩
        · exact hno j hold
        · exact hremove heq
      refine .present r ?_ hsent' hno'
      show s.ctx.directory.group c = some r
      rw [hdir]
      refine Registry.group_apply_of_kept hgroup (hplaced.not_enrolled ht)
        (fun hexpel => hremove (expel_of_change hexpel)) (fun m habandon => ?_)
      refine hfair.abandon m habandon (fun hm => ?_) r hgroup
      have hgone := gone_of_abandon hres habandon
      rw [hm, hconnected] at hgone
      cases hgone
  | leaving i₀ hgone hsent hi hsending honly =>
    have hgone' := hgone.segment hplaced ht hres
    have hold : ∀ j, Sending (p.tasks.set i progress) c j → j ≠ i ∧ Sending p.tasks c j := by
      intro j hj
      rcases sending_set ht hres hj with hold | ⟨-, -, hgroup⟩
      · exact hold
      · exact absurd hgone.group hgroup
    by_cases hii : i₀ = i
    · subst hii
      obtain ⟨m, hm⟩ := hsending
      rw [ht, Option.some.injEq, Progress.waiting.injEq] at hm
      subst hm
      have hno : ∀ j, ¬ Sending (p.tasks.set i₀ progress) c j :=
        fun j hj => (hold j hj).1 (honly j (hold j hj).2)
      cases x with
      | sent result =>
        rcases hfair.send m result rfl rfl with rfl | ⟨rfl, rfl⟩
        · refine .left hgone' ?_ hno
          show leavesSent s c = 1
          rw [(segment_leave hres).once c m rfl rfl, hsent]
        · cases hres
          exact .timedOut i₀ hgone' hno hi hadvance.here
      | _ => cases hres
    · have hsent' : leavesSent s c = 0 := by
        rw [(segment_leave hres).told c (fun m hm => hii (honly i ⟨m, ?_⟩).symm), hsent]
        rw [ht, hm.1]
      obtain ⟨m, hm⟩ := hsending
      exact .leaving i₀ hgone' hsent' hi ⟨m, (hadvance.elsewhere i₀ hii).trans hm⟩
        (fun j hj => honly j (hold j hj).2)
  | timedOut i₀ hgone hno hi ht₀ =>
    have hii : i₀ ≠ i := by
      rintro rfl
      rw [ht, Option.some.injEq, Progress.waiting.injEq] at ht₀
      subst ht₀
      cases x with
      | lock =>
        have hgone := gone_of_abandon hres (m := conn.monolith) rfl
        rw [hconnected] at hgone
        cases hgone
      | _ => cases hres
    refine .timedOut i₀ (hgone.segment hplaced ht hres) (fun j hj => ?_) hi
      ((hadvance.elsewhere i₀ hii).trans ht₀)
    rcases sending_set ht hres hj with ⟨-, hold⟩ | ⟨-, -, hgroup⟩
    · exact hno j hold
    · exact hgroup hgone.group
  | left hgone hsent hno =>
    refine .left (hgone.segment hplaced ht hres)
      ((leavesSent_of_not_sending hno ht hres).trans hsent) (fun j hj => ?_)
    rcases sending_set ht hres hj with ⟨-, hold⟩ | ⟨-, -, hgroup⟩
    · exact hno j hold
    · exact hgroup hgone.group

end Segment

/-! ## The invariant -/

/-- The client's `leave_client` has been asked for and is still to come. -/
def Pending (w : World) (c : ClientId) (m : MonolithId) : Prop :=
  (c, ClientFrame.close) ∈ w.inbound m ∨
    ∃ i, (i, c) ∈ w.leaves ∧ w.pool.tasks[i]? = some (.waiting (.leaveRemove c))

/-- What is known of a client whose monolith has stayed connected. -/
structure Entry (w : World) (c : ClientId) (conn : Connection) : Prop where
  placed : Placed w.pool c conn
  stage : Stage w.pool w.leaves c conn.monolith
  asked : conn.requested = true → w.ctx.directory.group c ≠ none → Pending w c conn.monolith
  sentClose : conn.alreadySentClose = true → conn.requested = true
  finished : conn.phase = .finished → conn.requested = true

structure Inv (w : World) : Prop where
  used : Used w.visits.known w.pool
  entries : ∀ c conn, w.connections.get? c = some conn → conn.cut = false → Entry w c conn
  known : ∀ c conn, w.connections.get? c = some conn → c ∈ w.visits.known
  asks : ∀ i c, w.pool.tasks[i]? = some (.waiting (.leaveRemove c)) → (i, c) ∈ w.leaves
  told : ∀ c, (leavesSent w.pool.shared c ≠ 0 ∨ ∃ i, Sending w.pool.tasks c i) →
    c ∈ w.visits.known ∧ ∀ t ∈ w.pool.tasks, taskJoinId t ≠ some c

theorem inv_init (region : Region) : Inv (.init region) where
  used := used_init region
  entries c conn h := by cases h
  known c conn h := by cases h
  asks i c h := by cases h
  told c h := by
    rcases h with h | ⟨i, m, h⟩
    · exact absurd rfl h
    · cases h

/-- **What the invariant is for**: a connection that is over asked for `leave_client`, and once that
is through the client is gone and its monolith was told. -/
theorem Inv.deregistered {w : World} (h : Inv w) : Deregistered w := by
  intro c conn hconn hover hcut hprocessed
  have hentry := h.entries c conn hconn hcut
  have hwaiting : ∀ {i task}, (i, c) ∈ w.leaves → w.pool.tasks[i]? ≠ some (.waiting task) := by
    intro i task hi ht
    obtain ⟨result, hdone⟩ := hprocessed.2 i hi
    rw [ht] at hdone
    cases hdone
  have hgroup : w.ctx.directory.group c = none := by
    by_contra hne
    rcases hentry.asked (hentry.finished hover) hne with hin | ⟨i, hi, ht⟩
    · exact hprocessed.1 _ hin
    · exact hwaiting hi ht
  rcases hentry.stage with ⟨r, hsome, -, -⟩ | ⟨i, -, -, hi, ⟨m, hm⟩, -⟩ | ⟨i, -, -, hi, ht⟩ |
    ⟨hgone, hsent, -⟩
  · change w.ctx.directory.group c = some r at hsome
    rw [hgroup] at hsome
    cases hsome
  · exact absurd hm (hwaiting hi)
  · exact absurd ht (hwaiting hi)
  · exact ⟨by simpa [directory] using hgroup, hgone.listed, hsent⟩

/-! ## The steps of a connection -/

namespace Connection

/-- A connection goes on, and puts the frames into the monolith's channel. -/
structure Next (conn conn' : Connection) (frames : List ClientFrame) : Prop where
  room : conn'.room = conn.room
  monolith : conn'.monolith = conn.monolith
  cut : conn'.cut = conn.cut
  requested : conn'.requested = true → conn.requested = true ∨ .close ∈ frames
  sentClose : conn'.alreadySentClose = true → conn'.requested = true
  finished : conn'.cut = false → conn'.phase = .finished → conn'.requested = true

variable {conn conn' : Connection} {frames : List ClientFrame}

theorem next_write {frame : Outbound} {written : Bool} {after : Phase}
    (hsent : conn.alreadySentClose = true → conn.requested = true) (hphase : conn.phase ≠ .finished)
    (hafter : after ≠ .finished)
    (hmay : written = true → frame = .close → conn.requested = true) :
    Next conn (conn.write frame written after) [] := by
  unfold write
  split
  · next hwritten =>
    split
    · next hclose =>
      exact ⟨rfl, rfl, rfl, .inl, fun _ => hmay hwritten hclose, fun _ h => absurd h hafter⟩
    · exact ⟨rfl, rfl, rfl, .inl, hsent, fun _ h => absurd h hphase⟩
  · exact ⟨rfl, rfl, rfl, .inl, hsent, fun _ h => absurd h hafter⟩

/-- The channel of the client loses a message first. -/
theorem Next.of_taken {rest : List Outbound}
    (h : Next { conn with unicast := rest } conn' frames) : Next conn conn' frames :=
  ⟨h.room, h.monolith, h.cut, h.requested, h.sentClose, h.finished⟩

theorem next_phase {phase : Phase} (hphase : phase ≠ .finished)
    (hsent : conn.alreadySentClose = true → conn.requested = true) :
    Next conn { conn with phase := phase } [] :=
  ⟨rfl, rfl, rfl, .inl, hsent, fun _ h => absurd h hphase⟩

theorem next_select {selected : Selected} (h : conn.select selected = some (conn', frames))
    (hphase : conn.phase = .looping)
    (hsent : conn.alreadySentClose = true → conn.requested = true)
    (hmay : selected = .unicast true → conn.unicast.head? = some .close → conn.requested = true) :
    Next conn conn' frames := by
  have hne : conn.phase ≠ .finished := by
    rw [hphase]
    exact nofun
  cases selected with
  | unicast written =>
    simp only [select] at h
    split at h
    · next frame rest heq =>
      cases h
      refine .of_taken (next_write hsent hne nofun (fun hwritten hclose => ?_))
      subst hwritten
      exact hmay rfl (by rw [heq, hclose]; rfl)
    · cases h
  | broadcast written =>
    cases h
    exact next_write hsent hne nofun (fun _ hclose => by cases hclose)
  | closed | lagged | streamError =>
    cases h
    exact next_phase nofun hsent
  | ping answered =>
    cases h
    split
    · exact ⟨rfl, rfl, rfl, .inl, hsent, fun _ h => absurd h hne⟩
    · exact next_phase nofun hsent
  | message frame roomOpen =>
    simp only [select] at h
    split at h
    · cases h
      refine ⟨rfl, rfl, rfl, fun hreq => ?_, fun hclose => ?_, fun _ h => absurd h hne⟩
      · simp only [send, Bool.or_eq_true, decide_eq_true_eq] at hreq
        exact hreq.imp_right (fun heq => List.mem_singleton.mpr heq.symm)
      · simp only [send, Bool.or_eq_true]
        exact .inl (hsent hclose)
    · split at h
      · cases h
        exact next_phase nofun hsent
      · cases h

theorem next_drain {drained : Drained} (h : conn.drain drained = some (conn', frames))
    (hphase : conn.phase = .draining)
    (hsent : conn.alreadySentClose = true → conn.requested = true)
    (hmay : drained = .unicast true → conn.unicast.head? = some .close → conn.requested = true) :
    Next conn conn' frames := by
  have hne : conn.phase ≠ .finished := by
    rw [hphase]
    exact nofun
  cases drained with
  | unicast written =>
    simp only [drain] at h
    split at h
    · next frame rest heq =>
      cases h
      refine .of_taken (next_write hsent hne nofun (fun hwritten hclose => ?_))
      subst hwritten
      exact hmay rfl (by rw [heq, hclose]; rfl)
    · cases h
  | broadcast written =>
    simp only [drain] at h
    split at h
    · cases h
      exact next_write hsent hne nofun (fun _ hclose => by cases hclose)
    · cases h
  | nothing =>
    simp only [drain] at h
    split at h
    · cases h
      exact next_phase nofun hsent
    · cases h

/-- Unless the client was sent a `Close`, the task asks for `leave_client` before it is over. -/
theorem next_finish {roomOpen : Bool} (h : conn.finish roomOpen = some (conn', frames))
    (hsent : conn.alreadySentClose = true → conn.requested = true) : Next conn conn' frames := by
  unfold finish at h
  split at h
  · next hclose =>
    cases h
    exact ⟨rfl, rfl, rfl, .inl, hsent, fun _ _ => hsent hclose⟩
  · next hnot =>
    split at h
    · cases h
      have hreq : (conn.send .close).requested = true := by simp [send]
      exact ⟨rfl, rfl, rfl, fun _ => .inr (List.mem_singleton_self _), fun _ => hreq,
        fun _ _ => hreq⟩
    · split at h
      · next hcut =>
        cases h
        refine ⟨rfl, rfl, rfl, .inl, fun hclose => absurd hclose hnot, fun hfalse _ => ?_⟩
        rw [hcut] at hfalse
        cases hfalse
      · cases h

end Connection

/-- Whether its monolith is connected is not for the connection to say. -/
theorem cut_write (conn : Connection) (frame : Outbound) (written : Bool) (after : Phase) :
    (conn.write frame written after).cut = conn.cut := by
  unfold Connection.write
  split
  · split <;> rfl
  · rfl

theorem cut_select {conn conn' : Connection} {frames : List ClientFrame} {selected : Selected}
    (h : conn.select selected = some (conn', frames)) : conn'.cut = conn.cut := by
  cases selected with
  | unicast written =>
    simp only [Connection.select] at h
    split at h <;> cases h
    exact cut_write _ _ _ _
  | broadcast written =>
    cases h
    exact cut_write _ _ _ _
  | closed | lagged | streamError =>
    cases h
    rfl
  | ping answered =>
    cases h
    split <;> rfl
  | message frame roomOpen =>
    simp only [Connection.select] at h
    split at h
    · cases h
      rfl
    · split at h <;> cases h
      rfl

theorem cut_drain {conn conn' : Connection} {frames : List ClientFrame} {drained : Drained}
    (h : conn.drain drained = some (conn', frames)) : conn'.cut = conn.cut := by
  cases drained with
  | unicast written =>
    simp only [Connection.drain] at h
    split at h <;> cases h
    exact cut_write _ _ _ _
  | broadcast written =>
    simp only [Connection.drain] at h
    split at h <;> cases h
    exact cut_write _ _ _ _
  | nothing =>
    simp only [Connection.drain] at h
    split at h <;> cases h
    rfl

theorem cut_finish {conn conn' : Connection} {frames : List ClientFrame} {roomOpen : Bool}
    (h : conn.finish roomOpen = some (conn', frames)) : conn'.cut = conn.cut := by
  unfold Connection.finish at h
  split at h
  · cases h
    rfl
  · split at h
    · cases h
      rfl
    · split at h <;> cases h
      rfl

theorem uncut_eq {w : World} {c : ClientId} {conn : Connection}
    (hconn : w.connections.get? c = some conn) (hcut : conn.cut = false) : conn ∈ w.uncut c := by
  rw [World.uncut, hconn]
  simp [Option.filter, hcut]

section Step

variable {w w' : World}

theorem connection_cases {c : ClientId} {phase : Phase}
    {step : Connection → Option (Connection × List ClientFrame)}
    (h : w.connection c phase step = some w') :
    ∃ conn conn' frames, w.connections.get? c = some conn ∧ conn.phase = phase ∧
      step conn = some (conn', frames) ∧ w' = { w with
        connections := w.connections.set c conn'
        inbound := Function.update w.inbound conn.monolith
          (w.inbound conn.monolith ++ frames.map (fun frame => (c, frame))) } := by
  unfold World.connection at h
  split at h
  · next conn hconn =>
    split at h
    · next hphase =>
      obtain ⟨⟨conn', frames⟩, hstep, rfl⟩ := Option.map_eq_some_iff.mp h
      exact ⟨conn, conn', frames, hconn, hphase, hstep, rfl⟩
    · cases h
  · cases h

/-- **A connection that goes on keeps the invariant.** -/
theorem Inv.connection (h : Inv w) {c : ClientId} {phase : Phase}
    {step : Connection → Option (Connection × List ClientFrame)}
    (hs : w.connection c phase step = some w')
    (hnext : ∀ conn conn' frames, w.connections.get? c = some conn → conn.phase = phase →
      step conn = some (conn', frames) →
      (conn.cut = false → conn.alreadySentClose = true → conn.requested = true) →
      conn'.cut = conn.cut ∧ (conn.cut = false → conn.Next conn' frames)) : Inv w' := by
  obtain ⟨conn, conn', frames, hconn, hphase, hstep, rfl⟩ := connection_cases hs
  obtain ⟨hcut, hgoes⟩ := hnext conn conn' frames hconn hphase hstep
    (fun hcut => (h.entries c conn hconn hcut).sentClose)
  have hinbound : ∀ {m} {e : ClientId × ClientFrame}, e ∈ w.inbound m →
      e ∈ (Function.update w.inbound conn.monolith
        (w.inbound conn.monolith ++ frames.map (fun frame => (c, frame)))) m := by
    intro m e he
    by_cases hm : m = conn.monolith
    · subst hm
      rw [Function.update_self]
      exact List.mem_append_left _ he
    · rw [Function.update_of_ne hm]
      exact he
  refine ⟨h.used, fun c' conn₁ hconn₁ hcut₁ => ?_, fun c' conn₁ hconn₁ => ?_, h.asks, h.told⟩
  · change (w.connections.set c conn').get? c' = some conn₁ at hconn₁
    rw [OrderedMap.get?_set] at hconn₁
    split at hconn₁
    · next heq =>
      subst heq
      cases hconn₁
      have hcut₀ := hcut.symm.trans hcut₁
      have hentry := h.entries c' conn hconn hcut₀
      have hn := hgoes hcut₀
      refine ⟨⟨hentry.placed.joined, fun r hr => ?_, fun m r hr => ?_⟩, ?_, fun hreq hgroup => ?_,
        hn.sentClose, hn.finished hcut₁⟩
      · rw [hn.room]
        exact hentry.placed.room r hr
      · rw [hn.room, hn.monolith]
        exact hentry.placed.listed m r hr
      · rw [hn.monolith]
        exact hentry.stage
      · rw [hn.monolith]
        rcases hn.requested hreq with hold | hnew
        · exact (hentry.asked hold hgroup).imp_left hinbound
        · refine .inl ?_
          show (c', ClientFrame.close) ∈ Function.update w.inbound conn.monolith _ conn.monolith
          rw [Function.update_self]
          exact List.mem_append_right _ (List.mem_map_of_mem hnew)
    · have hentry := h.entries c' conn₁ hconn₁ hcut₁
      exact ⟨hentry.placed, hentry.stage,
        fun hreq hgroup => (hentry.asked hreq hgroup).imp_left hinbound, hentry.sentClose, hentry.finished⟩
  · change (w.connections.set c conn').get? c' = some conn₁ at hconn₁
    rw [OrderedMap.get?_set] at hconn₁
    split at hconn₁
    · next heq =>
      subst heq
      exact h.known c' conn hconn
    · exact h.known c' conn₁ hconn₁

/-- A task is started. -/
theorem sending_append {tasks : List (Progress Task TaskEnd)} {task : Task} {c : ClientId} {i : Nat}
    (htask : ∀ m, task ≠ .leaveSend c m) :
    Sending (tasks ++ [.waiting task]) c i ↔ Sending tasks c i := by
  refine exists_congr (fun m => ?_)
  have hadvance := Program.advance_append tasks (.waiting task : Progress Task TaskEnd)
  by_cases hi : i = tasks.length
  · subst hi
    rw [hadvance.here, List.getElem?_eq_none (Nat.le_refl _)]
    refine iff_of_false (fun h => ?_) nofun
    rw [Option.some.injEq, Progress.waiting.injEq] at h
    exact htask m h
  · rw [hadvance.elsewhere i hi]

theorem getElem?_append_of_some {tasks : List (Progress Task TaskEnd)} {i : Nat}
    {t : Progress Task TaskEnd} (h : tasks[i]? = some t) (t' : Progress Task TaskEnd) :
    (tasks ++ [t'])[i]? = some t := by
  obtain ⟨hi, -⟩ := List.getElem?_eq_some_iff.mp h
  rw [List.getElem?_append_left hi, h]

theorem Stage.call {p : Pool State Task TaskEnd} {leaves leaves' : List (Nat × ClientId)}
    {c : ClientId} {m : MonolithId} (h : Stage p leaves c m) {task : Task}
    (htask : ∀ m, task ≠ .leaveSend c m) (hleaves : ∀ e ∈ leaves, e ∈ leaves') :
    Stage ⟨p.shared, p.tasks ++ [.waiting task]⟩ leaves' c m := by
  cases h with
  | present r hgroup hsent hno =>
    exact .present r hgroup hsent (fun i hi => hno i ((sending_append htask).mp hi))
  | leaving i hgone hsent hi hsending honly =>
    exact .leaving i ⟨hgone.group, hgone.listed⟩ hsent (hleaves _ hi)
      ((sending_append htask).mpr hsending) (fun j hj => honly j ((sending_append htask).mp hj))
  | timedOut i hgone hno hi ht =>
    exact .timedOut i ⟨hgone.group, hgone.listed⟩ (fun j hj => hno j ((sending_append htask).mp hj))
      (hleaves _ hi) (getElem?_append_of_some ht _)
  | left hgone hsent hno =>
    exact .left ⟨hgone.group, hgone.listed⟩ hsent (fun j hj => hno j ((sending_append htask).mp hj))

theorem Pending.call {c : ClientId} {m : MonolithId} (h : Pending w c m) {task : Task}
    (hinbound : ∀ e ∈ w.inbound m, e ∈ w'.inbound m) (hleaves : ∀ e ∈ w.leaves, e ∈ w'.leaves)
    (htasks : w'.pool.tasks = w.pool.tasks ++ [.waiting task]) : Pending w' c m := by
  rcases h with hin | ⟨i, hi, ht⟩
  · exact .inl (hinbound _ hin)
  · refine .inr ⟨i, hleaves _ hi, ?_⟩
    rw [htasks]
    exact getElem?_append_of_some ht _

/-- A call that is no `leave_client` keeps the invariant. -/
theorem Inv.call (h : Inv w) {c : Call} (hc : ∀ id, c ≠ .leaveClient id)
    (hfresh : Fresh w.visits.known (.call c)) :
    Inv { w with visits := ⟨⟨w.pool.shared, w.pool.tasks ++ [.waiting c.task]⟩,
      w.visits.known ++ newIds (.call c)⟩ } := by
  have hsend : ∀ k m, c.task ≠ .leaveSend k m := by
    intro k m
    cases c <;> exact nofun
  have hremove : ∀ k, c.task ≠ .leaveRemove k := by
    intro k
    cases c with
    | leaveClient id => exact absurd rfl (hc id)
    | _ => exact nofun
  -- whoever is known already is not the client that may join now
  have hjoin : ∀ k ∈ w.visits.known, joinId c.task ≠ some k := by
    intro k hk hid
    cases c with
    | joinClient nc =>
      cases hid
      exact of_decide_eq_true hfresh hk
    | _ => cases hid
  have hnew : ∀ k ∈ w.visits.known, (∀ t ∈ w.pool.tasks, taskJoinId t ≠ some k) →
      ∀ t ∈ w.pool.tasks ++ [.waiting c.task], taskJoinId t ≠ some k := by
    intro k hk hold t ht
    rcases List.mem_append.mp ht with hin | hlast
    · exact hold t hin
    · rw [List.mem_singleton] at hlast
      subst hlast
      exact hjoin k hk
  refine ⟨h.used.call hfresh, fun k conn hconn hcut => ?_,
    fun k conn hconn => List.mem_append_left _ (h.known k conn hconn), fun i k hi => ?_,
    fun k hk => ?_⟩
  · have hentry := h.entries k conn hconn hcut
    exact ⟨⟨hnew k (h.known k conn hconn) hentry.placed.joined, hentry.placed.room,
        hentry.placed.listed⟩,
      hentry.stage.call (hsend k) (fun _ he => he),
      fun hreq hgroup => (hentry.asked hreq hgroup).call (fun _ he => he) (fun _ he => he) rfl,
      hentry.sentClose, hentry.finished⟩
  · have hadvance := Program.advance_append w.pool.tasks
      (.waiting c.task : Progress Task TaskEnd)
    by_cases hii : i = w.pool.tasks.length
    · subst hii
      have hhere := hadvance.here.symm.trans hi
      rw [Option.some.injEq, Progress.waiting.injEq] at hhere
      exact absurd hhere (hremove k)
    · exact h.asks i k ((hadvance.elsewhere i hii).symm.trans hi)
  · have hk' : leavesSent w.pool.shared k ≠ 0 ∨ ∃ i, Sending w.pool.tasks k i :=
      hk.imp_right (fun ⟨i, hi⟩ => ⟨i, (sending_append (hsend k)).mp hi⟩)
    obtain ⟨hknown, hjoined⟩ := h.told k hk'
    exact ⟨List.mem_append_left _ hknown, hnew k hknown hjoined⟩

/-- `handle_client_inbound` keeps the invariant: a `Close` turns into a call. -/
theorem Inv.handle (h : Inv w) {m : MonolithId} (hs : w.handle m = some w') : Inv w' := by
  unfold World.handle at hs
  split at hs
  · next c frame rest heq =>
    have hrest : ∀ {m'} {e : ClientId × ClientFrame}, e ∈ w.inbound m' →
        e ∈ Function.update w.inbound m rest m' ∨ e = (c, frame) := by
      intro m' e he
      by_cases hm : m' = m
      · subst hm
        rw [heq] at he
        rw [Function.update_self]
        exact (List.mem_cons.mp he).symm
      · rw [Function.update_of_ne hm]
        exact .inl he
    dsimp only at hs
    split at hs
    · next hclose =>
      subst hclose
      cases hs
      have hadvance := Program.advance_append w.pool.tasks
        (.waiting (.leaveRemove c) : Progress Task TaskEnd)
      have hnew : ∀ k, (∀ t ∈ w.pool.tasks, taskJoinId t ≠ some k) →
          ∀ t ∈ w.pool.tasks ++ [.waiting (.leaveRemove c)], taskJoinId t ≠ some k := by
        intro k hold t ht
        rcases List.mem_append.mp ht with hin | hlast
        · exact hold t hin
        · rw [List.mem_singleton] at hlast
          subst hlast
          exact nofun
      have hused : Used w.visits.known
          ⟨w.pool.shared, w.pool.tasks ++ [.waiting (.leaveRemove c)]⟩ := by
        have hcall := h.used.call (c := .leaveClient c) rfl
        rw [show newIds (.call (.leaveClient c)) = [] from rfl, List.append_nil] at hcall
        exact hcall
      have hsend : ∀ k m, Task.leaveRemove c ≠ .leaveSend k m := fun _ _ => nofun
      refine ⟨hused, fun k conn hconn hcut => ?_, h.known, fun i k hi => ?_, fun k hk => ?_⟩
      · have hentry := h.entries k conn hconn hcut
        refine ⟨⟨hnew k hentry.placed.joined, hentry.placed.room, hentry.placed.listed⟩,
          hentry.stage.call (hsend k) (fun _ he => List.mem_append_left _ he), fun hreq hgroup => ?_,
          hentry.sentClose, hentry.finished⟩
        rcases hentry.asked hreq hgroup with hin | ⟨i, hi, ht⟩
        · rcases hrest hin with hin' | hnow
          · exact .inl hin'
          · cases hnow
            exact .inr ⟨w.pool.tasks.length, List.mem_append_right _ (List.mem_singleton_self _),
              hadvance.here⟩
        · exact .inr ⟨i, List.mem_append_left _ hi, getElem?_append_of_some ht _⟩
      · by_cases hii : i = w.pool.tasks.length
        · subst hii
          have hhere := hadvance.here.symm.trans hi
          rw [Option.some.injEq, Progress.waiting.injEq] at hhere
          cases hhere
          exact List.mem_append_right _ (List.mem_singleton_self _)
        · exact List.mem_append_left _ (h.asks i k ((hadvance.elsewhere i hii).symm.trans hi))
      · obtain ⟨hknown, hjoined⟩ := h.told k
          (hk.imp_right (fun ⟨i, hi⟩ => ⟨i, (sending_append (hsend k)).mp hi⟩))
        exact ⟨hknown, hnew k hjoined⟩
    · next hclose =>
      cases hs
      refine ⟨h.used, fun k conn hconn hcut => ?_, h.known, h.asks, h.told⟩
      have hentry := h.entries k conn hconn hcut
      refine ⟨hentry.placed, hentry.stage, fun hreq hgroup => ?_, hentry.sentClose, hentry.finished⟩
      refine (hentry.asked hreq hgroup).imp_left (fun hin => ?_)
      rcases hrest hin with hin' | hnow
      · exact hin'
      · cases hnow
        exact absurd rfl hclose
  · cases hs

/-- The connection to a monolith goes. -/
theorem Inv.hangUp (h : Inv w) (m : MonolithId) : Inv (w.hangUp m) := by
  have hconn : ∀ {c conn}, (w.hangUp m).connections.get? c = some conn →
      ∃ conn₀, w.connections.get? c = some conn₀ ∧
        conn = { conn₀ with cut := conn₀.cut || conn₀.monolith = m } := by
    intro c conn hconn
    change (w.connections.mapValues _).get? c = some conn at hconn
    rw [OrderedMap.get?_mapValues, Option.map_eq_some_iff] at hconn
    obtain ⟨conn₀, hconn₀, rfl⟩ := hconn
    exact ⟨conn₀, hconn₀, rfl⟩
  refine ⟨h.used, fun c conn hc hcut => ?_, fun c conn hc => ?_, h.asks, h.told⟩
  · obtain ⟨conn₀, hconn₀, rfl⟩ := hconn hc
    simp only [Bool.or_eq_false_iff, decide_eq_false_iff_not] at hcut
    have hentry := h.entries c conn₀ hconn₀ hcut.1
    refine ⟨⟨hentry.placed.joined, hentry.placed.room, hentry.placed.listed⟩, hentry.stage,
      fun hreq hgroup => ?_, hentry.sentClose, hentry.finished⟩
    refine (hentry.asked hreq hgroup).imp_left (fun hin => ?_)
    show _ ∈ Function.update w.inbound m [] conn₀.monolith
    rw [Function.update_of_ne hcut.2]
    exact hin
  · obtain ⟨conn₀, hconn₀, -⟩ := hconn hc
    exact h.known c conn₀ hconn₀

/-! ## A segment -/

/-- A connection after a segment was handed over by it, or is one from before. -/
theorem connectionsAfter_cases {task : Task} {x : Answer} {ctx' : BalancerContext} {c : ClientId}
    {conn : Connection} (h : (w.connectionsAfter task x ctx').get? c = some conn) :
    accepted w.ctx task x = some (c, conn) ∨
    ∃ conn₀ unicast, w.connections.get? c = some conn₀ ∧
      conn = { conn₀ with unicast := unicast, cut := conn.cut } ∧
      (conn.cut = false → conn₀.cut = false ∧ ctx'.monoliths.contains conn₀.monolith = true) := by
  have hsever : ∀ {conn}, (World.sever w.connections ctx' (joined task x)).get? c = some conn →
      ∃ conn₀, w.connections.get? c = some conn₀ ∧ conn = { conn₀ with cut := conn.cut } ∧
        (conn.cut = false → conn₀.cut = false ∧ ctx'.monoliths.contains conn₀.monolith = true) := by
    intro conn hconn
    rw [World.sever, OrderedMap.get?_mapValues, Option.map_eq_some_iff] at hconn
    obtain ⟨conn₀, hconn₀, rfl⟩ := hconn
    refine ⟨conn₀, hconn₀, rfl, fun hcut => ?_⟩
    simp only [Bool.or_eq_false_iff, Bool.not_eq_false'] at hcut
    exact hcut.1
  have hkept : ∀ {conn}, (World.sever w.connections ctx' (joined task x)).get? c = some conn →
      ∃ conn₀ unicast, w.connections.get? c = some conn₀ ∧
        conn = { conn₀ with unicast := unicast, cut := conn.cut } ∧
        (conn.cut = false → conn₀.cut = false ∧ ctx'.monoliths.contains conn₀.monolith = true) := by
    intro conn hconn
    obtain ⟨conn₀, hconn₀, heq, hcut⟩ := hsever hconn
    refine ⟨conn₀, conn₀.unicast, hconn₀, ?_, hcut⟩
    rw [heq]
  have hframed : ∀ {c' frame conn}, ((World.sever w.connections ctx' (joined task x)).adjust c'
      (fun conn => { conn with unicast := conn.unicast ++ [frame] })).get? c = some conn →
      ∃ conn₀ unicast, w.connections.get? c = some conn₀ ∧
        conn = { conn₀ with unicast := unicast, cut := conn.cut } ∧
        (conn.cut = false → conn₀.cut = false ∧ ctx'.monoliths.contains conn₀.monolith = true) := by
    intro c' frame conn hconn
    rw [OrderedMap.get?_adjust] at hconn
    split at hconn
    · obtain ⟨conn₁, hconn₁, rfl⟩ := Option.map_eq_some_iff.mp hconn
      obtain ⟨conn₀, hconn₀, heq, hcut⟩ := hsever hconn₁
      refine ⟨conn₀, conn₁.unicast ++ [frame], hconn₀, ?_, hcut⟩
      rw [heq]
    · exact hkept hconn
  unfold World.connectionsAfter at h
  dsimp only at h
  cases hacc : accepted w.ctx task x with
  | none =>
    rw [hacc] at h
    dsimp only at h
    split at h
    · exact .inr (hframed h)
    · exact .inr (hkept h)
  | some e =>
    obtain ⟨c', conn'⟩ := e
    rw [hacc] at h
    dsimp only at h
    rw [OrderedMap.get?_set] at h
    split at h
    · next heq =>
      cases h
      rw [heq]
      exact .inl rfl
    · split at h
      · exact .inr (hframed h)
      · exact .inr (hkept h)

theorem accepted_eq_some {ctx : BalancerContext} {task : Task} {x : Answer} {c : ClientId}
    {conn : Connection} (h : accepted ctx task x = some (c, conn)) :
    ∃ nc m, task = .joinRegister nc m ∧ x = .lockHandOver true ∧ ctx.monoliths.contains m = true ∧
      c = nc.id ∧ conn = .new nc.room m := by
  unfold accepted at h
  split at h
  · next nc m =>
    split at h
    · next hconnected =>
      cases h
      exact ⟨nc, m, rfl, rfl, hconnected, rfl, rfl⟩
    · cases h
  · cases h

/-- The condition on a segment, seen from one client. -/
theorem SegmentOk.fair {task : Task} {x : Answer} (h : SegmentOk w task x) {c : ClientId}
    {conn : Connection} (hconn : w.connections.get? c = some conn) (hcut : conn.cut = false) :
    Fair w.pool c conn task x := by
  have huncut := uncut_eq hconn hcut
  have hclient : ∀ {r}, w.ctx.directory.group c = some r →
      ∃ client, w.ctx.clients.get? c = some client ∧ client.room = r := by
    intro r hr
    exact Option.map_eq_some_iff.mp hr
  have hhost : ∀ {r locator}, w.ctx.roomsToMonoliths.get? r = some locator →
      w.ctx.directory.host r = some locator.monolithId := by
    intro r locator hl
    simp [directory, hl]
  constructor
  · rintro rfl r hr
    obtain ⟨client, hget, rfl⟩ := hclient hr
    obtain ⟨locator, hl, hconnected, hplace⟩ := h conn huncut client hget
    exact ⟨locator.monolithId, hhost hl, hconnected, hplace⟩
  · rintro m result rfl rfl
    exact h conn huncut
  · intro m hchange hne r hr
    obtain ⟨client, hget, rfl⟩ := hclient hr
    have hkept : ∃ locator ∈ w.ctx.roomsToMonoliths.get? client.room, locator.monolithId ≠ m := by
      unfold SegmentOk at h
      split at h
      · cases x <;> cases hchange
      · cases hchange
      · exact h m hchange (c, conn) (OrderedMap.get?_eq_some_iff.mp hconn) hcut (Ne.symm hne) client hget
    obtain ⟨locator, hl, hmono⟩ := hkept
    exact ⟨locator.monolithId, hhost hl, hmono⟩

/-- A client is handed over. -/
theorem Entry.accepted (h : Inv w) {i : Nat} {nc : NewClient} {m : MonolithId} {s : State}
    {progress : Progress Task TaskEnd} (ht : w.pool.tasks[i]? = some (.waiting (.joinRegister nc m)))
    (hres : resume (.joinRegister nc m) (.lockHandOver true) w.pool.shared = some (s, progress))
    (hconnected : w.ctx.monoliths.contains m = true) {w' : World}
    (hused : Used w'.visits.known w'.pool) (hpool : w'.pool = ⟨s, w.pool.tasks.set i progress⟩) :
    Entry w' nc.id (.new nc.room m) := by
  have htask := Program.mem_of_getElem? ht
  obtain ⟨-, -, hunlisted⟩ := h.used.tasks _ htask nc.id rfl
  have hdir : s.ctx.directory = w.ctx.directory.enroll nc.id nc.room m := by
    rw [segment_directory hres]
    show w.ctx.directory.apply (if w.ctx.monoliths.contains m then _ else _) = _
    rw [if_pos hconnected]
    rfl
  have hgroup : s.ctx.directory.group nc.id = some nc.room := by
    rw [hdir]
    exact if_pos rfl
  -- no `B2MLeave` was sent for a client that is still being joined
  have hnot : ¬ (leavesSent w.pool.shared nc.id ≠ 0 ∨ ∃ i, Sending w.pool.tasks nc.id i) :=
    fun htold => (h.told nc.id htold).2 _ htask rfl
  rw [not_or, not_not, not_exists] at hnot
  refine ⟨⟨fun t hmem hjoin => ?_, fun r hr => ?_, fun m' r hr => ?_⟩, ?_, nofun, nofun, nofun⟩
  · obtain ⟨-, hnone, -⟩ := hused.tasks t hmem nc.id hjoin
    rw [hpool] at hnone
    change s.ctx.directory.group nc.id = none at hnone
    rw [hgroup] at hnone
    cases hnone
  · rw [hpool] at hr
    change s.ctx.directory.group nc.id = some r at hr
    rw [hgroup] at hr
    exact (Option.some.inj hr).symm
  · rw [hpool] at hr
    change nc.id ∈ s.ctx.directory.listed m' r at hr
    rw [hdir] at hr
    simp only [Registry.enroll] at hr
    split at hr
    · next hplace => exact hplace
    · exact absurd hr (hunlisted m' r)
  · rw [hpool]
    refine .present nc.room hgroup ((leavesSent_of_not_sending hnot.2 ht hres).trans hnot.1)
      (fun j hj => ?_)
    rcases sending_set ht hres hj with ⟨-, hold⟩ | ⟨-, heq, -⟩
    · exact hnot.2 j hold
    · cases heq

/-- **A segment that is fair to the clients keeps the invariant.** -/
theorem Inv.answer (h : Inv w) {i : Nat} {x : Answer} {task : Task} {s : State}
    {progress : Progress Task TaskEnd} (ht : w.pool.tasks[i]? = some (.waiting task))
    (hres : resume task x w.pool.shared = some (s, progress)) (hok : SegmentOk w task x) :
    Inv { w with
      visits := ⟨⟨s, w.pool.tasks.set i progress⟩, w.visits.known⟩
      connections := w.connectionsAfter task x s.ctx } := by
  have hadvance := Program.advance_set ht progress
  have hused : Used w.visits.known ⟨s, w.pool.tasks.set i progress⟩ := h.used.segment ht hres
  refine ⟨hused, fun c conn hconn hcut => ?_, fun c conn hconn => ?_, fun j c hj => ?_,
    fun c hc => ?_⟩
  · rcases connectionsAfter_cases hconn with hnew | ⟨conn₀, unicast, hconn₀, heq, hkept⟩
    · obtain ⟨nc, m, rfl, rfl, hconnected, rfl, rfl⟩ := accepted_eq_some hnew
      exact Entry.accepted h ht hres hconnected hused rfl
    · obtain ⟨hcut₀, hconnected⟩ := hkept hcut
      have hentry := h.entries c conn₀ hconn₀ hcut₀
      have hplaced := hentry.placed.segment ht hres
      have hstage := hentry.stage.segment hentry.placed (hok.fair hconn₀ hcut₀) ht hres hconnected
        (fun heq => h.asks i c (heq ▸ ht))
      rw [heq]
      refine ⟨⟨hplaced.joined, hplaced.room, hplaced.listed⟩, hstage, fun hreq hgroup => ?_,
        hentry.sentClose, hentry.finished⟩
      have hgroup₀ : w.ctx.directory.group c ≠ none := by
        intro hnone
        obtain ⟨r, hr⟩ := Option.ne_none_iff_exists'.mp hgroup
        change s.ctx.directory.group c = some r at hr
        rw [segment_directory hres] at hr
        rcases Registry.group_apply hr with hold | ⟨m, hnew⟩
        · change w.ctx.directory.group c = some r at hold
          rw [hnone] at hold
          cases hold
        · exact hentry.placed.not_enrolled ht r m hnew
      rcases hentry.asked hreq hgroup₀ with hin | ⟨j, hj, htj⟩
      · exact .inl hin
      · refine .inr ⟨j, hj, (hadvance.elsewhere j ?_).trans htj⟩
        rintro rfl
        -- the client's own `leave_client` has just removed it
        rw [ht, Option.some.injEq, Progress.waiting.injEq] at htj
        subst htj
        have hx : x = .lock := by
          cases x with
          | lock => rfl
          | _ => cases hres
        subst hx
        refine hgroup ?_
        show s.ctx.directory.group c = none
        rw [segment_directory hres]
        exact if_pos rfl
  · rcases connectionsAfter_cases hconn with hnew | ⟨conn₀, unicast, hconn₀, -, -⟩
    · obtain ⟨nc, m, rfl, rfl, -, rfl, rfl⟩ := accepted_eq_some hnew
      exact (h.used.tasks _ (Program.mem_of_getElem? ht) nc.id rfl).1
    · exact h.known c conn₀ hconn₀
  · by_cases hji : j = i
    · subst hji
      have hhere := hadvance.here.symm.trans hj
      rw [Option.some.injEq] at hhere
      exact absurd hhere ((segment_leave hres).removed c)
    · exact h.asks j c ((hadvance.elsewhere j hji).symm.trans hj)
  · have hbefore : (leavesSent w.pool.shared c ≠ 0 ∨ ∃ i, Sending w.pool.tasks c i) ∨
        w.ctx.directory.group c ≠ none := by
      rcases hc with hsent | ⟨j, hj⟩
      · by_cases hsending : Sending w.pool.tasks c i
        · exact .inl (.inr ⟨i, hsending⟩)
        · refine .inl (.inl (fun hzero => hsent ?_))
          refine ((segment_leave hres).told c (fun m hm => hsending ⟨m, ?_⟩)).trans hzero
          rw [ht, hm.1]
      · rcases sending_set ht hres hj with ⟨-, hold⟩ | ⟨-, -, hgroup⟩
        · exact .inl (.inr ⟨j, hold⟩)
        · exact .inr hgroup
    have hfound : c ∈ w.visits.known ∧ ∀ t ∈ w.pool.tasks, taskJoinId t ≠ some c := by
      rcases hbefore with htold | hgroup
      · exact h.told c htold
      · obtain ⟨r, hr⟩ := Option.ne_none_iff_exists'.mp hgroup
        refine ⟨h.used.group c r hr, fun t hmem hjoin => ?_⟩
        exact hgroup (h.used.tasks t hmem c hjoin).2.1
    exact ⟨hfound.1, joined_set hfound.2 ht hres⟩

/-! ## Every run -/

/-- **Every step that meets the condition keeps the invariant.** -/
theorem step_inv (h : Inv w) {e : Event} (hok : Deregisters w e) (hs : system.step w e = some w') :
    Inv w' := by
  change w.step e = some w' at hs
  cases e with
  | task e =>
    cases e with
    | call c =>
      have hs' : ∃ v, (∀ id, c ≠ .leaveClient id) ∧ visits.step w.visits (.call c) = some v ∧
          w' = { w with visits := v } := by
        cases c with
        | leaveClient id => cases hs
        | _ =>
          simp only [World.step, World.task] at hs
          obtain ⟨v, hv, rfl⟩ := Option.map_eq_some_iff.mp hs
          exact ⟨v, fun _ => nofun, hv, rfl⟩
      obtain ⟨v, hc, hv, rfl⟩ := hs'
      obtain ⟨hfresh, hpool, hknown⟩ := step_visits hv
      have hv : v = ⟨⟨w.pool.shared, w.pool.tasks ++ [.waiting c.task]⟩,
          w.visits.known ++ newIds (.call c)⟩ := by
        cases v
        cases hpool
        dsimp only at hknown
        rw [hknown]
        rfl
      rw [hv]
      exact h.call hc hfresh
    | answer i x =>
      simp only [World.step, World.task] at hs
      split at hs
      · next task ht =>
        obtain ⟨v, hv, rfl⟩ := Option.map_eq_some_iff.mp hs
        obtain ⟨-, hpool, hknown⟩ := step_visits hv
        rcases Program.step_cases hpool with ⟨c, heq, -⟩ | ⟨i', x', task', s, pr, heq, ht', hr, hv'⟩ |
          ⟨ev, -, -, -, -⟩
        · cases heq
        · cases heq
          have htask := ht.symm.trans ht'
          cases htask
          have hv : v = ⟨⟨s, w.pool.tasks.set i pr⟩, w.visits.known⟩ := by
            cases v
            dsimp only at hv' hknown
            rw [hv', hknown, show newIds (PoolEvent.answer i x) = [] from rfl, List.append_nil]
            rfl
          rw [hv]
          exact h.answer ht hr (hok task ht)
        · exact ev.elim
      · cases hs
    | external ev => exact ev.elim
  | select c selected =>
    refine h.connection hs (fun conn conn' frames hconn hphase hstep hsent => ?_)
    refine ⟨?_, fun hcut => Connection.next_select hstep hphase (hsent hcut) ?_⟩
    · exact cut_select hstep
    · rintro rfl hclose
      exact hok conn (uncut_eq hconn hcut) hclose
  | drain c drained =>
    refine h.connection hs (fun conn conn' frames hconn hphase hstep hsent => ?_)
    refine ⟨?_, fun hcut => Connection.next_drain hstep hphase (hsent hcut) ?_⟩
    · exact cut_drain hstep
    · rintro rfl hclose
      exact hok conn (uncut_eq hconn hcut) hclose
  | finish c roomOpen =>
    refine h.connection hs (fun conn conn' frames hconn hphase hstep hsent => ?_)
    exact ⟨cut_finish hstep, fun hcut => Connection.next_finish hstep (hsent hcut)⟩
  | handle m => exact h.handle hs
  | hangUp m =>
    cases hs
    exact h.hangUp m

/-- **Every client whose connection is over is deregistered, and its monolith is told once**, in the
runs in which no `Close` is written to a client before its own has been passed on, and every
`leave_client` finds what it needs. -/
theorem deregistered_throughout {region : Region} {es : List Event}
    (h : system.Along Deregisters (.init region) es) :
    system.Always Deregistered (.init region) es :=
  (Machine.always_of_along (fun _ _ _ hI hC hs => step_inv hI hC hs) (inv_init region) h).imp
    (fun _ hI => hI.deregistered)

/-- A monolith joins, and a client joins a room there. -/
def visit : List Event :=
  [.task (.call (.joinMonolith ⟨1, "local"⟩)), .task (.answer 0 (.lockHandOver true)),
   .task (.call (.joinClient ⟨7, RoomName.ofString "foo", "local", "token"⟩)),
   .task (.answer 1 (.lockSelecting (some 1))), .task (.answer 1 (.sent .ok)),
   .task (.answer 1 (.lockHandOver true))]

/-- The client closes its connection; `client_entry` goes on until its channel is closed, and asks
for `leave_client` again. -/
def visitAndLeave : List Event :=
  visit ++ [.select 7 (.message .data true), .handle 1, .select 7 (.message .close true), .handle 1,
   .task (.answer 2 .lock), .task (.answer 2 (.sent .ok)), .select 7 .closed, .drain 7 .nothing,
   .finish 7 true, .handle 1, .task (.answer 3 .lock)]

theorem deregistered_throughout_visitAndLeave :
    system.Always Deregistered (.init "local") visitAndLeave ∧
      ((system.run (.init "local") visitAndLeave).map (fun w =>
        (w.ctx.clients.contains 7, leavesSent w.pool.shared 7))) = some (false, 1) :=
  ⟨deregistered_throughout (by decide +kernel), by decide +kernel⟩

/-- The client is kicked. -/
def visitAndKick : List Event :=
  visit ++ [.task (.call (.kick 1 7)), .task (.answer 2 .lock), .task (.answer 2 (.sent .ok)),
   .select 7 (.unicast true), .drain 7 .nothing, .finish 7 true]

/-- **The kicked client stays registered.** -/
theorem not_deregistered_throughout :
    ¬ ∀ region es, system.Always Deregistered (.init region) es := by
  intro h
  have hrun : ∃ w ∈ system.run (.init "local") visitAndKick,
      (∃ conn ∈ w.connections.get? 7, conn.phase = .finished ∧ conn.cut = false ∧
        w.inbound conn.monolith = []) ∧ w.leaves = [] ∧ w.ctx.clients.get? 7 ≠ none := by
    decide +kernel
  obtain ⟨w, hw, ⟨conn, hconn, hover, hcut, hinbound⟩, hleaves, hclient⟩ := hrun
  have hderegistered := (h "local" visitAndKick).last hw
  refine hclient (hderegistered 7 conn hconn hover hcut ⟨fun frame hin => ?_, fun i hi => ?_⟩).1
  · rw [hinbound] at hin
    cases hin
  · rw [hleaves] at hi
    cases hi

end Step

end OpenTogetherTube.Balancer.Connections
