import OpenTogetherTube.Lib.Rest
import OpenTogetherTube.Balancer.Work
import Mathlib.Algebra.BigOperators.Group.Finset.Piecewise
import Mathlib.Algebra.Order.BigOperators.Group.Finset

/-!
# The cluster comes to rest

What is left to do is a multiset of ranks: one for each message that is on its way, each task of the
balancer that is suspended and each await of a monolith. Every internal step takes one of them and puts
smaller ones in its place.
-/

namespace OpenTogetherTube.Balancer.Cluster

open OpenTogetherTube.Lib
open Gossip (sentTo)

variable {n : Nat}

/-- What is on its way between the balancer and a monolith, and what the monolith waits for. -/
def share (s : State) (m : MonolithId) (mono : Monolith) : Multiset Rank :=
  (mono.channel.map frameRank : Multiset Rank) + (inbox s m mono).map inboxRank +
    mono.chores.map choreRank

def shares (c : Cluster n) (ms : Finset (Fin n)) : Multiset Rank :=
  ∑ m ∈ ms, share c.pool.shared m (c.monoliths m)

def toDo (c : Cluster n) : Multiset Rank :=
  (c.pool.tasks.flatMap progressRanks : Multiset Rank) + c.shares Finset.univ

/-! ## A monolith -/

section Monoliths

variable {s : State} {m : MonolithId} {mono mono' mono'' : Monolith} {k : Rank} {msg : MsgB2M}
  {toLowerCase : String → String}

/-- The monolith has more to do, of smaller ranks only. -/
def Adds (k : Rank) (s : State) (m : MonolithId) (mono mono' : Monolith) : Prop :=
  ∃ new, share s m mono' ≤ new + share s m mono ∧ ∀ b ∈ new, b < k

theorem Adds.of_le (h : share s m mono' ≤ share s m mono) : Adds k s m mono mono' :=
  ⟨0, by rwa [zero_add], fun _ hb => absurd hb (Multiset.notMem_zero _)⟩

theorem Adds.trans (h : Adds k s m mono mono') (h' : Adds k s m mono' mono'') :
    Adds k s m mono mono'' := by
  obtain ⟨new, hnew, hless⟩ := h
  obtain ⟨new', hnew', hless'⟩ := h'
  refine ⟨new' + new, ?_, fun b hb => ?_⟩
  · rw [add_assoc]
    exact hnew'.trans (add_le_add_right hnew new')
  · rcases Multiset.mem_add.mp hb with hb | hb
    · exact hless' b hb
    · exact hless b hb

/-- What the room manager does is no work by itself. -/
theorem adds_manager (manager : Server.RoomManager.Manager) :
    Adds k s m mono { mono with manager := manager } :=
  .of_le le_rfl

theorem adds_send {frames : List Frame} (h : ∀ frame ∈ frames, frameRank frame < k) :
    Adds k s m mono (mono.send frames) := by
  unfold Monolith.send
  split
  · refine ⟨frames.map frameRank, le_of_eq ?_, fun b hb => ?_⟩
    · simp only [share, List.map_append, ← Multiset.coe_add]
      show (_ : Multiset Rank) + (((inbox s m mono).map inboxRank : List Rank) : Multiset Rank) + _ = _
      abel
    · obtain ⟨frame, hframe, rfl⟩ := List.mem_map.mp (Multiset.mem_coe.mp hb)
      exact h frame hframe
  · exact .of_le le_rfl

theorem adds_awaits {chores : List Chore} (h : ∀ chore ∈ chores, choreRank chore < k) :
    Adds k s m mono (mono.await chores) := by
  refine ⟨chores.map choreRank, le_of_eq ?_, fun b hb => ?_⟩
  · simp only [Monolith.await, share, List.map_append, ← Multiset.coe_add]
    show (_ : Multiset Rank) + ((inbox s m mono).map inboxRank : List Rank) + _ = _
    abel
  · obtain ⟨chore, hchore, rfl⟩ := List.mem_map.mp (Multiset.mem_coe.mp hb)
    exact h chore hchore

theorem adds_await {chore : Chore} (h : choreRank chore < k) :
    Adds k s m mono (mono.await [chore]) := by
  refine adds_awaits fun chore' hchore => ?_
  rw [List.mem_singleton.mp hchore]
  exact h

/-- Clients leave their rooms. -/
theorem adds_leaving (h : low 3 < k) (leaving : Nat) :
    Adds k s m mono (mono.await (List.replicate leaving .request)) := by
  refine adds_awaits fun chore hchore => ?_
  rw [List.eq_of_mem_replicate hchore]
  exact h

theorem adds_stop (h : low 1 < k) : Adds k s m mono mono.stop := by
  have hclosed : Adds k s m mono (mono.send [.closed]) := by
    refine adds_send fun frame hframe => ?_
    rw [List.mem_singleton.mp hframe]
    exact h
  refine hclosed.trans (.of_le ?_)
  show ((mono.send [.closed]).channel.map frameRank : Multiset Rank) + 0 + 0 ≤ _
  rw [add_zero, add_zero, share, add_assoc]
  exact Multiset.le_add_right _ _

theorem adds_receive (leaving : Nat) (msg : MsgB2M) :
    Adds (inboxRank msg) s m mono (mono.receive toLowerCase leaving msg) := by
  cases msg with
  | join room client token =>
    unfold Monolith.receive
    dsimp only
    split
    · exact .of_le le_rfl
    · exact adds_await (low_lt_low.mpr (Nat.lt_succ_self 18))
  | leave client => exact adds_leaving (low_lt_low.mpr (Nat.lt_succ_self 3)) _
  | unload room =>
    unfold Monolith.receive
    dsimp only
    generalize hstart : Server.RoomManager.start toLowerCase _ mono.manager = r
    obtain ⟨manager, progress⟩ := r
    have hnext : Adds (low 7) s m mono
        ({ mono with manager := manager }.send (reports false .gone progress)) :=
      (adds_manager manager).trans (adds_send (reports_lt (by decide) (by decide)))
    dsimp only
    split
    · next task =>
      exact hnext.trans (adds_await (low_lt_low.mpr (start_unload_lt (congrArg Prod.snd hstart))))
    · exact hnext.trans (adds_leaving (low_lt_low.mpr (by decide)) leaving)
    · exact hnext.trans (adds_stop (low_lt_low.mpr (by decide)))

/-- A call of the room manager goes on, and the balancer is told if something was loaded. -/
theorem adds_segment (mono : Monolith) (manager : Server.RoomManager.Manager)
    (task : Server.RoomManager.Task) (report : LoadReport)
    (progress : Progress Server.RoomManager.Task Server.RoomManager.Result) :
    Adds (low (managerRank task)) s m mono
      ({ mono with manager := manager }.send (reports (loads task) report progress)) := by
  have hrank := managerRank_ge task
  exact (adds_manager manager).trans
    (adds_send (reports_lt (by omega) managerRank_of_loads))

/-- An await that settles is gone, and adds what comes of it. -/
theorem settle_adds {i leaving : Nat} {x : Server.RoomManager.Answer} {report : LoadReport}
    (h : mono.settle toLowerCase i x report leaving = some mono') :
    ∃ chore, mono.chores[i]? = some chore ∧
      Adds (choreRank chore) s m { mono with chores := mono.chores.eraseIdx i } mono' := by
  unfold Monolith.settle at h
  dsimp only at h
  split at h
  · cases h
  · next hchore =>
    cases h
    exact ⟨_, hchore, .of_le le_rfl⟩
  · next room hchore =>
    refine ⟨_, hchore, ?_⟩
    split at h
    · cases h
      exact .of_le le_rfl
    · generalize Server.RoomManager.getRoom toLowerCase mono.manager room.lower false = r at h
      split at h <;> cases h
      · next task _ =>
        have hless := managerRank_le task
        exact (adds_manager r.1).trans (adds_await (low_lt_low.mpr (by omega)))
      · exact (adds_manager r.1).trans (adds_await (low_lt_low.mpr (by decide)))
      · exact adds_manager r.1
  · next task hchore =>
    refine ⟨_, hchore, ?_⟩
    obtain ⟨⟨manager, progress⟩, hresume, rfl⟩ := Option.map_eq_some_iff.mp h
    have hrank := managerRank_ge task
    have hnext := adds_segment (s := s) (m := m) { mono with chores := mono.chores.eraseIdx i } manager
      task report progress
    dsimp only
    split
    · exact hnext.trans (adds_await (low_lt_low.mpr (resume_lt hresume)))
    · exact hnext.trans (adds_await (low_lt_low.mpr (by omega)))
    · exact hnext.trans (adds_leaving (low_lt_low.mpr (by omega)) _)
    · exact hnext.trans (adds_stop (low_lt_low.mpr (by omega)))
  · next task hchore =>
    refine ⟨_, hchore, ?_⟩
    obtain ⟨⟨manager, progress⟩, hresume, rfl⟩ := Option.map_eq_some_iff.mp h
    have hrank := managerRank_ge task
    have hnext := adds_segment (s := s) (m := m) { mono with chores := mono.chores.eraseIdx i } manager
      task report progress
    dsimp only
    split
    · exact hnext.trans (adds_await (low_lt_low.mpr (resume_lt hresume)))
    · exact hnext.trans (adds_leaving (low_lt_low.mpr (by omega)) leaving)
    · exact hnext

theorem adds_chat (hk : low 3 ≤ k) (chat : List Chat) :
    Adds k s m mono (mono.send (chat.map Chat.frame)) := by
  refine adds_send fun frame hframe => ?_
  obtain ⟨c, -, rfl⟩ := List.mem_map.mp hframe
  exact lt_of_lt_of_le c.frame_lt hk

/-- Something to do is replaced by what it adds. -/
theorem Adds.replaces (h : Adds k s m mono' mono'')
    (hshare : share s m mono = k ::ₘ share s m mono') :
    Replaces (share s m mono) (share s m mono'') := by
  obtain ⟨new, hnew, hless⟩ := h
  exact ⟨k, new, _, hshare, hnew, hless⟩

/-- The next message is received. -/
theorem share_received {msg : MsgB2M} (hmsg : (inbox s m mono).head? = some msg) :
    share s m mono =
      inboxRank msg ::ₘ share s m { mono with received := mono.received + 1 } := by
  have hinbox : inbox s m mono = msg :: inbox s m { mono with received := mono.received + 1 } := by
    unfold inbox at hmsg
    split at hmsg
    · next hconnected =>
      have htail : inbox s m { mono with received := mono.received + 1 } =
          (sentTo s m).drop (mono.received + 1) := if_pos hconnected
      rw [inbox, if_pos hconnected, htail, ← List.tail_drop]
      exact (List.cons_head?_tail hmsg).symm
    · cases hmsg
  rw [share, share, hinbox, List.map_cons, ← Multiset.cons_coe, Multiset.add_cons, Multiset.cons_add]

theorem share_settled {i : Nat} {chore : Chore} (hchore : mono.chores[i]? = some chore) :
    share s m mono =
      choreRank chore ::ₘ share s m { mono with chores := mono.chores.eraseIdx i } := by
  obtain ⟨hi, rfl⟩ := List.getElem?_eq_some_iff.mp hchore
  have hperm : (mono.chores.map choreRank : Multiset Rank) =
      choreRank mono.chores[i] ::ₘ (mono.chores.eraseIdx i).map choreRank := by
    rw [Multiset.cons_coe, ← List.map_cons]
    exact Multiset.coe_eq_coe.mpr ((List.getElem_cons_eraseIdx_perm hi).symm.map choreRank)
  rw [share, share, hperm, Multiset.add_cons]
  rfl

end Monoliths

/-! ## The cluster -/

variable {c c' : Cluster n} {toLowerCase : String → String}

/-- A monolith's share, and the rest. -/
theorem toDo_eq (c : Cluster n) (m : Fin n) :
    c.toDo = ((c.pool.tasks.flatMap progressRanks : Multiset Rank) + c.shares (Finset.univ.erase m)) +
      share c.pool.shared m (c.monoliths m) := by
  rw [toDo, add_assoc, add_comm (c.shares _), shares, shares,
    Finset.add_sum_erase _ (fun m : Fin n => share c.pool.shared m (c.monoliths m))
      (Finset.mem_univ m)]

theorem toDo_setMonolith (c : Cluster n) (m : Fin n) (mono : Monolith) :
    (c.setMonolith m mono).toDo =
      ((c.pool.tasks.flatMap progressRanks : Multiset Rank) + c.shares (Finset.univ.erase m)) +
        share c.pool.shared m mono := by
  have hothers : (c.setMonolith m mono).shares (Finset.univ.erase m) =
      c.shares (Finset.univ.erase m) := by
    refine Finset.sum_congr rfl fun m' hm' => ?_
    show share _ _ (Function.update c.monoliths m mono m') = _
    rw [Function.update_of_ne (Finset.ne_of_mem_erase hm')]
    rfl
  rw [toDo_eq _ m, hothers]
  show _ + share _ _ (Function.update c.monoliths m mono m) = _
  rw [Function.update_self]
  rfl

/-- A monolith replaces something that it has to do. -/
theorem replaces_setMonolith {m : Fin n} {mono : Monolith}
    (h : Replaces (share c.pool.shared m (c.monoliths m)) (share c.pool.shared m mono)) :
    Replaces c.toDo (c.setMonolith m mono).toDo := by
  rw [toDo_eq c m, toDo_setMonolith]
  exact h.add_left _

/-- The dispatcher reads a message. -/
theorem replaces_dispatch {m : Fin n} {frame : Frame} {rest : List Frame}
    (hchannel : (c.monoliths m).channel = frame :: rest) :
    Replaces c.toDo
      (((frame.call m).elim c c.call).setMonolith m { c.monoliths m with channel := rest }).toDo := by
  have hshare : share c.pool.shared m (c.monoliths m) =
      frameRank frame ::ₘ share c.pool.shared m { c.monoliths m with channel := rest } := by
    rw [share, share, hchannel, List.map_cons, ← Multiset.cons_coe, Multiset.cons_add,
      Multiset.cons_add]
    rfl
  rw [toDo_eq c m, hshare, Multiset.add_cons]
  cases hcall : frame.call m with
  | none =>
    refine ⟨_, 0, _, rfl, ?_, fun _ hb => absurd hb (Multiset.notMem_zero _)⟩
    rw [zero_add]
    exact (toDo_setMonolith c m _).le
  | some k =>
    refine ⟨_, {taskRank k.task}, _, rfl, le_of_eq ?_, fun b hb => ?_⟩
    · refine (toDo_setMonolith (c.call k) m _).trans ?_
      have htasks : ((c.call k).pool.tasks.flatMap progressRanks : Multiset Rank) =
          {taskRank k.task} + c.pool.tasks.flatMap progressRanks := by
        rw [add_comm]
        show (((c.pool.tasks ++ [_]).flatMap progressRanks : List Rank) : Multiset Rank) = _
        rw [List.flatMap_append, ← Multiset.coe_add]
        rfl
      rw [htasks, add_assoc, add_assoc, add_assoc]
      rfl
    · rw [Multiset.mem_singleton.mp hb]
      exact Frame.call_lt hcall

/-! ### A task runs -/

/-- What is sent gets to one monolith at most. -/
theorem sum_sent_le (sent : List (MonolithId × MsgB2M)) :
    ∑ m : Fin n, (((sent.filterMap (fun e => if e.1 = m.val then some e.2 else none)).map
      inboxRank : List Rank) : Multiset Rank) ≤ (sent.map (fun e => inboxRank e.2) : List Rank) := by
  induction sent with
  | nil => simp
  | cons e sent ih =>
    have hhead : ∀ m : Fin n, ((((e :: sent).filterMap
        (fun e => if e.1 = m.val then some e.2 else none)).map inboxRank : List Rank) : Multiset Rank) =
        (if e.1 = m.val then {inboxRank e.2} else 0) +
          ((sent.filterMap (fun e => if e.1 = m.val then some e.2 else none)).map inboxRank :
            List Rank) := by
      intro m
      by_cases h : e.1 = m.val
      · simp [h]
      · simp [h]
    have hone : ∑ m : Fin n, (if e.1 = m.val then ({inboxRank e.2} : Multiset Rank) else 0) ≤
        {inboxRank e.2} := by
      by_cases h : e.1 < n
      · have hpoint : ∀ m : Fin n, (if e.1 = m.val then ({inboxRank e.2} : Multiset Rank) else 0) =
            if m = ⟨e.1, h⟩ then {inboxRank e.2} else 0 :=
          fun m => by simp only [Fin.ext_iff, eq_comm]
        rw [Finset.sum_congr rfl (fun m _ => hpoint m), Finset.sum_ite_eq' Finset.univ]
        simp
      · refine (Finset.sum_eq_zero (fun m _ => if_neg (fun heq => h ?_))).le.trans (Multiset.zero_le _)
        exact heq ▸ m.isLt
    rw [Finset.sum_congr rfl (fun m _ => hhead m), Finset.sum_add_distrib, List.map_cons,
      ← Multiset.cons_coe, ← Multiset.singleton_add]
    exact add_le_add hone ih

/-- A task has sent something. -/
theorem shares_segment_le {s' : State} {sent : List (MonolithId × MsgB2M)}
    (hsent : s'.outbox = c.pool.shared.outbox ++ sent) :
    ∑ m : Fin n, share s' m (c.monoliths m) ≤
      (sent.map (fun e => inboxRank e.2) : List Rank) + c.shares Finset.univ := by
  rw [add_comm]
  refine le_trans (Finset.sum_le_sum (g := fun m : Fin n => share c.pool.shared m (c.monoliths m) +
    ((sent.filterMap (fun e => if e.1 = m.val then some e.2 else none)).map inboxRank : List Rank))
    (fun m _ => ?_)) ?_
  · have hinbox : (inbox s' m (c.monoliths m)).Sublist (inbox c.pool.shared m (c.monoliths m) ++
        sent.filterMap (fun e => if e.1 = m.val then some e.2 else none)) := by
      unfold inbox
      split
      · rw [sentTo, hsent, List.filterMap_append, List.drop_append]
        exact (List.Sublist.refl _).append (List.drop_sublist _ _)
      · exact List.nil_sublist _
    have hranks : ((inbox s' m (c.monoliths m)).map inboxRank : Multiset Rank) ≤
        (inbox c.pool.shared m (c.monoliths m)).map inboxRank +
          ((sent.filterMap (fun e => if e.1 = m.val then some e.2 else none)).map inboxRank :
            List Rank) := by
      rw [Multiset.coe_add, ← List.map_append]
      exact Multiset.coe_le.mpr (hinbox.map inboxRank).subperm
    calc share s' m (c.monoliths m)
        ≤ ((c.monoliths m).channel.map frameRank : Multiset Rank) + (_ + _) +
          (c.monoliths m).chores.map choreRank :=
          add_le_add_left (add_le_add_right hranks _) _
      _ = share c.pool.shared m (c.monoliths m) + _ := by
          rw [share]
          abel
  · rw [Finset.sum_add_distrib]
    exact add_le_add_right (sum_sent_le sent) _

theorem replaces_segment {i : Nat} {x : Answer} {pool : Pool State Task TaskEnd} (dispatching : Bool)
    (hstep : balancer.machine.step c.pool (.answer i x) = some pool) :
    Replaces c.toDo { c with pool := pool, dispatching := dispatching }.toDo := by
  rcases Program.step_cases hstep with ⟨k, hk, -⟩ | ⟨j, y, task, s', progress, hj, ht, hres, rfl⟩ |
    ⟨ev, -, -, -, -⟩
  · cases hk
  · cases hj
    obtain ⟨hgoesOn, sent, hsent, hsends⟩ := segment_spends hres
    obtain ⟨hi, htask⟩ := List.getElem?_eq_some_iff.mp ht
    have hbefore : (c.pool.tasks.flatMap progressRanks : Multiset Rank) =
        taskRank task ::ₘ ((c.pool.tasks.eraseIdx i).flatMap progressRanks : List Rank) := by
      have hperm := (List.getElem_cons_eraseIdx_perm hi).symm.flatMap_right progressRanks
      rw [htask] at hperm
      exact Multiset.coe_eq_coe.mpr hperm
    have hafter : ((c.pool.tasks.set i progress).flatMap progressRanks : Multiset Rank) =
        progressRanks progress + ((c.pool.tasks.eraseIdx i).flatMap progressRanks : List Rank) := by
      rw [Multiset.coe_add]
      exact Multiset.coe_eq_coe.mpr ((List.set_perm_cons_eraseIdx hi progress).flatMap_right _)
    refine ⟨taskRank task, progressRanks progress + (sent.map (fun e => inboxRank e.2) : List Rank),
      _, by rw [toDo, hbefore, Multiset.cons_add], ?_, fun b hb => ?_⟩
    · show ((c.pool.tasks.set i progress).flatMap progressRanks : Multiset Rank) +
        ∑ m : Fin n, share s' m (c.monoliths m) ≤ _
      rw [hafter, add_add_add_comm]
      exact add_le_add_right (shares_segment_le hsent) _
    · rcases Multiset.mem_add.mp hb with hb | hb
      · exact hgoesOn b hb
      · obtain ⟨e, he, rfl⟩ := List.mem_map.mp (Multiset.mem_coe.mp hb)
        exact hsends e he
  · exact ev.elim

/-- **Every internal step** replaces something that is left to do. -/
theorem replaces_step {e : Event n} (hinternal : e.Internal = true)
    (hstep : (cluster toLowerCase n).step c e = some c') : Replaces c.toDo c'.toDo := by
  change Cluster.step toLowerCase c e = some c' at hstep
  cases e with
  | dispatch m =>
    simp only [Cluster.step] at hstep
    split at hstep
    · split at hstep
      · next hchannel =>
        cases hstep
        exact replaces_dispatch hchannel
      · cases hstep
    · cases hstep
  | segment i x =>
    obtain ⟨pool, hpool, rfl⟩ := Option.map_eq_some_iff.mp hstep
    exact replaces_segment _ hpool
  | receive m leaving chat =>
    obtain ⟨msg, hmsg, rfl⟩ := Option.map_eq_some_iff.mp hstep
    have hchat : low 3 ≤ inboxRank msg := by
      cases msg <;> exact (low_lt_low.mpr (by decide)).le
    exact replaces_setMonolith
      (((adds_receive leaving msg).trans (adds_chat hchat chat)).replaces (share_received hmsg))
  | settle m i x report leaving chat =>
    obtain ⟨mono, hmono, rfl⟩ := Option.map_eq_some_iff.mp hstep
    obtain ⟨chore, hchore, hadds⟩ := settle_adds (s := c.pool.shared) (m := m) hmono
    have hchat : low 3 ≤ choreRank chore := by
      cases chore with
      | joining task | managing task =>
        have hrank := managerRank_ge task
        exact (low_lt_low.mpr (by omega)).le
      | auth room => exact (low_lt_low.mpr (by decide)).le
      | request => exact le_rfl
    exact replaces_setMonolith ((hadds.trans (adds_chat hchat chat)).replaces (share_settled hchore))
  | _ => cases hinternal

/-! ## Rest -/

/-- A suspended task can always go on. -/
theorem resume_possible (task : Task) (s : State) : ∃ x, (resume task x s).isSome = true := by
  cases task with
  | joinReserve c =>
    cases hroom : s.ctx.roomsToMonoliths.get? c.room with
    | some l =>
      refine ⟨.lockSelecting none, ?_⟩
      simp only [resume, joinReserve, hroom]
      split
      · rfl
      · split <;> rfl
    | none =>
      cases hfilter : s.ctx.filterMonoliths with
      | nil =>
        refine ⟨.lockSelecting none, ?_⟩
        have hselectable : Selectable s.ctx none = true := by simp [Selectable, hfilter]
        simp [resume, joinReserve, hroom, hselectable]
      | cons mono rest =>
        refine ⟨.lockSelecting (some mono.id), ?_⟩
        have hselectable : Selectable s.ctx (some mono.id) = true := by simp [Selectable, hfilter]
        simp only [resume, joinReserve, hroom, hselectable, if_true]
        split
        · rfl
        · split <;> rfl
  | joinRegister c m =>
    refine ⟨.lockHandOver true, ?_⟩
    simp only [resume, joinRegister]
    split <;> rfl
  | leaveRemove id =>
    refine ⟨.lock, ?_⟩
    simp only [resume, leaveRemove]
    split
    · rfl
    · split
      · rfl
      · split <;> rfl
  | joinMonolith m => exact ⟨.lockHandOver true, rfl⟩
  | joinSend _ _ _ | leaveSend _ _ | roomMsgSend _ | kickSend _ => exact ⟨.sent .ok, rfl⟩
  | loadedSend _ _ conflict | gossipSend _ _ conflict _ _ => cases conflict <;> exact ⟨.sent .ok, rfl⟩
  | joinAbandon _ _ _ _ | leaveAbandon _ | leaveMonolith _ | gossipDrop _ _ _ _
  | gossipRemove _ _ _ => exact ⟨.lock, rfl⟩
  | loaded _ _ _ | unloaded _ _ | gossipSync _ _ _ _ | kick _ =>
    refine ⟨.lock, ?_⟩
    simp only [resume, loaded, unloaded, gossipSync, kick]
    split <;> rfl
  | gossip m rooms =>
    cases hm : s.ctx.monoliths.get? m with
    | none => exact ⟨.lockListing [], by simp [resume, Balancer.gossip, hm]⟩
    | some mono =>
      refine ⟨.lockListing (unlisted mono rooms), ?_⟩
      have hperm : (unlisted mono rooms).isPerm (unlisted mono rooms) = true :=
        List.isPerm_iff.mpr (List.Perm.refl _)
      simp [resume, Balancer.gossip, hm, hperm]
  | roomMsg m room client =>
    refine ⟨.lockHandOver true, ?_⟩
    cases client with
    | some client =>
      simp only [resume, roomMsg]
      split <;> rfl
    | none =>
      simp only [resume, roomMsg]
      split
      · rfl
      · split <;> rfl

/-- So can a monolith, whatever it waits for: anything that is awaited may fail. -/
theorem settle_possible (toLowerCase : String → String) {mono : Monolith} {chore : Chore}
    {chores : List Chore} (h : mono.chores = chore :: chores) (report : LoadReport) :
    (mono.settle toLowerCase 0 .rejected report 0).isSome = true := by
  have hrejected : ∀ task : Server.RoomManager.Task,
      (Server.RoomManager.resume toLowerCase task .rejected mono.manager).isSome = true := by
    intro task
    cases task with
    | unload task =>
      unfold Server.RoomManager.resume Server.RoomManager.unloader
      cases task <;> rfl
    | _ => rfl
  unfold Monolith.settle
  rw [h]
  cases chore with
  | auth room | request => rfl
  | joining task | managing task =>
    dsimp only [List.getElem?_cons_zero]
    rw [Option.isSome_map]
    exact hrejected task

/-- The cluster is at rest where nothing is left to do, and only there. -/
theorem atRest_iff_quiet (c : Cluster n) :
    (cluster toLowerCase n).AtRest (fun e => e.Internal = true) c ↔ Quiet c := by
  constructor
  · intro h
    have htasks : c.pool.suspended = [] := by
      by_contra hne
      obtain ⟨task, rest, hcons⟩ := List.exists_cons_of_ne_nil hne
      obtain ⟨i, hi⟩ := List.mem_iff_getElem?.mp
        (Pool.mem_suspended.mp (hcons ▸ List.mem_cons_self : task ∈ c.pool.suspended))
      obtain ⟨x, hx⟩ := resume_possible task c.pool.shared
      obtain ⟨out, hout⟩ := Option.isSome_iff_exists.mp hx
      have hstep : balancer.machine.step c.pool (.answer i x) =
          some ⟨out.1, c.pool.tasks.set i out.2⟩ := by
        show balancer.poolStep c.pool (.answer i x) = _
        simp only [Program.poolStep, hi]
        show (resume task x c.pool.shared).map _ = _
        rw [hout]
        rfl
      have hnone : (balancer.machine.step c.pool (.answer i x)).map _ = none := h (.segment i x) rfl
      rw [hstep] at hnone
      cases hnone
    refine ⟨htasks, fun m => ?_, fun m => ?_, fun hdispatching m => ?_⟩
    · cases hchores : (c.monoliths m).chores with
      | nil => rfl
      | cons chore rest =>
        obtain ⟨mono, hmono⟩ := Option.isSome_iff_exists.mp
          (settle_possible toLowerCase hchores .gone)
        have hnone := h (.settle m 0 .rejected .gone 0 []) rfl
        simp only [cluster, Cluster.step, hmono] at hnone
        cases hnone
    · cases hinbox : inbox c.pool.shared m (c.monoliths m) with
      | nil => rfl
      | cons msg rest =>
        have hnone := h (.receive m 0 []) rfl
        simp only [cluster, Cluster.step, hinbox] at hnone
        cases hnone
    · have hfree : c.free = true := by
        rw [free, hdispatching, htasks]
        rfl
      cases hchannel : (c.monoliths m).channel with
      | nil => rfl
      | cons frame rest =>
        have hnone := h (.dispatch m) rfl
        simp only [cluster, Cluster.step, hfree, hchannel] at hnone
        cases hnone
  · intro h e hinternal
    cases e with
    | dispatch m =>
      simp only [cluster, Cluster.step]
      split
      · next hfree =>
        rw [h.channel (Bool.and_eq_true_iff.mp hfree).1 m]
      · rfl
    | segment i x =>
      refine Option.map_eq_none_iff.mpr ?_
      show balancer.poolStep c.pool (.answer i x) = none
      unfold Program.poolStep
      dsimp only
      split
      · next task ht =>
        have hmem := Pool.mem_suspended.mpr (Program.mem_of_getElem? ht)
        rw [h.tasks] at hmem
        cases hmem
      · rfl
    | receive m leaving chat =>
      simp only [cluster, Cluster.step, h.inbox m, List.head?_nil, Option.map_none]
    | settle m i x report leaving chat =>
      simp only [cluster, Cluster.step, Monolith.settle, h.chores m, List.getElem?_nil,
        Option.map_none]
    | _ => cases hinternal

theorem wellFounded_internal (toLowerCase : String → String) (n : Nat) :
    WellFounded ((cluster toLowerCase n).OwnStep (fun e => e.Internal = true)) :=
  Machine.wellFounded_ownStep toDo (fun _ _ _ hinternal hstep => replaces_step hinternal hstep)

/-- **Left alone, the cluster comes to rest**: there is no end to its internal steps only if clients
or monoliths do something. Wherever they end, everything has been handled that there is somebody to
handle. -/
theorem comes_to_rest (toLowerCase : String → String) (n : Nat) :
    WellFounded ((cluster toLowerCase n).OwnStep (fun e => e.Internal = true)) ∧
      (∀ c, (cluster toLowerCase n).AtRest (fun e => e.Internal = true) c ↔ Quiet c) ∧
      ∀ c, ∃ es c', (∀ e ∈ es, e.Internal = true) ∧ (cluster toLowerCase n).run c es = some c' ∧
        Quiet c' := by
  refine ⟨wellFounded_internal toLowerCase n, atRest_iff_quiet, fun c => ?_⟩
  obtain ⟨es, c', hes, hrun, hrest⟩ := Machine.exists_run_to_rest (wellFounded_internal toLowerCase n) c
  exact ⟨es, c', hes, hrun, (atRest_iff_quiet c').mp hrest⟩

end OpenTogetherTube.Balancer.Cluster
