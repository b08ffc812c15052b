import OpenTogetherTube.Balancer.Tasks

/-!
# What a segment makes of the context

Most of the points at which a task can be suspended only send something or look something up. What
the other segments make of the context is `contextAfter`, whatever the task goes on with; a statement
that is about the context alone need not look at the tasks any closer.
-/

namespace OpenTogetherTube.Balancer

open OpenTogetherTube.Lib

namespace BalancerContext

/-- The room is created on the selected monolith, unless it is mapped already. -/
def reserveRoom (ctx : BalancerContext) (room : RoomName) (selected : Option MonolithId) :
    BalancerContext :=
  match ctx.roomsToMonoliths.get? room, selected with
  | none, some m => (ctx.addRoom room ⟨m, u32Max⟩).1
  | _, _ => ctx

/-- The client is registered with a monolith that is there. -/
def registerClient (ctx : BalancerContext) (c : NewClient) (m : MonolithId) : BalancerContext :=
  match ctx.monoliths.get? m with
  | none => ctx
  | some mono => { ctx with
      monoliths := ctx.monoliths.set m (mono.addClient c.room c.id)
      clients := ctx.clients.set c.id (BalancerClient.new c) }

/-- The client is no longer registered, and the monolith of its room no longer lists it. -/
def deregisterClient (ctx : BalancerContext) (id : ClientId) : BalancerContext :=
  match ctx.clients.get? id with
  | none => ctx
  | some removed =>
    let ctx := { ctx with clients := ctx.clients.erase id }
    match ctx.roomsToMonoliths.get? removed.room with
    | none => ctx
    | some locator =>
      match ctx.monoliths.get? locator.monolithId with
      | none => ctx
      | some m => { ctx with
          monoliths := ctx.monoliths.set locator.monolithId (m.removeClient id) }

/-- What the next segment of a task makes of the context. -/
def contextAfter (ctx : BalancerContext) : Task → Answer → BalancerContext
  | .joinReserve c, .lockSelecting selected => ctx.reserveRoom c.room selected
  | .joinRegister c m, _ => ctx.registerClient c m
  | .joinAbandon c m shouldCreateRoom badMonolith, _ =>
    let ctx := if shouldCreateRoom then (ctx.removeRoom c.room m).1 else ctx
    if badMonolith then ctx.removeMonolith m else ctx
  | .leaveRemove id, _ => ctx.deregisterClient id
  | .leaveAbandon m, _ | .leaveMonolith m, _ => ctx.removeMonolith m
  | .joinMonolith m, .lockHandOver true => ctx.addMonolith (BalancerMonolith.new m)
  | .loaded m room loadEpoch, _ => (ctx.syncRoom room m loadEpoch).1
  | .gossipSync m room _ _, _ => (ctx.syncRoom room.room m room.loadEpoch).1
  | .unloaded m room, _ | .gossipDrop m room _ _, _ | .gossipRemove m room _, _ =>
    (ctx.removeRoom room m).1
  | _, _ => ctx

end BalancerContext

open BalancerContext

variable {s s' : State} {progress : Progress Task TaskEnd}

theorem joinReserve_ctx {c : NewClient} {selected : Option MonolithId}
    (h : joinReserve s c selected = some (s', progress)) :
    s'.ctx = s.ctx.reserveRoom c.room selected := by
  unfold joinReserve at h
  unfold reserveRoom
  cases hroom : s.ctx.roomsToMonoliths.get? c.room with
  | some locator =>
    simp only [hroom] at h
    split at h
    · cases h; rfl
    · split at h <;> cases h <;> rfl
  | none =>
    simp only [hroom] at h
    split at h
    · cases selected with
      | none => cases h; rfl
      | some m =>
        dsimp only at h ⊢
        split at h
        · next heq => rw [heq]; cases h; rfl
        · next heq =>
          rw [heq]
          split at h <;> cases h <;> rfl
    · cases h

theorem joinRegister_ctx {c : NewClient} {m : MonolithId} {receiverOpen : Bool}
    (h : joinRegister s c m receiverOpen = some (s', progress)) :
    s'.ctx = s.ctx.registerClient c m := by
  unfold joinRegister at h
  unfold registerClient
  cases hm : s.ctx.monoliths.get? m with
  | none => simp only [hm] at h; cases h; rfl
  | some mono => simp only [hm] at h; cases h; rfl

theorem leaveRemove_ctx {c : ClientId} (h : leaveRemove s c = some (s', progress)) :
    s'.ctx = s.ctx.deregisterClient c := by
  unfold leaveRemove at h
  unfold deregisterClient
  cases hc : s.ctx.clients.get? c with
  | none => simp only [hc] at h; cases h; rfl
  | some removed =>
    simp only [hc] at h
    dsimp only
    cases hroom : s.ctx.roomsToMonoliths.get? removed.room with
    | none => simp only [hroom] at h; cases h; rfl
    | some locator =>
      simp only [hroom] at h
      dsimp only
      cases hm : s.ctx.monoliths.get? locator.monolithId with
      | none => simp only [hm] at h; cases h; rfl
      | some mono => simp only [hm] at h; cases h; rfl

/-- Telling a monolith to unload a room does not touch the context. -/
theorem unloadSend_ctx (s : State) (room : RoomName) (conflict : ConflictAction) (r : SendResult) :
    (unloadSend s room conflict r).1.ctx = s.ctx := by
  cases conflict <;> cases r <;> rfl

/-- **What a segment makes of the context.** -/
theorem segment_ctx {task : Task} {x : Answer} (h : resume task x s = some (s', progress)) :
    s'.ctx = s.ctx.contextAfter task x := by
  unfold resume at h
  split at h
  case h_1 c selected => exact joinReserve_ctx h
  case h_2 c m shouldCreateRoom result =>
    cases result with
    | serde => cases shouldCreateRoom <;> cases h <;> rfl
    | ok => cases h; rfl
    | timeout => cases h; rfl
  case h_3 c m receiverOpen => exact joinRegister_ctx h
  case h_4 c m shouldCreateRoom badMonolith => cases h; rfl
  case h_5 c => exact leaveRemove_ctx h
  case h_6 c m result => cases result <;> cases h <;> rfl
  case h_7 m => cases h; rfl
  case h_8 m receiverOpen => cases receiverOpen <;> cases h <;> rfl
  case h_9 m => cases h; rfl
  case h_10 m room loadEpoch =>
    show _ = (s.ctx.syncRoom room m loadEpoch).1
    unfold loaded at h
    split at h <;> next heq => rw [heq]; cases h; rfl
  case h_11 m room conflict result =>
    have hctx := unloadSend_ctx s room conflict result
    unfold loadedSend at h
    split at h <;> next heq => rw [heq] at hctx; cases h; exact hctx
  case h_12 m room =>
    show _ = (s.ctx.removeRoom room m).1
    unfold unloaded at h
    split at h <;> next heq => rw [heq]; cases h; rfl
  case h_13 m rooms toRemove =>
    unfold gossip at h
    split at h
    · cases h; rfl
    · split at h <;> cases h
      rfl
  case h_14 m room rooms toRemove =>
    show _ = (s.ctx.syncRoom room.room m room.loadEpoch).1
    unfold gossipSync at h
    split at h <;> next heq => rw [heq]; cases h; rfl
  case h_15 m room conflict rooms toRemove result =>
    have hctx := unloadSend_ctx s room conflict result
    unfold gossipSend at h
    split at h <;> next heq => rw [heq] at hctx; cases h; exact hctx
  case h_16 m room rooms toRemove => cases h; rfl
  case h_17 m room toRemove => cases h; rfl
  case h_18 m room client receiverOpen =>
    show _ = s.ctx
    cases client with
    | some client =>
      simp only [roomMsg] at h
      split at h <;> cases h <;> rfl
    | none =>
      simp only [roomMsg] at h
      split at h
      · cases h; rfl
      · split at h <;> cases h <;> rfl
  case h_19 client result => cases result <;> cases h <;> rfl
  case h_20 client =>
    simp only [kick] at h
    split at h <;> cases h <;> rfl
  case h_21 client result => cases result <;> cases h <;> rfl
  case h_22 => cases h

end OpenTogetherTube.Balancer
