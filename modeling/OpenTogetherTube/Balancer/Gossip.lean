import OpenTogetherTube.Balancer.Network

/-!
# Stale gossip

`not_kept_throughout` is a run in which a gossip removes the room of a client that has just joined.
`kept_throughout` says that no client loses its room while the steps are timely. The invariant is
that what the gossips are about to remove has no client their monoliths did not know of; it rests on
the ids of clients being used once, and on `segment_effect`, which says of every segment what it
does to clients, rooms and messages.
-/

namespace OpenTogetherTube.Balancer.Gossip

open OpenTogetherTube.Lib BalancerContext

/-! ## Segments -/

/-- The id of the client that a task of `join_client` is for. -/
def joinId : Task → Option ClientId
  | .joinReserve c => some c.id
  | .joinSend c _ _ => some c.id
  | .joinRegister c _ => some c.id
  | _ => none

/-- What a segment may newly commit itself to remove. -/
def NewRemoval (ctx : BalancerContext) (r : RoomName) : Task → Prop
  | .gossip m rooms => ∃ mono, ctx.monoliths.get? m = some mono ∧ r ∈ unlisted mono rooms
  | .gossipSync m room _ _ => r = room.room.name ∧ Refused ctx room.room.name m room.loadEpoch
  | _ => False

/-- **What a segment does** to the clients of rooms and to what is to be removed. -/
structure Effect (task : Task) (x : Answer) (s : State) (out : State × Progress Task TaskEnd) :
    Prop where
  /-- A client is only registered by the task that joins it. -/
  clients : ∀ c client, out.1.ctx.clients.get? c = some client →
    s.ctx.clients.get? c = some client ∨
      ∃ nc m, task = .joinRegister nc m ∧ c = nc.id ∧ client.room = nc.room
  /-- What is sent is appended, and a `B2MJoin` only by the task that joins the client. -/
  outbox : ∃ sent, out.1.outbox = s.outbox ++ sent ∧ ∀ m r c token, (m, .join r c token) ∈ sent →
    ∃ nc b, task = .joinSend nc m b ∧ r = nc.room ∧ c = nc.id ∧ out.2 = .waiting (.joinRegister nc m)
  /-- A task joins a client only if it did so before. -/
  joinId : ∀ t, out.2 = .waiting t → ∀ c, Gossip.joinId t = some c → Gossip.joinId task = some c
  /-- A client gets its monolith by `joinReserve`, and keeps it. -/
  joining : ∀ t, out.2 = .waiting t → ∀ place, Gossip.joining t = some place →
    Gossip.joining task = some place ∨
      ∃ c m, task = .joinReserve c ∧ reserves s.ctx c.room x = some m ∧ place = (m, c.room, c.id)
  /-- The message is sent exactly when a task gets to `joinRegister`. -/
  unsent : ∀ c, (out.2 = .waiting (.joinReserve c) ∨ ∃ m b, out.2 = .waiting (.joinSend c m b)) →
    task = .joinReserve c
  sent : ∀ c m, out.2 = .waiting (.joinRegister c m) → ∃ b, task = .joinSend c m b
  /-- A gossip's task is about the same monolith, and removes only what it had found. -/
  gossip : ∀ t, out.2 = .waiting t → ∀ m, ofGossip t = some m → ofGossip task = some m ∧
    ∀ r ∈ removing t, r ∈ removing task ∨ NewRemoval s.ctx r task
  keeps : ∀ m, ofGossip task = some m → ∀ r, r ∉ removing task → Keeps m r s.ctx out.1.ctx

variable {s s' : State} {ctx : BalancerContext} {progress : Progress Task TaskEnd} {x : Answer}

/-- A task that joins nobody and is not a gossip's. -/
def Plain (task : Task) : Prop := joinId task = none ∧ joining task = none ∧ ofGossip task = none

/-- A segment after which its task is over or a plain one, and that sends no `B2MJoin` and registers
nobody. -/
theorem Effect.of_plain {task : Task} (htask : ofGossip task = none)
    (hclients : ∀ c client, s'.ctx.clients.get? c = some client →
      s.ctx.clients.get? c = some client)
    (houtbox : ∃ sent, s'.outbox = s.outbox ++ sent ∧
      ∀ m r c token, (m, MsgB2M.join r c token) ∉ sent)
    (hnext : ∀ t, progress = .waiting t → Plain t) : Effect task x s (s', progress) where
  clients c client h := .inl (hclients c client h)
  outbox := by
    obtain ⟨sent, heq, hno⟩ := houtbox
    exact ⟨sent, heq, fun m r c token h => absurd h (hno m r c token)⟩
  joinId t ht c hc := by
    rw [(hnext t ht).1] at hc
    cases hc
  joining t ht place hp := by
    rw [(hnext t ht).2.1] at hp
    cases hp
  unsent c h := by
    rcases h with ht | ⟨m, b, ht⟩ <;> cases (hnext _ ht).1
  sent c m ht := by cases (hnext _ ht).1
  gossip t ht m hm := by
    rw [(hnext t ht).2.2] at hm
    cases hm
  keeps m hm := by
    rw [htask] at hm
    cases hm

/-- Nothing is sent. -/
theorem sends_nothing (s : State) : ∃ sent, s.outbox = s.outbox ++ sent ∧
    ∀ m r c token, (m, MsgB2M.join r c token) ∉ sent :=
  ⟨[], (List.append_nil _).symm, fun _ _ _ _ => List.not_mem_nil⟩

/-- A segment that ends its task. -/
theorem Effect.of_done {task : Task} {result : TaskEnd} (htask : ofGossip task = none)
    (hclients : ∀ c client, s'.ctx.clients.get? c = some client →
      s.ctx.clients.get? c = some client)
    (houtbox : ∃ sent, s'.outbox = s.outbox ++ sent ∧
      ∀ m r c token, (m, MsgB2M.join r c token) ∉ sent) :
    Effect task x s (s', .done result) :=
  .of_plain htask hclients houtbox (fun _ ht => by cases ht)

theorem Keeps.refl (m : MonolithId) (r : RoomName) (ctx : BalancerContext) : Keeps m r ctx ctx :=
  ⟨id, id⟩

theorem Keeps.of_same {m : MonolithId} {r : RoomName} {ctx' : BalancerContext}
    (h : SameRoom r ctx ctx') : Keeps m r ctx ctx' :=
  ⟨(h.holds m).mpr, fun hsome => h.locator ▸ hsome⟩

/-- A report takes no room off its own monolith, and unmaps none. -/
theorem keeps_syncRoom (ctx : BalancerContext) (m : MonolithId) (room : RoomMetadata)
    (loadEpoch : LoadEpoch) (r : RoomName) : Keeps m r ctx (ctx.syncRoom room m loadEpoch).1 := by
  by_cases hroom : r = room.name
  · subst hroom
    have hplaced : ∀ {ctx : BalancerContext} {conflict},
        ((ctx.placeRoom room m loadEpoch conflict).1.roomsToMonoliths.get? room.name).isSome := by
      intro ctx conflict
      rw [placeRoom_locator, if_pos rfl]
      rfl
    obtain ⟨-, h⟩ | ⟨locator, -, hne, ⟨-, -, h⟩ | ⟨-, -, h⟩ | ⟨-, e, h⟩⟩ :=
      syncRoom_cases ctx m room loadEpoch
    · rw [h]
      exact ⟨fun hm => (placeRoom_holds room loadEpoch none room.name m).mpr (.inr hm),
        fun _ => hplaced⟩
    · rw [h]
      exact .refl m room.name ctx
    · rw [h]
      refine ⟨fun hm => (placeRoom_holds room loadEpoch _ room.name m).mpr (.inr ?_),
        fun _ => hplaced⟩
      exact (removeRoom_holds ctx room.name locator.monolithId m).mpr ⟨Ne.symm hne, hm⟩
    · rw [h]
      exact .refl m room.name ctx
  · exact .of_same (syncRoom_other room loadEpoch hroom)

/-- A report that fails or is rejected is one that was refused. -/
theorem refused_of_syncRoom (ctx : BalancerContext) (m : MonolithId) (room : RoomMetadata)
    (loadEpoch : LoadEpoch)
    (h : (∃ e, (ctx.syncRoom room m loadEpoch).2 = .error e) ∨
      ∃ handle, (ctx.syncRoom room m loadEpoch).2 = .ok (some (.reject handle))) :
    Refused ctx room.name m loadEpoch := by
  have hplace : ∀ {ctx' : BalancerContext} {conflict}, (∀ handle, conflict ≠ some (.reject handle)) →
      (ctx'.Connected m ↔ ctx.Connected m) →
      ctx.syncRoom room m loadEpoch = ctx'.placeRoom room m loadEpoch conflict →
      ¬ ctx.Connected m := by
    intro ctx' conflict hconflict hconnected heq
    rw [heq] at h
    obtain ⟨-, hok⟩ | ⟨hgone, -⟩ := placeRoom_result ctx' m room loadEpoch conflict
    · rw [hok] at h
      obtain ⟨e, he⟩ | ⟨handle, hh⟩ := h
      · cases he
      · exact absurd (Except.ok.inj hh) (hconflict handle)
    · exact fun hm => hgone (hconnected.mpr hm)
  obtain ⟨-, heq⟩ | ⟨locator, hl, hne, ⟨hlt, -, -⟩ | ⟨-, -, heq⟩ | ⟨hstuck, -⟩⟩ :=
    syncRoom_cases ctx m room loadEpoch
  · exact .inl (hplace (fun _ => by simp) Iff.rfl heq)
  · exact .inr ⟨locator, hl, hne, .inl hlt.le⟩
  · exact .inl (hplace (fun _ => by simp)
      (removeRoom_connected ctx room.name locator.monolithId m) heq)
  · obtain hsame | ⟨-, hgone⟩ | ⟨-, hgone⟩ := hstuck
    · exact .inr ⟨locator, hl, hne, .inl hsame.le⟩
    · exact .inl hgone
    · exact .inr ⟨locator, hl, hne, .inr hgone⟩

/-! ### What leaves the clients alone -/

theorem removeRoom_clients (ctx : BalancerContext) (room : RoomName) (m : MonolithId) :
    (ctx.removeRoom room m).1.clients = ctx.clients := by
  unfold removeRoom
  split <;> rfl

theorem placeRoom_clients (ctx : BalancerContext) (room : RoomMetadata) (m : MonolithId)
    (loadEpoch : LoadEpoch) (conflict : Option ConflictAction) :
    (ctx.placeRoom room m loadEpoch conflict).1.clients = ctx.clients := by
  unfold placeRoom
  dsimp only
  split
  · rfl
  · split <;> rfl

theorem syncRoom_clients (ctx : BalancerContext) (room : RoomMetadata) (m : MonolithId)
    (loadEpoch : LoadEpoch) :
    (ctx.syncRoom room m loadEpoch).1.clients = ctx.clients := by
  obtain ⟨-, h⟩ | ⟨locator, -, -, ⟨-, -, h⟩ | ⟨-, -, h⟩ | ⟨-, e, h⟩⟩ :=
    syncRoom_cases ctx m room loadEpoch
  · rw [h, placeRoom_clients]
  · rw [h]
  · rw [h, placeRoom_clients, removeRoom_clients]
  · rw [h]

theorem addRoom_clients (ctx : BalancerContext) (room : RoomName) (locator : RoomLocator) :
    (ctx.addRoom room locator).1.clients = ctx.clients := by
  unfold addRoom
  split
  · rfl
  · dsimp only
    split <;> rfl

/-- Removing a monolith drops clients, and registers none. -/
theorem get?_removeMonolith_clients {m : MonolithId} {c : ClientId} {client : BalancerClient}
    (h : (ctx.removeMonolith m).clients.get? c = some client) :
    ctx.clients.get? c = some client := by
  unfold removeMonolith at h
  exact (OrderedMap.get?_retain_eq_some.mp h).1

/-- Telling a monolith to unload is not a `B2MJoin`. -/
theorem unloadSend_outbox (s : State) (room : RoomName) (conflict : ConflictAction)
    (result : SendResult) : ∃ sent, (unloadSend s room conflict result).1.outbox = s.outbox ++ sent ∧
      ∀ m r c token, (m, MsgB2M.join r c token) ∉ sent := by
  have hpost : ∀ handle, ∃ sent, (s.post handle (.unload room)).outbox = s.outbox ++ sent ∧
      ∀ m r c token, (m, MsgB2M.join r c token) ∉ sent :=
    fun handle => ⟨[(handle, .unload room)], rfl, fun _ _ _ _ h => by simp at h⟩
  cases conflict with
  | reject handle =>
    cases result with
    | ok => exact hpost handle
    | _ => exact sends_nothing s
  | replace handle =>
    cases result with
    | ok => exact hpost handle
    | _ => exact sends_nothing s

/-! ### The segments of a gossip -/

/-- The tasks of a gossip join nobody. -/
theorem not_join_of_gossip {task : Task} {m : MonolithId} (h : ofGossip task = some m) :
    joinId task = none ∧ joining task = none := by
  cases task <;> first
    | exact ⟨rfl, rfl⟩
    | cases h

theorem gossipNext_waiting {m : MonolithId} {rooms : List GossipRoom} {toRemove : List RoomName}
    {t : Task} (h : gossipNext m rooms toRemove = .waiting t) :
    ofGossip t = some m ∧ removing t = toRemove := by
  cases rooms with
  | cons room rooms =>
    cases h
    exact ⟨rfl, rfl⟩
  | nil =>
    cases toRemove with
    | nil => cases h
    | cons room toRemove =>
      cases h
      exact ⟨rfl, rfl⟩

/-- A segment of a gossip that goes on as a gossip of the same monolith. -/
theorem Effect.of_gossip {task : Task} {m : MonolithId} (htask : ofGossip task = some m)
    (hclients : s'.ctx.clients = s.ctx.clients)
    (houtbox : ∃ sent, s'.outbox = s.outbox ++ sent ∧
      ∀ m r c token, (m, MsgB2M.join r c token) ∉ sent)
    (hnext : ∀ t, progress = .waiting t → ofGossip t = some m ∧
      ∀ r ∈ removing t, r ∈ removing task ∨ NewRemoval s.ctx r task)
    (hkeeps : ∀ r, r ∉ removing task → Keeps m r s.ctx s'.ctx) :
    Effect task x s (s', progress) where
  clients c client h := .inl (hclients ▸ h)
  outbox := by
    obtain ⟨sent, heq, hno⟩ := houtbox
    exact ⟨sent, heq, fun m r c token h => absurd h (hno m r c token)⟩
  joinId t ht c hc := by
    rw [(not_join_of_gossip (hnext t ht).1).1] at hc
    cases hc
  joining t ht place hp := by
    rw [(not_join_of_gossip (hnext t ht).1).2] at hp
    cases hp
  unsent c h := by
    rcases h with ht | ⟨m', b, ht⟩ <;> cases (hnext _ ht).1
  sent c m' ht := by cases (hnext _ ht).1
  gossip t ht m' hm' := by
    obtain ⟨hm, hremoving⟩ := hnext t ht
    rw [hm, Option.some.injEq] at hm'
    exact ⟨hm' ▸ htask, hremoving⟩
  keeps m' hm' r hr := by
    rw [htask, Option.some.injEq] at hm'
    exact hm' ▸ hkeeps r hr

theorem gossip_effect {m : MonolithId} {rooms : List GossipRoom} {toRemove : List RoomName}
    (hres : Balancer.gossip s m rooms toRemove = some (s', progress)) :
    Effect (.gossip m rooms) x s (s', progress) := by
  unfold Balancer.gossip at hres
  split at hres
  · cases hres
    exact .of_gossip rfl rfl (sends_nothing s) (fun _ ht => by cases ht) (fun r _ => .refl m r _)
  · next mono hmono =>
    split at hres
    · next hperm =>
      cases hres
      refine .of_gossip rfl rfl (sends_nothing s) (fun t ht => ?_) (fun r _ => .refl m r _)
      obtain ⟨hm, hremoving⟩ := gossipNext_waiting ht
      refine ⟨hm, fun r hr => .inr ⟨mono, hmono, ?_⟩⟩
      exact (List.isPerm_iff.mp hperm).mem_iff.mp (hremoving ▸ hr)
    · cases hres

theorem gossipSync_effect {m : MonolithId} {room : GossipRoom} {rooms : List GossipRoom}
    {toRemove : List RoomName}
    (hres : gossipSync s m room rooms toRemove = some (s', progress)) :
    Effect (.gossipSync m room rooms toRemove) x s (s', progress) := by
  have hclients := syncRoom_clients s.ctx room.room m room.loadEpoch
  have hkeeps := keeps_syncRoom s.ctx m room.room room.loadEpoch
  have hrefused := refused_of_syncRoom s.ctx m room.room room.loadEpoch
  unfold gossipSync at hres
  split at hres
  · next ctx e heq =>
    rw [heq] at hclients hkeeps hrefused
    cases hres
    refine .of_gossip rfl hclients (sends_nothing s) (fun t ht => ?_) (fun r _ => hkeeps r)
    cases ht
    refine ⟨rfl, fun r hr => ?_⟩
    rcases List.mem_cons.mp hr with rfl | hr
    · exact .inr ⟨rfl, hrefused (.inl ⟨e, rfl⟩)⟩
    · exact .inl hr
  · next ctx heq =>
    rw [heq] at hclients hkeeps
    cases hres
    refine .of_gossip rfl hclients (sends_nothing s) (fun t ht => ?_) (fun r _ => hkeeps r)
    obtain ⟨hm, hremoving⟩ := gossipNext_waiting ht
    exact ⟨hm, fun r hr => .inl (hremoving ▸ hr)⟩
  · next ctx conflict heq =>
    rw [heq] at hclients hkeeps hrefused
    cases hres
    refine .of_gossip rfl hclients (sends_nothing s) (fun t ht => ?_) (fun r _ => hkeeps r)
    cases ht
    refine ⟨rfl, fun r hr => ?_⟩
    cases conflict with
    | reject handle =>
      rcases List.mem_cons.mp hr with rfl | hr
      · exact .inr ⟨rfl, hrefused (.inr ⟨handle, rfl⟩)⟩
      · exact .inl hr
    | replace handle => exact .inl hr

theorem gossipSend_effect {m : MonolithId} {room : RoomName} {conflict : ConflictAction}
    {rooms : List GossipRoom} {toRemove : List RoomName} {result : SendResult}
    (hres : gossipSend s m room conflict rooms toRemove result = some (s', progress)) :
    Effect (.gossipSend m room conflict rooms toRemove) x s (s', progress) := by
  have hctx := unloadSend_ctx s room conflict result
  have houtbox := unloadSend_outbox s room conflict result
  unfold gossipSend at hres
  split at hres
  · next t e heq =>
    rw [heq] at hctx houtbox
    cases hres
    dsimp only at hctx houtbox
    refine .of_gossip rfl (by rw [hctx]) houtbox (fun task ht => ?_)
      (fun r _ => hctx ▸ .refl m r _)
    cases ht
    refine ⟨rfl, fun r hr => .inl ?_⟩
    -- only a rejection is an error
    cases conflict with
    | reject handle => exact hr
    | replace handle => cases result <;> cases heq
  · next t heq =>
    rw [heq] at hctx houtbox
    cases hres
    dsimp only at hctx houtbox
    refine .of_gossip rfl (by rw [hctx]) houtbox (fun task ht => ?_)
      (fun r _ => hctx ▸ .refl m r _)
    obtain ⟨hm, hremoving⟩ := gossipNext_waiting ht
    refine ⟨hm, fun r hr => .inl ?_⟩
    rw [hremoving] at hr
    cases conflict with
    | reject handle => exact List.mem_cons_of_mem room hr
    | replace handle => exact hr

/-- A room is dropped, by `gossipDrop` or by `gossipRemove`. -/
theorem gossipDrop_effect {task : Task} {m : MonolithId} {room : RoomName} {rooms : List GossipRoom}
    {toRemove : List RoomName} (htask : ofGossip task = some m)
    (hremoves : removing task = room :: toRemove)
    (hres : gossipDrop s m room rooms toRemove = some (s', progress)) :
    Effect task x s (s', progress) := by
  cases hres
  refine .of_gossip htask (removeRoom_clients _ room m) (sends_nothing s) (fun t ht => ?_)
    (fun r hr => ?_)
  · obtain ⟨hm, hremoving⟩ := gossipNext_waiting ht
    refine ⟨hm, fun r hr => .inl ?_⟩
    rw [hremoves]
    exact List.mem_cons_of_mem room (hremoving ▸ hr)
  · rw [hremoves, List.mem_cons, not_or] at hr
    exact .of_same (removeRoom_other hr.1 m)

/-! ### The segments of `join_client` -/

/-- The client has got its monolith. -/
theorem Effect.of_reserved {c : NewClient} {m : MonolithId} {b : Bool}
    (hclients : s'.ctx.clients = s.ctx.clients) (houtbox : s'.outbox = s.outbox)
    (hreserves : reserves s.ctx c.room x = some m) :
    Effect (.joinReserve c) x s (s', .waiting (.joinSend c m b)) where
  clients _ _ h := .inl (hclients ▸ h)
  outbox := ⟨[], by rw [houtbox, List.append_nil], fun _ _ _ _ h => absurd h List.not_mem_nil⟩
  joinId t ht c' hc' := by
    cases ht
    exact hc'
  joining t ht place hp := by
    cases ht
    cases hp
    exact .inr ⟨c, m, rfl, hreserves, rfl⟩
  unsent c' h := by
    rcases h with ht | ⟨m', b', ht⟩ <;> cases ht
    rfl
  sent _ _ h := by cases h
  gossip t ht m' hm' := by
    cases ht
    cases hm'
  keeps m' hm' := by cases hm'

theorem joinReserve_effect {c : NewClient} {selected : Option MonolithId}
    (hres : joinReserve s c selected = some (s', progress)) :
    Effect (.joinReserve c) (.lockSelecting selected) s (s', progress) := by
  have hend : ∀ {s' : State} {result : TaskEnd}, s'.ctx.clients = s.ctx.clients →
      s'.outbox = s.outbox →
      Effect (.joinReserve c) (.lockSelecting selected) s (s', .done result) :=
    fun hclients houtbox =>
      .of_done rfl (fun _ _ h => hclients ▸ h) (houtbox ▸ sends_nothing s)
  unfold joinReserve at hres
  split at hres
  · next locator hl =>
    have hreserves : reserves s.ctx c.room (.lockSelecting selected) = some locator.monolithId := by
      simp only [reserves, hl]
    split at hres
    · cases hres
      exact hend rfl rfl
    · split at hres
      · cases hres
        exact hend rfl rfl
      · cases hres
        exact .of_reserved rfl rfl hreserves
  · next hl =>
    split at hres
    · cases selected with
      | none =>
        cases hres
        exact hend rfl rfl
      | some m =>
        have hreserves : reserves s.ctx c.room (.lockSelecting (some m)) = some m := by
          simp only [reserves, hl]
        have hclients := addRoom_clients s.ctx c.room ⟨m, u32Max⟩
        dsimp only at hres
        split at hres
        · next heq =>
          rw [heq] at hclients
          cases hres
          exact hend hclients rfl
        · next heq =>
          rw [heq] at hclients
          split at hres <;> cases hres
          · exact hend hclients rfl
          · exact .of_reserved hclients rfl hreserves
    · cases hres

theorem joinSend_effect {c : NewClient} {m : MonolithId} {shouldCreateRoom : Bool}
    {result : SendResult} (hres : joinSend s c m shouldCreateRoom result = some (s', progress)) :
    Effect (.joinSend c m shouldCreateRoom) x s (s', progress) := by
  have hfail : ∀ {progress : Progress Task TaskEnd}, (∀ t, progress = .waiting t → Plain t) →
      Effect (.joinSend c m shouldCreateRoom) x s (s, progress) :=
    fun hnext => .of_plain rfl (fun _ _ h => h) (sends_nothing s) hnext
  cases result with
  | ok =>
    cases hres
    exact
      { clients := fun _ _ h => .inl h
        outbox := by
          refine ⟨[(m, .join c.room c.id c.token)], rfl, fun m' r c' token h => ?_⟩
          rw [List.mem_singleton, Prod.mk.injEq, MsgB2M.join.injEq] at h
          obtain ⟨rfl, rfl, rfl, -⟩ := h
          exact ⟨c, shouldCreateRoom, rfl, rfl, rfl, rfl⟩
        joinId := fun t ht c' hc' => by
          cases ht
          exact hc'
        joining := fun t ht place hp => by
          cases ht
          exact .inl hp
        unsent := fun c' h => by
          rcases h with ht | ⟨m', b', ht⟩ <;> cases ht
        sent := fun c' m' h => by
          cases h
          exact ⟨shouldCreateRoom, rfl⟩
        gossip := fun t ht m' hm' => by
          cases ht
          cases hm'
        keeps := fun m' hm' => by cases hm' }
  | timeout =>
    cases hres
    refine hfail (fun t ht => ?_)
    cases ht
    exact ⟨rfl, rfl, rfl⟩
  | serde =>
    cases shouldCreateRoom <;> cases hres
    · exact hfail (fun t ht => by cases ht)
    · refine hfail (fun t ht => ?_)
      cases ht
      exact ⟨rfl, rfl, rfl⟩

theorem joinRegister_effect {c : NewClient} {m : MonolithId} {receiverOpen : Bool}
    (hres : joinRegister s c m receiverOpen = some (s', progress)) :
    Effect (.joinRegister c m) x s (s', progress) := by
  unfold joinRegister at hres
  split at hres <;> cases hres
  · exact .of_done rfl (fun _ _ h => h) (sends_nothing s)
  · exact
      { clients := fun c' client h => by
          change (s.ctx.clients.set c.id (BalancerClient.new c)).get? c' = some client at h
          rw [OrderedMap.get?_set] at h
          split at h
          · next heq =>
            cases h
            exact .inr ⟨c, m, rfl, heq, rfl⟩
          · exact .inl h
        outbox := ⟨[], (List.append_nil _).symm, fun _ _ _ _ h => absurd h List.not_mem_nil⟩
        joinId := fun _ h => by cases h
        joining := fun _ h => by cases h
        unsent := fun _ h => by rcases h with h | ⟨_, _, h⟩ <;> cases h
        sent := fun _ _ h => by cases h
        gossip := fun _ h => by cases h
        keeps := fun _ h => by cases h }

theorem joinAbandon_effect {c : NewClient} {m : MonolithId} {shouldCreateRoom badMonolith : Bool}
    (hres : joinAbandon s c m shouldCreateRoom badMonolith = some (s', progress)) :
    Effect (.joinAbandon c m shouldCreateRoom badMonolith) x s (s', progress) := by
  cases hres
  refine .of_done rfl (fun c' client h => ?_) (sends_nothing s)
  have hroom := removeRoom_clients s.ctx c.room m
  cases shouldCreateRoom <;> cases badMonolith
  · exact h
  · exact get?_removeMonolith_clients h
  · exact hroom ▸ h
  · exact hroom ▸ get?_removeMonolith_clients h

/-! ### All segments -/

theorem leaveRemove_effect {client : ClientId} (hres : leaveRemove s client = some (s', progress)) :
    Effect (.leaveRemove client) x s (s', progress) := by
  have herase : ∀ {clients : OrderedMap ClientId BalancerClient} {c : ClientId}
      {found : BalancerClient}, (clients.erase client).get? c = some found →
      clients.get? c = some found := by
    intro clients c found h
    rw [OrderedMap.get?_erase] at h
    split at h
    · cases h
    · exact h
  unfold leaveRemove at hres
  split at hres
  · cases hres
    exact .of_done rfl (fun _ _ h => h) (sends_nothing s)
  · dsimp only at hres
    split at hres
    · cases hres
      exact .of_done rfl (fun _ _ h => herase h) (sends_nothing s)
    · split at hres <;> cases hres
      · exact .of_done rfl (fun _ _ h => herase h) (sends_nothing s)
      · refine .of_plain rfl (fun _ _ h => herase h) (sends_nothing s) (fun t ht => ?_)
        cases ht
        exact ⟨rfl, rfl, rfl⟩

theorem leaveSend_effect {client : ClientId} {m : MonolithId} {result : SendResult}
    (hres : leaveSend s client m result = some (s', progress)) :
    Effect (.leaveSend client m) x s (s', progress) := by
  cases result <;> cases hres
  · exact .of_done rfl (fun _ _ h => h)
      ⟨[(m, .leave client)], rfl, fun _ _ _ _ h => by simp at h⟩
  · refine .of_plain rfl (fun _ _ h => h) (sends_nothing s) (fun t ht => ?_)
    cases ht
    exact ⟨rfl, rfl, rfl⟩
  · exact .of_done rfl (fun _ _ h => h) (sends_nothing s)

theorem loaded_effect {m : MonolithId} {room : RoomMetadata} {loadEpoch : LoadEpoch}
    (hres : Balancer.loaded s m room loadEpoch = some (s', progress)) :
    Effect (.loaded m room loadEpoch) x s (s', progress) := by
  have hclients := syncRoom_clients s.ctx room m loadEpoch
  unfold Balancer.loaded at hres
  split at hres <;> next heq =>
    rw [heq] at hclients
    cases hres
    refine .of_plain rfl (fun _ _ h => hclients ▸ h) (sends_nothing s) (fun t ht => ?_)
    cases ht <;> exact ⟨rfl, rfl, rfl⟩

theorem roomMsg_effect {m : MonolithId} {room : RoomName} {client : Option ClientId}
    {receiverOpen : Bool} (hres : Balancer.roomMsg s m room receiverOpen client = some (s', progress)) :
    Effect (.roomMsg m room client) x s (s', progress) := by
  have hsame : s' = s ∧ ∀ t, progress = .waiting t → Plain t := by
    unfold Balancer.roomMsg at hres
    split at hres
    · split at hres <;> cases hres
      · exact ⟨rfl, fun t ht => by cases ht⟩
      · refine ⟨rfl, fun t ht => ?_⟩
        cases ht
        exact ⟨rfl, rfl, rfl⟩
    · split at hres
      · cases hres
        exact ⟨rfl, fun t ht => by cases ht⟩
      · split at hres <;> cases hres <;> exact ⟨rfl, fun t ht => by cases ht⟩
  obtain ⟨rfl, hnext⟩ := hsame
  exact .of_plain rfl (fun _ _ h => h) (sends_nothing s') hnext

/-- **Every segment** has the effect its task says. -/
theorem segment_effect {task : Task} (hres : resume task x s = some (s', progress)) :
    Effect task x s (s', progress) := by
  unfold resume at hres
  split at hres
  case h_1 c selected => exact joinReserve_effect hres
  case h_2 c m shouldCreateRoom result => exact joinSend_effect hres
  case h_3 c m receiverOpen => exact joinRegister_effect hres
  case h_4 c m shouldCreateRoom badMonolith => exact joinAbandon_effect hres
  case h_5 client => exact leaveRemove_effect hres
  case h_6 client m result => exact leaveSend_effect hres
  case h_7 m =>
    cases hres
    exact .of_done rfl (fun _ _ h => get?_removeMonolith_clients h) (sends_nothing s)
  case h_8 m receiverOpen =>
    cases receiverOpen <;> cases hres <;> exact .of_done rfl (fun _ _ h => h) (sends_nothing s)
  case h_9 m =>
    cases hres
    exact .of_done rfl (fun _ _ h => get?_removeMonolith_clients h) (sends_nothing s)
  case h_10 m room loadEpoch => exact loaded_effect hres
  case h_11 m room conflict result =>
    have hctx := unloadSend_ctx s room conflict result
    have houtbox := unloadSend_outbox s room conflict result
    unfold loadedSend at hres
    split at hres <;> next heq =>
      rw [heq] at hctx houtbox
      cases hres
      dsimp only at hctx houtbox
      exact .of_done rfl (fun _ _ h => hctx ▸ h) houtbox
  case h_12 m room =>
    have hclients := removeRoom_clients s.ctx room m
    unfold unloaded at hres
    split at hres <;> next heq =>
      rw [heq] at hclients
      cases hres
      exact .of_done rfl (fun _ _ h => hclients ▸ h) (sends_nothing s)
  case h_13 m rooms toRemove => exact gossip_effect hres
  case h_14 m room rooms toRemove => exact gossipSync_effect hres
  case h_15 m room conflict rooms toRemove result => exact gossipSend_effect hres
  case h_16 m room rooms toRemove => exact gossipDrop_effect rfl rfl hres
  case h_17 m room toRemove => exact gossipDrop_effect rfl rfl hres
  case h_18 m room client receiverOpen => exact roomMsg_effect hres
  case h_19 client result =>
    cases result <;> cases hres <;> exact .of_done rfl (fun _ _ h => h) (sends_nothing s)
  case h_20 client =>
    unfold kick at hres
    split at hres <;> cases hres
    · exact .of_done rfl (fun _ _ h => h) (sends_nothing s)
    · refine .of_plain rfl (fun _ _ h => h) (sends_nothing s) (fun t ht => ?_)
      cases ht
      exact ⟨rfl, rfl, rfl⟩
  case h_21 client result =>
    cases result <;> cases hres <;> exact .of_done rfl (fun _ _ h => h) (sends_nothing s)
  case h_22 => cases hres

/-! ## The invariant -/

/-- The id that a task joins. -/
def taskJoinId : Progress Task TaskEnd → Option ClientId
  | .waiting task => joinId task
  | .done _ => none

/-- The ids of clients are used once: by one task at a time, and for one `B2MJoin`. -/
structure Ids (used : List ClientId) (p : Pool State Task TaskEnd) : Prop where
  nodup : (p.tasks.filterMap taskJoinId).Nodup
  tasks : ∀ t ∈ p.tasks, ∀ c, taskJoinId t = some c → c ∈ used
  outbox : ∀ m r c token, (m, MsgB2M.join r c token) ∈ p.shared.outbox → c ∈ used
  unsent : ∀ c : NewClient, (Progress.waiting (.joinReserve c) ∈ p.tasks ∨
      ∃ m b, Progress.waiting (.joinSend c m b) ∈ p.tasks) →
    ∀ m r token, (m, MsgB2M.join r c.id token) ∉ p.shared.outbox
  sent : ∀ (c : NewClient) m, Progress.waiting (.joinRegister c m) ∈ p.tasks →
    ∀ m' r token, (m', MsgB2M.join r c.id token) ∈ p.shared.outbox → m' = m ∧ r = c.room

/-- What gossips are about to remove has no client that their monolith did not know of. -/
structure Inv (w : World) : Prop where
  ids : Ids w.known w.pool
  safe : ∀ (i : Nat) (task : Task) (m : MonolithId) (n : Nat) (r : RoomName),
    w.pool.tasks[i]? = some (Progress.waiting task) → w.stamps[i]? = some n →
    ofGossip task = some m → r ∈ removing task → Spares w.pool m n r

theorem mem_sentTo {m : MonolithId} {msg : MsgB2M} : msg ∈ sentTo s m ↔ (m, msg) ∈ s.outbox := by
  rw [sentTo, List.mem_filterMap]
  constructor
  · rintro ⟨⟨m', msg'⟩, hmem, h⟩
    dsimp only at h
    split at h
    · next heq =>
      cases h
      exact heq ▸ hmem
    · cases h
  · exact fun h => ⟨_, h, if_pos rfl⟩

theorem isJoin_iff {r : RoomName} {c : ClientId} {msg : MsgB2M} :
    isJoin r c msg = true ↔ ∃ token, msg = .join r c token := by
  cases msg <;> simp [isJoin, and_comm]

/-- Who is a member. -/
theorem mem_members {p : Pool State Task TaskEnd} {m : MonolithId} {r : RoomName} {c : ClientId} :
    c ∈ members p m r ↔
      (∃ task, Progress.waiting task ∈ p.tasks ∧ joining task = some (m, r, c)) ∨
      (∃ client, p.shared.ctx.clients.get? c = some client ∧ client.room = r ∧
        ∃ token, (m, MsgB2M.join r c token) ∈ p.shared.outbox) := by
  rw [members, List.mem_append]
  refine or_congr ?_ ?_
  · rw [List.mem_filterMap]
    refine exists_congr (fun task => ?_)
    rw [Pool.mem_suspended]
    refine and_congr_right (fun _ => ?_)
    cases joining task with
    | none => simp
    | some place =>
      obtain ⟨m', r', c'⟩ := place
      rw [Option.bind_some, Option.some.injEq, Prod.mk.injEq, Prod.mk.injEq]
      dsimp only
      constructor
      · intro h
        split at h
        · next heq => exact ⟨heq.1, heq.2, Option.some.inj h⟩
        · cases h
      · rintro ⟨rfl, rfl, rfl⟩
        exact if_pos ⟨rfl, rfl⟩
  · simp only [List.mem_map, List.mem_filter, decide_eq_true_eq, Prod.exists, exists_and_right,
      exists_eq_right, List.any_eq_true, isJoin_iff, OrderedMap.get?_eq_some_iff]
    refine exists_congr (fun client => and_congr_right (fun _ => and_congr_right (fun _ => ?_)))
    constructor
    · rintro ⟨msg, hmem, token, rfl⟩
      exact ⟨token, mem_sentTo.mp hmem⟩
    · rintro ⟨token, hmem⟩
      exact ⟨_, mem_sentTo.mpr hmem, token, rfl⟩

/-- What was received stays received. -/
theorem Received.append {m : MonolithId} {n : Nat} {r : RoomName} {c : ClientId}
    (h : Received s m n r c) {sent : List (MonolithId × MsgB2M)}
    (hsent : s'.outbox = s.outbox ++ sent) : Received s' m n r c := by
  have hprefix : ∃ more, sentTo s' m = sentTo s m ++ more :=
    ⟨_, by rw [sentTo, hsent, List.filterMap_append]; rfl⟩
  obtain ⟨more, hmore⟩ := hprefix
  unfold Received at h ⊢
  rw [hmore, List.take_append, List.any_append, h]
  rfl

section Segment

variable {p : Pool State Task TaskEnd} {used : List ClientId} {i : Nat} {task : Task}

/-- **Clients only get a room on a monolith by `joinReserve`.** -/
theorem members_segment (hids : Ids used p) (ht : p.tasks[i]? = some (.waiting task))
    (h : Effect task x p.shared (s, progress)) {m : MonolithId} {r : RoomName} {c : ClientId}
    (hmem : c ∈ members ⟨s, p.tasks.set i progress⟩ m r) :
    c ∈ members p m r ∨ ∃ nc, task = .joinReserve nc ∧ reserves p.shared.ctx nc.room x = some m ∧
      r = nc.room := by
  have htask := Program.mem_of_getElem? ht
  obtain ⟨sent, hsent, hjoins⟩ := h.outbox
  rcases mem_members.mp hmem with ⟨t, ht', hplace⟩ | ⟨client, hclient, hroom, token, hjoin⟩
  · rcases List.mem_or_eq_of_mem_set ht' with hold | hnew
    · exact .inl (mem_members.mpr (.inl ⟨t, hold, hplace⟩))
    · obtain hbefore | ⟨nc, m', heq, hreserves, hnow⟩ := h.joining t hnew.symm _ hplace
      · exact .inl (mem_members.mpr (.inl ⟨task, htask, hbefore⟩))
      · cases hnow
        exact .inr ⟨nc, heq, hreserves, rfl⟩
  · refine .inl (mem_members.mpr ?_)
    have hjoin' : (m, MsgB2M.join r c token) ∈ p.shared.outbox ∨
        ∃ nc b, task = .joinSend nc m b ∧ r = nc.room ∧ c = nc.id := by
      change _ ∈ s.outbox at hjoin
      rw [hsent, List.mem_append] at hjoin
      rcases hjoin with hold | hnew
      · exact .inl hold
      · obtain ⟨nc, b, heq, hr, hc, -⟩ := hjoins m r c token hnew
        exact .inr ⟨nc, b, heq, hr, hc⟩
    rcases hjoin' with hold | ⟨nc, b, rfl, rfl, rfl⟩
    · obtain hclient' | ⟨nc, m', rfl, rfl, hroom'⟩ := h.clients c client hclient
      · exact .inr ⟨client, hclient', hroom, token, hold⟩
      · obtain ⟨rfl, -⟩ := hids.sent nc m' htask m r token hold
        rw [← hroom, hroom']
        exact .inl ⟨_, htask, rfl⟩
    · exact .inl ⟨_, htask, rfl⟩

theorem Ids.segment (hids : Ids used p) (ht : p.tasks[i]? = some (.waiting task))
    (h : Effect task x p.shared (s, progress)) : Ids used ⟨s, p.tasks.set i progress⟩ := by
  have htask := Program.mem_of_getElem? ht
  obtain ⟨sent, hsent, hjoins⟩ := h.outbox
  have hid : ∀ c, taskJoinId progress = some c → joinId task = some c := by
    intro c hc
    cases progress with
    | waiting t => exact h.joinId t rfl c hc
    | done result => cases hc
  have hnodup : ((p.tasks.set i progress).filterMap taskJoinId).Nodup := by
    obtain ⟨rest, hbefore, hafter⟩ := Program.filterMap_set_perm taskJoinId ht progress
    rw [hafter.nodup_iff]
    have hn := hbefore.nodup_iff.mp hids.nodup
    cases hc : taskJoinId progress with
    | none => exact (List.nodup_append.mp hn).2.1
    | some c =>
      have htaskid : taskJoinId (.waiting task) = some c := hid c hc
      rw [htaskid] at hn
      exact hn
  have hmem : ∀ {t}, t ∈ p.tasks.set i progress → t ∈ p.tasks ∨ t = progress :=
    fun ht' => List.mem_or_eq_of_mem_set ht'
  have hprogress : progress ∈ p.tasks.set i progress := by
    obtain ⟨hi, -⟩ := List.getElem?_eq_some_iff.mp ht
    exact List.mem_set hi progress
  -- a `B2MJoin` of a client is an old one, or its task is the one that has just run
  have hold : ∀ {t : Task} {c : NewClient}, Progress.waiting t ∈ p.tasks.set i progress →
      joinId t = some c.id → ∀ m r token, (m, MsgB2M.join r c.id token) ∈ s.outbox →
      (m, MsgB2M.join r c.id token) ∈ p.shared.outbox ∨
        ∃ nc b, task = .joinSend nc m b ∧ r = nc.room ∧ t = .joinRegister nc m := by
    intro t c ht' hc m r token hjoin
    rw [hsent, List.mem_append] at hjoin
    rcases hjoin with hold | hnew
    · exact .inl hold
    · obtain ⟨nc, b, heq, hr, hcid, hnext⟩ := hjoins m r c.id token hnew
      have hsame := Program.eq_of_nodup_filterMap hnodup ht' hprogress (b := c.id) hc
        (by rw [show progress = _ from hnext, hcid]; rfl)
      exact .inr ⟨nc, b, heq, hr, Progress.waiting.inj (hsame.trans hnext)⟩
  refine ⟨hnodup, fun t ht' c hc => ?_, fun m r c token hjoin => ?_, fun c hc m r token hjoin => ?_,
    fun c m hc m' r token hjoin => ?_⟩
  · rcases hmem ht' with hin | rfl
    · exact hids.tasks t hin c hc
    · exact hids.tasks _ htask c (hid c hc)
  · change _ ∈ s.outbox at hjoin
    rw [hsent, List.mem_append] at hjoin
    rcases hjoin with hin | hnew
    · exact hids.outbox m r c token hin
    · obtain ⟨nc, b, rfl, -, rfl, -⟩ := hjoins m r c token hnew
      exact hids.tasks _ htask nc.id rfl
  · have hbefore : (m, MsgB2M.join r c.id token) ∈ p.shared.outbox := by
      rcases hc with hc | ⟨m', b, hc⟩
      · obtain hin | ⟨nc, b, -, -, heq⟩ := hold hc rfl m r token hjoin
        · exact hin
        · cases heq
      · obtain hin | ⟨nc, b', -, -, heq⟩ := hold hc rfl m r token hjoin
        · exact hin
        · cases heq
    have hfrom : ∀ t, Progress.waiting t ∈ p.tasks.set i progress →
        Progress.waiting t ∈ p.tasks ∨ progress = .waiting t :=
      fun t ht' => (hmem ht').imp_right Eq.symm
    rcases hc with hc | ⟨m', b, hc⟩
    · rcases hfrom _ hc with hin | heq
      · exact hids.unsent c (.inl hin) m r token hbefore
      · exact hids.unsent c (.inl (h.unsent c (.inl heq) ▸ htask)) m r token hbefore
    · rcases hfrom _ hc with hin | heq
      · exact hids.unsent c (.inr ⟨m', b, hin⟩) m r token hbefore
      · exact hids.unsent c (.inl (h.unsent c (.inr ⟨m', b, heq⟩) ▸ htask)) m r token hbefore
  · obtain hin | ⟨nc, b, -, rfl, heq⟩ := hold hc rfl m' r token hjoin
    · rcases hmem hc with hin' | heq
      · exact hids.sent c m hin' m' r token hin
      · obtain ⟨b, rfl⟩ := h.sent c m heq.symm
        exact absurd hin (hids.unsent c (.inr ⟨m, b, htask⟩) m' r token)
    · cases heq
      exact ⟨rfl, rfl⟩

end Segment

/-! ## Every step -/

theorem inv_init (region : Region) : Inv (.init region) where
  ids :=
    { nodup := List.nodup_nil
      tasks := fun _ h => absurd h List.not_mem_nil
      outbox := fun _ _ _ _ h => absurd h List.not_mem_nil
      unsent := fun _ _ _ _ _ h => absurd h List.not_mem_nil
      sent := fun _ _ h => absurd h List.not_mem_nil }
  safe i task m n r h := by cases h

section Call

variable {w : World} {c : Call} {stamp : Nat}

/-- A task that starts has nothing to remove, and puts nobody into a room. -/
theorem start_task (c : Call) : removing c.task = [] ∧ joining c.task = none := by
  cases c <;> exact ⟨rfl, rfl⟩

theorem members_call (m : MonolithId) (r : RoomName) :
    members (w.call c stamp).pool m r = members w.pool m r := by
  have hsuspended : (w.call c stamp).pool.suspended = w.pool.suspended ++ [c.task] := by
    simp [World.call, Pool.suspended, List.filterMap_append]
  unfold members
  rw [hsuspended, List.filterMap_append]
  simp [(start_task c).2, World.call]

theorem Inv.call (h : Inv w) (hstamps : w.stamps.length = w.pool.tasks.length)
    {used : List ClientId} (hids : Ids used (w.call c stamp).pool) :
    Inv { w.call c stamp with known := used } := by
  refine ⟨hids, fun i task m n r ht hn hm hr => ?_⟩
  show Spares (w.call c stamp).pool m n r
  unfold Spares
  rw [members_call]
  change (w.pool.tasks ++ [Progress.waiting c.task])[i]? = some (.waiting task) at ht
  change (w.stamps ++ [stamp])[i]? = some n at hn
  rw [List.getElem?_append] at ht hn
  split at ht
  · next hi =>
    rw [if_pos (hstamps ▸ hi)] at hn
    exact h.safe i task m n r ht hn hm hr
  · -- the new task
    have hnew := List.mem_of_getElem? ht
    rw [List.mem_singleton, Progress.waiting.injEq] at hnew
    rw [hnew, (start_task c).1] at hr
    cases hr

/-- A task that joins nobody is started. -/
theorem Ids.call (h : Ids w.known w.pool) (hc : joinId c.task = none) :
    Ids w.known (w.call c stamp).pool := by
  have hold : ∀ {t}, Progress.waiting t ∈ (w.call c stamp).pool.tasks → joinId t ≠ none →
      Progress.waiting t ∈ w.pool.tasks := by
    intro t ht hne
    rcases List.mem_append.mp ht with hin | hnew
    · exact hin
    · rw [List.mem_singleton, Progress.waiting.injEq] at hnew
      exact absurd (hnew ▸ hc) hne
  refine ⟨?_, fun t ht d hd => ?_, h.outbox, fun d hd => h.unsent d ?_, fun d m hd => ?_⟩
  · show ((w.pool.tasks ++ [Progress.waiting c.task]).filterMap taskJoinId).Nodup
    rw [List.filterMap_append]
    simpa [taskJoinId, hc] using h.nodup
  · rcases List.mem_append.mp ht with hin | hnew
    · exact h.tasks t hin d hd
    · rw [List.mem_singleton] at hnew
      rw [hnew, taskJoinId, hc] at hd
      cases hd
  · exact hd.imp (fun hd => hold hd (by simp [joinId]))
      (fun ⟨m, b, hd⟩ => ⟨m, b, hold hd (by simp [joinId])⟩)
  · exact h.sent d m (hold hd (by simp [joinId]))

/-- A client connects, with an id of its own. -/
theorem Ids.join (h : Ids w.known w.pool) {c : NewClient} (hc : c.id ∉ w.known) :
    Ids (w.known ++ [c.id]) (w.call (.joinClient c) stamp).pool := by
  have hmore : ∀ {d}, d ∈ w.known → d ∈ w.known ++ [c.id] := fun hd => List.mem_append_left _ hd
  have hold : ∀ {t}, Progress.waiting t ∈ (w.call (.joinClient c) stamp).pool.tasks →
      Progress.waiting t ∈ w.pool.tasks ∨ t = .joinReserve c := by
    intro t ht
    rcases List.mem_append.mp ht with hin | hnew
    · exact .inl hin
    · rw [List.mem_singleton, Progress.waiting.injEq] at hnew
      exact .inr hnew
  refine ⟨?_, fun t ht d hd => ?_, fun m r d token hin => hmore (h.outbox m r d token hin),
    fun d hd m r token hin => ?_, fun d m hd m' r token hin => ?_⟩
  · show ((w.pool.tasks ++ [Progress.waiting (Task.joinReserve c)]).filterMap taskJoinId).Nodup
    rw [List.filterMap_append, List.nodup_append]
    refine ⟨h.nodup, List.nodup_singleton c.id, fun d hd d' hd' heq => hc ?_⟩
    obtain ⟨t, ht, htd⟩ := List.mem_filterMap.mp hd
    rw [heq, List.mem_singleton.mp hd'] at htd
    exact h.tasks t ht c.id htd
  · rcases List.mem_append.mp ht with hin | hnew
    · exact hmore (h.tasks t hin d hd)
    · rw [List.mem_singleton] at hnew
      rw [hnew] at hd
      cases hd
      exact List.mem_append_right _ (List.mem_singleton_self _)
  · have hne : d ≠ c := by
      rintro rfl
      exact hc (h.outbox m r _ token hin)
    refine h.unsent d ?_ m r token hin
    rcases hd with hd | ⟨m', b, hd⟩
    · exact .inl ((hold hd).resolve_right (fun heq => hne (Task.joinReserve.inj heq)))
    · exact .inr ⟨m', b, (hold hd).resolve_right (fun heq => by cases heq)⟩
  · exact h.sent d m ((hold hd).resolve_right (fun heq => by cases heq)) m' r token hin

end Call

/-- **A segment** of a task that meets the condition. -/
theorem Inv.segment {w : World} (h : Inv w) {i : Nat} {x : Answer} {task : Task} {s : State}
    {progress : Progress Task TaskEnd} (ht : w.pool.tasks[i]? = some (.waiting task))
    (htimely : ∀ n, w.stamps[i]? = some n → TaskTimely w.pool n task x)
    (heffect : Effect task x w.pool.shared (s, progress))
    (hstamps : w.stamps.length = w.pool.tasks.length) :
    Inv { w with pool := ⟨s, w.pool.tasks.set i progress⟩ } := by
  obtain ⟨sent, hsent, -⟩ := heffect.outbox
  -- what was safe stays so, unless a client joins the room now
  have hkeep : ∀ {m n r}, Spares w.pool m n r →
      (∀ nc, task = .joinReserve nc → reserves w.pool.shared.ctx nc.room x = some m → r ≠ nc.room) →
      Spares ⟨s, w.pool.tasks.set i progress⟩ m n r := by
    intro m n r hspares hnobody c hc
    obtain hold | ⟨nc, heq, hreserves, hroom⟩ := members_segment h.ids ht heffect hc
    · exact (hspares c hold).append hsent
    · exact absurd hroom (hnobody nc heq hreserves)
  refine ⟨h.ids.segment ht heffect, fun j t m n r ht' hn hm hr => ?_⟩
  change w.stamps[j]? = some n at hn
  change (w.pool.tasks.set i progress)[j]? = some (.waiting t) at ht'
  by_cases hij : i = j
  · subst hij
    obtain ⟨hi, -⟩ := List.getElem?_eq_some_iff.mp ht
    rw [List.getElem?_set_self hi, Option.some.injEq] at ht'
    obtain ⟨hm', hremoving⟩ := heffect.gossip t ht' m hm
    have hnot : ∀ nc, task = .joinReserve nc → reserves w.pool.shared.ctx nc.room x = some m →
        r ≠ nc.room := by
      rintro nc rfl
      cases hm'
    refine hkeep ?_ hnot
    rcases hremoving r hr with hold | hnew
    · exact h.safe i task m n r ht hn hm' hold
    · have hcond := htimely n hn
      cases task with
      | gossip m' rooms =>
        cases hm'
        obtain ⟨mono, hmono, hun⟩ := hnew
        exact hcond mono hmono r hun
      | gossipSync m' room rooms toRemove =>
        cases hm'
        obtain ⟨rfl, hrefused⟩ := hnew
        exact hcond hrefused
      | _ => exact hnew.elim
  · rw [List.getElem?_set_ne hij] at ht'
    refine hkeep (h.safe j t m n r ht' hn hm hr) (fun nc heq hreserves hroom => ?_)
    subst heq
    obtain ⟨hi, -⟩ := List.getElem?_eq_some_iff.mp ht
    obtain ⟨stamp, hstamp⟩ : ∃ stamp, w.stamps[i]? = some stamp :=
      ⟨_, List.getElem?_eq_getElem (hstamps ▸ hi)⟩
    refine htimely stamp hstamp m hreserves t (Pool.mem_suspended.mpr (List.mem_of_getElem? ht')) hm ?_
    rw [← hroom]
    exact hr

/-- The invariant, with the stamps in step with the tasks. -/
def Aligned (w : World) : Prop := Inv w ∧ w.stamps.length = w.pool.tasks.length

theorem Aligned.call {w : World} (h : Aligned w) {c : Call} {stamp : Nat}
    (hc : joinId c.task = none) : Aligned (w.call c stamp) := by
  have hinv : Inv { w.call c stamp with known := w.known } := h.1.call h.2 (h.1.ids.call hc)
  exact ⟨hinv, by simp [World.call, h.2]⟩

/-- **One step** that meets the condition. -/
theorem step_aligned {w w' : World} {e : Event} (h : Aligned w) (htimely : Timely w e)
    (hstep : system.step w e = some w') : Aligned w' := by
  have hmono : ∀ {w : World} (m : MonolithId) (mono : Monolith), Aligned w →
      Aligned (w.setMonolith m mono) := fun _ _ h => ⟨⟨h.1.ids, h.1.safe⟩, h.2⟩
  change w.step e = some w' at hstep
  cases e with
  | join c =>
    simp only [World.step] at hstep
    split at hstep <;> cases hstep
    next hnew =>
      exact ⟨h.1.call h.2 (h.1.ids.join hnew), by simp [World.call, h.2]⟩
  | leave client =>
    cases hstep
    exact h.call rfl
  | connect m =>
    cases hstep
    exact h.call rfl
  | disconnect m =>
    cases hstep
    exact h.call rfl
  | dispatch m =>
    simp only [World.step] at hstep
    split at hstep <;> cases hstep
    next msg rest _ =>
      have hplain : joinId (msg.call m).task = none := by cases msg <;> rfl
      exact hmono m _ (h.call hplain)
  | segment i x =>
    obtain ⟨pool, hpool, rfl⟩ := Option.map_eq_some_iff.mp hstep
    rcases Program.step_cases hpool with ⟨c, hc, -⟩ | ⟨j, y, task, s, progress, hc, ht, hres, rfl⟩ |
      ⟨ev, -, -, -, -⟩
    · cases hc
    · cases hc
      refine ⟨h.1.segment ht (fun n hn => htimely task n ht hn) (segment_effect hres) h.2, ?_⟩
      simp [h.2]
    · exact ev.elim
  | receive m details =>
    obtain ⟨msg, -, rfl⟩ := Option.map_eq_some_iff.mp hstep
    exact hmono m _ h
  | gossip m =>
    cases hstep
    exact hmono m _ h
  | load m room =>
    cases hstep
    exact hmono m _ h
  | unload m room =>
    cases hstep
    exact hmono m _ h
  | roomMsg m room client =>
    cases hstep
    exact hmono m _ h
  | kick m client =>
    cases hstep
    exact hmono m _ h

/-- What is safe is not removed. -/
theorem Inv.kept {w : World} (h : Inv w) (e : Event) : Kept w e := by
  cases e with
  | segment i x =>
    intro task m n s progress ht hn hm hres r c hc hnot
    refine (segment_effect hres).keeps m hm r (fun hr => hnot ?_)
    exact h.safe i task m n r ht hn hm hr c hc
  | _ => trivial

/-- **No gossip takes away the room of a client its monolith did not know of**, in any run whose
steps are timely. -/
theorem kept_throughout (region : Region) {es : List Event}
    (h : system.Along Timely (.init region) es) : system.Along Kept (.init region) es :=
  Machine.along_of_along (I := Aligned) (fun _ _ _ hw hc hs => step_aligned hw hc hs)
    (fun _ e _ hw _ _ => hw.1.kept e) ⟨inv_init region, rfl⟩ h

/-- A client joins a room, and its monolith gossips: when it has received the `B2MJoin`, or before. -/
def joinAndGossip (gossipFirst : Bool) (rest : List Event) : List Event :=
  [.connect ⟨1, "local"⟩, .segment 0 (.lockHandOver true)] ++
  (if gossipFirst then [.gossip 1] else []) ++
  [.join ⟨7, RoomName.ofString "foo", "local", "token"⟩, .segment 1 (.lockSelecting (some 1)),
   .segment 1 (.sent .ok), .segment 1 (.lockHandOver true)] ++ rest

/-- The monolith loads the room, says so, and lists it. -/
def freshGossip : List Event :=
  joinAndGossip false [.receive 1 ⟨⟨RoomName.ofString "", .Public, ""⟩, 3⟩, .gossip 1,
    .dispatch 1, .segment 2 .lock, .dispatch 1, .segment 3 (.lockListing []), .segment 3 .lock]

/-- The balancer reads a gossip that is older than the room. -/
def staleGossip : List Event :=
  joinAndGossip true [.dispatch 1, .segment 2 (.lockListing [RoomName.ofString "foo"])]

/-- A timely run. -/
theorem kept_throughout_freshGossip : system.Along Kept (.init "local") freshGossip :=
  kept_throughout "local" (by decide +kernel)

/-- **A client that has joined loses its room** to a gossip from before its `B2MJoin` was received. -/
theorem not_kept_throughout :
    ¬ ∀ (region : Region) (es : List Event), system.Along Kept (.init region) es := by
  intro h
  have hrun : ∃ w ∈ system.run (.init "local") staleGossip,
      w.pool.tasks[2]? = some (.waiting (.gossipRemove 1 (RoomName.ofString "foo") [])) ∧
      w.stamps[2]? = some 0 ∧ 7 ∈ members w.pool 1 (RoomName.ofString "foo") ∧
      ¬ Received w.pool.shared 1 0 (RoomName.ofString "foo") 7 ∧
      (w.pool.shared.ctx.roomsToMonoliths.get? (RoomName.ofString "foo")).isSome ∧
      (system.step w (.segment 2 .lock)).isSome ∧
      ∃ out ∈ resume (.gossipRemove 1 (RoomName.ofString "foo") []) .lock w.pool.shared,
        ¬ (out.1.ctx.roomsToMonoliths.get? (RoomName.ofString "foo")).isSome := by
    decide +kernel
  obtain ⟨w, hw, htask, hstamp, hmember, hunknown, hmapped, hstep, ⟨s, progress⟩, hres, hgone⟩ := hrun
  obtain ⟨w', hw'⟩ := Option.isSome_iff_exists.mp hstep
  obtain ⟨hkept, -⟩ := (h "local" (staleGossip ++ [.segment 2 .lock])).of_append hw w' hw'
  exact hgone ((hkept _ 1 0 s progress htask hstamp rfl hres _ 7 hmember hunknown).mapped hmapped)

end OpenTogetherTube.Balancer.Gossip
