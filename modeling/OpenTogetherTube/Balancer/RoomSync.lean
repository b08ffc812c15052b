import OpenTogetherTube.Balancer.OneRoom
import OpenTogetherTube.Balancer.Segments

/-!
# The two ways of syncing a room

A monolith reports a room, and the balancer stores where the room is loaded or tells one of two
monoliths to unload it. There are two versions of this. `BalancerContext::add_or_sync_room` is the one
that is tested: it holds the lock throughout, and in a conflict it sends before it updates anything.
`add_or_sync_room_ctx` is the one that runs: it updates under the lock, lets go of it, and sends then.

With nothing in between the two come to the same (`addOrSyncRoom_eq_ctx`), provided that the monolith
that reports is connected. If it is not, the running version leaves a locator to nowhere.
-/

namespace OpenTogetherTube.Balancer

open OpenTogetherTube.Lib BalancerContext

namespace State

/-! The sends settle as `sends` says, for each monolith that is written to. -/

variable (sends : MonolithId → SendResult)

/-- How both versions of `add_or_sync_room` end. -/
abbrev Synced := State × Except BalancerError Unit

/-! ## The version that is tested -/

/-- Its tail: the monolith is looked up **before** the locator is stored. -/
def storeRoom (s : State) (metadata : RoomMetadata) (monolithId : MonolithId)
    (loadEpoch : LoadEpoch) : Synced :=
  match s.ctx.monoliths.get? monolithId with
  | none => (s, .error .monolithNotFound)
  | some m =>
    let ctx := { s.ctx with
      roomsToMonoliths := s.ctx.roomsToMonoliths.set metadata.name ⟨monolithId, loadEpoch⟩ }
    match m.addOrSyncRoom metadata with
    | .error e => (s.withCtx ctx, .error e)
    | .ok m => (s.withCtx { ctx with monoliths := ctx.monoliths.set monolithId m }, .ok ())

/-- What a monolith has been sent once the send has settled. -/
def sendUnload (s : State) (monolithId : MonolithId) (room : RoomName) : State :=
  match sends monolithId with
  | .ok => s.post monolithId (.unload room)
  | _ => s

/-- `BalancerContext::add_or_sync_room`. -/
def addOrSyncRoom (s : State) (metadata : RoomMetadata) (monolithId : MonolithId)
    (loadEpoch : LoadEpoch) : Synced :=
  match s.ctx.roomsToMonoliths.get? metadata.name with
  | none => s.storeRoom metadata monolithId loadEpoch
  | some locator =>
    if locator.monolithId = monolithId then s.storeRoom metadata monolithId loadEpoch
    else match compare locator.loadEpoch loadEpoch with
      | .lt =>
        match s.ctx.monoliths.get? monolithId with
        | none => (s, .error .monolithNotFound)
        | some _ =>
          -- a send that fails is an error of its own
          match sends monolithId with
          | .ok => (s.sendUnload sends monolithId metadata.name, .error .roomAlreadyLoaded)
          | _ => (s, .error .failedToSendUnload)
      | .gt =>
        match s.ctx.monoliths.get? locator.monolithId with
        | none => (s, .error .monolithNotFound)
        | some _ =>
          -- a send that fails is only logged
          let s := s.sendUnload sends locator.monolithId metadata.name
          match s.ctx.removeRoom metadata.name locator.monolithId with
          | (ctx, .error e) => (s.withCtx ctx, .error e)
          | (ctx, .ok ()) => (s.withCtx ctx).storeRoom metadata monolithId loadEpoch
      | .eq => (s, .error .roomAlreadyLoaded)

/-! ## The version that runs -/

/-- `add_or_sync_room_ctx`: the critical section, and the send behind it. -/
def addOrSyncRoomCtx (s : State) (metadata : RoomMetadata) (monolithId : MonolithId)
    (loadEpoch : LoadEpoch) : Synced :=
  match s.ctx.syncRoom metadata monolithId loadEpoch with
  | (ctx, .error e) => (s.withCtx ctx, .error e)
  | (ctx, .ok none) => (s.withCtx ctx, .ok ())
  | (ctx, .ok (some conflict)) =>
    unloadSend (s.withCtx ctx) metadata.name conflict (sends conflict.handle)

/-- How a task ends. -/
def taskEnd : Except BalancerError Unit → TaskEnd
  | .ok () => .ok
  | .error e => .err e

/-- **It is what the task of a `Loaded` message does** if nothing comes in between its two
segments. -/
theorem addOrSyncRoomCtx_eq_task (s : State) (metadata : RoomMetadata) (monolithId : MonolithId)
    (loadEpoch : LoadEpoch) :
    let r := s.addOrSyncRoomCtx sends metadata monolithId loadEpoch
    resume (.loaded monolithId metadata loadEpoch) .lock s = some (r.1, .done (taskEnd r.2)) ∨
    ∃ s' conflict, resume (.loaded monolithId metadata loadEpoch) .lock s =
        some (s', .waiting (.loadedSend monolithId metadata.name conflict)) ∧
      resume (.loadedSend monolithId metadata.name conflict) (.sent (sends conflict.handle)) s' =
        some (r.1, .done (taskEnd r.2)) := by
  dsimp only [resume]
  unfold loaded addOrSyncRoomCtx
  rcases s.ctx.syncRoom metadata monolithId loadEpoch with ⟨ctx, e | _ | conflict⟩
  · exact .inl rfl
  · exact .inl rfl
  · refine .inr ⟨s.withCtx ctx, conflict, rfl, ?_⟩
    dsimp only [loadedSend]
    rcases unloadSend (s.withCtx ctx) metadata.name conflict (sends conflict.handle) with
      ⟨s', e | _⟩
    · rfl
    · rfl

/-! ## They come to the same -/

section Same

variable {s : State} {ctx : BalancerContext} {monolithId : MonolithId}

/-- The two tails differ only where the monolith is not there. -/
theorem storeRoom_eq_placeRoom (ctx : BalancerContext) (metadata : RoomMetadata)
    (loadEpoch : LoadEpoch) (h : ctx.Connected monolithId) (conflict : Option ConflictAction) :
    ∃ ctx', ctx.placeRoom metadata monolithId loadEpoch conflict = (ctx', .ok conflict) ∧
      ∀ s : State, (s.withCtx ctx).storeRoom metadata monolithId loadEpoch =
        (s.withCtx ctx', .ok ()) := by
  obtain ⟨m, hm⟩ := connected_iff.mp h
  obtain ⟨m', hsync, -⟩ := m.addOrSyncRoom_ok metadata
  refine ⟨{ ctx with
    roomsToMonoliths := ctx.roomsToMonoliths.set metadata.name ⟨monolithId, loadEpoch⟩
    monoliths := ctx.monoliths.set monolithId m' }, ?_, fun s => ?_⟩
  · simp only [placeRoom, hm, hsync]
  · simp only [storeRoom, withCtx, hm, hsync]

/-- A room can be taken off a monolith that is there. -/
theorem removeRoom_ok {old : BalancerMonolith} (h : ctx.monoliths.get? monolithId = some old)
    (room : RoomName) : ∃ ctx', ctx.removeRoom room monolithId = (ctx', .ok ()) := by
  unfold removeRoom
  rw [h]
  exact ⟨_, rfl⟩

/-- It does not matter whether a message is sent before the context is changed or afterwards. -/
theorem withCtx_sendUnload (old : MonolithId) (room : RoomName) (ctx : BalancerContext) :
    (s.sendUnload sends old room).withCtx ctx = (s.withCtx ctx).sendUnload sends old room := by
  unfold sendUnload
  cases sends old <;> rfl

theorem sendUnload_ctx (old : MonolithId) (room : RoomName) :
    (s.sendUnload sends old room).ctx = s.ctx := by
  unfold sendUnload
  cases sends old <;> rfl

theorem unloadSend_replace (old : MonolithId) (room : RoomName) :
    unloadSend s room (.replace old) (sends old) = (s.sendUnload sends old room, .ok ()) := by
  unfold sendUnload
  cases sends old <;> rfl

end Same

/-- **The tested version and the running one come to the same**: the same context, the same messages
to the same monoliths, and the same result. -/
theorem addOrSyncRoom_eq_ctx (s : State) (metadata : RoomMetadata) {monolithId : MonolithId}
    (loadEpoch : LoadEpoch) (h : s.ctx.Connected monolithId) :
    s.addOrSyncRoom sends metadata monolithId loadEpoch =
      s.addOrSyncRoomCtx sends metadata monolithId loadEpoch := by
  obtain ⟨placed, hplace, hstore⟩ := storeRoom_eq_placeRoom (s.ctx) metadata loadEpoch h none
  replace hstore : s.storeRoom metadata monolithId loadEpoch = (s.withCtx placed, .ok ()) :=
    hstore s
  unfold addOrSyncRoom addOrSyncRoomCtx syncRoom
  cases hlocator : s.ctx.roomsToMonoliths.get? metadata.name with
  | none => simp only [hplace, hstore]
  | some locator =>
    dsimp only
    by_cases hsame : locator.monolithId = monolithId
    · simp only [if_pos hsame, hplace, hstore]
    · simp only [if_neg hsame]
      obtain ⟨m, hm⟩ := connected_iff.mp h
      cases compare locator.loadEpoch loadEpoch with
      | eq => rfl
      | lt =>
        simp only [hm, sendUnload, ConflictAction.handle]
        cases sends monolithId <;> rfl
      | gt =>
        cases hold : s.ctx.monoliths.get? locator.monolithId with
        | none => rfl
        | some old =>
          obtain ⟨ctx, hremove⟩ := removeRoom_ok hold metadata.name
          -- taking the room off the other monolith leaves this one connected
          have hconnected : ctx.Connected monolithId := by
            have hkept := removeRoom_connected s.ctx metadata.name locator.monolithId monolithId
            rw [hremove] at hkept
            exact hkept.mpr h
          obtain ⟨placed, hplace, hstore⟩ := storeRoom_eq_placeRoom ctx metadata loadEpoch
            hconnected (some (.replace locator.monolithId))
          simp only [sendUnload_ctx, hremove, hplace, hstore, ConflictAction.handle,
            unloadSend_replace, ← withCtx_sendUnload]

/-- Monolith 1 has the room, and monolith 2 reports an older load of it. -/
def twoLoads : State where
  ctx :=
    let ctx := ((BalancerContext.new "local").addMonolith (.new ⟨1, "local"⟩)).addMonolith
      (.new ⟨2, "local"⟩)
    (ctx.addRoom ⟨"lobby"⟩ ⟨1, 7⟩).1
  outbox := []

theorem addOrSyncRoom_eq_ctx_twoLoads :
    twoLoads.addOrSyncRoom (fun _ => .ok) ⟨⟨"lobby"⟩, .Public, ""⟩ 2 3 =
      twoLoads.addOrSyncRoomCtx (fun _ => .ok) ⟨⟨"lobby"⟩, .Public, ""⟩ 2 3 :=
  addOrSyncRoom_eq_ctx _ _ _ _ (by unfold Connected; decide +kernel)

/-- The room moves to the monolith with the older load, and the other one is told. -/
example : (twoLoads.addOrSyncRoom (fun _ => .ok) ⟨⟨"lobby"⟩, .Public, ""⟩ 2 3).1.outbox =
    [(1, .unload ⟨"lobby"⟩)] := by
  decide +kernel

end State

end OpenTogetherTube.Balancer
