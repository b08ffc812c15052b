import OpenTogetherTube.Lib.Registry
import OpenTogetherTube.Balancer.OneRoom
import OpenTogetherTube.Balancer.Segments

/-!
# The context as a registry of clients

The balancer writes down twice in which room a client is: with the client, and in the list of the
room's clients on its monolith. `directory` reads a context as a registry, with the clients for
members, the rooms for groups and the monoliths for hosts. Every operation of the context is a change
of the registry, and `segment_directory` says which one each segment makes.
-/

namespace OpenTogetherTube.Balancer

open OpenTogetherTube.Lib Registry

abbrev Directory := Registry ClientId RoomName MonolithId

/-- Whom the monolith lists in the room. -/
def BalancerMonolith.listed (m : BalancerMonolith) (room : RoomName) : List ClientId :=
  ((m.rooms.get? room).map Room.clients).getD []

namespace BalancerMonolith

variable (m : BalancerMonolith) (room r : RoomName)

@[simp] theorem listed_new (m : NewMonolith) : (BalancerMonolith.new m).listed r = [] := rfl

@[simp] theorem listed_removeRoom :
    (m.removeRoom room).listed r = if r = room then [] else m.listed r := by
  unfold listed removeRoom
  rw [OrderedMap.get?_erase]
  split <;> rfl

@[simp] theorem listed_addClient (client : ClientId) :
    (m.addClient room client).listed r =
      if r = room then m.listed r ++ [client] else m.listed r := by
  unfold listed addClient
  rw [OrderedMap.get?_set]
  split
  · next h =>
    subst h
    cases m.rooms.get? r <;> rfl
  · rfl

@[simp] theorem listed_removeClient (client : ClientId) :
    (m.removeClient client).listed r = (m.listed r).filter (fun c => c ≠ client) := by
  unfold listed removeClient
  rw [OrderedMap.get?_mapValues]
  cases m.rooms.get? r <;> rfl

theorem listed_setRoomMetadata (metadata : RoomMetadata) :
    (m.setRoomMetadata metadata).listed r = m.listed r := by
  unfold listed setRoomMetadata
  rw [OrderedMap.get?_adjust]
  split
  · cases m.rooms.get? r <;> rfl
  · rfl

/-- A room that is new has no clients. -/
theorem listed_set_new (h : m.rooms.contains room = false) :
    BalancerMonolith.listed { m with rooms := m.rooms.set room (Room.new room) } r =
      m.listed r := by
  unfold listed
  rw [OrderedMap.get?_set]
  split
  · next heq =>
    subst heq
    cases hr : m.rooms.get? r with
    | none => rfl
    | some found => simp [OrderedMap.contains, hr] at h
  · rfl

theorem listed_addOrSyncRoom {metadata : RoomMetadata} {m' : BalancerMonolith}
    (h : m.addOrSyncRoom metadata = .ok m') : m'.listed r = m.listed r := by
  unfold addOrSyncRoom at h
  split at h
  · cases h
    exact m.listed_setRoomMetadata r metadata
  · next hroom =>
    rcases m.addRoom_cases metadata.name with ⟨hc, -⟩ | ⟨hc, hadd⟩
    · exact absurd hc hroom
    · rw [hadd] at h
      cases h
      rw [listed_setRoomMetadata, listed_set_new _ _ _ hc]

end BalancerMonolith

namespace BalancerContext

/-- The context, read as a registry of clients. -/
def directory (ctx : BalancerContext) : Directory where
  group c := (ctx.clients.get? c).map BalancerClient.room
  host r := (ctx.roomsToMonoliths.get? r).map RoomLocator.monolithId
  listed m r := ((ctx.monoliths.get? m).map (fun mono => mono.listed r)).getD []

variable (ctx : BalancerContext)

theorem listed_of_get? {m : MonolithId} {mono : BalancerMonolith}
    (h : ctx.monoliths.get? m = some mono) (r : RoomName) :
    ctx.directory.listed m r = mono.listed r := by
  simp [directory, h]

theorem connected_or_none (m : MonolithId) :
    (∃ mono, ctx.monoliths.get? m = some mono ∧ ctx.Connected m) ∨
      (ctx.monoliths.get? m = none ∧ ¬ ctx.Connected m) := by
  cases hm : ctx.monoliths.get? m with
  | none =>
    refine .inr ⟨rfl, ?_⟩
    rw [connected_iff, hm]
    simp
  | some mono => exact .inl ⟨mono, rfl, connected_iff.mpr ⟨mono, hm⟩⟩

/-! ## The operations -/

theorem directory_addMonolith (m : NewMonolith) :
    (ctx.addMonolith (BalancerMonolith.new m)).directory = ctx.directory.reset m.id := by
  ext1
  · rfl
  · rfl
  · funext m' r
    show (((ctx.monoliths.set m.id (BalancerMonolith.new m)).get? m').map _).getD [] =
      if m' = m.id then [] else ctx.directory.listed m' r
    rw [OrderedMap.get?_set]
    split <;> rfl

theorem directory_removeMonolith (m : MonolithId) :
    (ctx.removeMonolith m).directory = ctx.directory.abandon m := by
  have hhost : ∀ r, (ctx.removeMonolith m).directory.host r =
      (ctx.directory.host r).filter (fun m' => m' ≠ m) := by
    intro r
    ext m'
    simp only [directory, removeMonolith, Option.map_eq_some_iff, Option.filter_eq_some_iff,
      OrderedMap.get?_retain_eq_some, decide_eq_true_eq]
    constructor
    · rintro ⟨l, ⟨hl, hne⟩, rfl⟩
      exact ⟨⟨l, hl, rfl⟩, hne⟩
    · rintro ⟨⟨l, hl, rfl⟩, hne⟩
      exact ⟨l, ⟨hl, hne⟩, rfl⟩
  ext1
  · funext c
    ext r
    have hmapped : ∀ r, (ctx.roomsToMonoliths.retain
        (fun e => e.2.monolithId ≠ m)).contains r =
          ((ctx.directory.host r).filter (fun m' => m' ≠ m)).isSome := by
      intro r
      rw [← hhost r]
      simp [directory, removeMonolith, OrderedMap.contains]
    simp only [directory, removeMonolith, abandon, Option.map_eq_some_iff,
      Option.filter_eq_some_iff, OrderedMap.get?_retain_eq_some]
    constructor
    · rintro ⟨client, ⟨hclient, hroom⟩, rfl⟩
      exact ⟨⟨client, hclient, rfl⟩, (hmapped client.room).symm.trans hroom⟩
    · rintro ⟨⟨client, hclient, rfl⟩, hroom⟩
      exact ⟨client, ⟨hclient, (hmapped client.room).trans hroom⟩, rfl⟩
  · funext r
    exact hhost r
  · funext m' r
    simp only [directory, removeMonolith, abandon, OrderedMap.get?_erase]
    split <;> rfl

/-- Replacing a monolith's entry. -/
theorem listed_setMonolith (m m' : MonolithId) (mono : BalancerMonolith) (r : RoomName) :
    ({ ctx with monoliths := ctx.monoliths.set m mono } : BalancerContext).directory.listed m' r =
      if m' = m then mono.listed r else ctx.directory.listed m' r := by
  simp only [directory, OrderedMap.get?_set]
  split <;> rfl

theorem host_setLocator (room : RoomName) (l : RoomLocator) (r : RoomName) :
    ((ctx.roomsToMonoliths.set room l).get? r).map RoomLocator.monolithId =
      if r = room then some l.monolithId else ctx.directory.host r := by
  rw [OrderedMap.get?_set]
  split <;> rfl

theorem directory_addRoom (room : RoomName) (locator : RoomLocator) :
    (ctx.Connected locator.monolithId ∧
      (ctx.addRoom room locator).1.directory = ctx.directory.assign room locator.monolithId) ∨
    (¬ ctx.Connected locator.monolithId ∧
      ctx.addRoom room locator = (ctx, .error .monolithNotFound)) := by
  obtain ⟨mono, hm, hconnected⟩ | ⟨hm, hnot⟩ := ctx.connected_or_none locator.monolithId
  · refine .inl ⟨hconnected, ?_⟩
    have hhost := ctx.host_setLocator room locator
    rcases mono.addRoom_cases room with ⟨-, hadd⟩ | ⟨hc, hadd⟩
    · simp only [addRoom, hm, hadd]
      ext1
      · rfl
      · funext r
        exact hhost r
      · rfl
    · simp only [addRoom, hm, hadd]
      ext1
      · rfl
      · funext r
        exact hhost r
      · funext m' r
        show (((ctx.monoliths.set locator.monolithId _).get? m').map _).getD [] = _
        rw [OrderedMap.get?_set]
        split
        · next h =>
          subst h
          exact (mono.listed_set_new room r hc).trans (ctx.listed_of_get? hm r).symm
        · rfl
  · refine .inr ⟨hnot, ?_⟩
    simp only [addRoom, hm]

theorem directory_removeRoom (room : RoomName) (m : MonolithId) :
    (ctx.Connected m ∧ (ctx.removeRoom room m).1.directory = ctx.directory.close room m) ∨
    (¬ ctx.Connected m ∧ (ctx.removeRoom room m).1 = ctx) := by
  obtain ⟨mono, hm, hconnected⟩ | ⟨hm, hnot⟩ := ctx.connected_or_none m
  · refine .inl ⟨hconnected, ?_⟩
    ext1
    · simp only [removeRoom, hm]
      rfl
    · funext r
      simp only [removeRoom, hm, directory, close]
      cases hl : ctx.roomsToMonoliths.get? room with
      | none =>
        by_cases hr : r = room
        · simp [hr, hl]
        · simp [hr]
      | some locator =>
        by_cases hloc : locator.monolithId = m
        · by_cases hr : r = room
          · simp [hr, hl, hloc]
          · simp [hr, hloc]
        · by_cases hr : r = room
          · simp [hr, hl, hloc]
          · simp [hr, hloc]
    · funext m' r
      simp only [removeRoom, hm]
      refine (ctx.listed_setMonolith m m' (mono.removeRoom room) r).trans ?_
      simp only [close]
      split
      · next h =>
        subst h
        rw [ctx.listed_of_get? hm, BalancerMonolith.listed_removeRoom]
        simp
      · next h => rw [if_neg (fun hh => h hh.1)]
  · refine .inr ⟨hnot, ?_⟩
    simp only [removeRoom, hm]

theorem directory_placeRoom (room : RoomMetadata) (m : MonolithId) (loadEpoch : LoadEpoch)
    (conflict : Option ConflictAction) :
    (ctx.placeRoom room m loadEpoch conflict).1.directory = ctx.directory.assign room.name m := by
  have hhost := ctx.host_setLocator room.name ⟨m, loadEpoch⟩
  obtain ⟨mono, hm, -⟩ | ⟨hm, -⟩ := ctx.connected_or_none m
  · obtain ⟨mono', hok, -⟩ := mono.addOrSyncRoom_ok room
    simp only [placeRoom, hm, hok]
    ext1
    · rfl
    · funext r
      exact hhost r
    · funext m' r
      show (((ctx.monoliths.set m mono').get? m').map _).getD [] = _
      rw [OrderedMap.get?_set]
      split
      · next h =>
        subst h
        exact (mono.listed_addOrSyncRoom r hok).trans (ctx.listed_of_get? hm r).symm
      · rfl
  · simp only [placeRoom, hm]
    ext1
    · rfl
    · funext r
      exact hhost r
    · rfl

/-! ## The segments -/

/-- The change that a report makes, if the context applies it. -/
def reportChange (room : RoomName) (m : MonolithId) (loadEpoch : LoadEpoch) :
    Change ClientId RoomName MonolithId :=
  match ctx.roomsToMonoliths.get? room with
  | none => .assign room m
  | some locator =>
    if locator.monolithId = m then .assign room m
    else if loadEpoch < locator.loadEpoch ∧ ctx.monoliths.contains locator.monolithId then
      .move room locator.monolithId m
    else .keep

/-- The change that taking a room off a monolith makes, if the monolith is there. -/
def closeChange (room : RoomName) (m : MonolithId) : Change ClientId RoomName MonolithId :=
  if ctx.monoliths.contains m then .close room m else .keep

/-- The change that the next segment of a task makes. -/
def change : Task → Answer → Change ClientId RoomName MonolithId
  | .joinReserve c, .lockSelecting (some m) =>
    if (ctx.roomsToMonoliths.get? c.room).isNone ∧ ctx.monoliths.contains m then .assign c.room m
    else .keep
  | .joinRegister c m, .lockHandOver _ =>
    if ctx.monoliths.contains m then .enroll c.id c.room m else .keep
  | .joinAbandon _ m _ true, .lock => .abandon m
  | .joinAbandon c m true false, .lock => ctx.closeChange c.room m
  | .leaveRemove id, .lock => .expel id
  | .leaveAbandon m, .lock => .abandon m
  | .joinMonolith m, .lockHandOver true => .reset m.id
  | .leaveMonolith m, .lock => .abandon m
  | .loaded m room loadEpoch, .lock => ctx.reportChange room.name m loadEpoch
  | .unloaded m room, .lock => ctx.closeChange room m
  | .gossipSync m room _ _, .lock => ctx.reportChange room.room.name m room.loadEpoch
  | .gossipDrop m room _ _, .lock | .gossipRemove m room _, .lock => ctx.closeChange room m
  | _, _ => .keep

theorem meant_reportChange (room : RoomName) (m : MonolithId) (loadEpoch : LoadEpoch) :
    ctx.directory.Meant (ctx.reportChange room m loadEpoch) := by
  unfold reportChange
  split
  · next h => exact .inl (by simp [directory, h])
  · next locator h =>
    have hhost : ctx.directory.host room = some locator.monolithId := by simp [directory, h]
    split
    · next heq => exact .inr (heq ▸ hhost)
    · next hne =>
      split
      · exact ⟨hhost, hne⟩
      · trivial

theorem directory_syncRoom (room : RoomMetadata) (m : MonolithId) (loadEpoch : LoadEpoch) :
    (ctx.syncRoom room m loadEpoch).1.directory =
      ctx.directory.apply (ctx.reportChange room.name m loadEpoch) := by
  unfold reportChange
  obtain ⟨hl | ⟨epoch, hl⟩, h⟩ | ⟨locator, hl, hne, hcases⟩ := syncRoom_cases ctx m room loadEpoch
  · rw [h, hl]
    exact ctx.directory_placeRoom room m loadEpoch none
  · rw [h, hl]
    simp only [if_true]
    exact ctx.directory_placeRoom room m loadEpoch none
  · rw [hl]
    simp only [hne, if_false]
    obtain ⟨hlt, -, h⟩ | ⟨hgt, hconnected, h⟩ | ⟨hstuck, e, h⟩ := hcases
    · rw [h, if_neg (fun hh => absurd hh.1 (not_lt.mpr hlt.le))]
      rfl
    · rw [h, if_pos ⟨hgt, hconnected⟩, directory_placeRoom]
      obtain ⟨-, hclose⟩ | ⟨hnot, -⟩ := ctx.directory_removeRoom room.name locator.monolithId
      · rw [hclose]
        rfl
      · exact absurd hconnected hnot
    · rw [h, if_neg]
      · rfl
      · rintro ⟨hgt, hconnected⟩
        rcases hstuck with heq | ⟨hlt, -⟩ | ⟨-, hnot⟩
        · exact absurd hgt (heq ▸ lt_irrefl _)
        · exact absurd hgt (not_lt.mpr hlt.le)
        · exact hnot hconnected

theorem directory_closed (room : RoomName) (m : MonolithId) :
    (ctx.removeRoom room m).1.directory = ctx.directory.apply (ctx.closeChange room m) := by
  unfold closeChange
  obtain ⟨hconnected, h⟩ | ⟨hnot, h⟩ := ctx.directory_removeRoom room m
  · rw [h, if_pos (show ctx.monoliths.contains m = true from hconnected)]
    rfl
  · rw [h, if_neg (show ¬ ctx.monoliths.contains m = true from hnot)]
    rfl

/-- Taking a room off a monolith that goes makes no difference. -/
theorem directory_removeMonolith_removeRoom (room : RoomName) (m : MonolithId) :
    ((ctx.removeRoom room m).1.removeMonolith m).directory = ctx.directory.abandon m := by
  rw [directory_removeMonolith]
  obtain ⟨-, h⟩ | ⟨-, h⟩ := ctx.directory_removeRoom room m
  · rw [h]
    have hhost : ∀ r, ((ctx.directory.close room m).host r).filter (fun m' => m' ≠ m) =
        (ctx.directory.host r).filter (fun m' => m' ≠ m) := by
      intro r
      simp only [close]
      split
      · next heq => simp [Option.filter, heq.2]
      · rfl
    ext1
    · funext c
      simp only [abandon, hhost]
      rfl
    · funext r
      exact hhost r
    · funext m' r
      simp only [abandon, close]
      split
      · rfl
      · next hne => rw [if_neg (fun hh => hne hh.1)]
  · rw [h]

/-! ### What clients change -/

theorem directory_reserveRoom (c : NewClient) (selected : Option MonolithId) :
    (ctx.reserveRoom c.room selected).directory =
      ctx.directory.apply (ctx.change (.joinReserve c) (.lockSelecting selected)) := by
  unfold reserveRoom
  cases hl : ctx.roomsToMonoliths.get? c.room with
  | some locator =>
    have hkeep : ctx.change (.joinReserve c) (.lockSelecting selected) = .keep := by
      cases selected <;> simp [change, hl]
    rw [hkeep]
    rfl
  | none =>
    cases selected with
    | none => rfl
    | some m =>
      obtain ⟨hconnected, hdir⟩ | ⟨hnot, hdir⟩ := ctx.directory_addRoom c.room ⟨m, u32Max⟩
      · have hchange : ctx.change (.joinReserve c) (.lockSelecting (some m)) =
            .assign c.room m := by
          simp only [change, hl, Option.isNone_none, true_and]
          exact if_pos hconnected
        rw [hchange]
        exact hdir
      · have hchange : ctx.change (.joinReserve c) (.lockSelecting (some m)) = .keep := by
          simp only [change, hl, Option.isNone_none, true_and]
          exact if_neg hnot
        rw [hchange]
        show (ctx.addRoom c.room ⟨m, u32Max⟩).1.directory = ctx.directory
        rw [hdir]

theorem directory_registerClient (c : NewClient) (m : MonolithId) (receiverOpen : Bool) :
    (ctx.registerClient c m).directory =
      ctx.directory.apply (ctx.change (.joinRegister c m) (.lockHandOver receiverOpen)) := by
  unfold registerClient
  obtain ⟨mono, hm, hconnected⟩ | ⟨hm, hnot⟩ := ctx.connected_or_none m
  · rw [hm, change, if_pos (show ctx.monoliths.contains m = true from hconnected)]
    ext1
    · funext c'
      show ((ctx.clients.set c.id (BalancerClient.new c)).get? c').map _ = _
      rw [OrderedMap.get?_set]
      simp only [apply, enroll]
      split <;> rfl
    · rfl
    · funext m' r
      refine (ctx.listed_setMonolith m m' (mono.addClient c.room c.id) r).trans ?_
      simp only [apply, enroll, BalancerMonolith.listed_addClient]
      by_cases hmm : m' = m
      · subst hmm
        simp [ctx.listed_of_get? hm]
      · simp [hmm]
  · rw [hm, change, if_neg (show ¬ ctx.monoliths.contains m = true from hnot)]
    rfl

theorem directory_deregisterClient (id : ClientId) :
    (ctx.deregisterClient id).directory = ctx.directory.expel id := by
  have hgroup : ∀ c, ((ctx.clients.erase id).get? c).map BalancerClient.room =
      (ctx.directory.expel id).group c := by
    intro c
    rw [OrderedMap.get?_erase]
    simp only [expel, directory]
    split <;> rfl
  unfold deregisterClient
  cases hc : ctx.clients.get? id with
  | none =>
    have hsame : ctx.directory.group id = none := by simp [directory, hc]
    ext1
    · funext c
      simp only [expel]
      split
      · next heq => rw [heq, hsame]
      · rfl
    · rfl
    · funext m r
      simp [expel, hsame]
  | some removed =>
    have hroom : ctx.directory.group id = some removed.room := by simp [directory, hc]
    -- nobody to strike out, where the room has no monolith or that is gone
    have hnobody : ∀ m r, ((ctx.directory.group id).bind ctx.directory.host = some m →
        ctx.directory.listed m r = []) →
        (ctx.directory.expel id).listed m r = ctx.directory.listed m r := by
      intro m r hnil
      simp only [expel]
      split
      · next heq => rw [hnil heq, List.filter_nil]
      · rfl
    dsimp only
    cases hl : ctx.roomsToMonoliths.get? removed.room with
    | none =>
      ext1
      · funext c
        exact hgroup c
      · rfl
      · funext m r
        refine (hnobody m r (fun heq => ?_)).symm
        rw [hroom, Option.bind_some] at heq
        simp [directory, hl] at heq
    | some locator =>
      have hhost : (ctx.directory.group id).bind ctx.directory.host =
          some locator.monolithId := by
        rw [hroom, Option.bind_some]
        simp [directory, hl]
      dsimp only
      cases hm : ctx.monoliths.get? locator.monolithId with
      | none =>
        ext1
        · funext c
          exact hgroup c
        · rfl
        · funext m r
          refine (hnobody m r (fun heq => ?_)).symm
          rw [hhost, Option.some.injEq] at heq
          subst heq
          simp [directory, hm]
      | some mono =>
        ext1
        · funext c
          exact hgroup c
        · rfl
        · funext m r
          refine (ctx.listed_setMonolith locator.monolithId m (mono.removeClient id) r).trans ?_
          simp only [expel, hhost, Option.some.injEq, BalancerMonolith.listed_removeClient]
          by_cases heq : m = locator.monolithId
          · subst heq
            simp [ctx.listed_of_get? hm]
          · simp [heq, Ne.symm heq]

end BalancerContext

open BalancerContext

/-! ### All segments -/

/-- **Every segment makes its change.** -/
theorem segment_directory {s s' : State} {task : Task} {x : Answer}
    {progress : Progress Task TaskEnd} (h : resume task x s = some (s', progress)) :
    s'.ctx.directory = s.ctx.directory.apply (s.ctx.change task x) := by
  rw [segment_ctx h]
  unfold resume at h
  split at h
  case h_1 c selected => exact s.ctx.directory_reserveRoom c selected
  case h_3 c m receiverOpen => exact s.ctx.directory_registerClient c m receiverOpen
  case h_4 c m shouldCreateRoom badMonolith =>
    cases shouldCreateRoom <;> cases badMonolith
    · rfl
    · exact s.ctx.directory_removeMonolith m
    · exact s.ctx.directory_closed c.room m
    · exact s.ctx.directory_removeMonolith_removeRoom c.room m
  case h_5 id => exact s.ctx.directory_deregisterClient id
  case h_7 m => exact s.ctx.directory_removeMonolith m
  case h_8 m receiverOpen =>
    cases receiverOpen
    · rfl
    · exact s.ctx.directory_addMonolith m
  case h_9 m => exact s.ctx.directory_removeMonolith m
  case h_10 m room loadEpoch => exact s.ctx.directory_syncRoom room m loadEpoch
  case h_12 m room => exact s.ctx.directory_closed room m
  case h_14 m room rooms toRemove => exact s.ctx.directory_syncRoom room.room m room.loadEpoch
  case h_16 m room rooms toRemove => exact s.ctx.directory_closed room m
  case h_17 m room toRemove => exact s.ctx.directory_closed room m
  case h_22 => cases h
  -- the others only send something, or look something up
  all_goals rfl

end OpenTogetherTube.Balancer
