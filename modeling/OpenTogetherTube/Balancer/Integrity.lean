import OpenTogetherTube.Balancer.Segments

/-!
# Referential integrity of the balancer

`join_client` unwraps three lookups: a room that is mapped to a monolith is taken to be on that
monolith. `ReferentialIntegrity` is the invariant those unwraps rely on. This file says, operation
by operation, when it survives:

* removing monoliths, adding and removing rooms, and moving clients always keep it;
* adding a monolith keeps it exactly when nothing is mapped to that monolith's id, because a
  monolith that joins again starts without rooms (`addMonolith_integrity_iff`);
* syncing a reported room keeps it exactly when the reporting monolith is still connected, or an
  older load elsewhere wins (`syncRoom_integrity_iff`), because the locator is stored before the
  monolith is looked up.

`segment_sound_iff` assembles these into the exact condition for one task segment, and
`sound_throughout_iff` lifts it to every run of every interleaving.
-/

namespace OpenTogetherTube.Balancer

open OpenTogetherTube.Lib

namespace BalancerContext

/-- The monolith is connected. -/
def Connected (ctx : BalancerContext) (m : MonolithId) : Prop := ctx.monoliths.contains m = true

/-- The monolith is connected and has the room. -/
def Holds (ctx : BalancerContext) (m : MonolithId) (room : RoomName) : Prop :=
  ∃ mono, ctx.monoliths.get? m = some mono ∧ mono.rooms.contains room = true

/-- Every mapped room is on the monolith it is mapped to. -/
def ReferentialIntegrity (ctx : BalancerContext) : Prop :=
  ∀ room locator, ctx.roomsToMonoliths.get? room = some locator →
    ctx.Holds locator.monolithId room

/-- No room is mapped to the monolith id. -/
def Vacated (ctx : BalancerContext) (m : MonolithId) : Prop :=
  ∀ room locator, ctx.roomsToMonoliths.get? room = some locator → locator.monolithId ≠ m

/-- A monolith's report of a room is safe to apply: the monolith is connected, or the room is mapped
to another monolith by a load that is not newer. -/
def SyncSafe (ctx : BalancerContext) (room : RoomName) (m : MonolithId) (loadEpoch : LoadEpoch) :
    Prop :=
  ctx.Connected m ∨ ∃ locator, ctx.roomsToMonoliths.get? room = some locator ∧
    locator.monolithId ≠ m ∧ locator.loadEpoch ≤ loadEpoch

theorem connected_iff {ctx : BalancerContext} {m : MonolithId} :
    ctx.Connected m ↔ ∃ mono, ctx.monoliths.get? m = some mono := OrderedMap.contains_iff

theorem Holds.connected {ctx : BalancerContext} {m : MonolithId} {room : RoomName}
    (h : ctx.Holds m room) : ctx.Connected m := by
  obtain ⟨mono, hm, -⟩ := h
  exact connected_iff.mpr ⟨mono, hm⟩

/-- An empty routing table has nothing to get wrong. -/
theorem integrity_new (region : Region) : (new region).ReferentialIntegrity := by
  intro room locator h
  rw [new, OrderedMap.get?_empty] at h
  exact absurd h (by simp)

/-! ## What each operation does to `Holds` -/

/-- Replacing one monolith's entry. -/
theorem holds_setMonolith {ctx : BalancerContext} {m m' : MonolithId} {mono : BalancerMonolith}
    {room : RoomName} :
    ({ ctx with monoliths := ctx.monoliths.set m mono } : BalancerContext).Holds m' room ↔
      if m' = m then mono.rooms.contains room = true else ctx.Holds m' room := by
  by_cases h : m' = m
  · simp [Holds, h]
  · simp [Holds, h]

/-- Replacing a monolith by one that has at least its rooms loses no room. -/
theorem Holds.setMonolith {ctx : BalancerContext} {m m' : MonolithId}
    {mono mono' : BalancerMonolith} {room : RoomName} (h : ctx.Holds m' room)
    (hm : ctx.monoliths.get? m = some mono)
    (hrooms : ∀ r, mono.rooms.contains r = true → mono'.rooms.contains r = true) :
    ({ ctx with monoliths := ctx.monoliths.set m mono' } : BalancerContext).Holds m' room := by
  rw [holds_setMonolith]
  by_cases hmm : m' = m
  · rw [if_pos hmm]
    obtain ⟨mono₀, hm₀, hr⟩ := h
    rw [hmm, hm] at hm₀
    cases hm₀
    exact hrooms room hr
  · rw [if_neg hmm]
    exact h

/-! ## Monoliths -/

/-- **A monolith may join exactly when no room is mapped to its id.** -/
theorem addMonolith_integrity_iff {ctx : BalancerContext} (hctx : ctx.ReferentialIntegrity)
    (m : NewMonolith) :
    (ctx.addMonolith (BalancerMonolith.new m)).ReferentialIntegrity ↔ ctx.Vacated m.id := by
  have hholds : ∀ m' room, (ctx.addMonolith (BalancerMonolith.new m)).Holds m' room ↔
      m' ≠ m.id ∧ ctx.Holds m' room := by
    intro m' room
    by_cases h : m' = m.id <;> simp [Holds, addMonolith, BalancerMonolith.new, h]
  constructor
  · intro h room locator hl
    exact ((hholds _ _).mp (h room locator hl)).1
  · intro h room locator hl
    exact (hholds _ _).mpr ⟨h room locator hl, hctx room locator hl⟩

/-- Removing a monolith unmaps its rooms. -/
theorem removeMonolith_integrity {ctx : BalancerContext} (hctx : ctx.ReferentialIntegrity)
    (m : MonolithId) : (ctx.removeMonolith m).ReferentialIntegrity := by
  intro room locator hl
  have hkeep : ctx.roomsToMonoliths.get? room = some locator ∧ locator.monolithId ≠ m := by
    simpa [removeMonolith, OrderedMap.get?_retain_eq_some] using hl
  obtain ⟨mono, hm, hr⟩ := hctx room locator hkeep.1
  exact ⟨mono, by simp [removeMonolith, hkeep.2, hm], hr⟩

/-! ## Rooms -/

/-- Adding a room maps it to a connected monolith, which has the room whether or not it had it
before. -/
theorem addRoom_integrity {ctx : BalancerContext} (hctx : ctx.ReferentialIntegrity)
    (room : RoomName) (locator : RoomLocator) :
    (ctx.addRoom room locator).1.ReferentialIntegrity := by
  cases hm : ctx.monoliths.get? locator.monolithId with
  | none => simpa [addRoom, hm] using hctx
  | some mono =>
    rcases mono.addRoom_cases room with ⟨hc, hadd⟩ | ⟨hc, hadd⟩
    · -- refused: the room was there already
      simp only [addRoom, hm, hadd]
      intro r l hl
      rw [OrderedMap.get?_set] at hl
      split at hl
      · next hr => cases hl; exact ⟨mono, hm, hr ▸ hc⟩
      · exact hctx r l hl
    · simp only [addRoom, hm, hadd]
      intro r l hl
      rw [OrderedMap.get?_set] at hl
      have hsuper : ∀ r, mono.rooms.contains r = true →
          (mono.rooms.set room (Room.new room)).contains r = true := by
        intro r hr; simp [hr]
      split at hl
      · next hr =>
        cases hl
        exact holds_setMonolith.mpr (by simp [hr])
      · exact Holds.setMonolith (hctx r l hl) hm hsuper

/-- Removing a room from a monolith takes the mapping along if it pointed there. -/
theorem removeRoom_integrity {ctx : BalancerContext} (hctx : ctx.ReferentialIntegrity)
    (room : RoomName) (m : MonolithId) : (ctx.removeRoom room m).1.ReferentialIntegrity := by
  cases hm : ctx.monoliths.get? m with
  | none => simpa [removeRoom, hm] using hctx
  | some mono =>
    simp only [removeRoom, hm]
    intro r l hl
    -- what is still mapped was mapped before, and not as `room` on `m`
    have hbefore : ctx.roomsToMonoliths.get? r = some l ∧ ¬ (r = room ∧ l.monolithId = m) := by
      cases hloc : ctx.roomsToMonoliths.get? room with
      | none =>
        rw [hloc] at hl
        refine ⟨hl, fun h => ?_⟩
        rw [h.1, hloc] at hl
        exact absurd hl (by simp)
      | some loc =>
        rw [hloc] at hl
        by_cases heq : loc.monolithId = m
        · simp only [heq, if_true, OrderedMap.get?_erase] at hl
          split at hl
          · exact absurd hl (by simp)
          · next hne => exact ⟨hl, fun h => hne h.1⟩
        · simp only [heq, if_false] at hl
          refine ⟨hl, fun h => ?_⟩
          rw [h.1, hloc] at hl
          cases hl
          exact heq h.2
    refine holds_setMonolith.mpr ?_
    split
    · next hlm =>
      obtain ⟨mono₀, hm₀, hr⟩ := hctx r l hbefore.1
      rw [hlm, hm] at hm₀
      cases hm₀
      have hne : r ≠ room := fun h => hbefore.2 ⟨h, hlm⟩
      simp [hne, hr]
    · exact hctx r l hbefore.1

/-- Removing a room disconnects nobody. -/
theorem removeRoom_connected (ctx : BalancerContext) (room : RoomName) (m m' : MonolithId) :
    (ctx.removeRoom room m).1.Connected m' ↔ ctx.Connected m' := by
  cases hm : ctx.monoliths.get? m with
  | none => simp [removeRoom, hm]
  | some mono =>
    simp only [removeRoom, hm, Connected, OrderedMap.contains_set, Bool.or_eq_true,
      decide_eq_true_eq]
    constructor
    · rintro (h | h)
      · rw [h]; exact OrderedMap.contains_iff.mpr ⟨mono, hm⟩
      · exact h
    · exact Or.inr

/-- **A room may be placed exactly on a connected monolith**: the locator is stored in any case. -/
theorem placeRoom_integrity_iff {ctx : BalancerContext} (hctx : ctx.ReferentialIntegrity)
    (room : RoomMetadata) (m : MonolithId) (loadEpoch : LoadEpoch)
    (conflict : Option ConflictAction) :
    (ctx.placeRoom room m loadEpoch conflict).1.ReferentialIntegrity ↔ ctx.Connected m := by
  cases hm : ctx.monoliths.get? m with
  | none =>
    have hnot : ¬ ctx.Connected m := by
      rw [connected_iff, hm]; simp
    refine iff_of_false (fun h => ?_) hnot
    simp only [placeRoom, hm] at h
    obtain ⟨mono, hmono, -⟩ := h room.name ⟨m, loadEpoch⟩ (by simp)
    rw [show ctx.monoliths.get? m = none from hm] at hmono
    exact absurd hmono (by simp)
  | some mono =>
    refine iff_of_true ?_ (connected_iff.mpr ⟨mono, hm⟩)
    obtain ⟨mono', hok, -, -, hrooms⟩ := mono.addOrSyncRoom_ok room
    simp only [placeRoom, hm, hok]
    intro r l hl
    rw [OrderedMap.get?_set] at hl
    split at hl
    · next hr =>
      cases hl
      exact holds_setMonolith.mpr (by simp [hrooms, hr])
    · exact (hctx r l hl).setMonolith hm (fun r hr => by simp [hrooms, hr])

/-- **A report keeps the routing table sound exactly when it is safe to apply.** -/
theorem syncRoom_integrity_iff {ctx : BalancerContext} (hctx : ctx.ReferentialIntegrity)
    (room : RoomMetadata) (m : MonolithId) (loadEpoch : LoadEpoch) :
    (ctx.syncRoom room m loadEpoch).1.ReferentialIntegrity ↔ ctx.SyncSafe room.name m loadEpoch := by
  unfold syncRoom SyncSafe
  cases hl : ctx.roomsToMonoliths.get? room.name with
  | none => simpa using placeRoom_integrity_iff hctx room m loadEpoch none
  | some locator =>
    by_cases hm : locator.monolithId = m
    · simpa [hm] using placeRoom_integrity_iff hctx room m loadEpoch none
    · simp only [hm, if_false]
      rcases lt_trichotomy locator.loadEpoch loadEpoch with hlt | heq | hgt
      · -- the known load is older: nothing is written
        rw [compare_lt_iff_lt.mpr hlt]
        have hsafe : ctx.Connected m ∨ ∃ l, some locator = some l ∧ l.monolithId ≠ m ∧
            l.loadEpoch ≤ loadEpoch := .inr ⟨locator, rfl, hm, hlt.le⟩
        refine iff_of_true ?_ hsafe
        dsimp only
        split <;> exact hctx
      · rw [compare_eq_iff_eq.mpr heq]
        exact iff_of_true hctx (.inr ⟨locator, rfl, hm, heq.le⟩)
      · -- the known load is newer: it is replaced
        rw [compare_gt_iff_gt.mpr hgt]
        obtain ⟨old, hold, -⟩ := hctx room.name locator hl
        have hremoved := removeRoom_integrity hctx room.name locator.monolithId
        have hconn := removeRoom_connected ctx room.name locator.monolithId m
        have hok : ctx.removeRoom room.name locator.monolithId =
            ((ctx.removeRoom room.name locator.monolithId).1, .ok ()) := by
          simp only [removeRoom, hold]
        simp only [hold]
        rw [hok]
        dsimp only
        rw [placeRoom_integrity_iff hremoved, hconn]
        constructor
        · exact Or.inl
        · rintro (h | ⟨l, hll, -, hle⟩)
          · exact h
          · cases hll; exact absurd hle (not_le.mpr hgt)

/-! ## Clients -/

/-- Moving clients in and out of a monolith's rooms takes no room away. -/
theorem setMonolith_integrity {ctx : BalancerContext} (hctx : ctx.ReferentialIntegrity)
    {m : MonolithId} {mono mono' : BalancerMonolith} (hm : ctx.monoliths.get? m = some mono)
    (hrooms : ∀ r, mono.rooms.contains r = true → mono'.rooms.contains r = true)
    (clients : OrderedMap ClientId BalancerClient) :
    ({ ctx with monoliths := ctx.monoliths.set m mono', clients := clients } :
      BalancerContext).ReferentialIntegrity := by
  intro r l hl
  exact (hctx r l hl).setMonolith hm hrooms

end BalancerContext

open BalancerContext

/-! ## One segment

A task segment is **sound** when it leaves the routing table intact and does not panic. -/

/-- The routing table is intact and no unwrap has failed. -/
def Sound (p : Pool State Task TaskEnd) : Prop :=
  p.shared.ctx.ReferentialIntegrity ∧ TaskEnd.panic ∉ p.results

/-- A segment's outcome is sound. -/
def SoundOutcome (r : State × Progress Task TaskEnd) : Prop :=
  r.1.ctx.ReferentialIntegrity ∧ r.2 ≠ .done .panic

/-- What a task needs of the context at its next critical section. Most need nothing; a monolith
that joins needs its id to be vacant, a report needs to be safe, and a gossip message or a broadcast
needs its monolith to be still there. -/
def SegmentOk (ctx : BalancerContext) : Task → Answer → Prop
  | .joinMonolith m, .lockHandOver receiverOpen => receiverOpen = true → ctx.Vacated m.id
  | .loaded m room loadEpoch, .lock => ctx.SyncSafe room.name m loadEpoch
  | .gossip m _, .lockListing _ => ctx.Connected m
  | .gossipSync m room _ _, .lock => ctx.SyncSafe room.room.name m room.loadEpoch
  | .roomMsg m _ none, .lockHandOver _ => ctx.Connected m
  | _, _ => True

/-- Under the invariant the three unwraps of `join_client` find what they look up. -/
theorem joinReserve_sound {s : State} (hs : s.ctx.ReferentialIntegrity) {c : NewClient}
    {selected : Option MonolithId} {r : State × Progress Task TaskEnd}
    (h : joinReserve s c selected = some r) : SoundOutcome r := by
  unfold joinReserve at h
  cases hl : s.ctx.roomsToMonoliths.get? c.room with
  | some locator =>
    obtain ⟨mono, hm, hroom⟩ := hs c.room locator hl
    obtain ⟨room, hr⟩ := OrderedMap.contains_iff.mp hroom
    simp only [hl, hm, hr, Option.some.injEq] at h
    subst h
    exact ⟨hs, by simp⟩
  | none =>
    simp only [hl] at h
    split at h
    · cases selected with
      | none => cases h; exact ⟨hs, by simp⟩
      | some m =>
        have hadd := addRoom_integrity hs c.room ⟨m, u32Max⟩
        dsimp only at h
        split at h
        · next ctx e heq => cases h; rw [heq] at hadd; exact ⟨hadd, by simp⟩
        · next ctx heq =>
          -- a room was added, so its monolith is there
          have hconn : ∃ mono, ctx.monoliths.get? m = some mono := by
            unfold addRoom at heq
            cases hm : s.ctx.monoliths.get? m with
            | none => simp [hm] at heq
            | some mono =>
              rcases mono.addRoom_cases c.room with ⟨-, hr⟩ | ⟨-, hr⟩
              · simp [hm, hr] at heq
              · simp only [hm, hr, Prod.mk.injEq] at heq
                rw [← heq.1]
                exact ⟨_, (OrderedMap.get?_set _ _ _ _).trans (if_pos rfl)⟩
          obtain ⟨mono, hm⟩ := hconn
          rw [heq] at hadd
          simp only [hm, Option.some.injEq] at h
          subst h
          exact ⟨hadd, by simp⟩
    · cases h

theorem joinRegister_sound {s : State} (hs : s.ctx.ReferentialIntegrity) {c : NewClient}
    {m : MonolithId} {receiverOpen : Bool} {r : State × Progress Task TaskEnd}
    (h : joinRegister s c m receiverOpen = some r) : SoundOutcome r := by
  unfold joinRegister at h
  cases hm : s.ctx.monoliths.get? m with
  | none =>
    simp only [hm, Option.some.injEq] at h
    subst h
    exact ⟨hs, by simp⟩
  | some mono =>
    simp only [hm, Option.some.injEq] at h
    subst h
    refine ⟨setMonolith_integrity hs hm (fun r hr => by simp [hr]) _, ?_⟩
    dsimp only
    split <;> simp

theorem leaveRemove_sound {s : State} (hs : s.ctx.ReferentialIntegrity) {id : ClientId}
    {r : State × Progress Task TaskEnd} (h : leaveRemove s id = some r) : SoundOutcome r := by
  unfold leaveRemove at h
  cases hc : s.ctx.clients.get? id with
  | none =>
    simp only [hc, Option.some.injEq] at h
    subst h
    exact ⟨hs, by simp⟩
  | some removed =>
    simp only [hc] at h
    cases hl : s.ctx.roomsToMonoliths.get? removed.room with
    | none =>
      simp only [hl, Option.some.injEq] at h
      subst h
      exact ⟨hs, by simp⟩
    | some locator =>
      obtain ⟨mono, hm, -⟩ := hs removed.room locator hl
      simp only [hl, hm, Option.some.injEq] at h
      subst h
      exact ⟨setMonolith_integrity hs hm (fun r hr => by simp [hr]) _, by simp⟩

theorem joinAbandon_sound {s : State} (hs : s.ctx.ReferentialIntegrity) {c : NewClient}
    {m : MonolithId} {shouldCreateRoom badMonolith : Bool} {r : State × Progress Task TaskEnd}
    (h : joinAbandon s c m shouldCreateRoom badMonolith = some r) : SoundOutcome r := by
  cases h
  refine ⟨?_, by simp⟩
  have hroom := removeRoom_integrity hs c.room m
  cases shouldCreateRoom <;> cases badMonolith <;>
    simp [hs, hroom, removeMonolith_integrity hs, removeMonolith_integrity hroom]

theorem gossipNext_ne_panic (m : MonolithId) (rooms : List GossipRoom) (toRemove : List RoomName) :
    gossipNext m rooms toRemove ≠ .done .panic := by
  cases rooms <;> cases toRemove <;> simp [gossipNext]

/-- A report's critical section is sound exactly when the report is safe to apply. -/
theorem loaded_sound_iff {s : State} (hs : s.ctx.ReferentialIntegrity) {m : MonolithId}
    {room : RoomMetadata} {loadEpoch : LoadEpoch} {r : State × Progress Task TaskEnd}
    (h : loaded s m room loadEpoch = some r) :
    SoundOutcome r ↔ s.ctx.SyncSafe room.name m loadEpoch := by
  rw [← syncRoom_integrity_iff hs]
  unfold loaded at h
  split at h <;> next heq => cases h; simp [SoundOutcome, heq]

theorem gossipSync_sound_iff {s : State} (hs : s.ctx.ReferentialIntegrity) {m : MonolithId}
    {room : GossipRoom} {rooms : List GossipRoom} {toRemove : List RoomName}
    {r : State × Progress Task TaskEnd} (h : gossipSync s m room rooms toRemove = some r) :
    SoundOutcome r ↔ s.ctx.SyncSafe room.room.name m room.loadEpoch := by
  rw [← syncRoom_integrity_iff hs]
  unfold gossipSync at h
  split at h <;> next heq => cases h; simp [SoundOutcome, heq, gossipNext_ne_panic]

theorem gossip_sound_iff {s : State} (hs : s.ctx.ReferentialIntegrity) {m : MonolithId}
    {rooms : List GossipRoom} {toRemove : List RoomName} {r : State × Progress Task TaskEnd}
    (h : gossip s m rooms toRemove = some r) : SoundOutcome r ↔ s.ctx.Connected m := by
  rw [connected_iff]
  unfold gossip at h
  cases hm : s.ctx.monoliths.get? m with
  | none =>
    simp only [hm, Option.some.injEq] at h
    subst h
    simp [SoundOutcome]
  | some mono =>
    simp only [hm] at h
    split at h
    · cases h
      exact iff_of_true ⟨hs, gossipNext_ne_panic m rooms toRemove⟩ ⟨mono, rfl⟩
    · cases h

theorem roomMsg_broadcast_sound_iff {s : State} (hs : s.ctx.ReferentialIntegrity) {m : MonolithId}
    {room : RoomName} {receiverOpen : Bool} {r : State × Progress Task TaskEnd}
    (h : roomMsg s m room receiverOpen none = some r) :
    SoundOutcome r ↔ s.ctx.Connected m := by
  rw [connected_iff]
  unfold roomMsg at h
  cases hm : s.ctx.monoliths.get? m with
  | none =>
    simp only [hm, Option.some.injEq] at h
    subst h
    simp [SoundOutcome]
  | some mono =>
    refine iff_of_true ?_ ⟨mono, rfl⟩
    simp only [hm] at h
    split at h <;> cases h
    · exact ⟨hs, by simp⟩
    · refine ⟨hs, ?_⟩
      dsimp only
      split <;> simp

/-- A message for one client looks at the clients only. -/
theorem roomMsg_unicast_sound {s : State} (hs : s.ctx.ReferentialIntegrity) {m : MonolithId}
    {room : RoomName} {receiverOpen : Bool} {client : ClientId} {r : State × Progress Task TaskEnd}
    (h : roomMsg s m room receiverOpen (some client) = some r) : SoundOutcome r := by
  simp only [roomMsg] at h
  split at h <;> cases h <;> exact ⟨hs, by simp⟩

/-- **The exact condition for one segment**: run on an intact routing table, it leaves the table
intact and does not panic if and only if the context meets what the task needs. -/
theorem segment_sound_iff {s : State} (hs : s.ctx.ReferentialIntegrity) {task : Task} {x : Answer}
    {r : State × Progress Task TaskEnd} (h : resume task x s = some r) :
    SoundOutcome r ↔ SegmentOk s.ctx task x := by
  unfold resume at h
  split at h
  case h_1 c selected => exact iff_of_true (joinReserve_sound hs h) trivial
  case h_2 c m shouldCreateRoom res =>
    refine iff_of_true ?_ trivial
    cases res with
    | serde => cases shouldCreateRoom <;> cases h <;> exact ⟨hs, by simp⟩
    | ok => cases h; exact ⟨hs, by simp⟩
    | timeout => cases h; exact ⟨hs, by simp⟩
  case h_3 c m receiverOpen => exact iff_of_true (joinRegister_sound hs h) trivial
  case h_4 c m shouldCreateRoom badMonolith => exact iff_of_true (joinAbandon_sound hs h) trivial
  case h_5 id => exact iff_of_true (leaveRemove_sound hs h) trivial
  case h_6 id m res =>
    refine iff_of_true ?_ trivial
    cases res <;> cases h <;> exact ⟨hs, by simp⟩
  case h_7 m => cases h; exact iff_of_true ⟨removeMonolith_integrity hs m, by simp⟩ trivial
  case h_8 m receiverOpen =>
    cases receiverOpen with
    | true =>
      cases h
      simpa [SoundOutcome, SegmentOk] using addMonolith_integrity_iff hs m
    | false => cases h; simpa [SoundOutcome, SegmentOk] using hs
  case h_9 m => cases h; exact iff_of_true ⟨removeMonolith_integrity hs m, by simp⟩ trivial
  case h_10 m room loadEpoch => exact loaded_sound_iff hs h
  case h_11 m room conflict res =>
    refine iff_of_true ?_ trivial
    have hctx := unloadSend_ctx s room conflict res
    unfold loadedSend at h
    split at h <;> next heq => rw [heq] at hctx; cases h; exact ⟨hctx ▸ hs, by simp⟩
  case h_12 m room =>
    refine iff_of_true ?_ trivial
    have hroom := removeRoom_integrity hs room m
    unfold unloaded at h
    split at h <;> next heq => rw [heq] at hroom; cases h; exact ⟨hroom, by simp⟩
  case h_13 m rooms toRemove => exact gossip_sound_iff hs h
  case h_14 m room rooms toRemove => exact gossipSync_sound_iff hs h
  case h_15 m room conflict rooms toRemove res =>
    refine iff_of_true ?_ trivial
    have hctx := unloadSend_ctx s room conflict res
    unfold gossipSend at h
    split at h <;> next heq =>
      rw [heq] at hctx; cases h; exact ⟨hctx ▸ hs, by simp [gossipNext_ne_panic]⟩
  case h_16 m room rooms toRemove =>
    cases h
    exact iff_of_true ⟨removeRoom_integrity hs room m, gossipNext_ne_panic m rooms toRemove⟩ trivial
  case h_17 m room toRemove =>
    cases h
    exact iff_of_true ⟨removeRoom_integrity hs room m, gossipNext_ne_panic m [] toRemove⟩ trivial
  case h_18 m room client receiverOpen =>
    cases client with
    | none => exact roomMsg_broadcast_sound_iff hs h
    | some client => exact iff_of_true (roomMsg_unicast_sound hs h) trivial
  case h_19 client res =>
    refine iff_of_true ?_ trivial
    cases res <;> cases h <;> exact ⟨hs, by simp⟩
  case h_20 client =>
    refine iff_of_true ?_ trivial
    simp only [kick] at h
    split at h <;> cases h <;> exact ⟨hs, by simp⟩
  case h_21 client res =>
    refine iff_of_true ?_ trivial
    cases res <;> cases h <;> exact ⟨hs, by simp⟩
  case h_22 => cases h

/-! ## Every run -/

/-- What a scheduling step needs: the task that runs finds what it needs. -/
def StepOk (p : Pool State Task TaskEnd) : PoolEvent Call Answer Empty → Prop
  | .call _ => True
  | .answer i x => ∀ task, p.tasks[i]? = some (.waiting task) → SegmentOk p.shared.ctx task x
  | .external e => nomatch e

theorem init_sound (region : Region) : Sound (init region) :=
  ⟨integrity_new region, by simp [init, Pool.idle, Pool.results]⟩

/-- Starting a task touches nothing; a segment keeps the pool sound exactly if it is sound. -/
theorem step_sound_iff {p p' : Pool State Task TaskEnd} {e : PoolEvent Call Answer Empty}
    (hp : Sound p) (h : balancer.machine.step p e = some p') : Sound p' ↔ StepOk p e := by
  rcases Program.step_cases h with ⟨c, rfl, rfl⟩ | ⟨i, x, task, s, pr, rfl, ht, hr, rfl⟩ |
    ⟨ev, -, -, -, -⟩
  · refine iff_of_true ⟨hp.1, ?_⟩ trivial
    rw [Pool.mem_results, List.mem_append]
    rintro (h | h)
    · exact hp.2 (Pool.mem_results.mpr h)
    · simp [balancer] at h
  · have hstep : Sound ⟨s, p.tasks.set i pr⟩ ↔ SoundOutcome (s, pr) := by
      unfold Sound SoundOutcome
      refine and_congr_right (fun _ => ?_)
      rw [Pool.mem_results]
      constructor
      · rintro hno rfl
        obtain ⟨hi, -⟩ := List.getElem?_eq_some_iff.mp ht
        exact hno (List.mem_set hi _)
      · intro hne hmem
        rcases List.mem_or_eq_of_mem_set hmem with hold | hnew
        · exact hp.2 (Pool.mem_results.mpr hold)
        · exact hne hnew.symm
    rw [hstep, segment_sound_iff hp.1 hr]
    simp [StepOk, ht]
  · exact ev.elim

/-- **The routing table stays intact and no unwrap fails throughout a run if and only if every
segment of it finds what it needs**: each monolith id that joins is vacant, each room report comes
from a monolith that is still connected or loses against an older load, and each gossip message and
broadcast is handled while its monolith is there. -/
theorem sound_throughout_iff (region : Region) (es : List (PoolEvent Call Answer Empty)) :
    balancer.machine.Always Sound (init region) es ↔
      balancer.machine.Along StepOk (init region) es :=
  Machine.always_iff_along (fun _ _ _ hp h => step_sound_iff hp h) (init_sound region)

/-! ## The message that outlives its monolith -/

/-- A monolith joins and reports a room. Before the report's task gets the lock the monolith leaves,
so the report maps the room to nobody, and the next client of the room meets the unwrap. -/
def lateReport : List (PoolEvent Call Answer Empty) :=
  let room := RoomName.ofString "foo"
  [.call (.joinMonolith ⟨1, "local"⟩), .answer 0 (.lockHandOver true),
   .call (.loaded 1 ⟨room, .Public, ""⟩ 0), .call (.leaveMonolith 1), .answer 2 .lock,
   .answer 1 .lock,
   .call (.joinClient ⟨7, room, "local", "token"⟩), .answer 3 (.lockSelecting none)]

theorem lateReport_panics :
    (balancer.machine.run (init "local") lateReport).map Pool.results =
      some [.ok, .err .monolithNotFound, .ok, .panic] := by
  decide +kernel

/-- **The balancer does not stay sound along every run.** -/
theorem not_sound_throughout :
    ¬ ∀ region es, balancer.machine.Always Sound (init region) es := by
  intro h
  obtain ⟨p, hp, hres⟩ := Option.map_eq_some_iff.mp lateReport_panics
  have hsound : Sound p := (h "local" lateReport).last hp
  exact hsound.2 (by rw [hres]; decide)

end OpenTogetherTube.Balancer
