import OpenTogetherTube.Balancer.OneRoom

/-!
# The oldest load wins

A room that was loaded by several monoliths at once is kept by the one that loaded it first: each
load has an epoch, and the smaller epoch is the older load. Monoliths report their loads in `Loaded`
messages and again in every `Gossip`, in any order and any number of times, and each message is a
task that takes the lock for one room at a time.

`oldestWins_throughout` says that the order does not matter: however the reports are interleaved,
the room is with the oldest of the loads that were reported so far, and with no other. What makes it
so is that the epoch of the load that is known only goes down (`Advances`), so a report that was
rejected stays outdated until its task cleans up.
-/

namespace OpenTogetherTube.Balancer

open OpenTogetherTube.Lib BalancerContext

section Room

variable (r : RoomName) (epochs : MonolithId → LoadEpoch)

/-- What a monolith lists about the room is its own load. -/
def Truthful (m : MonolithId) (rooms : List GossipRoom) : Prop :=
  ∀ room ∈ rooms, room.room.name = r → room.loadEpoch = epochs m

/-- The calls there are: connected monoliths report that they have loaded the room, or that they
have it. -/
def Reporting (ctx : BalancerContext) : Call → Prop
  | .loaded m room loadEpoch => ctx.Connected m ∧ room.name = r ∧ loadEpoch = epochs m
  | .gossip m rooms =>
    ctx.Connected m ∧ (∃ room ∈ rooms, room.room.name = r) ∧ Truthful r epochs m rooms
  | _ => False

/-- Whose report of the room a task applies when it runs next. -/
def appliedBy : Task → List MonolithId
  | .loaded m room _ => if room.name = r then [m] else []
  | .gossipSync m room _ _ => if room.room.name = r then [m] else []
  | _ => []

/-- Whose report a step applies. -/
def appliedReport (p : Pool State Task TaskEnd) : PoolEvent Call Answer Empty → List MonolithId
  | .answer i _ =>
    match p.tasks[i]? with
    | some (.waiting task) => appliedBy r task
    | _ => []
  | _ => []

/-- **The purpose**: the room is with the oldest of the reported loads, and with no other. -/
structure OldestWins (applied : List MonolithId) (ctx : BalancerContext) : Prop where
  unloaded : applied = [] → ctx.roomsToMonoliths.get? r = none ∧ ∀ m, ¬ ctx.Holds m r
  oldest : applied ≠ [] → ∃ m ∈ applied, (∀ m' ∈ applied, epochs m ≤ epochs m') ∧
    ctx.roomsToMonoliths.get? r = some ⟨m, epochs m⟩ ∧ ∀ m', ctx.Holds m' r ↔ m' = m

/-- The monoliths stay, and the load that is known is only replaced by an older one. -/
structure Advances (ctx ctx' : BalancerContext) : Prop where
  connected : ∀ m, ctx'.Connected m ↔ ctx.Connected m
  older : ∀ locator, ctx.roomsToMonoliths.get? r = some locator → ∃ locator',
    ctx'.roomsToMonoliths.get? r = some locator' ∧ locator'.loadEpoch ≤ locator.loadEpoch

/-- An older load than the monolith's is known. -/
def Outdated (ctx : BalancerContext) (m : MonolithId) : Prop :=
  ∃ locator, ctx.roomsToMonoliths.get? r = some locator ∧ locator.loadEpoch < epochs m

/-- What the tasks know. A gossip's task never removes the room, except after its own report was
rejected. -/
def TaskOk (ctx : BalancerContext) : Task → Prop
  | .loaded m room loadEpoch => ctx.Connected m ∧ room.name = r ∧ loadEpoch = epochs m
  | .loadedSend _ _ _ => True
  | .gossip m rooms =>
    ctx.Connected m ∧ (∃ room ∈ rooms, room.room.name = r) ∧ Truthful r epochs m rooms
  | .gossipSync m room rooms toRemove =>
    ctx.Connected m ∧ Truthful r epochs m (room :: rooms) ∧ r ∉ toRemove
  | .gossipSend m room conflict rooms toRemove =>
    ctx.Connected m ∧ Truthful r epochs m rooms ∧ r ∉ toRemove ∧
      (room = r → ∀ handle, conflict = .reject handle → Outdated r epochs ctx m)
  | .gossipDrop m room rooms toRemove =>
    ctx.Connected m ∧ Truthful r epochs m rooms ∧ r ∉ toRemove ∧
      (room = r → Outdated r epochs ctx m)
  | .gossipRemove m room toRemove => ctx.Connected m ∧ room ≠ r ∧ r ∉ toRemove
  | _ => False

/-- The invariant. -/
structure OldestInv (s : Pool State Task TaskEnd × List MonolithId) : Prop where
  wins : OldestWins r epochs s.2 s.1.shared.ctx
  tasks : ∀ task, Progress.waiting task ∈ s.1.tasks → TaskOk r epochs s.1.shared.ctx task
  distinct : ∀ m m', s.1.shared.ctx.Connected m → s.1.shared.ctx.Connected m' →
    epochs m = epochs m' → m = m'

end Room

section Steps

variable {r : RoomName} {epochs : MonolithId → LoadEpoch} {ctx ctx' : BalancerContext}
  {applied : List MonolithId} {m : MonolithId}

theorem Advances.of_same (h : SameRoom r ctx ctx') : Advances r ctx ctx' :=
  ⟨h.connected, fun locator hl => ⟨locator, h.locator.trans hl, le_rfl⟩⟩

theorem Outdated.advance (h : Outdated r epochs ctx m) (hadvance : Advances r ctx ctx') :
    Outdated r epochs ctx' m := by
  obtain ⟨locator, hl, hlt⟩ := h
  obtain ⟨locator', hl', hle⟩ := hadvance.older locator hl
  exact ⟨locator', hl', hle.trans_lt hlt⟩

/-- What a task knows stays true while others run. -/
theorem TaskOk.advance {task : Task} (h : TaskOk r epochs ctx task)
    (hadvance : Advances r ctx ctx') : TaskOk r epochs ctx' task := by
  have hconnected : ∀ {m}, ctx.Connected m → ctx'.Connected m :=
    fun hm => (hadvance.connected _).mpr hm
  cases task with
  | loaded m room loadEpoch => exact ⟨hconnected h.1, h.2⟩
  | loadedSend m room conflict => trivial
  | gossip m rooms => exact ⟨hconnected h.1, h.2⟩
  | gossipSync m room rooms toRemove => exact ⟨hconnected h.1, h.2⟩
  | gossipSend m room conflict rooms toRemove =>
    obtain ⟨hm, htrue, hkeep, hreject⟩ := h
    exact ⟨hconnected hm, htrue, hkeep,
      fun hroom handle hconflict => (hreject hroom handle hconflict).advance hadvance⟩
  | gossipDrop m room rooms toRemove =>
    obtain ⟨hm, htrue, hkeep, hdrop⟩ := h
    exact ⟨hconnected hm, htrue, hkeep, fun hroom => (hdrop hroom).advance hadvance⟩
  | gossipRemove m room toRemove => exact ⟨hconnected h.1, h.2⟩
  | _ => exact h.elim

theorem OldestWins.of_same (h : OldestWins r epochs applied ctx) (hsame : SameRoom r ctx ctx') :
    OldestWins r epochs applied ctx' := by
  refine ⟨fun hnil => ?_, fun hne => ?_⟩
  · obtain ⟨hnone, hnobody⟩ := h.unloaded hnil
    exact ⟨hsame.locator.trans hnone, fun m hm => hnobody m ((hsame.holds m).mp hm)⟩
  · obtain ⟨m, hm, hmin, hlocator, hholds⟩ := h.oldest hne
    exact ⟨m, hm, hmin, hsame.locator.trans hlocator, fun m' => (hsame.holds m').trans (hholds m')⟩

/-- An outdated report is cleaned up without a trace. -/
theorem OldestWins.drop (h : OldestWins r epochs applied ctx) (hout : Outdated r epochs ctx m) :
    SameRoom r ctx (ctx.removeRoom r m).1 := by
  obtain ⟨locator, hl, hlt⟩ := hout
  have hne : applied ≠ [] := by
    intro hnil
    rw [(h.unloaded hnil).1] at hl
    cases hl
  obtain ⟨oldest, -, -, hlocator, hholds⟩ := h.oldest hne
  rw [hlocator, Option.some.injEq] at hl
  subst hl
  have hother : oldest ≠ m := by
    rintro rfl
    exact lt_irrefl _ hlt
  refine ⟨?_, fun m' => ?_, removeRoom_connected ctx r m⟩
  · rw [hlocator]
    exact (removeRoom_locator ctx r m).mpr ⟨hlocator, fun hm => hother hm.1⟩
  · rw [removeRoom_holds, hholds, and_iff_right_iff_imp]
    rintro rfl
    exact hother

/-! ### One report -/

/-- The monolith has just been given the room, and nobody else has it. -/
theorem OldestWins.intro (hmin : ∀ m' ∈ applied, epochs m ≤ epochs m')
    (hlocator : ctx.roomsToMonoliths.get? r = some ⟨m, epochs m⟩)
    (hholds : ∀ m', ctx.Holds m' r ↔ m' = m) : OldestWins r epochs (applied ++ [m]) ctx := by
  refine ⟨fun hnil => absurd hnil (by simp), fun _ => ⟨m, by simp, fun m' hm' => ?_, hlocator,
    hholds⟩⟩
  rcases List.mem_append.mp hm' with hm' | hm'
  · exact hmin m' hm'
  · rw [List.mem_singleton.mp hm']

/-- What a report leaves: it is only rejected if an older load is known, and never fails. -/
structure Synced (r : RoomName) (epochs : MonolithId → LoadEpoch) (applied : List MonolithId)
    (ctx : BalancerContext) (m : MonolithId)
    (out : BalancerContext × Except BalancerError (Option ConflictAction)) : Prop where
  wins : OldestWins r epochs (applied ++ [m]) out.1
  advances : Advances r ctx out.1
  result : ∃ conflict, out.2 = .ok conflict ∧
    ∀ handle, conflict = some (.reject handle) → Outdated r epochs out.1 m

section Report

variable {room : RoomMetadata} {oldest : MonolithId}

/-- Nobody has the room, or the monolith itself. -/
theorem OldestWins.placed (h : OldestWins room.name epochs applied ctx) (hm : ctx.Connected m)
    (hwhere : ctx.roomsToMonoliths.get? room.name = none ∨
      ∃ epoch, ctx.roomsToMonoliths.get? room.name = some ⟨m, epoch⟩) :
    Synced room.name epochs applied ctx m (ctx.placeRoom room m (epochs m) none) := by
  have hkept : (∀ m' ∈ applied, epochs m ≤ epochs m') ∧ (∀ m', ctx.Holds m' room.name → m' = m) ∧
      ∀ locator, ctx.roomsToMonoliths.get? room.name = some locator →
        locator.loadEpoch = epochs m := by
    by_cases hnil : applied = []
    · obtain ⟨hnone, hnobody⟩ := h.unloaded hnil
      subst hnil
      refine ⟨fun m' hm' => absurd hm' List.not_mem_nil,
        fun m' hm' => absurd hm' (hnobody m'), fun locator hl => ?_⟩
      rw [hnone] at hl
      cases hl
    · obtain ⟨oldest, -, hmin, hlocator, hholds⟩ := h.oldest hnil
      have hsame : oldest = m := by
        rcases hwhere with hnone | ⟨epoch, hsome⟩
        · rw [hlocator] at hnone
          cases hnone
        · rw [hlocator, Option.some.injEq, RoomLocator.mk.injEq] at hsome
          exact hsome.1
      subst hsame
      refine ⟨hmin, fun m' => (hholds m').mp, fun locator hl => ?_⟩
      rw [hlocator] at hl
      cases hl
      rfl
  obtain ⟨hmin, hholds, hepoch⟩ := hkept
  have hplaced : (ctx.placeRoom room m (epochs m) none).1.roomsToMonoliths.get? room.name =
      some ⟨m, epochs m⟩ := by rw [placeRoom_locator, if_pos rfl]
  refine ⟨.intro hmin hplaced (fun m' => ?_), ⟨placeRoom_connected room _ none,
    fun locator hl => ⟨_, hplaced, (hepoch locator hl).ge⟩⟩, none, ?_, fun handle hc => by cases hc⟩
  · rw [placeRoom_holds]
    exact ⟨fun hcase => hcase.elim And.left (hholds m'), fun hm' => .inl ⟨hm', rfl, hm⟩⟩
  · obtain ⟨-, hok⟩ | ⟨hgone, -⟩ := placeRoom_result ctx m room (epochs m) none
    · exact hok
    · exact absurd hm hgone

/-- Another monolith has the room, by the older load. -/
theorem Synced.rejected (holdest : oldest ∈ applied)
    (hmin : ∀ m' ∈ applied, epochs oldest ≤ epochs m')
    (hlocator : ctx.roomsToMonoliths.get? r = some ⟨oldest, epochs oldest⟩)
    (hholds : ∀ m', ctx.Holds m' r ↔ m' = oldest) (hlt : epochs oldest < epochs m) :
    Synced r epochs applied ctx m (ctx, .ok (some (.reject m))) := by
  refine ⟨⟨fun hnil => absurd hnil (by simp), fun _ => ⟨oldest, List.mem_append_left _ holdest,
    fun m' hm' => ?_, hlocator, hholds⟩⟩, .of_same (.refl _ ctx), _, rfl,
    fun _ _ => ⟨_, hlocator, hlt⟩⟩
  rcases List.mem_append.mp hm' with hm' | hm'
  · exact hmin m' hm'
  · rw [List.mem_singleton.mp hm']
    exact hlt.le

/-- Another monolith has the room, by the newer load. -/
theorem Synced.replaced (hm : ctx.Connected m) (hmin : ∀ m' ∈ applied, epochs oldest ≤ epochs m')
    (hlocator : ctx.roomsToMonoliths.get? room.name = some ⟨oldest, epochs oldest⟩)
    (hholds : ∀ m', ctx.Holds m' room.name ↔ m' = oldest) (hgt : epochs m < epochs oldest) :
    Synced room.name epochs applied ctx m ((ctx.removeRoom room.name oldest).1.placeRoom room m
      (epochs m) (some (.replace oldest))) := by
  have hremoved := removeRoom_connected ctx room.name oldest
  have hplaced : ((ctx.removeRoom room.name oldest).1.placeRoom room m (epochs m)
      (some (.replace oldest))).1.roomsToMonoliths.get? room.name = some ⟨m, epochs m⟩ := by
    rw [placeRoom_locator, if_pos rfl]
  refine ⟨.intro (fun m' hm' => hgt.le.trans (hmin m' hm')) hplaced (fun m' => ?_),
    ⟨fun m' => (placeRoom_connected room _ _ m').trans (hremoved m'), fun locator hl => ?_⟩,
    some (.replace oldest), ?_, fun handle hc => by cases hc⟩
  · rw [placeRoom_holds, removeRoom_holds, hholds]
    constructor
    · rintro (⟨hm', -⟩ | ⟨hne', heq'⟩)
      · exact hm'
      · exact absurd heq' hne'
    · exact fun hm' => .inl ⟨hm', rfl, (hremoved m).mpr hm⟩
  · rw [hlocator] at hl
    cases hl
    exact ⟨_, hplaced, hgt.le⟩
  · obtain ⟨-, hok⟩ | ⟨hgone, -⟩ := placeRoom_result (ctx.removeRoom room.name oldest).1 m
      room (epochs m) (some (.replace oldest))
    · exact hok
    · exact absurd ((hremoved m).mpr hm) hgone

/-- **One report.** The oldest load wins again, whoever reported it. -/
theorem OldestWins.sync (h : OldestWins r epochs applied ctx)
    (hdistinct : ∀ m m', ctx.Connected m → ctx.Connected m' → epochs m = epochs m' → m = m')
    (hm : ctx.Connected m) (hroom : room.name = r) :
    Synced r epochs applied ctx m (ctx.syncRoom room m (epochs m)) := by
  subst hroom
  obtain ⟨hwhere, heq⟩ | ⟨locator, hl, hother, hcases⟩ :=
    syncRoom_cases ctx m room (epochs m)
  · rw [heq]
    exact h.placed hm hwhere
  · have hne : applied ≠ [] := by
      intro hnil
      rw [(h.unloaded hnil).1] at hl
      cases hl
    obtain ⟨oldest, holdest, hmin, hlocator, hholds⟩ := h.oldest hne
    rw [hlocator, Option.some.injEq] at hl
    subst hl
    have hconnected : ctx.Connected oldest := ((hholds oldest).mpr rfl).connected
    obtain ⟨hlt, -, heq⟩ | ⟨hgt, -, heq⟩ | ⟨hstuck, -⟩ := hcases
    · rw [heq]
      exact .rejected holdest hmin hlocator hholds hlt
    · rw [heq]
      exact .replaced hm hmin hlocator hholds hgt
    · -- the epochs differ, and both are there
      obtain hsame | ⟨-, hgone⟩ | ⟨-, hgone⟩ := hstuck
      · exact absurd (hdistinct _ _ hconnected hm hsame) hother
      · exact absurd hm hgone
      · exact absurd hconnected hgone

end Report

/-! ### Segments -/

/-- What a segment leaves. -/
structure Kept (r : RoomName) (epochs : MonolithId → LoadEpoch) (applied : List MonolithId)
    (ctx : BalancerContext) (out : State × Progress Task TaskEnd) : Prop where
  wins : OldestWins r epochs applied out.1.ctx
  advances : Advances r ctx out.1.ctx
  next : ∀ task, out.2 = .waiting task → TaskOk r epochs out.1.ctx task

theorem gossipNext_ok {rooms : List GossipRoom} {toRemove : List RoomName} (hm : ctx.Connected m)
    (htrue : Truthful r epochs m rooms) (hkeep : r ∉ toRemove) {task : Task}
    (hnext : gossipNext m rooms toRemove = .waiting task) : TaskOk r epochs ctx task := by
  cases rooms with
  | cons room rooms =>
    cases hnext
    exact ⟨hm, htrue, hkeep⟩
  | nil =>
    cases toRemove with
    | nil => cases hnext
    | cons room toRemove =>
      cases hnext
      rw [List.mem_cons, not_or] at hkeep
      exact ⟨hm, fun hroom => hkeep.1 hroom.symm, hkeep.2⟩

variable {s s' : State} {progress : Progress Task TaskEnd}

/-- A `Loaded` message applies its report. -/
theorem loaded_kept (h : OldestWins r epochs applied s.ctx)
    (hdistinct : ∀ m m', s.ctx.Connected m → s.ctx.Connected m' → epochs m = epochs m' → m = m')
    (hm : s.ctx.Connected m) {room : RoomMetadata} (hroom : room.name = r)
    (hres : loaded s m room (epochs m) = some (s', progress)) :
    Kept r epochs (applied ++ [m]) s.ctx (s', progress) := by
  have hsync := h.sync hdistinct hm hroom
  unfold loaded at hres
  split at hres
  · next ctx e heq =>
    rw [heq] at hsync
    obtain ⟨conflict, hok, -⟩ := hsync.result
    cases hok
  · next ctx heq =>
    rw [heq] at hsync
    cases hres
    exact ⟨hsync.wins, hsync.advances, fun task ht => by cases ht⟩
  · next ctx conflict heq =>
    rw [heq] at hsync
    cases hres
    refine ⟨hsync.wins, hsync.advances, fun task ht => ?_⟩
    cases ht
    trivial

/-- A room that a gossip lists is synced; the one it is about applies its report. -/
theorem gossipSync_kept (h : OldestWins r epochs applied s.ctx)
    (hdistinct : ∀ m m', s.ctx.Connected m → s.ctx.Connected m' → epochs m = epochs m' → m = m')
    (hm : s.ctx.Connected m) {room : GossipRoom} {rooms : List GossipRoom}
    {toRemove : List RoomName} (htrue : Truthful r epochs m (room :: rooms)) (hkeep : r ∉ toRemove)
    (hres : gossipSync s m room rooms toRemove = some (s', progress)) :
    Kept r epochs (applied ++ if room.room.name = r then [m] else []) s.ctx (s', progress) := by
  have htrue' : Truthful r epochs m rooms := fun x hx => htrue x (List.mem_cons_of_mem _ hx)
  have hsync : OldestWins r epochs (applied ++ if room.room.name = r then [m] else [])
        (s.ctx.syncRoom room.room m room.loadEpoch).1 ∧
      Advances r s.ctx (s.ctx.syncRoom room.room m room.loadEpoch).1 ∧
      (room.room.name = r → ∃ conflict,
        (s.ctx.syncRoom room.room m room.loadEpoch).2 = .ok conflict ∧
        ∀ handle, conflict = some (.reject handle) →
          Outdated r epochs (s.ctx.syncRoom room.room m room.loadEpoch).1 m) := by
    by_cases hroom : room.room.name = r
    · rw [if_pos hroom, htrue room List.mem_cons_self hroom]
      have hsync := h.sync hdistinct hm hroom
      exact ⟨hsync.wins, hsync.advances, fun _ => hsync.result⟩
    · have hsame : SameRoom r s.ctx (s.ctx.syncRoom room.room m room.loadEpoch).1 :=
        syncRoom_other room.room room.loadEpoch (Ne.symm hroom)
      rw [if_neg hroom, List.append_nil]
      exact ⟨h.of_same hsame, .of_same hsame, fun hr => absurd hr hroom⟩
  obtain ⟨hwins, hadvances, hok⟩ := hsync
  have hm' := (hadvances.connected m).mpr hm
  unfold gossipSync at hres
  split at hres
  · next ctx e heq =>
    rw [heq] at hwins hadvances hok hm'
    cases hres
    refine ⟨hwins, hadvances, fun task ht => ?_⟩
    cases ht
    refine ⟨hm', htrue', hkeep, fun hroom => ?_⟩
    obtain ⟨conflict, hc, -⟩ := hok hroom
    cases hc
  · next ctx heq =>
    rw [heq] at hwins hadvances hm'
    cases hres
    exact ⟨hwins, hadvances, fun task ht => gossipNext_ok hm' htrue' hkeep ht⟩
  · next ctx conflict heq =>
    rw [heq] at hwins hadvances hok hm'
    cases hres
    refine ⟨hwins, hadvances, fun task ht => ?_⟩
    cases ht
    refine ⟨hm', htrue', hkeep, fun hroom handle hconflict => ?_⟩
    obtain ⟨conflict', hc, hout⟩ := hok hroom
    cases hc
    exact hout handle (congrArg some hconflict)

/-- A room is taken off the monolith, if it is another one or after it was rejected. -/
theorem gossipDrop_kept (h : OldestWins r epochs applied s.ctx) (hm : s.ctx.Connected m)
    {room : RoomName} {rooms : List GossipRoom} {toRemove : List RoomName}
    (htrue : Truthful r epochs m rooms) (hkeep : r ∉ toRemove)
    (hdrop : room = r → Outdated r epochs s.ctx m)
    (hres : gossipDrop s m room rooms toRemove = some (s', progress)) :
    Kept r epochs applied s.ctx (s', progress) := by
  have hsame : SameRoom r s.ctx (s.ctx.removeRoom room m).1 := by
    by_cases hroom : room = r
    · subst hroom
      exact h.drop (hdrop rfl)
    · exact removeRoom_other (Ne.symm hroom) m
  cases hres
  exact ⟨h.of_same hsame, .of_same hsame,
    fun task ht => gossipNext_ok ((hsame.connected m).mpr hm) htrue hkeep ht⟩

/-- Sending touches no context, and a message that was not rejected goes on. -/
theorem gossipSend_kept (h : OldestWins r epochs applied s.ctx) (hm : s.ctx.Connected m)
    {room : RoomName} {conflict : ConflictAction} {rooms : List GossipRoom}
    {toRemove : List RoomName} (htrue : Truthful r epochs m rooms) (hkeep : r ∉ toRemove)
    (hreject : room = r → ∀ handle, conflict = .reject handle → Outdated r epochs s.ctx m)
    {result : SendResult}
    (hres : gossipSend s m room conflict rooms toRemove result = some (s', progress)) :
    Kept r epochs applied s.ctx (s', progress) := by
  have hctx := unloadSend_ctx s room conflict result
  unfold gossipSend at hres
  split at hres
  · next t e heq =>
    rw [heq] at hctx
    cases hres
    dsimp only at hctx
    refine ⟨hctx ▸ h, hctx ▸ .of_same (.refl _ _), fun task ht => ?_⟩
    cases ht
    have hhandle : ∃ handle, conflict = .reject handle := by
      cases conflict with
      | reject handle => exact ⟨handle, rfl⟩
      | replace handle => cases result <;> cases heq
    obtain ⟨handle, hhandle⟩ := hhandle
    exact ⟨hctx ▸ hm, htrue, hkeep, fun hroom => hctx ▸ hreject hroom handle hhandle⟩
  · next t heq =>
    rw [heq] at hctx
    cases hres
    dsimp only at hctx
    exact ⟨hctx ▸ h, hctx ▸ .of_same (.refl _ _),
      fun task ht => gossipNext_ok (hctx ▸ hm) htrue hkeep ht⟩

/-- The rooms to remove are none that the message lists. -/
theorem gossip_kept (h : OldestWins r epochs applied s.ctx) (hm : s.ctx.Connected m)
    {rooms : List GossipRoom} {toRemove : List RoomName}
    (hlisted : ∃ room ∈ rooms, room.room.name = r) (htrue : Truthful r epochs m rooms)
    (hres : gossip s m rooms toRemove = some (s', progress)) :
    Kept r epochs applied s.ctx (s', progress) := by
  obtain ⟨mono, hmono⟩ := connected_iff.mp hm
  unfold gossip at hres
  rw [hmono] at hres
  dsimp only at hres
  split at hres
  · next hperm =>
    cases hres
    refine ⟨h, .of_same (.refl _ _), fun task ht => gossipNext_ok hm htrue (fun hmem => ?_) ht⟩
    have hun := (List.isPerm_iff.mp hperm).mem_iff.mp hmem
    obtain ⟨room, hroom, hname⟩ := hlisted
    simp only [unlisted, List.mem_filter, List.any_eq_true, decide_eq_true_eq] at hun
    exact hun.2 ⟨room, hroom, hname⟩
  · cases hres

/-- **One segment** of a task. -/
theorem segment_kept (h : OldestWins r epochs applied s.ctx)
    (hdistinct : ∀ m m', s.ctx.Connected m → s.ctx.Connected m' → epochs m = epochs m' → m = m')
    {task : Task} (htask : TaskOk r epochs s.ctx task) {x : Answer}
    (hres : resume task x s = some (s', progress)) :
    Kept r epochs (applied ++ appliedBy r task) s.ctx (s', progress) := by
  have hnothing : Kept r epochs applied s.ctx (s', progress) →
      Kept r epochs (applied ++ []) s.ctx (s', progress) := by
    rw [List.append_nil]
    exact id
  cases task with
  | loaded m room loadEpoch =>
    obtain ⟨hm, hroom, rfl⟩ := htask
    rw [appliedBy, if_pos hroom]
    cases x with
    | lock => exact loaded_kept h hdistinct hm hroom hres
    | _ => cases hres
  | loadedSend m room conflict =>
    refine hnothing ?_
    cases x with
    | sent result =>
      have hctx := unloadSend_ctx s room conflict result
      change loadedSend s room conflict result = some (s', progress) at hres
      unfold loadedSend at hres
      split at hres <;> next heq =>
        rw [heq] at hctx
        cases hres
        dsimp only at hctx
        exact ⟨hctx ▸ h, hctx ▸ .of_same (.refl _ _), fun task ht => by cases ht⟩
    | _ => cases hres
  | gossip m rooms =>
    refine hnothing ?_
    cases x with
    | lockListing toRemove => exact gossip_kept h htask.1 htask.2.1 htask.2.2 hres
    | _ => cases hres
  | gossipSync m room rooms toRemove =>
    cases x with
    | lock => exact gossipSync_kept h hdistinct htask.1 htask.2.1 htask.2.2 hres
    | _ => cases hres
  | gossipSend m room conflict rooms toRemove =>
    refine hnothing ?_
    obtain ⟨hm, htrue, hkeep, hreject⟩ := htask
    cases x with
    | sent result => exact gossipSend_kept h hm htrue hkeep hreject hres
    | _ => cases hres
  | gossipDrop m room rooms toRemove =>
    refine hnothing ?_
    obtain ⟨hm, htrue, hkeep, hdrop⟩ := htask
    cases x with
    | lock => exact gossipDrop_kept h hm htrue hkeep hdrop hres
    | _ => cases hres
  | gossipRemove m room toRemove =>
    refine hnothing ?_
    have htrue : Truthful r epochs m [] := fun _ hx => absurd hx List.not_mem_nil
    cases x with
    | lock =>
      exact gossipDrop_kept h htask.1 htrue htask.2.2 (fun hroom => absurd hroom htask.2.1) hres
    | _ => cases hres
  | _ => exact htask.elim

/-- A report starts a task that knows what it needs. -/
theorem reporting_task {c : Call} (h : Reporting r epochs ctx c) : TaskOk r epochs ctx c.task := by
  cases c with
  | loaded m room loadEpoch => exact h
  | gossip m rooms => exact h
  | _ => exact h.elim

theorem appliedReport_answer {p : Pool State Task TaskEnd} {i : Nat} {task : Task}
    (ht : p.tasks[i]? = some (.waiting task)) (x : Answer) :
    appliedReport r p (.answer i x) = appliedBy r task := by
  simp only [appliedReport, ht]

/-- **One step** of the scheduler. -/
theorem step_oldestInv {t t' : Pool State Task TaskEnd × List MonolithId}
    {e : PoolEvent Call Answer Empty} (h : OldestInv r epochs t)
    (hcall : ∀ c, e = .call c → Reporting r epochs t.1.shared.ctx c)
    (hstep : (balancer.machine.logging (appliedReport r)).step t e = some t') :
    OldestInv r epochs t' ∧ ∀ m, t'.1.shared.ctx.Connected m ↔ t.1.shared.ctx.Connected m := by
  obtain ⟨⟨shared, tasks⟩, applied⟩ := t
  obtain ⟨pool', applied'⟩ := t'
  obtain ⟨hrun, hlog⟩ := Machine.step_logging.mp hstep
  dsimp only at hlog
  subst hlog
  rcases Program.step_cases hrun with ⟨c, rfl, rfl⟩ | ⟨i, x, task, s, progress, rfl, ht, hres, rfl⟩ |
    ⟨ev, -, -, -, -⟩
  · refine ⟨⟨?_, fun task hmem => ?_, h.distinct⟩, fun m => Iff.rfl⟩
    · show OldestWins r epochs (applied ++ []) shared.ctx
      rw [List.append_nil]
      exact h.wins
    · rcases List.mem_append.mp hmem with hold | hnew
      · exact h.tasks task hold
      · rw [List.mem_singleton] at hnew
        cases hnew
        exact reporting_task (hcall c rfl)
  · have hkept := segment_kept h.wins h.distinct (h.tasks task (Program.mem_of_getElem? ht)) hres
    refine ⟨⟨?_, fun task' hmem => ?_, fun m m' hm hm' => ?_⟩, hkept.advances.connected⟩
    · show OldestWins r epochs (applied ++ appliedReport r ⟨shared, tasks⟩ (.answer i x)) s.ctx
      rw [appliedReport_answer (p := ⟨shared, tasks⟩) ht x]
      exact hkept.wins
    · rcases List.mem_or_eq_of_mem_set hmem with hold | hnew
      · exact (h.tasks task' hold).advance hkept.advances
      · exact hkept.next task' hnew.symm
    · exact h.distinct m m' ((hkept.advances.connected m).mp hm)
        ((hkept.advances.connected m').mp hm')
  · exact ev.elim

end Steps

/-- **The oldest load wins**, in every state of every run of reports. -/
theorem oldestWins_throughout {r : RoomName} {epochs : MonolithId → LoadEpoch}
    {ctx : BalancerContext} (outbox : List (MonolithId × MsgB2M))
    (hdistinct : ∀ m m', ctx.Connected m → ctx.Connected m' → epochs m = epochs m' → m = m')
    (hunmapped : ctx.roomsToMonoliths.get? r = none) (hnobody : ∀ m, ¬ ctx.Holds m r)
    {es : List (PoolEvent Call Answer Empty)}
    (hcalls : ∀ c, PoolEvent.call c ∈ es → Reporting r epochs ctx c) :
    (balancer.machine.logging (appliedReport r)).Always
      (fun s => OldestWins r epochs s.2 s.1.shared.ctx) (Pool.idle ⟨ctx, outbox⟩, []) es := by
  have hinit : OldestInv r epochs ((Pool.idle ⟨ctx, outbox⟩, []) :
      Pool State Task TaskEnd × List MonolithId) :=
    ⟨⟨fun _ => ⟨hunmapped, hnobody⟩, fun hne => absurd rfl hne⟩,
      fun _ hmem => absurd hmem List.not_mem_nil, hdistinct⟩
  have halong : (balancer.machine.logging (appliedReport r)).Along
      (fun _ e => ∀ c, e = .call c → Reporting r epochs ctx c) (Pool.idle ⟨ctx, outbox⟩, []) es :=
    Machine.along_of_forall (fun e he c hc => hcalls c (hc ▸ he))
  refine (Machine.always_of_along (I := fun s => OldestInv r epochs s ∧
    ∀ m, s.1.shared.ctx.Connected m ↔ ctx.Connected m) (fun s e s' hs hcall hstep => ?_)
    ⟨hinit, fun _ => Iff.rfl⟩ halong).imp (fun s hs => hs.1.wins)
  have hreporting : ∀ c, e = .call c → Reporting r epochs s.1.shared.ctx c := by
    intro c hc
    have hreport := hcall c hc
    cases c with
    | loaded m room loadEpoch => exact ⟨(hs.2 m).mpr hreport.1, hreport.2⟩
    | gossip m rooms => exact ⟨(hs.2 m).mpr hreport.1, hreport.2⟩
    | _ => exact hreport.elim
  obtain ⟨hinv, hconnected⟩ := step_oldestInv hs.1 hreporting hstep
  exact ⟨hinv, fun m => (hconnected m).trans (hs.2 m)⟩

/-- Two monoliths, and nothing else. -/
def twoMonoliths : BalancerContext :=
  ((BalancerContext.new "local").addMonolith (.new ⟨1, "local"⟩)).addMonolith (.new ⟨2, "local"⟩)

theorem twoMonoliths_connected {m : MonolithId} : twoMonoliths.Connected m ↔ m = 1 ∨ m = 2 := by
  simp [twoMonoliths, Connected, addMonolith, BalancerContext.new, BalancerMonolith.new, or_comm]

/-- The second monolith loaded the room first. -/
def twoEpochs (m : MonolithId) : LoadEpoch := if m = 1 then 9 else 4

/-- The newer load is reported first; then the older one replaces it; then a gossip of the newer one
is rejected and cleans up. -/
def newerFirst : List (PoolEvent Call Answer Empty) :=
  let room : RoomMetadata := ⟨RoomName.ofString "foo", .Public, ""⟩
  [.call (.loaded 1 room 9), .call (.gossip 1 [⟨room, 9⟩]), .call (.loaded 2 room 4),
   .answer 0 .lock, .answer 1 (.lockListing []), .answer 2 .lock, .answer 1 .lock,
   .answer 1 (.sent .ok), .answer 2 (.sent .ok), .answer 1 .lock]

/-- Such a run. -/
theorem oldestWins_throughout_newerFirst :
    (balancer.machine.logging (appliedReport (RoomName.ofString "foo"))).Always
      (fun s => OldestWins (RoomName.ofString "foo") twoEpochs s.2 s.1.shared.ctx)
      (Pool.idle ⟨twoMonoliths, []⟩, []) newerFirst := by
  have hstart : twoMonoliths.roomsToMonoliths.get? (RoomName.ofString "foo") = none := rfl
  refine oldestWins_throughout [] (fun m m' hm hm' heq => ?_) hstart (fun m hm => ?_) (fun c hc => ?_)
  · obtain rfl | rfl := twoMonoliths_connected.mp hm <;>
      obtain rfl | rfl := twoMonoliths_connected.mp hm' <;> first
        | rfl
        | exact absurd heq (by decide)
  · obtain ⟨mono, hmono, hroom⟩ := hm
    obtain rfl | rfl := twoMonoliths_connected.mp (connected_iff.mpr ⟨mono, hmono⟩) <;>
      cases hmono <;> cases hroom
  · have hconnected : twoMonoliths.Connected 1 ∧ twoMonoliths.Connected 2 :=
      ⟨twoMonoliths_connected.mpr (.inl rfl), twoMonoliths_connected.mpr (.inr rfl)⟩
    simp only [newerFirst, List.mem_cons, List.not_mem_nil, or_false, reduceCtorEq,
      PoolEvent.call.injEq] at hc
    obtain rfl | rfl | rfl := hc
    · exact ⟨hconnected.1, rfl, rfl⟩
    · refine ⟨hconnected.1, ⟨_, List.mem_singleton_self _, rfl⟩, fun room hroom _ => ?_⟩
      rw [List.mem_singleton.mp hroom]
      rfl
    · exact ⟨hconnected.2, rfl, rfl⟩

end OpenTogetherTube.Balancer
