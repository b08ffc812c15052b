import OpenTogetherTube.Balancer.OneRoom

/-!
# The oldest holder and the placeholder

Several monoliths hold a room, each since some epoch, and the balancer learns of it by their reports.
Of two loads it tells the newer one to unload, so the oldest holder is never told to — as long as
the balancer compares epochs that are real.

`join_client` maps a room that the balancer has not heard of to a monolith of its choice, with the
largest epoch there is. If that monolith is the oldest holder, its report still to come, then any
other report has a smaller epoch than the placeholder, and the oldest holder is told to unload:
`not_spared_throughout`. `spared_throughout` says that this is the only way.
-/

namespace OpenTogetherTube.Balancer.OldestHolder

open OpenTogetherTube.Lib BalancerContext

/-- Which monoliths hold the room, each since its own epoch. -/
structure Holders where
  epoch : MonolithId → Option LoadEpoch
  distinct : ∀ {m m' e}, epoch m = some e → epoch m' = some e → m = m'

/-- The monolith holds the room with the smallest epoch. -/
structure Holders.Oldest (holders : Holders) (m : MonolithId) : Prop where
  holds : (holders.epoch m).isSome
  le : ∀ {m' e e'}, holders.epoch m = some e → holders.epoch m' = some e' → e ≤ e'

section Model

variable (r : RoomName) (holders : Holders) (oldest : MonolithId)

/-- A gossip message reports the room as it is held. -/
def Truthful (m : MonolithId) (rooms : List GossipRoom) : Prop :=
  ∀ room ∈ rooms, room.room.name = r → holders.epoch m = some room.loadEpoch

/-- Reports of the room are those of its holders. Other calls are not restricted. -/
def Genuine : Call → Prop
  | .loaded m room loadEpoch => room.name = r → holders.epoch m = some loadEpoch
  | .gossip m rooms => Truthful r holders m rooms
  | _ => True

/-- What the tasks know. -/
def TaskOk : Task → Prop
  | .loaded m room loadEpoch => room.name = r → holders.epoch m = some loadEpoch
  | .loadedSend _ room conflict => room = r → conflict.handle ≠ oldest
  | .gossip m rooms => Truthful r holders m rooms
  | .gossipSync m room rooms _ => Truthful r holders m (room :: rooms)
  | .gossipSend m room conflict rooms _ =>
    (room = r → conflict.handle ≠ oldest) ∧ Truthful r holders m rooms
  | .gossipDrop m _ rooms _ => Truthful r holders m rooms
  | _ => True

/-- Where the room is mapped to: to a holder, with the epoch it has it since, or by a placeholder. -/
def Located (ctx : BalancerContext) : Prop :=
  ∀ locator, ctx.roomsToMonoliths.get? r = some locator →
    holders.epoch locator.monolithId = some locator.loadEpoch ∨ locator.loadEpoch = u32Max

/-- **The purpose**: the oldest holder has not been told to unload the room. -/
def Spared (s : State) : Prop := (oldest, MsgB2M.unload r) ∉ s.outbox

/-- Whose report of the room a task applies when it runs next. -/
def reported : Task → Option (MonolithId × LoadEpoch)
  | .loaded m room loadEpoch => if room.name = r then some (m, loadEpoch) else none
  | .gossipSync m room _ _ => if room.room.name = r then some (m, room.loadEpoch) else none
  | _ => none

/-- The condition on a report: if it is another monolith's, and older than the placeholder, then the
room is not mapped to the oldest holder by the placeholder. -/
def Settled (ctx : BalancerContext) (m : MonolithId) (loadEpoch : LoadEpoch) : Prop :=
  m ≠ oldest → loadEpoch < u32Max → ctx.roomsToMonoliths.get? r ≠ some ⟨oldest, u32Max⟩

/-- The report that a step applies. -/
def pendingReport (p : Pool State Task TaskEnd) (i : Nat) : Option (MonolithId × LoadEpoch) :=
  match p.tasks[i]? with
  | some (.waiting task) => reported r task
  | _ => none

/-- The condition on a step. -/
def StepSettled (p : Pool State Task TaskEnd) : PoolEvent Call Answer Empty → Prop
  | .call c => Genuine r holders c
  | .answer i _ =>
    ∀ report ∈ pendingReport r p i, Settled r oldest p.shared.ctx report.1 report.2
  | .external e => nomatch e

/-- The invariant. -/
structure Inv (p : Pool State Task TaskEnd) : Prop where
  located : Located r holders p.shared.ctx
  spared : Spared r oldest p.shared
  tasks : ∀ task, Progress.waiting task ∈ p.tasks → TaskOk r holders oldest task

/-- What a segment leaves. -/
structure Kept (out : State × Progress Task TaskEnd) : Prop where
  located : Located r holders out.1.ctx
  spared : Spared r oldest out.1
  next : ∀ task, out.2 = .waiting task → TaskOk r holders oldest task

instance (m : MonolithId) (rooms : List GossipRoom) : Decidable (Truthful r holders m rooms) :=
  inferInstanceAs (Decidable (∀ room ∈ rooms, _ → _))

instance : (c : Call) → Decidable (Genuine r holders c)
  | .loaded m room loadEpoch =>
    inferInstanceAs (Decidable (room.name = r → holders.epoch m = some loadEpoch))
  | .gossip m rooms => inferInstanceAs (Decidable (Truthful r holders m rooms))
  | .joinClient _ | .leaveClient _ | .joinMonolith _ | .leaveMonolith _ | .unloaded _ _
  | .roomMsg _ _ _ | .kick _ _ => isTrue trivial

instance (ctx : BalancerContext) (m : MonolithId) (loadEpoch : LoadEpoch) :
    Decidable (Settled r oldest ctx m loadEpoch) :=
  inferInstanceAs (Decidable (m ≠ oldest → loadEpoch < u32Max → _ ≠ _))

instance (p : Pool State Task TaskEnd) :
    (e : PoolEvent Call Answer Empty) → Decidable (StepSettled r holders oldest p e)
  | .call c => inferInstanceAs (Decidable (Genuine r holders c))
  | .answer i _ => inferInstanceAs (Decidable (∀ report ∈ pendingReport r p i, Settled r oldest _ _ _))
  | .external e => nomatch e

end Model

variable {r : RoomName} {holders : Holders} {oldest : MonolithId} {ctx ctx' : BalancerContext}

/-! ## Where the room is mapped to -/

/-- Unless by a placeholder, the room is mapped to where it was mapped before. -/
def NoNews (r : RoomName) (ctx ctx' : BalancerContext) : Prop :=
  ∀ locator, ctx'.roomsToMonoliths.get? r = some locator →
    ctx.roomsToMonoliths.get? r = some locator ∨ locator.loadEpoch = u32Max

theorem Located.of_noNews (h : Located r holders ctx) (hnews : NoNews r ctx ctx') :
    Located r holders ctx' := by
  intro locator hl
  rcases hnews locator hl with hold | hmax
  · exact h locator hold
  · exact .inr hmax

theorem noNews_of_same (h : ctx'.roomsToMonoliths.get? r = ctx.roomsToMonoliths.get? r) :
    NoNews r ctx ctx' :=
  fun _ hl => .inl (h ▸ hl)

theorem NoNews.trans {ctx'' : BalancerContext} (h : NoNews r ctx ctx') (h' : NoNews r ctx' ctx'') :
    NoNews r ctx ctx'' := by
  intro locator hl
  rcases h' locator hl with hold | hmax
  · exact h locator hold
  · exact .inr hmax

theorem noNews_removeMonolith (m : MonolithId) : NoNews r ctx (ctx.removeMonolith m) := by
  intro locator hl
  have hkeep : ctx.roomsToMonoliths.get? r = some locator ∧ locator.monolithId ≠ m := by
    simpa [removeMonolith, OrderedMap.get?_retain_eq_some] using hl
  exact .inl hkeep.1

theorem noNews_removeRoom (room : RoomName) (m : MonolithId) :
    NoNews r ctx (ctx.removeRoom room m).1 := by
  by_cases hroom : r = room
  · subst hroom
    exact fun locator hl => .inl ((removeRoom_locator ctx r m).mp hl).1
  · exact noNews_of_same (removeRoom_other hroom m).locator

/-- `join_client` creates a room with the largest epoch. -/
theorem noNews_addRoom (room : RoomName) (m : MonolithId) :
    NoNews r ctx (ctx.addRoom room ⟨m, u32Max⟩).1 := by
  have hset : NoNews r ctx
      { ctx with roomsToMonoliths := ctx.roomsToMonoliths.set room ⟨m, u32Max⟩ } := by
    intro locator hl
    rw [OrderedMap.get?_set] at hl
    split at hl
    · cases hl
      exact .inr rfl
    · exact .inl hl
  unfold addRoom
  split
  · exact noNews_of_same rfl
  · dsimp only
    split
    · exact hset
    · exact hset

/-- **A report** maps the room to a holder, and whom it tells to unload is not the oldest one. -/
theorem Located.sync (h : Located r holders ctx) (hold : holders.Oldest oldest) {m : MonolithId}
    {room : RoomMetadata} {loadEpoch : LoadEpoch}
    (htrue : room.name = r → holders.epoch m = some loadEpoch)
    (hsettled : room.name = r → Settled r oldest ctx m loadEpoch) :
    Located r holders (ctx.syncRoom room m loadEpoch).1 ∧
      ∀ conflict, (ctx.syncRoom room m loadEpoch).2 = .ok (some conflict) →
        room.name = r → conflict.handle ≠ oldest := by
  by_cases hroom : room.name = r
  · subst hroom
    have hreal := htrue rfl
    have hplaced : ∀ {ctx : BalancerContext} {conflict},
        Located room.name holders (ctx.placeRoom room m loadEpoch conflict).1 := by
      intro ctx conflict locator hl
      rw [placeRoom_locator, if_pos rfl] at hl
      cases hl
      exact .inl hreal
    have hresult : ∀ {ctx : BalancerContext} {conflict conflict'},
        (ctx.placeRoom room m loadEpoch conflict).2 = .ok conflict' → conflict' = conflict := by
      intro ctx conflict conflict' hok
      obtain ⟨-, h⟩ | ⟨-, h⟩ := placeRoom_result ctx m room loadEpoch conflict
      · rw [h] at hok
        cases hok
        rfl
      · rw [h] at hok
        cases hok
    obtain ⟨-, heq⟩ | ⟨locator, hl, hother, ⟨hlt, -, heq⟩ | ⟨hgt, -, heq⟩ | ⟨-, e, heq⟩⟩ :=
      syncRoom_cases ctx m room loadEpoch
    · rw [heq]
      refine ⟨hplaced, fun conflict hok => ?_⟩
      cases hresult hok
    · rw [heq]
      refine ⟨h, fun conflict hok _ => ?_⟩
      cases hok
      -- the oldest holder is not the newer one
      rintro rfl
      rcases h locator hl with hholds | hmax
      · exact absurd (hold.le hreal hholds) (not_le.mpr hlt)
      · rw [hmax] at hlt
        exact absurd (Fin.le_last loadEpoch) (not_le.mpr hlt)
    · rw [heq]
      refine ⟨hplaced, fun conflict hok _ => ?_⟩
      cases hresult hok
      intro hhandle
      change locator.monolithId = oldest at hhandle
      rcases h locator hl with hholds | hmax
      · rw [hhandle] at hholds
        exact absurd (hold.le hholds hreal) (not_le.mpr hgt)
      · rw [hmax] at hgt
        refine hsettled rfl (fun hm => hother (hhandle.trans hm.symm)) hgt ?_
        rw [hl, ← hhandle, ← hmax]
    · rw [heq]
      exact ⟨h, fun conflict hok => by cases hok⟩
  · exact ⟨h.of_noNews (noNews_of_same (syncRoom_other room loadEpoch (Ne.symm hroom)).locator),
      fun _ _ hr => absurd hr hroom⟩

/-! ## Segments -/

section Segments

variable {m : MonolithId} {s s' : State} {progress : Progress Task TaskEnd}

/-- A segment that only changes the context, and goes on with a task that may. -/
theorem Kept.of_withCtx (h : Located r holders s.ctx) (hspared : Spared r oldest s)
    (hnews : NoNews r s.ctx ctx)
    (hnext : ∀ task, progress = .waiting task → TaskOk r holders oldest task) :
    Kept r holders oldest (s.withCtx ctx, progress) :=
  ⟨h.of_noNews hnews, hspared, hnext⟩

/-- A segment that sends something else than an unload to the oldest holder. -/
theorem Kept.of_post (h : Located r holders s.ctx) (hspared : Spared r oldest s) {msg : MsgB2M}
    (hmsg : msg = .unload r → m ≠ oldest)
    (hnext : ∀ task, progress = .waiting task → TaskOk r holders oldest task) :
    Kept r holders oldest (s.post m msg, progress) := by
  refine ⟨h, fun hmem => ?_, hnext⟩
  rcases List.mem_append.mp hmem with hold | hnew
  · exact hspared hold
  · rw [List.mem_singleton, Prod.mk.injEq] at hnew
    exact hmsg hnew.2.symm hnew.1.symm

theorem gossipNext_ok {rooms : List GossipRoom} {toRemove : List RoomName}
    (htrue : Truthful r holders m rooms) {task : Task}
    (hnext : gossipNext m rooms toRemove = .waiting task) : TaskOk r holders oldest task := by
  cases rooms with
  | cons room rooms =>
    cases hnext
    exact htrue
  | nil =>
    cases toRemove with
    | nil => cases hnext
    | cons room toRemove =>
      cases hnext
      trivial

/-- Telling somebody else to unload. -/
theorem unloadSend_spared (h : Located r holders s.ctx) (hspared : Spared r oldest s)
    {room : RoomName} {conflict : ConflictAction} (hhandle : room = r → conflict.handle ≠ oldest)
    (result : SendResult) :
    Located r holders (unloadSend s room conflict result).1.ctx ∧
      Spared r oldest (unloadSend s room conflict result).1 := by
  have hpost : ∀ handle, conflict.handle = handle →
      Located r holders (s.post handle (.unload room)).ctx ∧
        Spared r oldest (s.post handle (.unload room)) := by
    intro handle hh
    have hkept : Kept r holders oldest (s.post handle (.unload room), .done .ok) :=
      .of_post h hspared (fun hmsg => hh ▸ hhandle (MsgB2M.unload.inj hmsg)) (fun _ ht => by cases ht)
    exact ⟨hkept.located, hkept.spared⟩
  cases conflict with
  | reject handle =>
    cases result with
    | ok => exact hpost handle rfl
    | _ => exact ⟨h, hspared⟩
  | replace handle =>
    cases result with
    | ok => exact hpost handle rfl
    | _ => exact ⟨h, hspared⟩

/-- A client joins: its room is mapped by a placeholder, if it is not mapped yet. -/
theorem joinReserve_kept (h : Located r holders s.ctx) (hspared : Spared r oldest s) {c : NewClient}
    {selected : Option MonolithId} (hres : joinReserve s c selected = some (s', progress)) :
    Kept r holders oldest (s', progress) := by
  have hstay : ∀ {task : Task}, TaskOk r holders oldest task →
      Kept r holders oldest (s, .waiting task) :=
    fun htask => ⟨h, hspared, fun _ ht => by cases ht; exact htask⟩
  have hend : ∀ {result}, Kept r holders oldest (s, .done result) :=
    fun {_} => ⟨h, hspared, fun _ ht => by cases ht⟩
  unfold joinReserve at hres
  split at hres
  · split at hres
    · cases hres
      exact hend
    · split at hres
      · cases hres
        exact hend
      · cases hres
        exact hstay trivial
  · split at hres
    · cases selected with
      | none =>
        cases hres
        exact hend
      | some m =>
        have hnews : NoNews r s.ctx (s.ctx.addRoom c.room ⟨m, u32Max⟩).1 := noNews_addRoom c.room m
        dsimp only at hres
        split at hres
        · next heq =>
          rw [heq] at hnews
          cases hres
          exact .of_withCtx h hspared hnews (fun _ ht => by cases ht)
        · next heq =>
          rw [heq] at hnews
          split at hres <;> cases hres
          · exact .of_withCtx h hspared hnews (fun _ ht => by cases ht)
          · refine .of_withCtx h hspared hnews (fun _ ht => ?_)
            cases ht
            trivial
    · cases hres

theorem joinSend_kept (h : Located r holders s.ctx) (hspared : Spared r oldest s) {c : NewClient}
    {shouldCreateRoom : Bool} {result : SendResult}
    (hres : joinSend s c m shouldCreateRoom result = some (s', progress)) :
    Kept r holders oldest (s', progress) := by
  cases result with
  | ok =>
    cases hres
    refine .of_post h hspared (fun hmsg => by cases hmsg) (fun _ ht => ?_)
    cases ht
    trivial
  | timeout =>
    cases hres
    refine ⟨h, hspared, fun _ ht => ?_⟩
    cases ht
    trivial
  | serde =>
    cases shouldCreateRoom <;> cases hres
    · exact ⟨h, hspared, fun _ ht => by cases ht⟩
    · refine ⟨h, hspared, fun _ ht => ?_⟩
      cases ht
      trivial

theorem leaveRemove_kept (h : Located r holders s.ctx) (hspared : Spared r oldest s) {id : ClientId}
    (hres : leaveRemove s id = some (s', progress)) : Kept r holders oldest (s', progress) := by
  unfold leaveRemove at hres
  split at hres
  · cases hres
    exact ⟨h, hspared, fun _ ht => by cases ht⟩
  · dsimp only at hres
    split at hres
    · cases hres
      exact .of_withCtx h hspared (noNews_of_same rfl) (fun _ ht => by cases ht)
    · split at hres <;> cases hres
      · exact .of_withCtx h hspared (noNews_of_same rfl) (fun _ ht => by cases ht)
      · refine .of_withCtx h hspared (noNews_of_same rfl) (fun _ ht => ?_)
        cases ht
        trivial

theorem loaded_kept (h : Located r holders s.ctx) (hspared : Spared r oldest s)
    (hold : holders.Oldest oldest) {room : RoomMetadata} {loadEpoch : LoadEpoch}
    (htrue : room.name = r → holders.epoch m = some loadEpoch)
    (hsettled : room.name = r → Settled r oldest s.ctx m loadEpoch)
    (hres : loaded s m room loadEpoch = some (s', progress)) :
    Kept r holders oldest (s', progress) := by
  obtain ⟨hlocated, hhandle⟩ := h.sync hold htrue hsettled
  unfold loaded at hres
  split at hres <;> next heq =>
    rw [heq] at hlocated hhandle
    cases hres
    refine ⟨hlocated, hspared, fun task ht => ?_⟩
    cases ht <;> exact hhandle _ rfl

theorem gossipSync_kept (h : Located r holders s.ctx) (hspared : Spared r oldest s)
    (hold : holders.Oldest oldest) {room : GossipRoom} {rooms : List GossipRoom}
    {toRemove : List RoomName} (htrue : Truthful r holders m (room :: rooms))
    (hsettled : room.room.name = r → Settled r oldest s.ctx m room.loadEpoch)
    (hres : gossipSync s m room rooms toRemove = some (s', progress)) :
    Kept r holders oldest (s', progress) := by
  have htrue' : Truthful r holders m rooms := fun x hx => htrue x (List.mem_cons_of_mem _ hx)
  obtain ⟨hlocated, hhandle⟩ := h.sync hold (htrue room List.mem_cons_self) hsettled
  unfold gossipSync at hres
  split at hres
  · next heq =>
    rw [heq] at hlocated
    cases hres
    refine ⟨hlocated, hspared, fun task ht => ?_⟩
    cases ht
    exact htrue'
  · next heq =>
    rw [heq] at hlocated
    cases hres
    exact ⟨hlocated, hspared, fun task ht => gossipNext_ok htrue' ht⟩
  · next heq =>
    rw [heq] at hlocated hhandle
    cases hres
    refine ⟨hlocated, hspared, fun task ht => ?_⟩
    cases ht
    exact ⟨hhandle _ rfl, htrue'⟩

theorem roomMsg_kept (h : Located r holders s.ctx) (hspared : Spared r oldest s) {room : RoomName}
    {receiverOpen : Bool} {client : Option ClientId}
    (hres : roomMsg s m room receiverOpen client = some (s', progress)) :
    Kept r holders oldest (s', progress) := by
  have hany : ∀ {progress : Progress Task TaskEnd}, (∀ task, progress = .waiting task →
      TaskOk r holders oldest task) → Kept r holders oldest (s, progress) :=
    fun hnext => ⟨h, hspared, hnext⟩
  unfold roomMsg at hres
  split at hres
  · split at hres <;> cases hres
    · exact hany (fun _ ht => by cases ht)
    · refine hany (fun _ ht => ?_)
      cases ht
      trivial
  · split at hres
    · cases hres
      exact hany (fun _ ht => by cases ht)
    · split at hres <;> cases hres
      · exact hany (fun _ ht => by cases ht)
      · exact hany (fun _ ht => by cases ht)

/-- **One segment** of a task, whose report is settled if it makes one. -/
theorem segment_kept (h : Located r holders s.ctx) (hspared : Spared r oldest s)
    (hold : holders.Oldest oldest) {task : Task} (htask : TaskOk r holders oldest task)
    (hsettled : ∀ m loadEpoch, reported r task = some (m, loadEpoch) →
      Settled r oldest s.ctx m loadEpoch) {x : Answer}
    (hres : resume task x s = some (s', progress)) : Kept r holders oldest (s', progress) := by
  have hstay : ∀ {progress : Progress Task TaskEnd}, (∀ task, progress = .waiting task →
      TaskOk r holders oldest task) → Kept r holders oldest (s, progress) :=
    fun hnext => ⟨h, hspared, hnext⟩
  unfold resume at hres
  split at hres
  case h_1 c selected => exact joinReserve_kept h hspared hres
  case h_2 c m shouldCreateRoom result => exact joinSend_kept h hspared hres
  case h_3 c m receiverOpen =>
    unfold joinRegister at hres
    split at hres <;> cases hres
    · exact hstay (fun _ ht => by cases ht)
    · exact .of_withCtx h hspared (noNews_of_same rfl) (fun _ ht => by cases ht)
  case h_4 c m shouldCreateRoom badMonolith =>
    cases hres
    have hfirst : NoNews r s.ctx
        (if shouldCreateRoom then (s.ctx.removeRoom c.room m).1 else s.ctx) := by
      cases shouldCreateRoom with
      | true => exact noNews_removeRoom c.room m
      | false => exact noNews_of_same rfl
    refine .of_withCtx h hspared (hfirst.trans ?_) (fun _ ht => by cases ht)
    cases badMonolith with
    | true => exact noNews_removeMonolith m
    | false => exact noNews_of_same rfl
  case h_5 id => exact leaveRemove_kept h hspared hres
  case h_6 id m result =>
    cases result <;> cases hres
    · exact .of_post h hspared (fun hmsg => by cases hmsg) (fun _ ht => by cases ht)
    · refine hstay (fun _ ht => ?_)
      cases ht
      trivial
    · exact hstay (fun _ ht => by cases ht)
  case h_7 m =>
    cases hres
    exact .of_withCtx h hspared (noNews_removeMonolith m) (fun _ ht => by cases ht)
  case h_8 m receiverOpen =>
    cases receiverOpen <;> cases hres
    · exact hstay (fun _ ht => by cases ht)
    · exact .of_withCtx h hspared (noNews_of_same rfl) (fun _ ht => by cases ht)
  case h_9 m =>
    cases hres
    exact .of_withCtx h hspared (noNews_removeMonolith m) (fun _ ht => by cases ht)
  case h_10 m room loadEpoch =>
    exact loaded_kept h hspared hold htask
      (fun hroom => hsettled m loadEpoch (by rw [reported, if_pos hroom])) hres
  case h_11 m room conflict result =>
    obtain ⟨hlocated, hspared'⟩ := unloadSend_spared h hspared htask result
    unfold loadedSend at hres
    split at hres <;> next heq =>
      rw [heq] at hlocated hspared'
      cases hres
      exact ⟨hlocated, hspared', fun _ ht => by cases ht⟩
  case h_12 m room =>
    have hnews : NoNews r s.ctx (s.ctx.removeRoom room m).1 := noNews_removeRoom room m
    unfold unloaded at hres
    split at hres <;> next heq =>
      rw [heq] at hnews
      cases hres
      exact .of_withCtx h hspared hnews (fun _ ht => by cases ht)
  case h_13 m rooms toRemove =>
    unfold gossip at hres
    split at hres
    · cases hres
      exact hstay (fun _ ht => by cases ht)
    · split at hres <;> cases hres
      exact hstay (fun _ ht => gossipNext_ok htask ht)
  case h_14 m room rooms toRemove =>
    exact gossipSync_kept h hspared hold htask
      (fun hroom => hsettled m room.loadEpoch (by rw [reported, if_pos hroom])) hres
  case h_15 m room conflict rooms toRemove result =>
    obtain ⟨hlocated, hspared'⟩ := unloadSend_spared h hspared htask.1 result
    unfold gossipSend at hres
    split at hres <;> next heq =>
      rw [heq] at hlocated hspared'
      cases hres
      refine ⟨hlocated, hspared', fun task ht => ?_⟩
      first
        | exact gossipNext_ok htask.2 ht
        | (cases ht; exact htask.2)
  case h_16 m room rooms toRemove =>
    cases hres
    exact .of_withCtx h hspared (noNews_removeRoom room m) (fun _ ht => gossipNext_ok htask ht)
  case h_17 m room toRemove =>
    cases hres
    exact .of_withCtx h hspared (noNews_removeRoom room m)
      (fun _ ht => gossipNext_ok (fun _ hx => absurd hx List.not_mem_nil) ht)
  case h_18 m room client receiverOpen => exact roomMsg_kept h hspared hres
  case h_19 client result => cases result <;> cases hres <;> exact hstay (fun _ ht => by cases ht)
  case h_20 client =>
    unfold kick at hres
    split at hres <;> cases hres
    · exact hstay (fun _ ht => by cases ht)
    · refine hstay (fun _ ht => ?_)
      cases ht
      trivial
  case h_21 client result => cases result <;> cases hres <;> exact hstay (fun _ ht => by cases ht)
  case h_22 => cases hres

end Segments

/-! ## Every run -/

theorem genuine_task {c : Call} (h : Genuine r holders c) : TaskOk r holders oldest c.task := by
  cases c with
  | loaded m room loadEpoch => exact h
  | gossip m rooms => exact h
  | _ => trivial

/-- **One step** of the scheduler. -/
theorem step_inv {p p' : Pool State Task TaskEnd} {e : PoolEvent Call Answer Empty}
    (hold : holders.Oldest oldest) (h : Inv r holders oldest p)
    (hsettled : StepSettled r holders oldest p e) (hstep : balancer.machine.step p e = some p') :
    Inv r holders oldest p' := by
  rcases Program.step_cases hstep with ⟨c, rfl, rfl⟩ | ⟨i, x, task, s, progress, rfl, ht, hres, rfl⟩ |
    ⟨ev, -, -, -, -⟩
  · refine ⟨h.located, h.spared, fun task hmem => ?_⟩
    rcases List.mem_append.mp hmem with hold | hnew
    · exact h.tasks task hold
    · rw [List.mem_singleton] at hnew
      cases hnew
      exact genuine_task hsettled
  · have hkept := segment_kept h.located h.spared hold
      (h.tasks task (Program.mem_of_getElem? ht)) (fun m loadEpoch hreport => ?_) hres
    · refine ⟨hkept.located, hkept.spared, fun task' hmem => ?_⟩
      rcases List.mem_or_eq_of_mem_set hmem with hold | hnew
      · exact h.tasks task' hold
      · exact hkept.next task' hnew.symm
    · refine hsettled (m, loadEpoch) ?_
      rw [pendingReport, ht]
      exact hreport
  · exact ev.elim

/-- **The oldest holder is never told to unload the room**, in any run in which no other monolith's
report meets the placeholder for it. -/
theorem spared_throughout {r : RoomName} {holders : Holders} {oldest : MonolithId}
    (hold : holders.Oldest oldest) (region : Region) {es : List (PoolEvent Call Answer Empty)}
    (h : balancer.machine.Along (StepSettled r holders oldest) (init region) es) :
    balancer.machine.Always (fun p => Spared r oldest p.shared) (init region) es := by
  have hinit : Inv r holders oldest (init region) := by
    refine ⟨fun locator hl => ?_, List.not_mem_nil, fun _ hmem => absurd hmem List.not_mem_nil⟩
    rw [init, Pool.shared_idle, BalancerContext.new, OrderedMap.get?_empty] at hl
    cases hl
  exact (Machine.always_of_along (fun _ _ _ hp hc hs => step_inv hold hp hc hs) hinit h).imp
    (fun _ hp => hp.spared)

/-! ## Meeting the placeholder -/

/-- Two monoliths hold the room; the first has it for longer. -/
def twoEpochs (m : MonolithId) : Option LoadEpoch :=
  if m = 1 then some 5 else if m = 2 then some 10 else none

theorem twoEpochs_cases {m : MonolithId} {e : LoadEpoch} (h : twoEpochs m = some e) :
    (m = 1 ∧ e = 5) ∨ (m = 2 ∧ e = 10) := by
  unfold twoEpochs at h
  split at h
  · next hm => exact .inl ⟨hm, (Option.some.inj h).symm⟩
  · split at h
    · next hm => exact .inr ⟨hm, (Option.some.inj h).symm⟩
    · cases h

def twoHolders : Holders where
  epoch := twoEpochs
  distinct := by
    intro m m' e h h'
    obtain ⟨rfl, rfl⟩ | ⟨rfl, rfl⟩ := twoEpochs_cases h
    · obtain ⟨rfl, -⟩ | ⟨-, he⟩ := twoEpochs_cases h'
      · rfl
      · exact absurd he (by decide)
    · obtain ⟨-, he⟩ | ⟨rfl, -⟩ := twoEpochs_cases h'
      · exact absurd he (by decide)
      · rfl

theorem twoHolders_oldest : twoHolders.Oldest 1 := by
  refine ⟨rfl, fun {m e e'} (h : twoEpochs 1 = some e) (h' : twoEpochs m = some e') => ?_⟩
  obtain ⟨-, rfl⟩ | ⟨hm, -⟩ := twoEpochs_cases h
  · obtain ⟨-, rfl⟩ | ⟨-, rfl⟩ := twoEpochs_cases h' <;> decide
  · exact absurd hm (by decide)

/-- Both connect, and a client joins the room before either has reported it: the balancer picks the
first. Then both report. -/
def joinFirst (reports : List (PoolEvent Call Answer Empty)) : List (PoolEvent Call Answer Empty) :=
  [.call (.joinMonolith ⟨1, "local"⟩), .answer 0 (.lockHandOver true),
   .call (.joinMonolith ⟨2, "local"⟩), .answer 1 (.lockHandOver true),
   .call (.joinClient ⟨7, RoomName.ofString "foo", "local", "token"⟩),
   .answer 2 (.lockSelecting (some 1))] ++ reports

/-- The oldest holder's report comes first. -/
def olderFirst : List (PoolEvent Call Answer Empty) :=
  let room : RoomMetadata := ⟨RoomName.ofString "foo", .Public, ""⟩
  joinFirst [.call (.loaded 1 room 5), .answer 3 .lock, .call (.loaded 2 room 10), .answer 4 .lock,
    .answer 4 (.sent .ok)]

/-- The oldest holder's report comes last. -/
def newerFirst : List (PoolEvent Call Answer Empty) :=
  let room : RoomMetadata := ⟨RoomName.ofString "foo", .Public, ""⟩
  joinFirst [.call (.loaded 2 room 10), .answer 3 .lock, .answer 3 (.sent .ok)]

/-- A run that is settled. -/
theorem spared_throughout_olderFirst :
    balancer.machine.Always (fun p => Spared (RoomName.ofString "foo") 1 p.shared) (init "local")
      olderFirst := by
  refine spared_throughout twoHolders_oldest "local" ?_
  decide +kernel

/-- **The oldest holder is told to unload the room**, by a report of a newer load. -/
theorem not_spared_throughout :
    ¬ ∀ (r : RoomName) (holders : Holders) (oldest : MonolithId), holders.Oldest oldest →
      ∀ (region : Region) (es : List (PoolEvent Call Answer Empty)),
        (∀ c, PoolEvent.call c ∈ es → Genuine r holders c) →
        balancer.machine.Always (fun p => Spared r oldest p.shared) (init region) es := by
  intro h
  have hgenuine : ∀ c, PoolEvent.call c ∈ newerFirst →
      Genuine (RoomName.ofString "foo") twoHolders c := by
    intro c hc
    simp only [newerFirst, joinFirst, List.cons_append, List.nil_append, List.mem_cons,
      List.not_mem_nil, or_false, reduceCtorEq, false_or, PoolEvent.call.injEq] at hc
    obtain rfl | rfl | rfl | rfl := hc
    · trivial
    · trivial
    · trivial
    · exact fun _ => rfl
  have hrun : (balancer.machine.run (init "local") newerFirst).map (fun p => p.shared.outbox) =
      some [(1, .unload (RoomName.ofString "foo"))] := by
    decide +kernel
  obtain ⟨p, hp, houtbox⟩ := Option.map_eq_some_iff.mp hrun
  have hspared := (h _ twoHolders 1 twoHolders_oldest "local" newerFirst hgenuine).last hp
  rw [Spared, houtbox] at hspared
  exact hspared (List.mem_singleton_self _)

end OpenTogetherTube.Balancer.OldestHolder
