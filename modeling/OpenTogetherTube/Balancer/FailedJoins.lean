import OpenTogetherTube.Balancer.OneRoom
import OpenTogetherTube.Balancer.Segments

/-!
# Failed joins

A join that fails should leave no trace: the rooms are where they were, and nobody was registered.
Where the join message cannot be serialized, the room that was made for it is taken back. There are
two more places where it fails behind a change, and nothing is taken back there:

* `add_room` maps the room before it asks the monolith, which refuses a room that it has already;
* the client is registered before its link is handed over, and by then nobody may wait for it.

`failures_keep_routing_iff` says that these are all.
-/

namespace OpenTogetherTube.Balancer

open OpenTogetherTube.Lib BalancerContext

variable {ctx ctx' : BalancerContext} {s s' : State} {c : NewClient}

/-! ## The specification -/

/-- The routing table, the rooms of every monolith with who is in them, and the clients are the
same. -/
structure SameRouting (ctx ctx' : BalancerContext) : Prop where
  mapped : ∀ r, ctx'.roomsToMonoliths.get? r = ctx.roomsToMonoliths.get? r
  rooms : ∀ m, (ctx'.monoliths.get? m).map (fun mono => mono.rooms.get?) =
    (ctx.monoliths.get? m).map (fun mono => mono.rooms.get?)
  clients : ∀ id, ctx'.clients.get? id = ctx.clients.get? id

theorem SameRouting.refl (ctx : BalancerContext) : SameRouting ctx ctx :=
  ⟨fun _ => rfl, fun _ => rfl, fun _ => rfl⟩

/-- **The purpose of `add_room`**, where it fails. -/
def FailedAddKeeps (ctx : BalancerContext) (room : RoomName) (locator : RoomLocator) : Prop :=
  ∀ e, (ctx.addRoom room locator).2 = .error e → SameRouting ctx (ctx.addRoom room locator).1

/-- **The purpose of `join_client`**, where it fails although the channel takes the message. -/
def FailedJoinKeeps (s : State) (c : NewClient) (answers : List Answer) : Prop :=
  .sent .timeout ∉ answers → ∀ s' e,
    balancer.runAlone answers (.waiting (Call.joinClient c).task) s = some (s', .err e) →
    SameRouting s.ctx s'.ctx

/-- If the monolith has the room, it is mapped to just this locator. -/
def MapsWhatIsHeld (ctx : BalancerContext) (room : RoomName) (locator : RoomLocator) : Prop :=
  ctx.Holds locator.monolithId room → ctx.roomsToMonoliths.get? room = some locator

/-- The monolith that is selected for a room that is not mapped does not have it, and the client
waits for its link. -/
structure JoinsInPeace (s : State) (c : NewClient) (answers : List Answer) : Prop where
  selected : s.ctx.roomsToMonoliths.get? c.room = none →
    ∀ m, answers.head? = some (.lockSelecting (some m)) → ¬ s.ctx.Holds m c.room
  waits : .lockHandOver false ∉ answers

/-! ## `add_room` -/

theorem addRoom_cases (ctx : BalancerContext) (room : RoomName) (locator : RoomLocator) :
    (ctx.monoliths.get? locator.monolithId = none ∧
      ctx.addRoom room locator = (ctx, .error .monolithNotFound)) ∨
    ∃ mono, ctx.monoliths.get? locator.monolithId = some mono ∧
      ((mono.rooms.contains room = true ∧ ctx.addRoom room locator =
          ({ ctx with roomsToMonoliths := ctx.roomsToMonoliths.set room locator },
            .error (.monolithAlreadyHasRoom room))) ∨
        (mono.rooms.contains room = false ∧ ctx.addRoom room locator =
          ({ ctx with
              roomsToMonoliths := ctx.roomsToMonoliths.set room locator
              monoliths := ctx.monoliths.set locator.monolithId
                { mono with rooms := mono.rooms.set room (Room.new room) } }, .ok ()))) := by
  unfold BalancerContext.addRoom
  cases hmono : ctx.monoliths.get? locator.monolithId with
  | none => exact .inl ⟨rfl, rfl⟩
  | some mono =>
    right
    refine ⟨mono, rfl, ?_⟩
    dsimp only
    rcases mono.addRoom_cases room with ⟨hhas, hadd⟩ | ⟨hhas, hadd⟩
    · left
      rw [hadd]
      exact ⟨hhas, rfl⟩
    · right
      rw [hadd]
      exact ⟨hhas, rfl⟩

/-- A room that is mapped anew is mapped as it was only if it was mapped so. -/
theorem sameRouting_setLocator_iff (ctx : BalancerContext) (room : RoomName)
    (locator : RoomLocator) :
    SameRouting ctx { ctx with roomsToMonoliths := ctx.roomsToMonoliths.set room locator } ↔
      ctx.roomsToMonoliths.get? room = some locator := by
  constructor
  · intro h
    have hroom := h.mapped room
    rw [OrderedMap.get?_set, if_pos rfl] at hroom
    exact hroom.symm
  · intro hroom
    refine ⟨fun r => ?_, fun _ => rfl, fun _ => rfl⟩
    rw [OrderedMap.get?_set]
    split
    · next hr => rw [hr, hroom]
    · rfl

theorem failedAddKeeps_iff (ctx : BalancerContext) (room : RoomName) (locator : RoomLocator) :
    FailedAddKeeps ctx room locator ↔ MapsWhatIsHeld ctx room locator := by
  unfold FailedAddKeeps MapsWhatIsHeld
  rcases addRoom_cases ctx room locator with ⟨hmono, hadd⟩ | ⟨mono, hmono, hcases⟩
  · rw [hadd]
    refine iff_of_true (fun _ _ => .refl ctx) fun hholds => ?_
    obtain ⟨mono, hmono', -⟩ := hholds
    rw [hmono] at hmono'
    cases hmono'
  · rw [holds_iff hmono]
    rcases hcases with ⟨hhas, hadd⟩ | ⟨hhas, hadd⟩
    · rw [hadd, ← sameRouting_setLocator_iff ctx room locator]
      constructor
      · exact fun h _ => h _ rfl
      · exact fun h _ _ => h hhas
    · rw [hadd, hhas]
      constructor
      · intro _ h
        cases h
      · intro _ _ h
        cases h

/-! ## `join_client` -/

/-- A room that was just made on a monolith is taken back without a trace. -/
theorem sameRouting_removeRoom {room : RoomName} {locator : RoomLocator}
    (hroom : ctx.roomsToMonoliths.get? room = none)
    (hadd : ctx.addRoom room locator = (ctx', .ok ())) :
    SameRouting ctx (ctx'.removeRoom room locator.monolithId).1 := by
  rcases addRoom_cases ctx room locator with ⟨-, heq⟩ | ⟨mono, hmono, ⟨-, heq⟩ | ⟨hhas, heq⟩⟩
  · rw [heq] at hadd
    cases hadd
  · rw [heq] at hadd
    cases hadd
  · rw [heq] at hadd
    cases hadd
    unfold BalancerContext.removeRoom
    dsimp only
    rw [OrderedMap.get?_set, if_pos rfl, OrderedMap.get?_set, if_pos rfl]
    dsimp only
    rw [if_pos rfl]
    refine ⟨fun r => ?_, fun m => ?_, fun _ => rfl⟩
    · exact OrderedMap.get?_erase_set hroom locator r
    · rw [OrderedMap.get?_set]
      split
      · next hm =>
        have hrooms : mono.rooms.get? room = none := by
          rwa [OrderedMap.contains, Option.isSome_eq_false_iff, Option.isNone_iff_eq_none] at hhas
        rw [hm, hmono, Option.map_some, Option.map_some]
        congr 1
        funext r
        exact OrderedMap.get?_erase_set hrooms (Room.new room) r
      · next hm => rw [OrderedMap.get?_set, if_neg hm]

/-- A client more is in the room. -/
theorem some_addClient_ne (room : Option Room) (new : Room) (client : ClientId) :
    some ((room.getD new).addClient client) ≠ room := by
  intro h
  cases room with
  | none => cases h
  | some r =>
    have hclients := congrArg (fun room => (room.map (fun r => r.clients.length)).getD 0) h
    change (r.clients ++ [client]).length = r.clients.length at hclients
    rw [List.length_append, List.length_singleton] at hclients
    omega

theorem not_sameRouting_registerClient {mono : BalancerMonolith} {m : MonolithId}
    (hmono : ctx.monoliths.get? m = some mono) : ¬ SameRouting ctx (ctx.registerClient c m) := by
  intro h
  have hrooms := h.rooms m
  unfold registerClient at hrooms
  rw [hmono] at hrooms
  dsimp only at hrooms
  rw [OrderedMap.get?_set, if_pos rfl, Option.map_some, Option.map_some] at hrooms
  have hroom := congrFun (Option.some.inj hrooms) c.room
  rw [BalancerMonolith.addClient, OrderedMap.get?_set, if_pos rfl] at hroom
  exact some_addClient_ne _ _ _ hroom

/-- The four ways in which the first segment of a join goes. -/
theorem joinReserve_cases {selected : Option MonolithId} {pr : Progress Task TaskEnd}
    (h : joinReserve s c selected = some (s', pr)) :
    -- it returns with nothing changed
    (∃ r, s' = s ∧ pr = .done r ∧ (s.ctx.roomsToMonoliths.get? c.room = none →
      ∀ m ∈ selected, ¬ s.ctx.Holds m c.room)) ∨
    -- the room is mapped
    (∃ m, s' = s ∧ pr = .waiting (.joinSend c m false) ∧
      s.ctx.roomsToMonoliths.get? c.room ≠ none ∧ s.ctx.Connected m) ∨
    -- the monolith that was selected has the room
    (∃ m ∈ selected, ∃ e, s.ctx.roomsToMonoliths.get? c.room = none ∧ s.ctx.Holds m c.room ∧
      s'.ctx.roomsToMonoliths = s.ctx.roomsToMonoliths.set c.room ⟨m, u32Max⟩ ∧
      pr = .done (.err e)) ∨
    -- the room is made
    (∃ m ∈ selected, s.ctx.roomsToMonoliths.get? c.room = none ∧ ¬ s.ctx.Holds m c.room ∧
      s.ctx.addRoom c.room ⟨m, u32Max⟩ = (s'.ctx, .ok ()) ∧
      pr = .waiting (.joinSend c m true)) := by
  unfold joinReserve at h
  cases hroom : s.ctx.roomsToMonoliths.get? c.room with
  | some locator =>
    rw [hroom] at h
    dsimp only at h
    split at h
    · cases h
      exact .inl ⟨_, rfl, rfl, nofun⟩
    · next m hm =>
      split at h
      · cases h
        exact .inl ⟨_, rfl, rfl, nofun⟩
      · cases h
        exact .inr (.inl ⟨_, rfl, rfl, Option.some_ne_none _, connected_iff.mpr ⟨m, hm⟩⟩)
  | none =>
    rw [hroom] at h
    dsimp only at h
    split at h
    · cases selected with
      | none =>
        cases h
        exact .inl ⟨_, rfl, rfl, fun _ m hm => by cases hm⟩
      | some m =>
        dsimp only at h
        rcases addRoom_cases s.ctx c.room ⟨m, u32Max⟩ with
          ⟨hnone, hadd⟩ | ⟨mono, hmono, ⟨hhas, hadd⟩ | ⟨hhas, hadd⟩⟩
        · rw [hadd] at h
          cases h
          refine .inl ⟨_, rfl, rfl, ?_⟩
          rintro - m' hm' ⟨mono, hmono, -⟩
          cases hm'
          rw [hnone] at hmono
          cases hmono
        · rw [hadd] at h
          cases h
          exact .inr (.inr (.inl ⟨m, rfl, _, rfl, (holds_iff hmono).mpr hhas, rfl, rfl⟩))
        · rw [hadd] at h
          dsimp only at h
          rw [OrderedMap.get?_set, if_pos rfl] at h
          cases h
          refine .inr (.inr (.inr ⟨m, rfl, rfl, ?_, hadd, rfl⟩))
          rw [holds_iff hmono, hhas]
          exact Bool.false_ne_true
    · cases h

/-- Behind the join message there is only the registration, and it finds the monolith. -/
theorem join_registers {answers : List Answer} {m : MonolithId} {r : TaskEnd}
    (hm : s.ctx.Connected m)
    (h : balancer.runAlone answers (.waiting (.joinRegister c m)) s = some (s', r)) :
    ∃ receiverOpen, answers = [.lockHandOver receiverOpen] ∧
      s'.ctx = s.ctx.registerClient c m ∧ r = if receiverOpen then .ok else .err .receiverClosed := by
  obtain ⟨x, rest, s₁, pr, rfl, hstep, hrest⟩ := Program.runAlone_waiting h
  cases x with
  | lockHandOver receiverOpen =>
    have hctx := joinRegister_ctx hstep
    obtain ⟨mono, hmono⟩ := connected_iff.mp hm
    change joinRegister s c m receiverOpen = some (s₁, pr) at hstep
    unfold joinRegister at hstep
    rw [hmono] at hstep
    cases hstep
    obtain ⟨rfl, heq⟩ := Program.runAlone_done hrest
    cases heq
    exact ⟨receiverOpen, rfl, hctx, rfl⟩
  | _ => cases hstep

/-- What follows the first segment, if the channel takes the message. -/
theorem join_sends {answers : List Answer} {m : MonolithId} {shouldCreateRoom : Bool} {r : TaskEnd}
    (hm : s.ctx.Connected m) (hsent : .sent .timeout ∉ answers)
    (h : balancer.runAlone answers (.waiting (.joinSend c m shouldCreateRoom)) s = some (s', r)) :
    (.lockHandOver false ∉ answers ∧ s'.ctx = (if shouldCreateRoom
        then (s.ctx.removeRoom c.room m).1 else s.ctx)) ∨
    ∃ receiverOpen, answers = [.sent .ok, .lockHandOver receiverOpen] ∧
      s'.ctx = s.ctx.registerClient c m ∧ r = if receiverOpen then .ok else .err .receiverClosed := by
  obtain ⟨x, rest, s₁, pr, rfl, hstep, hrest⟩ := Program.runAlone_waiting h
  cases x with
  | sent result =>
    cases result with
    | timeout => exact absurd (List.mem_cons_self ..) hsent
    | ok =>
      cases hstep
      obtain ⟨receiverOpen, rfl, hctx, hr⟩ := join_registers (s := s.post m _) hm hrest
      exact .inr ⟨receiverOpen, rfl, hctx, hr⟩
    | serde =>
      left
      cases shouldCreateRoom with
      | false =>
        cases hstep
        obtain ⟨rfl, heq⟩ := Program.runAlone_done hrest
        cases heq
        exact ⟨by decide, rfl⟩
      | true =>
        cases hstep
        obtain ⟨y, rest, s₂, pr, rfl, hstep, hrest⟩ := Program.runAlone_waiting hrest
        cases y with
        | lock =>
          cases hstep
          obtain ⟨rfl, heq⟩ := Program.runAlone_done hrest
          cases heq
          exact ⟨by decide, rfl⟩
        | _ => cases hstep
  | _ => cases hstep

theorem registerClient_roomsToMonoliths (ctx : BalancerContext) (c : NewClient) (m : MonolithId) :
    (ctx.registerClient c m).roomsToMonoliths = ctx.roomsToMonoliths := by
  unfold registerClient
  split <;> rfl

/-- The room that was made is mapped, and its monolith is there. -/
theorem addRoom_ok {room : RoomName} {locator : RoomLocator}
    (hadd : ctx.addRoom room locator = (ctx', .ok ())) :
    ctx'.roomsToMonoliths.get? room = some locator ∧ ctx'.Connected locator.monolithId := by
  rcases addRoom_cases ctx room locator with ⟨-, heq⟩ | ⟨mono, hmono, ⟨-, heq⟩ | ⟨-, heq⟩⟩
  · rw [heq] at hadd
    cases hadd
  · rw [heq] at hadd
    cases hadd
  · rw [heq] at hadd
    cases hadd
    refine ⟨?_, ?_⟩
    · dsimp only
      rw [OrderedMap.get?_set, if_pos rfl]
    · rw [Connected, OrderedMap.contains_set, decide_eq_true rfl]
      rfl

theorem joinsInPeace_iff {selected : Option MonolithId} {answers : List Answer} :
    JoinsInPeace s c (.lockSelecting selected :: answers) ↔
      (s.ctx.roomsToMonoliths.get? c.room = none → ∀ m ∈ selected, ¬ s.ctx.Holds m c.room) ∧
        .lockHandOver false ∉ answers := by
  constructor
  · rintro ⟨hselected, hwaits⟩
    refine ⟨fun hnone m hm => ?_, fun hmem => hwaits (List.mem_cons_of_mem _ hmem)⟩
    cases hm
    exact hselected hnone m rfl
  · rintro ⟨hfree, hwaits⟩
    refine ⟨fun hnone m hm => ?_, fun hmem => ?_⟩
    · cases hm
      exact hfree hnone m rfl
    · rcases List.mem_cons.mp hmem with heq | hmem
      · cases heq
      · exact hwaits hmem

/-- A join that has registered its client fails if nobody waits for the link. -/
theorem handsOver_iff {same free : Prop} (hfree : free) (hsame : ¬ same) (receiverOpen : Bool) :
    (∀ e, (if receiverOpen then TaskEnd.ok else .err .receiverClosed) = .err e → same) ↔
      free ∧ Answer.lockHandOver false ∉ [.sent .ok, .lockHandOver receiverOpen] := by
  cases receiverOpen with
  | true => exact iff_of_true nofun ⟨hfree, by decide⟩
  | false => exact iff_of_false (fun h => hsame (h _ rfl)) (fun h => absurd h.2 (by decide))

/-- **A failed join leaves no trace** exactly if no monolith refuses the room and the client still
waits for its link. -/
theorem failedJoinKeeps_iff {answers : List Answer} {r : TaskEnd}
    (hrun : balancer.runAlone answers (.waiting (Call.joinClient c).task) s = some (s', r))
    (hsent : .sent .timeout ∉ answers) :
    FailedJoinKeeps s c answers ↔ JoinsInPeace s c answers := by
  have hkeeps : FailedJoinKeeps s c answers ↔ ∀ e, r = .err e → SameRouting s.ctx s'.ctx := by
    unfold FailedJoinKeeps
    rw [hrun]
    constructor
    · intro h e hr
      exact h hsent s' e (by rw [hr])
    · intro h _ _ e heq
      cases heq
      exact h e rfl
  rw [hkeeps]
  obtain ⟨x, rest, s₁, pr, rfl, hstep, hrest⟩ := Program.runAlone_waiting hrun
  cases x with
  | lockSelecting selected =>
    have hrest' : Answer.sent .timeout ∉ rest := fun h => hsent (List.mem_cons_of_mem _ h)
    rcases joinReserve_cases hstep with ⟨r', rfl, rfl, hfree⟩ | ⟨m, rfl, rfl, hmapped, hm⟩ |
      ⟨m, hm, e, hroom, hholds, hctx, rfl⟩ | ⟨m, hm, hroom, hholds, hadd, rfl⟩
    · obtain ⟨rfl, heq⟩ := Program.runAlone_done hrest
      cases heq
      exact iff_of_true (fun _ _ => .refl _) (joinsInPeace_iff.mpr ⟨hfree, nofun⟩)
    · have hfree : s₁.ctx.roomsToMonoliths.get? c.room = none →
          ∀ m ∈ selected, ¬ s₁.ctx.Holds m c.room := fun hnone => absurd hnone hmapped
      rw [joinsInPeace_iff]
      rcases join_sends hm hrest' hrest with ⟨hwaits, hctx⟩ | ⟨receiverOpen, rfl, hctx, rfl⟩
      · exact iff_of_true (fun _ _ => hctx ▸ .refl _) ⟨hfree, hwaits⟩
      · obtain ⟨mono, hmono⟩ := connected_iff.mp hm
        rw [hctx]
        exact handsOver_iff hfree (not_sameRouting_registerClient hmono) receiverOpen
    · obtain ⟨rfl, heq⟩ := Program.runAlone_done hrest
      cases heq
      refine iff_of_false (fun h => ?_) (fun h => ?_)
      · have hroom' := (h e rfl).mapped c.room
        rw [hctx, OrderedMap.get?_set, if_pos rfl, hroom] at hroom'
        cases hroom'
      · exact (joinsInPeace_iff.mp h).1 hroom m hm hholds
    · obtain ⟨hmapped, hconnected⟩ := addRoom_ok hadd
      have hfree : s.ctx.roomsToMonoliths.get? c.room = none →
          ∀ m ∈ selected, ¬ s.ctx.Holds m c.room := by
        intro _ m' hm'
        cases hm
        cases hm'
        exact hholds
      rw [joinsInPeace_iff]
      rcases join_sends hconnected hrest' hrest with ⟨hwaits, hctx⟩ | ⟨receiverOpen, rfl, hctx, rfl⟩
      · exact iff_of_true (fun _ _ => hctx ▸ sameRouting_removeRoom hroom hadd) ⟨hfree, hwaits⟩
      · refine handsOver_iff hfree (fun h => ?_) receiverOpen
        have hroom' := h.mapped c.room
        rw [hctx, registerClient_roomsToMonoliths, hmapped, hroom] at hroom'
        cases hroom'
  | _ => cases hstep

/-! ## All failures -/

theorem failures_keep_routing_iff (ctx : BalancerContext) (room : RoomName) (locator : RoomLocator)
    (s s' : State) (c : NewClient) (answers : List Answer) (r : TaskEnd) :
    (FailedAddKeeps ctx room locator ↔ MapsWhatIsHeld ctx room locator) ∧
    (balancer.runAlone answers (.waiting (Call.joinClient c).task) s = some (s', r) →
      .sent .timeout ∉ answers → (FailedJoinKeeps s c answers ↔ JoinsInPeace s c answers)) := by
  constructor
  · exact failedAddKeeps_iff ctx room locator
  · intro hrun hsent
    exact failedJoinKeeps_iff hrun hsent

def lobby : RoomName := RoomName.ofString "lobby"

/-- A message that cannot be serialized. -/
theorem failures_keep_routing_iff_serde :
    FailedJoinKeeps ⟨(new "local").addMonolith (.new ⟨1, "local"⟩), []⟩ ⟨7, lobby, "local", "token"⟩
      [.lockSelecting (some 1), .sent .serde, .lock] := by
  refine ((failures_keep_routing_iff (.new "local") lobby ⟨1, 0⟩ _ _ _ _ _).2 rfl (by decide)).mpr
    ⟨fun _ m hm => ?_, by decide⟩
  cases hm
  rw [holds_iff rfl]
  decide

/-- The room is unloaded while its first client joins, and made once more for the client. Nothing
maps it then. -/
def leftBehind : List (PoolEvent Call Answer Empty) :=
  [.call (.joinMonolith ⟨1, "local"⟩), .answer 0 (.lockHandOver true),
   .call (.joinClient ⟨7, lobby, "local", "token"⟩), .answer 1 (.lockSelecting (some 1)),
   .answer 1 (.sent .ok), .call (.unloaded 1 lobby), .answer 2 .lock,
   .answer 1 (.lockHandOver true)]

/-- The next client that joins is refused. -/
theorem leftBehind_refused :
    ((balancer.machine.run (init "local") leftBehind).bind (fun p =>
      (balancer.runAlone [.lockSelecting (some 1)]
        (.waiting (Call.joinClient ⟨8, lobby, "local", "token"⟩).task) p.shared).map (fun o =>
          ((p.shared.ctx.monoliths.get? 1).map (fun m => m.rooms.contains lobby),
            p.shared.ctx.roomsToMonoliths.get? lobby, o.1.ctx.roomsToMonoliths.get? lobby, o.2)))) =
      some (some true, none, some ⟨1, u32Max⟩, .err (.monolithAlreadyHasRoom lobby)) := by
  decide +kernel

/-- **Neither operation keeps the routing table**, in a context that the balancer gets into. -/
theorem not_failures_keep_routing :
    (¬ ∀ region es p, balancer.machine.run (init region) es = some p →
      ∀ room locator, FailedAddKeeps p.shared.ctx room locator) ∧
    ¬ ∀ region es p, balancer.machine.run (init region) es = some p →
      ∀ c answers, FailedJoinKeeps p.shared c answers := by
  obtain ⟨p, hp, hjoin⟩ := Option.bind_eq_some_iff.mp leftBehind_refused
  obtain ⟨⟨s', r⟩, hrun, heq⟩ := Option.map_eq_some_iff.mp hjoin
  simp only [Prod.mk.injEq] at heq
  obtain ⟨hholds, hnone, hsome, rfl⟩ := heq
  obtain ⟨mono, hmono, hhas⟩ := Option.map_eq_some_iff.mp hholds
  constructor
  · intro h
    have hmapped := (failedAddKeeps_iff _ lobby ⟨1, 0⟩).mp (h _ _ p hp lobby ⟨1, 0⟩)
      ((holds_iff hmono).mpr hhas)
    rw [hnone] at hmapped
    cases hmapped
  · intro h
    have hmapped := (h _ _ p hp _ _ (by decide) s' _ hrun).mapped lobby
    rw [hnone, hsome] at hmapped
    cases hmapped

end OpenTogetherTube.Balancer
