import OpenTogetherTube.Server.Ballots
import OpenTogetherTube.Server.Reachable

/-!
# Votes for the queue

In vote mode the queue is sorted by the votes for its videos. The votes for a video are kept under
its service and id run together, and a vote stays until the same client takes it back or leaves; but
a client that leaves takes its votes along only while the room is in vote mode.

A `State` has with the room what each client last said about each video. `counted_throughout_iff`
says in which runs the votes of a room are always those of the clients that are there, each as it
voted last: those whose steps are `Fair`. In `not_counted_throughout` a client votes, leaves while
the room is in another mode, and is counted when the room is back in vote mode.
-/

namespace OpenTogetherTube.Server

open OpenTogetherTube.Common OpenTogetherTube.Lib

/-! ## The key of a video -/

def allServices : List VideoService :=
  [.youtube, .vimeo, .direct, .hls, .dash, .tubi, .reddit, .googledrive, .peertube, .pluto,
    .invidious, .odysee]

theorem mem_allServices (service : VideoService) : service ∈ allServices := by
  cases service <;> simp [allServices]

/-- No service's name begins another's. -/
theorem eq_of_prefix_name {a b : VideoService} (h : a.name.toList <+: b.name.toList) : a = b := by
  have hall : ∀ a ∈ allServices, ∀ b ∈ allServices, a.name.toList <+: b.name.toList → a = b := by
    decide +kernel
  exact hall a (mem_allServices a) b (mem_allServices b) h

/-- **Distinct videos have distinct keys.** -/
theorem voteKey_injective : Function.Injective Room.voteKey := by
  intro a b h
  have hlists : a.service.name.toList ++ a.id.toList = b.service.name.toList ++ b.id.toList := by
    have := congrArg String.toList h
    simpa only [Room.voteKey, String.toList_append] using this
  have hservice : a.service = b.service := by
    rcases List.prefix_or_prefix_of_prefix (List.prefix_append a.service.name.toList a.id.toList)
      (hlists ▸ List.prefix_append b.service.name.toList b.id.toList) with hab | hba
    · exact eq_of_prefix_name hab
    · exact (eq_of_prefix_name hba).symm
  have hid : a.id = b.id := by
    rw [hservice] at hlists
    exact String.toList_inj.mp (List.append_cancel_left hlists)
  obtain ⟨service, id⟩ := a
  exact congrArg₂ VideoId.mk hservice hid

namespace Room

/-! ## The votes for a video -/

/-- `this.votes.get(video.service + video.id)`, empty if absent. -/
def votesFor (r : Room) (video : VideoId) : OrderedSet ClientId :=
  (r.votes.get? (voteKey video)).getD ∅

theorem size_votesFor_eq (r : Room) (video : VideoId) :
    (r.votesFor video).size = ((r.votes.get? (voteKey video)).map (·.size)).getD 0 := by
  unfold votesFor
  cases r.votes.get? (voteKey video) with
  | none => rfl
  | some votes => rfl

theorem lookup_voteCounts (r : Room) (video : VideoId) :
    (r.voteCounts.lookup (voteKey video)).getD 0 = (r.votesFor video).size := by
  rw [size_votesFor_eq, voteCounts, OrderedMap.get?]
  congr 1
  induction r.votes.entries with
  | nil => rfl
  | cons e entries ih =>
    rw [List.map_cons, List.lookup_cons, List.find?_cons]
    by_cases h : e.1 = voteKey video
    · simp [h]
    · have hkey : (voteKey video == e.1) = false := beq_false_of_ne (Ne.symm h)
      rw [hkey]
      simp only [h, decide_false]
      exact ih

theorem has_castVote (r : Room) (video v : VideoId) (add : Bool) (client c : ClientId) :
    ((r.castVote video add client).votesFor v).has c =
      if c = client ∧ v = video then add else (r.votesFor v).has c := by
  have hkey : voteKey v = voteKey video ↔ v = video := voteKey_injective.eq_iff
  unfold votesFor castVote
  by_cases hv : v = video
  · subst hv
    cases hvotes : r.votes.get? (voteKey v) with
    | some votes => cases add <;> by_cases hc : c = client <;> simp [hc]
    | none => cases add <;> by_cases hc : c = client <;> simp [hvotes, hc]
  · cases r.votes.get? (voteKey video) with
    | some votes => simp [hkey, hv]
    | none => cases add <;> simp [hkey, hv]

theorem has_dropVotes (r : Room) (client c : ClientId) (v : VideoId) :
    ((r.dropVotes client).votesFor v).has c =
      if r.queueMode = .vote ∧ c = client then false else (r.votesFor v).has c := by
  unfold dropVotes
  by_cases hmode : r.queueMode = .vote
  · have hvotes : ∀ r' : Room, r'.votes = r.votes.mapValues (fun _ set => set.delete client) →
        (r'.votesFor v).has c = if c = client then false else (r.votesFor v).has c := by
      intro r' h
      rw [votesFor, votesFor, h, OrderedMap.get?_mapValues]
      cases r.votes.get? (voteKey v) with
      | none => simp
      | some votes => by_cases hc : c = client <;> simp [hc]
    simp only [hmode, true_and, if_true]
    apply hvotes
    split <;> rfl
  · simp [hmode]

theorem has_left (r : Room) (client c : ClientId) (v : VideoId) :
    ((r.left client).votesFor v).has c =
      if r.queueMode = .vote ∧ c = client then false else (r.votesFor v).has c := by
  have hskip : ∀ r' : Room, r'.votes = r.votes → r'.queueMode = r.queueMode →
      (((r'.dropVotes client).removeUser client).votesFor v).has c =
        if r.queueMode = .vote ∧ c = client then false else (r.votesFor v).has c := by
    intro r' hvotes hmode
    have hsame : r'.votesFor v = r.votesFor v := by
      rw [votesFor, hvotes, votesFor]
    rw [← hmode, ← hsame, ← has_dropVotes]
    rfl
  unfold left
  apply hskip
  · split <;> rfl
  · split <;> rfl

end Room

/-! ## The system -/

namespace QueueVotes

open Room ClientManager

/-- A room, and what each client said last about each video: whether it votes for it. -/
structure State where
  room : Room
  voted : ClientId → VideoId → Bool

inductive Event where
  | request (env : Env) (request : RoomRequest) (context : RoomRequestContext)
  | update (env : Env)

/-- What a client says about a video, where the room lets it. -/
def State.note (s : State) (context : RoomRequestContext) : RoomRequest → ClientId → VideoId → Bool
  | .vote video add =>
    if s.room.grants.granted context.role "manage-queue.vote" then
      fun c v => if truthy context.clientId = some c ∧ v = video then add else s.voted c v
    else s.voted
  | _ => s.voted

def State.request (s : State) (env : Env) (request : RoomRequest) (context : RoomRequestContext) :
    State :=
  ⟨((processRequest env request context).run s.room).state, s.note context request⟩

def system : Machine State Event where
  step s
    | .request env request context => some (s.request env request context)
    | .update env => some { s with room := ((update env).run s.room).state }

/-- The client is there, and said last that it votes for the video. -/
def State.Supports (s : State) (c : ClientId) (v : VideoId) : Prop :=
  c ∈ ids s.room ∧ s.voted c v = true

/-- The clients that do, each once. -/
def State.supporters (s : State) (v : VideoId) : List ClientId :=
  (ids s.room).dedup.filter (fun c => s.voted c v)

/-- **The purpose**: the votes for a video are those of its supporters, and it is these that are
counted for the clients, and that the queue is sorted by. -/
structure Counted (s : State) : Prop where
  votes : ∀ c v, (s.room.votesFor v).has c = true ↔ s.Supports c v
  counts : ∀ v, (s.room.voteCounts.lookup (voteKey v)).getD 0 = (s.supporters v).length
  order : s.room.queueMode = .vote → s.room.sortByVotes =
    s.room.withQueue (s.room.queue.orderBy (fun item => (s.supporters item.toVideoId).length))

/-! ### The condition -/

/-- The condition on a step. A client votes for a video while it is there; a client that comes has
voted for nothing; and one that leaves has voted for nothing, or leaves in vote mode for good, or
leaves in another mode and is there still. -/
def Fair (s : State) : Event → Prop
  | .request env (.join info) context =>
    joins env info context = true → info.id ∈ ids s.room ∨ ∀ v, s.voted info.id v = false
  | .request _ .leave context =>
    ∀ c, context.clientId = some c → c ∈ ids s.room → (∃ v, s.voted c v = true) →
      (s.room.queueMode = .vote ↔ c ∉ (ids s.room).erase c)
  | .request _ (.vote video add) context =>
    add = true → s.room.Permitted (.vote video add) context →
      ∀ c, truthy context.clientId = some c → c ∈ ids s.room
  | _ => True

/-! ## The votes of the supporters -/

section Steps

variable {s : State}

/-- Nothing but the votes themselves decides the counts and the order. -/
theorem mem_supporters {c : ClientId} {v : VideoId} : c ∈ s.supporters v ↔ s.Supports c v := by
  rw [State.supporters, List.mem_filter, List.mem_dedup, State.Supports]

theorem size_votesFor (h : ∀ c v, (s.room.votesFor v).has c = true ↔ s.Supports c v) (v : VideoId) :
    (s.room.votesFor v).size = (s.supporters v).length := by
  have hperm : (s.room.votesFor v).toList.Perm (s.supporters v) := by
    apply (List.perm_ext_iff_of_nodup (s.room.votesFor v).nodupKeys
      ((List.nodup_dedup _).filter _)).mpr
    intro c
    have hmem : c ∈ s.supporters v ↔ (s.room.votesFor v).has c = true := by
      rw [mem_supporters, h c v]
    exact OrderedMap.mem_keys_iff.trans hmem.symm
  rw [← hperm.length_eq]
  exact (List.length_map _).symm

/-- Nothing but the votes themselves decides the counts and the order. -/
theorem counted_iff : Counted s ↔ ∀ c v, (s.room.votesFor v).has c = true ↔ s.Supports c v := by
  constructor
  · exact Counted.votes
  · intro h
    refine ⟨h, fun v => ?_, fun hmode => ?_⟩
    · rw [lookup_voteCounts, size_votesFor h]
    · rw [sortByVotes, if_pos hmode]
      congr 2
      funext item
      rw [← size_votesFor h, size_votesFor_eq]

/-- What a step keeps: the votes, the clients, and what they said. -/
theorem counted_congr {s' : State} (hs : Counted s) (hvotes : s'.room.votes = s.room.votes)
    (hids : ids s'.room = ids s.room) (hvoted : s'.voted = s.voted) : Counted s' := by
  rw [counted_iff] at hs ⊢
  intro c v
  rw [votesFor, hvotes, State.Supports, hids, hvoted]
  exact hs c v

theorem vote_counted_iff (hs : Counted s) (env : Env) (video : VideoId) (add : Bool)
    (context : RoomRequestContext) :
    Counted (s.request env (.vote video add) context) ↔
      Fair s (.request env (.vote video add) context) := by
  have hids : ids (s.request env (.vote video add) context).room = ids s.room :=
    processRequest_ids (by rintro _ ⟨⟩) (by rintro ⟨⟩) env context s.room
  rcases mediated_cases (.vote video add) context (vote video add context) s.room with
    ⟨hpermitted, hrun⟩ | ⟨hdenied, hrun⟩
  · have hgranted := hpermitted _ rfl
    cases hclient : truthy context.clientId with
    | none =>
      refine iff_of_true (counted_congr hs ?_ hids ?_) ?_
      · show ((mediated (.vote video add) context
          (vote video add context)).run s.room).state.votes = _
        rw [hrun, vote, hclient]
        rfl
      · simp only [State.request, State.note, hgranted, hclient]
        simp
      · intro _ _ c h
        rw [hclient] at h
        cases h
    | some client =>
      have hvotes : ∀ c v, ((s.request env (.vote video add) context).room.votesFor v).has c =
          if c = client ∧ v = video then add else (s.room.votesFor v).has c := by
        intro c v
        rw [← has_castVote]
        show (votesFor ((mediated (.vote video add) context
          (vote video add context)).run s.room).state v).has c = _
        rw [hrun, vote, hclient]
        rfl
      have hvoted : ∀ c v, (s.request env (.vote video add) context).voted c v =
          if c = client ∧ v = video then add else s.voted c v := by
        intro c v
        simp only [State.request, State.note, hgranted, hclient, Option.some.injEq, if_true,
          eq_comm (a := client)]
      rw [counted_iff]
      constructor
      · intro h hadd _ c hc
        obtain rfl := Option.some.inj (hclient.symm.trans hc)
        have hsupports := (h client video).mp (by rw [hvotes, if_pos ⟨rfl, rfl⟩, hadd])
        exact hids ▸ hsupports.1
      · intro hfair c v
        rw [State.Supports, hids, hvotes, hvoted]
        by_cases hsame : c = client ∧ v = video
        · rw [if_pos hsame, if_pos hsame, hsame.1]
          exact ⟨fun hadd => ⟨hfair hadd hpermitted client hclient, hadd⟩, fun h => h.2⟩
        · rw [if_neg hsame, if_neg hsame]
          exact hs.votes c v
  · refine iff_of_true (counted_congr hs (congrArg votes hrun) hids ?_)
      (fun _ h => absurd h hdenied)
    have hnot : s.room.grants.granted context.role "manage-queue.vote" = false := by
      by_contra h
      refine hdenied (fun permission heq => ?_)
      cases heq
      simpa using h
    simp only [State.request, State.note, hnot]
    simp

theorem join_counted_iff (hs : Counted s) (env : Env) (info : ClientInfo)
    (context : RoomRequestContext) :
    Counted (s.request env (.join info) context) ↔ Fair s (.request env (.join info) context) := by
  have hstate : (s.request env (.join info) context).room =
      ((joinRoom env info context).run s.room).state :=
    congrArg Outcome.state (mediated_unlisted (.join info) rfl _ s.room)
  rcases joinRoom_cases env info context s.room with ⟨hjoins, hsame⟩ | ⟨hjoins, u, hid, hadded⟩
  · refine iff_of_true (counted_congr hs ?_ ?_ rfl) (fun h => ?_)
    · rw [hstate, hsame]
    · rw [hstate, hsame]
    · rw [hjoins] at h
      cases h
  · have hvotes : ∀ v,
        (s.request env (.join info) context).room.votesFor v = s.room.votesFor v := by
      intro v
      rw [hstate, hadded]
      rfl
    have hids : ids (s.request env (.join info) context).room = ids s.room ++ [info.id] := by
      rw [hstate, hadded, ids, List.map_append, List.map_singleton, hid, ids]
    rw [counted_iff]
    constructor
    · intro h _
      by_cases hmem : info.id ∈ ids s.room
      · exact .inl hmem
      · right
        intro v
        by_contra hvoted
        have hsupports : (s.request env (.join info) context).Supports info.id v :=
          ⟨by simp [hids], Bool.eq_true_of_not_eq_false hvoted⟩
        rw [← h, hvotes, hs.votes] at hsupports
        exact hmem hsupports.1
    · intro hfair c v
      rw [hvotes, hs.votes, State.Supports, State.Supports, hids, List.mem_append,
        List.mem_singleton]
      show _ ↔ _ ∧ s.voted c v = true
      constructor
      · exact fun h => ⟨.inl h.1, h.2⟩
      · rintro ⟨hmem | rfl, hvoted⟩
        · exact ⟨hmem, hvoted⟩
        · rcases hfair hjoins with hmem | hnone
          · exact ⟨hmem, hvoted⟩
          · rw [hnone v] at hvoted
            cases hvoted

theorem leave_counted_iff (hs : Counted s) (env : Env) (context : RoomRequestContext) :
    Counted (s.request env .leave context) ↔ Fair s (.request env .leave context) := by
  have hstate : (s.request env .leave context).room = ((leaveRoom context).run s.room).state :=
    congrArg Outcome.state (mediated_unlisted .leave rfl _ s.room)
  rcases leaveRoom_cases context s.room with ⟨client, hclient, hmem, hleft⟩ | ⟨habsent, hsame⟩
  · rw [counted_iff]
    have hids : ids (s.request env .leave context).room = (ids s.room).erase client := by
      rw [hstate, hleft, left_ids]
    have hvotes : ∀ c v, ((s.request env .leave context).room.votesFor v).has c =
        if s.room.queueMode = .vote ∧ c = client then false else (s.room.votesFor v).has c := by
      intro c v
      rw [hstate, hleft, has_left]
    constructor
    · intro h c hc _ ⟨v, hvoted⟩
      obtain rfl := Option.some.inj (hclient.symm.trans hc)
      have hhas : (s.room.votesFor v).has client = true := (hs.votes client v).mpr ⟨hmem, hvoted⟩
      have hcounted := h client v
      rw [hvotes, State.Supports, hids] at hcounted
      constructor
      · intro hmode hstill
        rw [if_pos ⟨hmode, rfl⟩] at hcounted
        exact absurd (hcounted.mpr ⟨hstill, hvoted⟩) Bool.false_ne_true
      · intro hgone
        by_contra hmode
        rw [if_neg (fun h => hmode h.1)] at hcounted
        exact hgone (hcounted.mp hhas).1
    · intro hfair c v
      rw [hvotes, State.Supports, hids]
      show _ ↔ _ ∧ s.voted c v = true
      by_cases hc : c = client
      · subst hc
        have hfair' := fun hvoted => hfair c hclient hmem ⟨v, hvoted⟩
        by_cases hmode : s.room.queueMode = .vote
        · rw [if_pos ⟨hmode, rfl⟩]
          exact iff_of_false Bool.false_ne_true (fun h => (hfair' h.2).mp hmode h.1)
        · rw [if_neg (fun h => hmode h.1), hs.votes]
          refine ⟨fun h => ⟨?_, h.2⟩, fun h => ⟨hmem, h.2⟩⟩
          by_contra hgone
          exact hmode ((hfair' h.2).mpr hgone)
      · rw [if_neg (fun h => hc h.2), hs.votes, State.Supports, List.mem_erase_of_ne hc]
  · refine iff_of_true (counted_congr hs ?_ ?_ rfl) (fun c hc hmem => absurd hmem (habsent c hc))
    · rw [hstate, hsame]
    · rw [hstate, hsame]

theorem request_counted_iff (hs : Counted s) (env : Env) (request : RoomRequest)
    (context : RoomRequestContext) :
    Counted (s.request env request context) ↔ Fair s (.request env request context) := by
  -- what the other requests do not touch
  have hkept : (∀ video add, request ≠ .vote video add) → (∀ info, request ≠ .join info) →
      request ≠ .leave →
      Counted ⟨((processRequest env request context).run s.room).state, s.voted⟩ := by
    intro hvote hjoin hleave
    exact counted_congr hs (processRequest_votes hvote hleave env context s.room)
      (processRequest_ids hjoin hleave env context s.room) rfl
  cases request with
  | vote video add => exact vote_counted_iff hs env video add context
  | join info => exact join_counted_iff hs env info context
  | leave => exact leave_counted_iff hs env context
  | _ =>
    exact iff_of_true (hkept (by rintro _ _ ⟨⟩) (by rintro _ ⟨⟩) (by rintro ⟨⟩)) trivial

end Steps

/-! ## Rooms -/

/-- Nobody is in a new room, and it has no votes. Neither is among the options. -/
def electorate (r : Room) : List RoomUser × OrderedMap String (OrderedSet ClientId) :=
  (r.realusers, r.votes)

theorem construct_electorate (options : RoomOptions) (now : Time) :
    electorate (construct options now) = ([], ∅) := by
  have hprev : ∀ (r : Room) value, electorate (r.setPrevQueue value) = electorate r := by
    intro r value
    unfold setPrevQueue
    split <;> rfl
  have hassigned : electorate ((blank now).assignOptions options) = ([], ∅) := by
    unfold assignOptions
    dsimp only
    iterate 2 refine (assign_same (f := electorate) (by exact fun _ _ => rfl) _ _).trans ?_
    refine (assign_same (f := electorate) hprev _ _).trans ?_
    iterate 13 refine (assign_same (f := electorate) (by exact fun _ _ => rfl) _ _).trans ?_
    rfl
  have hrestored : ∀ r : Room, electorate r.restored = electorate r := by
    intro r
    rcases r.restored_cases with ⟨-, h⟩ | ⟨-, -, items, -, h⟩ | ⟨-, -, h⟩
    · rw [h, hprev]
    · rw [h, hprev]
      rfl
    · rw [h]
  rw [construct_eq]
  exact (hrestored _).trans hassigned

theorem construct_counted (options : RoomOptions) (now : Time) :
    Counted ⟨construct options now, fun _ _ => false⟩ := by
  obtain ⟨-, hvotes⟩ := Prod.mk.inj (construct_electorate options now)
  rw [counted_iff]
  intro c v
  rw [votesFor, hvotes]
  exact iff_of_false Bool.false_ne_true (fun h => Bool.false_ne_true h.2)

/-- **When the votes are those of the clients that are there**, in every run from a new room. -/
theorem counted_throughout_iff (options : RoomOptions) (now : Time) (es : List Event) :
    Function.Injective voteKey ∧
    (system.Always Counted ⟨construct options now, fun _ _ => false⟩ es ↔
      system.Along Fair ⟨construct options now, fun _ _ => false⟩ es) := by
  refine ⟨voteKey_injective, Machine.always_iff_along ?_ (construct_counted options now)⟩
  intro s e s' hs h
  cases e with
  | request env request context =>
    cases h
    exact request_counted_iff hs env request context
  | update env =>
    cases h
    have hids : ids ((update env).run s.room).state = ids s.room :=
      congrArg (fun p : Standing => p.realusers.map RoomUser.id) (update_standing env s.room)
    exact iff_of_true (counted_congr hs (update_votes env s.room) hids rfl) trivial

def guest : RoomRequestContext :=
  ⟨"", .unregisteredUser, some "guest", some ⟨"token", some "guest"⟩⟩

def film : VideoId := ⟨.youtube, "film"⟩

/-- The owner changes the queue mode. -/
def toMode (mode : QueueMode) : Event :=
  .request (emptyEnv 0) (.applySettings ⟨[.queueMode mode], none, List.nodup_singleton _⟩)
    ⟨"owner", .owner, none, none⟩

/-- A guest votes in vote mode, and leaves while the room is in another. -/
def voteAndLeave : List Event :=
  [toMode .vote, .request (emptyEnv 0) (.join ⟨"guest", none, none, none⟩) guest,
    .request (emptyEnv 0) (.vote film true) guest, toMode .manual,
    .request (emptyEnv 0) .leave guest, toMode .vote]

/-- **The votes can be those of clients that have left.** -/
theorem not_counted_throughout : ¬ ∀ (options : RoomOptions) (now : Time) (es : List Event),
    system.Always Counted ⟨construct options now, fun _ _ => false⟩ es := by
  intro h
  have hrun : ∃ s, system.run ⟨construct { name := some "foo" } 0, fun _ _ => false⟩ voteAndLeave =
      some s ∧ s.room.queueMode = .vote ∧ (s.room.votesFor film).has "guest" = true ∧
        ids s.room = [] :=
    ⟨_, rfl, by decide +kernel, by decide +kernel, by decide +kernel⟩
  obtain ⟨s, hs, -, hhas, hnobody⟩ := hrun
  have hsupports := (((h _ _ _).last hs).votes "guest" film).mp hhas
  rw [State.Supports, hnobody] at hsupports
  cases hsupports.1

end QueueVotes

end OpenTogetherTube.Server
