import OpenTogetherTube.Server.Ballots
import OpenTogetherTube.Server.Dirty
import OpenTogetherTube.Server.Reachable

/-!
# Votes to skip

With vote skipping on, a skip request is a vote, and the video is skipped once half of those that
may skip it have voted. Going on to the next video clears the votes, and a client that leaves takes
its vote along; but playing a video at once and undoing change the video and keep the votes, and
while vote skipping is off nothing clears them.

A `State` has with the room who voted since the video that plays last changed. In runs whose steps
are `Fresh`, and in no others, the votes are always those of clients that are there, cast while the
same video played (`current_throughout_iff`), and then a skip has the majority it needs. In
`not_current_throughout` a vote against one video is kept when another is played at once.
-/

namespace OpenTogetherTube.Server

open OpenTogetherTube.Common OpenTogetherTube.Lib

namespace Room

/-! ## Settings -/

theorem applySetting_enableVoteSkip (r : Room) (s : RoomSetting)
    (h : ∀ v, s ≠ .enableVoteSkip v) : (r.applySetting s).enableVoteSkip = r.enableVoteSkip := by
  cases s with
  | enableVoteSkip v => exact absurd rfl (h v)
  | _ => rfl

theorem mem_settingsToApply_enableVoteSkip {r : Room} {props : List RoomSetting} {v : Bool} :
    .enableVoteSkip v ∈ r.settingsToApply props ↔
      .enableVoteSkip v ∈ props ∧ r.enableVoteSkip ≠ v := by
  have hnormal : ∀ setting, r.normalizeSetting setting = .enableVoteSkip v ↔
      setting = .enableVoteSkip v := by
    intro setting
    cases setting with
    | autoSkipSegmentCategories v => simp only [normalizeSetting]; split <;> simp
    | _ => simp [normalizeSetting]
  simp only [settingsToApply, List.mem_map, List.mem_filter, hnormal]
  constructor
  · rintro ⟨setting, ⟨hmem, hheld⟩, rfl⟩
    exact ⟨hmem, fun h => by simp [holdsSetting, h] at hheld⟩
  · rintro ⟨hmem, hne⟩
    exact ⟨_, ⟨hmem, by simpa [holdsSetting] using hne⟩, rfl⟩

/-- Whether the votes decide after the settings is what the settings say, if they do. -/
theorem settingsToApply_enableVoteSkip {settings : RoomSettingsPatch} {r : Room} {v : Bool}
    (h : .enableVoteSkip v ∈ settings.props ∨
      r.enableVoteSkip = v ∧ ∀ v, .enableVoteSkip v ∉ settings.props) :
    ((r.settingsToApply settings.props).foldl applySetting r).enableVoteSkip = v := by
  apply foldl_applySetting_eq (f := enableVoteSkip) (fun _ _ => rfl) applySetting_enableVoteSkip
  · intro v' hv'
    obtain ⟨hmem, -⟩ := mem_settingsToApply_enableVoteSkip.mp hv'
    rcases h with hv | ⟨-, hnone⟩
    · have hsame := List.inj_on_of_nodup_map settings.nodupProps hmem hv rfl
      exact RoomSetting.enableVoteSkip.inj hsame
    · exact absurd hmem (hnone v')
  · rcases h with hv | ⟨hsame, -⟩
    · by_cases hheld : r.enableVoteSkip = v
      · exact .inl hheld
      · exact .inr (mem_settingsToApply_enableVoteSkip.mpr ⟨hv, hheld⟩)
    · exact .inl hsame

/-- **Settings** are applied, or nothing changes. -/
theorem applySettings_votes (settings : RoomSettingsPatch) (context : RoomRequestContext)
    (r : Room) :
    (r.Accepts settings context ∧ ∀ v, (.enableVoteSkip v ∈ settings.props ∨
        r.enableVoteSkip = v ∧ ∀ v, .enableVoteSkip v ∉ settings.props) →
      ((applySettings settings context).run r).state.enableVoteSkip = v) ∨
    (¬ r.Accepts settings context ∧ ((applySettings settings context).run r).state = r) := by
  rcases applySettings_run settings context r with
    ⟨haccepts, masks, want, -, hrun⟩ | ⟨hrefused, e, hrun⟩
  · refine .inl ⟨haccepts, fun v h => ?_⟩
    rw [hrun]
    have hmasks : ∀ r' : Room, (masks.foldl applyMask r').enableVoteSkip = r'.enableVoteSkip :=
      foldl_keeps (R := Handler.SameOn Room.enableVoteSkip) masks (fun _ _ _ => rfl)
    exact (hmasks _).trans (settingsToApply_enableVoteSkip h)
  · exact .inr ⟨hrefused, by rw [hrun]⟩

theorem processRequest_enableVoteSkip {request : RoomRequest}
    (h : ∀ settings, request ≠ .applySettings settings) (env : Env) (context : RoomRequestContext) :
    (processRequest env request context).Keeps (Handler.SameOn Room.enableVoteSkip) := by
  have hstanding : changesStanding request = false →
      (processRequest env request context).Keeps (Handler.SameOn Room.enableVoteSkip) :=
    fun h => (processRequest_standing h env context).part Standing.enableVoteSkip
  have hdrop : ∀ (r : Room) client, (r.dropVotes client).enableVoteSkip = r.enableVoteSkip :=
    dropVotes_keeps (R := Handler.SameOn Room.enableVoteSkip) (fun _ _ => rfl) (fun _ => rfl)
  have hpromoted : ∀ target role (r : Room),
      (promoted target role r).enableVoteSkip = r.enableVoteSkip :=
    promoted_keeps (R := Handler.SameOn Room.enableVoteSkip) (fun _ _ _ => rfl)
  cases request with
  | applySettings settings => exact absurd rfl (h settings)
  | join info => exact mediated_keeps (joinRoom_keeps (fun _ _ => rfl) env info context)
  | leave => exact mediated_keeps (leaveRoom_keeps (fun _ _ => rfl) hdrop (fun _ _ => rfl) context)
  | promote target role => exact mediated_keeps (promoteUser_keeps hpromoted target role context)
  | updateUser info => exact mediated_keeps (updateUser_keeps (fun _ _ => rfl) env info)
  | _ => exact hstanding rfl

end Room

/-! ## The system -/

namespace SkipVotes

open Room ClientManager

/-- A room, and the clients that voted to skip since the video that plays last changed. -/
structure State where
  room : Room
  against : List ClientId

inductive Event where
  | request (env : Env) (request : RoomRequest) (context : RoomRequestContext)
  | update (env : Env)

/-- The vote that a skip request casts: that of its client, which had not voted. -/
def State.cast (s : State) (context : RoomRequestContext) : RoomRequest → List ClientId
  | .skip =>
    if s.room.grants.granted context.role "playback.skip" ∧ s.room.currentSource.isSome ∧
        s.room.enableVoteSkip then
      (truthy context.clientId).toList.filter (fun c => s.room.votesToSkip.has c = false)
    else []
  | _ => []

/-- The room changes, and the votes count as long as the video is the same. -/
def State.becomes (s : State) (room : Room) (cast : List ClientId) : State :=
  ⟨room, if room.ballot.video = s.room.ballot.video then s.against ++ cast else []⟩

def State.request (s : State) (env : Env) (request : RoomRequest) (context : RoomRequestContext) :
    State :=
  s.becomes ((processRequest env request context).run s.room).state (s.cast context request)

def State.update (s : State) (env : Env) : State :=
  s.becomes ((Room.update env).run s.room).state []

def system : Machine State Event where
  step s
    | .request env request context => some (s.request env request context)
    | .update env => some (s.update env)

/-- Every vote is of a client that is there, and was cast while the same video played. -/
def State.Stand (s : State) : Prop :=
  ∀ c, s.room.votesToSkip.has c = true → c ∈ ids s.room ∧ c ∈ s.against

/-- **The purpose**: as long as the votes decide, they do. -/
def Current (s : State) : Prop := s.room.enableVoteSkip = true → s.Stand

/-! ### The condition -/

/-- Another video may be put in place while the votes do not decide, or nobody has voted. -/
def State.MayPlace (s : State) (video : Option VideoId) : Prop :=
  s.room.enableVoteSkip = true →
    video = s.room.ballot.video ∨ ∀ c, s.room.votesToSkip.has c = false

/-- The condition on a step. A vote that does not suffice is of a client that is there; another
video is put in place only where nobody has voted; and the votes are made to decide where they
stand. -/
def Fresh (s : State) : Event → Prop
  | .request _ .skip context =>
    s.room.Permitted .skip context → s.room.currentSource ≠ none → s.room.enableVoteSkip = true →
      (s.room.voteToSkip context).skipVoted = false →
        ∀ c, truthy context.clientId = some c → c ∈ ids s.room
  | .request env (.playNow video) context =>
    s.room.Permitted (.playNow video) context →
      ∀ v, placed env video context s.room = some v → s.MayPlace v
  | .request _ (.undo request additional) _ =>
    ∀ v, undone request additional s.room = some v → s.MayPlace v
  | .request _ (.applySettings settings) context =>
    s.room.Accepts settings context → .enableVoteSkip true ∈ settings.props → s.Stand
  | _ => True

/-- A skip request that is carried out, because the votes suffice. -/
def Carried (s : State) : Event → Prop
  | .request _ .skip context =>
    s.room.Permitted .skip context ∧ s.room.currentSource ≠ none ∧ s.room.enableVoteSkip = true ∧
      (s.room.voteToSkip context).skipVoted = true
  | _ => False

/-- The users that may skip, as they are counted. -/
def eligible (r : Room) : List RoomUserInfo :=
  r.voters.filter (fun u => r.grants.granted u.role "playback.skip")

/-- Of these, the ones that voted while the video played. -/
def State.opponents (s : State) (context : RoomRequestContext) : List RoomUserInfo :=
  (eligible (s.room.voteToSkip context)).filter (fun u =>
    (s.room.voteToSkip context).votesToSkip.has u.id ∧ u.id ∈ s.against ++ s.cast context .skip)

/-- At least half of those that may skip have voted against the video. -/
def Majority (s : State) : Event → Prop
  | .request _ .skip context =>
    (eligible (s.room.voteToSkip context)).length ≤ 2 * (s.opponents context).length
  | _ => True

/-- Whoever has voted may skip now. -/
def VotersEligible (s : State) : Event → Prop
  | .request _ .skip context => ∀ c, (s.room.voteToSkip context).votesToSkip.has c = true →
      ∃ u ∈ eligible (s.room.voteToSkip context), u.id = c
  | _ => True

/-! ## Votes that stand -/

section Steps

variable {s : State}

/-- What can only help: more clients, fewer votes, the same video. -/
theorem Current.mono (hs : Current s) {r : Room} {cast : List ClientId}
    (henable : r.enableVoteSkip = s.room.enableVoteSkip)
    (hvotes : ∀ c, r.votesToSkip.has c = true → s.room.votesToSkip.has c = true)
    (hids : ∀ c ∈ ids s.room, r.votesToSkip.has c = true → c ∈ ids r)
    (hvideo : r.ballot.video = s.room.ballot.video) : Current (s.becomes r cast) := by
  intro hdecide c hc
  obtain ⟨hmem, hagainst⟩ := hs (henable.symm.trans hdecide) c (hvotes c hc)
  refine ⟨hids c hmem hc, ?_⟩
  show c ∈ if r.ballot.video = s.room.ballot.video then s.against ++ cast else []
  rw [if_pos hvideo]
  exact List.mem_append_left cast hagainst

theorem Current.same (hs : Current s) {r : Room} {cast : List ClientId}
    (henable : r.enableVoteSkip = s.room.enableVoteSkip)
    (hballot : r.ballot = s.room.ballot) (hids : ids r = ids s.room) :
    Current (s.becomes r cast) := by
  have hvotes : r.votesToSkip = s.room.votesToSkip := congrArg Ballot.votesToSkip hballot
  apply hs.mono henable
  · intro c hc
    rwa [hvotes] at hc
  · intro c hc _
    rwa [hids]
  · exact congrArg Ballot.video hballot

/-- **Another video is put in place**. -/
theorem place_current_iff (hs : Current s) {r : Room}
    (henable : r.enableVoteSkip = s.room.enableVoteSkip)
    (hvotes : r.votesToSkip = s.room.votesToSkip) (hids : ids r = ids s.room)
    {placed : Option (Option VideoId)}
    (hvideo : r.ballot.video = placed.getD s.room.ballot.video) :
    Current (s.becomes r []) ↔ ∀ v, placed = some v → s.MayPlace v := by
  constructor
  · intro h v hv henabled
    by_contra hnot
    obtain ⟨hother, hstanding⟩ := not_or.mp hnot
    obtain ⟨c, hc⟩ := not_forall.mp hstanding
    have hvoted : r.votesToSkip.has c = true := by
      rw [hvotes]
      exact Bool.eq_true_of_not_eq_false hc
    obtain ⟨-, hagainst⟩ := h (henable.trans henabled) c hvoted
    have hchanged : ¬ r.ballot.video = s.room.ballot.video := by
      rw [hvideo, hv]
      exact hother
    have hnobody : (s.becomes r []).against = [] := if_neg hchanged
    rw [hnobody] at hagainst
    cases hagainst
  · intro hmay
    by_cases hsame : r.ballot.video = s.room.ballot.video
    · apply hs.mono henable _ _ hsame
      · intro c hc
        rwa [hvotes] at hc
      · intro c hc _
        rwa [hids]
    · intro hdecide c hc
      cases placed with
      | none => exact absurd hvideo hsame
      | some v =>
        rcases hmay v rfl (henable.symm.trans hdecide) with heq | hnone
        · exact absurd (hvideo.trans heq) hsame
        · have hnot : r.votesToSkip.has c = false := by
            rw [hvotes]
            exact hnone c
          exact absurd hc (Bool.eq_false_iff.mp hnot)

theorem cast_skip {context : RoomRequestContext} (hpermitted : s.room.Permitted .skip context)
    (hsource : s.room.currentSource ≠ none) (henable : s.room.enableVoteSkip = true) {c : ClientId}
    (hclient : truthy context.clientId = some c) (hnew : s.room.votesToSkip.has c = false) :
    s.cast context .skip = [c] := by
  have hgranted := hpermitted _ rfl
  have hsome : s.room.currentSource.isSome = true := Option.isSome_iff_ne_none.mpr hsource
  rw [State.cast, if_pos ⟨hgranted, hsome, henable⟩, hclient]
  simp [hnew]

/-- **A skip request**. -/
theorem skip_current_iff (hs : Current s) (env : Env) (context : RoomRequestContext) :
    Current (s.request env .skip context) ↔ Fresh s (.request env .skip context) := by
  have henabled : ((processRequest env .skip context).run s.room).state.enableVoteSkip =
      s.room.enableVoteSkip :=
    processRequest_enableVoteSkip (by rintro _ ⟨⟩) env context s.room
  have hids : ids ((processRequest env .skip context).run s.room).state = ids s.room :=
    processRequest_ids (by rintro _ ⟨⟩) (by rintro ⟨⟩) env context s.room
  have hunchanged : ((processRequest env .skip context).run s.room).state = s.room →
      Current (s.request env .skip context) := by
    intro hsame
    exact hs.same henabled (congrArg ballot hsame) hids
  rcases mediated_cases .skip context (skip env context) s.room with
    ⟨hpermitted, hrun⟩ | ⟨hdenied, hrun⟩
  · rcases skip_cases env context s.room with
      ⟨hnone, hstate⟩ | ⟨hsource, henable, hfew, hstate⟩ | ⟨hsource, hvoted, hstate⟩
    · refine iff_of_true (hunchanged ?_) (fun _ hsource => absurd hnone hsource)
      exact (congrArg Outcome.state hrun).trans hstate
    · have hroom : ((processRequest env .skip context).run s.room).state =
          s.room.voteToSkip context := (congrArg Outcome.state hrun).trans hstate
      constructor
      · intro h _ _ _ _ c hc
        cases hhas : s.room.votesToSkip.has c with
        | true => exact (hs henable c hhas).1
        | false =>
          have hcast : (s.request env .skip context).room.votesToSkip.has c = true := by
            show ((processRequest env .skip context).run s.room).state.votesToSkip.has c = true
            rw [hroom, has_voteToSkip henable, if_pos hc, hhas]
            rfl
          exact hids ▸ (h (henabled.trans henable) c hcast).1
      · intro hfresh _ c hc
        have hvideo : ((processRequest env .skip context).run s.room).state.ballot.video =
            s.room.ballot.video := by
          rw [hroom]
          exact congrArg (Option.map (·.videoId)) (voteToSkip_currentSource context s.room)
        have hagainst : (s.request env .skip context).against =
            s.against ++ s.cast context .skip := if_pos hvideo
        have hhas : (s.room.voteToSkip context).votesToSkip.has c = true := hroom ▸ hc
        show c ∈ ids ((processRequest env .skip context).run s.room).state ∧ _
        rw [hids, hagainst]
        rw [has_voteToSkip henable] at hhas
        split at hhas
        · next hclient =>
          have hnew : s.room.votesToSkip.has c = false := by simpa using hhas
          rw [cast_skip hpermitted hsource henable hclient hnew]
          exact ⟨hfresh hpermitted hsource henable hfew c hclient, by simp⟩
        · obtain ⟨hmem, hold⟩ := hs henable c hhas
          exact ⟨hmem, List.mem_append_left _ hold⟩
    · refine iff_of_true (fun hdecide c hc => ?_) (fun _ _ henable hfew => ?_)
      · have hnobody : (s.request env .skip context).room.votesToSkip = ∅ := by
          have hcleared := (congrArg (fun o => o.state.votesToSkip) hrun).trans hstate
          rw [clearVotes_votesToSkip, if_pos] at hcleared
          · exact hcleared
          · exact (congrArg Standing.enableVoteSkip (voteToSkip_standing context s.room)).trans
              (henabled.symm.trans hdecide)
        rw [hnobody] at hc
        cases hc
      · rw [hvoted henable] at hfew
        cases hfew
  · exact iff_of_true (hunchanged hrun) (fun hpermitted => absurd hpermitted hdenied)

/-- **A client leaves** and takes its vote along. -/
theorem leave_current (hs : Current s) (env : Env) (context : RoomRequestContext) :
    Current (s.request env .leave context) := by
  have henabled : ((processRequest env .leave context).run s.room).state.enableVoteSkip =
      s.room.enableVoteSkip :=
    processRequest_enableVoteSkip (by rintro _ ⟨⟩) env context s.room
  have hrun : ((processRequest env .leave context).run s.room).state =
      ((leaveRoom context).run s.room).state :=
    congrArg Outcome.state (mediated_unlisted .leave rfl _ s.room)
  rcases leaveRoom_cases context s.room with ⟨client, -, -, hleft⟩ | ⟨-, hsame⟩
  · intro hdecide
    have henable : s.room.enableVoteSkip = true := henabled.symm.trans hdecide
    have hvotes : (s.room.left client).votesToSkip = s.room.votesToSkip.delete client := by
      rw [left_votesToSkip, if_pos henable]
    have hstate := hrun.trans hleft
    refine (show Current (s.becomes _ []) from hs.mono henabled ?_ ?_ ?_) hdecide
    · rw [hstate, hvotes]
      intro c hc
      rw [OrderedSet.has_delete, Bool.and_eq_true] at hc
      exact hc.2
    · rw [hstate, hvotes, left_ids]
      intro c hmem hc
      rw [OrderedSet.has_delete, Bool.and_eq_true, decide_eq_true_eq] at hc
      exact (List.mem_erase_of_ne hc.1).mpr hmem
    · rw [hstate, left_video]
  · have hstate := hrun.trans hsame
    exact hs.same henabled (congrArg ballot hstate) (congrArg ids hstate)

/-- **Settings** may have the votes decide. -/
theorem settings_current_iff (hs : Current s) (env : Env) (settings : RoomSettingsPatch)
    (context : RoomRequestContext) :
    Current (s.request env (.applySettings settings) context) ↔
      Fresh s (.request env (.applySettings settings) context) := by
  have hballot : ((processRequest env (.applySettings settings) context).run s.room).state.ballot =
      s.room.ballot := processRequest_ballot rfl env context s.room
  have hids : ids ((processRequest env (.applySettings settings) context).run s.room).state =
      ids s.room := processRequest_ids (by rintro _ ⟨⟩) (by rintro ⟨⟩) env context s.room
  have hrun : ((processRequest env (.applySettings settings) context).run s.room).state =
      ((applySettings settings context).run s.room).state :=
    congrArg Outcome.state (mediated_unlisted (.applySettings settings) rfl _ s.room)
  rcases applySettings_votes settings context s.room with ⟨haccepts, henabled⟩ | ⟨hrefused, hsame⟩
  · rw [← hrun] at henabled
    by_cases hsays : ∃ v, .enableVoteSkip v ∈ settings.props
    · obtain ⟨v, hv⟩ := hsays
      have hafter := henabled v (.inl hv)
      have honly : .enableVoteSkip true ∈ settings.props → v = true := fun htrue =>
        RoomSetting.enableVoteSkip.inj (List.inj_on_of_nodup_map settings.nodupProps hv htrue rfl)
      have hstand : (s.request env (.applySettings settings) context).Stand ↔ s.Stand := by
        have hvotes := congrArg Ballot.votesToSkip hballot
        have hagainst : (s.request env (.applySettings settings) context).against =
            s.against ++ [] := if_pos (congrArg Ballot.video hballot)
        show (∀ c, OrderedSet.has ((processRequest env (.applySettings settings) context).run
          s.room).state.ballot.votesToSkip c = true → c ∈ ids _ ∧ c ∈ _) ↔ _
        rw [hagainst, List.append_nil, hballot]
        refine forall_congr' (fun c => ?_)
        rw [← hids]
        exact Iff.rfl
      constructor
      · intro h _ htrue
        exact hstand.mp (h (hafter.trans (honly htrue)))
      · intro hfresh hdecide
        have hv' : v = true := hafter.symm.trans hdecide
        exact hstand.mpr (hfresh haccepts (hv' ▸ hv))
    · refine iff_of_true (hs.same ?_ hballot hids) (fun _ htrue => absurd ⟨true, htrue⟩ hsays)
      exact henabled _ (.inr ⟨rfl, fun v hv => hsays ⟨v, hv⟩⟩)
  · have hstate := hrun.trans hsame
    refine iff_of_true (hs.same ?_ hballot hids) (fun haccepts => absurd haccepts hrefused)
    rw [hstate]

theorem join_current (hs : Current s) (env : Env) (info : ClientInfo)
    (context : RoomRequestContext) : Current (s.request env (.join info) context) := by
  have hrun : ((processRequest env (.join info) context).run s.room).state =
      ((joinRoom env info context).run s.room).state :=
    congrArg Outcome.state (mediated_unlisted (.join info) rfl _ s.room)
  have henabled : ((processRequest env (.join info) context).run s.room).state.enableVoteSkip =
      s.room.enableVoteSkip :=
    processRequest_enableVoteSkip (by rintro _ ⟨⟩) env context s.room
  have hballot : ((processRequest env (.join info) context).run s.room).state.ballot =
      s.room.ballot := processRequest_ballot rfl env context s.room
  have hids : ∀ c ∈ ids s.room,
      c ∈ ids ((processRequest env (.join info) context).run s.room).state := by
    intro c hc
    rw [hrun]
    rcases join_ids env info context s.room with h | h
    · rwa [h]
    · rw [h]
      exact List.mem_append_left _ hc
  have hvotes := congrArg Ballot.votesToSkip hballot
  refine hs.mono henabled (fun c hc => ?_) (fun c hc _ => hids c hc) (congrArg Ballot.video hballot)
  rwa [show ((processRequest env (.join info) context).run s.room).state.votesToSkip =
    s.room.votesToSkip from hvotes] at hc

/-- A vote for a video is no vote to skip. -/
theorem vote_current (hs : Current s) (env : Env) (video : VideoId) (add : Bool)
    (context : RoomRequestContext) : Current (s.request env (.vote video add) context) := by
  have hcast : ∀ (r : Room) client, ((r.castVote video add client).markDirty .voteCounts).unvoted =
      r.unvoted := fun r client =>
    castVote_keeps (R := Handler.SameOn unvoted) (fun _ _ => rfl) r video add client
  have hsame : ((processRequest env (.vote video add) context).run s.room).state.unvoted =
      s.room.unvoted :=
    mediated_keeps (R := Handler.SameOn unvoted) (vote_keeps hcast context) s.room
  apply hs.mono
  · exact processRequest_enableVoteSkip (by rintro _ ⟨⟩) env context s.room
  · intro c hc
    have hvotes : ((processRequest env (.vote video add) context).run s.room).state.votesToSkip =
        s.room.votesToSkip := congrArg Prod.fst hsame
    rwa [hvotes] at hc
  · intro c hc _
    rwa [processRequest_ids (by rintro _ ⟨⟩) (by rintro ⟨⟩) env context s.room]
  · exact congrArg (fun p => p.2.map (·.videoId)) hsame

/-- **A video is played at once.** -/
theorem playNow_current_iff (hs : Current s) (env : Env) (video : VideoAdd)
    (context : RoomRequestContext) :
    Current (s.request env (.playNow video) context) ↔
      Fresh s (.request env (.playNow video) context) := by
  have henabled : ((processRequest env (.playNow video) context).run s.room).state.enableVoteSkip =
      s.room.enableVoteSkip :=
    processRequest_enableVoteSkip (by rintro _ ⟨⟩) env context s.room
  have hids : ids ((processRequest env (.playNow video) context).run s.room).state = ids s.room :=
    processRequest_ids (by rintro _ ⟨⟩) (by rintro ⟨⟩) env context s.room
  rcases mediated_cases (.playNow video) context (playNow env video context) s.room with
    ⟨hpermitted, hrun⟩ | ⟨hdenied, hrun⟩
  · have hballot := (congrArg (fun o => o.state.ballot) hrun).trans
      (playNow_ballot env video context s.room)
    have hplaced := place_current_iff hs henabled (congrArg Ballot.votesToSkip hballot) hids
      (congrArg Ballot.video hballot)
    exact hplaced.trans ⟨fun h _ => h, fun h => h hpermitted⟩
  · exact iff_of_true (hs.same henabled (congrArg ballot hrun) hids)
      (fun hpermitted => absurd hpermitted hdenied)

/-- **An undo.** -/
theorem undo_current_iff (hs : Current s) (env : Env) (request : RoomRequest)
    (additional : RoomEventContext) (context : RoomRequestContext) :
    Current (s.request env (.undo request additional) context) ↔
      Fresh s (.request env (.undo request additional) context) := by
  have hrun : ((processRequest env (.undo request additional) context).run s.room).state =
      ((undo env request additional context).run s.room).state :=
    congrArg Outcome.state (mediated_unlisted (.undo request additional) rfl _ s.room)
  have hballot := (congrArg ballot hrun).trans (undo_ballot env request additional context s.room)
  exact place_current_iff hs
    (processRequest_enableVoteSkip (by rintro _ ⟨⟩) env context s.room)
    (congrArg Ballot.votesToSkip hballot)
    (processRequest_ids (by rintro _ ⟨⟩) (by rintro ⟨⟩) env context s.room)
    (congrArg Ballot.video hballot)

/-- **What a request does.** -/
theorem request_current_iff (hs : Current s) (env : Env) (request : RoomRequest)
    (context : RoomRequestContext) :
    Current (s.request env request context) ↔ Fresh s (.request env request context) := by
  -- what the other requests do not touch
  have hkept : leavesBallot request = true → (∀ info, request ≠ .join info) →
      (∀ settings, request ≠ .applySettings settings) →
        Current (s.request env request context) := by
    intro hballot hjoin hsettings
    have hleave : request ≠ .leave := by
      rintro rfl
      cases hballot
    exact hs.same (processRequest_enableVoteSkip hsettings env context s.room)
      (processRequest_ballot hballot env context s.room)
      (processRequest_ids hjoin hleave env context s.room)
  cases request with
  | skip => exact skip_current_iff hs env context
  | leave => exact iff_of_true (leave_current hs env context) trivial
  | applySettings settings => exact settings_current_iff hs env settings context
  | join info => exact iff_of_true (join_current hs env info context) trivial
  | vote video add => exact iff_of_true (vote_current hs env video add context) trivial
  | playNow video => exact playNow_current_iff hs env video context
  | undo request additional => exact undo_current_iff hs env request additional context
  | _ => exact iff_of_true (hkept rfl (by rintro _ ⟨⟩) (by rintro _ ⟨⟩)) trivial

theorem update_current (hs : Current s) (env : Env) : Current (s.update env) := by
  have hstanding := update_standing env s.room
  have henabled : ((Room.update env).run s.room).state.enableVoteSkip = s.room.enableVoteSkip :=
    congrArg Standing.enableVoteSkip hstanding
  have hids : ids ((Room.update env).run s.room).state = ids s.room :=
    congrArg (fun p : Standing => p.realusers.map RoomUser.id) hstanding
  rcases update_cases env s.room with hcleared | ⟨hvotes, hsource⟩
  · intro hdecide c hc
    have hnobody : (s.update env).room.votesToSkip = ∅ := by
      rw [clearVotes_votesToSkip, if_pos (henabled.symm.trans hdecide)] at hcleared
      exact hcleared
    rw [hnobody] at hc
    cases hc
  · apply hs.mono henabled
    · intro c hc
      rwa [hvotes] at hc
    · intro c hc _
      rwa [hids]
    · exact congrArg (Option.map (·.videoId)) hsource

end Steps

/-! ## Majorities -/

section Majorities

variable {s : State} {context : RoomRequestContext}

/-- The votes that a skip is counted by were all cast against the video. -/
theorem mem_against (hs : Current s) (hpermitted : s.room.Permitted .skip context)
    (hsource : s.room.currentSource ≠ none) (henable : s.room.enableVoteSkip = true) {c : ClientId}
    (hc : (s.room.voteToSkip context).votesToSkip.has c = true) :
    c ∈ s.against ++ s.cast context .skip := by
  rw [has_voteToSkip henable] at hc
  split at hc
  · next hclient =>
    have hnew : s.room.votesToSkip.has c = false := by simpa using hc
    rw [cast_skip hpermitted hsource henable hclient hnew]
    exact List.mem_append_right _ List.mem_cons_self
  · exact List.mem_append_left _ (hs henable c hc).2

/-- **A skip that is carried out** has a majority. -/
theorem carried_majority (hs : Current s) {e : Event} (hcarried : Carried s e)
    (heligible : VotersEligible s e) : Majority s e := by
  rcases e with ⟨env, request, context⟩ | env
  · cases request with
    | skip =>
      obtain ⟨hpermitted, hsource, henable, hvoted⟩ := hcarried
      have hsub : (s.room.voteToSkip context).votesToSkip.toList ⊆
          (s.opponents context).map (·.id) := by
        intro c hmem
        have hc : (s.room.voteToSkip context).votesToSkip.has c = true :=
          OrderedMap.mem_keys_iff.mp hmem
        obtain ⟨u, hu, rfl⟩ := heligible c hc
        apply List.mem_map_of_mem
        exact List.mem_filter.mpr
          ⟨hu, decide_eq_true ⟨hc, mem_against hs hpermitted hsource henable hc⟩⟩
      have hlength := (List.subperm_of_subset
        (s.room.voteToSkip context).votesToSkip.nodupKeys hsub).length_le
      rw [List.length_map, List.length_map] at hlength
      have henough : voteSkipThreshold (eligible (s.room.voteToSkip context)).length ≤
          (s.room.voteToSkip context).votesToSkip.entries.length := of_decide_eq_true hvoted
      unfold voteSkipThreshold at henough
      show (eligible (s.room.voteToSkip context)).length ≤ 2 * (s.opponents context).length
      omega
    | _ => exact hcarried.elim
  · exact hcarried.elim

end Majorities

/-- A new room has no votes, as long as the options bring none. -/
theorem construct_current {options : RoomOptions} (h : options.votesToSkip = none) (now : Time) :
    Current ⟨construct options now, []⟩ := by
  intro _ c hc
  have hnone : (construct options now).votesToSkip = ∅ := by
    show OrderedSet.ofList (options.votesToSkip.getD []) = ∅
    rw [h]
    rfl
  rw [hnone] at hc
  cases hc

theorem step_current_iff {s s' : State} {e : Event} (hs : Current s)
    (h : system.step s e = some s') : Current s' ↔ Fresh s e := by
  cases e with
  | request env request context =>
    cases h
    exact request_current_iff hs env request context
  | update env =>
    cases h
    exact iff_of_true (update_current hs env) trivial

/-- **When the votes to skip are current**, in every run from a new room; and then, as long as those
that have voted may skip, every skip that is carried out has a majority. -/
theorem current_throughout_iff {options : RoomOptions} (h : options.votesToSkip = none) (now : Time)
    (es : List Event) :
    (system.Always Current ⟨construct options now, []⟩ es ↔
      system.Along Fresh ⟨construct options now, []⟩ es) ∧
    (system.Along (fun s e => Fresh s e ∧ (Carried s e → VotersEligible s e))
        ⟨construct options now, []⟩ es →
      system.Along (fun s e => Carried s e → Majority s e) ⟨construct options now, []⟩ es) := by
  constructor
  · exact Machine.always_iff_along (fun s e s' hs hstep => step_current_iff hs hstep)
      (construct_current h now)
  · intro hfair
    refine Machine.along_of_along (I := Current) ?_ ?_ (construct_current h now) hfair
    · intro s e s' hs hfresh hstep
      exact (step_current_iff hs hstep).mpr hfresh.1
    · intro s e s' hs hfresh _ hcarried
      exact carried_majority hs hcarried (hfresh.2 hcarried)

/-! ## A run that is not fresh -/

def first : VideoId := ⟨.youtube, "first"⟩

def second : VideoId := ⟨.youtube, "second"⟩

/-- A room with vote skipping, in which one video plays and another is queued. -/
def watching : RoomOptions :=
  { name := some "foo", enableVoteSkip := some true
    currentSource := some (some (.ofVideoId first)), queue := some [.ofVideoId second] }

def arrive (client : ClientId) : Event :=
  .request (emptyEnv 0) (.join ⟨client, none, none, none⟩)
    ⟨"", .unregisteredUser, some client, some ⟨"token", some client⟩⟩

/-- One of three clients votes. -/
def oneVote : List Event :=
  [arrive "alice", arrive "bob", arrive "carol",
    .request (emptyEnv 0) .skip ⟨"", .unregisteredUser, some "alice", none⟩]

/-- It is there, so the vote is current. -/
theorem current_throughout_iff_oneVote :
    system.Always Current ⟨construct watching 0, []⟩ oneVote := by
  apply (@current_throughout_iff watching rfl 0 oneVote).1.mpr
  intro s₁ h₁
  refine ⟨trivial, fun s₂ h₂ => ⟨trivial, fun s₃ h₃ => ⟨trivial, fun s₄ _ => ⟨?_, trivial⟩⟩⟩⟩
  cases h₁
  cases h₂
  cases h₃
  rintro - - - - c ⟨⟩
  decide +kernel

/-- Then the owner has the other video play. -/
def voteAndPlay : List Event :=
  oneVote ++ [.request (emptyEnv 0) (.playNow ⟨second, none, none, none⟩)
    ⟨"owner", .owner, none, none⟩]

/-- **A vote can be against a video that no longer plays.** -/
theorem not_current_throughout : ¬ ∀ options : RoomOptions, options.votesToSkip = none →
    ∀ (now : Time) (es : List Event), system.Always Current ⟨construct options now, []⟩ es ∧
      system.Along (fun s e => Carried s e → Majority s e) ⟨construct options now, []⟩ es := by
  intro h
  have hrun : ∃ s, system.run ⟨construct watching 0, []⟩ voteAndPlay = some s ∧
      s.room.enableVoteSkip = true ∧ s.room.ballot.video = some second ∧
        s.room.votesToSkip.has "alice" = true ∧ s.against = [] :=
    ⟨_, rfl, by decide +kernel, by decide +kernel, by decide +kernel, by decide +kernel⟩
  obtain ⟨s, hs, henable, -, hvoted, hnobody⟩ := hrun
  obtain ⟨-, hagainst⟩ := (h watching rfl 0 voteAndPlay).1.last hs henable "alice" hvoted
  rw [hnobody] at hagainst
  cases hagainst

end SkipVotes

end OpenTogetherTube.Server
