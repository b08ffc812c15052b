import OpenTogetherTube.Server.Frames

/-!
# The runs that the process survives

Most of what a frame can have in it is harmless. What ends the process is a text of a client that is
not JSON, or is `null`, or has an action that cannot be written out; a balancer's payload that is
`null`; an unload of a room that is not loaded; a lookup that fails where nobody waits; and a skip or
an undo in a room that is in the wrong state for it. `Handled` says so for one step.
-/

namespace OpenTogetherTube.Server.Frames

open OpenTogetherTube.Common OpenTogetherTube.Lib

/-! ## The condition -/

section Condition

variable (platform : Platform) (r : LoadedRoom)

/-- The message is not `null`, and its action can be written out. -/
def Readable (msg : Json) : Prop :=
  msg.isNull = false ∧ (Json.text? platform.conversions (msg.get? "action")).isSome = true

/-- The categories are there, where they are read. -/
def HasCategories : Prop :=
  platform.sponsorblockEnabled = true → r.autoSkipSegmentCategories.isSome = true

/-- `dequeueNext` has nothing to wait for, and goes on to its end. -/
def EndsAtOnce : Prop := r.queueMode ≠ .dj ∧ r.queueMode ≠ .loop ∧ r.queueLength = 0

/-- The time since playback was started is a number, and the counter takes it. -/
def Counted (now : Time) : Prop :=
  ∃ seconds, r.calcDurationFromPlaybackStart platform now = some seconds ∧
    platform.counts seconds = true

/-- The next video can be taken. -/
def MayDequeue (now : Time) : Prop :=
  Counted platform r now ∧ (EndsAtOnce r → HasCategories platform r)

/-- The request comes to skip the video: it is permitted, there is a video, the votes suffice, and the
playback position is one. -/
def Skips (request : Value) (context : RoomRequestContext) : Prop :=
  (∃ type, Json.read request "type" = some type ∧
    Json.text? platform.conversions type = some "3" ∧
    (Json.isNumber type 3 = true → r.grants.granted context.role "playback.skip" = true)) ∧
  r.currentSource = true ∧ r.shouldSkip context = true ∧ r.hasPosition platform = true

/-- The index at which the request comes to insert a video. -/
def insertsAt (request : Value) : Option Json :=
  request.bind (fun message =>
    if (Json.read request "type").bind (Json.text? platform.conversions) = some "12" then
      insertedAt message
    else none)

/-- The index is a number, and not outside the queue. -/
def InBounds (index : Json) : Prop :=
  ∃ n, index.toNumber? platform.conversions = some n ∧ n.lt (.ofNat 0) = false ∧
    (Number.ofNat r.queueLength).lt n = false

/-- The request finds the room in a state that it does no harm in. -/
structure Harmless (request : Value) (context : RoomRequestContext) (now : Time) : Prop where
  skip : Skips platform r request context → MayDequeue platform r now
  insert : ∀ index ∈ insertsAt platform request, InBounds platform r index

/-- A balancer's message of a type that is known, with `null` as its payload. -/
def NullPayload (message : Json) : Prop :=
  ∃ type ∈ ["join", "leave", "client_msg", "load", "unload", "init"],
    message.get? "type" = some (.str type) ∧ message.get? "payload" = some .null

/-- A balancer only unloads rooms that are loaded, and only sends clients' messages that can be
read. -/
def Served (s : State) : MsgB2M → Prop
  | .unload room => platform.toLowerCase room ∈ s.rooms
  | .client_msg client_id payload =>
    (s.balancerClient? client_id).isSome = true → Readable platform payload
  | _ => True

/-- What settles an await does no harm: a lookup that fails is one that is waited for, a room that is
found has a position, and a user who was modified has a token. -/
def Settles (s : State) : Task → Answer → Prop
  | .getRoom _ _, .found room => room.hasPosition platform = true
  | .getRoom _ _, .rejected => False
  | .deriveRequestContext _ request, .context room context now =>
    Harmless platform room request context now
  | .dequeueNext, .resumed room => HasCategories platform room
  | .modifiedSession _ _ i, .settled => ∀ c ∈ s.clients[i]?, c.token.isSome = true
  | .modifiedSession _ _ _, .rejected => False
  | .modifiedRequest _ _, .rejected => False
  | .load _, .rejected => False
  | _, _ => True

/-- **The condition on a step.** It is about what a frame leads to; the timers are left out. One of them
is `throttledSync`, whose promise nobody waits for: after a seek to an object that cannot be converted,
that promise is rejected too. -/
def Handled (p : Tasks) : Event → Prop
  | .call (.frame i frame) => (p.shared.direct? i).isSome = true →
      ∃ msg, frame = some msg ∧ Readable platform msg
  | .call (.balancerFrame n frame) => ∀ ready ∈ p.shared.balancers[n]?, ∀ message ∈ frame,
      ¬ NullPayload message ∧
        (ready = true → ∀ msg, validateB2M message = some (some msg) → Served platform p.shared msg)
  | .answer i answer => ∀ task, p.tasks[i]? = some (.waiting task) →
      Settles platform p.shared task answer
  | _ => True

end Condition

/-! ## Requests -/

section Requests

variable {platform : Platform} {r : LoadedRoom}

theorem afterAdvance_iff : afterAdvance platform r ≠ .rejection ↔ HasCategories platform r := by
  unfold afterAdvance HasCategories
  cases platform.sponsorblockEnabled <;> cases r.autoSkipSegmentCategories <;> simp

theorem dequeueNext_iff (now : Time) :
    dequeueNext platform r now ≠ .rejection ↔ MayDequeue platform r now := by
  unfold dequeueNext MayDequeue Counted
  cases hseconds : r.calcDurationFromPlaybackStart platform now with
  | none => simp
  | some seconds =>
    cases hcounts : platform.counts seconds with
    | false => simp [hcounts]
    | true =>
      have hends : (EndsAtOnce r → HasCategories platform r) ↔
          (EndsAtOnce r → afterAdvance platform r ≠ .rejection) := by rw [afterAdvance_iff]
      rw [hends]
      unfold EndsAtOnce
      by_cases hdj : r.queueMode = .dj
      · simp [hdj, hcounts]
      by_cases hwaits : r.queueMode = .loop ∨ r.queueLength > 0
      · have hnot : ¬ (r.queueMode ≠ .loop ∧ r.queueLength = 0) := by
          rintro ⟨hloop, hlength⟩
          rcases hwaits with hloop' | hpos
          · exact hloop hloop'
          · omega
        simp [hdj, hwaits, hcounts]
        exact fun hloop hlength => absurd ⟨hloop, hlength⟩ hnot
      · obtain ⟨hloop, hlength⟩ := not_or.mp hwaits
        have hlength' : r.queueLength = 0 := by omega
        simp [hdj, hloop, hlength', hcounts]

theorem skip_iff (context : RoomRequestContext) (now : Time) :
    skip platform r context now ≠ .rejection ↔
      (r.currentSource = true ∧ r.shouldSkip context = true ∧ r.hasPosition platform = true →
        MayDequeue platform r now) := by
  rw [← dequeueNext_iff]
  unfold skip
  cases r.currentSource <;> cases r.shouldSkip context <;> cases r.hasPosition platform <;> simp

theorem insert_iff (index : Json) :
    insert platform r index ≠ .rejection ↔ InBounds platform r index := by
  unfold insert InBounds
  cases index.toNumber? platform.conversions with
  | none => simp
  | some n =>
    cases hlow : n.lt (.ofNat 0) <;> cases hhigh : (Number.ofNat r.queueLength).lt n <;>
      simp [hlow, hhigh]

/-- **A request leaves a rejected promise behind exactly if it skips or undoes in the wrong state.** -/
theorem processRequest_iff (request : Value) (context : RoomRequestContext) (now : Time) :
    processRequest platform r request context now ≠ .rejection ↔
      Harmless platform r request context now := by
  constructor
  · intro h
    constructor
    · rintro ⟨⟨type, htype, htext, hgranted⟩, hskips⟩
      obtain ⟨message, rfl⟩ : ∃ message, request = some message := by
        cases request with
        | none => cases htype
        | some message => exact ⟨message, rfl⟩
      have hpermitted : (Json.isNumber type 3 &&
          !r.grants.granted context.role "playback.skip") = false := by
        cases hnumber : Json.isNumber type 3 with
        | false => rfl
        | true => simp [hgranted hnumber]
      simp only [processRequest, htype, htext, hpermitted] at h
      exact (skip_iff context now).mp h hskips
    · intro index hindex
      obtain ⟨message, rfl, hindex⟩ := Option.bind_eq_some_iff.mp hindex
      split at hindex
      next htext =>
        obtain ⟨type, htype, htext⟩ := Option.bind_eq_some_iff.mp htext
        simp only [processRequest, htype, htext, undo, hindex] at h
        exact (insert_iff index).mp h
      · cases hindex
  · intro h
    unfold processRequest
    split
    next message type htype =>
      split
      next htext =>
        split
        · simp
        next hpermitted =>
          refine (skip_iff context now).mpr (fun hskips => h.skip ⟨⟨type, htype, htext, ?_⟩, hskips⟩)
          intro hnumber
          simpa [hnumber] using hpermitted
      next htext =>
        unfold undo
        split
        next index hindex =>
          refine (insert_iff index).mpr (h.insert index (Option.bind_eq_some_iff.mpr ⟨message, rfl, ?_⟩))
          rw [if_pos (Option.bind_eq_some_iff.mpr ⟨type, htype, htext⟩), hindex]
        · simp
      · simp
    · simp

end Requests

/-! ## Frames -/

section Messages

variable {platform : Platform} {s : State}

theorem uncaught_survives_iff (s : State) (e : Uncaught) : (uncaught s e).1.Survives ↔ False := by
  simp [uncaught, State.fail, State.Survives]

theorem auth_uncaught (s : State) (i : Nat) (c : Client) (token : Value) :
    (auth s i c token).1.uncaught = s.uncaught := by
  unfold auth
  split
  · split <;> rfl
  · rfl

theorem makeRoomRequest_uncaught (i : Nat) (c : Client) (request : Value) :
    (makeRoomRequest platform s i c request).1.uncaught = s.uncaught := by
  unfold makeRoomRequest
  split
  · rfl
  · split <;> rfl

theorem onUserModified_uncaught (token : Option Token) (position : Nat) :
    (onUserModified s token position).1.uncaught = s.uncaught := by
  unfold onUserModified
  split <;> rfl

theorem readable_of_action {msg : Json} {action : String} (hnull : ¬ msg.isNull = true)
    (haction : Json.string? (msg.get? "action") = some action) : Readable platform msg :=
  ⟨Bool.eq_false_iff.mpr hnull, by rw [Json.text?_of_string? haction]; rfl⟩

theorem not_readable_of_isNull {msg : Json} (hnull : msg.isNull = true) : ¬ Readable platform msg := by
  rintro ⟨hread, -⟩
  rw [hnull] at hread
  cases hread

theorem onClientMessage_iff (hs : s.Survives) (i : Nat) (c : Client) (msg : Json) :
    (onClientMessage platform s i c msg).1.Survives ↔ Readable platform msg := by
  unfold onClientMessage
  split
  next hnull =>
    rw [uncaught_survives_iff]
    exact iff_of_false id (not_readable_of_isNull hnull)
  next hnull =>
    split
    next haction => exact iff_of_true hs (readable_of_action hnull haction)
    next haction =>
      exact iff_of_true ((makeRoomRequest_uncaught i c _).trans hs)
        (readable_of_action hnull haction)
    next haction =>
      exact iff_of_true ((makeRoomRequest_uncaught i c _).trans hs)
        (readable_of_action hnull haction)
    next haction =>
      refine iff_of_true ?_ (readable_of_action hnull haction)
      split
      · exact (onUserModified_uncaught c.token 0).trans hs
      · exact hs
    · split
      next htext => exact iff_of_true hs ⟨Bool.eq_false_iff.mpr hnull, by rw [htext]; rfl⟩
      next htext =>
        rw [uncaught_survives_iff]
        refine iff_of_false id (fun h => ?_)
        rw [Readable, htext] at h
        cases h.2

/-- **What a client's frame does.** -/
theorem onData_iff (hs : s.Survives) (i : Nat) (c : Client) (frame : Frame) :
    (onData platform s i c frame).1.Survives ↔ ∃ msg, frame = some msg ∧ Readable platform msg := by
  unfold onData
  split
  · rw [uncaught_survives_iff]
    refine iff_of_false id (fun ⟨msg, hmsg, _⟩ => ?_)
    cases hmsg
  next msg =>
    have hframe : (∃ msg', some msg = some msg' ∧ Readable platform msg') ↔ Readable platform msg := by
      simp
    rw [hframe]
    split
    next hnull =>
      rw [uncaught_survives_iff]
      exact iff_of_false id (not_readable_of_isNull hnull)
    next hnull =>
      split
      next haction =>
        exact iff_of_true ((auth_uncaught s i c _).trans hs) (readable_of_action hnull haction)
      · exact onClientMessage_iff hs i c msg

/-! ### Balancers -/

theorem validatePayload_null_iff (type : String) : validatePayload type .null = none ↔
    type ∈ ["join", "leave", "client_msg", "load", "unload", "init"] := by
  unfold validatePayload
  split <;> first
    | exact iff_of_true rfl (by decide)
    | skip
  next hjoin hleave hclient hload hunload hinit =>
    refine iff_of_false (by simp) ?_
    simp only [List.mem_cons, List.not_mem_nil, or_false, not_or]
    exact ⟨hjoin, hleave, hclient, hload, hunload, hinit⟩

theorem validatePayload_of_isNull_eq_false {payload : Json} (h : payload.isNull = false)
    (type : String) : validatePayload type payload ≠ none := by
  unfold validatePayload
  simp only [Json.read_of_isNull_eq_false h, Option.bind_eq_bind, Option.bind_some]
  split
  · split <;> simp
  · simp
  · split <;> simp
  all_goals simp

/-- **The validation throws exactly at a payload that is `null`.** -/
theorem validateB2M_eq_none_iff (message : Json) :
    validateB2M message = none ↔ NullPayload message := by
  unfold validateB2M
  split
  next type payload htype hpayload =>
    have htype' : message.get? "type" = some (.str type) := Json.eq_of_string? htype
    cases hnull : payload.isNull with
    | true =>
      cases Json.eq_null_of_isNull hnull
      refine (validatePayload_null_iff type).trans ⟨fun hmem => ⟨type, hmem, htype', hpayload⟩, ?_⟩
      rintro ⟨type', hmem, heq, -⟩
      rw [htype'] at heq
      cases heq
      exact hmem
    | false =>
      refine iff_of_false ?_ ?_
      · split
        · exact validatePayload_of_isNull_eq_false hnull type
        · simp
      · rintro ⟨_, -, -, heq⟩
        rw [hpayload] at heq
        cases heq
        cases hnull
  next hnone =>
    refine iff_of_false (by simp) ?_
    rintro ⟨type, -, htype, hpayload⟩
    exact hnone type .null (by rw [htype]; rfl) hpayload

theorem onBalancerMessage_iff (hs : s.Survives) (msg : MsgB2M) :
    (onBalancerMessage platform s msg).1.Survives ↔ Served platform s msg := by
  cases msg with
  | load room =>
    refine iff_of_true ?_ trivial
    simp only [onBalancerMessage]
    split <;> exact hs
  | unload room =>
    simp only [onBalancerMessage, Served]
    split
    next hroom => exact iff_of_true hs hroom
    next hroom =>
      rw [uncaught_survives_iff]
      exact iff_of_false id hroom
  | join room client token => exact iff_of_true ((auth_uncaught _ _ _ _).trans hs) trivial
  | leave client =>
    refine iff_of_true ?_ trivial
    simp only [onBalancerMessage]
    split <;> exact hs
  | client_msg client_id payload =>
    simp only [onBalancerMessage, Served]
    split
    next i c hfound =>
      rw [onClientMessage_iff hs, hfound]
      exact ⟨fun h _ => h, fun h => h rfl⟩
    next hnone =>
      refine iff_of_true hs (fun hsome => ?_)
      rw [hnone] at hsome
      cases hsome
  | init => exact iff_of_true hs trivial

/-- **What a balancer's frame does.** -/
theorem onSocketMessage_iff (hs : s.Survives) (n : Nat) (ready : Bool) (frame : Frame) :
    (onSocketMessage platform s n ready frame).1.Survives ↔ ∀ message ∈ frame,
      ¬ NullPayload message ∧
        (ready = true → ∀ msg, validateB2M message = some (some msg) → Served platform s msg) := by
  cases frame with
  | none => exact iff_of_true hs (fun _ h => by cases h)
  | some message =>
    have hframe : ∀ P : Json → Prop, (∀ message' ∈ some message, P message') ↔ P message := by simp
    rw [hframe, ← validateB2M_eq_none_iff]
    simp only [onSocketMessage]
    split
    next hthrows =>
      rw [uncaught_survives_iff]
      exact iff_of_false id (fun h => h.1 hthrows)
    next hvalid => exact iff_of_true hs ⟨by simp [hvalid], fun _ msg h => by rw [hvalid] at h; cases h⟩
    next msg hvalid =>
      have hserved : (validateB2M message ≠ none ∧ (ready = true → ∀ msg,
          validateB2M message = some (some msg) → Served platform s msg)) ↔
          (ready = true → Served platform s msg) := by simp [hvalid]
      refine Iff.trans ?_ hserved.symm
      split
      next hready => exact (onBalancerMessage_iff hs msg).trans ⟨fun h _ => h, fun h => h hready⟩
      next hready =>
        refine iff_of_true ?_ (fun h => absurd h hready)
        split <;> exact hs

end Messages

/-! ## Awaits -/

section Awaits

variable {platform : Platform} {s s' : State} {t : Progress Task Result}

theorem leave_iff (hs : s.Survives) (left : Left) :
    (leave s left).1.Survives ↔ left ≠ .rejection := by
  cases left with
  | nothing => exact iff_of_true hs (by decide)
  | rejection => simp [leave, uncaught_survives_iff]
  | dequeueNext => exact iff_of_true hs (by decide)

theorem modifiedRequest_iff (hs : s.Survives) (token : Option Token) (position : Nat) (c : Client) :
    (modifiedRequest platform s token position c).1.Survives ↔ c.token.isSome = true := by
  unfold modifiedRequest
  split
  next hnone => simp [uncaught_survives_iff, hnone]
  next hsome =>
    refine iff_of_true ?_ (by rw [hsome]; rfl)
    split
    · exact hs
    · exact (onUserModified_uncaught token (position + 1)).trans hs

/-- **What settles an await ends the process exactly if the condition says so.** -/
theorem resume_iff {task : Task} {answer : Answer} (hs : s.Survives)
    (hres : resume platform task answer s = some (s', t)) :
    s'.Survives ↔ Settles platform s task answer := by
  have hfails : ∀ {e : Uncaught}, some (uncaught s e) = some (s', t) → (s'.Survives ↔ False) := by
    intro e he
    cases he
    exact uncaught_survives_iff s e
  have hends : ∀ {segment : Segment}, some segment = some (s', t) → s' = segment.1 := by
    intro segment he
    cases he
    rfl
  unfold resume at hres
  split at hres
  -- `Client.auth`
  · obtain ⟨c, -, hc⟩ := Option.map_eq_some_iff.mp hres
    cases hc
    exact iff_of_true hs trivial
  · cases hres
    exact iff_of_true hs trivial
  -- `onClientAuth`
  next i loaded room =>
    obtain ⟨c, -, hc⟩ := Option.map_eq_some_iff.mp hres
    have hs' : ∀ name, (if loaded = true then s else s.load name).Survives := by
      intro name
      split <;> exact hs
    rw [hends (congrArg some hc)]
    dsimp only [Settles]
    cases room.hasPosition platform with
    | true => exact iff_of_true (hs' _) rfl
    | false => exact (uncaught_survives_iff _ _).trans (iff_of_false id (by decide))
  · cases hres
    exact iff_of_true hs trivial
  · exact hfails hres
  -- `onClientMessage`
  next i request room context now =>
    rw [hends hres]
    exact (leave_iff hs _).trans (processRequest_iff request context now)
  · cases hres
    exact iff_of_true hs trivial
  -- `skip`
  next room =>
    rw [hends hres]
    exact (leave_iff hs _).trans afterAdvance_iff
  -- `onUserModified`
  next token position i =>
    obtain ⟨c, hget, hc⟩ := Option.map_eq_some_iff.mp hres
    have hiff : (modifiedRequest platform s token position c).1.Survives ↔ c.token.isSome = true :=
      modifiedRequest_iff hs token position c
    rw [hc] at hiff
    simp only [Settles, hget]
    exact hiff.trans (by simp)
  · exact hfails hres
  next token position =>
    rw [hends hres]
    exact iff_of_true ((onUserModified_uncaught token (position + 1)).trans hs) trivial
  · exact hfails hres
  -- `onBalancerMessage`
  · cases hres
    exact iff_of_true hs trivial
  · cases hres
    exact iff_of_true hs trivial
  · exact hfails hres
  · cases hres

end Awaits

/-! ## Every run -/

/-- **One step** ends the process exactly if it does not meet the condition. -/
theorem step_survives_iff {platform : Platform} {p p' : Tasks} {e : Event}
    (hp : p.shared.Survives) (hstep : (server platform).machine.step p e = some p') :
    p'.shared.Survives ↔ Handled platform p e := by
  rcases Program.step_cases hstep with ⟨c, rfl, rfl⟩ | ⟨i, answer, task, s, t, rfl, ht, hres, rfl⟩ |
    ⟨change, s, rfl, hchange, rfl⟩
  · have hp' : ({ p.shared with frames := p.shared.frames + 1 } : State).Survives := hp
    cases c with
    | connect id room => exact iff_of_true hp trivial
    | connectBalancer => exact iff_of_true hp trivial
    | frame i frame =>
      show (start platform (.frame i frame) p.shared).1.Survives ↔ _
      simp only [start, Handled]
      split
      next c hc =>
        refine (onData_iff hp' i c frame).trans ?_
        rw [hc]
        exact ⟨fun h _ => h, fun h => h rfl⟩
      next hnone =>
        refine iff_of_true hp (fun h => ?_)
        rw [hnone] at h
        cases h
    | balancerFrame n frame =>
      show (start platform (.balancerFrame n frame) p.shared).1.Survives ↔ _
      simp only [start, Handled]
      split
      next ready hready =>
        refine (onSocketMessage_iff hp' n ready frame).trans ?_
        rw [hready]
        exact ⟨fun h ready' h' => by cases h'; exact h, fun h => h ready rfl⟩
      next hnone =>
        refine iff_of_true hp (fun ready h => ?_)
        rw [hnone] at h
        cases h
  · refine (resume_iff hp hres).trans ⟨fun h task' ht' => ?_, fun h => h task ht⟩
    rw [ht] at ht'
    cases ht'
    exact h
  · refine iff_of_true ?_ trivial
    change change.apply platform p.shared = some s at hchange
    cases change <;> cases hchange <;> exact hp

/-- A platform on which every counter takes every number. -/
def lenient : Platform := ⟨id, ⟨fun _ => "", fun _ => .nan⟩, fun _ => true, false⟩

end OpenTogetherTube.Server.Frames
