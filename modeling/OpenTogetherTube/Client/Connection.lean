import OpenTogetherTube.Lib.Machine
import Mathlib.Data.List.Basic

/-!
# The connection of a client

A client keeps one connection to its room: it opens a socket, and opens another one a while after the
socket was closed. The handlers of a socket's events are methods of the connection, and do not say
which socket an event is of; the timer of the next attempt is kept in one place, also if there are
several.

`OneSocket` is what the connection is for, and `oneSocket_throughout_iff` says exactly which orders of
calls, timers and events break it. That it is broken at all is in `not_oneSocket_throughout`: somebody
leaves a room while the connection is being made again.

A socket is live until `close()` is called or its close event comes; the closing handshake that the
server begins and the close event are one step. A timer may fire at any time after it was set. What
is done with messages is not done here: a handler that calls the connection makes a call of its own.
-/

namespace OpenTogetherTube.Client.Connection

open OpenTogetherTube.Lib

/-! ## The browser -/

inductive ReadyState where
  | connecting
  | opened
  | closing
  | closed
  deriving DecidableEq, Repr

structure Socket where
  url : String
  readyState : ReadyState
  deriving DecidableEq, Repr

/-- What `connectionUrl` is made of. -/
structure Location where
  secure : Bool
  host : String
  baseUrl : Option String
  deriving DecidableEq, Repr

/-- The connection, and of the browser the sockets, the timers that are set, and what was sent. Whether
`disconnect()` was called after the last `connect()`, and whether it ever threw, is kept as well. -/
structure State where
  active : Bool
  reconnecting : Bool
  connected : Bool
  roomName : String
  reconnectAttempts : Nat
  kickReason : Option Nat
  socket : Option Nat
  reconnectTimeout : Option Nat
  sockets : List Socket
  timers : List Nat
  nextTimer : Nat
  sent : List (Nat × String)
  disconnected : Bool
  thrown : Bool
  deriving DecidableEq, Repr

namespace State

def initial : State where
  active := false
  reconnecting := false
  connected := false
  roomName := ""
  reconnectAttempts := 0
  kickReason := none
  socket := none
  reconnectTimeout := none
  sockets := []
  timers := []
  nextTimer := 1
  sent := []
  disconnected := false
  thrown := false

def readyState (s : State) (i : Nat) : Option ReadyState := s.sockets[i]?.map (·.readyState)

def setReadyState (s : State) (i : Nat) (readyState : ReadyState) : State :=
  { s with sockets := s.sockets.modify i (fun socket => { socket with readyState := readyState }) }

/-- `close()` of a socket. -/
def closeSocket (s : State) (i : Nat) : State :=
  if s.readyState i = some .connecting ∨ s.readyState i = some .opened then
    s.setReadyState i .closing
  else s

/-- `setTimeout`, of the next attempt. -/
def setTimeout (s : State) : State :=
  { s with
    timers := s.timers ++ [s.nextTimer]
    reconnectTimeout := some s.nextTimer
    nextTimer := s.nextTimer + 1 }

/-! ## The connection -/

section Methods

variable (location : Location)

def connectionUrl (s : State) : String :=
  (if location.secure then "wss" else "ws") ++ "://" ++ location.host ++
    location.baseUrl.getD "" ++ "/api/room/" ++ s.roomName

def doConnect (s : State) (url : String) : State :=
  { s with sockets := s.sockets ++ [⟨url, .connecting⟩], socket := some s.sockets.length }

def connect (s : State) (roomName : String) : State :=
  if s.active then s
  else
    let s := { s with roomName := roomName, active := true, kickReason := none }
    s.doConnect (s.connectionUrl location)

def reconnect (s : State) : State :=
  if !s.active then s
  else
    let s := { s with reconnectAttempts := s.reconnectAttempts + 1 }
    s.doConnect (s.connectionUrl location ++ "?reconnect=true")

/-- Sending throws where nothing is added; on a socket that is closing nothing is sent either. -/
def send (s : State) (message : String) : State :=
  if !s.active || !s.connected then s
  else
    match s.socket with
    | none => s
    | some i =>
      if s.readyState i = some .opened then { s with sent := s.sent ++ [(i, message)] } else s

/-- The state, and whether an error was thrown. `this.reconnecting` is a ref, which is always true. -/
def disconnect (s : State) : State × Bool :=
  if !s.active then (s, false)
  else
    match s.socket with
    | none => (s, true)
    | some i =>
      let s := { s.closeSocket i with socket := none }
      let s :=
        match s.reconnectTimeout with
        | some t => { s with timers := s.timers.erase t, reconnectTimeout := none }
        | none => s
      ({ s with roomName := "", active := false }, false)

def onOpen (s : State) (authMsg : String) : State :=
  { s with connected := true, reconnecting := false, reconnectAttempts := 0 }.send authMsg

def onClose (s : State) (code : Nat) : State :=
  let s := { s with connected := false, socket := none }
  if code ≥ 4000 then { s with kickReason := some code, active := false }
  else if s.active then { s with reconnecting := true }.setTimeout
  else s

end Methods

end State

/-! ## Calls, timers and events -/

inductive Event where
  | connect (roomName : String)
  | disconnect
  | reconnect
  | timer (t : Nat)
  | opened (i : Nat)
  | message (i : Nat) (data : String)
  | error (i : Nat)
  | close (i : Nat) (code : Nat)
  deriving DecidableEq, Repr

/-- What is left after a call of `disconnect()`. -/
def afterDisconnect (s : State) : State :=
  { s.disconnect.1 with disconnected := true, thrown := s.thrown || s.disconnect.2 }

/-- A timer fires that is set; a socket opens that is connecting, and is closed once. -/
def step (location : Location) (authMsg : String) (s : State) : Event → Option State
  | .connect roomName => some { s.connect location roomName with disconnected := false }
  | .disconnect => some (afterDisconnect s)
  | .reconnect => some (s.reconnect location)
  | .timer t =>
    if t ∈ s.timers then some ({ s with timers := s.timers.erase t }.reconnect location) else none
  | .opened i =>
    if s.readyState i = some .connecting then some ((s.setReadyState i .opened).onOpen authMsg)
    else none
  | .message i _ => if s.readyState i = some .opened then some s else none
  | .error i => if s.readyState i = none then none else some s
  | .close i code =>
    if s.readyState i = none ∨ s.readyState i = some .closed then none
    else some ((s.setReadyState i .closed).onClose code)

def system (location : Location) (authMsg : String) : Machine State Event :=
  ⟨step location authMsg⟩

/-! ## The specification -/

/-- Neither `close()` was called nor the close event has come. -/
def State.Live (s : State) (i : Nat) : Prop :=
  s.readyState i = some .connecting ∨ s.readyState i = some .opened

/-- **The purpose.** -/
structure OneSocket (s : State) : Prop where
  live : ∀ i, s.Live i → s.socket = some i
  quiet : s.disconnected = true → ∀ i, ¬ s.Live i
  connected : s.connected = true → ∃ i, s.socket = some i ∧ s.readyState i = some .opened
  neverThrows : s.thrown = false

/-- A socket is opened where there is none, an active connection is ended while its socket has not
opened, and no socket is closed but the current one while there is one. -/
def Orderly (s : State) : Event → Prop
  | .connect _ => True
  | .disconnect => s.active = true → s.socket ≠ none ∧ s.connected = false
  | .reconnect => s.active = true → s.socket = none
  | .timer _ => s.active = true → s.socket = none
  | .opened _ => True
  | .message _ _ => True
  | .error _ => True
  | .close i _ => s.socket = none ∨ s.socket = some i

/-! ## Which sockets are live -/

namespace State

variable {location : Location} {s s' : State} {i j : Nat}

theorem live_congr (h : s'.sockets = s.sockets) : s'.Live i ↔ s.Live i := by
  unfold Live readyState
  rw [h]

theorem readyState_setReadyState (r : ReadyState) :
    (s.setReadyState i r).readyState j =
      if i = j then (s.readyState j).map (fun _ => r) else s.readyState j := by
  unfold setReadyState readyState
  dsimp only
  rw [List.getElem?_modify]
  split
  · simp [Option.map_map, Function.comp_def]
  · simp

/-- The new socket is live. -/
theorem live_doConnect (url : String) :
    (s.doConnect url).Live i ↔ s.Live i ∨ i = s.sockets.length := by
  unfold Live readyState doConnect
  dsimp only
  rcases Nat.lt_trichotomy i s.sockets.length with hlt | rfl | hgt
  · rw [List.getElem?_append_left hlt]
    constructor
    · exact .inl
    · exact fun h => h.resolve_right (Nat.ne_of_lt hlt)
  · simp
  · rw [List.getElem?_append_right (Nat.le_of_lt hgt), List.getElem?_eq_none (Nat.le_of_lt hgt),
      List.getElem?_eq_none (by simp; omega)]
    simp [Nat.ne_of_gt hgt]

/-- A socket that is given up is not live any more. -/
theorem live_setReadyState {r : ReadyState} (hr : r = .closing ∨ r = .closed) :
    (s.setReadyState i r).Live j ↔ s.Live j ∧ i ≠ j := by
  unfold Live
  rw [readyState_setReadyState]
  by_cases hij : i = j
  · subst hij
    rw [if_pos rfl]
    cases s.readyState i with
    | none => simp
    | some r' => rcases hr with rfl | rfl <;> simp
  · simp [hij]

theorem live_closeSocket : (s.closeSocket i).Live j ↔ s.Live j ∧ i ≠ j := by
  unfold closeSocket
  split
  · exact live_setReadyState (.inl rfl)
  · next hdead =>
    constructor
    · rintro h
      exact ⟨h, fun hij => hdead (hij ▸ h)⟩
    · exact fun h => h.1

/-- A socket that opens was live. -/
theorem live_opened (h : s.readyState i = some .connecting) :
    (s.setReadyState i .opened).Live j ↔ s.Live j := by
  unfold Live
  rw [readyState_setReadyState]
  by_cases hij : i = j
  · subst hij
    simp [h]
  · simp [hij]

/-! ## What the methods do -/

theorem reconnect_cases (location : Location) (s : State) :
    (s.active = false ∧ s.reconnect location = s) ∨
      (s.active = true ∧ ∃ n url,
        s.reconnect location = { s with reconnectAttempts := n }.doConnect url) := by
  unfold reconnect
  cases hactive : s.active with
  | false => exact .inl ⟨rfl, rfl⟩
  | true => exact .inr ⟨rfl, _, _, rfl⟩

theorem disconnect_cases (s : State) :
    (s.active = false ∧ s.disconnect = (s, false)) ∨
      (s.active = true ∧ s.socket = none ∧ s.disconnect = (s, true)) ∨
      ∃ i s', s.active = true ∧ s.socket = some i ∧ s.disconnect = (s', false) ∧
        s'.sockets = (s.closeSocket i).sockets ∧ s'.socket = none ∧ s'.active = false ∧
        s'.connected = s.connected := by
  unfold disconnect
  cases hactive : s.active with
  | false => exact .inl ⟨rfl, rfl⟩
  | true =>
    cases hsocket : s.socket with
    | none => exact .inr (.inl ⟨rfl, rfl, rfl⟩)
    | some i =>
      refine .inr (.inr ⟨i, _, rfl, rfl, rfl, ?_⟩)
      have hconnected : (s.closeSocket i).connected = s.connected := by
        unfold closeSocket
        split <;> rfl
      dsimp only
      split
      · exact ⟨rfl, rfl, rfl, hconnected⟩
      · exact ⟨rfl, rfl, rfl, hconnected⟩

/-- What is sent does not matter to the connection. -/
theorem onOpen_cases (s : State) (authMsg : String) :
    ∃ sent, s.onOpen authMsg =
      { s with connected := true, reconnecting := false, reconnectAttempts := 0, sent := sent } := by
  unfold onOpen send
  split
  · exact ⟨_, rfl⟩
  · split
    · exact ⟨_, rfl⟩
    · split
      · exact ⟨_, rfl⟩
      · exact ⟨_, rfl⟩

/-- The connection has no socket any more, whichever was closed. -/
theorem onClose_cases (s : State) (code : Nat) :
    (s.onClose code).socket = none ∧ (s.onClose code).connected = false ∧
      (s.onClose code).sockets = s.sockets ∧
      (s.onClose code).disconnected = s.disconnected ∧ (s.onClose code).thrown = s.thrown ∧
      ((s.onClose code).active = true → s.active = true) := by
  unfold onClose
  dsimp only
  split
  · exact ⟨rfl, rfl, rfl, rfl, rfl, fun h => by cases h⟩
  · split
    · exact ⟨rfl, rfl, rfl, rfl, rfl, id⟩
    · exact ⟨rfl, rfl, rfl, rfl, rfl, id⟩

end State

/-! ## What always holds -/

/-- A connection that is not active has no socket, a socket that it has is live, and a connection that
was ended is not active. -/
structure Inv (s : State) : Prop where
  idle : s.active = false → s.socket = none
  current : ∀ i, s.socket = some i → s.Live i
  ended : s.disconnected = true → s.thrown = false → s.active = false

section Steps

variable {location : Location} {authMsg : String} {s s' : State}

theorem inv_initial : Inv .initial :=
  ⟨fun _ => rfl, fun _ h => (by cases h), fun _ _ => rfl⟩

theorem oneSocket_initial : OneSocket .initial where
  live i h := by rcases h with h | h <;> cases h
  quiet h := by cases h
  connected h := by cases h
  neverThrows := rfl

theorem inv_doConnect (url : String) (hactive : s.active = true)
    (hended : s.disconnected = true → s.thrown = true) : Inv (s.doConnect url) where
  idle h := by
    rw [show s.active = false from h] at hactive
    cases hactive
  current i h := by
    cases h
    exact (State.live_doConnect url).mpr (.inr rfl)
  ended h h' := by
    rw [show s.thrown = false from h'] at hended
    cases hended h

/-- A socket may be opened where there is none. -/
theorem oneSocket_doConnect_iff (url : String) (hcurrent : ∀ i, s.socket = some i → s.Live i)
    (hdisconnected : s.disconnected = false) (hlive : ∀ i, s.Live i → s.socket = some i)
    (hconnected : s.connected = true → ∃ i, s.socket = some i) (hthrown : s.thrown = false) :
    OneSocket (s.doConnect url) ↔ s.socket = none := by
  have hnew : (s.doConnect url).socket = some s.sockets.length := rfl
  constructor
  · intro h
    by_contra hsome
    obtain ⟨i, hi⟩ := Option.ne_none_iff_exists'.mp hsome
    have hlive' := hcurrent i hi
    have heq := (h.live i ((State.live_doConnect url).mpr (.inl hlive'))).symm.trans hnew
    cases heq
    -- the new socket's place was free
    rcases hlive' with hstate | hstate <;>
      simp [State.readyState] at hstate
  · intro hnone
    refine ⟨?_, ?_, ?_, hthrown⟩
    · intro i hi
      rcases (State.live_doConnect url).mp hi with hold | rfl
      · rw [hnone] at hlive
        cases hlive i hold
      · exact hnew
    · intro h
      rw [show s.disconnected = true from h] at hdisconnected
      cases hdisconnected
    · intro h
      obtain ⟨i, hi⟩ := hconnected h
      rw [hnone] at hi
      cases hi

theorem OneSocket.hasSocket (h : OneSocket s) (hconnected : s.connected = true) :
    ∃ i, s.socket = some i := by
  obtain ⟨i, hi, -⟩ := h.connected hconnected
  exact ⟨i, hi⟩

/-! ### One lemma for each event -/

theorem connect_inv (hinv : Inv s) (roomName : String) :
    Inv { s.connect location roomName with disconnected := false } := by
  unfold State.connect
  cases hactive : s.active with
  | true => exact ⟨hinv.idle, hinv.current, fun h => by cases h⟩
  | false =>
    have h := inv_doConnect (s := { s with
      roomName := roomName, active := true, kickReason := none, disconnected := false })
      ({ s with roomName := roomName, active := true, kickReason := none }.connectionUrl location)
      rfl (fun h => by cases h)
    exact ⟨h.idle, h.current, h.ended⟩

theorem connect_oneSocket (hinv : Inv s) (h : OneSocket s) (roomName : String) :
    OneSocket { s.connect location roomName with disconnected := false } := by
  unfold State.connect
  cases hactive : s.active with
  | true => exact ⟨h.live, fun h => (by cases h), h.connected, h.neverThrows⟩
  | false =>
    exact (oneSocket_doConnect_iff (s := { s with
      roomName := roomName, active := true, kickReason := none, disconnected := false })
      ({ s with roomName := roomName, active := true, kickReason := none }.connectionUrl location)
      hinv.current rfl h.live h.hasSocket h.neverThrows).mpr (hinv.idle hactive)

theorem reconnect_inv (hinv : Inv s) : Inv (s.reconnect location) := by
  rcases s.reconnect_cases location with ⟨-, heq⟩ | ⟨hactive, n, url, heq⟩
  · rw [heq]
    exact hinv
  · rw [heq]
    refine inv_doConnect (s := { s with reconnectAttempts := n }) url hactive (fun h => ?_)
    by_contra hthrown
    rw [hinv.ended h (Bool.eq_false_iff.mpr hthrown)] at hactive
    cases hactive

theorem reconnect_oneSocket_iff (hinv : Inv s) (h : OneSocket s) :
    OneSocket (s.reconnect location) ↔ (s.active = true → s.socket = none) := by
  rcases s.reconnect_cases location with ⟨hidle, heq⟩ | ⟨hactive, n, url, heq⟩
  · rw [heq]
    exact iff_of_true h (fun hactive => by rw [hidle] at hactive; cases hactive)
  · have hdisconnected : s.disconnected = false := by
      by_contra hleft
      rw [Bool.not_eq_false] at hleft
      rw [hinv.ended hleft h.neverThrows] at hactive
      cases hactive
    rw [heq, oneSocket_doConnect_iff (s := { s with reconnectAttempts := n }) url hinv.current
      hdisconnected h.live h.hasSocket h.neverThrows]
    exact ⟨fun hnone _ => hnone, fun hnone => hnone hactive⟩

theorem disconnect_inv (hinv : Inv s) : Inv (afterDisconnect s) := by
  unfold afterDisconnect
  rcases s.disconnect_cases with ⟨hidle, heq⟩ | ⟨hactive, hnone, heq⟩ |
    ⟨i, s', hactive, hsome, heq, hsockets, hsocket, hidle, -⟩
  · rw [heq]
    exact ⟨hinv.idle, hinv.current, fun _ _ => hidle⟩
  · rw [heq]
    exact ⟨hinv.idle, hinv.current, fun _ h => by simp at h⟩
  · rw [heq]
    refine ⟨fun _ => hsocket, fun j hj => ?_, fun _ _ => hidle⟩
    rw [show s'.socket = some j from hj] at hsocket
    cases hsocket

theorem disconnect_oneSocket_iff (hinv : Inv s) (h : OneSocket s) :
    OneSocket (afterDisconnect s) ↔ (s.active = true → s.socket ≠ none ∧ s.connected = false) := by
  unfold afterDisconnect
  rcases s.disconnect_cases with ⟨hidle, heq⟩ | ⟨hactive, hnone, heq⟩ |
    ⟨i, s', hactive, hsome, heq, hsockets, hsocket, -, hconnected⟩
  · rw [heq]
    refine iff_of_true ⟨h.live, fun _ i hi => ?_, h.connected, by simp [h.neverThrows]⟩ ?_
    · have hi : s.socket = some i := h.live i hi
      rw [hinv.idle hidle] at hi
      cases hi
    · intro hactive
      rw [hidle] at hactive
      cases hactive
  · rw [heq]
    refine iff_of_false (fun h => ?_) (fun h => (h hactive).1 hnone)
    have hthrown := h.neverThrows
    simp at hthrown
  · rw [heq]
    -- the one socket that was live is closing
    have hdead : ∀ j, ¬ s'.Live j := by
      intro j hj
      obtain ⟨hlive, hne⟩ := State.live_closeSocket.mp ((State.live_congr hsockets).mp hj)
      exact hne (Option.some.inj (hsome.symm.trans (h.live j hlive)))
    constructor
    · intro h' _
      refine ⟨by rw [hsome]; simp, ?_⟩
      by_contra hconn
      rw [Bool.not_eq_false, ← hconnected] at hconn
      obtain ⟨j, hj⟩ := h'.hasSocket hconn
      rw [show s'.socket = some j from hj] at hsocket
      cases hsocket
    · intro hallowed
      refine ⟨fun j hj => absurd hj (hdead j), fun _ => hdead, fun hconn => ?_,
        by simp [h.neverThrows]⟩
      rw [show s'.connected = true from hconn, (hallowed hactive).2] at hconnected
      cases hconnected

theorem opened_inv {i : Nat} (hinv : Inv s) (hi : s.readyState i = some .connecting) :
    Inv ((s.setReadyState i .opened).onOpen authMsg) := by
  obtain ⟨sent, heq⟩ := State.onOpen_cases (s.setReadyState i .opened) authMsg
  rw [heq]
  exact ⟨hinv.idle, fun j hj => (State.live_opened hi).mpr (hinv.current j hj), hinv.ended⟩

theorem opened_oneSocket {i : Nat} (h : OneSocket s) (hi : s.readyState i = some .connecting) :
    OneSocket ((s.setReadyState i .opened).onOpen authMsg) := by
  obtain ⟨sent, heq⟩ := State.onOpen_cases (s.setReadyState i .opened) authMsg
  have hlive : ∀ j, (s.setReadyState i .opened).Live j ↔ s.Live j := fun j => State.live_opened hi
  rw [heq]
  refine ⟨fun j hj => h.live j ((hlive j).mp hj), fun hleft j hj => h.quiet hleft j ((hlive j).mp hj),
    fun _ => ⟨i, h.live i (.inl hi), ?_⟩, h.neverThrows⟩
  show (s.setReadyState i .opened).readyState i = _
  rw [State.readyState_setReadyState, if_pos rfl, hi]
  rfl

theorem close_inv (i code : Nat) (hinv : Inv s) :
    Inv ((s.setReadyState i .closed).onClose code) := by
  obtain ⟨hsocket, -, -, hdisconnected, hthrown, hactive⟩ :=
    State.onClose_cases (s.setReadyState i .closed) code
  refine ⟨fun _ => hsocket, fun j hj => ?_, fun hleft hcalm => ?_⟩
  · rw [hsocket] at hj
    cases hj
  · rw [hdisconnected] at hleft
    rw [hthrown] at hcalm
    by_contra hlive
    rw [Bool.not_eq_false] at hlive
    have hstill : s.active = true := hactive hlive
    rw [hinv.ended hleft hcalm] at hstill
    cases hstill

theorem close_oneSocket_iff {i : Nat} (code : Nat) (hinv : Inv s) (h : OneSocket s) :
    OneSocket ((s.setReadyState i .closed).onClose code) ↔
      (s.socket = none ∨ s.socket = some i) := by
  obtain ⟨hsocket, hconnected, hsockets, hdisconnected, hthrown, -⟩ :=
    State.onClose_cases (s.setReadyState i .closed) code
  have hlive : ∀ j, ((s.setReadyState i .closed).onClose code).Live j ↔ s.Live j ∧ i ≠ j :=
    fun j => (State.live_congr hsockets).trans (State.live_setReadyState (.inr rfl))
  constructor
  · intro h'
    cases hcurrent : s.socket with
    | none => exact .inl rfl
    | some j =>
      right
      by_contra hother
      have hj := h'.live j ((hlive j).mpr ⟨hinv.current j hcurrent, fun hij => hother (by rw [hij])⟩)
      rw [hsocket] at hj
      cases hj
  · intro hallowed
    have hdead : ∀ j, ¬ ((s.setReadyState i .closed).onClose code).Live j := by
      intro j hj
      obtain ⟨hold, hne⟩ := (hlive j).mp hj
      have hj := h.live j hold
      rcases hallowed with hnone | hsome
      · rw [hnone] at hj
        cases hj
      · exact hne (Option.some.inj (hsome.symm.trans hj))
    refine ⟨fun j hj => absurd hj (hdead j), fun _ => hdead, fun hconn => ?_, ?_⟩
    · rw [hconnected] at hconn
      cases hconn
    · rw [hthrown]
      exact h.neverThrows

/-! ### Any event -/

/-- The timers do not matter to the invariant, nor to what is proved of it. -/
theorem inv_timers (hinv : Inv s) (timers : List Nat) : Inv { s with timers := timers } :=
  ⟨hinv.idle, hinv.current, hinv.ended⟩

theorem oneSocket_timers (h : OneSocket s) (timers : List Nat) :
    OneSocket { s with timers := timers } :=
  ⟨h.live, h.quiet, h.connected, h.neverThrows⟩

theorem step_inv {e : Event} (hinv : Inv s) (hstep : step location authMsg s e = some s') :
    Inv s' := by
  unfold step at hstep
  cases e with
  | connect roomName =>
    cases hstep
    exact connect_inv hinv roomName
  | disconnect =>
    cases hstep
    exact disconnect_inv hinv
  | reconnect =>
    cases hstep
    exact reconnect_inv hinv
  | timer t =>
    dsimp only at hstep
    split at hstep
    · cases hstep
      exact reconnect_inv (inv_timers hinv _)
    · cases hstep
  | opened i =>
    dsimp only at hstep
    split at hstep
    · next hi =>
      cases hstep
      exact opened_inv hinv hi
    · cases hstep
  | message i data =>
    dsimp only at hstep
    split at hstep
    · cases hstep
      exact hinv
    · cases hstep
  | error i =>
    dsimp only at hstep
    split at hstep
    · cases hstep
    · cases hstep
      exact hinv
  | close i code =>
    dsimp only at hstep
    split at hstep
    · cases hstep
    · cases hstep
      exact close_inv i code hinv

/-- **One event.** -/
theorem step_oneSocket_iff {e : Event} (hinv : Inv s) (h : OneSocket s)
    (hstep : step location authMsg s e = some s') : OneSocket s' ↔ Orderly s e := by
  unfold step at hstep
  cases e with
  | connect roomName =>
    cases hstep
    exact iff_of_true (connect_oneSocket hinv h roomName) trivial
  | disconnect =>
    cases hstep
    exact disconnect_oneSocket_iff hinv h
  | reconnect =>
    cases hstep
    exact reconnect_oneSocket_iff hinv h
  | timer t =>
    dsimp only at hstep
    split at hstep
    · cases hstep
      exact reconnect_oneSocket_iff (inv_timers hinv _) (oneSocket_timers h _)
    · cases hstep
  | opened i =>
    dsimp only at hstep
    split at hstep
    · next hi =>
      cases hstep
      exact iff_of_true (opened_oneSocket h hi) trivial
    · cases hstep
  | message i data =>
    dsimp only at hstep
    split at hstep
    · cases hstep
      exact iff_of_true h trivial
    · cases hstep
  | error i =>
    dsimp only at hstep
    split at hstep
    · cases hstep
    · cases hstep
      exact iff_of_true h trivial
  | close i code =>
    dsimp only at hstep
    split at hstep
    · cases hstep
    · cases hstep
      exact close_oneSocket_iff code hinv h

end Steps

end OpenTogetherTube.Client.Connection
