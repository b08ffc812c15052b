import OpenTogetherTube.Lib.Machine
import OpenTogetherTube.Lib.Removal
import OpenTogetherTube.Server.Broadcast
import Mathlib.Data.List.Count
import Mathlib.Logic.Function.Basic

/-!
# Connections of balancers

A balancer connects, and is registered when it has sent its id; its clients join over the
connection, and are to leave when it is closed. A connection takes its id from each `init` message,
so a balancer that has reconnected has two connections with one id for a while.

`onBalancerDisconnect` makes the clients leave whose connection has the **id** of the one that was
closed: these can be clients of the other. And a client that has left before it was in its room is
put into the room's list afterwards, where nothing takes it out again. `disconnects_exact_iff` says
that nothing else goes wrong.
-/

namespace OpenTogetherTube.Server.BalancerManager

open OpenTogetherTube.Lib
open Broadcast (Client)

/-! ## State -/

/-- How far `addBalancerConnection` has come. -/
inductive Stage where
  /-- There is no such connection. -/
  | fresh
  /-- Waiting for the `init` message. -/
  | waiting
  /-- The message has come, and what awaits it has yet to go on. -/
  | announced
  | registered
  /-- The message did not come in time. -/
  | refused
  deriving DecidableEq, Repr

/-- A `BalancerConnection`. -/
structure Conn where
  id : String
  isOpen : Bool
  stage : Stage
  deriving DecidableEq, Repr

/-- `clients` are all `Client` objects, `entering` those whose `onClientAuth` awaits the room, and
`handled` those whose `onClientDisconnect` has been called. -/
structure State where
  conns : ObjectId → Conn
  balancerConnections : List ObjectId
  clients : List Client
  room : Client → String
  connections : List Client
  entering : List Client
  roomJoins : String → List Client
  handled : List Client

def empty : State where
  conns _ := ⟨"", false, .fresh⟩
  balancerConnections := []
  clients := []
  room _ := ""
  connections := []
  entering := []
  roomJoins _ := []
  handled := []

namespace State

def setConn (s : State) (conn : ObjectId) (c : Conn) : State :=
  { s with conns := Function.update s.conns conn c }

/-- A `Client` object is made, and listed. -/
def addClient (s : State) (c : Client) (room : String) : State :=
  { s with
    clients := s.clients ++ [c]
    room := Function.update s.room c room
    connections := s.connections ++ [c] }

/-- `onClientDisconnect`, up to its await. -/
def onClientDisconnect (s : State) (c : Client) : State :=
  let s := { s with handled := s.handled ++ [c] }
  if c ∈ s.connections then
    { s with
      connections := s.connections.erase c
      roomJoins := Function.update s.roomJoins (s.room c) ((s.roomJoins (s.room c)).erase c) }
  else s

/-- The clients whose connection has the id of this one. -/
def leavingClients (s : State) (conn : ObjectId) : List Client :=
  s.connections.filter (fun c => c.conn?.any (fun conn' => (s.conns conn').id = (s.conns conn).id))

/-- The client manager's `onBalancerDisconnect`, and the balancer manager's after it. -/
def onBalancerDisconnect (s : State) (conn : ObjectId) : State :=
  let s := (s.leavingClients conn).foldl onClientDisconnect s
  { s with balancerConnections := s.balancerConnections.erase conn }

end State

/-! ## Steps -/

inductive Event where
  /-- `addBalancerConnection`. A connection has an id of its own at first. -/
  | connect (conn : ObjectId) (id : String)
  | init (conn : ObjectId) (id : String)
  /-- The rest of `addBalancerConnection`. -/
  | register (conn : ObjectId)
  | timeout (conn : ObjectId)
  | disconnect (conn : ObjectId)
  /-- A `join` message. The client authenticates at once. -/
  | join (conn : ObjectId) (client : ObjectId) (room : String)
  | connectDirect (client : ObjectId) (room : String)
  | authDirect (client : ObjectId)
  /-- `onClientAuth` goes on in the room. -/
  | enter (client : Client) (room : String)
  /-- It does not. -/
  | reject (client : Client)
  /-- A client disconnects by itself, or is kicked. -/
  | leave (client : Client)
  | unload (room : String)
  deriving DecidableEq, Repr

def State.step (s : State) : Event → Option State
  | .connect conn id =>
    if (s.conns conn).stage = .fresh then some (s.setConn conn ⟨id, true, .waiting⟩) else none
  | .init conn id =>
    let c := s.conns conn
    if c.isOpen = true then
      match c.stage with
      | .waiting => some (s.setConn conn { c with id := id, stage := .announced })
      | .registered | .refused => some (s.setConn conn { c with id := id })
      | .fresh | .announced => some s
    else none
  | .register conn =>
    let c := s.conns conn
    if c.stage = .announced then
      let s := s.setConn conn { c with stage := .registered }
      some { s with balancerConnections := s.balancerConnections ++ [conn] }
    else none
  | .timeout conn =>
    let c := s.conns conn
    if c.stage = .waiting then some (s.setConn conn { c with stage := .refused }) else none
  | .disconnect conn =>
    let c := s.conns conn
    if c.isOpen = true then
      let stage := if c.stage = .waiting then .refused else c.stage
      some ((s.setConn conn { c with isOpen := false, stage := stage }).onBalancerDisconnect conn)
    else none
  | .join conn client room =>
    if (s.conns conn).isOpen = true ∧ (s.conns conn).stage = .registered ∧
      client ∉ s.clients.map Client.object then
      let s := s.addClient (.balancer client conn) room
      some { s with entering := s.entering ++ [.balancer client conn] }
    else none
  | .connectDirect client room =>
    if client ∉ s.clients.map Client.object then some (s.addClient (.direct client) room) else none
  | .authDirect client =>
    if .direct client ∈ s.clients then some { s with entering := s.entering ++ [.direct client] }
    else none
  | .enter client room =>
    if client ∈ s.entering then
      some { s with
        entering := s.entering.erase client
        room := Function.update s.room client room
        roomJoins := Function.update s.roomJoins room (s.roomJoins room ++ [client]) }
    else none
  | .reject client =>
    if client ∈ s.entering then some { s with entering := s.entering.erase client } else none
  | .leave client => if client ∈ s.clients then some (s.onClientDisconnect client) else none
  | .unload room => some { s with roomJoins := Function.update s.roomJoins room [] }

def system : Machine State Event := ⟨State.step⟩

/-! ## The specification -/

/-- The client was created on the connection. -/
def On (conn : ObjectId) (c : Client) : Prop := c.conn? = some conn

instance (conn : ObjectId) (c : Client) : Decidable (On conn c) :=
  inferInstanceAs (Decidable (_ = _))

/-- What a disconnect is to do: exactly the clients of the connection leave, each once, and exactly
the connection is unregistered. -/
structure Disconnected (conn : ObjectId) (s s' : State) : Prop where
  connections : s'.connections = s.connections.filter (fun c => ¬ On conn c)
  roomJoins : ∀ room, s'.roomJoins room = (s.roomJoins room).filter (fun c => ¬ On conn c)
  handled : s'.handled = s.handled ++ s.connections.filter (fun c => On conn c)
  balancerConnections :
    s'.balancerConnections = s.balancerConnections.filter (fun conn' => conn' ≠ conn)

/-- **The purpose**, step by step. -/
def Exact (s : State) : Event → Prop
  | .disconnect conn => ∀ s', s.step (.disconnect conn) = some s' → Disconnected conn s s'
  | _ => True

/-- The condition on a step: the clients that are listed, and whose connection has the id of the one
that is closed, are its own; and its clients that are in a room are listed. -/
def Apart (s : State) : Event → Prop
  | .disconnect conn =>
    (∀ c ∈ s.connections, ∀ conn', On conn' c → (s.conns conn').id = (s.conns conn).id →
      conn' = conn) ∧
    ∀ room, ∀ c ∈ s.roomJoins room, On conn c → c ∈ s.connections
  | _ => True

/-! ## The invariant -/

/-- Nothing is listed twice, besides direct clients that have authenticated twice; and clients of
balancers enter one room, once. -/
structure Inv (s : State) : Prop where
  connections : s.connections.Nodup
  registered : s.balancerConnections.Nodup
  stage : ∀ conn ∈ s.balancerConnections, (s.conns conn).stage = .registered
  listed : ∀ c ∈ s.connections, c ∈ s.clients
  awaited : ∀ c ∈ s.entering, c ∈ s.clients
  joined : ∀ room, ∀ c ∈ s.roomJoins room, c ∈ s.clients
  enters : ∀ c, c.isDirect = false → s.entering.count c ≤ 1
  entered : ∀ room, ∀ c ∈ s.roomJoins room, c.isDirect = false →
    s.room c = room ∧ (s.roomJoins room).count c ≤ 1 ∧ c ∉ s.entering

theorem inv_empty : Inv empty where
  connections := List.nodup_nil
  registered := List.nodup_nil
  stage _ h := by cases h
  listed _ h := by cases h
  awaited _ h := by cases h
  joined _ _ h := by cases h
  enters _ _ := Nat.zero_le 1
  entered _ _ h := by cases h

section Invariant

variable {s s' : State}

theorem Inv.setConn (h : Inv s) (conn : ObjectId) {c : Conn}
    (hstage : conn ∈ s.balancerConnections → c.stage = .registered) : Inv (s.setConn conn c) where
  connections := h.connections
  registered := h.registered
  stage conn' hmem := by
    show (Function.update s.conns conn c conn').stage = .registered
    by_cases heq : conn' = conn
    · subst heq
      rw [Function.update_self]
      exact hstage hmem
    · rw [Function.update_of_ne heq]
      exact h.stage conn' hmem
  listed := h.listed
  awaited := h.awaited
  joined := h.joined
  enters := h.enters
  entered := h.entered

theorem Inv.onClientDisconnect (h : Inv s) (c : Client) : Inv (s.onClientDisconnect c) := by
  unfold State.onClientDisconnect
  dsimp only
  split
  · have hsub : ∀ room, (Function.update s.roomJoins (s.room c)
        ((s.roomJoins (s.room c)).erase c) room).Sublist (s.roomJoins room) := by
      intro room
      by_cases heq : room = s.room c
      · rw [heq, Function.update_self]
        exact List.erase_sublist
      · rw [Function.update_of_ne heq]
    refine ⟨h.connections.erase c, h.registered, h.stage, ?_, h.awaited, ?_, h.enters, ?_⟩
    · exact fun c' hc' => h.listed c' (List.mem_of_mem_erase hc')
    · exact fun room c' hc' => h.joined room c' ((hsub room).subset hc')
    · intro room c' hc' hdirect
      obtain ⟨hroom, hcount, hout⟩ := h.entered room c' ((hsub room).subset hc') hdirect
      exact ⟨hroom, ((hsub room).count_le c').trans hcount, hout⟩
  · exact ⟨h.connections, h.registered, h.stage, h.listed, h.awaited, h.joined, h.enters, h.entered⟩

theorem Inv.addClient (h : Inv s) {c : Client} {room : String} (hc : c ∉ s.clients) :
    Inv (s.addClient c room) := by
  have hout : ∀ c' ∈ s.clients, c' ≠ c := fun c' hc' heq => hc (heq ▸ hc')
  refine ⟨?_, h.registered, h.stage, ?_, ?_, ?_, h.enters, ?_⟩
  · have hnew : c ∉ s.connections := fun hmem => hc (h.listed c hmem)
    exact List.nodup_append.mpr ⟨h.connections, List.nodup_singleton c, by
      intro c' hc' c'' hc'' heq
      rw [List.mem_singleton.mp hc''] at heq
      exact hnew (heq ▸ hc')⟩
  · intro c' hc'
    obtain hc' | hc' := List.mem_append.mp hc'
    · exact List.mem_append_left _ (h.listed c' hc')
    · exact List.mem_append_right _ hc'
  · exact fun c' hc' => List.mem_append_left _ (h.awaited c' hc')
  · exact fun room' c' hc' => List.mem_append_left _ (h.joined room' c' hc')
  · intro room' c' hc' hdirect
    obtain ⟨hroom, hcount, hentering⟩ := h.entered room' c' hc' hdirect
    refine ⟨?_, hcount, hentering⟩
    exact (Function.update_of_ne (hout c' (h.joined room' c' hc')) _ _).trans hroom

/-- `onClientAuth` is called. A client of a balancer has not been in a room before. -/
theorem Inv.await (h : Inv s) {c : Client} (hc : c ∈ s.clients)
    (hfirst : c.isDirect = false → c ∉ s.entering ∧ ∀ room, c ∉ s.roomJoins room) :
    Inv { s with entering := s.entering ++ [c] } := by
  refine ⟨h.connections, h.registered, h.stage, h.listed, ?_, h.joined, ?_, ?_⟩
  · intro c' hc'
    obtain hc' | hc' := List.mem_append.mp hc'
    · exact h.awaited c' hc'
    · rwa [List.mem_singleton.mp hc']
  · intro c' hdirect
    show (s.entering ++ [c]).count c' ≤ 1
    rw [List.count_append]
    by_cases heq : c' = c
    · subst heq
      rw [List.count_eq_zero.mpr (hfirst hdirect).1, List.count_singleton_self]
    · rw [List.count_singleton, if_neg (by simpa using Ne.symm heq)]
      exact h.enters c' hdirect
  · intro room c' hc' hdirect
    obtain ⟨hroom, hcount, hentering⟩ := h.entered room c' hc' hdirect
    refine ⟨hroom, hcount, fun hmem => ?_⟩
    obtain hmem | hmem := List.mem_append.mp hmem
    · exact hentering hmem
    · rw [List.mem_singleton.mp hmem] at hc' hdirect
      exact (hfirst hdirect).2 room hc'

theorem Inv.reject (h : Inv s) (c : Client) : Inv { s with entering := s.entering.erase c } where
  connections := h.connections
  registered := h.registered
  stage := h.stage
  listed := h.listed
  awaited c' hc' := h.awaited c' (List.mem_of_mem_erase hc')
  joined := h.joined
  enters c' hdirect := (List.erase_sublist.count_le c').trans (h.enters c' hdirect)
  entered room c' hc' hdirect :=
    (h.entered room c' hc' hdirect).imp_right (And.imp_right (mt List.mem_of_mem_erase))

theorem Inv.enter (h : Inv s) {c : Client} (hc : c ∈ s.entering) (room : String) :
    Inv { s with
      entering := s.entering.erase c
      room := Function.update s.room c room
      roomJoins := Function.update s.roomJoins room (s.roomJoins room ++ [c]) } := by
  have hmem : ∀ {room' c'}, c' ∈ Function.update s.roomJoins room (s.roomJoins room ++ [c]) room' →
      c' ∈ s.roomJoins room' ∨ room' = room ∧ c' = c := by
    intro room' c' hc'
    by_cases heq : room' = room
    · subst heq
      rw [Function.update_self] at hc'
      exact (List.mem_append.mp hc').imp_right (fun hc' => ⟨rfl, List.mem_singleton.mp hc'⟩)
    · rw [Function.update_of_ne heq] at hc'
      exact .inl hc'
  refine ⟨h.connections, h.registered, h.stage, h.listed, (h.reject c).awaited, ?_,
    (h.reject c).enters, ?_⟩
  · intro room' c' hc'
    obtain hc' | ⟨-, rfl⟩ := hmem hc'
    · exact h.joined room' c' hc'
    · exact h.awaited c' hc
  · intro room' c' hc' hdirect
    obtain hold | ⟨rfl, rfl⟩ := hmem hc'
    · obtain ⟨hroom, hcount, hentering⟩ := h.entered room' c' hold hdirect
      have hne : c' ≠ c := fun heq => hentering (heq ▸ hc)
      refine ⟨(Function.update_of_ne hne _ _).trans hroom, ?_, mt List.mem_of_mem_erase hentering⟩
      by_cases heq : room' = room
      · subst heq
        show (Function.update s.roomJoins room' _ room').count c' ≤ 1
        rw [Function.update_self, List.count_append, List.count_singleton,
          if_neg (by simpa using Ne.symm hne)]
        exact hcount
      · show (Function.update s.roomJoins room _ room').count c' ≤ 1
        rwa [Function.update_of_ne heq]
    · have hout : ∀ room, c' ∉ s.roomJoins room :=
        fun room hc' => (h.entered room c' hc' hdirect).2.2 hc
      refine ⟨Function.update_self .., ?_, ?_⟩
      · show (Function.update s.roomJoins room' _ room').count c' ≤ 1
        rw [Function.update_self, List.count_append, List.count_singleton_self,
          List.count_eq_zero.mpr (hout room')]
      · intro hmem
        have hone := h.enters c' hdirect
        have := List.count_pos_iff.mpr hmem
        rw [List.count_erase_self] at this
        omega

theorem Inv.unload (h : Inv s) (room : String) :
    Inv { s with roomJoins := Function.update s.roomJoins room [] } := by
  have hmem : ∀ {room' c}, c ∈ Function.update s.roomJoins room [] room' →
      Function.update s.roomJoins room [] room' = s.roomJoins room' := by
    intro room' c hc
    by_cases heq : room' = room
    · subst heq
      rw [Function.update_self] at hc
      exact absurd hc List.not_mem_nil
    · exact Function.update_of_ne heq ..
  refine ⟨h.connections, h.registered, h.stage, h.listed, h.awaited, ?_, h.enters, ?_⟩
  · exact fun room' c hc => h.joined room' c (hmem hc ▸ hc)
  · intro room' c hc hdirect
    show s.room c = room' ∧ (Function.update s.roomJoins room [] room').count c ≤ 1 ∧ _
    rw [hmem hc]
    exact h.entered room' c (hmem hc ▸ hc) hdirect

theorem Inv.foldl_onClientDisconnect (h : Inv s) (leaving : List Client) :
    Inv (leaving.foldl State.onClientDisconnect s) := by
  induction leaving generalizing s with
  | nil => exact h
  | cons c leaving ih => exact ih (h.onClientDisconnect c)

theorem Inv.onBalancerDisconnect (h : Inv s) (conn : ObjectId) :
    Inv (s.onBalancerDisconnect conn) := by
  have h' := h.foldl_onClientDisconnect (s.leavingClients conn)
  exact ⟨h'.connections, h'.registered.erase conn,
    fun conn' hmem => h'.stage conn' (List.mem_of_mem_erase hmem), h'.listed, h'.awaited, h'.joined,
    h'.enters, h'.entered⟩

theorem step_disconnect (h : Inv s) {conn : ObjectId} (hs : s.step (.disconnect conn) = some s') :
    ∃ c : Conn, c.id = (s.conns conn).id ∧ (conn ∈ s.balancerConnections → c.stage = .registered) ∧
      s' = (s.setConn conn c).onBalancerDisconnect conn := by
  obtain ⟨-, hs⟩ := Option.ite_none_right_eq_some.mp hs
  cases hs
  refine ⟨⟨(s.conns conn).id, false, _⟩, rfl, fun hmem => ?_, rfl⟩
  have hstage := h.stage conn hmem
  exact (if_neg (by simp [hstage])).trans hstage

theorem inv_step {e : Event} (h : Inv s) (hs : s.step e = some s') : Inv s' := by
  cases e with
  | connect conn id =>
    obtain ⟨hfresh, hs⟩ := Option.ite_none_right_eq_some.mp hs
    cases hs
    refine h.setConn conn (fun hmem => ?_)
    rw [h.stage conn hmem] at hfresh
    cases hfresh
  | init conn id =>
    obtain ⟨-, hs⟩ := Option.ite_none_right_eq_some.mp hs
    split at hs
    · rename_i hstage
      cases hs
      refine h.setConn conn (fun hmem => ?_)
      rw [h.stage conn hmem] at hstage
      cases hstage
    · cases hs
      exact h.setConn conn (fun hmem => h.stage conn hmem)
    · cases hs
      exact h.setConn conn (fun hmem => h.stage conn hmem)
    · cases hs
      exact h
    · cases hs
      exact h
  | register conn =>
    obtain ⟨hstage, hs⟩ := Option.ite_none_right_eq_some.mp hs
    cases hs
    have hnew : conn ∉ s.balancerConnections := by
      intro hmem
      rw [h.stage conn hmem] at hstage
      cases hstage
    have h' := h.setConn conn (c := { s.conns conn with stage := .registered }) (fun _ => rfl)
    refine ⟨h'.connections, ?_, ?_, h'.listed, h'.awaited, h'.joined, h'.enters, h'.entered⟩
    · refine List.nodup_append.mpr ⟨h.registered, List.nodup_singleton conn, ?_⟩
      intro conn' hmem conn'' hmem' heq
      rw [List.mem_singleton.mp hmem'] at heq
      exact hnew (heq ▸ hmem)
    · intro conn' hmem
      obtain hmem | hmem := List.mem_append.mp hmem
      · exact h'.stage conn' hmem
      · rw [List.mem_singleton.mp hmem]
        show (Function.update s.conns conn _ conn).stage = .registered
        rw [Function.update_self]
  | timeout conn =>
    obtain ⟨hstage, hs⟩ := Option.ite_none_right_eq_some.mp hs
    cases hs
    refine h.setConn conn (fun hmem => ?_)
    rw [h.stage conn hmem] at hstage
    cases hstage
  | disconnect conn =>
    obtain ⟨c, -, hstage, rfl⟩ := step_disconnect h hs
    exact (h.setConn conn hstage).onBalancerDisconnect conn
  | join conn client room =>
    obtain ⟨⟨-, -, hnew⟩, hs⟩ := Option.ite_none_right_eq_some.mp hs
    cases hs
    have hout : Client.balancer client conn ∉ s.clients :=
      fun hmem => hnew (List.mem_map.mpr ⟨_, hmem, rfl⟩)
    refine (h.addClient hout).await (List.mem_append_right _ List.mem_cons_self) ?_
    exact fun _ => ⟨fun hmem => hout (h.awaited _ hmem), fun room' hmem => hout (h.joined _ _ hmem)⟩
  | connectDirect client room =>
    obtain ⟨hnew, hs⟩ := Option.ite_none_right_eq_some.mp hs
    cases hs
    exact h.addClient (fun hmem => hnew (List.mem_map.mpr ⟨_, hmem, rfl⟩))
  | authDirect client =>
    obtain ⟨hmem, hs⟩ := Option.ite_none_right_eq_some.mp hs
    cases hs
    exact h.await hmem (fun hdirect => by cases hdirect)
  | enter client room =>
    obtain ⟨hmem, hs⟩ := Option.ite_none_right_eq_some.mp hs
    cases hs
    exact h.enter hmem room
  | reject client =>
    obtain ⟨-, hs⟩ := Option.ite_none_right_eq_some.mp hs
    cases hs
    exact h.reject client
  | leave client =>
    obtain ⟨-, hs⟩ := Option.ite_none_right_eq_some.mp hs
    cases hs
    exact h.onClientDisconnect client
  | unload room =>
    cases hs
    exact h.unload room

end Invariant

/-! ## Which clients leave -/

section Leave

variable {s s' : State}

/-- Each client that is listed leaves its room's list, too. -/
theorem onClientDisconnect_of_mem {c : Client} (hc : c ∈ s.connections) :
    s.onClientDisconnect c = { s with
      handled := s.handled ++ [c]
      connections := s.connections.erase c
      roomJoins := Function.update s.roomJoins (s.room c) ((s.roomJoins (s.room c)).erase c) } :=
  if_pos hc

theorem foldl_onClientDisconnect {leaving : List Client} (hnodup : s.connections.Nodup)
    (hleaving : leaving.Nodup) (hmem : ∀ c ∈ leaving, c ∈ s.connections) :
    leaving.foldl State.onClientDisconnect s = { s with
      connections := s.connections.filter (fun c => c ∉ leaving)
      roomJoins := fun room => (s.roomJoins room).diff (leaving.filter (fun c => s.room c = room))
      handled := s.handled ++ leaving } := by
  induction leaving generalizing s with
  | nil => simp
  | cons c leaving ih =>
    obtain ⟨hout, hleaving⟩ := List.nodup_cons.mp hleaving
    rw [List.foldl_cons, onClientDisconnect_of_mem (hmem c List.mem_cons_self),
      ih (hnodup.erase c) hleaving]
    · congr 1
      · show (s.connections.erase c).filter _ = _
        rw [hnodup.erase_eq_filter, List.filter_filter]
        refine List.filter_congr (fun c' _ => ?_)
        by_cases heq : c' = c <;> simp [heq]
      · funext room
        show (Function.update s.roomJoins (s.room c) _ room).diff _ = _
        by_cases heq : s.room c = room
        · subst heq
          rw [Function.update_self, List.filter_cons_of_pos (by simp), List.diff_cons]
        · rw [Function.update_of_ne (Ne.symm heq), List.filter_cons_of_neg (by simpa using heq)]
      · exact List.append_assoc ..
    · intro c' hc'
      have hne : c' ≠ c := fun heq => hout (heq ▸ hc')
      exact (List.mem_erase_of_ne hne).mpr (hmem c' (List.mem_cons_of_mem _ hc'))

theorem setConn_id {conn : ObjectId} {c : Conn} (hid : c.id = (s.conns conn).id)
    (conn' : ObjectId) : ((s.setConn conn c).conns conn').id = (s.conns conn').id := by
  show (Function.update s.conns conn c conn').id = _
  by_cases heq : conn' = conn
  · subst heq
    rw [Function.update_self, hid]
  · rw [Function.update_of_ne heq]

theorem mem_leavingClients {conn : ObjectId} {c : Client} :
    c ∈ s.leavingClients conn ↔
      c ∈ s.connections ∧ ∃ conn', On conn' c ∧ (s.conns conn').id = (s.conns conn).id := by
  simp [State.leavingClients, On, Option.any_eq_true]

theorem mem_leavingClients_of_on {conn : ObjectId} {c : Client} (hc : c ∈ s.connections)
    (hon : On conn c) : c ∈ s.leavingClients conn :=
  mem_leavingClients.mpr ⟨hc, conn, hon, rfl⟩

/-- What a disconnect does. -/
theorem onBalancerDisconnect_eq (h : Inv s) (conn : ObjectId) :
    s.onBalancerDisconnect conn = { s with
      connections := s.connections.filter (fun c => c ∉ s.leavingClients conn)
      roomJoins := fun room =>
        (s.roomJoins room).diff ((s.leavingClients conn).filter (fun c => s.room c = room))
      handled := s.handled ++ s.leavingClients conn
      balancerConnections := s.balancerConnections.erase conn } := by
  have hmem : ∀ c ∈ s.leavingClients conn, c ∈ s.connections :=
    fun c hc => (mem_leavingClients.mp hc).1
  have hfold := foldl_onClientDisconnect h.connections (h.connections.filter _) hmem
  exact congrArg (fun t => { t with balancerConnections := t.balancerConnections.erase conn }) hfold

/-- **What can go wrong.** -/
theorem disconnected_iff (h : Inv s) (conn : ObjectId) :
    Disconnected conn s (s.onBalancerDisconnect conn) ↔ Apart s (.disconnect conn) := by
  rw [onBalancerDisconnect_eq h conn]
  constructor
  · rintro ⟨hconnections, hjoins, -, -⟩
    constructor
    · intro c hc conn' hon hid
      by_contra hne
      have hstays : c ∈ s.connections.filter (fun c => ¬ On conn c) := by
        refine List.mem_filter.mpr ⟨hc, decide_eq_true fun hon' => hne ?_⟩
        exact Option.some.inj (hon.symm.trans hon')
      rw [← hconnections] at hstays
      have hout := of_decide_eq_true (List.mem_filter.mp hstays).2
      exact hout (mem_leavingClients.mpr ⟨hc, conn', hon, hid⟩)
    · intro room c hc hon
      by_contra hout
      have hstays : c ∈ (s.roomJoins room).filter (fun c => ¬ On conn c) := by
        rw [← hjoins room]
        refine List.mem_diff_of_mem hc (fun hmem => hout ?_)
        exact (mem_leavingClients.mp (List.mem_of_mem_filter hmem)).1
      exact of_decide_eq_true (List.mem_filter.mp hstays).2 hon
  · rintro ⟨hids, hlisted⟩
    -- those with the id are those of the connection
    have hleaving : ∀ c ∈ s.connections, (c ∈ s.leavingClients conn ↔ On conn c) := by
      intro c hc
      refine ⟨fun hmem => ?_, mem_leavingClients_of_on hc⟩
      obtain ⟨-, conn', hon, hid⟩ := mem_leavingClients.mp hmem
      rwa [← hids c hc conn' hon hid]
    have hon : ∀ c ∈ s.leavingClients conn, On conn c :=
      fun c hc => (hleaving c (mem_leavingClients.mp hc).1).mp hc
    refine ⟨?_, fun room => ?_, ?_, ?_⟩
    · exact List.filter_congr (fun c hc => decide_eq_decide.mpr (not_congr (hleaving c hc)))
    · have hdirect : ∀ c, On conn c → c.isDirect = false := by
        intro c hon
        cases c with
        | direct object => cases hon
        | balancer object conn' => rfl
      show (s.roomJoins room).diff _ = _
      rw [diff_eq_filter_of_count]
      · refine List.filter_congr (fun c hc => decide_eq_decide.mpr (not_congr ⟨fun hmem => ?_, ?_⟩))
        · exact hon c (List.mem_of_mem_filter hmem)
        · intro hon
          have hroom := (h.entered room c hc (hdirect c hon)).1
          exact List.mem_filter.mpr
            ⟨mem_leavingClients_of_on (hlisted room c hc hon) hon, decide_eq_true hroom⟩
      · intro c hmem
        by_cases hc : c ∈ s.roomJoins room
        · exact (h.entered room c hc (hdirect c (hon c (List.mem_of_mem_filter hmem)))).2.1
        · exact (List.count_eq_zero.mpr hc).trans_le (Nat.zero_le 1)
    · refine congrArg (s.handled ++ ·) (List.filter_congr fun c hc => ?_)
      refine Bool.eq_iff_iff.mpr (Iff.trans ?_ ((hleaving c hc).trans decide_eq_true_iff.symm))
      exact ⟨fun hany => List.mem_filter.mpr ⟨hc, hany⟩, fun hmem => (List.mem_filter.mp hmem).2⟩
    · show s.balancerConnections.erase conn = _
      exact erase_eq_filter_of_nodup h.registered conn

end Leave

/-! ## Runs -/

section Runs

variable {s s' : State} {e : Event}

theorem exact_iff (h : Inv s) (hs : s.step e = some s') : Exact s e ↔ Apart s e := by
  cases e with
  | disconnect conn =>
    -- the connection is closed already when the clients leave, and has kept its id
    obtain ⟨c, hid, hstage, rfl⟩ := step_disconnect h hs
    have hiff := disconnected_iff (h.setConn conn hstage) conn
    have hapart : Apart (s.setConn conn c) (.disconnect conn) ↔ Apart s (.disconnect conn) := by
      simp only [Apart, setConn_id hid]
      rfl
    constructor
    · intro hexact
      obtain ⟨hconnections, hjoins, hhandled, hregistered⟩ := hexact _ hs
      exact hapart.mp (hiff.mp ⟨hconnections, hjoins, hhandled, hregistered⟩)
    · intro happ t ht
      cases hs.symm.trans ht
      obtain ⟨hconnections, hjoins, hhandled, hregistered⟩ := hiff.mpr (hapart.mpr happ)
      exact ⟨hconnections, hjoins, hhandled, hregistered⟩
  | _ => exact Iff.rfl

end Runs

/-- **Disconnects are exact.** In every run, each disconnect makes exactly the clients of its
connection leave, if and only if each is `Apart`. -/
theorem disconnects_exact_iff (es : List Event) :
    system.Along Exact empty es ↔ system.Along Apart empty es := by
  constructor
  · exact Machine.along_of_along (fun _ _ _ h _ hs => inv_step h hs)
      (fun _ _ _ h hexact hs => (exact_iff h hs).mp hexact) inv_empty
  · exact Machine.along_of_along (fun _ _ _ h _ hs => inv_step h hs)
      (fun _ _ _ h hapart hs => (exact_iff h hs).mpr hapart) inv_empty

/-- A balancer reconnects, and a client joins over the new connection, before the old one is
closed. -/
def reconnected : List Event :=
  [.connect 1 "1", .init 1 "b", .register 1, .connect 2 "2", .init 2 "b", .register 2,
    .join 2 3 "foo"]

/-- Then the client leaves with the old connection. -/
theorem not_disconnects_exact : ¬ ∀ es, system.Along Exact empty es := by
  intro h
  have hlost : (system.run empty reconnected).bind (fun s =>
      (s.step (.disconnect 1)).map (fun s' => (s.connections, s'.connections))) =
      some ([.balancer 3 2], []) := by decide
  obtain ⟨s, hrun, hs⟩ := Option.bind_eq_some_iff.mp hlost
  obtain ⟨s', hs, heq⟩ := Option.map_eq_some_iff.mp hs
  obtain ⟨hbefore, hafter⟩ := Prod.mk.inj heq
  have hlast := Machine.Along.of_append (h (reconnected ++ [.disconnect 1])) hrun
  have hexact := (hlast s' hs).1 s' hs
  have hstays := hexact.connections
  rw [hbefore, hafter] at hstays
  revert hstays
  decide

end OpenTogetherTube.Server.BalancerManager
