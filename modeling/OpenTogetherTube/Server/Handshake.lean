import OpenTogetherTube.Lib.Json
import OpenTogetherTube.Lib.Machine

/-!
# The handshake with a balancer

`addBalancerConnection` awaits a promise that the balancer's `init` message resolves. The listener
that resolves it takes itself off, and the one that passes messages on is only put there, and the
connection only noted in `balancerConnections`, when the `await` goes on. A frame that comes in
between finds nobody who listens.

Frames are emitted in the order in which they came, any number of them before a continuation runs.
`heard_throughout_iff` says which runs lose none.
-/

namespace OpenTogetherTube.Server.Handshake

open OpenTogetherTube.Lib

/-- The messages of a balancer that are valid. -/
inductive MsgB2M where
  | load (room : String)
  | unload (room : String)
  | join (room client : String) (token : Value)
  | leave (client : String)
  | clientMsg (client : String) (payload : Json)
  | init (id : String)

inductive Promise where
  | pending | resolved | rejected
  deriving DecidableEq, Repr

/-- Only the first one counts. -/
def Promise.settle (p : Promise) (outcome : Promise) : Promise :=
  if p = .pending then outcome else p

/-- A connection, its listeners, and how far `addBalancerConnection` is with it. `received` and
`delivered` are history: the frames after the first `init`, and what `onBalancerMessage` was called
with, next to what `getConnection` finds at that moment for the connection's id. -/
structure Connection where
  id : String
  /-- The listener for `init` is there. -/
  handler : Bool
  disconnectHandler : Bool
  timer : Bool
  waitForInit : Promise
  /-- `addBalancerConnection` has gone on after its `await`. -/
  finished : Bool
  /-- The listener that passes messages on is there. -/
  listening : Bool
  received : List MsgB2M
  delivered : List (MsgB2M × Option Nat)

/-- `addBalancerConnection`, up to its `await`. -/
def Connection.new (id : String) : Connection :=
  ⟨id, true, true, true, .pending, false, false, [], []⟩

/-- All connections there have ever been, and those that the manager has noted. -/
structure Manager where
  connections : List Connection
  balancerConnections : List Nat

inductive Event where
  | addBalancerConnection (id : String)
  | frame (i : Nat) (msg : MsgB2M)
  | resume (i : Nat)
  | timeout (i : Nat)
  | disconnect (i : Nat)

namespace Manager

def empty : Manager := ⟨[], []⟩

/-- The first connection that is noted with this id. -/
def getConnection (s : Manager) (id : String) : Option Nat :=
  s.balancerConnections.find? (fun i => s.connections[i]?.any (fun conn => conn.id = id))

/-- The listener for `init`. -/
def hearInit (conn : Connection) : MsgB2M → Connection
  | .init id => { conn with
      id := id
      handler := false
      disconnectHandler := false
      timer := false
      waitForInit := conn.waitForInit.settle .resolved }
  | _ => conn

/-- The listener that passes messages on. An `init` gives the connection its id once more. -/
def hear (s : Manager) (conn : Connection) (msg : MsgB2M) : Connection := { conn with
  id := match msg with
    | .init id => id
    | _ => conn.id
  delivered := conn.delivered ++ [(msg, s.getConnection conn.id)] }

/-- A frame is emitted to whoever listens. -/
def heard (s : Manager) (conn : Connection) (msg : MsgB2M) : Connection :=
  let after := if conn.handler then hearInit conn msg
    else { conn with received := conn.received ++ [msg] }
  if conn.listening then s.hear after msg else after

/-- The `await` goes on. -/
def goOn (conn : Connection) : Connection :=
  { conn with finished := true, listening := decide (conn.waitForInit = .resolved) }

/-- A connection changes. -/
def update (s : Manager) (i : Nat) (conn : Connection) : Manager :=
  { s with connections := s.connections.set i conn }

def step (s : Manager) : Event → Option Manager
  | .addBalancerConnection id => some { s with connections := s.connections ++ [.new id] }
  | .frame i msg => (s.connections[i]?).map (fun conn => s.update i (s.heard conn msg))
  | .resume i =>
    (s.connections[i]?).bind (fun conn =>
      if conn.finished ∨ conn.waitForInit = .pending then none
      else
        let s := s.update i (goOn conn)
        some (if conn.waitForInit = .resolved then
          { s with balancerConnections := s.balancerConnections ++ [i] } else s))
  | .timeout i =>
    (s.connections[i]?).bind (fun conn =>
      if conn.timer then
        some (s.update i { conn with
          timer := false
          waitForInit := conn.waitForInit.settle .rejected })
      else none)
  | .disconnect i =>
    (s.connections[i]?).map (fun conn =>
      let s := { s with balancerConnections := s.balancerConnections.erase i }
      if conn.disconnectHandler then
        s.update i { conn with
          timer := false
          waitForInit := conn.waitForInit.settle .rejected }
      else s)

end Manager

def manager : Machine Manager Event := ⟨Manager.step⟩

/-! ## The specification -/

/-- **The purpose**: every frame after `init` was passed on once, in order, and the connection was
found at that time. -/
def Heard (s : Manager) : Prop :=
  ∀ (i : Nat) (conn : Connection), s.connections[i]? = some conn →
    conn.delivered = conn.received.map (fun msg => (msg, some i))

/-- A frame after `init` comes when the `await` has gone on and the connection is noted, and no other
with the same id before it. -/
def Hears (s : Manager) : Event → Prop
  | .frame i _ => ∀ conn, s.connections[i]? = some conn → conn.handler = false →
      conn.listening = true ∧ s.getConnection conn.id = some i
  | _ => True

/-! ## Every run -/

/-- Nobody passes messages on before `init`. -/
structure Attached (conn : Connection) : Prop where
  resolved : conn.waitForInit = .resolved → conn.handler = false
  listening : conn.listening = true → conn.handler = false

def AllAttached (s : Manager) : Prop :=
  ∀ (i : Nat) (conn : Connection), s.connections[i]? = some conn → Attached conn

variable {s s' : Manager} {i : Nat} {conn conn' : Connection}

/-- The connections after one of them has changed. -/
theorem getElem?_update (h : s.connections[i]? = some conn) (conn' : Connection) (j : Nat) :
    (s.update i conn').connections[j]? = if i = j then some conn' else s.connections[j]? := by
  obtain ⟨hlt, -⟩ := List.getElem?_eq_some_iff.mp h
  unfold Manager.update
  rw [List.getElem?_set]
  by_cases heq : i = j
  · subst heq
    simp [hlt]
  · simp [heq]

theorem AllAttached.update (h : AllAttached s) (hi : s.connections[i]? = some conn)
    (hconn : Attached conn') : AllAttached (s.update i conn') := by
  intro j other hj
  rw [getElem?_update hi] at hj
  split at hj
  · cases hj
    exact hconn
  · exact h j other hj

/-- A connection changes, and nothing that was received or delivered. -/
theorem Heard.update (h : Heard s) (hi : s.connections[i]? = some conn)
    (hreceived : conn'.received = conn.received) (hdelivered : conn'.delivered = conn.delivered) :
    Heard (s.update i conn') := by
  intro j other hj
  rw [getElem?_update hi] at hj
  split at hj
  · next heq =>
    cases hj
    subst heq
    rw [hreceived, hdelivered]
    exact h i conn hi
  · exact h j other hj

theorem Attached.settle_rejected (h : Attached conn) :
    Attached { conn with timer := false, waitForInit := conn.waitForInit.settle .rejected } := by
  refine ⟨fun hresolved => h.resolved ?_, h.listening⟩
  dsimp only at hresolved
  unfold Promise.settle at hresolved
  split at hresolved
  · cases hresolved
  · exact hresolved

theorem Attached.heard (h : Attached conn) (s : Manager) (msg : MsgB2M) :
    Attached (s.heard conn msg) := by
  cases hhandler : conn.handler with
  | false =>
    have hoff : (s.heard conn msg).handler = false := by
      simp only [Manager.heard, Manager.hear, hhandler]
      split
      · rfl
      · rfl
    exact ⟨fun _ => hoff, fun _ => hoff⟩
  | true =>
    -- nobody else listens yet
    have hlistening : conn.listening = false := by
      cases hl : conn.listening with
      | false => rfl
      | true =>
        rw [h.listening hl] at hhandler
        cases hhandler
    unfold Manager.heard
    rw [hhandler, hlistening]
    cases msg with
    | init id => exact ⟨fun _ => rfl, fun _ => rfl⟩
    | _ => exact h

theorem step_attached {e : Event} (h : AllAttached s) (hs : manager.step s e = some s') :
    AllAttached s' := by
  change s.step e = some s' at hs
  cases e with
  | addBalancerConnection id =>
    cases hs
    intro j other hj
    change (s.connections ++ [Connection.new id])[j]? = some other at hj
    rw [List.getElem?_append] at hj
    split at hj
    · exact h j other hj
    · rw [List.getElem?_singleton] at hj
      split at hj <;> cases hj
      exact ⟨nofun, nofun⟩
  | frame i msg =>
    obtain ⟨conn, hi, rfl⟩ := Option.map_eq_some_iff.mp hs
    exact h.update hi ((h i conn hi).heard s msg)
  | resume i =>
    obtain ⟨conn, hi, hs⟩ := Option.bind_eq_some_iff.mp hs
    split at hs
    · cases hs
    · have hconn : Attached (Manager.goOn conn) :=
        ⟨(h i conn hi).resolved, fun hl => (h i conn hi).resolved (of_decide_eq_true hl)⟩
      have hupdated := h.update hi hconn
      cases hs
      split
      · exact hupdated
      · exact hupdated
  | timeout i =>
    obtain ⟨conn, hi, hs⟩ := Option.bind_eq_some_iff.mp hs
    split at hs <;> cases hs
    exact h.update hi (h i conn hi).settle_rejected
  | disconnect i =>
    obtain ⟨conn, hi, rfl⟩ := Option.map_eq_some_iff.mp hs
    have hkept : AllAttached { s with balancerConnections := s.balancerConnections.erase i } := h
    dsimp only
    split
    · exact hkept.update hi (h i conn hi).settle_rejected
    · exact hkept

/-- **A frame is heard exactly if it is `init`, or comes after the `await` has gone on.** -/
theorem heard_frame_iff (h : Heard s) (hattached : AllAttached s) (msg : MsgB2M)
    (hi : s.connections[i]? = some conn) :
    Heard (s.update i (s.heard conn msg)) ↔ Hears s (.frame i msg) := by
  have hconn : Hears s (.frame i msg) ↔ (conn.handler = false →
      conn.listening = true ∧ s.getConnection conn.id = some i) := by
    constructor
    · exact fun hh => hh conn hi
    · intro hh conn' hi'
      rw [hi] at hi'
      cases hi'
      exact hh
  have hself : Heard (s.update i (s.heard conn msg)) ↔ (s.heard conn msg).delivered =
      (s.heard conn msg).received.map (fun msg => (msg, some i)) := by
    constructor
    · exact fun hh => hh i _ (by rw [getElem?_update hi, if_pos rfl])
    · intro hh j other hj
      rw [getElem?_update hi] at hj
      split at hj
      · next heq =>
        cases hj
        exact heq ▸ hh
      · exact h j other hj
  have hbefore := h i conn hi
  rw [hconn, hself]
  unfold Manager.heard
  cases hhandler : conn.handler with
  | true =>
    have hlistening : conn.listening = false := by
      cases hl : conn.listening with
      | false => rfl
      | true =>
        rw [(hattached i conn hi).listening hl] at hhandler
        cases hhandler
    rw [hlistening]
    refine iff_of_true ?_ nofun
    cases msg with
    | init id => exact hbefore
    | _ => exact hbefore
  | false =>
    cases hl : conn.listening with
    | false =>
      refine iff_of_false (fun heq => ?_) (fun hh => nomatch (hh rfl).1)
      -- it was received, and not delivered
      have hlength := congrArg List.length heq
      rw [show conn.delivered = _ from hbefore] at hlength
      simp at hlength
    | true =>
      simp only [Bool.false_eq_true, if_false, if_true, Manager.hear, hbefore, List.map_append,
        List.map_cons, List.map_nil, List.append_cancel_left_eq, List.cons.injEq, Prod.mk.injEq,
        true_and, and_true, forall_const]

theorem step_heard_iff {e : Event} (hattached : AllAttached s) (h : Heard s)
    (hs : manager.step s e = some s') : Heard s' ↔ Hears s e := by
  change s.step e = some s' at hs
  cases e with
  | addBalancerConnection id =>
    cases hs
    refine iff_of_true (fun j other hj => ?_) trivial
    change (s.connections ++ [Connection.new id])[j]? = some other at hj
    rw [List.getElem?_append] at hj
    split at hj
    · exact h j other hj
    · rw [List.getElem?_singleton] at hj
      split at hj <;> cases hj
      rfl
  | frame i msg =>
    obtain ⟨conn, hi, rfl⟩ := Option.map_eq_some_iff.mp hs
    exact heard_frame_iff h hattached msg hi
  | resume i =>
    refine iff_of_true ?_ trivial
    obtain ⟨conn, hi, hs⟩ := Option.bind_eq_some_iff.mp hs
    split at hs
    · cases hs
    · have hupdated : Heard (s.update i (Manager.goOn conn)) := h.update hi rfl rfl
      cases hs
      split
      · exact hupdated
      · exact hupdated
  | timeout i =>
    refine iff_of_true ?_ trivial
    obtain ⟨conn, hi, hs⟩ := Option.bind_eq_some_iff.mp hs
    split at hs <;> cases hs
    exact h.update hi rfl rfl
  | disconnect i =>
    refine iff_of_true ?_ trivial
    obtain ⟨conn, hi, rfl⟩ := Option.map_eq_some_iff.mp hs
    have hkept : Heard { s with balancerConnections := s.balancerConnections.erase i } := h
    dsimp only
    split
    · exact hkept.update hi rfl rfl
    · exact hkept

/-- **No frame is lost in a run exactly if every frame after `init` comes when `addBalancerConnection`
has gone on, to a connection that is noted and found by its id.** -/
theorem heard_throughout_iff (es : List Event) :
    manager.Always Heard .empty es ↔ manager.Along Hears .empty es :=
  Machine.always_iff_along_of_step (fun _ _ _ h hs => step_attached h hs)
    (fun _ _ _ hattached h hs => step_heard_iff hattached h hs) nofun nofun

/-- Two frames come in one turn: `init`, and a message that nobody hears. -/
theorem not_heard_throughout : ¬ ∀ es : List Event, manager.Always Heard .empty es := by
  intro h
  have hrun := h [.addBalancerConnection "local", .frame 0 (.init "balancer"),
    .frame 0 (.leave "client"), .resume 0]
  have hlost := ((((hrun.2 _ rfl).2 _ rfl).2 _ rfl).2 _ rfl) 0 _ rfl
  cases hlost

end OpenTogetherTube.Server.Handshake
