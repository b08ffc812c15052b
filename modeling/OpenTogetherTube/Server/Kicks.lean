import OpenTogetherTube.Lib.Cursor
import OpenTogetherTube.Server.BalancerManager

/-!
# Kicking everybody

When a room is unloaded its clients are kicked, and when the server shuts down all are. A direct
client's socket is closed, which is heard of later. But a balancer's client leaves at once: its
disconnect handler takes it out of the lists of clients, also out of the one that is being gone
over, and whoever is behind it is passed over.

So everybody is kicked once if everybody stands once where no balancer's client is right in front
(`kicks_once_iff`). `onBalancerDisconnect` avoids this: it collects its clients first.
-/

namespace OpenTogetherTube.Server.BalancerManager

open OpenTogetherTube.Lib
open Broadcast (Client)

namespace State

/-- `Client.kick`. -/
def kick (s : State) : Client → State
  | .direct _ => s
  | .balancer client conn => s.onClientDisconnect (.balancer client conn)

/-- Kick the clients of a list from a position on, as many as there is fuel for: the clients that are
kicked, and what is left. -/
def kickFrom (list : State → List Client) : Nat → Nat → State → List Client × State
  | 0, _, s => ([], s)
  | fuel + 1, position, s =>
    match (list s)[position]? with
    | some c =>
      let (kicked, s') := kickFrom list fuel (position + 1) (s.kick c)
      (c :: kicked, s')
    | none => ([], s)

/-- `for (const client of list) client.kick(code)`. No kick makes the list longer. -/
def kickAll (s : State) (list : State → List Client) : List Client × State :=
  kickFrom list (list s).length 0 s

/-- `onRoomUnload`. -/
def onRoomUnload (s : State) (room : String) : List Client × State :=
  let (kicked, s') := s.kickAll (fun s => s.roomJoins room)
  (kicked, { s' with roomJoins := Function.update s'.roomJoins room [] })

/-- The client manager's `shutdown`. The balancers' sockets are closed first, which is heard of
later. -/
def shutdown (s : State) : List Client × State := s.kickAll State.connections

/-- A client that leaves when it is kicked. -/
def leaves (s : State) (c : Client) : Bool := !c.isDirect && c ∈ s.connections

end State

/-! ## One kick -/

section Kick

variable {s : State} {c : Client}

theorem leaves_iff : s.leaves c = true ↔ c.isDirect = false ∧ c ∈ s.connections := by
  simp [State.leaves]

/-- Somebody who does not leave changes no list. -/
theorem kick_of_stays (h : s.leaves c = false) :
    (s.kick c).connections = s.connections ∧ (s.kick c).roomJoins = s.roomJoins := by
  cases c with
  | direct client => exact ⟨rfl, rfl⟩
  | balancer client conn =>
    have hout : Client.balancer client conn ∉ s.connections := by
      intro hmem
      rw [leaves_iff.mpr ⟨rfl, hmem⟩] at h
      cases h
    have hkick : s.kick (.balancer client conn) =
        { s with handled := s.handled ++ [.balancer client conn] } := if_neg hout
    rw [hkick]
    exact ⟨rfl, rfl⟩

theorem kick_of_leaves (h : s.leaves c = true) :
    (s.kick c).connections = s.connections.erase c ∧
    (s.kick c).roomJoins =
      Function.update s.roomJoins (s.room c) ((s.roomJoins (s.room c)).erase c) := by
  obtain ⟨hdirect, hmem⟩ := leaves_iff.mp h
  cases c with
  | direct client => cases hdirect
  | balancer client conn =>
    have hkick : s.kick (.balancer client conn) = _ := onClientDisconnect_of_mem hmem
    rw [hkick]
    exact ⟨rfl, rfl⟩

theorem Inv.kick (hs : Inv s) (c : Client) : Inv (s.kick c) := by
  cases c with
  | direct client => exact hs
  | balancer client conn => exact hs.onClientDisconnect _

/-- Whether anybody else leaves does not change. -/
theorem leaves_kick {c' : Client} (hne : c' ≠ c) : (s.kick c).leaves c' = s.leaves c' := by
  have hmem : c' ∈ (s.kick c).connections ↔ c' ∈ s.connections := by
    cases h : s.leaves c with
    | false => rw [(kick_of_stays h).1]
    | true =>
      rw [(kick_of_leaves h).1]
      exact List.mem_erase_of_ne hne
  rw [State.leaves, State.leaves, decide_eq_decide.mpr hmem]

theorem leaves_kick_of_stays (h : s.leaves c = false) (c' : Client) :
    (s.kick c).leaves c' = s.leaves c' := by
  rw [State.leaves, State.leaves, (kick_of_stays h).1]

theorem mem_of_mem_kick {c' : Client} (h : c' ∈ (s.kick c).connections) : c' ∈ s.connections := by
  cases hleaves : s.leaves c with
  | false => rwa [(kick_of_stays hleaves).1] at h
  | true =>
    rw [(kick_of_leaves hleaves).1] at h
    exact List.mem_of_mem_erase h

theorem not_mem_kick (hs : Inv s) (hdirect : c.isDirect = false) : c ∉ (s.kick c).connections := by
  intro hmem
  have hleaves := leaves_iff.mpr ⟨hdirect, mem_of_mem_kick hmem⟩
  rw [(kick_of_leaves hleaves).1] at hmem
  exact hs.connections.not_mem_erase hmem

end Kick

/-! ## A list that is gone over -/

/-- A list that a balancer's client stands on once, and is taken off when it is kicked. -/
structure Shrinks (list : State → List Client) : Prop where
  once : ∀ s, Inv s → ∀ c ∈ list s, c.isDirect = false → (list s).count c ≤ 1
  stays : ∀ s c, s.leaves c = false → list (s.kick c) = list s
  leaves : ∀ s, Inv s → ∀ c ∈ list s, s.leaves c = true → list (s.kick c) = (list s).erase c

theorem shrinks_connections : Shrinks State.connections where
  once _ hs c _ _ := List.nodup_iff_count_le_one.mp hs.connections c
  stays _ _ h := (kick_of_stays h).1
  leaves _ _ _ _ h := (kick_of_leaves h).1

theorem shrinks_roomJoins (room : String) : Shrinks (fun s => s.roomJoins room) where
  once s hs c hc hdirect := (hs.entered room c hc hdirect).2.1
  stays s c h := congrFun (kick_of_stays h).2 room
  leaves s hs c hc h := by
    have hroom : s.room c = room := (hs.entered room c hc (leaves_iff.mp h).1).1
    show (s.kick c).roomJoins room = _
    rw [(kick_of_leaves h).2, hroom, Function.update_self]

section Walk

variable {list : State → List Client} {s : State} {position : Nat} {c : Client} {rest : List Client}

theorem kickFrom_of_nil (h : (list s).drop position = []) (fuel : Nat) :
    s.kickFrom list fuel position = ([], s) := by
  cases fuel with
  | zero => rfl
  | succ fuel =>
    have hget : (list s)[position]? = none := by
      rw [← List.head?_drop, h]
      rfl
    unfold State.kickFrom
    rw [hget]

theorem kickFrom_of_cons (h : (list s).drop position = c :: rest) (fuel : Nat) :
    s.kickFrom list (fuel + 1) position =
      (c :: ((s.kick c).kickFrom list fuel (position + 1)).1,
        ((s.kick c).kickFrom list fuel (position + 1)).2) := by
  have hget : (list s)[position]? = some c := by
    rw [← List.head?_drop, h]
    rfl
  conv_lhs => unfold State.kickFrom
  rw [hget]

/-- What is ahead after a kick: if the client has left, everybody behind it has moved up. -/
theorem drop_kick (hlist : Shrinks list) (hs : Inv s) (h : (list s).drop position = c :: rest) :
    (list (s.kick c)).drop (position + 1) = if s.leaves c = true then rest.tail else rest := by
  have hmem : c ∈ list s := List.mem_of_mem_drop (h ▸ List.mem_cons_self)
  have hahead : (list s).drop (position + 1) = rest := by
    rw [← List.drop_drop, h]
    rfl
  cases hleaves : s.leaves c with
  | false =>
    rw [hlist.stays s c hleaves, if_neg Bool.false_ne_true]
    exact hahead
  | true =>
    rw [hlist.leaves s hs c hmem hleaves, if_pos rfl]
    have hbehind : c ∈ (Cursor.mk (list s) (position + 1)).behind := by
      have hget : (list s)[position]? = some c := by
        rw [← List.head?_drop, h]
        rfl
      show c ∈ (list s).take (position + 1)
      rw [List.take_add_one, hget]
      exact List.mem_append_right _ List.mem_cons_self
    have hremove := Cursor.ahead_remove_of_behind hbehind
    exact hremove.trans (congrArg List.tail hahead)

/-- Nobody is ahead twice, of those who leave. -/
theorem not_mem_rest (hlist : Shrinks list) (hs : Inv s) (h : (list s).drop position = c :: rest)
    (hleaves : s.leaves c = true) : c ∉ rest := by
  intro hmem
  have hcount := hlist.once s hs c (List.mem_of_mem_drop (h ▸ List.mem_cons_self))
    (leaves_iff.mp hleaves).1
  have hle := (List.drop_sublist position (list s)).count_le c
  rw [h, List.count_cons_self] at hle
  have hpos := List.count_pos_iff.mpr hmem
  omega

/-- **Who is kicked**, with fuel for everybody ahead. -/
theorem kickFrom_kicked (hlist : Shrinks list) (fuel position : Nat) {s : State} (hs : Inv s)
    (hfuel : ((list s).drop position).length ≤ fuel) :
    (s.kickFrom list fuel position).1 = visited s.leaves false ((list s).drop position) := by
  induction fuel generalizing position s with
  | zero =>
    have hnil := List.length_eq_zero_iff.mp (Nat.le_zero.mp hfuel)
    rw [hnil]
    rfl
  | succ fuel ih =>
    cases h : (list s).drop position with
    | nil =>
      rw [kickFrom_of_nil h]
      rfl
    | cons c rest =>
      rw [h, List.length_cons] at hfuel
      have hahead := drop_kick hlist hs h
      rw [kickFrom_of_cons h]
      show c :: ((s.kick c).kickFrom list fuel (position + 1)).1 =
        c :: visited s.leaves (s.leaves c) rest
      rw [ih (position + 1) (hs.kick c) (by
        rw [hahead]
        split
        · rw [List.length_tail]
          omega
        · omega), hahead]
      congr 1
      cases hleaves : s.leaves c with
      | false =>
        rw [if_neg Bool.false_ne_true]
        exact visited_congr false (fun c' _ => leaves_kick_of_stays hleaves c')
      | true =>
        rw [if_pos rfl]
        have hout := not_mem_rest hlist hs h hleaves
        cases rest with
        | nil => rfl
        | cons passed rest =>
          show visited (s.kick c).leaves false rest = visited s.leaves false rest
          apply visited_congr
          intro c' hc'
          exact leaves_kick (fun heq => hout (heq ▸ List.mem_cons_of_mem _ hc'))

/-- Clients of balancers that are kicked are gone. -/
theorem kickFrom_connections (list : State → List Client) (fuel position : Nat) {s : State}
    (hs : Inv s) :
    (∀ c ∈ (s.kickFrom list fuel position).2.connections, c ∈ s.connections) ∧
    ∀ c ∈ (s.kickFrom list fuel position).1, c.isDirect = false →
      c ∉ (s.kickFrom list fuel position).2.connections := by
  induction fuel generalizing position s with
  | zero => exact ⟨fun _ h => h, fun _ h => by cases h⟩
  | succ fuel ih =>
    cases h : (list s).drop position with
    | nil =>
      rw [kickFrom_of_nil h]
      exact ⟨fun _ h => h, fun _ h => by cases h⟩
    | cons c rest =>
      obtain ⟨hsub, hgone⟩ := ih (position + 1) (hs.kick c)
      rw [kickFrom_of_cons h]
      constructor
      · intro c' hc'
        exact mem_of_mem_kick (hsub c' hc')
      · intro c' hc' hdirect hleft
        rcases List.mem_cons.mp hc' with rfl | hc'
        · exact not_mem_kick hs hdirect (hsub c' hleft)
        · exact hgone c' hc' hdirect hleft

end Walk

/-! ## Everybody once -/

/-- Those in a list that do not stand right behind a client that leaves when it is kicked. -/
def inFront (s : State) (l : List Client) : List Client := reached s.leaves false l

/-- Everybody who was in the room is kicked once, and no client of a balancer is left. -/
def UnloadKicksOnce (s : State) (room : String) : Prop :=
  (∀ c ∈ s.roomJoins room, (s.onRoomUnload room).1.count c = 1) ∧
  ∀ c ∈ s.roomJoins room, c.isDirect = false → c ∉ (s.onRoomUnload room).2.connections

def ShutdownKicksOnce (s : State) : Prop :=
  ∀ c ∈ s.connections, s.shutdown.1.count c = 1

/-- **Everybody is kicked once** exactly if everybody stands once where no client that leaves is
right in front. -/
theorem kicks_once_iff {s : State} (hs : Inv s) :
    (∀ room, UnloadKicksOnce s room ↔
      ∀ c ∈ s.roomJoins room, (inFront s (s.roomJoins room)).count c = 1) ∧
    (ShutdownKicksOnce s ↔ ∀ c ∈ s.connections, (inFront s s.connections).count c = 1) := by
  have hcount : ∀ {list : State → List Client}, Shrinks list →
      ((∀ c ∈ list s, (s.kickAll list).1.count c = 1) ↔
        ∀ c ∈ list s, (inFront s (list s)).count c = 1) := by
    intro list hlist
    have hkicked : (s.kickAll list).1 = visited s.leaves false (list s) :=
      kickFrom_kicked hlist _ 0 hs (Nat.le_refl _)
    rw [hkicked]
    apply count_visited_iff
    intro c hc hleaves
    exact hlist.once s hs c hc (leaves_iff.mp hleaves).1
  constructor
  · intro room
    have hroom := hcount (shrinks_roomJoins room)
    rw [← hroom]
    constructor
    · intro h
      exact h.1
    · intro h
      refine ⟨h, fun c hc hdirect => ?_⟩
      have hkicked : c ∈ (s.kickAll (fun s => s.roomJoins room)).1 := by
        apply List.count_pos_iff.mp
        rw [h c hc]
        exact Nat.zero_lt_one
      exact (kickFrom_connections _ _ 0 hs).2 c hkicked hdirect
  · exact hcount shrinks_connections

/-- Every run keeps the lists in order. -/
theorem inv_run {events : List Event} {s : State} (h : system.run empty events = some s) : Inv s := by
  have hruns : system.Along (fun _ _ => True) empty events :=
    Machine.along_of_forall (C := fun _ => True) (fun _ _ => trivial)
  have hall : system.Always Inv empty events :=
    Machine.always_of_along (fun _ _ _ h _ hs => inv_step h hs) inv_empty hruns
  exact hall.last h

/-- Two clients of a balancer are in one room. -/
def neighbours : List Event :=
  [.connect 0 "0", .init 0 "b", .register 0, .join 0 1 "foo", .enter (.balancer 1 0) "foo",
    .join 0 2 "foo", .enter (.balancer 2 0) "foo"]

/-- The second stays, whether the room is unloaded or the server shuts down. -/
theorem not_kicks_once : ¬ ∀ (events : List Event) (s : State), system.run empty events = some s →
    (∀ room, UnloadKicksOnce s room) ∧ ShutdownKicksOnce s := by
  intro h
  have hkicked : (system.run empty neighbours).map (fun s =>
      (s.roomJoins "foo", (s.onRoomUnload "foo").1)) =
      some ([.balancer 1 0, .balancer 2 0], [.balancer 1 0]) := by decide +kernel
  obtain ⟨s, hrun, heq⟩ := Option.map_eq_some_iff.mp hkicked
  obtain ⟨hjoins, hkicked⟩ := Prod.mk.inj heq
  have honce := ((h neighbours s hrun).1 "foo").1 (.balancer 2 0)
  rw [hjoins, hkicked] at honce
  revert honce
  decide

/-- Two direct clients, the first of which has authenticated twice, and a balancer's client. -/
def mixed : List Event :=
  [.connect 0 "0", .init 0 "b", .register 0, .connectDirect 1 "foo", .authDirect 1,
    .enter (.direct 1) "foo", .connectDirect 2 "foo", .authDirect 2, .enter (.direct 2) "foo",
    .join 0 3 "foo", .enter (.balancer 3 0) "foo", .authDirect 1, .enter (.direct 1) "foo"]

theorem kicks_once_iff_mixed : ∃ s, system.run empty mixed = some s ∧ Inv s ∧
    UnloadKicksOnce s "foo" ∧ ShutdownKicksOnce s := by
  have hfront : (system.run empty mixed).map (fun s =>
      (decide (∀ c ∈ s.roomJoins "foo", (inFront s (s.roomJoins "foo")).count c = 1),
        decide (∀ c ∈ s.connections, (inFront s s.connections).count c = 1))) =
      some (true, true) := by decide +kernel
  obtain ⟨s, hrun, heq⟩ := Option.map_eq_some_iff.mp hfront
  obtain ⟨hjoins, hconnections⟩ := Prod.mk.inj heq
  have hs := inv_run hrun
  obtain ⟨hunload, hshutdown⟩ := kicks_once_iff hs
  exact ⟨s, hrun, hs, (hunload "foo").mpr (of_decide_eq_true hjoins),
    hshutdown.mpr (of_decide_eq_true hconnections)⟩

end OpenTogetherTube.Server.BalancerManager
