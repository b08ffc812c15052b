import OpenTogetherTube.Lib.Machine
import Mathlib.Data.List.Basic
import Mathlib.Data.List.Infix

/-!
# From the monolith to the client's socket

A monolith's messages reach the dispatch loop one after the other. Each is handled by a task of its
own, which takes the lock and puts the message into one of two channels: the client's own channel, or
the broadcast channel of the room, to which the client has subscribed. The client's task takes from
either, with a `select!` that picks at random, and writes to the socket.

The model follows one client of a room that stays on its monolith, and the messages that concern it.
`join_client` is awaited by the dispatch loop, so no message is taken while it runs; it subscribes
before it sends `B2MJoin`, and registers the client after that.

Nothing keeps the tasks in their order, nor the two channels. `prefix_throughout` says that order is
kept in the runs in which the tasks run in the order in which they were spawned, the select takes the
older of the two messages it can have, no broadcast from before the join runs late, and the client
does not lag behind (`InOrder`).
-/

namespace OpenTogetherTube.Balancer.Delivery

open OpenTogetherTube.Lib

/-! ## The state -/

inductive Target where
  | unicast | broadcast
  deriving DecidableEq, Repr

/-- A `RoomMsg` for the client or for its room. The code does not number the messages: `place` is the
message's place in the order in which the monolith sent them. -/
structure RoomMsg where
  place : Nat
  target : Target
  payload : String
  deriving DecidableEq, Repr

/-- How far `join_client` is. -/
inductive Join where
  | notYet | subscribed | joinSent | registered
  deriving DecidableEq, Repr

/-- How far the client's task is: in its loop, behind it, or with its socket closed. -/
inductive Link where
  | running | draining | closed
  deriving DecidableEq, Repr

/-- A task for one message: it waits for the lock, or for room in the client's own channel. -/
inductive Dispatch where
  | lookup (msg : RoomMsg)
  | send (msg : RoomMsg)
  deriving DecidableEq, Repr

def Dispatch.msg : Dispatch → RoomMsg
  | lookup msg | send msg => msg

structure State where
  /-- The number of messages that the monolith has sent. -/
  count : Nat
  /-- The monolith has received `B2MJoin`. -/
  joined : Bool
  /-- What the monolith has sent since. -/
  sent : List RoomMsg
  /-- What has not been taken by the dispatch loop. -/
  inbound : List RoomMsg
  join : Join
  tasks : List Dispatch
  unicast : List RoomMsg
  /-- What the client has not taken of what was broadcast since it subscribed. -/
  broadcast : List RoomMsg
  /-- Something was dropped that the client should have taken. -/
  lagged : Bool
  link : Link
  /-- What was written to the socket. -/
  written : List RoomMsg
  deriving DecidableEq

/-- Nothing has happened yet. -/
def init : State := ⟨0, false, [], [], .notYet, [], [], [], false, .running, []⟩

namespace State

/-- The client has a receiver of the room's broadcast channel. -/
def listening (s : State) : Bool := s.join ≠ .notYet ∧ s.link ≠ .closed

/-- `room.broadcast`. A channel that is full drops its oldest message. -/
def pushBroadcast (capacity : Nat) (s : State) (msg : RoomMsg) : State :=
  if s.broadcast.length < capacity then { s with broadcast := s.broadcast ++ [msg] }
  else { s with broadcast := s.broadcast.drop 1 ++ [msg], lagged := true }

/-- The segment of the task at `i`: look up where the message goes, or put it into the client's own
channel, which takes a hundred messages. -/
def run (capacity : Nat) (s : State) (i : Nat) : Option State :=
  match s.tasks[i]? with
  | none => none
  | some (.lookup msg) =>
    let s' := { s with tasks := s.tasks.eraseIdx i }
    match msg.target with
    | .broadcast => some (if s.listening then s'.pushBroadcast capacity msg else s')
    | .unicast =>
      if s.join = .registered then some { s with tasks := s.tasks.set i (.send msg) }
      -- "client not found"
      else some s'
  | some (.send msg) =>
    if s.link = .closed then some { s with tasks := s.tasks.eraseIdx i }
    else if s.unicast.length < 100 then
      some { s with tasks := s.tasks.eraseIdx i, unicast := s.unicast ++ [msg] }
    else none

/-- The client's task takes a message from its own channel and writes it. -/
def takeUnicast (s : State) : Option State :=
  match s.unicast with
  | [] => none
  | msg :: rest => some { s with unicast := rest, written := s.written ++ [msg] }

/-- The client's task takes a message from the broadcast channel and writes it. -/
def takeBroadcast (s : State) : Option State :=
  match s.broadcast with
  | [] => none
  | msg :: rest => some { s with broadcast := rest, written := s.written ++ [msg] }

end State

inductive Event where
  -- the monolith
  | receiveJoin
  | sendMsg (target : Target) (payload : String)
  -- the dispatch loop
  | subscribe
  | sendJoin
  | register
  | spawn
  -- the task at an index
  | run (i : Nat)
  -- the client's task
  | recvUnicast
  | recvBroadcast
  | lag
  | stop
  | drain
  | close
  deriving DecidableEq, Repr

/-- One step of the monolith, the dispatch loop, one of the tasks or the client's task. -/
def step (capacity : Nat) (s : State) : Event → Option State
  | .receiveJoin =>
    if s.join = .joinSent ∨ s.join = .registered then some { s with joined := true } else none
  | .sendMsg target payload =>
    -- the monolith knows the client from `B2MJoin`
    if target = .unicast ∧ s.joined = false then none
    else
      let msg : RoomMsg := ⟨s.count, target, payload⟩
      some { s with
        count := s.count + 1
        sent := if s.joined then s.sent ++ [msg] else s.sent
        inbound := s.inbound ++ [msg] }
  | .subscribe => if s.join = .notYet then some { s with join := .subscribed } else none
  | .sendJoin => if s.join = .subscribed then some { s with join := .joinSent } else none
  | .register => if s.join = .joinSent then some { s with join := .registered } else none
  | .spawn =>
    -- the loop is not in `join_client`
    if s.join = .notYet ∨ s.join = .registered then
      match s.inbound with
      | [] => none
      | msg :: rest => some { s with inbound := rest, tasks := s.tasks ++ [.lookup msg] }
    else none
  | .run i => s.run capacity i
  | .recvUnicast => if s.join = .registered ∧ s.link = .running then s.takeUnicast else none
  | .recvBroadcast =>
    if s.join = .registered ∧ s.link = .running ∧ s.lagged = false then s.takeBroadcast else none
  | .lag =>
    if s.join = .registered ∧ s.link = .running ∧ s.lagged = true then
      some { s with link := .draining, lagged := false }
    else none
  | .stop =>
    if s.join = .registered ∧ s.link = .running then some { s with link := .draining } else none
  | .drain =>
    -- `outbound_try_recv`: the client's own channel comes first
    if s.link = .draining then
      match s.takeUnicast with
      | some s' => some s'
      | none =>
        if s.lagged then some { s with link := .closed }
        else match s.takeBroadcast with
          | some s' => some s'
          | none => some { s with link := .closed }
    else none
  | .close =>
    -- the monolith is gone, or a write fails
    if s.join = .registered ∧ s.link ≠ .closed then some { s with link := .closed } else none

/-- The way of the messages; `capacity` is that of the broadcast channel. -/
def delivery (capacity : Nat) : Machine State Event := ⟨step capacity⟩

/-! ## What holds -/

/-- What is written while the socket is open is a prefix of what was sent. -/
def Prefix (s : State) : Prop := s.link ≠ .closed → s.written <+: s.sent

/-- The message the client's own channel has next is older than what it could have instead. -/
def State.UnicastFirst (s : State) : Prop :=
  ∀ msg ∈ s.unicast.head?, ∀ other ∈ s.broadcast, msg.place < other.place

/-- The message the broadcast channel has next is older than what it could have instead. -/
def State.BroadcastFirst (s : State) : Prop :=
  ∀ msg ∈ s.broadcast.head?, ∀ other ∈ s.unicast, msg.place < other.place

/-- Tasks run in their order, a broadcast that the client hears was sent after the join and finds
room in the channel, and of two messages the older is written first. -/
def InOrder (capacity : Nat) (s : State) : Event → Prop
  | .run i => i = 0 ∧ ∀ t ∈ s.tasks[i]?, t.msg.target = .broadcast → s.listening →
      t.msg ∈ s.sent ∧ s.broadcast.length < capacity
  | .recvUnicast => s.UnicastFirst
  | .recvBroadcast => s.BroadcastFirst
  | .drain => if s.unicast = [] then s.BroadcastFirst else s.UnicastFirst
  | _ => True

instance (s : State) : Decidable s.UnicastFirst :=
  inferInstanceAs (Decidable (∀ msg ∈ s.unicast.head?, _))

instance (s : State) : Decidable s.BroadcastFirst :=
  inferInstanceAs (Decidable (∀ msg ∈ s.broadcast.head?, _))

instance (capacity : Nat) (s : State) : (e : Event) → Decidable (InOrder capacity s e)
  | .run i => inferInstanceAs (Decidable (i = 0 ∧ ∀ t ∈ s.tasks[i]?, _ → _ → _))
  | .recvUnicast => inferInstanceAs (Decidable s.UnicastFirst)
  | .recvBroadcast => inferInstanceAs (Decidable s.BroadcastFirst)
  | .drain => inferInstanceAs (Decidable (if s.unicast = [] then _ else _))
  | .receiveJoin | .sendMsg _ _ | .subscribe | .sendJoin | .register | .spawn | .lag | .stop
  | .close => inferInstanceAs (Decidable True)

/-! ## The messages on their way -/

/-- What has been taken by the loop or waits to be, in the monolith's order. -/
def State.pending (s : State) : List RoomMsg := s.tasks.map Dispatch.msg ++ s.inbound

/-- What is known of the messages in every run. -/
structure Known (s : State) : Prop where
  sorted : s.sent.Pairwise (fun m m' => m.place < m'.place)
  sent_lt : ∀ m ∈ s.sent, m.place < s.count
  pending_lt : ∀ m ∈ s.pending, m.place < s.count
  sent_eq_nil : s.joined = false → s.sent = []
  joined : s.joined = true → s.join = .joinSent ∨ s.join = .registered
  /-- Until the client is registered, the loop has taken nothing that counts. -/
  taken : s.join ≠ .registered → ∀ t ∈ s.tasks, t.msg ∉ s.sent
  unicast : ∀ m ∈ s.pending, m.target = .unicast → m ∈ s.sent
  send : ∀ m, .send m ∈ s.tasks → m.target = .unicast

/-- **Where the messages are.** What was sent is what was written, what is in the two channels, and
what is pending behind the messages from before the join. -/
structure Way (s : State) : Prop where
  lagged : s.lagged = false
  split : ∃ early mid late, s.pending = early ++ late ∧ s.sent = s.written ++ mid ++ late ∧
    (∀ m ∈ early, m ∉ s.sent) ∧ s.unicast = mid.filter (fun m => m.target = .unicast) ∧
    s.broadcast = mid.filter (fun m => m.target = .broadcast)

structure Inv (s : State) : Prop where
  known : Known s
  way : s.link ≠ .closed → Way s

theorem init_inv : Inv init := by
  refine ⟨⟨List.Pairwise.nil, ?_, ?_, fun _ => rfl, ?_, ?_, ?_, ?_⟩, fun _ => ⟨rfl, [], [], [], ?_⟩⟩
  · simp [init]
  · simp [init, State.pending]
  · simp [init]
  · simp [init]
  · simp [init, State.pending]
  · simp [init]
  · simp [init, State.pending]

theorem Way.inOrder {s : State} (h : Way s) : s.written <+: s.sent := by
  obtain ⟨early, mid, late, -, hsent, -⟩ := h.split
  rw [hsent, List.append_assoc]
  exact List.prefix_append _ _

/-- A list that is split by a predicate begins with the first element of a part, if that is less than
all of the other part. -/
theorem eq_cons_of_filter_eq_cons {α : Type} {r : α → α → Prop} (hr : ∀ a b, r a b → ¬ r b a)
    {p q : α → Bool} (hpq : ∀ a, q a = !p a) {l rest : List α} {a : α} (hl : l.Pairwise r)
    (ha : l.filter p = a :: rest) (hmin : ∀ b ∈ l.filter q, r a b) :
    ∃ tail, l = a :: tail ∧ tail.filter p = rest ∧ tail.filter q = l.filter q := by
  cases l with
  | nil => cases ha
  | cons b tail =>
    cases hb : p b with
    | true =>
      rw [List.filter_cons_of_pos hb] at ha
      cases ha
      refine ⟨tail, rfl, rfl, ?_⟩
      rw [List.filter_cons_of_neg (by simp [hpq, hb])]
    | false =>
      rw [List.filter_cons_of_neg (by simp [hb])] at ha
      have hmem : a ∈ tail := List.mem_of_mem_filter (ha ▸ List.mem_cons_self)
      have hlt : r b a := (List.pairwise_cons.mp hl).1 a hmem
      have hgt : r a b := hmin b (List.mem_filter.mpr ⟨List.mem_cons_self, by simp [hpq, hb]⟩)
      exact absurd hgt (hr b a hlt)

section Steps

variable {capacity : Nat} {s s' : State}

/-- A step that leaves the messages where they are. -/
theorem Known.congr (h : Known s) (hsent : s'.sent = s.sent) (hcount : s'.count = s.count)
    (htasks : s'.tasks = s.tasks) (hinbound : s'.inbound = s.inbound)
    (hnil : s'.joined = false → s'.sent = []) (hjoined : s'.joined = true → s'.join = .joinSent ∨
      s'.join = .registered) (htaken : s'.join ≠ .registered → s.join ≠ .registered) : Known s' := by
  have hpending : s'.pending = s.pending := by
    unfold State.pending
    rw [htasks, hinbound]
  constructor
  case sorted => rw [hsent]; exact h.sorted
  case sent_lt => rw [hsent, hcount]; exact h.sent_lt
  case pending_lt => rw [hpending, hcount]; exact h.pending_lt
  case sent_eq_nil => exact hnil
  case joined => exact hjoined
  case taken => rw [hsent, htasks]; exact fun hj => h.taken (htaken hj)
  case unicast => rw [hsent, hpending]; exact h.unicast
  case send => rw [htasks]; exact h.send

/-- A task that ends, or goes on with its message. -/
theorem Known.run (h : Known s) (hsent : s'.sent = s.sent) (hcount : s'.count = s.count)
    (hjoined : s'.joined = s.joined) (hjoin : s'.join = s.join) (hinbound : s'.inbound = s.inbound)
    (htasks : ∀ t ∈ s'.tasks, t ∈ s.tasks ∨
      ∃ msg, t = .send msg ∧ .lookup msg ∈ s.tasks ∧ msg.target = .unicast) : Known s' := by
  have hmsg : ∀ t ∈ s'.tasks, ∃ t' ∈ s.tasks, t'.msg = t.msg := by
    intro t ht
    obtain hold | ⟨msg, rfl, hlookup, -⟩ := htasks t ht
    · exact ⟨t, hold, rfl⟩
    · exact ⟨.lookup msg, hlookup, rfl⟩
  have hpending : ∀ m ∈ s'.pending, m ∈ s.pending := by
    intro m hm
    obtain hm | hm := List.mem_append.mp hm
    · obtain ⟨t, ht, rfl⟩ := List.mem_map.mp hm
      obtain ⟨t', ht', heq⟩ := hmsg t ht
      exact List.mem_append_left _ (heq ▸ List.mem_map_of_mem ht')
    · exact List.mem_append_right _ (hinbound ▸ hm)
  constructor
  case sorted => rw [hsent]; exact h.sorted
  case sent_lt => rw [hsent, hcount]; exact h.sent_lt
  case pending_lt => rw [hcount]; exact fun m hm => h.pending_lt m (hpending m hm)
  case sent_eq_nil => rw [hsent, hjoined]; exact h.sent_eq_nil
  case joined => rw [hjoined, hjoin]; exact h.joined
  case taken =>
    intro hj t ht
    obtain ⟨t', ht', heq⟩ := hmsg t ht
    rw [hsent, ← heq]
    exact h.taken (hjoin ▸ hj) t' ht'
  case unicast => rw [hsent]; exact fun m hm => h.unicast m (hpending m hm)
  case send =>
    intro msg hmem
    obtain hold | ⟨msg', heq, -, htarget⟩ := htasks _ hmem
    · exact h.send msg hold
    · cases heq
      exact htarget

/-- Taking the older message of the two channels. -/
theorem Way.takeUnicast (h : Way s) (hk : Known s) (hfirst : s.UnicastFirst)
    (hs' : s.takeUnicast = some s') : Way s' := by
  obtain ⟨hlag, early, mid, late, hpending, hsent, hearly, hunicast, hbroadcast⟩ := h
  unfold State.takeUnicast at hs'
  split at hs'
  · cases hs'
  · next msg rest hqueue =>
    cases hs'
    have hsorted : mid.Pairwise (fun m m' : RoomMsg => m.place < m'.place) := by
      have hall := hk.sorted
      rw [hsent] at hall
      exact (List.pairwise_append.mp (List.pairwise_append.mp hall).1).2.1
    obtain ⟨tail, rfl, htail, hother⟩ := eq_cons_of_filter_eq_cons
      (q := fun m : RoomMsg => m.target = .broadcast) (fun a b hab hba => by omega)
      (fun m => by cases m.target <;> rfl) hsorted (hunicast.symm.trans hqueue)
      (fun other hmem => hfirst msg (by simp [hqueue]) other (hbroadcast ▸ hmem))
    refine ⟨hlag, early, tail, late, hpending, ?_, hearly, htail.symm, ?_⟩
    · rw [hsent]
      simp
    · rw [hother]
      exact hbroadcast

theorem Way.takeBroadcast (h : Way s) (hk : Known s) (hfirst : s.BroadcastFirst)
    (hs' : s.takeBroadcast = some s') : Way s' := by
  obtain ⟨hlag, early, mid, late, hpending, hsent, hearly, hunicast, hbroadcast⟩ := h
  unfold State.takeBroadcast at hs'
  split at hs'
  · cases hs'
  · next msg rest hqueue =>
    cases hs'
    have hsorted : mid.Pairwise (fun m m' : RoomMsg => m.place < m'.place) := by
      have hall := hk.sorted
      rw [hsent] at hall
      exact (List.pairwise_append.mp (List.pairwise_append.mp hall).1).2.1
    obtain ⟨tail, rfl, htail, hother⟩ := eq_cons_of_filter_eq_cons
      (q := fun m : RoomMsg => m.target = .unicast) (fun a b hab hba => by omega)
      (fun m => by cases m.target <;> rfl) hsorted (hbroadcast.symm.trans hqueue)
      (fun other hmem => hfirst msg (by simp [hqueue]) other (hunicast ▸ hmem))
    refine ⟨hlag, early, tail, late, hpending, ?_, hearly, ?_, htail.symm⟩
    · rw [hsent]
      simp
    · rw [hother]
      exact hunicast

/-- The first pending message goes into its channel, if it is one of those that count. -/
theorem Way.advance (h : Way s) {msg : RoomMsg} {rest : List RoomMsg}
    (hpending : s.pending = msg :: rest) (hmsg : msg ∈ s.sent) (hrest : s'.pending = rest)
    (hsent : s'.sent = s.sent) (hwritten : s'.written = s.written) (hlagged : s'.lagged = s.lagged)
    (hunicast : s'.unicast = s.unicast ++ [msg].filter (fun m => m.target = .unicast))
    (hbroadcast : s'.broadcast = s.broadcast ++ [msg].filter (fun m => m.target = .broadcast)) :
    Way s' := by
  obtain ⟨hlag, early, mid, late, hsplit, hway, hearly, hu, hb⟩ := h
  -- a message from before the join would come first
  have hnone : early = [] := by
    cases early with
    | nil => rfl
    | cons m early =>
      rw [hpending] at hsplit
      cases hsplit
      exact absurd hmsg (hearly msg List.mem_cons_self)
  subst hnone
  rw [hpending, List.nil_append] at hsplit
  subst hsplit
  refine ⟨hlagged.trans hlag, [], mid ++ [msg], rest, hrest, ?_, by simp, ?_, ?_⟩
  · rw [hsent, hwritten, hway]
    simp
  · rw [hunicast, hu, List.filter_append]
  · rw [hbroadcast, hb, List.filter_append]

/-- A broadcast from before the join runs while the client does not listen. -/
theorem Way.skip (h : Way s) (hnil : s.sent = []) {msg : RoomMsg} {rest : List RoomMsg}
    (hpending : s.pending = msg :: rest) (hrest : s'.pending = rest) (hsent : s'.sent = s.sent)
    (hwritten : s'.written = s.written) (hlagged : s'.lagged = s.lagged)
    (hunicast : s'.unicast = s.unicast) (hbroadcast : s'.broadcast = s.broadcast) : Way s' := by
  obtain ⟨hlag, early, mid, late, hsplit, hway, hearly, hu, hb⟩ := h
  have hempty : late = [] := by
    rw [hnil] at hway
    exact (List.append_eq_nil_iff.mp hway.symm).2
  subst hempty
  rw [hpending, List.append_nil] at hsplit
  subst hsplit
  refine ⟨hlagged.trans hlag, rest, mid, [], by rw [hrest, List.append_nil], ?_, ?_,
    hunicast.trans hu, hbroadcast.trans hb⟩
  · rw [hsent, hwritten]
    exact hway
  · intro m _
    rw [hsent, hnil]
    exact List.not_mem_nil

/-- **A task runs**, the oldest of those that are left. -/
theorem Inv.run {i : Nat} (h : Inv s) (hcond : InOrder capacity s (.run i))
    (hstep : s.run capacity i = some s') : Inv s' := by
  obtain ⟨rfl, hheard⟩ := hcond
  unfold State.run at hstep
  cases htasks : s.tasks with
  | nil => simp [htasks] at hstep
  | cons t ts =>
    have hpending : s.pending = t.msg :: (ts.map Dispatch.msg ++ s.inbound) := by
      unfold State.pending
      rw [htasks]
      rfl
    have hts : ∀ t ∈ ts, t ∈ s.tasks := fun t ht => htasks ▸ List.mem_cons_of_mem _ ht
    simp only [htasks, List.getElem?_cons_zero, List.eraseIdx_zero, List.tail_cons,
      List.set_cons_zero] at hstep hheard
    cases t with
    | lookup msg =>
      cases htarget : msg.target with
      | broadcast =>
        simp only [htarget] at hstep
        by_cases hlistening : s.listening = true
        · obtain ⟨hmsg, hroom⟩ := hheard (.lookup msg) (by simp) htarget hlistening
          rw [if_pos hlistening] at hstep
          unfold State.pushBroadcast at hstep
          rw [if_pos hroom] at hstep
          cases hstep
          exact ⟨h.known.run rfl rfl rfl rfl rfl (fun t ht => .inl (hts t ht)), fun hlink =>
            (h.way hlink).advance hpending hmsg rfl rfl rfl rfl (by simp [Dispatch.msg, htarget])
              (by simp [Dispatch.msg, htarget])⟩
        · rw [if_neg hlistening] at hstep
          cases hstep
          refine ⟨h.known.run rfl rfl rfl rfl rfl (fun t ht => .inl (hts t ht)), fun hlink => ?_⟩
          -- who does not listen has not joined
          have hnotYet : s.join = .notYet := by
            simpa [State.listening, show s.link ≠ .closed from hlink] using hlistening
          have hnil : s.sent = [] := h.known.sent_eq_nil (by
            cases hj : s.joined with
            | false => rfl
            | true => simpa [hnotYet] using h.known.joined hj)
          exact (h.way hlink).skip hnil hpending rfl rfl rfl rfl rfl rfl
      | unicast =>
        simp only [htarget] at hstep
        have hmsg : msg ∈ s.sent :=
          h.known.unicast msg (hpending ▸ List.mem_cons_self) htarget
        by_cases hregistered : s.join = .registered
        · rw [if_pos hregistered] at hstep
          cases hstep
          refine ⟨h.known.run rfl rfl rfl rfl rfl (fun t ht => ?_), fun hlink => ?_⟩
          · obtain rfl | ht := List.mem_cons.mp ht
            · exact .inr ⟨msg, rfl, htasks ▸ List.mem_cons_self, htarget⟩
            · exact .inl (hts t ht)
          · obtain ⟨hlag, early, mid, late, hsplit, hrest⟩ := h.way hlink
            exact ⟨hlag, early, mid, late, hpending.symm.trans hsplit, hrest⟩
        · exact absurd hmsg (h.known.taken hregistered (.lookup msg) (htasks ▸ List.mem_cons_self))
    | send msg =>
      dsimp only at hstep
      split at hstep
      · next hclosed =>
        cases hstep
        exact ⟨h.known.run rfl rfl rfl rfl rfl (fun t ht => .inl (hts t ht)),
          fun hlink => absurd hclosed hlink⟩
      split at hstep
      · have htarget : msg.target = .unicast := h.known.send msg (htasks ▸ List.mem_cons_self)
        have hmsg : msg ∈ s.sent := h.known.unicast msg (hpending ▸ List.mem_cons_self) htarget
        cases hstep
        exact ⟨h.known.run rfl rfl rfl rfl rfl (fun t ht => .inl (hts t ht)), fun hlink =>
          (h.way hlink).advance hpending hmsg rfl rfl rfl rfl (by simp [Dispatch.msg, htarget])
            (by simp [Dispatch.msg, htarget])⟩
      · cases hstep

/-- The monolith sends a message. -/
theorem Inv.sendMsg (h : Inv s) {target : Target} {payload : String}
    (hstep : step capacity s (.sendMsg target payload) = some s') : Inv s' := by
  simp only [step] at hstep
  split at hstep
  · cases hstep
  next hguard =>
  cases hstep
  set msg : RoomMsg := ⟨s.count, target, payload⟩ with hmsg
  have hplace : msg.place = s.count := rfl
  have hpending : (s.tasks.map Dispatch.msg ++ (s.inbound ++ [msg])) = s.pending ++ [msg] :=
    (List.append_assoc _ _ _).symm
  cases hjoined : s.joined with
  | true =>
    simp only [if_true]
    have hnew : ∀ m ∈ s.pending, m ≠ msg := fun m hm heq => by
      have hlt := h.known.pending_lt m hm
      rw [heq, hplace] at hlt
      exact absurd hlt (lt_irrefl _)
    refine ⟨⟨?_, ?_, ?_, ?_, fun _ => h.known.joined hjoined, ?_, ?_, h.known.send⟩,
      fun hlink => ?_⟩
    · refine List.pairwise_append.mpr ⟨h.known.sorted, List.pairwise_singleton _ _, ?_⟩
      intro m hm m' hm'
      rw [List.mem_singleton.mp hm', hplace]
      exact h.known.sent_lt m hm
    · intro m hm
      obtain hm | hm := List.mem_append.mp hm
      · exact Nat.lt_succ_of_lt (h.known.sent_lt m hm)
      · rw [List.mem_singleton.mp hm]
        exact Nat.lt_succ_self _
    · intro m hm
      rw [State.pending, hpending] at hm
      obtain hm | hm := List.mem_append.mp hm
      · exact Nat.lt_succ_of_lt (h.known.pending_lt m hm)
      · rw [List.mem_singleton.mp hm]
        exact Nat.lt_succ_self _
    · exact fun hfalse => absurd hfalse (by simp)
    · intro hj t ht hmem
      obtain hmem | hmem := List.mem_append.mp hmem
      · exact h.known.taken hj t ht hmem
      · exact hnew t.msg (List.mem_append_left _ (List.mem_map_of_mem ht)) (List.mem_singleton.mp hmem)
    · intro m hm htarget
      rw [State.pending, hpending] at hm
      obtain hm | hm := List.mem_append.mp hm
      · exact List.mem_append_left _ (h.known.unicast m hm htarget)
      · exact List.mem_append_right _ hm
    · obtain ⟨hlag, early, mid, late, hsplit, hsent, hearly, hu, hb⟩ := h.way hlink
      refine ⟨hlag, early, mid, late ++ [msg], ?_, ?_, ?_, hu, hb⟩
      · rw [State.pending, hpending, hsplit, List.append_assoc]
      · rw [hsent]
        simp
      · intro m hm hmem
        obtain hmem | hmem := List.mem_append.mp hmem
        · exact hearly m hm hmem
        · exact hnew m (hsplit ▸ List.mem_append_left _ hm) (List.mem_singleton.mp hmem)
  | false =>
    simp only [Bool.false_eq_true, if_false]
    have hnil := h.known.sent_eq_nil hjoined
    have hbroadcast : target = .broadcast := by
      cases target with
      | unicast => exact absurd ⟨rfl, hjoined⟩ hguard
      | broadcast => rfl
    refine ⟨⟨h.known.sorted, ?_, ?_, fun _ => hnil, fun htrue => ?_, h.known.taken, ?_,
      h.known.send⟩, fun hlink => ?_⟩
    · exact fun m hm => Nat.lt_succ_of_lt (h.known.sent_lt m hm)
    · intro m hm
      rw [State.pending, hpending] at hm
      obtain hm | hm := List.mem_append.mp hm
      · exact Nat.lt_succ_of_lt (h.known.pending_lt m hm)
      · rw [List.mem_singleton.mp hm]
        exact Nat.lt_succ_self _
    · exact absurd htrue (by simp)
    · intro m hm htarget
      rw [State.pending, hpending] at hm
      obtain hm | hm := List.mem_append.mp hm
      · exact h.known.unicast m hm htarget
      · rw [List.mem_singleton.mp hm, hmsg, hbroadcast] at htarget
        cases htarget
    · obtain ⟨hlag, early, mid, late, hsplit, hsent, hearly, hu, hb⟩ := h.way hlink
      have hempty : late = [] := by
        rw [hnil] at hsent
        exact (List.append_eq_nil_iff.mp hsent.symm).2
      subst hempty
      refine ⟨hlag, early ++ [msg], mid, [], ?_, hsent, ?_, hu, hb⟩
      · rw [State.pending, hpending, hsplit, List.append_nil, List.append_nil]
      · intro m _
        show m ∉ s.sent
        rw [hnil]
        exact List.not_mem_nil

/-- The dispatch loop takes a message and spawns its task. -/
theorem Inv.spawn (h : Inv s) (hstep : step capacity s .spawn = some s') : Inv s' := by
  simp only [step] at hstep
  split at hstep
  next hfree =>
    split at hstep
    · cases hstep
    next msg rest hinbound =>
    cases hstep
    have hpending : (s.tasks ++ [Dispatch.lookup msg]).map Dispatch.msg ++ rest = s.pending := by
      unfold State.pending
      rw [hinbound]
      simp [Dispatch.msg]
    refine ⟨⟨h.known.sorted, h.known.sent_lt, ?_, h.known.sent_eq_nil, h.known.joined, ?_, ?_, ?_⟩,
      fun hlink => ?_⟩
    · intro m hm
      exact h.known.pending_lt m (hpending ▸ hm)
    · intro hj t ht
      -- the loop takes messages before the join or behind it
      have hnotYet : s.join = .notYet := hfree.resolve_right hj
      have hnil : s.sent = [] := h.known.sent_eq_nil (by
        cases hjoined : s.joined with
        | false => rfl
        | true => simpa [hnotYet] using h.known.joined hjoined)
      show t.msg ∉ s.sent
      rw [hnil]
      exact List.not_mem_nil
    · intro m hm
      exact h.known.unicast m (hpending ▸ hm)
    · intro m hm
      obtain hm | hm := List.mem_append.mp hm
      · exact h.known.send m hm
      · simp at hm
    · obtain ⟨hlag, early, mid, late, hsplit, hrest⟩ := h.way hlink
      exact ⟨hlag, early, mid, late, hpending.trans hsplit, hrest⟩
  · cases hstep

/-- A step of the client's task that takes a message. -/
theorem Inv.takes (h : Inv s) (hlink : s.link ≠ .closed)
    (htake : (s.UnicastFirst ∧ s.takeUnicast = some s') ∨
      (s.BroadcastFirst ∧ s.takeBroadcast = some s')) : Inv s' := by
  have hway : Way s' := by
    obtain ⟨hfirst, htake⟩ | ⟨hfirst, htake⟩ := htake
    · exact (h.way hlink).takeUnicast h.known hfirst htake
    · exact (h.way hlink).takeBroadcast h.known hfirst htake
  refine ⟨?_, fun _ => hway⟩
  obtain ⟨-, htake⟩ | ⟨-, htake⟩ := htake
  · unfold State.takeUnicast at htake
    split at htake <;> cases htake
    exact h.known.congr rfl rfl rfl rfl h.known.sent_eq_nil h.known.joined id
  · unfold State.takeBroadcast at htake
    split at htake <;> cases htake
    exact h.known.congr rfl rfl rfl rfl h.known.sent_eq_nil h.known.joined id

/-- A step of `join_client`, of the monolith or of the client's task that moves no message. -/
theorem Inv.moves (h : Inv s) {join : Join} {joined : Bool} {link : Link}
    (hjoined : joined = true → join = .joinSent ∨ join = .registered)
    (hnil : joined = false → s.joined = false)
    (htaken : join ≠ .registered → s.join ≠ .registered)
    (hlink : link ≠ .closed → s.link ≠ .closed) :
    Inv { s with join := join, joined := joined, link := link } :=
  ⟨h.known.congr rfl rfl rfl rfl (fun hj => h.known.sent_eq_nil (hnil hj)) hjoined htaken,
    fun hl => ⟨(h.way (hlink hl)).lagged, (h.way (hlink hl)).split⟩⟩

/-- **One step.** -/
theorem step_inv {e : Event} (h : Inv s) (hcond : InOrder capacity s e)
    (hstep : (delivery capacity).step s e = some s') : Inv s' := by
  change step capacity s e = some s' at hstep
  cases e with
  | sendMsg target payload => exact h.sendMsg hstep
  | spawn => exact h.spawn hstep
  | run i => exact h.run hcond hstep
  | receiveJoin =>
    simp only [step] at hstep
    split at hstep
    · next hjoin =>
      cases hstep
      exact h.moves (fun _ => hjoin) (fun hj => absurd hj (by simp)) id id
    · cases hstep
  | subscribe =>
    simp only [step] at hstep
    split at hstep
    · next hjoin =>
      cases hstep
      refine h.moves (fun hj => ?_) id (fun _ => by simp [hjoin]) id
      simpa [hjoin] using h.known.joined hj
    · cases hstep
  | sendJoin =>
    simp only [step] at hstep
    split at hstep
    · next hjoin =>
      cases hstep
      exact h.moves (fun _ => .inl rfl) id (fun _ => by simp [hjoin]) id
    · cases hstep
  | register =>
    simp only [step] at hstep
    split at hstep
    · cases hstep
      exact h.moves (fun _ => .inr rfl) id (fun hj => absurd rfl hj) id
    · cases hstep
  | recvUnicast =>
    simp only [step] at hstep
    split at hstep
    · next hlink => exact h.takes (by simp [hlink]) (.inl ⟨hcond, hstep⟩)
    · cases hstep
  | recvBroadcast =>
    simp only [step] at hstep
    split at hstep
    · next hlink => exact h.takes (by simp [hlink]) (.inr ⟨hcond, hstep⟩)
    · cases hstep
  | lag =>
    simp only [step] at hstep
    split at hstep
    · next hlag =>
      -- a client that has lagged behind is not in these runs
      have hway := (h.way (by simp [hlag])).lagged
      rw [hlag.2.2] at hway
      cases hway
    · cases hstep
  | stop =>
    simp only [step] at hstep
    split at hstep
    · next hlink =>
      cases hstep
      exact h.moves h.known.joined id id (fun _ => by simp [hlink])
    · cases hstep
  | drain =>
    simp only [step] at hstep
    split at hstep
    next hdraining =>
      have hlink : s.link ≠ .closed := by simp [hdraining]
      have hclose : Inv { s with link := .closed } :=
        h.moves h.known.joined id id (fun hl => absurd rfl hl)
      cases hu : s.takeUnicast with
      | some t =>
        rw [hu] at hstep
        cases hstep
        have hne : s.unicast ≠ [] := fun hnil => by simp [State.takeUnicast, hnil] at hu
        simp only [InOrder, if_neg hne] at hcond
        exact h.takes hlink (.inl ⟨hcond, hu⟩)
      | none =>
        have hnil : s.unicast = [] := by
          unfold State.takeUnicast at hu
          split at hu
          · assumption
          · cases hu
        simp only [InOrder, if_pos hnil] at hcond
        simp only [hu] at hstep
        split at hstep
        · cases hstep
          exact hclose
        cases hb : s.takeBroadcast with
        | some t =>
          rw [hb] at hstep
          cases hstep
          exact h.takes hlink (.inr ⟨hcond, hb⟩)
        | none =>
          rw [hb] at hstep
          cases hstep
          exact hclose
    · cases hstep
  | close =>
    simp only [step] at hstep
    split at hstep
    · cases hstep
      exact h.moves h.known.joined id id (fun hl => absurd rfl hl)
    · cases hstep

end Steps

/-! ## Runs -/

/-- **Messages reach the socket in order and without loss** in every run in which the tasks, the
select and the broadcast channel keep the order. -/
theorem prefix_throughout (capacity : Nat) {events : List Event}
    (h : (delivery capacity).Along (InOrder capacity) init events) :
    (delivery capacity).Always Prefix init events :=
  (Machine.always_of_along (fun _ _ _ => step_inv) init_inv h).imp
    (fun _ hs hlink => (hs.way hlink).inOrder)

/-- A client joins, and is sent a message for itself and one for the room. -/
def welcome : List Event :=
  [.sendMsg .broadcast "for the others", .spawn, .run 0, .subscribe, .sendJoin, .receiveJoin,
    .sendMsg .unicast "you", .sendMsg .broadcast "state", .register, .spawn, .spawn, .run 0, .run 0,
    .run 0, .recvUnicast, .recvBroadcast]

/-- A run in which the order is kept. -/
theorem prefix_throughout_welcome :
    (delivery 128).Along (InOrder 128) init welcome ∧
    (delivery 128).Always Prefix init welcome := by
  have horder : (delivery 128).Along (InOrder 128) init welcome := by decide +kernel
  exact ⟨horder, prefix_throughout 128 horder⟩

/-- Two messages for the room, whose tasks take the lock in the other order. -/
def overtake : List Event :=
  [.subscribe, .sendJoin, .receiveJoin, .register, .sendMsg .broadcast "first",
    .sendMsg .broadcast "second", .spawn, .spawn, .run 1, .recvBroadcast]

/-- **A message can overtake another.** -/
theorem not_prefix_throughout :
    ¬ ∀ capacity, 100 ≤ capacity → ∀ events, (delivery capacity).Always Prefix init events := by
  intro h
  have hrun : ((delivery 128).run init overtake).map (fun s => (s.link, s.written, s.sent)) =
      some (.running, [⟨1, .broadcast, "second"⟩],
        [⟨0, .broadcast, "first"⟩, ⟨1, .broadcast, "second"⟩]) := by
    decide +kernel
  obtain ⟨s, hs, heq⟩ := Option.map_eq_some_iff.mp hrun
  simp only [Prod.mk.injEq] at heq
  obtain ⟨hlink, hwritten, hsent⟩ := heq
  have hprefix := (h 128 (by decide) overtake).last hs (by simp [hlink])
  rw [hwritten, hsent] at hprefix
  exact absurd hprefix (by decide)

end OpenTogetherTube.Balancer.Delivery
