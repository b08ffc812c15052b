import OpenTogetherTube.Balancer.Segments
import OpenTogetherTube.Balancer.OneRoom
import OpenTogetherTube.Balancer.Connections

/-!
# The connections to the monoliths

`MonolithConnectionManager` keeps one task for each monolith that service discovery has found.
`connect_and_maintain` connects, exchanges `init` messages, registers the monolith with the balancer
and then carries messages both ways until the connection ends; it tells the balancer so and starts
over. A monolith can also be dropped by the balancer itself, when a message cannot be sent to it.

Discovery does not mention again what it has mentioned, so a monolith whose task is over, or whose
task carries messages for a monolith that the balancer has dropped, is out of service for good.
`supervised_throughout_iff` says which steps lead there.

The calls that a connection task makes of the balancer go through channels and are tasks of the pool,
which run in any order.
-/

namespace OpenTogetherTube.Balancer

open OpenTogetherTube.Lib BalancerContext

/-! ## Who is connected after a segment -/

/-- The monolith that a segment drops: it has left, or a message could not be sent to it. -/
def dropped : Task → Option MonolithId
  | .joinAbandon _ m _ true => some m
  | .leaveAbandon m => some m
  | .leaveMonolith m => some m
  | _ => none

/-- What drops a monolith joins none. -/
theorem joined_of_dropped {task : Task} {m : MonolithId} (x : Answer) (h : dropped task = some m) :
    Connections.joined task x = none := by
  unfold dropped at h
  split at h
  · rfl
  · rfl
  · rfl
  · cases h

section Segment

variable {ctx : BalancerContext} {m : MonolithId}

theorem removeMonolith_connected (ctx : BalancerContext) (m m' : MonolithId) :
    (ctx.removeMonolith m).Connected m' ↔ ctx.Connected m' ∧ m ≠ m' := by
  show (ctx.monoliths.erase m).contains m' = true ↔ _
  rw [OrderedMap.contains_erase]
  by_cases h : m' = m
  · simp [h]
  · simp [h, Connected, Ne.symm h]

theorem addRoom_connected (room : RoomName) (locator : RoomLocator) (m' : MonolithId) :
    (ctx.addRoom room locator).1.Connected m' ↔ ctx.Connected m' := by
  unfold addRoom
  split
  · exact Iff.rfl
  · next mono hm =>
    dsimp only
    split
    · exact Iff.rfl
    · exact connected_setMonolith { ctx with
        roomsToMonoliths := ctx.roomsToMonoliths.set room locator } hm m'

theorem reserveRoom_connected (room : RoomName) (selected : Option MonolithId) (m' : MonolithId) :
    (ctx.reserveRoom room selected).Connected m' ↔ ctx.Connected m' := by
  unfold reserveRoom
  split
  · exact addRoom_connected room _ m'
  · exact Iff.rfl

theorem registerClient_connected (c : NewClient) (m m' : MonolithId) :
    (ctx.registerClient c m).Connected m' ↔ ctx.Connected m' := by
  unfold registerClient
  split
  · exact Iff.rfl
  · next hm => exact connected_setMonolith _ hm m'

theorem deregisterClient_connected (c : ClientId) (m' : MonolithId) :
    (ctx.deregisterClient c).Connected m' ↔ ctx.Connected m' := by
  unfold deregisterClient
  split
  · exact Iff.rfl
  · dsimp only
    split
    · exact Iff.rfl
    · split
      · exact Iff.rfl
      · next hm => exact connected_setMonolith { ctx with clients := ctx.clients.erase c } hm m'

/-- **A segment connects the monolith that joins with it, and drops the one that it is to drop.** -/
theorem contextAfter_connected (ctx : BalancerContext) (task : Task) (x : Answer) (m : MonolithId) :
    (ctx.contextAfter task x).Connected m ↔
      Connections.joined task x = some m ∨ (ctx.Connected m ∧ dropped task ≠ some m) := by
  have hsame : ∀ {ctx' : BalancerContext}, (ctx'.Connected m ↔ ctx.Connected m) →
      (ctx'.Connected m ↔ none = some m ∨ (ctx.Connected m ∧ none ≠ some m)) := by
    intro ctx' h
    rw [h]
    simp
  have hdrop : ∀ {ctx' : BalancerContext} (m' : MonolithId),
      (ctx'.Connected m ↔ ctx.Connected m ∧ m' ≠ m) →
      (ctx'.Connected m ↔ none = some m ∨ (ctx.Connected m ∧ some m' ≠ some m)) := by
    intro ctx' m' h
    rw [h]
    simp
  cases task with
  | joinReserve c =>
    cases x with
    | lockSelecting selected => exact hsame (reserveRoom_connected c.room selected m)
    | _ => exact hsame Iff.rfl
  | joinRegister c m' => exact hsame (registerClient_connected c m' m)
  | joinAbandon c m' shouldCreateRoom badMonolith =>
    have hroom : (if shouldCreateRoom then (ctx.removeRoom c.room m').1 else ctx).Connected m ↔
        ctx.Connected m := by
      split
      · exact removeRoom_connected ctx c.room m' m
      · exact Iff.rfl
    cases badMonolith with
    | false => exact hsame hroom
    | true => exact hdrop m' ((removeMonolith_connected _ m' m).trans (and_congr_left' hroom))
  | leaveRemove c => exact hsame (deregisterClient_connected c m)
  | leaveAbandon m' => exact hdrop m' (removeMonolith_connected ctx m' m)
  | leaveMonolith m' => exact hdrop m' (removeMonolith_connected ctx m' m)
  | joinMonolith m' =>
    cases x with
    | lockHandOver receiverOpen =>
      cases receiverOpen with
      | false => exact hsame Iff.rfl
      | true =>
        show (ctx.monoliths.set m'.id _).contains m = true ↔ some m'.id = some m ∨ _
        rw [OrderedMap.contains_set, Bool.or_eq_true, decide_eq_true_eq, Option.some.injEq]
        exact or_congr eq_comm ⟨fun h => ⟨h, nofun⟩, fun h => h.1⟩
    | _ => exact hsame Iff.rfl
  | loaded m' room loadEpoch => exact hsame (syncRoom_connected _ _ room loadEpoch m)
  | gossipSync m' room rooms toRemove =>
    exact hsame (syncRoom_connected _ _ room.room room.loadEpoch m)
  | unloaded m' room => exact hsame (removeRoom_connected ctx room m' m)
  | gossipDrop m' room rooms toRemove => exact hsame (removeRoom_connected ctx room m' m)
  | gossipRemove m' room toRemove => exact hsame (removeRoom_connected ctx room m' m)
  | _ => exact hsame Iff.rfl

end Segment

namespace Supervision

/-! ## A connection task -/

inductive HostOrIp where
  | host (name : String)
  | ip (address : String)
  deriving DecidableEq, Repr

structure ConnectionConfig where
  host : HostOrIp
  port : Fin (2 ^ 16)
  deriving DecidableEq, Repr

/-- How far `connect_and_maintain` is. -/
inductive Phase where
  /-- In the `select!` of `connect_async` and the cancellation. -/
  | connecting
  /-- Asleep after a connect that failed. -/
  | retrying
  /-- Sending `B2MInit`. -/
  | introducing
  /-- Waiting for the first message. -/
  | handshaking
  /-- In `send_monolith`, which is a task of the balancer. -/
  | registering (m : MonolithId) (task : Nat)
  /-- In the loop that carries messages. -/
  | linked (m : MonolithId)
  /-- About to tell the balancer that the monolith is gone. -/
  | leaving (m : MonolithId)
  /-- Asleep before the next connect. -/
  | waiting
  | ended
  deriving DecidableEq, Repr

structure Connection where
  conf : ConnectionConfig
  phase : Phase
  cancelled : Bool
  deriving DecidableEq, Repr

/-- What comes as the first message: nothing before the timeout or the end of the stream, something
that is not text, text that is no message, a message that is not `init`, or `init`. -/
inductive Reply where
  | missing
  | notText
  | malformed
  | other
  | init (m : MonolithId) (region : Region)
  deriving DecidableEq, Repr

/-- What the stream gives in the loop. A message is handed to the balancer; `call` is what it is to
the balancer if it can be decoded. -/
inductive Frame where
  | close
  | none
  | ping (answered : Bool)
  | message (call : Option Call) (sent : Bool)
  deriving DecidableEq, Repr

/-- What a connection task goes on with. -/
inductive Outcome where
  | connect (ok : Bool)
  | wake
  | introduced (ok : Bool)
  | reply (reply : Reply) (sent : Bool)
  | refused
  | outbound (sent : Option Bool)
  | stream (frame : Frame)
  | cancelled
  | notified (sent : Bool)
  deriving DecidableEq, Repr

/-- The monolith that a message to the balancer is from. -/
def sender : Call → Option MonolithId
  | .loaded m _ _ | .unloaded m _ | .gossip m _ | .roomMsg m _ _ | .kick m _ => some m
  | _ => none

namespace Connection

def enter (conn : Connection) (phase : Phase) : Connection := { conn with phase := phase }

/-- One step of `connect_and_maintain`, and what it calls the balancer for. `next` is the task that a
call starts. -/
def step (conn : Connection) (next : Nat) (outcome : Outcome) :
    Option (Connection × Option Call) :=
  match conn.phase, outcome with
  | .connecting, .connect ok => some (conn.enter (if ok then .introducing else .retrying), none)
  | .connecting, .cancelled => if conn.cancelled then some (conn.enter .ended, none) else none
  | .retrying, .wake => some (conn.enter .connecting, none)
  -- a failure is logged
  | .introducing, .introduced _ => some (conn.enter .handshaking, none)
  | .handshaking, .reply (.init m region) true =>
    some (conn.enter (.registering m next), some (.joinMonolith ⟨m, region⟩))
  -- every other outcome closes the stream and returns
  | .handshaking, .reply _ _ => some (conn.enter .ended, none)
  | .registering _ _, .refused => some (conn.enter .ended, none)
  | .linked m, .outbound sent =>
    match sent with
    -- the channel is closed: `continue`
    | none => some (conn, none)
    | some sent => some (if sent then conn else conn.enter (.leaving m), none)
  | .linked m, .stream frame =>
    match frame with
    | .close | .none => some (conn.enter (.leaving m), none)
    | .ping answered => some (if answered then conn else conn.enter (.leaving m), none)
    | .message call sent =>
      if sent then if call.all (fun c => sender c = some m) then some (conn, call) else none
      else some (conn.enter (.leaving m), none)
  | .linked m, .cancelled => if conn.cancelled then some (conn.enter (.leaving m), none) else none
  | .leaving m, .notified sent =>
    some (conn.enter (if conn.cancelled then .ended else .waiting),
      if sent then some (.leaveMonolith m) else none)
  | .waiting, .wake => some (conn.enter .connecting, none)
  | _, _ => none

/-- The task returns out of the handshake. -/
def Returns : Outcome → Prop
  | .reply (.init _ _) true => False
  | .reply _ _ | .refused => True
  | _ => False

end Connection

/-! ## The manager -/

structure ServiceDiscoveryMsg where
  added : List ConnectionConfig
  removed : List ConnectionConfig
  deriving DecidableEq, Repr

/-- The connection manager and all connection tasks it ever spawned, by handle, and the balancer.
`awaiting` is the handle that `do_connection_job` waits for, with what is left of its message. -/
structure World where
  pool : Pool State Task TaskEnd
  monoliths : OrderedSet ConnectionConfig
  connectionTasks : OrderedMap ConnectionConfig Nat
  connections : List Connection
  awaiting : Option (Nat × ServiceDiscoveryMsg)

inductive Event where
  | discover (msg : ServiceDiscoveryMsg)
  | joined
  | connection (handle : Nat) (outcome : Outcome)
  | client (call : Call)
  | segment (i : Nat) (x : Answer)
  deriving DecidableEq, Repr

namespace World

def ctx (w : World) : BalancerContext := w.pool.shared.ctx

/-- The balancer has just started, and nothing is discovered. -/
def init (region : Region) : World := ⟨Balancer.init region, ∅, ∅, [], none⟩

/-- A task is spawned for the configuration, and replaces the one that is there. -/
def spawn (w : World) (conf : ConnectionConfig) : World := { w with
  monoliths := w.monoliths.add conf
  connections := w.connections ++ [⟨conf, .connecting, false⟩]
  connectionTasks := w.connectionTasks.set conf w.connections.length }

def forget (w : World) (conf : ConnectionConfig) : World :=
  { w with monoliths := w.monoliths.delete conf }

def cancel (w : World) (conf : ConnectionConfig) (handle : Nat) : World := { w with
  connectionTasks := w.connectionTasks.erase conf
  connections := w.connections.modify handle (fun conn => { conn with cancelled := true }) }

/-- `do_connection_job`, as far as the next task that it has cancelled and waits for. -/
def doConnectionJob (w : World) (added : List ConnectionConfig) : List ConnectionConfig → World
  | [] => { added.foldl spawn w with awaiting := none }
  | m :: removed =>
    match w.connectionTasks.get? m with
    | none => doConnectionJob (w.forget m) added removed
    | some handle =>
      { (w.forget m).cancel m handle with awaiting := some (handle, ⟨added, removed⟩) }

/-- The balancer is called. -/
def call (w : World) (c : Call) : World :=
  { w with pool := ⟨w.pool.shared, w.pool.tasks ++ [.waiting c.task]⟩ }

def connection (w : World) (handle : Nat) (outcome : Outcome) : Option World :=
  match w.connections[handle]? with
  | some conn =>
    (conn.step w.pool.tasks.length outcome).map (fun r =>
      let w := { w with connections := w.connections.set handle r.1 }
      r.2.elim w w.call)
  | none => none

/-- Whether a connection task waits for the balancer's task. -/
def Awaited (w : World) (i : Nat) (m : MonolithId) : Prop :=
  ∃ conn ∈ w.connections, conn.phase = .registering m i

instance (w : World) (i : Nat) (m : MonolithId) : Decidable (w.Awaited i m) :=
  inferInstanceAs (Decidable (∃ conn ∈ _, _))

/-- The connection task that waits for the balancer's task goes on with the monolith that has
joined. -/
def link (connections : List Connection) (i : Nat) (m : MonolithId) : List Connection :=
  connections.map (fun conn => if conn.phase = .registering m i then conn.enter (.linked m) else conn)

/-- `join_monolith` hands the channel over if a connection task waits for it. -/
def handsOver (w : World) (i : Nat) : Task → Answer → Bool
  | .joinMonolith m, .lockHandOver receiverOpen => receiverOpen == decide (w.Awaited i m.id)
  | _, _ => true

def segment (w : World) (i : Nat) (x : Answer) : Option World :=
  match w.pool.tasks[i]? with
  | some (.waiting task) =>
    if w.handsOver i task x then
      (balancer.machine.step w.pool (.answer i x)).map (fun pool => { w with
        pool := pool
        connections := match Connections.joined task x with
          | some m => link w.connections i m
          | none => w.connections })
    else none
  | _ => none

def step (w : World) : Event → Option World
  | .discover msg =>
    match w.awaiting with
    | none => some (w.doConnectionJob msg.added msg.removed)
    | some _ => none
  | .joined =>
    match w.awaiting with
    | some (handle, msg) =>
      if w.connections[handle]?.any (fun conn => conn.phase = .ended) then
        some (w.doConnectionJob msg.added msg.removed)
      else none
    | none => none
  | .connection handle outcome => w.connection handle outcome
  | .client call =>
    match call with
    | .joinClient _ | .leaveClient _ => some (w.call call)
    | _ => none
  | .segment i x => w.segment i x

end World

def system : Machine World Event := ⟨World.step⟩

/-! ## The specification -/

/-- The task of a configuration. -/
def World.current (w : World) (conf : ConnectionConfig) : Option Connection :=
  (w.connectionTasks.get? conf).bind (fun handle => w.connections[handle]?)

/-- **The purpose**: the task of each discovered monolith goes on, and it carries messages only for a
monolith that is registered. A task ends only after it was cancelled. -/
structure Supervised (w : World) : Prop where
  tasks : ∀ conf, w.monoliths.has conf = true → ∃ conn, w.current conf = some conn ∧
    conn.phase ≠ .ended ∧ ∀ m, conn.phase = .linked m → w.ctx.Connected m
  cancelled : ∀ conn ∈ w.connections, conn.phase = .ended → conn.cancelled = true

/-- A task returns out of the handshake only if it was cancelled, and the balancer drops no monolith
for which the task of a discovered one carries messages. -/
def Supervises (w : World) : Event → Prop
  | .connection handle outcome => Connection.Returns outcome →
      ∀ conn, w.connections[handle]? = some conn → conn.cancelled = true
  | .segment i _ => ∀ task, w.pool.tasks[i]? = some (.waiting task) → ∀ m, dropped task = some m →
      ∀ conf, w.monoliths.has conf = true → ∀ conn, w.current conf = some conn →
        conn.phase ≠ .linked m
  | _ => True

/-! ## What the manager keeps to -/

/-- The task that is noted for a configuration is one for it, and it was not cancelled. -/
structure Managed (w : World) : Prop where
  noted : ∀ conf handle, w.connectionTasks.get? conf = some handle →
    ∃ conn, w.connections[handle]? = some conn ∧ conn.conf = conf ∧ conn.cancelled = false
  known : ∀ conf, w.monoliths.has conf = true → ∃ handle, w.connectionTasks.get? conf = some handle

variable {w w' : World} {conf : ConnectionConfig} {handle : Nat}

theorem current_eq_some {conn : Connection} : w.current conf = some conn ↔
    ∃ handle, w.connectionTasks.get? conf = some handle ∧ w.connections[handle]? = some conn :=
  Option.bind_eq_some_iff

/-- No task is noted for two configurations. -/
theorem Managed.unique (h : Managed w) {conf' : ConnectionConfig}
    (hconf : w.connectionTasks.get? conf = some handle)
    (hconf' : w.connectionTasks.get? conf' = some handle) : conf = conf' := by
  obtain ⟨conn, hconn, rfl, -⟩ := h.noted conf handle hconf
  obtain ⟨conn', hconn', rfl, -⟩ := h.noted conf' handle hconf'
  rw [hconn] at hconn'
  cases hconn'
  rfl

/-- The current task of a configuration was not cancelled. -/
theorem Managed.uncancelled (h : Managed w) {conn : Connection}
    (hconn : w.current conf = some conn) : conn.cancelled = false := by
  obtain ⟨handle, hhandle, hat⟩ := current_eq_some.mp hconn
  obtain ⟨conn', hconn', -, hcancelled⟩ := h.noted conf handle hhandle
  rw [hat] at hconn'
  cases hconn'
  exact hcancelled

/-! ### Discovery -/

theorem current_spawn (h : Managed w) (conf conf' : ConnectionConfig) :
    (w.spawn conf).current conf' =
      if conf' = conf then some ⟨conf, .connecting, false⟩ else w.current conf' := by
  unfold World.current World.spawn
  dsimp only
  rw [OrderedMap.get?_set]
  split
  · simp
  · cases hhandle : w.connectionTasks.get? conf' with
    | none => rfl
    | some handle =>
      obtain ⟨conn, hconn, -, -⟩ := h.noted conf' handle hhandle
      obtain ⟨hlt, -⟩ := List.getElem?_eq_some_iff.mp hconn
      exact List.getElem?_append_left hlt

theorem Managed.spawn (h : Managed w) (conf : ConnectionConfig) : Managed (w.spawn conf) := by
  refine ⟨fun conf' handle hhandle => ?_, fun conf' hconf' => ?_⟩
  · unfold World.spawn at hhandle ⊢
    dsimp only at hhandle ⊢
    rw [OrderedMap.get?_set] at hhandle
    split at hhandle
    · next heq =>
      cases hhandle
      exact ⟨_, List.getElem?_concat_length, heq.symm, rfl⟩
    · obtain ⟨conn, hconn, hrest⟩ := h.noted conf' handle hhandle
      obtain ⟨hlt, -⟩ := List.getElem?_eq_some_iff.mp hconn
      exact ⟨conn, (List.getElem?_append_left hlt).trans hconn, hrest⟩
  · unfold World.spawn at hconf' ⊢
    dsimp only at hconf' ⊢
    rw [OrderedMap.get?_set]
    split
    · exact ⟨_, rfl⟩
    · next hne =>
      rw [OrderedSet.has_add] at hconf'
      exact h.known conf' (by simpa [hne] using hconf')

theorem Supervised.spawn (h : Supervised w) (hw : Managed w) (conf : ConnectionConfig) :
    Supervised (w.spawn conf) := by
  refine ⟨fun conf' hconf' => ?_, fun conn hconn hended => ?_⟩
  · rw [current_spawn hw]
    split
    · exact ⟨_, rfl, nofun, nofun⟩
    · next hne =>
      unfold World.spawn at hconf'
      dsimp only at hconf'
      rw [OrderedSet.has_add] at hconf'
      exact h.tasks conf' (by simpa [hne] using hconf')
  · rcases List.mem_append.mp hconn with hold | hnew
    · exact h.cancelled conn hold hended
    · rw [List.mem_singleton.mp hnew] at hended
      cases hended

/-- A configuration is forgotten, and its task, if there is one, is cancelled. -/
theorem current_cancel (h : Managed w) (hconf : w.connectionTasks.get? conf = some handle)
    (conf' : ConnectionConfig) : (w.cancel conf handle).current conf' =
      if conf' = conf then none else w.current conf' := by
  unfold World.current World.cancel
  dsimp only
  rw [OrderedMap.get?_erase]
  split
  · rfl
  · next hne =>
    cases hhandle : w.connectionTasks.get? conf' with
    | none => rfl
    | some handle' =>
      have hdiff : handle ≠ handle' := fun heq => hne (h.unique hhandle (heq ▸ hconf))
      show (w.connections.modify handle _)[handle']? = w.connections[handle']?
      exact List.getElem?_modify_ne _ _ hdiff

theorem Managed.cancel (h : Managed w) (hconf : w.connectionTasks.get? conf = some handle) :
    Managed ((w.forget conf).cancel conf handle) := by
  refine ⟨fun conf' handle' hhandle' => ?_, fun conf' hconf' => ?_⟩
  · unfold World.forget World.cancel at hhandle' ⊢
    dsimp only at hhandle' ⊢
    rw [OrderedMap.get?_erase] at hhandle'
    split at hhandle'
    · cases hhandle'
    · next hne =>
      have hdiff : handle ≠ handle' := fun heq => hne (h.unique hhandle' (heq ▸ hconf))
      obtain ⟨conn, hconn, hrest⟩ := h.noted conf' handle' hhandle'
      exact ⟨conn, (List.getElem?_modify_ne _ _ hdiff).trans hconn, hrest⟩
  · unfold World.forget World.cancel at hconf' ⊢
    dsimp only at hconf' ⊢
    rw [OrderedSet.has_delete] at hconf'
    rw [OrderedMap.get?_erase]
    split
    · next heq => simp [heq] at hconf'
    · next hne => exact h.known conf' (by simpa [hne] using hconf')

theorem Supervised.cancel (h : Supervised w) (hw : Managed w)
    (hconf : w.connectionTasks.get? conf = some handle) :
    Supervised ((w.forget conf).cancel conf handle) := by
  refine ⟨fun conf' hconf' => ?_, fun conn hconn hended => ?_⟩
  · change (w.monoliths.delete conf).has conf' = true at hconf'
    rw [OrderedSet.has_delete, Bool.and_eq_true, decide_eq_true_eq] at hconf'
    rw [show ((w.forget conf).cancel conf handle).current conf' = w.current conf' from
      (current_cancel hw hconf conf').trans (if_neg hconf'.1)]
    exact h.tasks conf' hconf'.2
  · obtain ⟨i, hi⟩ := List.mem_iff_getElem?.mp hconn
    change (w.connections.modify handle _)[i]? = some conn at hi
    by_cases hdiff : handle = i
    · subst hdiff
      rw [List.getElem?_modify_eq] at hi
      obtain ⟨conn', -, rfl⟩ := Option.map_eq_some_iff.mp hi
      rfl
    · rw [List.getElem?_modify_ne _ _ hdiff] at hi
      exact h.cancelled conn (List.mem_of_getElem? hi) hended

/-- A configuration without a task is forgotten. -/
theorem Managed.forget (h : Managed w) (conf : ConnectionConfig) : Managed (w.forget conf) := by
  refine ⟨h.noted, fun conf' hconf' => h.known conf' ?_⟩
  change (w.monoliths.delete conf).has conf' = true at hconf'
  rw [OrderedSet.has_delete, Bool.and_eq_true] at hconf'
  exact hconf'.2

theorem Supervised.forget (h : Supervised w) (conf : ConnectionConfig) :
    Supervised (w.forget conf) := by
  refine ⟨fun conf' hconf' => h.tasks conf' ?_, h.cancelled⟩
  change (w.monoliths.delete conf).has conf' = true at hconf'
  rw [OrderedSet.has_delete, Bool.and_eq_true] at hconf'
  exact hconf'.2

/-- Whom the manager waits for is nobody's concern but its own. -/
theorem Managed.await (h : Managed w) (awaiting : Option (Nat × ServiceDiscoveryMsg)) :
    Managed { w with awaiting := awaiting } :=
  ⟨h.noted, h.known⟩

theorem Supervised.await (h : Supervised w) (awaiting : Option (Nat × ServiceDiscoveryMsg)) :
    Supervised { w with awaiting := awaiting } :=
  ⟨h.tasks, h.cancelled⟩

theorem managed_foldl_spawn (h : Managed w) (added : List ConnectionConfig) :
    Managed (added.foldl World.spawn w) := by
  induction added generalizing w with
  | nil => exact h
  | cons conf added ih => exact ih (h.spawn conf)

theorem supervised_foldl_spawn (h : Supervised w) (hw : Managed w)
    (added : List ConnectionConfig) : Supervised (added.foldl World.spawn w) := by
  induction added generalizing w with
  | nil => exact h
  | cons conf added ih => exact ih (h.spawn hw conf) (hw.spawn conf)

theorem Managed.doConnectionJob (h : Managed w) (added removed : List ConnectionConfig) :
    Managed (w.doConnectionJob added removed) := by
  induction removed generalizing w with
  | nil => exact (managed_foldl_spawn h added).await none
  | cons m removed ih =>
    rw [World.doConnectionJob]
    split
    · exact ih (h.forget m)
    · next hm => exact (h.cancel hm).await _

theorem Supervised.doConnectionJob (h : Supervised w) (hw : Managed w)
    (added removed : List ConnectionConfig) : Supervised (w.doConnectionJob added removed) := by
  induction removed generalizing w with
  | nil => exact (supervised_foldl_spawn h hw added).await none
  | cons m removed ih =>
    rw [World.doConnectionJob]
    split
    · exact ih (h.forget m) (hw.forget m)
    · next hm => exact (h.cancel hw hm).await _

/-! ### One connection task -/

/-- **What a step of a connection task comes to**: it is for the same configuration and as cancelled
as before, it carries messages only for the monolith it did, and it ends only where it was cancelled
or returns out of the handshake. -/
structure Stepped (conn conn' : Connection) (outcome : Outcome) : Prop where
  conf : conn'.conf = conn.conf
  cancelled : conn'.cancelled = conn.cancelled
  linked : ∀ m, conn'.phase = .linked m → conn.phase = .linked m
  ended : conn'.phase = .ended → conn.cancelled = true ∨ Connection.Returns outcome
  returns : Connection.Returns outcome → conn'.phase = .ended

theorem stepped_enter {conn : Connection} {phase : Phase} {outcome : Outcome}
    (hlinked : ∀ m, phase ≠ .linked m)
    (hended : phase = .ended → conn.cancelled = true ∨ Connection.Returns outcome)
    (hreturns : Connection.Returns outcome → phase = .ended) :
    Stepped conn (conn.enter phase) outcome :=
  ⟨rfl, rfl, fun m h => absurd h (hlinked m), hended, hreturns⟩

theorem stepped_refl {conn : Connection} {m : MonolithId} {outcome : Outcome}
    (hphase : conn.phase = .linked m) (hreturns : ¬ Connection.Returns outcome) :
    Stepped conn conn outcome :=
  ⟨rfl, rfl, fun _ h => h, (fun h => nomatch hphase.symm.trans h), fun h => absurd h hreturns⟩

theorem Connection.stepped {conn conn' : Connection} {next : Nat} {outcome : Outcome}
    {call : Option Call} (h : conn.step next outcome = some (conn', call)) :
    Stepped conn conn' outcome := by
  unfold Connection.step at h
  split at h
  case h_1 ok _ => cases h; cases ok <;> exact stepped_enter nofun nofun nofun
  case h_2 =>
    split at h <;> cases h
    next hc => exact stepped_enter nofun (fun _ => .inl hc) nofun
  case h_3 => cases h; exact stepped_enter nofun nofun nofun
  case h_4 => cases h; exact stepped_enter nofun nofun nofun
  case h_5 m region _ => cases h; exact stepped_enter nofun nofun nofun
  case h_6 reply sent hother _ =>
    cases h
    have hreturns : Connection.Returns (.reply reply sent) := by
      unfold Connection.Returns
      split
      · next heq => cases heq; exact hother _ _ rfl rfl
      · trivial
      · trivial
      · next hne _ => exact hne _ _ rfl
    exact stepped_enter nofun (fun _ => .inr hreturns) (fun _ => rfl)
  case h_7 => cases h; exact stepped_enter nofun (fun _ => .inr trivial) (fun _ => rfl)
  case h_8 m sent hphase =>
    split at h
    · cases h; exact stepped_refl hphase nofun
    · next sent =>
      cases h
      cases sent with
      | true => exact stepped_refl hphase nofun
      | false => exact stepped_enter nofun nofun nofun
  case h_9 m frame hphase =>
    split at h
    · cases h; exact stepped_enter nofun nofun nofun
    · cases h; exact stepped_enter nofun nofun nofun
    · next answered =>
      cases h
      cases answered with
      | true => exact stepped_refl hphase nofun
      | false => exact stepped_enter nofun nofun nofun
    · split at h
      · split at h <;> cases h
        exact stepped_refl hphase nofun
      · cases h; exact stepped_enter nofun nofun nofun
  case h_10 m _ =>
    split at h <;> cases h
    exact stepped_enter nofun nofun nofun
  case h_11 m sent _ =>
    cases h
    cases hc : conn.cancelled with
    | true => exact stepped_enter nofun (fun _ => .inl hc) nofun
    | false => exact stepped_enter nofun nofun nofun
  case h_12 => cases h; exact stepped_enter nofun nofun nofun
  case h_13 => cases h

/-- The tasks after one of them has stepped. -/
theorem current_set {connections : List Connection} {conn conn' : Connection}
    (hconn : w.connections[handle]? = some conn)
    (hset : connections = w.connections.set handle conn') (pool : Pool State Task TaskEnd)
    (conf : ConnectionConfig) :
    ({ w with connections := connections, pool := pool } : World).current conf =
      if w.connectionTasks.get? conf = some handle then some conn' else w.current conf := by
  unfold World.current
  dsimp only
  subst hset
  obtain ⟨hlt, -⟩ := List.getElem?_eq_some_iff.mp hconn
  cases hhandle : w.connectionTasks.get? conf with
  | none => rfl
  | some handle' =>
    rw [Option.bind_some, Option.bind_some, List.getElem?_set]
    by_cases heq : handle = handle'
    · subst heq
      simp [hlt]
    · rw [if_neg heq, if_neg fun h => heq (Option.some.inj h).symm]

/-- What a step of a connection task makes of the world. -/
theorem connection_eq_some {outcome : Outcome} (h : w.connection handle outcome = some w') :
    ∃ conn conn' pool, w.connections[handle]? = some conn ∧ Stepped conn conn' outcome ∧
      pool.shared = w.pool.shared ∧
      w' = { w with connections := w.connections.set handle conn', pool := pool } := by
  unfold World.connection at h
  split at h
  · next conn hconn =>
    obtain ⟨⟨conn', call⟩, hstep, rfl⟩ := Option.map_eq_some_iff.mp h
    have hstepped := conn.stepped hstep
    cases call with
    | none => exact ⟨conn, conn', w.pool, hconn, hstepped, rfl, rfl⟩
    | some c => exact ⟨conn, conn', (w.call c).pool, hconn, hstepped, rfl, rfl⟩
  · cases h

theorem Managed.connection (h : Managed w) {outcome : Outcome}
    (hs : w.connection handle outcome = some w') : Managed w' := by
  obtain ⟨conn, conn', pool, hconn, hstepped, -, rfl⟩ := connection_eq_some hs
  refine ⟨fun conf handle' hhandle' => ?_, h.known⟩
  obtain ⟨conn'', hconn'', hconf, hcancelled⟩ := h.noted conf handle' hhandle'
  dsimp only
  rw [List.getElem?_set]
  split
  · next heq =>
    subst heq
    rw [hconn] at hconn''
    cases hconn''
    obtain ⟨hlt, -⟩ := List.getElem?_eq_some_iff.mp hconn
    exact ⟨conn', if_pos hlt, hstepped.conf.trans hconf, hstepped.cancelled.trans hcancelled⟩
  · exact ⟨conn'', hconn'', hconf, hcancelled⟩

/-- **A connection task stays supervised exactly if it does not return out of the handshake before
it was cancelled.** -/
theorem supervised_connection_iff (h : Supervised w) (hw : Managed w) {outcome : Outcome}
    (hs : w.connection handle outcome = some w') :
    Supervised w' ↔ Supervises w (.connection handle outcome) := by
  obtain ⟨conn, conn', pool, hconn, hstepped, hshared, rfl⟩ := connection_eq_some hs
  obtain ⟨hlt, -⟩ := List.getElem?_eq_some_iff.mp hconn
  constructor
  · intro h' hreturns conn'' hconn''
    rw [hconn] at hconn''
    cases hconn''
    rw [← hstepped.cancelled]
    exact h'.cancelled conn' (List.mem_set hlt conn') (hstepped.returns hreturns)
  · intro hok
    have hended : conn'.phase = .ended → conn.cancelled = true := fun hended =>
      (hstepped.ended hended).elim (fun hc => hc) fun hreturns => hok hreturns conn hconn
    refine ⟨fun conf hconf => ?_, fun conn'' hconn'' hended'' => ?_⟩
    · obtain ⟨current, hcurrent, hphase, hlinked⟩ := h.tasks conf hconf
      rw [current_set hconn rfl pool]
      split
      · next hhandle =>
        have heq : current = conn := by
          obtain ⟨handle', hhandle', hat⟩ := current_eq_some.mp hcurrent
          rw [hhandle] at hhandle'
          cases hhandle'
          rw [hconn] at hat
          exact (Option.some.inj hat).symm
        subst heq
        refine ⟨conn', rfl, fun hend => ?_, fun m hm => ?_⟩
        · have hc := hended hend
          rw [hw.uncancelled hcurrent] at hc
          cases hc
        · show pool.shared.ctx.Connected m
          rw [hshared]
          exact hlinked m (hstepped.linked m hm)
      · refine ⟨current, hcurrent, hphase, fun m hm => ?_⟩
        show pool.shared.ctx.Connected m
        rw [hshared]
        exact hlinked m hm
    · rcases List.mem_or_eq_of_mem_set hconn'' with hold | rfl
      · exact h.cancelled conn'' hold hended''
      · exact hstepped.cancelled.trans (hended hended'')

/-! ### The balancer -/

/-- What a segment makes of the world: the task that waited for a monolith to join carries messages
for it. -/
theorem segment_eq_some {i : Nat} {x : Answer} (h : w.segment i x = some w') :
    ∃ task s progress, w.pool.tasks[i]? = some (.waiting task) ∧
      resume task x w.pool.shared = some (s, progress) ∧
      w' = { w with
        pool := ⟨s, w.pool.tasks.set i progress⟩
        connections := match Connections.joined task x with
          | some m => World.link w.connections i m
          | none => w.connections } := by
  unfold World.segment at h
  split at h
  · next task htask =>
    split at h
    · obtain ⟨pool, hstep, rfl⟩ := Option.map_eq_some_iff.mp h
      rcases Program.step_cases hstep with ⟨c, hc, -⟩ | ⟨i', x', task', s, progress, he, ht, hr, rfl⟩ |
        ⟨ev, s, hev, -⟩
      · cases hc
      · cases he
        rw [htask] at ht
        cases ht
        exact ⟨task, s, progress, htask, hr, rfl⟩
      · cases hev
    · cases h
  · cases h

/-- A connection task after a segment. -/
def linked (task : Task) (x : Answer) (i : Nat) (conn : Connection) : Connection :=
  match Connections.joined task x with
  | some m => if conn.phase = .registering m i then conn.enter (.linked m) else conn
  | none => conn

theorem connections_segment (task : Task) (x : Answer) (i : Nat) (connections : List Connection) :
    (match Connections.joined task x with
      | some m => World.link connections i m
      | none => connections) = connections.map (linked task x i) := by
  unfold linked
  cases Connections.joined task x with
  | none => exact (List.map_id' _).symm
  | some m => rfl

theorem linked_cases (task : Task) (x : Answer) (i : Nat) (conn : Connection) :
    linked task x i conn = conn ∨ ∃ m, Connections.joined task x = some m ∧
      linked task x i conn = conn.enter (.linked m) := by
  unfold linked
  cases Connections.joined task x with
  | none => exact .inl rfl
  | some m =>
    dsimp only
    split
    · exact .inr ⟨m, rfl, rfl⟩
    · exact .inl rfl

theorem Managed.segment (h : Managed w) {i : Nat} {x : Answer} (hs : w.segment i x = some w') :
    Managed w' := by
  obtain ⟨task, s, progress, -, -, rfl⟩ := segment_eq_some hs
  refine ⟨fun conf handle hhandle => ?_, h.known⟩
  obtain ⟨conn, hconn, hconf, hcancelled⟩ := h.noted conf handle hhandle
  dsimp only
  rw [connections_segment, List.getElem?_map, hconn]
  refine ⟨_, rfl, ?_⟩
  rcases linked_cases task x i conn with heq | ⟨m, -, heq⟩ <;> rw [heq]
  · exact ⟨hconf, hcancelled⟩
  · exact ⟨hconf, hcancelled⟩

/-- **A segment keeps the monoliths supervised exactly if it drops none for which the task of a
discovered one carries messages.** -/
theorem supervised_segment_iff (h : Supervised w) {i : Nat} {x : Answer}
    (hs : w.segment i x = some w') : Supervised w' ↔ Supervises w (.segment i x) := by
  obtain ⟨task, s, progress, htask, hres, rfl⟩ := segment_eq_some hs
  rw [connections_segment]
  have hconnected : ∀ m, s.ctx.Connected m ↔
      Connections.joined task x = some m ∨ (w.ctx.Connected m ∧ dropped task ≠ some m) := by
    rw [segment_ctx hres]
    exact contextAfter_connected w.ctx task x
  have hcurrent : ∀ conf, ({ w with
      pool := ⟨s, w.pool.tasks.set i progress⟩
      connections := w.connections.map (linked task x i) } : World).current conf =
        (w.current conf).map (linked task x i) := by
    intro conf
    unfold World.current
    dsimp only
    cases w.connectionTasks.get? conf with
    | none => rfl
    | some handle => exact List.getElem?_map
  constructor
  · intro h' task' htask' m hm conf hconf conn hconn hphase
    rw [htask] at htask'
    cases htask'
    obtain ⟨conn', hconn', -, hlinked⟩ := h'.tasks conf hconf
    rw [hcurrent, hconn, Option.map_some, Option.some.injEq] at hconn'
    subst hconn'
    have hno := joined_of_dropped x hm
    have hkept : linked task x i conn = conn := by
      unfold linked
      rw [hno]
    rw [hkept] at hlinked
    have hstill := (hconnected m).mp (hlinked m hphase)
    rw [hno, hm] at hstill
    simp at hstill
  · intro hok
    refine ⟨fun conf hconf => ?_, fun conn' hconn' hended => ?_⟩
    · obtain ⟨conn, hconn, hphase, hlinked⟩ := h.tasks conf hconf
      rw [hcurrent, hconn]
      refine ⟨_, rfl, ?_⟩
      rcases linked_cases task x i conn with heq | ⟨m, hm, heq⟩ <;> rw [heq]
      · refine ⟨hphase, fun m hm => (hconnected m).mpr (.inr ⟨hlinked m hm, fun hdropped => ?_⟩)⟩
        exact hok task htask m hdropped conf hconf conn hconn hm
      · refine ⟨nofun, fun m' hm' => (hconnected m').mpr (.inl ?_)⟩
        cases hm'
        exact hm
    · obtain ⟨conn, hconn, rfl⟩ := List.mem_map.mp hconn'
      rcases linked_cases task x i conn with heq | ⟨m, -, heq⟩ <;> rw [heq] at hended ⊢
      · exact h.cancelled conn hconn hended
      · cases hended

/-! ## Every run -/

theorem step_managed {e : Event} (h : Managed w) (hs : system.step w e = some w') : Managed w' := by
  change w.step e = some w' at hs
  cases e with
  | discover msg =>
    simp only [World.step] at hs
    split at hs <;> cases hs
    exact h.doConnectionJob _ _
  | joined =>
    simp only [World.step] at hs
    split at hs
    · split at hs <;> cases hs
      exact h.doConnectionJob _ _
    · cases hs
  | connection handle outcome => exact h.connection hs
  | client call =>
    simp only [World.step] at hs
    split at hs <;> cases hs
    · exact ⟨h.noted, h.known⟩
    · exact ⟨h.noted, h.known⟩
  | segment i x => exact h.segment hs

theorem step_supervised_iff {e : Event} (hw : Managed w) (h : Supervised w)
    (hs : system.step w e = some w') : Supervised w' ↔ Supervises w e := by
  change w.step e = some w' at hs
  cases e with
  | discover msg =>
    simp only [World.step] at hs
    split at hs <;> cases hs
    exact iff_of_true (h.doConnectionJob hw _ _) trivial
  | joined =>
    simp only [World.step] at hs
    split at hs
    · split at hs <;> cases hs
      exact iff_of_true (h.doConnectionJob hw _ _) trivial
    · cases hs
  | connection handle outcome => exact supervised_connection_iff h hw hs
  | client call =>
    simp only [World.step] at hs
    split at hs <;> cases hs
    · exact iff_of_true ⟨h.tasks, h.cancelled⟩ trivial
    · exact iff_of_true ⟨h.tasks, h.cancelled⟩ trivial
  | segment i x => exact supervised_segment_iff h hs

/-- **Every discovered monolith stays supervised throughout a run exactly if no task returns out of
the handshake that was not cancelled, and the balancer never drops a monolith for which the task of a
discovered one carries messages.** -/
theorem supervised_throughout_iff (region : Region) (es : List Event) :
    system.Always Supervised (.init region) es ↔ system.Along Supervises (.init region) es := by
  refine Machine.always_iff_along_of_step (I := Managed) (fun _ _ _ h hs => step_managed h hs)
    (fun _ _ _ hw h hs => step_supervised_iff hw h hs) ?_ ?_
  · exact ⟨fun _ _ h => (by cases h), fun _ h => (by cases h)⟩
  · exact ⟨fun _ h => (by cases h), fun _ h => (by cases h)⟩

/-- A monolith that is found, and connected to. -/
def found : ConnectionConfig := ⟨.host "monolith", 3002⟩

/-- The first message of the monolith does not come in time, and nobody connects to it again. -/
theorem not_supervised_throughout :
    ¬ ∀ (region : Region) (es : List Event), system.Always Supervised (.init region) es := by
  intro h
  have hrun : ∃ w ∈ system.run (.init "local") [.discover ⟨[found], []⟩,
      .connection 0 (.connect true), .connection 0 (.introduced true),
      .connection 0 (.reply .missing true)],
      w.connections = [⟨found, .ended, false⟩] := by
    decide +kernel
  obtain ⟨w, hw, hconnections⟩ := hrun
  have hsupervised := (h "local" _).last hw
  have hcancelled := hsupervised.cancelled ⟨found, .ended, false⟩
    (by rw [hconnections]; exact List.mem_singleton.mpr rfl) rfl
  cases hcancelled

end Supervision

end OpenTogetherTube.Balancer
