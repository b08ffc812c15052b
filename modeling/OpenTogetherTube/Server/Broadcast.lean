import OpenTogetherTube.Common.Serialize
import OpenTogetherTube.Lib.OrderedMap
import OpenTogetherTube.Server.VideoQueue

/-!
# Broadcasts and announcements

A client is connected by a socket of its own, or through a balancer. What is broadcast to a room goes
to each direct client, and once over each connection to a balancer that has a client in the room: the
balancer passes it on. `broadcast` collects the **ids** of the balancers, and looks the connections up
again; a balancer that has reconnected is registered twice under one id, and only the first of the two
is found. `reaches_iff` says that this is what can go wrong, besides a client that has joined twice.

An announcement is sent to each client by `sendRaw`, which throws for a client of a balancer.
-/

namespace OpenTogetherTube.Server.Broadcast

open OpenTogetherTube.Common OpenTogetherTube.Lib

/-- A client, and where messages for it are sent: objects, all of them. -/
inductive Client where
  | direct (client : ObjectId)
  | balancer (client : ObjectId) (conn : ObjectId)
  deriving DecidableEq, Repr

/-- The object that a client is. -/
def Client.object : Client → ObjectId
  | .direct object => object
  | .balancer object _ => object

def Client.isDirect : Client → Bool
  | .direct _ => true
  | .balancer _ _ => false

def Client.conn? : Client → Option ObjectId
  | .direct _ => none
  | .balancer _ conn => some conn

/-- The `BalancerManager`: `id` is a property of a connection, which its balancer has announced. -/
structure Balancers where
  id : ObjectId → String
  balancerConnections : List ObjectId

/-- The first that is registered with the id. -/
def Balancers.getConnection (b : Balancers) (id : String) : Option ObjectId :=
  b.balancerConnections.find? (fun conn => b.id conn = id)

/-- A text that was sent, by the socket of a client or of a connection. -/
inductive Delivery (τ : Type) where
  | client (client : Client) (text : τ)
  | connection (conn : ObjectId) (text : τ)
  deriving DecidableEq

inductive SendError where
  | socket
  | notImplemented
  deriving DecidableEq, Repr

/-- `try … catch`: an error is logged. -/
def logged {ε α : Type} : Except ε α → Option α
  | .ok a => some a
  | .error _ => none

section Send

variable {τ : Type} (fails : ObjectId → Bool)

/-- `client.sendRaw(text)`. -/
def Client.sendRaw (text : τ) : Client → Except SendError (Delivery τ)
  | .direct object => if fails object then .error .socket else .ok (.client (.direct object) text)
  | .balancer _ _ => .error .notImplemented

/-- `conn.send(message)`. Errors are part of what it returns. -/
def sendMessage (conn : ObjectId) (text : τ) : Except SendError (Delivery τ) :=
  if fails conn then .error .socket else .ok (.connection conn text)

end Send

/-! ## Broadcasts -/

/-- The message to a balancer. -/
def roomMsg (room : String) (msg : JsValue) : JsValue :=
  .obj [("type", .str "room_msg"), ("payload", .obj [("room", .str room), ("payload", msg)])]

/-- The ids in `balancers`, in the order in which they are added. -/
def balancerIds (b : Balancers) (clients : List Client) : OrderedSet String :=
  .ofList ((clients.filterMap Client.conn?).map b.id)

/-- The deliveries, each with what is read from its text. -/
def broadcast (fails : ObjectId → Bool) (b : Balancers) (clients : List Client) (room : String)
    (msg : JsValue) : List (Delivery Value) :=
  let text := msg.stringify
  clients.filterMap (fun client => match client with
    | .balancer _ _ => none
    | client => logged (client.sendRaw fails text)) ++
  (balancerIds b clients).toList.filterMap (fun id =>
    (b.getConnection id).bind (fun conn =>
      logged (sendMessage fails conn (roomMsg room msg).stringify)))

def onAnnouncement (fails : ObjectId → Bool) (connections : List Client) (text : String) :
    List (Delivery String) :=
  connections.filterMap (fun client => logged (client.sendRaw fails text))

/-! ## The specification -/

/-- What the receiver of a delivery takes for the message. -/
def Delivery.payload : Delivery Value → Value
  | .client _ text => text
  | .connection _ text =>
    (text.bind (fun message => message.get? "payload")).bind (fun payload => payload.get? "payload")

def Delivery.client? {τ : Type} : Delivery τ → Option Client
  | .client receiver _ => some receiver
  | .connection _ _ => none

def Delivery.conn? {τ : Type} : Delivery τ → Option ObjectId
  | .client _ _ => none
  | .connection object _ => some object

/-- **The purpose of a broadcast**, whatever sends fail for others: one message to each direct client
that is in the room, one over each connection that has a client in it, none elsewhere, and all with the
same payload. -/
structure Reaches (b : Balancers) (clients : List Client) (room : String) (msg : JsValue)
    (fails : ObjectId → Bool) : Prop where
  direct : ∀ client, fails client.object = false →
    ((broadcast fails b clients room msg).filterMap Delivery.client?).count client =
      if client ∈ clients.filter Client.isDirect then 1 else 0
  balancer : ∀ conn, fails conn = false →
    ((broadcast fails b clients room msg).filterMap Delivery.conn?).count conn =
      if conn ∈ clients.filterMap Client.conn? then 1 else 0
  payload : ∀ d ∈ broadcast fails b clients room msg, d.payload = msg.stringify

/-- **The purpose of an announcement**: its text is delivered once to every client there is. -/
def Announces (connections : List Client) (text : String) (fails : ObjectId → Bool) : Prop :=
  ∀ client ∈ connections, fails client.object = false →
    (onAnnouncement fails connections text).count (.client client text) = 1

/-! ### The condition -/

/-- No direct client is there twice. -/
def ListedOnce (clients : List Client) : Prop := (clients.filter Client.isDirect).Nodup

/-- The connections are those that are found under their ids. -/
def Found (b : Balancers) (clients : List Client) : Prop :=
  ∀ conn ∈ clients.filterMap Client.conn?, b.getConnection (b.id conn) = some conn

/-- Nobody is connected through a balancer. -/
def AllDirect (connections : List Client) : Prop := ∀ client ∈ connections, client.isDirect = true

/-! ## The text -/

/-- **Both texts have the same payload**, whatever values are in the message. -/
theorem payload_roomMsg (conn : ObjectId) (room : String) (msg : JsValue) :
    (Delivery.connection conn (roomMsg room msg).stringify).payload = msg.stringify := by
  have hpayload : ∀ (name : String) (first inner : JsValue), name ≠ "payload" →
      (Json.obj (JsValue.stringifyFields [(name, first), ("payload", inner)])).get? "payload" =
        inner.stringify :=
    fun name first inner hname => JsValue.get?_stringifyFields (by simpa using hname) (by simp)
  rw [roomMsg, JsValue.stringify, Delivery.payload, Option.bind_some,
    hpayload "type" _ _ (by decide), JsValue.stringify, Option.bind_some,
    hpayload "room" _ _ (by decide)]

/-! ## Who is reached -/

theorem id_of_getConnection {b : Balancers} {id : String} {conn : ObjectId}
    (h : b.getConnection id = some conn) : b.id conn = id := by
  have hfound := List.find?_some (p := fun conn => decide (b.id conn = id)) h
  exact of_decide_eq_true hfound

section Sends

variable {fails : ObjectId → Bool} {b : Balancers} {clients : List Client} {room : String}
  {msg : JsValue} {τ : Type}

theorem mem_balancerIds {id : String} : id ∈ (balancerIds b clients).toList ↔
    ∃ conn ∈ clients.filterMap Client.conn?, b.id conn = id := by
  rw [balancerIds, OrderedSet.mem_ofList, List.mem_map]

/-- The loop over clients reaches the direct ones. -/
theorem sends_eq (text : τ) (clients : List Client) :
    clients.filterMap (fun client => logged (client.sendRaw fails text)) =
      ((clients.filter Client.isDirect).filter (fun client => !fails client.object)).map
        (fun client => .client client text) := by
  induction clients with
  | nil => rfl
  | cons client clients ih =>
    cases client with
    | direct object =>
      rw [List.filter_cons_of_pos (show Client.isDirect (.direct object) = true from rfl)]
      cases hfails : fails object with
      | true =>
        have hcaught : logged (Client.sendRaw fails text (.direct object)) = none := by
          rw [Client.sendRaw, if_pos hfails]
          rfl
        rw [List.filter_cons_of_neg (by simp [Client.object, hfails]), ← ih]
        simp only [List.filterMap_cons, hcaught]
      | false =>
        have hsent : logged (Client.sendRaw fails text (.direct object)) =
            some (.client (.direct object) text) := by
          rw [Client.sendRaw, if_neg (by simp [hfails])]
          rfl
        rw [List.filter_cons_of_pos (by simp [Client.object, hfails]), List.map_cons, ← ih]
        simp only [List.filterMap_cons, hsent]
    | balancer object conn =>
      rw [List.filter_cons_of_neg Bool.false_ne_true, ← ih]
      rfl

/-- What is broadcast to direct clients is sent by the same loop. -/
theorem broadcast_eq : broadcast fails b clients room msg =
    clients.filterMap (fun client => logged (client.sendRaw fails msg.stringify)) ++
      (balancerIds b clients).toList.filterMap (fun id => (b.getConnection id).bind (fun conn =>
        logged (sendMessage fails conn (roomMsg room msg).stringify))) := by
  unfold broadcast
  dsimp only
  congr 2
  funext client
  cases client <;> rfl

/-- **Direct clients get a message for each time they are in the list.** -/
theorem broadcast_client? : (broadcast fails b clients room msg).filterMap Delivery.client? =
    (clients.filter Client.isDirect).filter (fun client => !fails client.object) := by
  have hconnections : ∀ ids : List String, (ids.filterMap (fun id => (b.getConnection id).bind
      (fun conn => logged (sendMessage fails conn (roomMsg room msg).stringify)))).filterMap
        Delivery.client? = [] := by
    intro ids
    rw [List.filterMap_filterMap, List.filterMap_eq_nil_iff]
    intro id _
    cases b.getConnection id with
    | none => rfl
    | some conn => cases hfails : fails conn <;> simp [sendMessage, logged, hfails, Delivery.client?]
  rw [broadcast_eq, List.filterMap_append, hconnections, List.append_nil, sends_eq,
    List.filterMap_map]
  exact List.filterMap_some

/-- **Connections get one message if they are found under the id of one that has a client.** -/
theorem count_broadcast_conn? {conn : ObjectId} (hworks : fails conn = false) :
    ((broadcast fails b clients room msg).filterMap Delivery.conn?).count conn =
      if b.getConnection (b.id conn) = some conn ∧ b.id conn ∈ (balancerIds b clients).toList then 1
      else 0 := by
  have hsent : ∀ id, (((b.getConnection id).bind (fun conn =>
      logged (sendMessage fails conn (roomMsg room msg).stringify))).bind Delivery.conn? ==
        some conn) = (decide (b.getConnection (b.id conn) = some conn) && id == b.id conn) := by
    intro id
    rw [Bool.eq_iff_iff, beq_iff_eq, Bool.and_eq_true, decide_eq_true_iff, beq_iff_eq]
    constructor
    · intro hsent
      obtain ⟨d, hd, hconn⟩ := Option.bind_eq_some_iff.mp hsent
      obtain ⟨conn', hfound, hd⟩ := Option.bind_eq_some_iff.mp hd
      have hid : b.id conn' = id := id_of_getConnection hfound
      have hsame : conn' = conn := by
        unfold sendMessage at hd
        split at hd
        · cases hd
        · cases hd
          exact Option.some.inj hconn
      subst hsame
      exact ⟨hid ▸ hfound, hid.symm⟩
    · rintro ⟨hfound, rfl⟩
      simp [hfound, sendMessage, hworks, logged, Delivery.conn?]
  have hdirect : ∀ l : List Client,
      l.filterMap (Delivery.conn? ∘ fun client => .client client msg.stringify) = [] := by
    intro l
    rw [List.filterMap_eq_nil_iff]
    exact fun _ _ => rfl
  rw [broadcast_eq, List.filterMap_append, sends_eq, List.filterMap_map,
    hdirect, List.nil_append, List.filterMap_filterMap, List.count_filterMap]
  simp only [hsent]
  by_cases hfound : b.getConnection (b.id conn) = some conn
  · simp only [hfound, decide_true, Bool.true_and, true_and]
    exact List.Nodup.count (balancerIds b clients).nodupKeys
  · simp [hfound]

/-- **Who is reached by broadcasts.** -/
theorem reaches_iff (b : Balancers) (clients : List Client) (room : String) (msg : JsValue) :
    (∀ fails, Reaches b clients room msg fails) ↔ ListedOnce clients ∧ Found b clients := by
  constructor
  · intro h
    have hworks := h (fun _ => false)
    constructor
    · rw [ListedOnce, List.nodup_iff_count_eq_one]
      intro client hclient
      have hcount := hworks.direct client rfl
      rw [if_pos hclient, broadcast_client?, List.count_filter rfl] at hcount
      exact hcount
    · intro conn hconn
      have hcount := hworks.balancer conn rfl
      rw [if_pos hconn, count_broadcast_conn? rfl] at hcount
      by_contra hlost
      rw [if_neg (fun hfound => hlost hfound.1)] at hcount
      cases hcount
  · rintro ⟨hlisted, hfound⟩ fails
    refine ⟨fun client hworks => ?_, fun conn hworks => ?_, ?_⟩
    · rw [broadcast_client?, List.count_filter (by simp [hworks])]
      exact hlisted.count
    · rw [count_broadcast_conn? hworks]
      refine if_congr (Iff.intro ?_ ?_) rfl rfl
      · rintro ⟨hconn, hid⟩
        obtain ⟨conn', hclient, hsame⟩ := mem_balancerIds.mp hid
        have hconn' := hfound conn' hclient
        rw [hsame, hconn] at hconn'
        cases hconn'
        exact hclient
      · intro hclient
        exact ⟨hfound conn hclient, mem_balancerIds.mpr ⟨conn, hclient, rfl⟩⟩
    · intro d hd
      rw [broadcast_eq, sends_eq, List.mem_append, List.mem_map, List.mem_filterMap] at hd
      obtain ⟨client, -, rfl⟩ | ⟨id, -, hsent⟩ := hd
      · rfl
      · obtain ⟨conn, -, hsent⟩ := Option.bind_eq_some_iff.mp hsent
        unfold sendMessage at hsent
        split at hsent <;> cases hsent
        exact payload_roomMsg conn room msg

/-- **Who is reached by announcements.** -/
theorem announces_iff (connections : List Client) (text : String) :
    (∀ fails, Announces connections text fails) ↔
      ListedOnce connections ∧ AllDirect connections := by
  have hcount : ∀ (fails : ObjectId → Bool) (client : Client), fails client.object = false →
      (onAnnouncement fails connections text).count (.client client text) =
        (connections.filter Client.isDirect).count client := by
    intro fails client hworks
    have hinjective : Function.Injective (fun client => Delivery.client client text) := by
      intro client client' hsame
      cases hsame
      rfl
    rw [onAnnouncement, sends_eq, List.count_map_of_injective _ _ hinjective,
      List.count_filter (by simp [hworks])]
  constructor
  · intro h
    have honce : ∀ client ∈ connections, (connections.filter Client.isDirect).count client = 1 :=
      fun client hclient => (hcount _ client rfl).symm.trans (h (fun _ => false) client hclient rfl)
    constructor
    · rw [ListedOnce, List.nodup_iff_count_eq_one]
      exact fun client hclient => honce client (List.mem_of_mem_filter hclient)
    · intro client hclient
      have hmem : client ∈ connections.filter Client.isDirect := by
        rw [← List.count_pos_iff, honce client hclient]
        exact Nat.one_pos
      exact List.of_mem_filter hmem
  · rintro ⟨hlisted, hdirect⟩ fails client hclient hworks
    rw [hcount fails client hworks]
    exact List.nodup_iff_count_eq_one.mp hlisted client
      (List.mem_filter.mpr ⟨hclient, hdirect client hclient⟩)

/-- **Broadcasts and announcements reach everyone once** exactly if nobody is listed twice, the
connections to balancers are found under their ids, and announcements have no client of a balancer to
reach. -/
theorem reach_everyone_iff (b : Balancers) (clients connections : List Client) (room : String)
    (msg : JsValue) (text : String) :
    (∀ fails, Reaches b clients room msg fails ∧ Announces connections text fails) ↔
      (ListedOnce clients ∧ Found b clients) ∧ ListedOnce connections ∧ AllDirect connections := by
  rw [forall_and, reaches_iff, announces_iff]

/-- A balancer that has reconnected, before the end of its first connection was noticed. -/
def reconnected : Balancers := ⟨fun _ => "balancer", [1, 2]⟩

/-- **What is broadcast to a client on the second connection goes over the first.** -/
theorem not_reach_everyone :
    ¬ ∀ (b : Balancers) (clients connections : List Client) (room : String) (msg : JsValue)
      (text : String) (fails : ObjectId → Bool),
      Reaches b clients room msg fails ∧ Announces connections text fails := by
  intro h
  have hreaches := (h reconnected [.balancer 3 2] [] "foo" .null "" (fun _ => false)).1
  have hcount := hreaches.balancer 2 rfl
  have hlost : ((broadcast (fun _ => false) reconnected [.balancer 3 2] "foo" .null).filterMap
      Delivery.conn?).count 2 = 0 := by
    rw [count_broadcast_conn? rfl, if_neg]
    exact fun hfound => absurd hfound.1 (by decide)
  rw [hlost] at hcount
  exact absurd hcount (by decide)

end Sends

end OpenTogetherTube.Server.Broadcast
