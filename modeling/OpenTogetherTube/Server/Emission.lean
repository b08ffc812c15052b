import OpenTogetherTube.Lib.Machine
import OpenTogetherTube.Server.Protocol

/-!
# What a monolith tells the balancers

Rooms come into the room manager's array before Redis has given them a load epoch, and are taken out
again by name; their settings are whatever was stored or a client has applied; and a client names the
reason for its own kick. All of this goes into messages to the balancers, which are built here from a
state that changes between any two of them.

A load is two steps (`addRoom`, and what follows the answer of `INCR`), and so is its announcement,
since `onRoomLoad` looks the room up and awaits before it builds the message. Everything else happens
in one step. A message is noted once, however many balancers it goes to.

`decodable_throughout` says in which runs the balancers can read every message.
-/

namespace OpenTogetherTube.Server.Emission

open OpenTogetherTube.Lib Json Protocol
open RoomManager (UnloadReason)

/-- What the monolith runs on. `isUuid` is whether the balancer takes a string as a UUID, `isText`
whether it has one for a string. -/
structure Config where
  toLowerCase : String → String
  port : Fin (2 ^ 16)
  region : String
  isUuid : String → Bool
  isText : String → Bool
  isText_default : ∀ s ∈ ["", "manual"], isText s = true
  monolithId : {id : String // isUuid id = true}

inductive OttWebsocketError where
  | AWAY | UNKNOWN | INVALID_CONNECTION_URL | ROOM_NOT_FOUND | ROOM_UNLOADED | MISSING_TOKEN | KICKED
  deriving DecidableEq, Repr

def OttWebsocketError.code : OttWebsocketError → Nat
  | .AWAY => 1001
  | .UNKNOWN => 4000
  | .INVALID_CONNECTION_URL => 4001
  | .ROOM_NOT_FOUND => 4002
  | .ROOM_UNLOADED => 4003
  | .MISSING_TOKEN => 4004
  | .KICKED => 4005

/-- Why a client is kicked: for one of these reasons, or from the development API. -/
inductive KickCode where
  | error (e : OttWebsocketError)
  | forceDisconnect
  deriving DecidableEq, Repr

def KickCode.code : KickCode → Nat
  | .error e => e.code
  | .forceDisconnect => 1000

/-- `msg.reason ?? OttWebsocketError.UNKNOWN`. -/
def kickReason (msg : Json) : Json :=
  match msg.get? "reason" with
  | none | some .null => .num (.ofNat OttWebsocketError.UNKNOWN.code)
  | some reason => reason

/-! ## The monolith -/

/-- Rooms are objects, and the array refers to them. `loading` are those that wait for their `INCR`,
`announcing` those that `onRoomLoad` has looked up, `clients` all clients of balancers that have
joined, and `sent` is the history of the messages. -/
structure State where
  objects : List Protocol.Room
  rooms : List Nat
  loading : List Nat
  announcing : List Nat
  clients : List String
  sent : List Json

def State.init : State := ⟨[], [], [], [], [], []⟩

inductive Event where
  /-- A balancer connects. -/
  | preconnect
  | addRoom (name : String) (options : List (String × Json))
  | incr (room epoch : Nat)
  | onRoomLoad (room : Nat)
  | unloadRoom (room : Nat) (reason : UnloadReason)
  | gossip
  | applySettings (room : Nat) (settings : Json)
  | setCurrentSource (room : Nat) (source : Json)
  | setUsers (room users : Nat)
  /-- A balancer has sent `B2MJoin`. -/
  | join (client : String)
  /-- A balancer has passed a client's message on. -/
  | clientMsg (client : String) (msg : Json)
  | kick (client : String) (code : KickCode)
  | send (client room : String) (msg : Json)
  | broadcast (room : String) (msg : Json)

/-- `new Room(options)`: what is picked out of the options replaces the defaults. -/
def newRoom (name : String) (options : List (String × Json)) : Protocol.Room :=
  let picked (field : String) (default : Json) : Json := (get? (.obj options) field).getD default
  { name := name
    title := picked "title" (.str "")
    description := picked "description" (.str "")
    isTemporary := picked "isTemporary" (.bool false)
    visibility := picked "visibility" (.str "unlisted")
    queueMode := picked "queueMode" (.str "manual")
    currentSource := picked "currentSource" .null
    users := 0
    loadEpoch := -1 }

/-- The settings that a balancer is told. Nothing asks what values they are. -/
def applySettings (room : Protocol.Room) (settings : Json) : Protocol.Room := { room with
  title := (settings.get? "title").getD room.title
  description := (settings.get? "description").getD room.description
  visibility := (settings.get? "visibility").getD room.visibility
  queueMode := (settings.get? "queueMode").getD room.queueMode }

namespace State

variable (c : Config)

/-- The rooms of the array. -/
def listed (s : State) : List Protocol.Room := s.rooms.filterMap (fun i => s.objects[i]?)

def emit (s : State) (message : Json) : State := { s with sent := s.sent ++ [message] }

def modify (s : State) (room : Nat) (f : Protocol.Room → Protocol.Room) : State :=
  { s with objects := s.objects.modify room f }

/-- `getRoom` of a room that must be loaded already. -/
def find (s : State) (name : String) : Option Nat :=
  s.rooms.find? (fun i => s.objects[i]?.any (fun room =>
    c.toLowerCase room.name = c.toLowerCase name))

/-- The room is pushed before the `INCR` is awaited. -/
def addRoom (s : State) (name : String) (options : List (String × Json)) : State := { s with
  objects := s.objects ++ [newRoom name options]
  rooms := s.rooms ++ [s.objects.length]
  loading := s.loading ++ [s.objects.length] }

/-- The epoch is there, and `load` is emitted. -/
def incr (s : State) (room epoch : Nat) : Option State :=
  match s.objects[room]? with
  | some r =>
    if room ∈ s.loading then
      let s := { s.modify room (fun r => { r with loadEpoch := epoch }) with
        loading := s.loading.filter (fun i => i ≠ room) }
      some { s with announcing := s.announcing ++ (s.find c r.name).toList }
    else none
  | none => none

def onRoomLoad (s : State) (room : Nat) : Option State :=
  match s.objects[room]? with
  | some r =>
    if room ∈ s.announcing then
      some ({ s with announcing := s.announcing.erase room }.emit (loadedMessage r))
    else none
  | none => none

def unloadRoom (s : State) (room : Nat) (reason : UnloadReason) : Option State :=
  match s.objects[room]? with
  | some r =>
    some ({ s with rooms := s.rooms.erase room }.emit (unloadedMessage r.name reason))
  | none => none

def kick (s : State) (client : String) (reason : Json) : Option State :=
  if client ∈ s.clients then some (s.emit (kickMessage client reason)) else none

/-- `onClientMessage`, where it is about a kick. -/
def clientMsg (s : State) (client : String) (msg : Json) : Option State :=
  if string? (msg.get? "action") = some "kickme" then s.kick client (kickReason msg) else none

def step (s : State) : Event → Option State
  | .preconnect => some (s.emit (initMessage c.port c.region c.monolithId))
  | .addRoom name options => some (s.addRoom name options)
  | .incr room epoch => s.incr c room epoch
  | .onRoomLoad room => s.onRoomLoad room
  | .unloadRoom room reason => s.unloadRoom room reason
  | .gossip => some (s.emit (gossipMessage s.listed))
  | .applySettings room settings => some (s.modify room (fun r => Emission.applySettings r settings))
  | .setCurrentSource room source =>
    some (s.modify room (fun r => { r with currentSource := source }))
  | .setUsers room users => some (s.modify room (fun r => { r with users := users }))
  -- the id is that of a client of the balancer
  | .join client => if c.isUuid client then some { s with clients := s.clients ++ [client] } else none
  | .clientMsg client msg => s.clientMsg client msg
  | .kick client code => s.kick client (.num (.ofNat code.code))
  | .send client room msg =>
    if client ∈ s.clients then some (s.emit (roomMsgMessage room (some client) msg)) else none
  | .broadcast room msg => some (s.emit (roomMsgMessage room none msg))

end State

def monolith (c : Config) : Machine State Event := ⟨State.step c⟩

/-! ## The specification -/

section Specification

variable (c : Config)

/-- The balancers can read every message. -/
def Decodable (s : State) : Prop := ∀ message ∈ s.sent, Decodes c.isUuid c.isText message

/-- A value can be read wherever it is sent: its strings are text, and it is not nested deeper than a
gossip allows. -/
def IsValue (v : Json) : Prop := (asValue c.isText (recursionLimit - 5) v).isSome

/-- What replaces the visibility, and the values of the given names, can be read. -/
def SetsKnown (names : List String) (v : Json) : Prop :=
  (∀ visibility ∈ v.get? "visibility", KnownVisibility visibility) ∧
    ∀ name ∈ names, ∀ value ∈ v.get? name, IsValue c value

/-- The condition on a step.

* A visibility that was stored, or that a client applies, is one of the three, and the other values
  are ones that can be read.
* Redis counts to less than `2 ^ 32`.
* A room that is announced, and every room of a gossip, has been given its epoch.
* A client that asks to be kicked names no reason, or one that has 16 bits. -/
def KeepsDecodable (s : State) : Event → Prop
  | .addRoom _ options =>
    SetsKnown c ["title", "description", "isTemporary", "queueMode", "currentSource"] (.obj options)
  | .applySettings _ settings => SetsKnown c ["title", "description", "queueMode"] settings
  | .setCurrentSource _ source => IsValue c source
  | .incr _ epoch => epoch < 2 ^ 32
  | .onRoomLoad room => room ∉ s.loading
  | .gossip => ∀ room ∈ s.rooms, room ∉ s.loading
  | .clientMsg _ msg => string? (msg.get? "action") = some "kickme" →
      ∀ reason ∈ msg.get? "reason", reason.isNull = true ∨ KickReason reason
  | _ => True

instance (v : Json) : Decidable (IsValue c v) := inferInstanceAs (Decidable (_ = true))

instance (names : List String) (v : Json) : Decidable (SetsKnown c names v) :=
  inferInstanceAs (Decidable ((∀ visibility ∈ v.get? "visibility", _) ∧
    ∀ name ∈ names, ∀ value ∈ v.get? name, _))

instance (s : State) : (e : Event) → Decidable (KeepsDecodable c s e)
  | .addRoom _ options => inferInstanceAs (Decidable (SetsKnown c _ (.obj options)))
  | .applySettings _ settings => inferInstanceAs (Decidable (SetsKnown c _ settings))
  | .setCurrentSource _ source => inferInstanceAs (Decidable (IsValue c source))
  | .incr _ epoch => inferInstanceAs (Decidable (epoch < 2 ^ 32))
  | .onRoomLoad room => inferInstanceAs (Decidable (room ∉ s.loading))
  | .gossip => inferInstanceAs (Decidable (∀ room ∈ s.rooms, room ∉ s.loading))
  | .clientMsg _ msg => inferInstanceAs (Decidable (_ → ∀ reason ∈ msg.get? "reason", _))
  | .preconnect | .unloadRoom _ _ | .setUsers _ _ | .join _ | .kick _ _ | .send _ _ _
  | .broadcast _ _ => isTrue trivial

end Specification

/-! ## What holds in the monolith -/

/-- What is set of a room is known to the balancer. -/
def Known (c : Config) (room : Protocol.Room) : Prop :=
  KnownVisibility room.visibility ∧ ∀ v ∈ room.values, IsValue c v

/-- What was set is known to the balancer, and every room that is not loading has its epoch. -/
structure Sound (c : Config) (s : State) : Prop where
  known : ∀ (i : Nat) (room : Protocol.Room), s.objects[i]? = some room → Known c room
  epoch : ∀ (i : Nat) (room : Protocol.Room), s.objects[i]? = some room → i ∉ s.loading →
    EpochInRange room.loadEpoch
  clients : ∀ client ∈ s.clients, c.isUuid client = true
  sent : Decodable c s

variable {c : Config} {s s' : State}

theorem sound_init : Sound c .init := ⟨nofun, nofun, nofun, nofun⟩

/-- A message that can be read goes out. -/
theorem Sound.emit (h : Sound c s) {message : Json} (hm : Decodes c.isUuid c.isText message) :
    Sound c (s.emit message) := by
  refine ⟨h.known, h.epoch, h.clients, fun m hin => ?_⟩
  rcases List.mem_append.mp hin with hold | hnew
  · exact h.sent m hold
  · rw [List.mem_singleton.mp hnew]
    exact hm

/-- Which rooms are listed or looked up does not matter to what is known of them. -/
theorem Sound.listing (h : Sound c s) (rooms announcing : List Nat) :
    Sound c { s with rooms := rooms, announcing := announcing } :=
  ⟨h.known, h.epoch, h.clients, h.sent⟩

/-- A room changes, and nothing that the balancer may not know. -/
theorem Sound.modify (h : Sound c s) (room : Nat) {f : Protocol.Room → Protocol.Room}
    (hknown : ∀ r, Known c r → Known c (f r))
    (hepoch : ∀ r, (f r).loadEpoch = r.loadEpoch) : Sound c (s.modify room f) := by
  have hat : ∀ (i : Nat) (r' : Protocol.Room), (s.objects.modify room f)[i]? = some r' →
      ∃ r, s.objects[i]? = some r ∧ (r' = r ∨ r' = f r) := by
    intro i r' hi
    by_cases heq : room = i
    · subst heq
      rw [List.getElem?_modify_eq] at hi
      obtain ⟨r, hr, rfl⟩ := Option.map_eq_some_iff.mp hi
      exact ⟨r, hr, .inr rfl⟩
    · rw [List.getElem?_modify_ne _ _ heq] at hi
      exact ⟨r', hi, .inl rfl⟩
  refine ⟨fun i r' hi => ?_, fun i r' hi hloaded => ?_, h.clients, h.sent⟩
  · obtain ⟨r, hr, rfl | rfl⟩ := hat i r' hi
    · exact h.known i _ hr
    · exact hknown r (h.known i r hr)
  · obtain ⟨r, hr, rfl | rfl⟩ := hat i r' hi
    · exact h.epoch i _ hr hloaded
    · rw [hepoch]
      exact h.epoch i r hr hloaded

/-- A setting that is left alone, or is known. -/
theorem SetsKnown.getD {names : List String} {v default : Json} (h : SetsKnown c names v)
    (hdefault : KnownVisibility default) : KnownVisibility ((v.get? "visibility").getD default) := by
  cases hv : v.get? "visibility" with
  | none => exact hdefault
  | some visibility => exact h.1 visibility hv

theorem SetsKnown.value {names : List String} {v default : Json} (h : SetsKnown c names v)
    {name : String} (hname : name ∈ names) (hdefault : IsValue c default) :
    IsValue c ((v.get? name).getD default) := by
  cases hv : v.get? name with
  | none => exact hdefault
  | some value => exact h.2 name hname value hv

theorem Sound.addRoom (h : Sound c s) (name : String) {options : List (String × Json)}
    (hoptions : SetsKnown c ["title", "description", "isTemporary", "queueMode", "currentSource"]
      (.obj options)) : Sound c (s.addRoom name options) := by
  refine ⟨fun i room hi => ?_, fun i room hi hloaded => ?_, h.clients, h.sent⟩
  · change (s.objects ++ [newRoom name options])[i]? = some room at hi
    rw [List.getElem?_append] at hi
    split at hi
    · exact h.known i room hi
    · rw [List.getElem?_singleton] at hi
      split at hi <;> cases hi
      have htext : ∀ s ∈ ["", "manual"], IsValue c (.str s) := by
        intro s hs
        simp [IsValue, asValue, depth?, c.isText_default s hs, recursionLimit]
      refine ⟨hoptions.getD (by decide), fun v hv => ?_⟩
      simp only [newRoom, Protocol.Room.values, List.mem_cons, List.not_mem_nil, or_false] at hv
      rcases hv with rfl | rfl | rfl | rfl | rfl
      · exact hoptions.value (by decide) (htext _ (by decide))
      · exact hoptions.value (by decide) (htext _ (by decide))
      · exact hoptions.value (by decide) rfl
      · exact hoptions.value (by decide) (htext _ (by decide))
      · exact hoptions.value (by decide) rfl
  · change (s.objects ++ [newRoom name options])[i]? = some room at hi
    change i ∉ s.loading ++ [s.objects.length] at hloaded
    rw [List.mem_append, List.mem_singleton, not_or] at hloaded
    rw [List.getElem?_append] at hi
    split at hi
    · exact h.epoch i room hi hloaded.1
    · next hge =>
      rw [List.getElem?_singleton] at hi
      split at hi
      · omega
      · cases hi

/-- **The answer of `INCR` gives a room its epoch.** -/
theorem Sound.incr (h : Sound c s) {room epoch : Nat} (hepoch : epoch < 2 ^ 32)
    (hs : s.incr c room epoch = some s') : Sound c s' := by
  unfold State.incr at hs
  split at hs
  · split at hs <;> cases hs
    refine ⟨fun i r hi => ?_, fun i r hi hloaded => ?_, h.clients, h.sent⟩
    · change (s.objects.modify room _)[i]? = some r at hi
      by_cases heq : room = i
      · subst heq
        rw [List.getElem?_modify_eq] at hi
        obtain ⟨r', hr', rfl⟩ := Option.map_eq_some_iff.mp hi
        exact h.known room r' hr'
      · rw [List.getElem?_modify_ne _ _ heq] at hi
        exact h.known i r hi
    · change (s.objects.modify room _)[i]? = some r at hi
      change i ∉ s.loading.filter _ at hloaded
      by_cases heq : room = i
      · subst heq
        rw [List.getElem?_modify_eq] at hi
        obtain ⟨r', hr', rfl⟩ := Option.map_eq_some_iff.mp hi
        have hlt : (epoch : Int) < 2 ^ 32 := by exact_mod_cast hepoch
        exact ⟨Int.natCast_nonneg epoch, hlt⟩
      · rw [List.getElem?_modify_ne _ _ heq] at hi
        refine h.epoch i r hi fun hin => hloaded (List.mem_filter.mpr ⟨hin, ?_⟩)
        exact decide_eq_true (Ne.symm heq)
  · cases hs

theorem Sound.readable (h : Sound c s) {i : Nat} {room : Protocol.Room}
    (hi : s.objects[i]? = some room) (hloaded : i ∉ s.loading) :
    room.Readable c.isText (recursionLimit - 5) :=
  ⟨h.known i room hi, h.epoch i room hi hloaded⟩

theorem KickCode.kickReason (code : KickCode) : KickReason (.num (.ofNat code.code)) := by
  refine isSome_asUnsigned.mpr ⟨code.code, ?_, rfl⟩
  cases code with
  | error e => cases e <;> decide
  | forceDisconnect => decide

theorem Sound.kick (h : Sound c s) {client : String} {reason : Json} (hreason : KickReason reason)
    (hs : s.kick client reason = some s') : Sound c s' := by
  unfold State.kick at hs
  split at hs <;> cases hs
  next hclient => exact h.emit ((decodes_kick_iff reason (h.clients client hclient)).mpr hreason)

/-- The reason of a client that asks to be kicked. -/
theorem kickReason_ok {msg : Json}
    (h : ∀ reason ∈ msg.get? "reason", reason.isNull = true ∨ KickReason reason) :
    KickReason (Emission.kickReason msg) := by
  have hunknown : KickReason (.num (.ofNat OttWebsocketError.UNKNOWN.code)) :=
    KickCode.kickReason (.error .UNKNOWN)
  unfold Emission.kickReason
  split
  · exact hunknown
  · exact hunknown
  · next reason hne hreason =>
    rcases h reason hreason with hnull | hok
    · exact absurd (eq_null_of_isNull hnull) hne
    · exact hok

/-- **A step that meets the condition keeps every message readable.** -/
theorem step_sound {e : Event} (h : Sound c s) (hok : KeepsDecodable c s e)
    (hs : (monolith c).step s e = some s') : Sound c s' := by
  change s.step c e = some s' at hs
  cases e with
  | preconnect =>
    cases hs
    exact h.emit (decodes_init c.monolithId.2)
  | addRoom name options =>
    cases hs
    exact h.addRoom name hok
  | incr room epoch => exact h.incr hok hs
  | onRoomLoad room =>
    simp only [State.step, State.onRoomLoad] at hs
    split at hs
    · next r hr =>
      split at hs <;> cases hs
      exact (h.listing s.rooms (s.announcing.erase room)).emit
        ((decodes_loaded_iff r).mpr (h.readable hr hok).loaded)
    · cases hs
  | unloadRoom room reason =>
    simp only [State.step, State.unloadRoom] at hs
    split at hs <;> cases hs
    exact (h.listing (s.rooms.erase room) s.announcing).emit (decodes_unloaded _ reason)
  | gossip =>
    cases hs
    refine h.emit ((decodes_gossip_iff _).mpr fun r hr => ?_)
    obtain ⟨i, hi, hat⟩ := List.mem_filterMap.mp hr
    exact h.readable hat (hok i hi)
  | applySettings room settings =>
    cases hs
    refine h.modify room (fun r hr => ⟨hok.getD hr.1, fun v hv => ?_⟩) (fun _ => rfl)
    have hvalue : ∀ v ∈ r.values, IsValue c v := hr.2
    simp only [Emission.applySettings, Protocol.Room.values, List.mem_cons, List.not_mem_nil,
      or_false, forall_eq_or_imp, forall_eq] at hv hvalue
    obtain ⟨htitle, hdescription, hisTemporary, hqueueMode, hsource⟩ := hvalue
    rcases hv with rfl | rfl | rfl | rfl | rfl
    · exact hok.value (by decide) htitle
    · exact hok.value (by decide) hdescription
    · exact hisTemporary
    · exact hok.value (by decide) hqueueMode
    · exact hsource
  | setCurrentSource room source =>
    cases hs
    refine h.modify room (fun r hr => ⟨hr.1, fun v hv => ?_⟩) (fun _ => rfl)
    have hvalue : ∀ v ∈ r.values, IsValue c v := hr.2
    simp only [Protocol.Room.values, List.mem_cons, List.not_mem_nil, or_false, forall_eq_or_imp,
      forall_eq] at hv hvalue
    obtain ⟨htitle, hdescription, hisTemporary, hqueueMode, -⟩ := hvalue
    rcases hv with rfl | rfl | rfl | rfl | rfl
    · exact htitle
    · exact hdescription
    · exact hisTemporary
    · exact hqueueMode
    · exact hok
  | setUsers room users =>
    cases hs
    exact h.modify room (fun _ hr => hr) (fun _ => rfl)
  | join client =>
    simp only [State.step] at hs
    split at hs <;> cases hs
    next hid =>
    refine ⟨h.known, h.epoch, fun client' hin => ?_, h.sent⟩
    rcases List.mem_append.mp hin with hold | hnew
    · exact h.clients client' hold
    · rw [List.mem_singleton.mp hnew]
      exact hid
  | clientMsg client msg =>
    simp only [State.step, State.clientMsg] at hs
    split at hs
    · next haction => exact h.kick (kickReason_ok (hok haction)) hs
    · cases hs
  | kick client code => exact h.kick code.kickReason hs
  | send client room msg =>
    simp only [State.step] at hs
    split at hs <;> cases hs
    next hclient =>
    refine h.emit (decodes_roomMsg room msg ?_)
    rintro id ⟨⟩
    exact h.clients client hclient
  | broadcast room msg =>
    cases hs
    exact h.emit (decodes_roomMsg room msg nofun)

/-- **The balancers can read every message of a run whose visibilities are known, whose other values
can be read, whose epochs are in range, in which no room is announced or gossiped about that has no
epoch yet, and in which nobody asks to be kicked for a reason that is none.** -/
theorem decodable_throughout (c : Config) {es : List Event}
    (h : (monolith c).Along (KeepsDecodable c) .init es) :
    (monolith c).Always (Decodable c) .init es :=
  (Machine.always_of_along (fun _ _ _ hsound hok hs => step_sound hsound hok hs) sound_init h).imp
    fun _ hsound => hsound.sent

/-! ### Two runs -/

/-- A monolith whose balancers take every string as a UUID. -/
def anyConfig : Config :=
  ⟨fun name => name, ⟨3000, by decide⟩, "unknown", fun _ => true, fun _ => true, fun _ _ => rfl,
    ⟨"monolith", rfl⟩⟩

/-- A room is loaded, announced and changed, and a client kicks itself. -/
def loadAndKick : List Event :=
  [.preconnect, .addRoom "foo" [("visibility", .str "public")], .incr 0 7, .onRoomLoad 0,
    .applySettings 0 (.obj [("title", .arr [.null]), ("visibility", .str "private")]), .gossip, .join "client",
    .clientMsg "client" (.obj [("action", .str "kickme"), ("reason", .num (.ofNat 1000))])]

theorem decodable_throughout_loadAndKick :
    (monolith anyConfig).Always (Decodable anyConfig) .init loadAndKick :=
  decodable_throughout anyConfig (by decide +kernel)

/-- A gossip goes out while a room waits for its epoch. -/
theorem not_decodable_throughout :
    ¬ ∀ (c : Config) (es : List Event), (monolith c).Always (Decodable c) .init es := by
  intro h
  have hrun : ∃ s ∈ (monolith anyConfig).run .init [.addRoom "foo" [], .gossip],
      ∃ message ∈ s.sent, ¬ Decodes anyConfig.isUuid anyConfig.isText message := by
    decide +kernel
  obtain ⟨s, hs, message, hin, hnot⟩ := hrun
  exact hnot ((h anyConfig _).last hs message hin)

end OpenTogetherTube.Server.Emission
