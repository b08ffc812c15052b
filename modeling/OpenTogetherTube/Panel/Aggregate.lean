import OpenTogetherTube.Lib.PlainObject
import OpenTogetherTube.Panel.MergeTrees
import Mathlib.Algebra.BigOperators.Group.Multiset.Basic

/-!
# Aggregating the state of the system

Several balancers report the same monoliths and rooms. `dedupeRooms` merges the rooms of one name,
`dedupeMonoliths` the monoliths of one id with their rooms, and `countRoomClients` adds up the clients
of every room. All three add up the same clients (`clientsOf_dedupedRooms`,
`clientsOf_dedupedMonoliths`).

The counts are kept in a plain object, though, and a room may be called `constructor` or `__proto__`. A
count under a name that the object inherits is a text, or not even stored; under all other names it is
right (`conserves_iff`).
-/

namespace OpenTogetherTube.Panel.Aggregate

open OpenTogetherTube.Lib

/-! ## The state of the system -/

structure Client where
  id : String
  edgeRegion : String
  deriving DecidableEq, Repr

structure Room where
  name : String
  clients : List Client
  deriving DecidableEq, Repr

structure Monolith where
  id : String
  region : String
  rooms : List Room
  deriving DecidableEq, Repr

structure Balancer where
  id : String
  region : String
  monoliths : List Monolith
  deriving DecidableEq, Repr

abbrev SystemState := List Balancer

/-- `state.flatMap(b => b.monoliths)` -/
def allMonoliths (state : SystemState) : List Monolith := state.flatMap (·.monoliths)

/-- `state.flatMap(b => b.monoliths.flatMap(m => m.rooms))` -/
def allRooms (state : SystemState) : List Room :=
  state.flatMap (fun b => b.monoliths.flatMap (·.rooms))

/-! ## The aggregations -/

section Aggregations

def countRoomClients (functionText : String → String) (state : SystemState) : PlainObject :=
  state.foldl (fun roomClients balancer =>
    balancer.monoliths.foldl (fun roomClients monolith =>
      monolith.rooms.foldl (fun roomClients room =>
        roomClients.set room.name
          (plus functionText (roomClients.get room.name) room.clients.length)) roomClients)
      roomClients) ∅

def reduceRoom (rA rB : Room) : Except String Room :=
  if rA.name ≠ rB.name then .error "Cannot reduce rooms with different names"
  else .ok ⟨rA.name, rA.clients ++ rB.clients⟩

/-- What `dedupeItems` does with an item, where `reduce` may throw. -/
def addItem {T : Type} (getKey : T → String) (reduce : T → T → Except String T)
    (itemMap : OrderedMap String T) (item : T) : Except String (OrderedMap String T) :=
  match itemMap.get? (getKey item) with
  | none => .ok (itemMap.set (getKey item) item)
  | some existingItem => do
    let reduced ← reduce existingItem item
    return itemMap.set (getKey item) reduced

def dedupeItems {T : Type} (items : List T) (getKey : T → String)
    (reduce : T → T → Except String T) : Except String (List T) := do
  let itemMap ← items.foldlM (addItem getKey reduce) ∅
  return itemMap.values

def dedupeRooms (rooms : List Room) : Except String (List Room) :=
  dedupeItems rooms (fun room => room.name) reduceRoom

def reduceMonolith (mA mB : Monolith) : Except String Monolith :=
  if mA.id ≠ mB.id then .error "Cannot reduce monoliths with different ids"
  else do
    let rooms ← dedupeRooms (mA.rooms ++ mB.rooms)
    return ⟨mA.id, mA.region, rooms⟩

def dedupeMonoliths (monoliths : List Monolith) : Except String (List Monolith) :=
  dedupeItems monoliths (fun monolith => monolith.id) reduceMonolith

end Aggregations

/-- The clients of the rooms of a name. -/
def clientsOf (name : String) (rooms : List Room) : List Client :=
  (rooms.filter (fun room => room.name = name)).flatMap (·.clients)

/-- **What aggregating is to keep**: nothing is thrown, every name and every id is there once, in the
order of their first occurrences, and the clients of a room are as many as are counted. -/
structure Conserves (functionText : String → String) (state : SystemState) : Prop where
  rooms : ∃ rooms, dedupeRooms (allRooms state) = .ok rooms ∧
    rooms.map (·.name) = Levels.firsts ((allRooms state).map (·.name)) ∧
    ∀ room ∈ allRooms state, (countRoomClients functionText state).get room.name =
      some (.own (.number (clientsOf room.name rooms).length))
  monoliths : ∃ monoliths, dedupeMonoliths (allMonoliths state) = .ok monoliths ∧
    monoliths.map (·.id) = Levels.firsts ((allMonoliths state).map (·.id)) ∧
    ∀ room ∈ allRooms state, (countRoomClients functionText state).get room.name =
      some (.own (.number (clientsOf room.name (monoliths.flatMap (·.rooms))).length))

/-! ## Nothing is thrown -/

/-- Where items of one key can be reduced, nothing is thrown. -/
theorem dedupeItems_eq_ok {T : Type} {getKey : T → String} {reduce : T → T → Except String T}
    {merge : T → T → T} (hreduce : ∀ a b, getKey a = getKey b → reduce a b = .ok (merge a b))
    (hmerge : ∀ a b, getKey a = getKey b → getKey (merge a b) = getKey a) (items : List T) :
    dedupeItems items getKey reduce = .ok (MergeTrees.dedupeItems items getKey merge) := by
  have hfold : items.foldlM (addItem getKey reduce) ∅ = .ok (Grouping.group getKey merge items) := by
    induction items using List.reverseRecOn with
    | nil => rfl
    | append_singleton items item ih =>
      rw [List.foldlM_append, ih, Grouping.group_concat]
      show (addItem getKey reduce (Grouping.group getKey merge items) item >>= pure) = _
      rw [bind_pure]
      unfold addItem Grouping.insertWith
      cases hget : (Grouping.group getKey merge items).get? (getKey item) with
      | none => rfl
      | some existingItem =>
        have hkey := Grouping.key_of_get?_group hmerge hget
        dsimp only
        rw [hreduce existingItem item hkey]
        rfl
  rw [dedupeItems, hfold, MergeTrees.dedupeItems_eq]
  rfl

def mergeRoom (rA rB : Room) : Room := ⟨rA.name, rA.clients ++ rB.clients⟩

theorem reduceRoom_eq {rA rB : Room} (hname : rA.name = rB.name) :
    reduceRoom rA rB = .ok (mergeRoom rA rB) := if_neg (not_not.mpr hname)

theorem name_mergeRoom (rA rB : Room) (_ : rA.name = rB.name) : (mergeRoom rA rB).name = rA.name := rfl

/-- The rooms that are left. -/
def dedupedRooms (rooms : List Room) : List Room :=
  MergeTrees.dedupeItems rooms (fun room => room.name) mergeRoom

theorem dedupedRooms_eq (rooms : List Room) :
    dedupedRooms rooms = (Grouping.group Room.name mergeRoom rooms).values :=
  MergeTrees.dedupeItems_eq rooms Room.name mergeRoom

theorem dedupeRooms_eq (rooms : List Room) : dedupeRooms rooms = .ok (dedupedRooms rooms) :=
  @dedupeItems_eq_ok Room Room.name reduceRoom mergeRoom (fun _ _ hname => reduceRoom_eq hname)
    name_mergeRoom rooms

theorem names_dedupedRooms (rooms : List Room) :
    (dedupedRooms rooms).map Room.name = Levels.firsts (rooms.map Room.name) := by
  rw [dedupedRooms_eq]
  exact Grouping.map_key_values name_mergeRoom rooms

def mergeMonolith (mA mB : Monolith) : Monolith :=
  ⟨mA.id, mA.region, dedupedRooms (mA.rooms ++ mB.rooms)⟩

theorem reduceMonolith_eq {mA mB : Monolith} (hid : mA.id = mB.id) :
    reduceMonolith mA mB = .ok (mergeMonolith mA mB) := by
  rw [reduceMonolith, if_neg (not_not.mpr hid), dedupeRooms_eq]
  rfl

theorem id_mergeMonolith (mA mB : Monolith) (_ : mA.id = mB.id) : (mergeMonolith mA mB).id = mA.id :=
  rfl

/-- The monoliths that are left. -/
def dedupedMonoliths (monoliths : List Monolith) : List Monolith :=
  MergeTrees.dedupeItems monoliths (fun monolith => monolith.id) mergeMonolith

theorem dedupedMonoliths_eq (monoliths : List Monolith) :
    dedupedMonoliths monoliths = (Grouping.group Monolith.id mergeMonolith monoliths).values :=
  MergeTrees.dedupeItems_eq monoliths Monolith.id mergeMonolith

theorem dedupeMonoliths_eq (monoliths : List Monolith) :
    dedupeMonoliths monoliths = .ok (dedupedMonoliths monoliths) :=
  @dedupeItems_eq_ok Monolith Monolith.id reduceMonolith mergeMonolith
    (fun _ _ hid => reduceMonolith_eq hid) id_mergeMonolith monoliths

theorem ids_dedupedMonoliths (monoliths : List Monolith) :
    (dedupedMonoliths monoliths).map Monolith.id = Levels.firsts (monoliths.map Monolith.id) := by
  rw [dedupedMonoliths_eq]
  exact Grouping.map_key_values id_mergeMonolith monoliths

/-! ## No client is lost, and none is counted twice -/

/-- What a room has of the clients of a name. -/
def share (name : String) (room : Room) : Multiset Client :=
  if room.name = name then room.clients else 0

theorem coe_clientsOf (name : String) (rooms : List Room) :
    (clientsOf name rooms : Multiset Client) = (rooms.map (share name)).sum := by
  induction rooms with
  | nil => rfl
  | cons room rooms ih =>
    rw [List.map_cons, List.sum_cons, ← ih, share]
    unfold clientsOf
    by_cases hname : room.name = name
    · rw [if_pos hname, List.filter_cons_of_pos (by simpa using hname), List.flatMap_cons,
        Multiset.coe_add]
    · rw [if_neg hname, List.filter_cons_of_neg (by simpa using hname), zero_add]

theorem clientsOf_append (name : String) (rooms rooms' : List Room) :
    clientsOf name (rooms ++ rooms') = clientsOf name rooms ++ clientsOf name rooms' := by
  rw [clientsOf, List.filter_append, List.flatMap_append]
  rfl

/-- **Rooms that are merged have the clients of all of them.** -/
theorem clientsOf_dedupedRooms (name : String) (rooms : List Room) :
    (clientsOf name (dedupedRooms rooms)).Perm (clientsOf name rooms) := by
  have hadd : ∀ rA rB : Room, rA.name = rB.name →
      share name (mergeRoom rA rB) = share name rA + share name rB := by
    intro rA rB hname
    unfold share
    rw [← hname]
    by_cases hA : rA.name = name
    · rw [if_pos hA, if_pos hA, Multiset.coe_add]
      exact if_pos hA
    · rw [if_neg hA, if_neg hA, add_zero]
      exact if_neg hA
  rw [← Multiset.coe_eq_coe, coe_clientsOf, coe_clientsOf, dedupedRooms_eq]
  exact Grouping.sum_group name_mergeRoom hadd rooms

/-- Over all monoliths, the clients of a name are those of each. -/
theorem coe_clientsOf_flatMap (name : String) (monoliths : List Monolith) :
    (clientsOf name (monoliths.flatMap Monolith.rooms) : Multiset Client) =
      (monoliths.map (fun monolith => (clientsOf name monolith.rooms : Multiset Client))).sum := by
  induction monoliths with
  | nil => rfl
  | cons monolith monoliths ih =>
    rw [List.flatMap_cons, clientsOf_append, ← Multiset.coe_add, ih, List.map_cons, List.sum_cons]

/-- **Monoliths that are merged have the clients of all of them, room by room.** -/
theorem clientsOf_dedupedMonoliths (name : String) (monoliths : List Monolith) :
    (clientsOf name ((dedupedMonoliths monoliths).flatMap Monolith.rooms)).Perm
      (clientsOf name (monoliths.flatMap Monolith.rooms)) := by
  have hadd : ∀ mA mB : Monolith, mA.id = mB.id →
      (clientsOf name (mergeMonolith mA mB).rooms : Multiset Client) =
        clientsOf name mA.rooms + clientsOf name mB.rooms := by
    intro mA mB _
    have hmerged : (clientsOf name (mergeMonolith mA mB).rooms).Perm
        (clientsOf name (mA.rooms ++ mB.rooms)) := clientsOf_dedupedRooms name _
    rw [Multiset.coe_eq_coe.mpr hmerged, clientsOf_append, Multiset.coe_add]
  rw [← Multiset.coe_eq_coe, coe_clientsOf_flatMap, coe_clientsOf_flatMap, dedupedMonoliths_eq]
  exact Grouping.sum_group id_mergeMonolith hadd monoliths

/-! ## Counting -/

section Counting

variable (functionText : String → String) (state : SystemState)

theorem allRooms_eq : allRooms state = (allMonoliths state).flatMap Monolith.rooms :=
  List.flatMap_assoc.symm

/-- Every room adds its clients under its name. -/
theorem countRoomClients_eq : countRoomClients functionText state =
    PlainObject.tally functionText Room.name (fun room => room.clients.length) (allRooms state) := by
  -- one loop over a flattened list is a loop in a loop
  rw [allRooms_eq, allMonoliths, PlainObject.tally, List.foldl_flatMap, List.foldl_flatMap]
  rfl

theorem total_eq (name : String) (rooms : List Room) :
    PlainObject.total Room.name (fun room => room.clients.length) rooms name =
      (clientsOf name rooms).length :=
  List.length_flatMap.symm

/-- A room that is there is counted right exactly if its name is not inherited. -/
theorem get_countRoomClients_iff {room : Room} (hroom : room ∈ allRooms state) {rooms : List Room}
    (hrooms : (clientsOf room.name rooms).Perm (clientsOf room.name (allRooms state))) :
    (countRoomClients functionText state).get room.name =
      some (.own (.number (clientsOf room.name rooms).length)) ↔ room.name ∉ Inherited.names := by
  rw [countRoomClients_eq, hrooms.length_eq, ← total_eq]
  exact PlainObject.get_tally_iff _ _ _ (List.mem_map_of_mem hroom)

/-- **Aggregation conserves clients** exactly if no room has the name of a property that plain objects
inherit. -/
theorem conserves_iff :
    Conserves functionText state ↔ ∀ room ∈ allRooms state, room.name ∉ Inherited.names := by
  have hrooms := fun name => clientsOf_dedupedRooms name (allRooms state)
  have hmonoliths : ∀ name, (clientsOf name ((dedupedMonoliths (allMonoliths state)).flatMap
      Monolith.rooms)).Perm (clientsOf name (allRooms state)) := by
    intro name
    rw [allRooms_eq]
    exact clientsOf_dedupedMonoliths name (allMonoliths state)
  constructor
  · -- one wrong count is enough, so the rooms alone show it
    intro hconserves room hroom
    obtain ⟨rooms, hok, -, hcount⟩ := hconserves.rooms
    cases (dedupeRooms_eq (allRooms state)).symm.trans hok
    exact (get_countRoomClients_iff functionText state hroom (hrooms _)).mp (hcount room hroom)
  · intro hnames
    constructor
    · refine ⟨_, dedupeRooms_eq _, names_dedupedRooms _, fun room hroom => ?_⟩
      exact (get_countRoomClients_iff functionText state hroom (hrooms _)).mpr (hnames room hroom)
    · refine ⟨_, dedupeMonoliths_eq _, ids_dedupedMonoliths _, fun room hroom => ?_⟩
      exact (get_countRoomClients_iff functionText state hroom (hmonoliths _)).mpr (hnames room hroom)

end Counting

/-! ## A room that is called `constructor` -/

/-- `/^[a-z0-9_-]+$/i` -/
def roomNameRegex (name : String) : Bool :=
  name ≠ "" && name.toList.all (fun c => c.isAlphanum || c = '_' || c = '-')

def reservedRoomNames : List String := ["list", "create", "generate"]

/-- The names that a room can be created with. -/
def isRoomName (name : String) : Bool :=
  3 ≤ name.length && name.length ≤ 32 && roomNameRegex name && !reservedRoomNames.contains name

/-- All of the inherited names are names for rooms. -/
theorem isRoomName_of_inherited {name : String} (h : name ∈ Inherited.names) :
    isRoomName name = true := by
  have hall : ∀ name ∈ Inherited.names, isRoomName name = true := by decide +kernel
  exact hall name h

/-- How browsers write their own functions. -/
def nativeCode (name : String) : String := "function " ++ name ++ "() \x7b [native code] \x7d"

/-- One balancer with one monolith, which has one room with two clients. -/
def constructorRoom : SystemState :=
  [⟨"balancer", "ewr", [⟨"monolith", "ewr", [⟨"constructor", [⟨"first", "ewr"⟩, ⟨"second", "ewr"⟩]⟩]⟩]⟩]

/-- **The clients of a room that is called `constructor` are not counted.** -/
theorem not_conserves : ¬ ∀ (functionText : String → String) (state : SystemState),
    (∀ room ∈ allRooms state, isRoomName room.name = true) → Conserves functionText state := by
  intro h
  obtain ⟨rooms, -, -, hcount⟩ := (h nativeCode constructorRoom (by decide +kernel)).rooms
  have hget : (countRoomClients nativeCode constructorRoom).get "constructor" =
      some (.own (.text "function Object() \x7b [native code] \x7d2")) := by decide +kernel
  have hnumber := hcount ⟨"constructor", [⟨"first", "ewr"⟩, ⟨"second", "ewr"⟩]⟩ List.mem_cons_self
  cases hget.symm.trans hnumber

end OpenTogetherTube.Panel.Aggregate
