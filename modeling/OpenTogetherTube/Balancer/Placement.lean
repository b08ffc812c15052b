import OpenTogetherTube.Balancer.Selection
import OpenTogetherTube.Lib.Ring
import Mathlib.Order.Fin.Basic

/-!
# Placing rooms on the hash ring

`HashRingSelector` builds a ring from scratch for every room it places: some nodes for each monolith,
hashed by the monolith's id and their number. Balancers that list the same monoliths in other orders
therefore place a room alike, and a monolith that comes or goes moves no room between two others
(`placement_stable`).

The ring and its hash function are another package's. The ring is any `HashRing`, and the hash
function takes what is written into a hasher.
-/

namespace OpenTogetherTube.Balancer

open OpenTogetherTube.Lib BalancerContext

/-! ## The selector -/

/-- What is written into a hasher. -/
inductive Hashed where
  | id (id : MonolithId)
  | usize (n : Nat)
  | char (c : Char)
  deriving DecidableEq, Repr

def RingNode.hash (node : RingNode) : List Hashed := [.id node.monolith.id, .usize node.idx]

/-- `RoomName::hash`, of the name as it is spelled. -/
def RoomName.hash (spelled : String) : List Hashed :=
  spelled.toList.map (fun c => .char c.toLower)

/-- `str::eq_ignore_ascii_case`. -/
def EqIgnoreAsciiCase (a b : String) : Prop :=
  a.toList.map Char.toLower = b.toList.map Char.toLower

variable {κ : Type} [LinearOrder κ] (ring : HashRing RingNode κ) (hasher : List Hashed → κ)

def HashRingSelector.selectMonolith (weight : Nat) (room : String)
    (monoliths : List BalancerMonolith) : Except SelectionError BalancerMonolith :=
  match ring.get (fun node => hasher node.hash) (hasher (RoomName.hash room))
    (ringNodes weight monoliths) with
  | some node => .ok node.monolith
  | none => .error .ringHashEmpty

/-! ### It is one of the balancer's strategies -/

/-- The choice that the ring makes for a key. -/
def HashRingSelector.choice (key : κ) : Choice RingNode where
  choose := ring.get (fun node => hasher node.hash) key
  mem _ _ h := (ring.isFirst_of_get h).1
  isSome nodes h := by
    rw [Option.isSome_iff_ne_none]
    exact fun hnone => h (ring.get_eq_none_iff.mp hnone)

/-- What is written of a name that is kept in lower case. -/
def RoomName.hashed (name : RoomName) : List Hashed := name.lower.toList.map .char

theorem RoomName.hashed_ofString (spelled : String) :
    (RoomName.ofString spelled).hashed = RoomName.hash spelled := by
  unfold RoomName.hashed RoomName.hash RoomName.ofString
  simp

/-- A name hashes alike however it is spelled. -/
theorem RoomName.hash_congr {room room' : String} (h : EqIgnoreAsciiCase room' room) :
    RoomName.hash room' = RoomName.hash room := by
  unfold EqIgnoreAsciiCase at h
  have hmap := congrArg (List.map Hashed.char) h
  rwa [List.map_map, List.map_map] at hmap

/-- **The strategy of the balancer is the selector**, for every spelling of the name. -/
theorem hashRing_selectMonolith (rng : Choice BalancerMonolith) (weight : Nat) (room : String)
    (monoliths : List BalancerMonolith) :
    (MonolithSelectionStrategy.hashRing weight).selectMonolith
        (fun name => HashRingSelector.choice ring hasher (hasher name.hashed)) rng
        (RoomName.ofString room) monoliths =
      HashRingSelector.selectMonolith ring hasher weight room monoliths := by
  simp only [MonolithSelectionStrategy.selectMonolith, HashRingSelector.choice,
    RoomName.hashed_ofString]
  rfl

/-! ## Where rooms are placed -/

namespace HashRingSelector

variable {hasher} {weight : Nat} {room : String} {monoliths listed : List BalancerMonolith}
  {selected m : BalancerMonolith}

/-- No two of the pairs of an id and a number that are put on the ring have the same hash. -/
def NoCollision (hasher : List Hashed → κ) (weight : Nat) (monoliths : List BalancerMonolith) :
    Prop :=
  ∀ node ∈ ringNodes weight monoliths, ∀ node' ∈ ringNodes weight monoliths,
    hasher node.hash = hasher node'.hash →
      node.monolith.id = node'.monolith.id ∧ node.idx = node'.idx

omit [LinearOrder κ] in
/-- The hashes of the nodes are distinct where the ids of the monoliths are. -/
theorem NoCollision.injOn (h : NoCollision hasher weight monoliths)
    (hids : (monoliths.map (·.id)).Nodup) :
    Set.InjOn (fun node : RingNode => hasher node.hash)
      {node | node ∈ ringNodes weight monoliths} := by
  intro node hnode node' hnode' heq
  obtain ⟨hid, hidx⟩ := h node hnode node' hnode' heq
  have hm := (MonolithSelectionStrategy.mem_ringNodes.mp hnode).1
  have hm' := (MonolithSelectionStrategy.mem_ringNodes.mp hnode').1
  have hmono : node.monolith = node'.monolith := List.inj_on_of_nodup_map hids hm hm' hid
  cases node
  cases node'
  simp_all

/-- All nodes of a monolith that is listed are on the ring. -/
theorem mem_ringNodes_of_subset (hsub : ∀ m ∈ listed, m ∈ monoliths) {node : RingNode}
    (h : node ∈ ringNodes weight listed) : node ∈ ringNodes weight monoliths := by
  rw [MonolithSelectionStrategy.mem_ringNodes] at h ⊢
  exact ⟨hsub _ h.1, h.2⟩

omit [LinearOrder κ] in
theorem NoCollision.of_subset (h : NoCollision hasher weight monoliths)
    (hsub : ∀ m ∈ listed, m ∈ monoliths) : NoCollision hasher weight listed :=
  fun node hnode node' hnode' => h node (mem_ringNodes_of_subset hsub hnode) node'
    (mem_ringNodes_of_subset hsub hnode')

theorem selectMonolith_eq_ok_iff :
    selectMonolith ring hasher weight room monoliths = .ok m ↔
      ∃ node, ring.get (fun node => hasher node.hash) (hasher (RoomName.hash room))
        (ringNodes weight monoliths) = some node ∧ node.monolith = m := by
  unfold selectMonolith
  cases ring.get (fun node => hasher node.hash) (hasher (RoomName.hash room))
    (ringNodes weight monoliths) <;> simp

variable {ring}

/-- **The order in which the monoliths are listed does not matter**, nor how the name is spelled. -/
theorem selectMonolith_perm {room' : String} (hids : (monoliths.map (·.id)).Nodup)
    (hcollision : NoCollision hasher weight monoliths) (hperm : listed.Perm monoliths)
    (hroom : EqIgnoreAsciiCase room' room) :
    selectMonolith ring hasher weight room' listed =
      selectMonolith ring hasher weight room monoliths := by
  have hnodes : ∀ node, node ∈ ringNodes weight listed ↔ node ∈ ringNodes weight monoliths := by
    intro node
    rw [MonolithSelectionStrategy.mem_ringNodes, MonolithSelectionStrategy.mem_ringNodes,
      hperm.mem_iff]
  unfold selectMonolith
  rw [RoomName.hash_congr hroom, ring.get_congr (hcollision.injOn hids) hnodes]

/-- **A monolith that goes takes only its own rooms along.** -/
theorem selectMonolith_remove (hids : (monoliths.map (·.id)).Nodup)
    (hcollision : NoCollision hasher weight monoliths)
    (hselected : selectMonolith ring hasher weight room monoliths = .ok selected)
    (hsub : ∀ m ∈ listed, m ∈ monoliths) (hstays : selected ∈ listed) :
    selectMonolith ring hasher weight room listed = .ok selected := by
  obtain ⟨node, hget, rfl⟩ := (selectMonolith_eq_ok_iff ring).mp hselected
  have hnode := (ring.isFirst_of_get hget).1
  rw [selectMonolith_eq_ok_iff]
  refine ⟨node, ?_, rfl⟩
  apply ring.get_of_subset (hcollision.injOn hids) hget
  · exact fun y hy => mem_ringNodes_of_subset hsub hy
  · rw [MonolithSelectionStrategy.mem_ringNodes]
    exact ⟨hstays, (MonolithSelectionStrategy.mem_ringNodes.mp hnode).2⟩

/-- **A monolith that comes takes rooms for itself only.** -/
theorem selectMonolith_add (hids : (listed.map (·.id)).Nodup)
    (hcollision : NoCollision hasher weight listed) (hsub : ∀ m ∈ monoliths, m ∈ listed)
    (hselected : selectMonolith ring hasher weight room listed = .ok selected)
    (hold : selected ∈ monoliths) :
    selectMonolith ring hasher weight room monoliths = .ok selected := by
  obtain ⟨node, hget, rfl⟩ := (selectMonolith_eq_ok_iff ring).mp hselected
  rw [selectMonolith_eq_ok_iff]
  refine ⟨node, ?_, rfl⟩
  have hnode := (ring.isFirst_of_get hget).1
  refine (ring.get_of_superset (hcollision.injOn hids)
    (fun y hy => mem_ringNodes_of_subset hsub hy) hget).resolve_right fun hnew => hnew ?_
  rw [MonolithSelectionStrategy.mem_ringNodes]
  exact ⟨hold, (MonolithSelectionStrategy.mem_ringNodes.mp hnode).2⟩

/-- A monolith is selected wherever any is listed. -/
theorem selectMonolith_ok (h : monoliths ≠ []) :
    ∃ m ∈ monoliths, selectMonolith ring hasher weight room monoliths = .ok m := by
  obtain ⟨m, hm⟩ : ∃ m, (MonolithSelectionStrategy.hashRing weight).selectMonolith
      (fun name => choice ring hasher (hasher name.hashed)) (.first BalancerMonolith)
      (.ofString room) monoliths = .ok m :=
    MonolithSelectionStrategy.selectMonolith_ok h
  have hmem := MonolithSelectionStrategy.selectMonolith_mem hm
  rw [hashRing_selectMonolith] at hm
  exact ⟨m, hmem, hm⟩

/-! ## The specification -/

/-- **The purpose**: a room is placed alike by everyone, and moves only where it has to. -/
structure Stable (ring : HashRing RingNode κ) (hasher : List Hashed → κ) (weight : Nat)
    (room : String) (monoliths : List BalancerMonolith) : Prop where
  /-- One of the monoliths is selected, if there is any. -/
  selects : monoliths ≠ [] →
    ∃ m ∈ monoliths, selectMonolith ring hasher weight room monoliths = .ok m
  /-- However the monoliths are listed and the name is spelled. -/
  alike : ∀ listed room', listed.Perm monoliths → EqIgnoreAsciiCase room' room →
    selectMonolith ring hasher weight room' listed =
      selectMonolith ring hasher weight room monoliths
  /-- Another monolith is removed. -/
  removed : ∀ selected other listed,
    selectMonolith ring hasher weight room monoliths = .ok selected → other ≠ selected →
    listed.Perm (monoliths.filter (fun m => m ≠ other)) →
    selectMonolith ring hasher weight room listed = .ok selected
  /-- Another monolith is added. -/
  added : ∀ new listed, new.id ∉ monoliths.map (·.id) →
    NoCollision hasher weight (new :: monoliths) → listed.Perm (new :: monoliths) →
    selectMonolith ring hasher weight room listed = .ok new ∨
      selectMonolith ring hasher weight room listed =
        selectMonolith ring hasher weight room monoliths

/-- **The hash ring places rooms stably.** -/
theorem placement_stable (ring : HashRing RingNode κ) (hasher : List Hashed → κ) (weight : Nat)
    (room : String) {monoliths : List BalancerMonolith} (hids : (monoliths.map (·.id)).Nodup)
    (hcollision : NoCollision hasher weight monoliths) :
    Stable ring hasher weight room monoliths := by
  constructor
  · exact selectMonolith_ok
  · exact fun listed room' hperm hroom => selectMonolith_perm hids hcollision hperm hroom
  · intro selected other listed hselected hother hperm
    have hmem : ∀ m, m ∈ listed ↔ m ∈ monoliths ∧ m ≠ other := by
      intro m
      rw [hperm.mem_iff, List.mem_filter, decide_eq_true_eq]
    have hselectedMem : selected ∈ monoliths := by
      obtain ⟨node, hget, rfl⟩ := (selectMonolith_eq_ok_iff ring).mp hselected
      exact (MonolithSelectionStrategy.mem_ringNodes.mp (ring.isFirst_of_get hget).1).1
    apply selectMonolith_remove hids hcollision hselected
    · exact fun m hm => ((hmem m).mp hm).1
    · exact (hmem selected).mpr ⟨hselectedMem, hother.symm⟩
  · intro new listed hnew hcollision' hperm
    have hids' : (listed.map (·.id)).Nodup := by
      rw [(hperm.map (·.id)).nodup_iff, List.map_cons, List.nodup_cons]
      exact ⟨hnew, hids⟩
    have hmem : ∀ m, m ∈ listed ↔ m = new ∨ m ∈ monoliths := by
      intro m
      rw [hperm.mem_iff, List.mem_cons]
    have hlisted : listed ≠ [] := List.ne_nil_of_mem ((hmem new).mpr (.inl rfl))
    obtain ⟨selected, hin, hselected⟩ :
        ∃ m ∈ listed, selectMonolith ring hasher weight room listed = .ok m :=
      selectMonolith_ok hlisted
    rcases (hmem selected).mp hin with rfl | hold
    · exact .inl hselected
    · right
      have hsub : ∀ m ∈ monoliths, m ∈ listed := fun m hm => (hmem m).mpr (.inr hm)
      have hcollisionListed : NoCollision hasher weight listed :=
        hcollision'.of_subset fun m hm => hperm.mem_iff.mp hm
      rw [hselected, selectMonolith_add hids' hcollisionListed hsub hselected hold]

/-- Ids and numbers are told apart below 100, and a name counts its letters. -/
def smallHasher : List Hashed → Nat
  | [.id id, .usize n] => id * 100 + n
  | name => name.length * 10

/-- Two monoliths, and a room between them. -/
theorem placement_stable_between : Stable (HashRing.sorting RingNode Nat) smallHasher 5 "lobby"
    [.new ⟨1, "local"⟩, .new ⟨2, "local"⟩] := by
  refine placement_stable _ _ _ _ (by decide) ?_
  unfold NoCollision
  decide +kernel

/-- The room belongs to the monolith that comes next, and to the first one beyond the last. -/
example : (["lobby", "LOBBY", "a longer name, that wraps"].map (fun room =>
    (HashRingSelector.selectMonolith (HashRing.sorting RingNode Nat) smallHasher 5 room
      [.new ⟨2, "local"⟩, .new ⟨1, "local"⟩]).toOption.map (·.id))) = [some 1, some 1, some 1] := by
  decide +kernel

end HashRingSelector

end OpenTogetherTube.Balancer
