import OpenTogetherTube.Balancer.Tasks
import OpenTogetherTube.Balancer.Integrity
import OpenTogetherTube.Lib.Indexed
import OpenTogetherTube.Lib.Machine
import Mathlib.Data.List.MinMax

/-!
# Selecting a monolith

`filter_monoliths` offers the monoliths of the balancer's own region, and a selection strategy picks
one of them. The region of a monolith is written down twice: with the monolith, and in
`monoliths_by_region`. And what decides whether other regions are offered is not that nothing is
listed for the own one, but that it has no **entry**; once made, an entry is never taken out.

`selectable_throughout_iff` says which joins and departures keep every connected monolith selectable.
-/

namespace OpenTogetherTube.Balancer

open OpenTogetherTube.Lib BalancerContext

/-! ## The strategies -/

/-- A way of choosing one of several: one of them, if there is any. -/
structure Choice (α : Type) where
  choose : List α → Option α
  mem : ∀ xs x, choose xs = some x → x ∈ xs
  isSome : ∀ xs, xs ≠ [] → (choose xs).isSome

/-- The first one. -/
def Choice.first (α : Type) : Choice α where
  choose := List.head?
  mem _ _ h := List.mem_of_mem_head? h
  isSome xs h := by
    cases xs with
    | nil => exact absurd rfl h
    | cons x xs => rfl

inductive SelectionError where
  | noMonolithsAvailable
  | ringHashEmpty
  deriving DecidableEq, Repr

def SelectionError.message : SelectionError → String
  | .noMonolithsAvailable => "no monoliths available"
  | .ringHashEmpty => "ring hash empty"

/-- One of the places that a monolith has on the hash ring. -/
structure RingNode where
  monolith : BalancerMonolith
  idx : Nat
  deriving DecidableEq

inductive MonolithSelectionStrategy where
  | minRooms
  | hashRing (weight : Nat)
  | random
  deriving DecidableEq, Repr

/-- The nodes that are put on the ring: as many for each monolith as it has weight, and at least
one. -/
def ringNodes (weight : Nat) (monoliths : List BalancerMonolith) : List RingNode :=
  monoliths.flatMap (fun m => (List.range (max weight 1)).map (fun i => ⟨m, i⟩))

section Select

/-! The hash ring that is made of some nodes gives each room one of them, and `choose` takes any
element there is. -/

variable (ring : RoomName → Choice RingNode) (rng : Choice BalancerMonolith)

def MonolithSelectionStrategy.randomMonolith (monoliths : List BalancerMonolith) :
    Except SelectionError BalancerMonolith :=
  match rng.choose monoliths with
  | some selected => .ok selected
  | none => .error .noMonolithsAvailable

def MonolithSelectionStrategy.selectMonolith (strategy : MonolithSelectionStrategy)
    (room : RoomName) (monoliths : List BalancerMonolith) :
    Except SelectionError BalancerMonolith :=
  match strategy with
  | .minRooms =>
    -- the first of those with the fewest rooms
    match monoliths.argmin (fun m => m.rooms.size) with
    | some selected => .ok selected
    | none => .error .noMonolithsAvailable
  | .hashRing weight =>
    match (ring room).choose (ringNodes weight monoliths) with
    | some node => .ok node.monolith
    | none => .error .ringHashEmpty
  | .random => randomMonolith rng monoliths

namespace BalancerContext

def selectMonolith (ctx : BalancerContext) (strategy : MonolithSelectionStrategy)
    (room : RoomName) : Except SelectionError BalancerMonolith :=
  strategy.selectMonolith ring rng room ctx.filterMonoliths

def randomMonolith (ctx : BalancerContext) : Except SelectionError BalancerMonolith :=
  MonolithSelectionStrategy.randomMonolith rng ctx.filterMonoliths

end BalancerContext

/-! ### What is selected -/

variable {ring rng}

namespace MonolithSelectionStrategy

variable {strategy : MonolithSelectionStrategy} {room : RoomName} {monoliths : List BalancerMonolith}

theorem mem_ringNodes {weight : Nat} {node : RingNode} :
    node ∈ ringNodes weight monoliths ↔ node.monolith ∈ monoliths ∧ node.idx < max weight 1 := by
  unfold ringNodes
  simp only [List.mem_flatMap, List.mem_map, List.mem_range]
  constructor
  · rintro ⟨m, hm, i, hi, rfl⟩
    exact ⟨hm, hi⟩
  · rintro ⟨hm, hi⟩
    exact ⟨node.monolith, hm, node.idx, hi, rfl⟩

theorem randomMonolith_mem {m : BalancerMonolith} (h : randomMonolith rng monoliths = .ok m) :
    m ∈ monoliths := by
  unfold randomMonolith at h
  split at h
  · next hc => cases h; exact rng.mem _ _ hc
  · cases h

theorem randomMonolith_ok (h : monoliths ≠ []) : ∃ m, randomMonolith rng monoliths = .ok m := by
  obtain ⟨m, hm⟩ := Option.isSome_iff_exists.mp (rng.isSome monoliths h)
  exact ⟨m, by rw [randomMonolith, hm]⟩

/-- What is selected is one of the monoliths that were offered. -/
theorem selectMonolith_mem {m : BalancerMonolith}
    (h : strategy.selectMonolith ring rng room monoliths = .ok m) : m ∈ monoliths := by
  cases strategy with
  | minRooms =>
    simp only [selectMonolith] at h
    split at h
    · next hm => cases h; exact List.argmin_mem hm
    · cases h
  | hashRing weight =>
    simp only [selectMonolith] at h
    split at h
    · next hn => cases h; exact (mem_ringNodes.mp ((ring room).mem _ _ hn)).1
    · cases h
  | random => exact randomMonolith_mem h

/-- Every strategy selects something if there is anything to select. -/
theorem selectMonolith_ok (h : monoliths ≠ []) :
    ∃ m, strategy.selectMonolith ring rng room monoliths = .ok m := by
  cases strategy with
  | minRooms =>
    cases hm : monoliths.argmin (fun m => m.rooms.size) with
    | none => exact absurd (List.argmin_eq_none.mp hm) h
    | some m => exact ⟨m, by simp only [selectMonolith, hm]⟩
  | hashRing weight =>
    obtain ⟨m, hm⟩ := List.exists_mem_of_ne_nil monoliths h
    have hne : ringNodes weight monoliths ≠ [] :=
      List.ne_nil_of_mem (mem_ringNodes.mpr (show _ ∧ (RingNode.mk m 0).idx < _ from
        ⟨hm, show 0 < max weight 1 by omega⟩))
    obtain ⟨node, hn⟩ := Option.isSome_iff_exists.mp ((ring room).isSome _ hne)
    exact ⟨node.monolith, by simp only [selectMonolith, hn]⟩
  | random => exact randomMonolith_ok h

end MonolithSelectionStrategy

/-- What `select_monolith` gives is what a joining client may be sent to. -/
theorem selectable_of_selectMonolith (ctx : BalancerContext) (strategy : MonolithSelectionStrategy)
    (room : RoomName) :
    Selectable ctx ((ctx.selectMonolith ring rng strategy room).toOption.map (·.id)) = true := by
  unfold BalancerContext.selectMonolith
  cases h : strategy.selectMonolith ring rng room ctx.filterMonoliths with
  | error e =>
    by_contra hne
    have hnil : ctx.filterMonoliths ≠ [] := by
      intro hnil
      exact hne (by simp [Selectable, Except.toOption, hnil])
    obtain ⟨m, hm⟩ : ∃ m, strategy.selectMonolith ring rng room ctx.filterMonoliths = .ok m :=
      MonolithSelectionStrategy.selectMonolith_ok hnil
    rw [h] at hm
    cases hm
  | ok m =>
    have hm := MonolithSelectionStrategy.selectMonolith_mem h
    simpa [Selectable, Except.toOption] using ⟨m, hm, rfl⟩

end Select

/-! ## The specification -/

namespace Selection

/-- A monolith joins, or leaves. -/
inductive Event where
  | add (monolith : BalancerMonolith)
  | remove (monolithId : MonolithId)
  deriving DecidableEq

def memberships : Machine BalancerContext Event where
  step ctx
    | .add monolith => some (ctx.addMonolith monolith)
    | .remove monolithId => some (ctx.removeMonolith monolithId)

/-- The monoliths and the index of them by region. -/
def index (ctx : BalancerContext) : Indexed MonolithId BalancerMonolith Region :=
  ⟨ctx.monoliths, ctx.monolithsByRegion⟩

/-- A connected monolith is returned, and one of the balancer's own region if there is one. -/
def Returns (ctx : BalancerContext) (result : Except SelectionError BalancerMonolith) : Prop :=
  ∃ m, result = .ok m ∧ m ∈ ctx.monoliths.values ∧
    ((∃ m' ∈ ctx.monoliths.values, m'.region = ctx.region) → m.region = ctx.region)

/-- Every connected monolith is listed once, under its region, and nothing else is; and if any is
connected, one is returned, with every strategy and for every room. -/
structure AlwaysSelectable (ring : RoomName → Choice RingNode) (ctx : BalancerContext) : Prop where
  indexed : (index ctx).Exact BalancerMonolith.region
  selected : ctx.monoliths.values ≠ [] → ∀ rng strategy room,
    Returns ctx (ctx.selectMonolith ring rng strategy room)
  random : ctx.monoliths.values ≠ [] → ∀ rng, Returns ctx (ctx.randomMonolith rng)

/-- A monolith joins that is not connected, and it is one of the own region if that region is listed
with no monoliths. The monolith that leaves is not the last one of the own region while others are
connected. -/
def KeepsSelectable (ctx : BalancerContext) : Event → Prop
  | .add monolith => ¬ ctx.Connected monolith.id ∧
    (ctx.monolithsByRegion.get? ctx.region = some [] → monolith.region = ctx.region)
  | .remove monolithId => ctx.monolithsByRegion.get? ctx.region = some [monolithId] →
    ∀ m, ctx.Connected m → m = monolithId

/-! ## What is offered -/

variable {ring : RoomName → Choice RingNode} {ctx : BalancerContext}

theorem filterMonoliths_of_some {inRegion : List MonolithId}
    (h : ctx.monolithsByRegion.get? ctx.region = some inRegion) :
    ctx.filterMonoliths = (index ctx).lookup ctx.region := by
  rw [filterMonoliths, h, Indexed.lookup, Indexed.listed, index, h]
  rfl

theorem filterMonoliths_of_none (h : ctx.monolithsByRegion.get? ctx.region = none) :
    ctx.filterMonoliths = ctx.monoliths.values := by
  rw [filterMonoliths, h]

/-- **What is offered where the index is exact**: connected monoliths, and only those of the own
region if there are any. -/
theorem mem_filterMonoliths (h : (index ctx).Exact BalancerMonolith.region) {m : BalancerMonolith}
    (hm : m ∈ ctx.filterMonoliths) : m ∈ ctx.monoliths.values ∧
      ((∃ m' ∈ ctx.monoliths.values, m'.region = ctx.region) → m.region = ctx.region) := by
  cases hown : ctx.monolithsByRegion.get? ctx.region with
  | some inRegion =>
    rw [filterMonoliths_of_some hown] at hm
    obtain ⟨k, hk, hregion⟩ := h.mem_lookup.mp hm
    exact ⟨OrderedMap.mem_values_iff.mpr ⟨k, hk⟩, fun _ => hregion⟩
  | none =>
    rw [filterMonoliths_of_none hown] at hm
    refine ⟨hm, ?_⟩
    rintro ⟨m', hm', hregion⟩
    obtain ⟨k, hk⟩ := OrderedMap.mem_values_iff.mp hm'
    have hlisted := (h.mem ctx.region k).mpr ⟨m', hk, hregion⟩
    rw [Indexed.listed, index, hown] at hlisted
    cases hlisted

/-- **Where the index is exact, nothing is offered exactly if the own region is listed with no
monoliths**, or none is connected. -/
theorem filterMonoliths_eq_nil_iff (h : (index ctx).Exact BalancerMonolith.region) :
    ctx.filterMonoliths = [] ↔
      ctx.monolithsByRegion.get? ctx.region = some [] ∨ ctx.monoliths.values = [] := by
  cases hown : ctx.monolithsByRegion.get? ctx.region with
  | some inRegion =>
    have hlisted : (index ctx).listed ctx.region = inRegion := by
      rw [Indexed.listed, index, hown]
      rfl
    rw [filterMonoliths_of_some hown, h.lookup_eq_nil_iff, hlisted, Option.some.injEq]
    refine ⟨Or.inl, fun hor => hor.elim (fun hc => hc) fun hnone => ?_⟩
    refine List.eq_nil_iff_forall_not_mem.mpr fun k hk => ?_
    obtain ⟨v, hv, -⟩ := (h.mem ctx.region k).mp (hlisted ▸ hk)
    have hmem : v ∈ ctx.monoliths.values := OrderedMap.mem_values_iff.mpr ⟨k, hv⟩
    rw [hnone] at hmem
    cases hmem
  | none =>
    rw [filterMonoliths_of_none hown]
    simp

/-- The selection fails exactly where nothing is offered although something is connected. -/
theorem alwaysSelectable_iff : AlwaysSelectable ring ctx ↔
    (index ctx).Exact BalancerMonolith.region ∧
      (ctx.monolithsByRegion.get? ctx.region = some [] → ctx.monoliths.values = []) := by
  constructor
  · intro h
    refine ⟨h.indexed, fun hown => ?_⟩
    by_contra hne
    obtain ⟨m, hm, -⟩ := h.random hne (.first _)
    have hnil : ctx.filterMonoliths = [] :=
      (filterMonoliths_eq_nil_iff h.indexed).mpr (Or.inl hown)
    have hin := MonolithSelectionStrategy.randomMonolith_mem hm
    rw [hnil] at hin
    cases hin
  · rintro ⟨hexact, hown⟩
    have hoffered : ctx.monoliths.values ≠ [] → ctx.filterMonoliths ≠ [] := by
      intro hne hnil
      exact hne (((filterMonoliths_eq_nil_iff hexact).mp hnil).elim hown fun hc => hc)
    refine ⟨hexact, fun hne rng strategy room => ?_, fun hne rng => ?_⟩
    · obtain ⟨m, hm⟩ : ∃ m, strategy.selectMonolith ring rng room ctx.filterMonoliths = .ok m :=
        MonolithSelectionStrategy.selectMonolith_ok (hoffered hne)
      exact ⟨m, hm, mem_filterMonoliths hexact (MonolithSelectionStrategy.selectMonolith_mem hm)⟩
    · obtain ⟨m, hm⟩ : ∃ m, MonolithSelectionStrategy.randomMonolith rng ctx.filterMonoliths = .ok m :=
        MonolithSelectionStrategy.randomMonolith_ok (hoffered hne)
      exact ⟨m, hm, mem_filterMonoliths hexact (MonolithSelectionStrategy.randomMonolith_mem hm)⟩

/-! ## Joining and leaving -/

theorem index_addMonolith (ctx : BalancerContext) (m : BalancerMonolith) :
    index (ctx.addMonolith m) = (index ctx).insert BalancerMonolith.region m.id m := rfl

theorem index_removeMonolith (ctx : BalancerContext) (m : MonolithId) :
    index (ctx.removeMonolith m) = (index ctx).remove BalancerMonolith.region m := by
  unfold index removeMonolith Indexed.remove
  dsimp only
  cases ctx.monoliths.get? m <;> rfl

theorem values_eq_nil_iff : ctx.monoliths.values = [] ↔ ∀ m, ¬ ctx.Connected m := by
  rw [List.eq_nil_iff_forall_not_mem]
  constructor
  · intro h m hm
    obtain ⟨v, hv⟩ := OrderedMap.contains_iff.mp hm
    exact h v (OrderedMap.mem_values_iff.mpr ⟨m, hv⟩)
  · intro h v hv
    obtain ⟨m, hm⟩ := OrderedMap.mem_values_iff.mp hv
    exact h m (OrderedMap.contains_iff.mpr ⟨v, hm⟩)

theorem addMonolith_iff (h : AlwaysSelectable ring ctx) (m : BalancerMonolith) :
    AlwaysSelectable ring (ctx.addMonolith m) ↔ KeepsSelectable ctx (.add m) := by
  have hne : (ctx.addMonolith m).monoliths.values ≠ [] := by
    intro hnil
    refine values_eq_nil_iff.mp hnil m.id ?_
    simp [addMonolith, Connected]
  have hentry : (ctx.addMonolith m).monolithsByRegion.get? ctx.region = some [] ↔
      ¬ m.region = ctx.region ∧ ctx.monolithsByRegion.get? ctx.region = some [] := by
    rw [addMonolith, OrderedMap.get?_set]
    by_cases hr : ctx.region = m.region
    · simp [hr]
    · rw [if_neg hr]
      exact ⟨fun hown => ⟨fun heq => hr heq.symm, hown⟩, fun hown => hown.2⟩
  rw [alwaysSelectable_iff, index_addMonolith, Indexed.exact_insert_iff h.indexed,
    show (ctx.addMonolith m).region = ctx.region from rfl, hentry]
  refine and_congr ?_ ⟨fun himp hown => ?_, fun himp hown => absurd (himp hown.2) hown.1⟩
  · show ctx.monoliths.get? m.id = none ↔ ¬ ctx.monoliths.contains m.id = true
    rw [OrderedMap.contains, Option.not_isSome_iff_eq_none]
  · by_contra hr
    exact hne (himp ⟨hr, hown⟩)

theorem removeMonolith_iff (h : AlwaysSelectable ring ctx) (m : MonolithId) :
    AlwaysSelectable ring (ctx.removeMonolith m) ↔ KeepsSelectable ctx (.remove m) := by
  have hown := (alwaysSelectable_iff.mp h).2
  have hentry : (ctx.removeMonolith m).monolithsByRegion.get? ctx.region =
      (ctx.monolithsByRegion.get? ctx.region).map (fun ks => ks.filter (fun k => k ≠ m)) := by
    show (index (ctx.removeMonolith m)).index.get? ctx.region = _
    rw [index_removeMonolith]
    exact h.indexed.get?_index_remove
  have hconnected : (ctx.removeMonolith m).monoliths.values = [] ↔
      ∀ m', ctx.Connected m' → m' = m := by
    rw [values_eq_nil_iff]
    refine forall_congr' fun m' => ?_
    show ¬ (ctx.monoliths.erase m).contains m' = true ↔ _
    rw [OrderedMap.contains_erase]
    by_cases hm : m' = m <;> simp [hm, Connected]
  rw [alwaysSelectable_iff, index_removeMonolith,
    show (ctx.removeMonolith m).region = ctx.region from rfl, hentry, hconnected]
  refine ⟨fun hk hlast => hk.2 (by simp [hlast]), fun hk => ⟨h.indexed.remove m, fun hlast => ?_⟩⟩
  obtain ⟨ks, hks, hnil⟩ := Option.map_eq_some_iff.mp hlast
  have hlisted : (index ctx).listed ctx.region = ks := by
    rw [Indexed.listed, index, hks]
    rfl
  have hall : ∀ k ∈ ks, k = m := by simpa using hnil
  -- nothing is listed twice
  have hnodup : ks.Nodup := hlisted ▸ h.indexed.nodup ctx.region
  rcases ks.eq_nil_or_concat with rfl | ⟨ks', k, rfl⟩
  · exact fun m' hm' => absurd hm' (values_eq_nil_iff.mp (hown hks) m')
  · have hk' : k = m := hall k (by simp)
    have hnone : ks' = [] := by
      refine List.eq_nil_iff_forall_not_mem.mpr fun k' hk'' => ?_
      rw [List.concat_eq_append, List.nodup_append] at hnodup
      refine hnodup.2.2 k' hk'' k (List.mem_singleton.mpr rfl) ?_
      rw [hk', hall k' (by simp [hk''])]
    rw [hk', hnone] at hks
    exact hk hks

/-- **Every connected monolith stays selectable throughout a run exactly if no monolith joins that
is connected already, and the own region is never listed with no monoliths while others are
connected.** -/
theorem selectable_throughout_iff (ring : RoomName → Choice RingNode) (region : Region)
    (es : List Event) :
    memberships.Always (AlwaysSelectable ring) (.new region) es ↔
      memberships.Along KeepsSelectable (.new region) es := by
  refine Machine.always_iff_along (fun ctx e ctx' h hs => ?_) ?_
  · cases e with
    | add m => cases hs; exact addMonolith_iff h m
    | remove m => cases hs; exact removeMonolith_iff h m
  · refine alwaysSelectable_iff.mpr ⟨⟨fun _ => List.nodup_nil, fun r m => ?_⟩, nofun⟩
    exact iff_of_false nofun (by rintro ⟨v, hv, -⟩; cases hv)

/-- The last monolith of the own region leaves, and the one that is still connected, in another
region, is not offered. -/
theorem not_selectable_throughout :
    ¬ ∀ (ring : RoomName → Choice RingNode) (region : Region) (es : List Event),
      memberships.Always (AlwaysSelectable ring) (.new region) es := by
  intro h
  have hrun := h (fun _ => .first _) "local"
    [.add (.new ⟨1, "local"⟩), .add (.new ⟨2, "remote"⟩), .remove 1]
  have hleft := (((hrun.2 _ rfl).2 _ rfl).2 _ rfl).head
  exact absurd ((alwaysSelectable_iff.mp hleft).2 (by decide +kernel)) (by decide +kernel)

end Selection

end OpenTogetherTube.Balancer
