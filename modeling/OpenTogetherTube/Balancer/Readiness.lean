import OpenTogetherTube.Balancer.Supervision

/-!
# The readiness gauges

Whether a balancer is healthy is read off its gauges. `set_discovery_metrics` notes at the end of
`do_connection_job` how many monoliths are discovered, `set_connected_monolith_metrics` how many are
connected, and each of them decides anew whether the two numbers are the same.

`Tracks` is what this is for: from the first discovery on, the gauges say what is the case. But the
number of connected monoliths is only noted when one is removed, so a monolith that joins is not
counted, and a balancer with all its monoliths is unhealthy (`not_tracks_throughout`).
`tracks_throughout_iff` says which steps keep the gauges right.
-/

namespace OpenTogetherTube.Balancer.Readiness

open OpenTogetherTube.Lib Supervision

/-! ## The gauges -/

/-- The gauges are signed, and no number of monoliths is too large for them. -/
structure Gauges where
  discoveryCompleted : Int
  discoveredMonoliths : Int
  connectedMonoliths : Int
  healthy : Int
  deriving DecidableEq, Repr

namespace Gauges

/-- The gauges of a balancer that has just started. -/
def new : Gauges := ⟨0, 0, 0, 0⟩

def updateHealthGauge (g : Gauges) : Gauges :=
  let healthy := g.discoveryCompleted ≠ 0 ∧ g.discoveredMonoliths = g.connectedMonoliths
  { g with healthy := if healthy then 1 else 0 }

def setDiscoveryMetrics (g : Gauges) (discoveredMonolithCount : Nat) : Gauges :=
  updateHealthGauge
    { g with discoveryCompleted := 1, discoveredMonoliths := discoveredMonolithCount }

def setConnectedMonolithMetrics (g : Gauges) (connectedMonolithCount : Nat) : Gauges :=
  updateHealthGauge { g with connectedMonoliths := connectedMonolithCount }

/-- The balancer is taken to be healthy if the last two numbers that were noted are the same. -/
def Decided (g : Gauges) : Prop :=
  g.healthy = 1 ↔ g.discoveryCompleted ≠ 0 ∧ g.discoveredMonoliths = g.connectedMonoliths

theorem decided_updateHealthGauge (g : Gauges) : g.updateHealthGauge.Decided := by
  unfold Decided updateHealthGauge
  dsimp only
  split
  · next h => exact iff_of_true rfl h
  · next h => exact iff_of_false (by decide) h

end Gauges

/-! ## The connection manager -/

/-- What is discovered, and which of it has a connection task. -/
structure Manager where
  monoliths : OrderedSet ConnectionConfig
  connectionTasks : OrderedSet ConnectionConfig
  deriving DecidableEq

namespace Manager

/-- The first loop of `do_connection_job`. It ends early if a task that it has cancelled cannot be
joined. -/
def removeAll (joins : ConnectionConfig → Bool) : List ConnectionConfig → Manager → Manager × Bool
  | [], m => (m, true)
  | conf :: removed, m =>
    let m := { m with monoliths := m.monoliths.delete conf }
    if m.connectionTasks.has conf then
      let m := { m with connectionTasks := m.connectionTasks.delete conf }
      if joins conf then removeAll joins removed m else (m, false)
    else removeAll joins removed m

/-- The second loop. It ends early if a task cannot be spawned. -/
def addAll (spawns : ConnectionConfig → Bool) : List ConnectionConfig → Manager → Manager × Bool
  | [], m => (m, true)
  | conf :: added, m =>
    let m := { m with monoliths := m.monoliths.add conf }
    if spawns conf then
      addAll spawns added { m with connectionTasks := m.connectionTasks.add conf }
    else (m, false)

/-- What `do_connection_job` makes of the manager, and whether it gets to its end. -/
def update (m : Manager) (msg : ServiceDiscoveryMsg) (joins spawns : ConnectionConfig → Bool) :
    Manager × Bool :=
  match m.removeAll joins msg.removed with
  | (m, true) => m.addAll spawns msg.added
  | (m, false) => (m, false)

end Manager

/-! ## The operations -/

structure Monitored where
  ctx : BalancerContext
  manager : Manager
  gauges : Gauges
  deriving DecidableEq

namespace Monitored

/-- A balancer that has just started. -/
def init (region : Region) : Monitored := ⟨.new region, ⟨∅, ∅⟩, .new⟩

def addMonolith (s : Monitored) (monolith : BalancerMonolith) : Monitored :=
  { s with ctx := s.ctx.addMonolith monolith }

def removeMonolith (s : Monitored) (monolithId : MonolithId) : Monitored :=
  let ctx := s.ctx.removeMonolith monolithId
  { s with ctx := ctx, gauges := s.gauges.setConnectedMonolithMetrics ctx.monoliths.size }

/-- The channel is handed over first. -/
def joinMonolith (s : Monitored) (monolith : NewMonolith) (receiverOpen : Bool) : Monitored :=
  if receiverOpen then s.addMonolith (.new monolith) else s

def doConnectionJob (s : Monitored) (msg : ServiceDiscoveryMsg)
    (joins spawns : ConnectionConfig → Bool) : Monitored :=
  match s.manager.update msg joins spawns with
  | (manager, true) => { s with
      manager := manager
      gauges := s.gauges.setDiscoveryMetrics manager.monoliths.size }
  | (manager, false) => { s with manager := manager }

end Monitored

inductive Operation where
  | addMonolith (monolith : BalancerMonolith)
  | removeMonolith (monolithId : MonolithId)
  | joinMonolith (monolith : NewMonolith) (receiverOpen : Bool)
  | discover (msg : ServiceDiscoveryMsg) (joins spawns : ConnectionConfig → Bool)

def Monitored.step (s : Monitored) : Operation → Monitored
  | .addMonolith monolith => s.addMonolith monolith
  | .removeMonolith monolithId => s.removeMonolith monolithId
  | .joinMonolith monolith receiverOpen => s.joinMonolith monolith receiverOpen
  | .discover msg joins spawns => s.doConnectionJob msg joins spawns

def system : Machine Monitored Operation := ⟨fun s op => some (s.step op)⟩

/-- It is what the balancer's task does to the context. -/
theorem joinMonolith_ctx (s : Monitored) (outbox : List (MonolithId × MsgB2M)) (m : NewMonolith)
    (receiverOpen : Bool) :
    (Balancer.joinMonolith ⟨s.ctx, outbox⟩ m receiverOpen).map (fun out => out.1.ctx) =
      some (s.joinMonolith m receiverOpen).ctx := by
  cases receiverOpen <;> rfl

/-! ## The specification -/

/-- The gauges say how many monoliths are connected, and whether these are as many as were
discovered. -/
structure Truthful (s : Monitored) : Prop where
  connected : s.gauges.connectedMonoliths = s.ctx.monoliths.size
  healthy : s.gauges.healthy = 1 ↔ s.manager.monoliths.size = s.ctx.monoliths.size

/-- **The purpose**: they do so from the first discovery on. -/
def Tracks (s : Monitored) : Prop := s.gauges.discoveryCompleted ≠ 0 → Truthful s

/-- The condition. After the first discovery no monolith is added but one that is connected already.
A discovery that gets to its end finds the connected monoliths counted. And whenever the number of
discovered monoliths that was noted last is not the right one, because a discovery has ended early, it
makes no difference to the comparison. -/
def Counted (s : Monitored) : Operation → Prop
  | .addMonolith monolith =>
    s.gauges.discoveryCompleted ≠ 0 → s.ctx.Connected monolith.id
  | .joinMonolith monolith receiverOpen =>
    s.gauges.discoveryCompleted ≠ 0 → receiverOpen = true → s.ctx.Connected monolith.id
  | .removeMonolith monolithId =>
    s.gauges.discoveryCompleted ≠ 0 →
      (s.gauges.discoveredMonoliths = (s.ctx.monoliths.erase monolithId).size ↔
        s.manager.monoliths.size = (s.ctx.monoliths.erase monolithId).size)
  | .discover msg joins spawns =>
    match s.manager.update msg joins spawns with
    | (_, true) => s.gauges.connectedMonoliths = s.ctx.monoliths.size
    | (manager, false) => s.gauges.discoveryCompleted ≠ 0 →
      (s.gauges.discoveredMonoliths = s.ctx.monoliths.size ↔
        manager.monoliths.size = s.ctx.monoliths.size)

/-! ## One operation -/

section Step

variable {s : Monitored}

theorem decided_init (region : Region) : (Monitored.init region).gauges.Decided := by
  show Gauges.new.Decided
  unfold Gauges.Decided
  decide

theorem decided_step (h : s.gauges.Decided) (op : Operation) : (s.step op).gauges.Decided := by
  cases op with
  | addMonolith monolith => exact h
  | removeMonolith monolithId => exact Gauges.decided_updateHealthGauge _
  | joinMonolith monolith receiverOpen =>
    cases receiverOpen
    · exact h
    · exact h
  | discover msg joins spawns =>
    show (s.doConnectionJob msg joins spawns).gauges.Decided
    unfold Monitored.doConnectionJob
    split
    · exact Gauges.decided_updateHealthGauge _
    · exact h

/-- What is left to say, once it is known what the gauges were set to. -/
theorem truthful_iff (h : s.gauges.Decided) (hcompleted : s.gauges.discoveryCompleted ≠ 0) :
    Truthful s ↔ s.gauges.connectedMonoliths = s.ctx.monoliths.size ∧
      (s.gauges.discoveredMonoliths = s.ctx.monoliths.size ↔
        s.manager.monoliths.size = s.ctx.monoliths.size) := by
  have hdecided : s.gauges.healthy = 1 ↔
      s.gauges.discoveredMonoliths = s.gauges.connectedMonoliths :=
    Iff.trans h (and_iff_right hcompleted)
  constructor
  · intro htruthful
    refine ⟨htruthful.connected, ?_⟩
    rw [← htruthful.healthy, hdecided, htruthful.connected]
  · rintro ⟨hconnected, hsame⟩
    refine ⟨hconnected, ?_⟩
    rw [hdecided, hconnected]
    exact hsame

theorem size_addMonolith (monolith : BalancerMonolith) :
    (s.addMonolith monolith).ctx.monoliths.size = s.ctx.monoliths.size ↔
      s.ctx.Connected monolith.id := by
  show (s.ctx.monoliths.set monolith.id monolith).size = _ ↔ s.ctx.monoliths.contains _ = true
  rw [OrderedMap.size_set]
  split
  · next h => exact iff_of_true rfl h
  · next h => exact iff_of_false (by omega) h

theorem addMonolith_tracks_iff (hdecided : s.gauges.Decided) (h : Tracks s)
    (monolith : BalancerMonolith) : Tracks (s.addMonolith monolith) ↔
      (s.gauges.discoveryCompleted ≠ 0 → s.ctx.Connected monolith.id) := by
  refine forall_congr' (fun hcompleted => ?_)
  rw [← size_addMonolith]
  obtain ⟨hconnected, hsame⟩ := (truthful_iff hdecided hcompleted).mp (h hcompleted)
  constructor
  · intro htruthful
    have hafter : s.gauges.connectedMonoliths = (s.addMonolith monolith).ctx.monoliths.size :=
      htruthful.connected
    omega
  · intro hsize
    refine (truthful_iff (s := s.addMonolith monolith) hdecided hcompleted).mpr ?_
    rw [hsize]
    exact ⟨hconnected, hsame⟩

theorem step_tracks_iff (hdecided : s.gauges.Decided) (h : Tracks s) (op : Operation) :
    Tracks (s.step op) ↔ Counted s op := by
  have hafter := decided_step hdecided op
  cases op with
  | addMonolith monolith => exact addMonolith_tracks_iff hdecided h monolith
  | joinMonolith monolith receiverOpen =>
    cases receiverOpen with
    | false => exact iff_of_true h (fun _ hopen => by cases hopen)
    | true =>
      refine (addMonolith_tracks_iff hdecided h (.new monolith)).trans ?_
      exact forall_congr' (fun _ => ⟨fun hconnected _ => hconnected, fun hconnected =>
        hconnected rfl⟩)
  | removeMonolith monolithId =>
    refine forall_congr' (fun hcompleted => ?_)
    rw [truthful_iff hafter hcompleted]
    exact and_iff_right rfl
  | discover msg joins spawns =>
    have hstep : s.step (.discover msg joins spawns) = s.doConnectionJob msg joins spawns := rfl
    rw [hstep] at hafter ⊢
    unfold Monitored.doConnectionJob at hafter ⊢
    unfold Counted
    dsimp only
    rcases hupdate : s.manager.update msg joins spawns with ⟨manager, finished⟩
    rw [hupdate] at hafter
    cases finished with
    | true =>
      have hcompleted : (s.gauges.setDiscoveryMetrics manager.monoliths.size).discoveryCompleted ≠
          0 := Int.one_ne_zero
      refine Iff.trans ⟨fun htracks => htracks hcompleted, fun htruthful _ => htruthful⟩ ?_
      rw [truthful_iff hafter hcompleted]
      refine and_iff_left ?_
      show ((manager.monoliths.size : Nat) : Int) = _ ↔ _
      exact Int.ofNat_inj
    | false =>
      refine forall_congr' (fun hcompleted => ?_)
      rw [truthful_iff hafter hcompleted]
      exact and_iff_right (h hcompleted).connected

end Step

/-- **The gauges are right in every state of a run if and only if** no step of it goes uncounted. -/
theorem tracks_throughout_iff (region : Region) (operations : List Operation) :
    system.Always Tracks (.init region) operations ↔
      system.Along Counted (.init region) operations := by
  refine Machine.always_iff_along_of_step (I := fun s => s.gauges.Decided) ?_ ?_
    (decided_init region) ?_
  · intro s op s' hdecided hstep
    cases hstep
    exact decided_step hdecided op
  · intro s op s' hdecided htracks hstep
    cases hstep
    exact step_tracks_iff hdecided htracks op
  · exact fun hcompleted => absurd rfl hcompleted

/-- One monolith is discovered, and joins. -/
def oneMonolith : List Operation :=
  [.discover ⟨[⟨.host "monolith", ⟨3004, by decide⟩⟩], []⟩ (fun _ => true) (fun _ => true),
    .joinMonolith ⟨1, "local"⟩ true]

/-- **A balancer with all its monoliths is not healthy.** -/
theorem not_tracks_throughout : ¬ ∀ (region : Region) (operations : List Operation),
    system.Always Tracks (.init region) operations := by
  intro h
  have hlast : Tracks (((Monitored.init "local").step oneMonolith[0]).step oneMonolith[1]) :=
    ((h "local" oneMonolith).2 _ rfl).2 _ rfl
  have hconnected := (hlast (by decide)).connected
  revert hconnected
  decide

end OpenTogetherTube.Balancer.Readiness
