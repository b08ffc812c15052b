import OpenTogetherTube.Balancer.Supervision
import OpenTogetherTube.Lib.Deltas

/-!
# Service discovery

`DiscoveryTask` asks again and again which services there are, keeps the last answer as a set, and
sends what has changed. There are two kinds of those who follow it: the `MonolithConnectionManager` of
a balancer has a set and a task for each monolith in it, and the `Collector` has a list of balancers.
Each reads its messages when it gets to it; the manager waits, in the middle of a message, for each
task that it has cancelled.

What a follower has, what is left of the message it is at, and the messages that wait for it always
lead to what the discovery task has (`Leads`). So once nothing is left, they agree
(`discovery_converges`).
-/

namespace OpenTogetherTube.Balancer.Discovery

open OpenTogetherTube.Lib OpenTogetherTube.Lib.Delta Supervision

/-! ## The discovery task -/

/-- What a message says has changed. -/
def delta (msg : ServiceDiscoveryMsg) : Delta ConnectionConfig := ⟨msg.added, msg.removed⟩

/-- The elements of `a` that are not in `b`. -/
def difference (a b : OrderedSet ConnectionConfig) : List ConnectionConfig :=
  a.toList.filter (fun conf => b.has conf = false)

def buildDiscoveryMsg (current new : OrderedSet ConnectionConfig) : ServiceDiscoveryMsg where
  added := difference new current
  removed := difference current new

/-- What `do_discovery` makes of the set that the task keeps. -/
def apply (monoliths : OrderedSet ConnectionConfig) (msg : ServiceDiscoveryMsg)
    (new : OrderedSet ConnectionConfig) : OrderedSet ConnectionConfig :=
  new.toList.foldl OrderedSet.add (msg.removed.foldl OrderedSet.delete monoliths)

/-- The task, the messages that wait, and who follows. -/
structure State (γ : Type) where
  monoliths : OrderedSet ConnectionConfig
  channel : List ServiceDiscoveryMsg
  follower : γ

inductive Event (ε : Type) where
  /-- `discover` fails. -/
  | failed
  /-- `discover` gives a list, and the message comes out of the hash sets in this order. -/
  | discovered (monoliths : List ConnectionConfig) (msg : ServiceDiscoveryMsg)
  /-- The follower does something, and it may take the next message. -/
  | follower (e : ε)

/-- The orders that a message may come out in. -/
def IsOrder (msg msg' : ServiceDiscoveryMsg) : Prop :=
  msg.added.isPerm msg'.added = true ∧ msg.removed.isPerm msg'.removed = true

instance (msg msg' : ServiceDiscoveryMsg) : Decidable (IsOrder msg msg') :=
  inferInstanceAs (Decidable (_ ∧ _))

section System

variable {γ ε : Type} (M : Machine γ ε) (takes : ε → Option ServiceDiscoveryMsg)

def step (s : State γ) : Event ε → Option (State γ)
  | .failed => some s
  | .discovered monoliths msg =>
    let new := OrderedSet.ofList monoliths
    if IsOrder msg (buildDiscoveryMsg s.monoliths new) then
      some { s with
        monoliths := apply s.monoliths msg new
        channel := s.channel ++ [msg] }
    else none
  | .follower e =>
    match takes e with
    | none => (M.step s.follower e).map (fun follower => { s with follower := follower })
    | some msg =>
      if s.channel.head? = some msg then
        (M.step s.follower e).map (fun follower =>
          { s with channel := s.channel.tail, follower := follower })
      else none

def machine : Machine (State γ) (Event ε) := ⟨step M takes⟩

/-- Nothing is discovered yet. -/
def start (follower : γ) : State γ := ⟨∅, [], follower⟩

/-- What was found last, after an event. -/
def latest (found : List ConnectionConfig) : Event ε → List ConnectionConfig
  | .discovered monoliths _ => monoliths
  | .failed | .follower _ => found

/-- The last list that `discover` gave. -/
def last (es : List (Event ε)) : List ConnectionConfig := es.foldl latest []

end System

/-! ## Who follows -/

/-- The message that an event of the manager takes. -/
def takesMsg : Supervision.Event → Option ServiceDiscoveryMsg
  | .discover msg => some msg
  | _ => none

/-- The connection manager of a balancer, with everything that goes on there. -/
def manager : Machine (State World) (Event Supervision.Event) := machine system takesMsg

/-- The collector's `balancers`. -/
structure Collector where
  balancers : List ConnectionConfig
  deriving DecidableEq

def Collector.handleDiscovery (c : Collector) (msg : ServiceDiscoveryMsg) : Collector where
  balancers := c.balancers.filter (fun conf => conf ∉ msg.removed) ++ msg.added

/-- It does nothing else with them. -/
def collecting : Machine Collector ServiceDiscoveryMsg :=
  ⟨fun c msg => some (c.handleDiscovery msg)⟩

def collector : Machine (State Collector) (Event ServiceDiscoveryMsg) := machine collecting some

/-! ## What the task sends -/

/-- The elements of a set. -/
def elements (s : OrderedSet ConnectionConfig) : Set ConnectionConfig := {conf | s.has conf = true}

theorem elements_empty : elements ∅ = ∅ :=
  Set.eq_empty_of_forall_notMem fun _ h => by cases h

theorem mem_toList {s : OrderedSet ConnectionConfig} {conf : ConnectionConfig} :
    conf ∈ s.toList ↔ conf ∈ elements s := OrderedMap.mem_keys_iff

theorem mem_difference {a b : OrderedSet ConnectionConfig} {conf : ConnectionConfig} :
    conf ∈ difference a b ↔ conf ∈ elements a ∧ conf ∉ elements b := by
  unfold difference
  rw [List.mem_filter, mem_toList, decide_eq_true_eq]
  unfold elements
  simp

theorem nodup_difference (a b : OrderedSet ConnectionConfig) : (difference a b).Nodup :=
  List.Nodup.filter _ a.nodupKeys

/-- **The message is the change from the one set to the other.** -/
theorem between_buildDiscoveryMsg (current new : OrderedSet ConnectionConfig) :
    Between (elements current) (elements new) (delta (buildDiscoveryMsg current new)) where
  mem_added _ := mem_difference
  mem_removed _ := mem_difference
  nodup_added := nodup_difference _ _
  nodup_removed := nodup_difference _ _

theorem between_of_isOrder {current new : OrderedSet ConnectionConfig} {msg : ServiceDiscoveryMsg}
    (h : IsOrder msg (buildDiscoveryMsg current new)) :
    Between (elements current) (elements new) (delta msg) :=
  (between_buildDiscoveryMsg current new).perm (List.isPerm_iff.mp h.1) (List.isPerm_iff.mp h.2)

theorem elements_foldl_delete (removed : List ConnectionConfig)
    (s : OrderedSet ConnectionConfig) :
    elements (removed.foldl OrderedSet.delete s) = {conf | conf ∈ elements s ∧ conf ∉ removed} := by
  induction removed generalizing s with
  | nil => simp [elements]
  | cons conf removed ih =>
    rw [List.foldl_cons, ih]
    ext conf'
    simp [elements]
    tauto

theorem elements_foldl_add (added : List ConnectionConfig) (s : OrderedSet ConnectionConfig) :
    elements (added.foldl OrderedSet.add s) = {conf | conf ∈ elements s ∨ conf ∈ added} := by
  induction added generalizing s with
  | nil => simp [elements]
  | cons conf added ih =>
    rw [List.foldl_cons, ih]
    ext conf'
    simp [elements]
    tauto

/-- **The task keeps what was found last.** -/
theorem elements_apply {current new : OrderedSet ConnectionConfig} {msg : ServiceDiscoveryMsg}
    (h : IsOrder msg (buildDiscoveryMsg current new)) :
    elements (apply current msg new) = elements new := by
  have hbetween := between_of_isOrder h
  unfold apply
  rw [elements_foldl_add, elements_foldl_delete]
  ext conf
  have hremoved := hbetween.mem_removed conf
  simp only [delta, Set.mem_ofPred_eq, mem_toList] at hremoved ⊢
  tauto

theorem elements_ofList (l : List ConnectionConfig) :
    elements (OrderedSet.ofList l) = {conf | conf ∈ l} := by
  ext conf
  rw [← mem_toList]
  exact OrderedSet.mem_ofList

/-! ## Staying in step -/

section System

variable {γ ε : Type} {M : Machine γ ε} {takes : ε → Option ServiceDiscoveryMsg}

/-- **What a follower does.** It has a set, and what is left of the message it is at; it takes up a
message, and goes on with it, so that the same changes lead to the same set. -/
structure Follows (M : Machine γ ε) (takes : ε → Option ServiceDiscoveryMsg)
    (has : γ → Set ConnectionConfig) (left : γ → List (Delta ConnectionConfig)) (I : γ → Prop) :
    Prop where
  quiet : ∀ f e f' ds t, I f → takes e = none → M.step f e = some f' →
    Leads (has f) (left f ++ ds) t → I f' ∧ Leads (has f') (left f' ++ ds) t
  takes : ∀ f e f' msg ds t, I f → takes e = some msg → M.step f e = some f' →
    Leads (has f) (left f ++ delta msg :: ds) t → I f' ∧ Leads (has f') (left f' ++ ds) t

variable {has : γ → Set ConnectionConfig} {left : γ → List (Delta ConnectionConfig)} {I : γ → Prop}

/-- Everything that is left for the follower leads it to what the discovery task has. -/
def InStep (has : γ → Set ConnectionConfig) (left : γ → List (Delta ConnectionConfig))
    (I : γ → Prop) (s : State γ) : Prop :=
  I s.follower ∧
    Leads (has s.follower) (left s.follower ++ s.channel.map delta) (elements s.monoliths)

/-- **One step.** -/
theorem step_inStep (hM : Follows M takes has left I) {s s' : State γ} {e : Event ε}
    {found : List ConnectionConfig} (h : InStep has left I s)
    (hfound : elements s.monoliths = {conf | conf ∈ found})
    (hs : (machine M takes).step s e = some s') :
    InStep has left I s' ∧ elements s'.monoliths = {conf | conf ∈ latest found e} := by
  change step M takes s e = some s' at hs
  cases e with
  | failed =>
    cases hs
    exact ⟨h, hfound⟩
  | discovered monoliths msg =>
    simp only [step] at hs
    split at hs
    · next horder =>
      cases hs
      have helements := elements_apply horder
      refine ⟨⟨h.1, ?_⟩, helements.trans (elements_ofList monoliths)⟩
      dsimp only
      rw [List.map_append, ← List.append_assoc, helements]
      exact h.2.append (between_of_isOrder horder).leads
    · cases hs
  | follower e =>
    simp only [step] at hs
    split at hs
    · next htakes =>
      obtain ⟨f', hf', rfl⟩ := Option.map_eq_some_iff.mp hs
      exact ⟨hM.quiet _ _ _ _ _ h.1 htakes hf' h.2, hfound⟩
    · next msg htakes =>
      split at hs
      · next hhead =>
        obtain ⟨f', hf', rfl⟩ := Option.map_eq_some_iff.mp hs
        obtain ⟨rest, hchannel⟩ := List.head?_eq_some_iff.mp hhead
        have hleads := h.2
        rw [hchannel, List.map_cons] at hleads
        refine ⟨?_, hfound⟩
        unfold InStep
        dsimp only
        rw [hchannel, List.tail_cons]
        exact hM.takes _ _ _ _ _ _ h.1 htakes hf' hleads
      · cases hs

/-- **Every run.** -/
theorem run_inStep (hM : Follows M takes has left I) {s s' : State γ} {es : List (Event ε)}
    {found : List ConnectionConfig} (h : InStep has left I s)
    (hfound : elements s.monoliths = {conf | conf ∈ found})
    (hs : (machine M takes).run s es = some s') :
    InStep has left I s' ∧ elements s'.monoliths = {conf | conf ∈ es.foldl latest found} := by
  induction es generalizing s found with
  | nil =>
    cases hs
    exact ⟨h, hfound⟩
  | cons e es ih =>
    obtain ⟨s₁, hfirst, hrest⟩ := Machine.run_cons_eq_some.mp hs
    obtain ⟨hstep, hlatest⟩ := step_inStep hM h hfound hfirst
    exact ih hstep hlatest hrest

/-- Once nothing is left, the follower has what was found last. -/
theorem has_eq_last (hM : Follows M takes has left I) {f : γ} (hI : I f) (hempty : has f = ∅)
    (hleft : left f = []) {s : State γ} {es : List (Event ε)}
    (hs : (machine M takes).run (start f) es = some s) (hchannel : s.channel = [])
    (hdone : left s.follower = []) : I s.follower ∧ has s.follower = {conf | conf ∈ last es} := by
  have hstart : InStep has left I (start f) := by
    refine ⟨hI, ?_⟩
    show Leads (has f) (left f ++ []) (elements ∅)
    rw [hempty, hleft, elements_empty]
    rfl
  have hfound : elements (start f).monoliths = {conf | conf ∈ ([] : List ConnectionConfig)} := by
    show elements ∅ = _
    rw [elements_empty]
    simp
  obtain ⟨⟨hI', hleads⟩, hlast⟩ := run_inStep hM hstart hfound hs
  rw [hchannel, hdone] at hleads
  exact ⟨hI', hleads.trans hlast⟩

end System

/-! ## The collector -/

theorem collecting_follows : Follows collecting some (fun c => {conf | conf ∈ c.balancers})
    (fun _ => []) (fun c => c.balancers.Nodup) where
  quiet _ _ _ _ _ _ htakes := by cases htakes
  takes c msg c' _ ds t hnodup htakes hs hleads := by
    cases htakes
    cases hs
    obtain ⟨u, hbetween, hrest⟩ := hleads
    have happly : {conf | conf ∈ (c.handleDiscovery msg).balancers} = u := by
      rw [← hbetween.apply_eq]
      ext conf
      simp [Collector.handleDiscovery, Delta.apply, delta]
    refine ⟨?_, ?_⟩
    · -- what is added was not there
      refine List.nodup_append.mpr ⟨hnodup.filter _, hbetween.nodup_added, ?_⟩
      rintro conf hold _ hnew rfl
      exact ((hbetween.mem_added conf).mp hnew).2 (List.mem_filter.mp hold).1
    · rw [happly]
      exact hrest

/-! ## The connection manager -/

/-- Only discovered monoliths have tasks, and whatever other task there ever was has been cancelled. -/
structure Tracked (w : World) : Prop where
  listed : ∀ conf handle, w.connectionTasks.get? conf = some handle → conf ∈ elements w.monoliths
  others : ∀ (handle : Nat) conn, w.connections[handle]? = some conn →
    conn.cancelled = true ∨ w.connectionTasks.get? conn.conf = some handle

section Manager

variable {w w' : World} {conf : ConnectionConfig} {handle : Nat} {t : Set ConnectionConfig}

theorem elements_spawn (w : World) (conf : ConnectionConfig) :
    elements (w.spawn conf).monoliths = {conf' | conf' = conf ∨ conf' ∈ elements w.monoliths} := by
  ext conf'
  simp [World.spawn, elements]

theorem elements_forget (w : World) (conf : ConnectionConfig) :
    elements (w.forget conf).monoliths = {conf' | conf' ∈ elements w.monoliths ∧ conf' ≠ conf} := by
  ext conf'
  simp [World.forget, elements, and_comm]

/-- **A task is spawned for a monolith that had none.** -/
theorem Tracked.spawn (h : Tracked w) (hnew : conf ∉ elements w.monoliths) :
    Tracked (w.spawn conf) := by
  constructor
  · intro conf' handle hhandle
    rw [elements_spawn]
    unfold World.spawn at hhandle
    dsimp only at hhandle
    rw [OrderedMap.get?_set] at hhandle
    split at hhandle
    · next heq => exact .inl heq
    · exact .inr (h.listed conf' handle hhandle)
  · intro handle conn hconn
    unfold World.spawn at hconn ⊢
    dsimp only at hconn ⊢
    rw [OrderedMap.get?_set]
    by_cases hlt : handle < w.connections.length
    · rw [List.getElem?_append_left hlt] at hconn
      refine (h.others handle conn hconn).imp_right fun hlisted => ?_
      have hne : conn.conf ≠ conf := fun heq => hnew (heq ▸ h.listed _ _ hlisted)
      rwa [if_neg hne]
    · rw [List.getElem?_append_right (Nat.le_of_not_lt hlt)] at hconn
      rw [List.getElem?_singleton] at hconn
      split at hconn <;> cases hconn
      next hzero =>
      have heq : w.connections.length = handle := by omega
      exact .inr (by rw [if_pos rfl, heq])

/-- **A task is cancelled.** -/
theorem Tracked.cancel (h : Tracked w)
    (hconf : w.connectionTasks.get? conf = some handle) :
    Tracked ((w.forget conf).cancel conf handle) := by
  constructor
  · intro conf' handle' hhandle'
    show conf' ∈ elements (w.forget conf).monoliths
    rw [elements_forget]
    unfold World.cancel World.forget at hhandle'
    dsimp only at hhandle'
    rw [OrderedMap.get?_erase] at hhandle'
    split at hhandle'
    · cases hhandle'
    · next hne => exact ⟨h.listed conf' handle' hhandle', hne⟩
  · intro handle' conn hconn
    unfold World.cancel World.forget at hconn ⊢
    dsimp only at hconn ⊢
    rw [OrderedMap.get?_erase]
    by_cases heq : handle = handle'
    · subst heq
      rw [List.getElem?_modify_eq] at hconn
      obtain ⟨conn', -, rfl⟩ := Option.map_eq_some_iff.mp hconn
      exact .inl rfl
    · rw [List.getElem?_modify_ne _ _ heq] at hconn
      refine (h.others handle' conn hconn).imp_right fun hlisted => ?_
      have hne : conn.conf ≠ conf := by
        rintro rfl
        rw [hconf] at hlisted
        exact heq (Option.some.inj hlisted)
      rwa [if_neg hne]

/-- A configuration without a task is forgotten. -/
theorem Tracked.forget (h : Tracked w) (hconf : w.connectionTasks.get? conf = none) :
    Tracked (w.forget conf) := by
  refine ⟨fun conf' handle hhandle => ?_, h.others⟩
  rw [elements_forget]
  refine ⟨h.listed conf' handle hhandle, ?_⟩
  rintro rfl
  exact absurd (hconf.symm.trans hhandle) (by simp)

/-- What is left of the message that the manager is at. -/
def leftOver (w : World) : List (Delta ConnectionConfig) := (w.awaiting.map (fun a => delta a.2)).toList

/-- What the manager keeps to. -/
def Kept (w : World) : Prop := Managed w ∧ Tracked w

theorem foldl_spawn (added : List ConnectionConfig) (h : Kept w)
    (hbetween : Between (elements w.monoliths) t ⟨added, []⟩) :
    Kept (added.foldl World.spawn w) ∧ elements (added.foldl World.spawn w).monoliths = t := by
  induction added generalizing w with
  | nil => exact ⟨h, hbetween.eq⟩
  | cons conf added ih =>
    have hnew := ((hbetween.mem_added conf).mp List.mem_cons_self).2
    refine ih ⟨h.1.spawn conf, h.2.spawn hnew⟩ ?_
    rw [elements_spawn]
    exact hbetween.add

/-- **What is left after each stretch of a message leads where the message does.** -/
theorem doConnectionJob_leads (added removed : List ConnectionConfig) (h : Kept w)
    (hbetween : Between (elements w.monoliths) t ⟨added, removed⟩) :
    Kept (w.doConnectionJob added removed) ∧
      Leads (elements (w.doConnectionJob added removed).monoliths)
        (leftOver (w.doConnectionJob added removed)) t := by
  induction removed generalizing w with
  | nil =>
    obtain ⟨hkept, helements⟩ := foldl_spawn added h hbetween
    exact ⟨⟨hkept.1.await none, hkept.2.listed, hkept.2.others⟩, helements⟩
  | cons m removed ih =>
    rw [World.doConnectionJob]
    split
    · next hm =>
      refine ih ⟨h.1.forget m, h.2.forget hm⟩ ?_
      rw [elements_forget]
      exact hbetween.remove
    · next handle hm =>
      have htracked := h.2.cancel hm
      refine ⟨⟨(h.1.cancel hm).await _, htracked.listed, htracked.others⟩, ?_⟩
      show Leads (elements (w.forget m).monoliths) [⟨added, removed⟩] t
      rw [elements_forget]
      exact hbetween.remove.leads

/-- What goes on among the tasks is not the manager's concern. -/
theorem Tracked.congr (h : Tracked w) (hmonoliths : w'.monoliths = w.monoliths)
    (htasks : w'.connectionTasks = w.connectionTasks)
    (hconnections : ∀ (handle : Nat) conn', w'.connections[handle]? = some conn' →
      ∃ conn, w.connections[handle]? = some conn ∧ conn'.conf = conn.conf ∧
        conn'.cancelled = conn.cancelled) : Tracked w' := by
  constructor
  · intro conf handle hhandle
    rw [hmonoliths]
    exact h.listed conf handle (htasks ▸ hhandle)
  · intro handle conn' hconn'
    obtain ⟨conn, hconn, hconf, hcancelled⟩ := hconnections handle conn' hconn'
    rw [hconf, hcancelled, htasks]
    exact h.others handle conn hconn

/-- **The steps that take no message** leave what the manager has, and end no more than one stretch
of a message. -/
theorem system_follows : Follows system takesMsg (fun w => elements w.monoliths) leftOver Kept where
  quiet w e w' ds t h htakes hs hleads := by
    have hmanaged := step_managed h.1 hs
    change w.step e = some w' at hs
    cases e with
    | discover msg => cases htakes
    | joined =>
      simp only [World.step] at hs
      split at hs
      · next handle msg hawaiting =>
        split at hs <;> cases hs
        unfold leftOver at hleads
        rw [hawaiting] at hleads
        obtain ⟨u, hbetween, hrest⟩ := hleads
        obtain ⟨hkept, hleads'⟩ := doConnectionJob_leads msg.added msg.removed h hbetween
        exact ⟨hkept, hleads'.append hrest⟩
      · cases hs
    | connection handle outcome =>
      obtain ⟨conn, conn', pool, hconn, hstepped, -, rfl⟩ := connection_eq_some hs
      refine ⟨⟨hmanaged, h.2.congr rfl rfl fun handle' conn'' hconn'' => ?_⟩, hleads⟩
      dsimp only at hconn''
      rw [List.getElem?_set] at hconn''
      split at hconn''
      · next heq =>
        subst heq
        split at hconn'' <;> cases hconn''
        exact ⟨conn, hconn, hstepped.conf, hstepped.cancelled⟩
      · exact ⟨conn'', hconn'', rfl, rfl⟩
    | client call =>
      simp only [World.step] at hs
      split at hs <;> cases hs
      · exact ⟨⟨hmanaged, h.2.listed, h.2.others⟩, hleads⟩
      · exact ⟨⟨hmanaged, h.2.listed, h.2.others⟩, hleads⟩
    | segment i x =>
      obtain ⟨task, s, progress, -, -, rfl⟩ := segment_eq_some hs
      refine ⟨⟨hmanaged, h.2.congr rfl rfl fun handle conn' hconn' => ?_⟩, hleads⟩
      dsimp only at hconn'
      rw [connections_segment, List.getElem?_map] at hconn'
      obtain ⟨conn, hconn, rfl⟩ := Option.map_eq_some_iff.mp hconn'
      refine ⟨conn, hconn, ?_⟩
      rcases linked_cases task x i conn with heq | ⟨m, -, heq⟩ <;> rw [heq]
      · exact ⟨rfl, rfl⟩
      · exact ⟨rfl, rfl⟩
  takes w e w' msg ds t h htakes hs hleads := by
    change w.step e = some w' at hs
    cases e with
    | discover msg' =>
      cases htakes
      simp only [World.step] at hs
      split at hs <;> cases hs
      next hawaiting =>
      unfold leftOver at hleads
      rw [hawaiting] at hleads
      obtain ⟨u, hbetween, hrest⟩ := hleads
      obtain ⟨hkept, hleads'⟩ := doConnectionJob_leads msg.added msg.removed h hbetween
      exact ⟨hkept, hleads'.append hrest⟩
    | _ => cases htakes

end Manager

/-! ## Every run -/

theorem managed_init (region : Region) : Kept (.init region) :=
  ⟨⟨fun _ _ h => (by cases h), fun _ h => (by cases h)⟩,
    ⟨fun _ _ h => (by cases h), fun _ _ h => (by cases h)⟩⟩

/-- The manager has taken all messages, and waits for no task. -/
def Consumed (s : State World) : Prop := s.channel = [] ∧ s.follower.awaiting = none

/-- **The followers of service discovery converge**: once they have taken all messages, the manager's
set and its tasks, and the collector's list, are what was found last; and whatever task was ever
spawned for another configuration has been cancelled. -/
theorem discovery_converges :
    (∀ region es s, manager.run (start (.init region)) es = some s → Consumed s →
      (∀ conf, s.follower.monoliths.has conf = true ↔ conf ∈ last es) ∧
      (∀ conf, conf ∈ s.follower.connectionTasks.keys ↔ conf ∈ last es) ∧
      ∀ conn ∈ s.follower.connections, conn.conf ∉ last es → conn.cancelled = true) ∧
    ∀ es s, collector.run (start ⟨[]⟩) es = some s → s.channel = [] →
      s.follower.balancers.Nodup ∧ ∀ conf, conf ∈ s.follower.balancers ↔ conf ∈ last es := by
  constructor
  · rintro region es s hs ⟨hchannel, hawaiting⟩
    have hleft : leftOver s.follower = [] := by
      unfold leftOver
      rw [hawaiting]
      rfl
    obtain ⟨⟨hmanaged, htracked⟩, helements⟩ := has_eq_last system_follows (managed_init region)
      elements_empty rfl hs hchannel hleft
    have hlast : ∀ conf, conf ∈ elements s.follower.monoliths ↔ conf ∈ last es :=
      fun conf => Set.ext_iff.mp helements conf
    refine ⟨hlast, fun conf => ?_, fun conn hconn hother => ?_⟩
    · rw [OrderedMap.mem_keys_iff, OrderedMap.contains_iff]
      constructor
      · rintro ⟨handle, hhandle⟩
        exact (hlast conf).mp (htracked.listed conf handle hhandle)
      · intro hconf
        exact hmanaged.known conf ((hlast conf).mpr hconf)
    · obtain ⟨handle, hhandle⟩ := List.mem_iff_getElem?.mp hconn
      refine (htracked.others handle conn hhandle).resolve_right fun hlisted => hother ?_
      exact (hlast _).mp (htracked.listed _ handle hlisted)
  · intro es s hs hchannel
    obtain ⟨hnodup, helements⟩ := has_eq_last collecting_follows List.nodup_nil
      (by simp) rfl hs hchannel rfl
    exact ⟨hnodup, fun conf => Set.ext_iff.mp helements conf⟩

def first : ConnectionConfig := ⟨.host "first", ⟨3002, by decide⟩⟩

def second : ConnectionConfig := ⟨.host "second", ⟨3002, by decide⟩⟩

/-- The first service is found twice in one answer, then a round fails, and then the second one is
found in its place. -/
def found {ε : Type} (e : List ε) (e' : List ε) : List (Event ε) :=
  [.discovered [first, first] ⟨[first], []⟩, .failed] ++ e.map .follower ++
    [.discovered [second] ⟨[second], [first]⟩] ++ e'.map .follower

/-- The manager follows, and the task of the first service ends once it is cancelled. -/
def followed : List (Event Supervision.Event) :=
  found [.discover ⟨[first], []⟩]
    [.discover ⟨[second], [first]⟩, .connection 0 .cancelled, .joined]

def collected : List (Event ServiceDiscoveryMsg) :=
  found [] [⟨[first], []⟩, ⟨[second], [first]⟩]

theorem discovery_converges_found :
    (∃ s, manager.run (start (.init "local")) followed = some s ∧
      s.follower.monoliths.has second = true ∧ s.follower.monoliths.has first = false ∧
      second ∈ s.follower.connectionTasks.keys ∧
      ∀ conn ∈ s.follower.connections, conn.conf ∉ last followed → conn.cancelled = true) ∧
    ∃ s, collector.run (start ⟨[]⟩) collected = some s ∧ s.follower.balancers.Nodup ∧
      second ∈ s.follower.balancers := by
  constructor
  · have hrun : ∃ s, manager.run (start (.init "local")) followed = some s ∧
        s.channel = [] ∧ s.follower.awaiting = none := by
      decide +kernel
    obtain ⟨s, hs, hconsumed⟩ := hrun
    obtain ⟨hmonoliths, htasks, hcancelled⟩ := discovery_converges.1 "local" followed s hs hconsumed
    refine ⟨s, hs, (hmonoliths second).mpr (by decide), ?_, (htasks second).mpr (by decide),
      hcancelled⟩
    rw [Bool.eq_false_iff]
    exact fun hfirst => absurd ((hmonoliths first).mp hfirst) (by decide)
  · have hrun : ∃ s, collector.run (start ⟨[]⟩) collected = some s ∧ s.channel = [] := by
      decide +kernel
    obtain ⟨s, hs, hchannel⟩ := hrun
    obtain ⟨hnodup, hbalancers⟩ := discovery_converges.2 collected s hs hchannel
    exact ⟨s, hs, hnodup, (hbalancers second).mpr (by decide)⟩

end OpenTogetherTube.Balancer.Discovery
