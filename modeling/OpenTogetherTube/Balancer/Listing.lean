import OpenTogetherTube.Balancer.Directory
import OpenTogetherTube.Balancer.Gossip

/-!
# Ghost clients

A client is recorded with the context and in the list of its room. `NoGhosts` says that the two
records agree. They are written together when a client joins and when it leaves, but a room can go in
between: what takes a room off a monolith, or a monolith that joins under the id of another, drops
the list of the room and leaves the clients' own records; and a client whose room has gone while its
`B2MJoin` was sent is put on the list all the same.

`agreed_throughout_iff` says that nothing else can go wrong: the records agree throughout a run
exactly if each segment of it spares the clients.
-/

namespace OpenTogetherTube.Balancer.Listing

open OpenTogetherTube.Lib BalancerContext Gossip

/-! ## Visits -/

/-- The tasks of the balancer, and the ids of the clients that have connected so far. -/
structure Visits where
  pool : Pool State Task TaskEnd
  known : List ClientId

/-- A balancer that has just started. -/
def Visits.init (region : Region) : Visits := ⟨Balancer.init region, []⟩

/-- `Uuid::new_v4`: a client that connects gets an id that no client has had. -/
def Fresh (known : List ClientId) : PoolEvent Call Answer Empty → Bool
  | .call (.joinClient c) => c.id ∉ known
  | _ => true

def newIds : PoolEvent Call Answer Empty → List ClientId
  | .call (.joinClient c) => [c.id]
  | _ => []

/-- The balancer's tasks under every interleaving. -/
def visits : Machine Visits (PoolEvent Call Answer Empty) where
  step w e :=
    if Fresh w.known e then
      (balancer.machine.step w.pool e).map (fun pool => ⟨pool, w.known ++ newIds e⟩)
    else none

/-! ## The specification -/

/-- The client's join is between its two critical sections. -/
def Between (p : Pool State Task TaskEnd) (c : ClientId) : Prop :=
  ∃ task, .waiting task ∈ p.tasks ∧ ∃ m r, joining task = some (m, r, c)

/-- **The two records agree.** -/
structure NoGhosts (p : Pool State Task TaskEnd) : Prop where
  registered : ∀ m r c, c ∈ p.shared.ctx.directory.listed m r → Between p c ∨
    ∃ client, p.shared.ctx.clients.get? c = some client ∧ client.room = r
  present : ∀ c client, p.shared.ctx.clients.get? c = some client →
    ∃ locator, p.shared.ctx.roomsToMonoliths.get? client.room = some locator ∧
      c ∈ p.shared.ctx.directory.listed locator.monolithId client.room
  nodup : ∀ m r, (p.shared.ctx.directory.listed m r).Nodup
  once : ∀ m r m' r' c, c ∈ p.shared.ctx.directory.listed m r →
    c ∈ p.shared.ctx.directory.listed m' r' → m = m' ∧ r = r'

/-! ## The condition -/

/-- The segment that runs spares the clients: a client is put on the list of a room that is mapped
there, and a room that is taken off a monolith or moved to another has no clients, nor has a monolith
that joins again. -/
def SparesClients (w : Visits) : PoolEvent Call Answer Empty → Prop
  | .answer i x => ∀ task, w.pool.tasks[i]? = some (.waiting task) →
      w.pool.shared.ctx.directory.Spares (w.pool.shared.ctx.change task x)
  | _ => True

/-! ## Ids are used once -/

/-- Who is being joined is new to the context, and everybody in the context has connected. -/
structure Used (known : List ClientId) (p : Pool State Task TaskEnd) : Prop where
  nodup : (p.tasks.filterMap taskJoinId).Nodup
  tasks : ∀ t ∈ p.tasks, ∀ c, taskJoinId t = some c → c ∈ known ∧
    p.shared.ctx.directory.group c = none ∧ ∀ m r, c ∉ p.shared.ctx.directory.listed m r
  group : ∀ c r, p.shared.ctx.directory.group c = some r → c ∈ known
  listed : ∀ m r c, c ∈ p.shared.ctx.directory.listed m r → c ∈ known

theorem used_init (region : Region) : Used [] (Balancer.init region) where
  nodup := List.nodup_nil
  tasks t ht := by cases ht
  group c r h := by cases h
  listed m r c h := by cases h

/-- Only `joinRegister` enrolls. -/
theorem enroll_of_change {ctx : BalancerContext} {task : Task} {x : Answer} {k : ClientId}
    {r : RoomName} {m : MonolithId} (h : ctx.change task x = .enroll k r m) :
    ∃ c, task = .joinRegister c m ∧ k = c.id ∧ r = c.room := by
  unfold BalancerContext.change at h
  split at h
  case h_2 c m' receiverOpen =>
    split at h <;> cases h
    exact ⟨c, rfl, rfl, rfl⟩
  case h_1 => split at h <;> cases h
  all_goals first
    | cases h
    | (unfold closeChange at h; split at h <;> cases h)
    | (unfold reportChange at h; repeat' split at h) <;> cases h

theorem joinRegister_done {s s' : State} {c : NewClient} {m : MonolithId} {receiverOpen : Bool}
    {progress : Progress Task TaskEnd}
    (h : joinRegister s c m receiverOpen = some (s', progress)) : ∃ result, progress = .done result := by
  unfold joinRegister at h
  split at h <;> cases h <;> exact ⟨_, rfl⟩

section Step

variable {w w' : Visits} {e : PoolEvent Call Answer Empty}

theorem step_visits (h : visits.step w e = some w') :
    Fresh w.known e ∧ balancer.machine.step w.pool e = some w'.pool ∧
      w'.known = w.known ++ newIds e := by
  simp only [visits] at h
  split at h
  · next hfresh =>
    obtain ⟨pool, hpool, rfl⟩ := Option.map_eq_some_iff.mp h
    exact ⟨hfresh, hpool, rfl⟩
  · cases h

/-- What enrolls is a task of a client that is new to the context. -/
theorem Used.enroll {known : List ClientId} {p : Pool State Task TaskEnd} (h : Used known p)
    {i : Nat} {task : Task} {x : Answer} (ht : p.tasks[i]? = some (.waiting task)) {k : ClientId}
    {r : RoomName} {m : MonolithId} (hchange : p.shared.ctx.change task x = .enroll k r m) :
    k ∈ known ∧ p.shared.ctx.directory.group k = none := by
  obtain ⟨c, rfl, rfl, rfl⟩ := enroll_of_change hchange
  obtain ⟨hknown, hgroup, -⟩ := h.tasks _ (Program.mem_of_getElem? ht) c.id rfl
  exact ⟨hknown, hgroup⟩

theorem Used.segment {known : List ClientId} {p : Pool State Task TaskEnd} (h : Used known p)
    {i : Nat} {task : Task} {x : Answer} {s : State} {progress : Progress Task TaskEnd}
    (ht : p.tasks[i]? = some (.waiting task)) (hres : resume task x p.shared = some (s, progress)) :
    Used known ⟨s, p.tasks.set i progress⟩ := by
  have htask := Program.mem_of_getElem? ht
  have heffect := segment_effect hres
  have hdir := segment_directory hres
  have hid : ∀ c, taskJoinId progress = some c → joinId task = some c := by
    intro c hc
    cases progress with
    | waiting t => exact heffect.joinId t rfl c hc
    | done result => cases hc
  obtain ⟨rest, hbefore, hafter⟩ := Program.filterMap_set_perm taskJoinId ht progress
  have hn := hbefore.nodup_iff.mp h.nodup
  refine ⟨?_, fun t ht' c hc => ?_, fun c r hc => ?_, fun m r c hc => ?_⟩
  · rw [hafter.nodup_iff]
    cases hc : taskJoinId progress with
    | none => exact (List.nodup_append.mp hn).2.1
    | some c =>
      rw [show taskJoinId (.waiting task) = some c from hid c hc] at hn
      exact hn
  · -- whoever is still being joined was not enrolled by this segment
    have hin : c ∈ (taskJoinId progress).toList ++ rest :=
      hafter.mem_iff.mp (List.mem_filterMap.mpr ⟨t, ht', hc⟩)
    have hother : ∀ r m, p.shared.ctx.change task x ≠ .enroll c r m := by
      intro r m hchange
      obtain ⟨nc, rfl, rfl, -⟩ := enroll_of_change hchange
      have hdone : taskJoinId progress = none := by
        cases x with
        | lockHandOver receiverOpen =>
          obtain ⟨result, rfl⟩ := joinRegister_done hres
          rfl
        | _ => cases hres
      rw [hdone] at hin
      exact (List.nodup_cons.mp hn).1 hin
    have hold : c ∈ known ∧ p.shared.ctx.directory.group c = none ∧
        ∀ m r, c ∉ p.shared.ctx.directory.listed m r := by
      rcases List.mem_or_eq_of_mem_set ht' with hin' | rfl
      · exact h.tasks t hin' c hc
      · exact h.tasks _ htask c (hid c hc)
    refine ⟨hold.1, ?_, fun m r hmem => ?_⟩
    · show s.ctx.directory.group c = none
      rw [hdir, Option.eq_none_iff_forall_ne_some]
      intro r hr
      rcases Registry.group_apply hr with hgroup | ⟨m, hnew⟩
      · rw [hold.2.1] at hgroup
        cases hgroup
      · exact hother r m hnew
    · change c ∈ s.ctx.directory.listed m r at hmem
      rw [hdir] at hmem
      rcases Registry.mem_listed_apply hmem with hlisted | hnew
      · exact hold.2.2 m r hlisted
      · exact hother r m hnew
  · change s.ctx.directory.group c = some r at hc
    rw [hdir] at hc
    rcases Registry.group_apply hc with hold | ⟨m, hnew⟩
    · exact h.group c r hold
    · exact (h.enroll ht hnew).1
  · change c ∈ s.ctx.directory.listed m r at hc
    rw [hdir] at hc
    rcases Registry.mem_listed_apply hc with hold | hnew
    · exact h.listed m r c hold
    · exact (h.enroll ht hnew).1

/-- A task starts; if it joins a client, that is a new one. -/
theorem Used.call {known : List ClientId} {p : Pool State Task TaskEnd} (h : Used known p) {c : Call}
    (hfresh : Fresh known (.call c)) :
    Used (known ++ newIds (.call c)) ⟨p.shared, p.tasks ++ [.waiting c.task]⟩ := by
  have hmono : ∀ {k}, k ∈ known → k ∈ known ++ newIds (.call c) :=
    fun hk => List.mem_append_left _ hk
  have hjoin : ∀ k, joinId c.task = some k → k ∈ newIds (.call c) ∧ k ∉ known := by
    intro k hk
    cases c with
    | joinClient nc =>
      cases hk
      exact ⟨List.mem_singleton_self _, of_decide_eq_true hfresh⟩
    | _ => cases hk
  refine ⟨?_, fun t ht k hk => ?_, fun k r hk => hmono (h.group k r hk),
    fun m r k hk => hmono (h.listed m r k hk)⟩
  · rw [List.filterMap_append, List.nodup_append]
    refine ⟨h.nodup, ?_, ?_⟩
    · simp only [List.filterMap_cons, List.filterMap_nil]
      split
      · exact List.nodup_nil
      · exact List.nodup_singleton _
    · intro k hk k' hk'
      rintro rfl
      obtain ⟨t, ht, hk⟩ := List.mem_filterMap.mp hk
      obtain ⟨t', ht', hk'⟩ := List.mem_filterMap.mp hk'
      rw [List.mem_singleton] at ht'
      subst ht'
      exact (hjoin k hk').2 (h.tasks t ht k hk).1
  · rcases List.mem_append.mp ht with hin | hnew
    · obtain ⟨hknown, hrest⟩ := h.tasks t hin k hk
      exact ⟨hmono hknown, hrest⟩
    · rw [List.mem_singleton] at hnew
      subst hnew
      obtain ⟨hin, hnot⟩ := hjoin k hk
      refine ⟨List.mem_append_right _ hin, ?_, fun m r hmem => hnot (h.listed m r k hmem)⟩
      rw [Option.eq_none_iff_forall_ne_some]
      exact fun r hr => hnot (h.group k r hr)

theorem step_used (h : Used w.known w.pool) (hs : visits.step w e = some w') :
    Used w'.known w'.pool := by
  obtain ⟨hfresh, hpool, hknown⟩ := step_visits hs
  rw [hknown]
  rcases Program.step_cases hpool with ⟨c, rfl, heq⟩ | ⟨i, x, task, s, pr, rfl, ht, hr, heq⟩ |
    ⟨ev, -, -, -, -⟩
  · rw [heq]
    exact h.call hfresh
  · rw [heq, show newIds (PoolEvent.answer i x) = [] from rfl, List.append_nil]
    exact h.segment ht hr
  · exact ev.elim

/-! ## The records agree -/

theorem noGhosts_iff (h : Used w.known w.pool) :
    NoGhosts w.pool ↔ w.pool.shared.ctx.directory.Consistent := by
  have hgroup : ∀ c r, (∃ client, w.pool.shared.ctx.clients.get? c = some client ∧ client.room = r) ↔
      w.pool.shared.ctx.directory.group c = some r := by
    intro c r
    simp [directory]
  have hbetween : ∀ m r c, c ∈ w.pool.shared.ctx.directory.listed m r → ¬ Between w.pool c := by
    rintro m r c hc ⟨task, htask, m', r', hplace⟩
    have hid : joinId task = some c := by
      cases task <;> cases hplace <;> rfl
    exact (h.tasks _ htask c hid).2.2 m r hc
  constructor
  · intro hn
    refine ⟨fun m r c hc => ?_, fun c r hc => ?_, hn.nodup, hn.once⟩
    · rcases hn.registered m r c hc with hb | hclient
      · exact absurd hb (hbetween m r c hc)
      · exact (hgroup c r).mp hclient
    · obtain ⟨client, hclient, rfl⟩ := (hgroup c r).mpr hc
      obtain ⟨locator, hl, hmem⟩ := hn.present c client hclient
      exact ⟨locator.monolithId, by simp [directory, hl], hmem⟩
  · intro hc
    refine ⟨fun m r c hmem => .inr ((hgroup c r).mpr (hc.registered m r c hmem)),
      fun c client hclient => ?_, hc.nodup, hc.once⟩
    obtain ⟨m, hm, hmem⟩ := hc.present c client.room ((hgroup c client.room).mp ⟨client, hclient, rfl⟩)
    obtain ⟨locator, hl, rfl⟩ := Option.map_eq_some_iff.mp hm
    exact ⟨locator, hl, hmem⟩

/-- What a segment does to the registry makes sense. -/
theorem Used.meant (h : Used w.known w.pool) {i : Nat} {task : Task} (x : Answer)
    (ht : w.pool.tasks[i]? = some (.waiting task)) :
    w.pool.shared.ctx.directory.Meant (w.pool.shared.ctx.change task x) := by
  unfold BalancerContext.change
  split
  case h_1 c m =>
    split
    · next hnone => exact .inl (by simpa [directory] using hnone.1)
    · trivial
  case h_2 c m receiverOpen =>
    split
    · exact (h.tasks _ (Program.mem_of_getElem? ht) c.id rfl).2.1
    · trivial
  all_goals first
    | trivial
    | exact meant_reportChange _ _ _ _
    | (unfold closeChange; split <;> trivial)

/-- **A step keeps the records in agreement exactly if it spares the clients.** -/
theorem step_noGhosts_iff (h : Used w.known w.pool) (hn : NoGhosts w.pool)
    (hs : visits.step w e = some w') : NoGhosts w'.pool ↔ SparesClients w e := by
  rw [noGhosts_iff (step_used h hs)]
  rw [noGhosts_iff h] at hn
  obtain ⟨-, hpool, -⟩ := step_visits hs
  rcases Program.step_cases hpool with ⟨c, rfl, heq⟩ | ⟨i, x, task, s, pr, rfl, ht, hr, heq⟩ |
    ⟨ev, -, -, -, -⟩
  · rw [heq]
    exact iff_of_true hn trivial
  · rw [heq]
    show s.ctx.directory.Consistent ↔ _
    rw [segment_directory hr, Registry.consistent_apply_iff hn (h.meant x ht)]
    simp [SparesClients, ht]
  · exact ev.elim

/-- **The two records of every client agree throughout a run if and only if each segment spares the
clients.** -/
theorem agreed_throughout_iff (region : Region) (es : List (PoolEvent Call Answer Empty)) :
    visits.Always (fun w => NoGhosts w.pool) (.init region) es ↔
      visits.Along SparesClients (.init region) es := by
  refine Machine.always_iff_along_of_step (I := fun w => Used w.known w.pool)
    (fun _ _ _ h hs => step_used h hs) (fun _ _ _ h hn hs => step_noGhosts_iff h hn hs)
    (used_init region) ((noGhosts_iff (w := .init region) (used_init region)).mpr ?_)
  constructor
  · intro m r c hc
    cases hc
  · intro c r hc
    cases hc
  · exact fun m r => List.nodup_nil
  · intro m r m' r' c hc
    cases hc

end Step

/-! ## The room that goes -/

/-- A client joins a room, and its monolith unloads the room. -/
def unloadWithClient : List (PoolEvent Call Answer Empty) :=
  let room := RoomName.ofString "foo"
  [.call (.joinMonolith ⟨1, "local"⟩), .answer 0 (.lockHandOver true),
   .call (.joinClient ⟨7, room, "local", "token"⟩), .answer 1 (.lockSelecting (some 1)),
   .answer 1 (.sent .ok), .answer 1 (.lockHandOver true),
   .call (.unloaded 1 room), .answer 2 .lock]

/-- **The client is still recorded, and its room is nowhere.** -/
theorem not_agreed_throughout :
    ¬ ∀ region es, visits.Always (fun w => NoGhosts w.pool) (.init region) es := by
  intro h
  have hrun : ∃ w ∈ visits.run (.init "local") unloadWithClient,
      ∃ client ∈ w.pool.shared.ctx.clients.get? 7,
        w.pool.shared.ctx.roomsToMonoliths.get? client.room = none := by
    decide +kernel
  obtain ⟨w, hw, client, hclient, hnone⟩ := hrun
  obtain ⟨locator, hl, -⟩ := ((h "local" unloadWithClient).last hw).present 7 client hclient
  rw [hnone] at hl
  cases hl

end OpenTogetherTube.Balancer.Listing
