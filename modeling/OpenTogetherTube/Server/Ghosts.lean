import OpenTogetherTube.Server.ClientManager

/-!
# No ghosts

A user whose client is gone stays in its room for good, and votes. `NoGhosts` says that this does
not happen: a client that has disconnected is in no list once all its handlers have finished, and one
that is connected is in each list at most once.

The handlers of one client do not wait for each other. A client can disconnect while it still
authenticates or joins, and then it is listed after it has been taken off; it can authenticate twice,
and then it is listed twice; and a join request in a message lists whom it likes.
`noGhosts_throughout` says that nothing else can happen.

The proof looks at one client at a time. What a step of another client's handler does is nothing to
it (`Apart`), and `Sound` is what the steps of its own handlers preserve.
-/

namespace OpenTogetherTube.Server.ClientManager

open OpenTogetherTube.Common OpenTogetherTube.Lib

/-! ## One client -/

/-- What the lists have of a client. -/
@[ext] structure Facts where
  client : Option Client
  connected : Nat
  listed : String → Nat
  users : String → Nat

def facts (s : State) (id : ClientId) : Facts where
  client := s.clients id
  connected := s.connections.count id
  listed room := (s.roomJoins room).count id
  users room := (s.realusers room).count id

/-- The handler, if it was started for the client and has not finished. -/
def handler? (id : ClientId) : Progress Task Result → Option Task
  | .waiting task => if task.id = id then some task else none
  | .done _ => none

/-- The handlers that were started for a client and have not finished. -/
def handlers (p : Handlers) (id : ClientId) : List Task := p.tasks.filterMap (handler? id)

/-- A client that is gone is in no list, and one that is connected is nowhere twice. -/
def NoGhosts (p : Handlers) : Prop :=
  ∀ id,
    (id ∉ p.shared.connections → handlers p id = [] →
      ∀ room, id ∉ p.shared.roomJoins room ∧ id ∉ p.shared.realusers room) ∧
    (id ∈ p.shared.connections →
      ∀ room, (p.shared.roomJoins room).count id ≤ 1 ∧ (p.shared.realusers room).count id ≤ 1)

/-- The handler is on its way to put the client on a list. -/
def Task.joining : Task → Bool
  | .getSessionInfo _ | .getRoom _ | .updateInfo _ _ => true
  | .requestGetRoom _ (.join _) | .deriveContext _ (.join _) => true
  | _ => false

/-- The message is a join request. -/
def joins : Identity.ClientMessage → Bool
  | .req (.join _) => true
  | _ => false

/-- A client authenticates once, sends no join requests, and disconnects when it is not about to be
put on a list. -/
def Calm (p : Handlers) : Event → Prop
  | .call (.auth id token) => token ≠ "" → ∀ c ∈ p.shared.clients id, c.token = none
  | .call (.message id msg) => joins msg = true → ∀ c ∈ p.shared.clients id, c.token = none
  | .call (.disconnect id) => ∀ task ∈ handlers p id, task.joining = false
  | _ => True

instance (p : Handlers) : (e : Event) → Decidable (Calm p e)
  | .call (.auth id token) =>
    inferInstanceAs (Decidable (token ≠ "" → ∀ c ∈ p.shared.clients id, c.token = none))
  | .call (.message id msg) =>
    inferInstanceAs (Decidable (joins msg = true → ∀ c ∈ p.shared.clients id, c.token = none))
  | .call (.disconnect id) =>
    inferInstanceAs (Decidable (∀ task ∈ handlers p id, task.joining = false))
  | .call (.connect _ _) | .call (.join _ _ _) | .answer _ _ => inferInstanceAs (Decidable True)

/-! ## The lists, seen from one client -/

section Facts

variable {s : State} {id a : ClientId} {room : String}

theorem facts_setClient (c : Client) :
    facts (s.setClient a c) id =
      { facts s id with client := if id = a then some c else s.clients id } := by
  simp only [facts, State.setClient, Function.update_apply]
  rfl

theorem facts_connect :
    facts { s with connections := s.connections ++ [a] } id =
      { facts s id with connected := s.connections.count id + if id = a then 1 else 0 } := by
  have hcount : (s.connections ++ [a]).count id =
      s.connections.count id + if id = a then 1 else 0 := by
    rw [List.count_append]
    by_cases h : id = a
    · simp [h]
    · simp [h, List.count_eq_zero_of_not_mem (List.mem_singleton.not.mpr h)]
  simp only [facts, hcount]
  rfl

theorem facts_setJoins (joins : List ClientId) :
    facts (s.setJoins room joins) id =
      { facts s id with listed := Function.update (facts s id).listed room (joins.count id) } := by
  have hlisted : (fun r => (Function.update s.roomJoins room joins r).count id) =
      Function.update (fun r => (s.roomJoins r).count id) room (joins.count id) := by
    funext r
    by_cases hr : r = room
    · subst hr
      simp
    · simp [hr]
  simp only [facts, State.setJoins, hlisted]
  rfl

theorem facts_setUsers (users : List ClientId) :
    facts (s.setUsers room users) id =
      { facts s id with users := Function.update (facts s id).users room (users.count id) } := by
  have husers : (fun r => ((Function.update s.rooms room (some users) r).getD []).count id) =
      Function.update (fun r => ((s.rooms r).getD []).count id) room (users.count id) := by
    funext r
    by_cases hr : r = room
    · subst hr
      simp
    · simp [hr]
  simp only [facts, State.setUsers, State.realusers, husers]

/-- A room that is loaded has no users yet. -/
theorem facts_load (h : s.rooms room = none) : facts (s.setUsers room []) id = facts s id := by
  rw [facts_setUsers]
  have hnone : (facts s id).users room = 0 := by simp [facts, State.realusers, h]
  rw [List.count_nil, ← hnone, Function.update_eq_self]

theorem count_append_self (l : List ClientId) : (l ++ [a]).count a = l.count a + 1 := by simp

theorem count_append_of_ne (l : List ClientId) (h : id ≠ a) : (l ++ [a]).count id = l.count id := by
  rw [List.count_append, List.count_eq_zero_of_not_mem (List.mem_singleton.not.mpr h), Nat.add_zero]

/-- Nothing is changed for anybody else. -/
def Apart (a : ClientId) (s s' : State) : Prop := ∀ id ≠ a, facts s' id = facts s id

theorem Apart.trans {s' s'' : State} (h : Apart a s s') (h' : Apart a s' s'') : Apart a s s'' :=
  fun id hid => (h' id hid).trans (h id hid)

theorem apart_setClient (c : Client) : Apart a s (s.setClient a c) := by
  intro id hid
  rw [facts_setClient, if_neg hid]
  rfl

theorem apart_connect : Apart a s { s with connections := s.connections ++ [a] } := by
  intro id hid
  rw [facts_connect, if_neg hid]
  rfl

theorem apart_setJoins {joins : List ClientId}
    (h : ∀ id ≠ a, joins.count id = (s.roomJoins room).count id) :
    Apart a s (s.setJoins room joins) := by
  intro id hid
  rw [facts_setJoins, h id hid]
  have hsame : (s.roomJoins room).count id = (facts s id).listed room := rfl
  rw [hsame, Function.update_eq_self]

theorem apart_setUsers {users : List ClientId}
    (h : ∀ id ≠ a, users.count id = (s.realusers room).count id) :
    Apart a s (s.setUsers room users) := by
  intro id hid
  rw [facts_setUsers, h id hid]
  have hsame : (s.realusers room).count id = (facts s id).users room := rfl
  rw [hsame, Function.update_eq_self]

theorem apart_onClientDisconnect (c : Client) : Apart a s (onClientDisconnect s a c).1 := by
  have hstate : (onClientDisconnect s a c).1 = if a ∈ s.connections then
      { s.setJoins c.room ((s.roomJoins c.room).erase a) with
        connections := s.connections.erase a } else s := by
    unfold onClientDisconnect
    dsimp only
    split <;> rfl
  rw [hstate]
  split
  · intro id hid
    have hapart : Apart a s (s.setJoins c.room ((s.roomJoins c.room).erase a)) :=
      apart_setJoins (fun _ hid => List.count_erase_of_ne hid)
    have hjoins := hapart id hid
    rw [← hjoins]
    simp only [facts, State.setJoins, List.count_erase_of_ne hid]
    rfl
  · exact fun _ _ => rfl

end Facts

/-! ## What the handlers of one client do -/

/-- A join is made under the client's own id. -/
def Task.Own : Task → Prop
  | .requestGetRoom id (.join info) | .deriveContext id (.join info) => info.id = id
  | .updateInfo id user => user = id
  | _ => True

/-- The client is about to be taken off its room. -/
def Task.leaving : Task → Bool
  | .publishLeave _ | .leaveGetRoom _ => true
  | _ => false

/-- The client has not been listed. -/
def Task.early : Task → Bool
  | .getSessionInfo _ | .getRoom _ => true
  | _ => false

/-- What holds of a client, between the steps of its handlers. -/
structure Sound (c : Client) (f : Facts) (tasks : List Task) : Prop where
  connected_le : f.connected ≤ 1
  own : ∀ task ∈ tasks, task.Own
  joining_le : tasks.countP Task.joining ≤ 1
  connected : ∀ task ∈ tasks, task.joining → f.connected = 1
  joining : ∀ task ∈ tasks, task.joining → c.token ≠ none ∧ ∀ room, f.users room = 0
  joined : ∀ task ∈ tasks, task.joining → (∀ id, task ≠ .getSessionInfo id) → c.joined = true
  early : ∀ task ∈ tasks, task.early → ∀ room, f.listed room = 0
  new : c.token = none → ∀ room, f.listed room = 0 ∧ f.users room = 0
  listed_le : ∀ room, f.listed room ≤ if room = c.room then f.connected else 0
  users_le : ∀ room, f.users room ≤ if room = c.room then 1 else 0
  users : ∀ room, f.users room ≠ 0 →
    c.joined = true ∧ (f.connected = 1 ∨ ∃ task ∈ tasks, task.leaving = true)

/-- The same, for an id that may not have been used. -/
def Fine (f : Facts) (tasks : List Task) : Prop :=
  match f.client with
  | some c => Sound c f tasks
  | none => tasks = [] ∧ f.connected = 0 ∧ ∀ room, f.listed room = 0 ∧ f.users room = 0

theorem Sound.perm {c : Client} {f : Facts} {tasks tasks' : List Task} (h : Sound c f tasks)
    (hp : tasks.Perm tasks') : Sound c f tasks' where
  connected_le := h.connected_le
  own task ht := h.own task (hp.mem_iff.mpr ht)
  joining_le := by
    rw [← hp.countP_eq]
    exact h.joining_le
  connected task ht := h.connected task (hp.mem_iff.mpr ht)
  joining task ht := h.joining task (hp.mem_iff.mpr ht)
  joined task ht := h.joined task (hp.mem_iff.mpr ht)
  early task ht := h.early task (hp.mem_iff.mpr ht)
  new := h.new
  listed_le := h.listed_le
  users_le := h.users_le
  users room hr := by
    obtain ⟨hjoined, hc | ⟨task, ht, hl⟩⟩ := h.users room hr
    · exact ⟨hjoined, .inl hc⟩
    · exact ⟨hjoined, .inr ⟨task, hp.mem_iff.mp ht, hl⟩⟩

theorem Fine.perm {f : Facts} {tasks tasks' : List Task} (h : Fine f tasks)
    (hp : tasks.Perm tasks') : Fine f tasks' := by
  unfold Fine at h ⊢
  split at h
  · exact h.perm hp
  · refine ⟨?_, h.2⟩
    rw [h.1] at hp
    exact List.nil_perm.mp hp

section Steps

variable {c : Client} {f : Facts} {task task' : Task} {rest : List Task}

/-- Beside a handler that joins there is no other. -/
theorem Sound.alone (h : Sound c f (task :: rest)) (hjoining : task.joining = true) :
    ∀ t ∈ rest, t.joining = false := by
  have hle := h.joining_le
  rw [List.countP_cons_of_pos hjoining] at hle
  intro t ht
  by_contra hne
  have hpos : 0 < rest.countP Task.joining :=
    List.countP_pos_iff.mpr ⟨t, ht, Bool.not_eq_false _ ▸ hne⟩
  omega

/-- No handler joins before the client has authenticated. -/
theorem Sound.none_joining (h : Sound c f rest) (htoken : c.token = none) :
    ∀ t ∈ rest, t.joining = false := by
  intro t ht
  by_contra hne
  exact (h.joining t ht (Bool.not_eq_false _ ▸ hne)).1 htoken

/-- A handler ends, and leaves no user behind that nobody is about to remove. -/
theorem Sound.finish (h : Sound c f (task :: rest))
    (hleaving : task.leaving = true →
      (∀ room, f.users room = 0) ∨ ∃ t ∈ rest, t.leaving = true) : Sound c f rest where
  connected_le := h.connected_le
  own t ht := h.own t (List.mem_cons_of_mem _ ht)
  joining_le := (List.sublist_cons_self _ _).countP_le.trans h.joining_le
  connected t ht := h.connected t (List.mem_cons_of_mem _ ht)
  joining t ht := h.joining t (List.mem_cons_of_mem _ ht)
  joined t ht := h.joined t (List.mem_cons_of_mem _ ht)
  early t ht := h.early t (List.mem_cons_of_mem _ ht)
  new := h.new
  listed_le := h.listed_le
  users_le := h.users_le
  users room hr := by
    obtain ⟨hjoined, hc | ⟨t, ht, hl⟩⟩ := h.users room hr
    · exact ⟨hjoined, .inl hc⟩
    obtain rfl | ht := List.mem_cons.mp ht
    · obtain hzero | hother := hleaving hl
      · exact absurd (hzero room) hr
      · exact ⟨hjoined, .inr hother⟩
    · exact ⟨hjoined, .inr ⟨t, ht, hl⟩⟩

/-- A handler starts, or goes on, without joining. -/
theorem Sound.start (h : Sound c f rest) (hown : task.Own) (hjoining : task.joining = false)
    (hearly : task.early = false) : Sound c f (task :: rest) where
  connected_le := h.connected_le
  own t ht := by
    obtain rfl | ht := List.mem_cons.mp ht
    · exact hown
    · exact h.own t ht
  joining_le := by
    rw [List.countP_cons_of_neg (by simp [hjoining])]
    exact h.joining_le
  connected t ht hj := by
    obtain rfl | ht := List.mem_cons.mp ht
    · simp [hjoining] at hj
    · exact h.connected t ht hj
  joining t ht hj := by
    obtain rfl | ht := List.mem_cons.mp ht
    · simp [hjoining] at hj
    · exact h.joining t ht hj
  joined t ht hj := by
    obtain rfl | ht := List.mem_cons.mp ht
    · simp [hjoining] at hj
    · exact h.joined t ht hj
  early t ht he := by
    obtain rfl | ht := List.mem_cons.mp ht
    · simp [hearly] at he
    · exact h.early t ht he
  new := h.new
  listed_le := h.listed_le
  users_le := h.users_le
  users room hr := by
    obtain ⟨hjoined, hc | ⟨t, ht, hl⟩⟩ := h.users room hr
    · exact ⟨hjoined, .inl hc⟩
    · exact ⟨hjoined, .inr ⟨t, List.mem_cons_of_mem _ ht, hl⟩⟩

/-- A handler that joins goes on to its next await. -/
theorem Sound.join (h : Sound c f rest) (hnone : ∀ t ∈ rest, t.joining = false) (hown : task.Own)
    (hconnected : f.connected = 1) (htoken : c.token ≠ none) (husers : ∀ room, f.users room = 0)
    (hjoined : (∀ id, task ≠ .getSessionInfo id) → c.joined = true)
    (hearly : task.early = true → ∀ room, f.listed room = 0) : Sound c f (task :: rest) where
  connected_le := h.connected_le
  own t ht := by
    obtain rfl | ht := List.mem_cons.mp ht
    · exact hown
    · exact h.own t ht
  joining_le := by
    have hzero : rest.countP Task.joining = 0 :=
      List.countP_eq_zero.mpr (fun t ht => by simp [hnone t ht])
    rw [List.countP_cons, hzero]
    split <;> omega
  connected t ht hj := hconnected
  joining t ht hj := ⟨htoken, husers⟩
  joined t ht hj hne := by
    obtain rfl | ht := List.mem_cons.mp ht
    · exact hjoined hne
    · exact absurd hj (by simp [hnone t ht])
  early t ht he := by
    obtain rfl | ht := List.mem_cons.mp ht
    · exact hearly he
    · exact h.early t ht he
  new := h.new
  listed_le := h.listed_le
  users_le := h.users_le
  users room hr := absurd (husers room) hr

/-- A handler goes on to the next await with the same request. -/
theorem Sound.next (h : Sound c f (task :: rest)) (hown : task'.Own)
    (hjoining : task'.joining = task.joining) (hearly : task'.early = false)
    (hleaving : task.leaving = false) (hsession : ∀ id, task ≠ .getSessionInfo id) :
    Sound c f (task' :: rest) := by
  have hrest : Sound c f rest := h.finish (fun hl => absurd hl (by simp [hleaving]))
  have hmem : task ∈ task :: rest := List.mem_cons_self
  cases hj : task.joining with
  | true =>
    have htask := h.joining _ hmem hj
    exact hrest.join (h.alone hj) hown (h.connected _ hmem hj) htask.1 htask.2
      (fun _ => h.joined _ hmem hj hsession) (fun he => absurd he (by simp [hearly]))
  | false => exact hrest.start hown (hjoining.trans hj) hearly

/-- The token, or the join status, is stored. -/
theorem Sound.setClient {c' : Client} (h : Sound c f rest) (hroom : c'.room = c.room)
    (htoken : c.token ≠ none → c'.token ≠ none) (hjoined : c.joined = true → c'.joined = true) :
    Sound c' { f with client := some c' } rest where
  connected_le := h.connected_le
  own := h.own
  joining_le := h.joining_le
  connected := h.connected
  joining t ht hj := ⟨htoken (h.joining t ht hj).1, (h.joining t ht hj).2⟩
  joined t ht hj hne := hjoined (h.joined t ht hj hne)
  early := h.early
  new hnone := h.new (by
    by_contra hne
    exact htoken hne hnone)
  listed_le := by rw [hroom]; exact h.listed_le
  users_le := by rw [hroom]; exact h.users_le
  users room hr := ⟨hjoined (h.users room hr).1, (h.users room hr).2⟩

/-- A connected client that is not listed is listed in its room. -/
theorem Sound.list (h : Sound c f rest) (hlisted : ∀ room, f.listed room = 0)
    (hconnected : f.connected = 1) (htoken : c.token ≠ none)
    (hearly : ∀ t ∈ rest, t.early = false) :
    Sound c { f with listed := Function.update f.listed c.room (f.listed c.room + 1) } rest where
  connected_le := h.connected_le
  own := h.own
  joining_le := h.joining_le
  connected := h.connected
  joining := h.joining
  joined := h.joined
  early t ht he := absurd he (by simp [hearly t ht])
  new hnone := absurd hnone htoken
  listed_le room := by
    by_cases hr : room = c.room
    · subst hr
      simp [hlisted, hconnected]
    · simp [hr, hlisted]
  users_le := h.users_le
  users := h.users

/-- A connected client that is not a user becomes one. -/
theorem Sound.addUser (h : Sound c f rest) (hnone : ∀ t ∈ rest, t.joining = false)
    (husers : ∀ room, f.users room = 0) (hconnected : f.connected = 1) (htoken : c.token ≠ none)
    (hjoined : c.joined = true) :
    Sound c { f with users := Function.update f.users c.room (f.users c.room + 1) } rest where
  connected_le := h.connected_le
  own := h.own
  joining_le := h.joining_le
  connected := h.connected
  joining t ht hj := absurd hj (by simp [hnone t ht])
  joined := h.joined
  early := h.early
  new hno := absurd hno htoken
  listed_le := h.listed_le
  users_le room := by
    by_cases hr : room = c.room
    · subst hr
      simp [husers]
    · simp [hr, husers]
  users _ _ := ⟨hjoined, .inl hconnected⟩

/-- A user is taken off its room. -/
theorem Sound.removeUser (h : Sound c f (task :: rest)) :
    Sound c { f with users := Function.update f.users c.room (f.users c.room - 1) } rest := by
  have hgone : ∀ room, Function.update f.users c.room (f.users c.room - 1) room = 0 := by
    intro room
    have hle := h.users_le room
    by_cases hr : room = c.room
    · subst hr
      rw [if_pos rfl] at hle
      rw [Function.update_self]
      omega
    · rw [if_neg hr] at hle
      rw [Function.update_of_ne hr]
      omega
  constructor
  case connected_le => exact h.connected_le
  case own => exact fun t ht => h.own t (List.mem_cons_of_mem _ ht)
  case joining_le => exact (List.sublist_cons_self _ _).countP_le.trans h.joining_le
  case connected => exact fun t ht => h.connected t (List.mem_cons_of_mem _ ht)
  case joining => exact fun t ht hj => ⟨(h.joining t (List.mem_cons_of_mem _ ht) hj).1, hgone⟩
  case joined => exact fun t ht => h.joined t (List.mem_cons_of_mem _ ht)
  case early => exact fun t ht => h.early t (List.mem_cons_of_mem _ ht)
  case new => exact fun hnone room => ⟨(h.new hnone room).1, hgone room⟩
  case listed_le => exact h.listed_le
  case users_le =>
    intro room
    show Function.update f.users c.room (f.users c.room - 1) room ≤ _
    rw [hgone]
    exact Nat.zero_le _
  case users => exact fun room hr => absurd (hgone room) hr

/-- A client that is not about to join disconnects. -/
theorem Sound.disconnect (h : Sound c f rest) (hnone : ∀ t ∈ rest, t.joining = false)
    (hleaving : (∃ room, f.users room ≠ 0) → ∃ t ∈ rest, t.leaving = true) :
    Sound c { f with
      connected := f.connected - 1
      listed := Function.update f.listed c.room (f.listed c.room - 1) } rest := by
  have hgone : ∀ room, Function.update f.listed c.room (f.listed c.room - 1) room = 0 := by
    intro room
    have hconnected := h.connected_le
    have hle := h.listed_le room
    by_cases hr : room = c.room
    · subst hr
      rw [if_pos rfl] at hle
      rw [Function.update_self]
      omega
    · rw [if_neg hr] at hle
      rw [Function.update_of_ne hr]
      omega
  constructor
  case connected_le => exact (Nat.sub_le _ _).trans h.connected_le
  case own => exact h.own
  case joining_le => exact h.joining_le
  case connected => exact fun t ht hj => absurd hj (by simp [hnone t ht])
  case joining => exact h.joining
  case joined => exact h.joined
  case early => exact fun _ _ _ => hgone
  case new => exact fun hno room => ⟨hgone room, (h.new hno room).2⟩
  case listed_le =>
    intro room
    show Function.update f.listed c.room (f.listed c.room - 1) room ≤ _
    rw [hgone]
    exact Nat.zero_le _
  case users_le => exact h.users_le
  case users => exact fun room hr => ⟨(h.users room hr).1, .inr (hleaving ⟨room, hr⟩)⟩

end Steps

/-! ## The segments -/

section Segments

variable {s : State} {a : ClientId} {c : Client} {tasks : List Task}

/-- The outcome of a segment of the client's handler: nothing happens to others. -/
structure Stays (a : ClientId) (s : State) (out : Outcome) : Prop where
  apart : Apart a s out.1
  id : ∀ task, out.2 = .waiting task → task.id = a

theorem Stays.done {s' : State} {r : Result} (h : Apart a s s') : Stays a s (s', .done r) :=
  ⟨h, fun _ hw => by cases hw⟩

theorem Stays.waiting {s' : State} {task : Task} (h : Apart a s s') (hid : task.id = a) :
    Stays a s (s', .waiting task) :=
  ⟨h, fun _ hw => by cases hw; exact hid⟩

theorem Stays.of_apart {s' : State} {out : Outcome} (h : Apart a s s') (h' : Stays a s' out) :
    Stays a s out :=
  ⟨h.trans h'.apart, h'.id⟩

theorem auth_stays (c : Client) (token : AuthToken) : Stays a s (auth s a c token) := by
  unfold auth
  split
  · exact .done (fun _ _ => rfl)
  · exact .waiting (apart_setClient _) rfl

theorem onClientMessage_stays (c : Client) (msg : Identity.ClientMessage) :
    Stays a s (onClientMessage s a c msg) := by
  unfold onClientMessage
  split
  · split
    · exact .waiting (fun _ _ => rfl) rfl
    · exact .done (fun _ _ => rfl)
  · exact .done (fun _ _ => rfl)
  · exact .done (fun _ _ => rfl)
  · exact .done (fun _ _ => rfl)

theorem onClientDisconnect_stays (c : Client) : Stays a s (onClientDisconnect s a c) := by
  refine ⟨apart_onClientDisconnect c, fun task hw => ?_⟩
  unfold onClientDisconnect at hw
  dsimp only at hw
  split at hw <;> cases hw
  rfl

theorem leaveRoom_stays (c : Client) : Stays a s (leaveRoom s a c) := by
  unfold leaveRoom
  split
  · exact .waiting (fun _ _ => rfl) rfl
  · exact .done (fun _ _ => rfl)

theorem listClient_stays (c : Client) : Stays a s (listClient s a c) :=
  .waiting (apart_setJoins (fun _ hid => count_append_of_ne _ hid)) rfl

/-- The client that a call is for. -/
def Call.id : Call → ClientId
  | .connect id _ | .join id _ _ | .auth id _ | .message id _ | .disconnect id => id

theorem start_stays (call : Call) : Stays call.id s (start call s) := by
  have hnew (id : ClientId) (c : Client) :
      Apart id s { s.setClient id c with connections := s.connections ++ [id] } :=
    (apart_setClient c).trans apart_connect
  unfold start
  split
  · split
    · exact .done (hnew _ _)
    · exact .done (fun _ _ => rfl)
  · split
    · exact .of_apart (hnew _ _) (auth_stays _ _)
    · exact .done (fun _ _ => rfl)
  · split
    · split
      · exact auth_stays _ _
      · exact .done (fun _ _ => rfl)
    · exact .done (fun _ _ => rfl)
  · split
    · split
      · exact onClientMessage_stays _ _
      · exact .done (fun _ _ => rfl)
    · exact .done (fun _ _ => rfl)
  · split
    · exact onClientDisconnect_stays _
    · exact .done (fun _ _ => rfl)

theorem resume_stays {task : Task} {answer : Answer} {out : Outcome} (hown : task.Own)
    (h : resume task answer s = some out) : Stays task.id s out := by
  obtain ⟨c, -, h⟩ := Option.bind_eq_some_iff.mp h
  unfold resumeClient at h
  split at h
  · cases h
    exact .done (fun _ _ => rfl)
  · cases h
    exact .waiting (apart_setClient _) rfl
  · split at h
    · split at h <;> cases h
      exact listClient_stays c
    · next hnone =>
      split at h <;> cases h
      · exact .of_apart (fun _ _ => facts_load hnone) (listClient_stays c)
      · exact .done (fun _ _ => rfl)
  · cases h
    exact .done (fun _ _ => rfl)
  · split at h <;> cases h
    · exact .waiting (fun _ _ => rfl) rfl
    · exact .done (fun _ _ => rfl)
  · cases h
    exact .done (fun _ _ => rfl)
  · split at h <;> cases h
    · exact .waiting (fun _ _ => rfl) rfl
    · exact leaveRoom_stays c
    · exact .done (fun _ _ => rfl)
  · cases h
    exact .done (fun _ _ => rfl)
  · next id user _ =>
    cases h
    have huser : user = id := hown
    subst huser
    exact .done (apart_setUsers (fun _ hid => count_append_of_ne _ hid))
  · cases h
    exact .done (apart_setUsers (fun _ hid => List.count_erase_of_ne hid))
  · split at h <;> cases h
    · exact leaveRoom_stays c
    · exact .done (fun _ _ => rfl)
  · cases h

/-- What is left of the client's handlers when one has run. -/
def after (a : ClientId) (out : Outcome) (rest : List Task) : List Task :=
  (handler? a out.2).toList ++ rest

theorem Fine.after {s' : State} {task : Task} (hid : task.id = a)
    (h : Fine (facts s' a) (task :: tasks)) :
    Fine (facts s' a) (after a (s', .waiting task) tasks) := by
  have hafter : ClientManager.after a (s', .waiting task) tasks = task :: tasks := by
    simp [ClientManager.after, handler?, hid]
  rw [hafter]
  exact h

theorem fine_iff (hc : s.clients a = some c) : Fine (facts s a) tasks ↔ Sound c (facts s a) tasks := by
  unfold Fine
  have hclient : (facts s a).client = some c := hc
  rw [hclient]

theorem fine_of_sound {s' : State} {c' : Client} {f : Facts} (hf : facts s' a = f)
    (hc : f.client = some c') (h : Sound c' f tasks) : Fine (facts s' a) tasks := by
  rw [hf]
  unfold Fine
  rw [hc]
  exact h

theorem facts_setClient_self (c : Client) :
    facts (s.setClient a c) a = { facts s a with client := some c } := by
  rw [facts_setClient, if_pos rfl]

theorem connected_of_mem (h : a ∈ s.connections) : 0 < (facts s a).connected :=
  List.count_pos_iff.mpr h

/-- A client that is connected authenticates for the first time. -/
theorem auth_fine (hc : s.clients a = some c) (h : Sound c (facts s a) tasks)
    (hconnected : (facts s a).connected = 1) {token : AuthToken}
    (htoken : token ≠ "" → c.token = none) :
    Fine (facts (auth s a c token).1 a) (after a (auth s a c token) tasks) := by
  unfold auth
  split
  · exact (fine_iff hc).mpr h
  · next hne =>
    have hnone := htoken hne
    have hnew := h.new hnone
    have hstored : Sound { c with token := some token } { facts s a with
        client := some { c with token := some token } } tasks :=
      h.setClient rfl (fun _ => by simp) id
    exact .after rfl (fine_of_sound (facts_setClient_self _) rfl (hstored.join
      (h.none_joining hnone) trivial hconnected (by simp) (fun room => (hnew room).2)
      (fun hs => absurd rfl (hs a)) (fun _ room => (hnew room).1)))

/-- The client is put on the list of its room. -/
theorem listClient_fine (hc : s.clients a = some c)
    (h : Sound c (facts s a) (.getRoom a :: tasks)) :
    Fine (facts (listClient s a c).1 a) (after a (listClient s a c) tasks) := by
  have hmem : Task.getRoom a ∈ Task.getRoom a :: tasks := List.mem_cons_self
  have halone := h.alone rfl
  have hjoining := h.joining _ hmem rfl
  have hconnected := h.connected _ hmem rfl
  have hearly : ∀ t ∈ tasks, t.early = false := fun t ht => by
    have hnot := halone t ht
    cases t <;> first | rfl | cases hnot
  have hlisted := (h.finish (fun hl => by cases hl)).list (h.early _ hmem rfl) hconnected hjoining.1
    hearly
  have hfacts : facts (listClient s a c).1 a = { facts s a with
      listed := Function.update (facts s a).listed c.room ((facts s a).listed c.room + 1) } := by
    show facts (s.setJoins c.room (s.roomJoins c.room ++ [a])) a = _
    rw [facts_setJoins, count_append_self]
    rfl
  exact .after rfl (fine_of_sound hfacts hc (hlisted.join halone rfl hconnected hjoining.1 hjoining.2
    (fun _ => h.joined _ hmem rfl (fun _ hs => by cases hs)) (fun he => by cases he)))

/-- A client that is not a user of its room is none of another. -/
theorem Sound.users_eq_zero (h : Sound c (facts s a) tasks) (hnot : a ∉ s.realusers c.room)
    (room : String) : (facts s a).users room = 0 := by
  have hle := h.users_le room
  by_cases hr : room = c.room
  · subst hr
    exact List.count_eq_zero_of_not_mem hnot
  · rw [if_neg hr] at hle
    omega

/-- The client is on its way out of its room, if it is there. -/
theorem leaveRoom_fine (hc : s.clients a = some c) {task : Task}
    (h : Sound c (facts s a) (task :: tasks)) :
    Fine (facts (leaveRoom s a c).1 a) (after a (leaveRoom s a c) tasks) := by
  unfold leaveRoom
  split
  · have hboth : Sound c (facts s a) (.publishLeave a :: task :: tasks) := h.start trivial rfl rfl
    exact .after rfl ((fine_iff hc).mpr ((hboth.perm (List.Perm.swap _ _ _)).finish
      (fun _ => .inr ⟨.publishLeave a, List.mem_cons_self, rfl⟩)))
  · next hnot => exact (fine_iff hc).mpr (h.finish (fun _ => .inl (h.users_eq_zero hnot)))

/-- The client sends a message, but no join request. -/
theorem onClientMessage_fine (hc : s.clients a = some c) (h : Sound c (facts s a) tasks)
    {msg : Identity.ClientMessage} (hmsg : joins msg = true → c.token = none) :
    Fine (facts (onClientMessage s a c msg).1 a) (after a (onClientMessage s a c msg) tasks) := by
  have hfine := (fine_iff hc).mpr h
  unfold onClientMessage
  split
  · next request =>
    split
    · next token htoken =>
      have hnot : joins (.req request) = false := by
        by_contra hne
        rw [hmsg (Bool.not_eq_false _ ▸ hne)] at htoken
        cases htoken
      have hother : Task.Own (.requestGetRoom a request) ∧
          Task.joining (.requestGetRoom a request) = false := by
        cases request with
        | join info => cases hnot
        | _ => exact ⟨trivial, rfl⟩
      exact .after rfl ((fine_iff hc).mpr (h.start hother.1 hother.2 rfl))
    · exact hfine
  · exact hfine
  · exact hfine
  · exact hfine

/-- The client disconnects, and is not about to join. -/
theorem onClientDisconnect_fine (hc : s.clients a = some c) (h : Sound c (facts s a) tasks)
    (hnone : ∀ t ∈ tasks, t.joining = false) :
    Fine (facts (onClientDisconnect s a c).1 a) (after a (onClientDisconnect s a c) tasks) := by
  have hstart : Sound c (facts s a) (.leaveGetRoom a :: tasks) := h.start trivial rfl rfl
  have hfacts : facts { s.setJoins c.room ((s.roomJoins c.room).erase a) with
      connections := s.connections.erase a } a = { facts s a with
        connected := (facts s a).connected - 1
        listed := Function.update (facts s a).listed c.room ((facts s a).listed c.room - 1) } := by
    have hset : facts (s.setJoins c.room ((s.roomJoins c.room).erase a)) a = _ :=
      facts_setJoins ((s.roomJoins c.room).erase a)
    have hjoins := congrArg Facts.listed hset
    rw [List.count_erase_self] at hjoins
    exact Facts.ext rfl List.count_erase_self hjoins rfl
  unfold onClientDisconnect
  dsimp only
  by_cases hmem : a ∈ s.connections
  · rw [if_pos hmem]
    split
    · exact .after rfl (fine_of_sound hfacts hc (hstart.disconnect
        (List.forall_mem_cons.mpr ⟨rfl, hnone⟩) (fun _ => ⟨_, List.mem_cons_self, rfl⟩)))
    · next hjoined =>
      exact fine_of_sound hfacts hc (h.disconnect hnone
        (fun ⟨room, hr⟩ => absurd (h.users room hr).1 hjoined))
  · rw [if_neg hmem]
    split
    · exact .after rfl ((fine_iff hc).mpr hstart)
    · exact (fine_iff hc).mpr h

/-- A client that is new. -/
theorem sound_new (hnone : s.clients a = none) (h : Fine (facts s a) tasks) (c : Client) :
    Sound c (facts { s.setClient a c with connections := s.connections ++ [a] } a) tasks ∧
    (facts { s.setClient a c with connections := s.connections ++ [a] } a).connected = 1 := by
  unfold Fine at h
  have hclient : (facts s a).client = none := hnone
  rw [hclient] at h
  obtain ⟨rfl, hconnected, hlists⟩ := h
  have hone : (facts { s.setClient a c with connections := s.connections ++ [a] } a).connected =
      1 := by
    have hcount := count_append_self (a := a) s.connections
    rw [show s.connections.count a = 0 from hconnected] at hcount
    exact hcount
  refine ⟨?_, hone⟩
  constructor
  case connected_le => exact hone.le
  case new => exact fun _ => hlists
  case listed_le => exact fun room => (hlists room).1.le.trans (Nat.zero_le _)
  case users_le => exact fun room => (hlists room).2.le.trans (Nat.zero_le _)
  case users => exact fun room hr => absurd (hlists room).2 hr
  all_goals simp

/-- **A handler starts.** -/
theorem start_fine {call : Call} (h : Fine (facts s call.id) tasks)
    (hauth : ∀ id token, call = .auth id token → token ≠ "" → ∀ c ∈ s.clients id, c.token = none)
    (hmessage : ∀ id msg, call = .message id msg → joins msg = true →
      ∀ c ∈ s.clients id, c.token = none)
    (hdisconnect : ∀ id, call = .disconnect id → ∀ t ∈ tasks, t.joining = false) :
    Fine (facts (start call s).1 call.id) (after call.id (start call s) tasks) := by
  cases call with
  | connect id room =>
    simp only [start, Call.id] at h ⊢
    cases hc : s.clients id with
    | none =>
      exact fine_of_sound rfl (by simp [facts, State.setClient]) (sound_new hc h _).1
    | some c => exact h
  | join id room token =>
    simp only [start, Call.id] at h ⊢
    cases hc : s.clients id with
    | none =>
      obtain ⟨hsound, hone⟩ := sound_new hc h ⟨.balancer, room, none, false⟩
      exact auth_fine (by simp [State.setClient]) hsound hone (fun _ => rfl)
    | some c => exact h
  | auth id token =>
    simp only [start, Call.id] at h ⊢
    cases hc : s.clients id with
    | none => exact h
    | some c =>
      dsimp only
      split
      · next hconnected =>
        have hsound := (fine_iff hc).mp h
        have hpos := connected_of_mem hconnected.1
        exact auth_fine hc hsound (by have := hsound.connected_le; omega)
          (fun hne => hauth id token rfl hne c hc)
      · exact h
  | message id msg =>
    simp only [start, Call.id] at h ⊢
    cases hc : s.clients id with
    | none => exact h
    | some c =>
      dsimp only
      split
      · exact onClientMessage_fine hc ((fine_iff hc).mp h) (fun hj => hmessage id msg rfl hj c hc)
      · exact h
  | disconnect id =>
    simp only [start, Call.id] at h ⊢
    cases hc : s.clients id with
    | none => exact h
    | some c => exact onClientDisconnect_fine hc ((fine_iff hc).mp h) (hdisconnect id rfl)

theorem resumeClient_fine {task : Task} {answer : Answer} {out : Outcome}
    (hc : s.clients task.id = some c) (hsound : Sound c (facts s task.id) (task :: tasks))
    (hresume : resumeClient s c task answer = some out) :
    Fine (facts out.1 task.id) (after task.id out tasks) := by
  have hmem : task ∈ task :: tasks := List.mem_cons_self
  have hend (hleaving : task.leaving = false) : Fine (facts s task.id) tasks :=
    (fine_iff hc).mpr (hsound.finish (fun hl => absurd hl (by simp [hleaving])))
  unfold resumeClient at hresume
  split at hresume
  · cases hresume
    exact hend rfl
  · -- the session is known
    next id =>
    cases hresume
    have hjoining := hsound.joining _ hmem rfl
    have hstored : Sound { c with joined := true } { facts s id with
        client := some { c with joined := true } } tasks :=
      (hsound.finish (fun hl => by cases hl)).setClient rfl (fun h => h) (fun _ => rfl)
    exact .after rfl (fine_of_sound (facts_setClient_self _) rfl (hstored.join (hsound.alone rfl)
      trivial (hsound.connected _ hmem rfl) hjoining.1 hjoining.2 (fun _ => rfl)
      (fun _ => hsound.early _ hmem rfl)))
  · -- the room is there, or it is loaded now
    next id found =>
    split at hresume
    · split at hresume <;> cases hresume
      exact listClient_fine hc hsound
    · next hnone =>
      split at hresume <;> cases hresume
      · have hload : facts (s.setUsers c.room []) id = facts s id := facts_load hnone
        have hloaded : Sound c (facts (s.setUsers c.room []) id) (.getRoom id :: tasks) := by
          rw [hload]
          exact hsound
        exact listClient_fine hc hloaded
      · exact hend rfl
  · cases hresume
    exact hend rfl
  · -- `makeRoomRequest` has its room
    next id request =>
    have hown : Task.Own (.deriveContext id request) := by
      have hown := hsound.own _ hmem
      cases request with
      | join info => exact hown
      | _ => trivial
    have hjoining : Task.joining (.deriveContext id request) =
        Task.joining (.requestGetRoom id request) := by
      cases request <;> rfl
    split at hresume <;> cases hresume
    · exact .after rfl ((fine_iff hc).mpr (hsound.next hown hjoining rfl rfl
        (fun _ hs => by cases hs)))
    · exact hend rfl
  · cases hresume
    exact hend rfl
  · -- the request has its context
    next id request =>
    split at hresume <;> cases hresume
    · next info =>
      have hown : info.id = id := hsound.own _ hmem
      exact .after rfl ((fine_iff hc).mpr (hsound.next hown rfl rfl rfl
        (fun _ hs => by cases hs)))
    · exact leaveRoom_fine hc hsound
    · exact hend rfl
  · cases hresume
    exact hend rfl
  · -- the client becomes a user
    next id user =>
    cases hresume
    have huser : user = id := hsound.own _ hmem
    subst huser
    have hjoining := hsound.joining _ hmem rfl
    have hadded := (hsound.finish (fun hl => by cases hl)).addUser (hsound.alone rfl) hjoining.2
      (hsound.connected _ hmem rfl) hjoining.1 (hsound.joined _ hmem rfl (fun _ hs => by cases hs))
    refine fine_of_sound ?_ hc hadded
    show facts (s.setUsers c.room (s.realusers c.room ++ [user])) user = _
    rw [facts_setUsers, count_append_self]
    rfl
  · -- the user is removed
    next id =>
    cases hresume
    refine fine_of_sound ?_ hc hsound.removeUser
    show facts (s.setUsers c.room ((s.realusers c.room).erase id)) id = _
    rw [facts_setUsers, List.count_erase_self]
    rfl
  · split at hresume
    · cases hresume
      exact leaveRoom_fine hc hsound
    · next hnone =>
      cases hresume
      have hempty : s.realusers c.room = [] := by simp [State.realusers, hnone]
      exact (fine_iff hc).mpr (hsound.finish (fun _ => .inl (hsound.users_eq_zero (by simp [hempty]))))
  · cases hresume

/-- **A handler goes on.** -/
theorem resume_fine {task : Task} {answer : Answer} {out : Outcome}
    (h : Fine (facts s task.id) (task :: tasks)) (hresume : resume task answer s = some out) :
    Fine (facts out.1 task.id) (after task.id out tasks) := by
  obtain ⟨c, hc, hresume⟩ := Option.bind_eq_some_iff.mp hresume
  exact resumeClient_fine hc ((fine_iff hc).mp h) hresume

end Segments

/-! ## Runs -/

section Runs

variable {p p' : Handlers}

/-- A segment of one client's handler leaves the others'. -/
theorem handler?_of_ne {a id : ClientId} {pr : Progress Task Result} (hid : id ≠ a)
    (h : ∀ task, pr = .waiting task → task.id = a) : handler? id pr = none := by
  cases pr with
  | done r => rfl
  | waiting task => simp [handler?, h task rfl, hid.symm]

/-- **One step.** -/
theorem step_fine {e : Event} (h : ∀ id, Fine (facts p.shared id) (handlers p id))
    (hcalm : Calm p e) (hstep : clientManager.machine.step p e = some p') :
    ∀ id, Fine (facts p'.shared id) (handlers p' id) := by
  obtain ⟨call, rfl, rfl⟩ | ⟨i, answer, task, s, pr, rfl, htask, hresume, rfl⟩ |
    ⟨change, s, rfl, henv, rfl⟩ := Program.step_cases hstep
  · intro id
    have hstays : Stays call.id p.shared (start call p.shared) := start_stays call
    have hhandlers : handlers ⟨(start call p.shared).1, p.tasks ++ [(start call p.shared).2]⟩ id =
        handlers p id ++ (handler? id (start call p.shared).2).toList := by
      simp only [handlers, List.filterMap_append, List.filterMap_cons, List.filterMap_nil]
      cases handler? id (start call p.shared).2 <;> rfl
    show Fine (facts (start call p.shared).1 id)
      (handlers ⟨(start call p.shared).1, p.tasks ++ [(start call p.shared).2]⟩ id)
    rw [hhandlers]
    by_cases hid : id = call.id
    · subst hid
      have hfine := start_fine (h call.id) (fun id token hcall => by subst hcall; exact hcalm)
        (fun id msg hcall => by subst hcall; exact hcalm)
        (fun id hcall => by subst hcall; exact hcalm)
      exact hfine.perm List.perm_append_comm
    · rw [handler?_of_ne hid hstays.id, hstays.apart id hid]
      simpa using h id
  · intro id
    have hown : task.Own := by
      have hfine := h task.id
      have hmem : task ∈ handlers p task.id :=
        List.mem_filterMap.mpr ⟨_, List.mem_of_getElem? htask, by simp [handler?]⟩
      unfold Fine at hfine
      split at hfine
      · exact hfine.own task hmem
      · rw [hfine.1] at hmem
        cases hmem
    have hstays : Stays task.id p.shared (s, pr) := resume_stays hown hresume
    obtain ⟨rest, hbefore, hafter⟩ := Program.filterMap_set_perm (handler? id) htask pr
    by_cases hid : id = task.id
    · subst hid
      have hrunning : handler? task.id (.waiting task) = some task := by simp [handler?]
      rw [hrunning] at hbefore
      exact (resume_fine ((h task.id).perm hbefore) hresume).perm hafter.symm
    · rw [handler?_of_ne hid (fun t ht => by cases ht; rfl)] at hbefore
      rw [handler?_of_ne hid hstays.id] at hafter
      show Fine (facts s id) _
      rw [hstays.apart id hid]
      exact (h id).perm (hbefore.trans hafter.symm)
  · cases change

/-- What is fine is no ghost. -/
theorem noGhosts_of_fine (h : ∀ id, Fine (facts p.shared id) (handlers p id)) : NoGhosts p := by
  intro id
  have hfine := h id
  unfold Fine at hfine
  split at hfine
  · next c _ =>
    refine ⟨fun hgone hfinished room => ?_, fun _ room => ⟨?_, ?_⟩⟩
    · have hconnected : (facts p.shared id).connected = 0 := List.count_eq_zero_of_not_mem hgone
      constructor
      · intro hmem
        have hle := hfine.listed_le room
        have hpos : 0 < (facts p.shared id).listed room := List.count_pos_iff.mpr hmem
        rw [hconnected, ite_self] at hle
        omega
      · intro hmem
        have hpos : 0 < (facts p.shared id).users room := List.count_pos_iff.mpr hmem
        obtain ⟨-, hone | ⟨task, ht, -⟩⟩ := hfine.users room (by omega)
        · omega
        · rw [hfinished] at ht
          cases ht
    · have hle := hfine.listed_le room
      have hone := hfine.connected_le
      show (facts p.shared id).listed room ≤ 1
      split at hle <;> omega
    · have hle := hfine.users_le room
      show (facts p.shared id).users room ≤ 1
      split at hle <;> omega
  · obtain ⟨-, -, hlists⟩ := hfine
    refine ⟨fun _ _ room => ⟨?_, ?_⟩, fun _ room => ⟨?_, ?_⟩⟩
    · exact List.count_eq_zero.mp (hlists room).1
    · exact List.count_eq_zero.mp (hlists room).2
    · exact (hlists room).1.le.trans (Nat.zero_le _)
    · exact (hlists room).2.le.trans (Nat.zero_le _)

/-- **There are no ghosts** in a run in which each client authenticates once, sends no join requests,
and disconnects when none of its handlers is about to put it on a list. -/
theorem noGhosts_throughout {events : List Event}
    (h : clientManager.machine.Along Calm (Pool.idle empty) events) :
    clientManager.machine.Always NoGhosts (Pool.idle empty) events := by
  have hstart : ∀ id, Fine (facts (Pool.idle empty : Handlers).shared id)
      (handlers (Pool.idle empty) id) :=
    fun id => ⟨rfl, rfl, fun room => ⟨rfl, rfl⟩⟩
  exact (Machine.always_of_along
    (I := fun p : Handlers => ∀ id, Fine (facts p.shared id) (handlers p id))
    (fun _ _ _ => step_fine) hstart h).imp (fun _ => noGhosts_of_fine)

/-- Two clients come and go, one direct and one of a balancer. -/
def visits : List Event :=
  [.call (.connect "ann" "foo"), .call (.auth "ann" "token"), .answer 1 .settled,
    .answer 1 (.room true), .call (.join "bob" "foo" "other"), .answer 2 .settled,
    .answer 1 .settled, .answer 1 .settled, .answer 2 (.room true), .answer 1 .settled,
    .answer 2 .settled, .answer 2 .settled, .answer 2 .settled, .call (.message "ann" (.req .leave)),
    .answer 3 .settled, .call (.disconnect "ann"), .answer 4 .settled, .answer 3 .settled,
    .answer 4 .settled]

/-- A run in which the clients are calm. -/
theorem noGhosts_throughout_visits :
    clientManager.machine.Along Calm (Pool.idle empty) visits ∧
    clientManager.machine.Always NoGhosts (Pool.idle empty) visits := by
  have hcalm : clientManager.machine.Along Calm (Pool.idle empty) visits := by decide +kernel
  exact ⟨hcalm, noGhosts_throughout hcalm⟩

/-- A client is gone before its session is found. -/
def leaveEarly : List Event :=
  [.call (.connect "ann" "foo"), .call (.auth "ann" "token"), .call (.disconnect "ann"),
    .answer 1 .settled, .answer 1 (.room true), .answer 1 .settled, .answer 1 .settled,
    .answer 1 .settled]

/-- **A client that leaves early stays in its room.** -/
theorem not_noGhosts_throughout :
    ¬ ∀ events, clientManager.machine.Always NoGhosts (Pool.idle empty) events := by
  intro h
  have hrun : (clientManager.machine.run (Pool.idle empty) leaveEarly).map
      (fun p => (p.shared.connections, (handlers p "ann").length, p.shared.realusers "foo")) =
        some ([], 0, ["ann"]) := by
    decide +kernel
  obtain ⟨p, hp, heq⟩ := Option.map_eq_some_iff.mp hrun
  simp only [Prod.mk.injEq] at heq
  obtain ⟨hconnections, hhandlers, husers⟩ := heq
  have hghosts := ((h leaveEarly).last hp "ann").1 (by simp [hconnections])
    (List.eq_nil_of_length_eq_zero hhandlers) "foo"
  exact hghosts.2 (by simp [husers])

end Runs

end OpenTogetherTube.Server.ClientManager
