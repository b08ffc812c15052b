import OpenTogetherTube.Server.RoomManager

/-!
# One room for each name

A room is loaded or created after a check that no room of its name is loaded, and it is put into the
array some awaits later. In between, the name is **claimed**: `Task.loading`. If every call that
passes its check does so while nobody has claimed the name, then loaded and claimed names together
never repeat, which is `Exclusive`, and no name is ever loaded twice (`unique_throughout`). Nothing
in the code sees to it.
-/

namespace OpenTogetherTube.Server.RoomManager

open OpenTogetherTube.Lib

/-- No two loaded rooms have the same name, ignoring case. -/
def Unique (toLowerCase : String → String) (rooms : List LoadedRoom) : Prop :=
  (rooms.map (fun room => toLowerCase room.name)).Nodup

/-- The name a call has found free and will load, unless it turns out not to exist. -/
def Task.loading : Task → Option String
  | .redisGet name | .getRoomByName name | .redisExists name _ | .isRoomNameTaken name _ => some name
  | .saveRoom room | .update room | .sync room => some room.name
  | .redisIncr _ _ | .redisSet _ | .unload _ => none

/-- The name that a task has claimed. -/
def claim : Progress Task Result → Option String
  | .waiting task => task.loading
  | .done _ => none

/-- The names that are claimed. -/
def claimed (p : Calls) : List String := p.tasks.filterMap claim

/-- A call that passes its check does so while nobody has claimed the name. -/
def Unclaimed (toLowerCase : String → String) (p : Calls) : Event → Prop
  | .call (.getRoom name false) | .call (.createRoom name _) =>
    findRoom toLowerCase p.shared name = none → ∀ n ∈ claimed p, ¬ SameName toLowerCase n name
  | _ => True

instance (toLowerCase : String → String) (p : Calls) :
    (e : Event) → Decidable (Unclaimed toLowerCase p e)
  | .call (.getRoom _ false) | .call (.createRoom _ _) =>
    inferInstanceAs (Decidable (_ = _ → ∀ n ∈ claimed p, ¬ _))
  | .call (.getRoom _ true) | .call (.unloadRoom _) | .answer _ _ | .external _ =>
    inferInstanceAs (Decidable True)

/-- Loaded and claimed names do not repeat. -/
def Exclusive (toLowerCase : String → String) (rooms : List LoadedRoom) (names : List String) :
    Prop :=
  ((rooms.map (·.name) ++ names).map toLowerCase).Nodup

variable {toLowerCase : String → String}

theorem Exclusive.unique {rooms : List LoadedRoom} {names : List String}
    (h : Exclusive toLowerCase rooms names) : Unique toLowerCase rooms := by
  unfold Exclusive at h
  rw [List.map_append, List.map_map] at h
  exact (List.nodup_append.mp h).1

theorem Exclusive.perm {rooms : List LoadedRoom} {names names' : List String}
    (h : Exclusive toLowerCase rooms names) (hp : names.Perm names') :
    Exclusive toLowerCase rooms names' :=
  ((hp.append_left _).map _).nodup_iff.mp h

theorem Exclusive.sublist {rooms rooms' : List LoadedRoom} {names names' : List String}
    (h : Exclusive toLowerCase rooms names) (hrooms : rooms'.Sublist rooms)
    (hnames : names'.Sublist names) : Exclusive toLowerCase rooms' names' :=
  List.Nodup.sublist (((hrooms.map _).append hnames).map _) h

/-- A name that is neither loaded nor claimed may be claimed. -/
theorem Exclusive.claim {rooms : List LoadedRoom} {names : List String} {name : String}
    (h : Exclusive toLowerCase rooms names)
    (hrooms : ∀ room ∈ rooms, ¬ SameName toLowerCase room.name name)
    (hnames : ∀ n ∈ names, ¬ SameName toLowerCase n name) :
    Exclusive toLowerCase rooms (name :: names) := by
  unfold Exclusive at h ⊢
  have hperm : (rooms.map (·.name) ++ name :: names).Perm (name :: (rooms.map (·.name) ++ names)) :=
    List.perm_middle
  rw [(hperm.map toLowerCase).nodup_iff, List.map_cons, List.nodup_cons]
  refine ⟨fun hmem => ?_, h⟩
  obtain ⟨n, hn, hsame⟩ := List.mem_map.mp hmem
  obtain hn | hn := List.mem_append.mp hn
  · obtain ⟨room, hroom, rfl⟩ := List.mem_map.mp hn
    exact hrooms room hroom hsame
  · exact hnames n hn hsame

/-- A claimed name may be loaded, in whatever case. -/
theorem Exclusive.load {rooms : List LoadedRoom} {names : List String} {name : String}
    {room : LoadedRoom} (h : Exclusive toLowerCase rooms (name :: names))
    (hsame : SameName toLowerCase room.name name) :
    Exclusive toLowerCase (rooms ++ [room]) names := by
  unfold Exclusive at h ⊢
  have hlist : ((rooms ++ [room]).map (·.name) ++ names).map toLowerCase =
      (rooms.map (·.name) ++ name :: names).map toLowerCase := by
    have hlower : toLowerCase room.name = toLowerCase name := hsame
    simp [hlower]
  rwa [hlist]

/-! ## What the segments claim and load -/

/-- Unloading claims nothing. -/
theorem claim_unload (pr : Progress UnloadTask UnloadResult) :
    RoomManager.claim (pr.map .unload .unload) = none := by
  cases pr <;> rfl

/-- A call claims at most the name it has just found free. -/
theorem start_claims (toLowerCase : String → String) (call : Call) (m : Manager) :
    ((start toLowerCase call m).1.rooms.Sublist m.rooms ∧
      RoomManager.claim (start toLowerCase call m).2 = none) ∨
    ((start toLowerCase call m).1 = m ∧ ∃ name,
      RoomManager.claim (start toLowerCase call m).2 = some name ∧
      findRoom toLowerCase m name = none ∧
      (call = .getRoom name false ∨ ∃ isTemporary, call = .createRoom name isTemporary)) := by
  cases call with
  | getRoom roomName mustAlreadyBeLoaded =>
    simp only [start, getRoom]
    cases hfind : findRoom toLowerCase m roomName with
    | some room => exact .inl ⟨.refl _, rfl⟩
    | none =>
      cases mustAlreadyBeLoaded with
      | true => exact .inl ⟨.refl _, rfl⟩
      | false => exact .inr ⟨rfl, roomName, rfl, hfind, .inl rfl⟩
  | createRoom name isTemporary =>
    simp only [start, createRoom]
    cases hfind : findRoom toLowerCase m name with
    | some room => exact .inl ⟨.refl _, rfl⟩
    | none => exact .inr ⟨rfl, name, rfl, hfind, .inr ⟨isTemporary, rfl⟩⟩
  | unloadRoom call => exact .inl ⟨unloadRoom_sublist call m, claim_unload _⟩

/-- A call keeps its claim, gives it up, or loads what it has claimed. -/
theorem resume_claims {task : Task} {answer : Answer} {m m' : Manager}
    {pr : Progress Task Result} (h : resume toLowerCase task answer m = some (m', pr)) :
    (m'.rooms.Sublist m.rooms ∧
      (RoomManager.claim pr = none ∨ RoomManager.claim pr = task.loading)) ∨
    (∃ room name, m'.rooms = m.rooms ++ [room] ∧ RoomManager.claim pr = none ∧
      task.loading = some name ∧ SameName toLowerCase room.name name) := by
  unfold resume at h
  split at h
  · obtain ⟨⟨m'', pr'⟩, hunload, heq⟩ := Option.map_eq_some_iff.mp h
    cases heq
    exact .inl ⟨resumeUnload_sublist hunload, .inl (claim_unload pr')⟩
  · cases h
    exact .inl ⟨.refl _, .inl rfl⟩
  · cases h
    exact .inl ⟨.refl _, .inr rfl⟩
  · -- from redis
    split at h
    · next hname =>
      cases h
      exact .inr ⟨_, _, rfl, rfl, rfl, by rw [← hname]; rfl⟩
    · cases h
  · cases h
    exact .inl ⟨.refl _, .inl rfl⟩
  · -- from the database
    split at h
    · next hname =>
      cases h
      exact .inr ⟨_, _, rfl, rfl, rfl, hname⟩
    · cases h
  · split at h
    · cases h
      exact .inl ⟨.refl _, .inl rfl⟩
    · cases h
      exact .inl ⟨.refl _, .inr rfl⟩
  · split at h
    · cases h
      exact .inl ⟨.refl _, .inl rfl⟩
    · next name isTemporary _ _ =>
      cases h
      refine .inl ⟨.refl _, .inr ?_⟩
      cases isTemporary <;> rfl
  · cases h
    exact .inl ⟨.refl _, .inr rfl⟩
  · cases h
    exact .inl ⟨.refl _, .inr rfl⟩
  · -- a room that was created
    cases h
    exact .inr ⟨_, _, rfl, rfl, rfl, rfl⟩
  · split at h
    · cases h
      exact .inl ⟨.refl _, .inl rfl⟩
    · cases h
      exact .inl ⟨.refl _, .inl rfl⟩
  · cases h
    exact .inl ⟨.refl _, .inl rfl⟩
  · cases h

/-! ## Runs -/

/-- **One step.** -/
theorem step_exclusive {p p' : Calls} {e : Event}
    (h : Exclusive toLowerCase p.shared.rooms (claimed p)) (hfree : Unclaimed toLowerCase p e)
    (hstep : (manager toLowerCase).machine.step p e = some p') :
    Exclusive toLowerCase p'.shared.rooms (claimed p') := by
  obtain ⟨call, rfl, rfl⟩ | ⟨i, answer, task, m', pr, rfl, htask, hresume, rfl⟩ |
    ⟨change, m', rfl, henv, rfl⟩ := Program.step_cases hstep
  · show Exclusive toLowerCase (start toLowerCase call p.shared).1.rooms
      ((p.tasks ++ [(start toLowerCase call p.shared).2]).filterMap RoomManager.claim)
    rw [List.filterMap_append]
    obtain ⟨hrooms, hclaim⟩ | ⟨hm, name, hclaim, hfind, hcall⟩ :=
      start_claims toLowerCase call p.shared
    · have hnone : [(start toLowerCase call p.shared).2].filterMap RoomManager.claim = [] := by
        simp [hclaim]
      rw [hnone, List.append_nil]
      exact h.sublist hrooms (.refl _)
    · have hname : [(start toLowerCase call p.shared).2].filterMap RoomManager.claim = [name] := by
        simp [hclaim]
      have hunclaimed : ∀ n ∈ claimed p, ¬ SameName toLowerCase n name := by
        obtain rfl | ⟨isTemporary, rfl⟩ := hcall
        · exact hfree hfind
        · exact hfree hfind
      rw [hname, hm]
      exact (h.claim (findRoom_eq_none_iff.mp hfind) hunclaimed).perm
        (List.perm_append_singleton name (claimed p)).symm
  · obtain ⟨rest, hbefore, hafter⟩ := Program.filterMap_set_perm RoomManager.claim htask pr
    have hclaims := h.perm hbefore
    refine Exclusive.perm ?_ hafter.symm
    obtain ⟨hrooms, hclaim | hclaim⟩ | ⟨room, name, hrooms, hclaim, hloading, hsame⟩ :=
      resume_claims hresume
    · rw [hclaim]
      exact hclaims.sublist hrooms (List.sublist_append_right _ _)
    · rw [hclaim]
      exact hclaims.sublist hrooms (.refl _)
    · have hclaimed : RoomManager.claim (.waiting task) = some name := hloading
      rw [hclaim, hrooms]
      rw [hclaimed] at hclaims
      exact hclaims.load hsame
  · cases change with
    | users object count =>
      cases henv
      exact h

/-- **No name is loaded twice**, in every run in which no call passes its check while the name is
claimed. -/
theorem unique_throughout {m : Manager} (hm : Unique toLowerCase m.rooms) {events : List Event}
    (h : (manager toLowerCase).machine.Along (Unclaimed toLowerCase) (Pool.idle m) events) :
    (manager toLowerCase).machine.Always (fun p => Unique toLowerCase p.shared.rooms)
      (Pool.idle m) events := by
  have hstart : Exclusive toLowerCase m.rooms [] := by
    unfold Exclusive
    rw [List.append_nil, List.map_map]
    exact hm
  exact (Machine.always_of_along (fun _ _ _ => step_exclusive) hstart h).imp
    (fun _ => Exclusive.unique)

/-- Case folding that knows one name. -/
def foldFoo (name : String) : String := if name = "FOO" then "foo" else name

/-- No room is loaded. -/
def emptyManager : Manager := ⟨[], fun _ => 0, 0⟩

/-- A room is loaded from the database, and then found under its name in capitals. -/
def loadOnce : List Event :=
  [.call (.getRoom "foo" false), .answer 0 (.stored none), .answer 0 (.stored (some ⟨"foo", false⟩)),
    .answer 0 (.epoch 1), .call (.getRoom "FOO" false)]

/-- A run in which the name is never claimed twice. -/
theorem unique_throughout_loadOnce :
    Unique foldFoo emptyManager.rooms ∧
    (manager foldFoo).machine.Along (Unclaimed foldFoo) (Pool.idle emptyManager) loadOnce ∧
    (manager foldFoo).machine.Always (fun p => Unique foldFoo p.shared.rooms)
      (Pool.idle emptyManager) loadOnce := by
  have hempty : Unique foldFoo emptyManager.rooms := List.nodup_nil
  have hunclaimed :
      (manager foldFoo).machine.Along (Unclaimed foldFoo) (Pool.idle emptyManager) loadOnce := by
    decide +kernel
  exact ⟨hempty, hunclaimed, unique_throughout hempty hunclaimed⟩

/-- Two clients want a room that is in redis, at the same time. -/
def loadTwice : List Event :=
  [.call (.getRoom "foo" false), .call (.getRoom "foo" false),
    .answer 0 (.stored (some ⟨"foo", true⟩)), .answer 1 (.stored (some ⟨"foo", true⟩))]

/-- **A name can be loaded twice.** -/
theorem not_unique_throughout :
    ¬ ∀ (toLowerCase : String → String) (events : List Event),
      (manager toLowerCase).machine.Always (fun p => Unique toLowerCase p.shared.rooms)
        (Pool.idle emptyManager) events := by
  intro h
  have hrun : ((manager foldFoo).machine.run (Pool.idle emptyManager) loadTwice).map
      (fun p => p.shared.rooms) = some [⟨0, "foo", true⟩, ⟨1, "foo", true⟩] := by
    decide +kernel
  obtain ⟨p, hp, hrooms⟩ := Option.map_eq_some_iff.mp hrun
  have hunique := (h foldFoo loadTwice).last hp
  simp [hrooms, Unique] at hunique

end OpenTogetherTube.Server.RoomManager
