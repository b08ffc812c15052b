import OpenTogetherTube.Lib.Removal
import OpenTogetherTube.Server.RoomManager

/-!
# Unloading takes out the room it names

`unloadRoom` finds the place of its room in the array, waits for the room to get ready, and takes out
what is at that place then. While it waits, other calls take out other rooms, so the place may have
moved: the code looks whether the room that is there now has the right name, and searches for its
own room if it does not. That is right as long as the room is still loaded and the old place is
still inside the array. Outside, reading the name fails; and a room that is not found has the place
`-1`, at which `splice` takes out the last room.

`exact_throughout_iff` says that this is all: calls of `unloadRoom` take out exactly the rooms they
have resolved, each once, if and only if every await is `InPlace` when it settles.
-/

namespace OpenTogetherTube.Server.RoomManager

open OpenTogetherTube.Lib

/-- The pool of calls of `unloadRoom`. -/
abbrev Unloads := Pool Manager UnloadTask UnloadResult

/-- The room that a call has taken off the array, as far as the call knows. -/
def removedBy : Progress UnloadTask UnloadResult → Option LoadedRoom
  | .waiting task => task.unloaded
  | .done (.unloaded room) => some room
  | .done (.rejected unloaded) => unloaded
  | .done (.roomNotFound _) | .done .refused | .done .typeError => none

def removed (p : Unloads) : List LoadedRoom := p.tasks.filterMap removedBy

/-- The array is the initial one without the rooms that the calls have resolved and are done with,
each of them taken out once, and no call has failed on its index. -/
structure Exact (initial : List LoadedRoom) (p : Unloads) : Prop where
  rooms : p.shared.rooms = initial.filter (fun room => room ∉ removed p)
  once : (removed p).Nodup
  loaded : ∀ room ∈ removed p, room ∈ initial
  inRange : .done .typeError ∉ p.tasks

/-- What is loaded, and what a call waits for with a place, has been loaded initially. -/
structure Resolved (initial : List LoadedRoom) (p : Unloads) : Prop where
  rooms : ∀ room ∈ p.shared.rooms, room ∈ initial
  waiting : ∀ room idx preserveRedis,
    .waiting (.onBeforeUnload room idx preserveRedis) ∈ p.tasks → 0 ≤ idx → room ∈ initial

/-- The room is still loaded when its call goes on, and the place it had is in the array. A call
with an object goes on at once when it is commanded, and has no place. -/
def InPlace (p : Unloads) : PoolEvent Unload Answer Change → Prop
  | .call ⟨.object _, .commanded, _⟩ => False
  | .answer i .settled =>
    match p.tasks[i]? with
    | some (.waiting (.onBeforeUnload room idx _)) =>
      room ∈ p.shared.rooms ∧ 0 ≤ idx ∧ idx < p.shared.rooms.length
    | _ => True
  | _ => True

/-- Names do not repeat. -/
def DistinctNames (rooms : List LoadedRoom) : Prop := (rooms.map (·.name)).Nodup

theorem DistinctNames.eq_of_name {rooms : List LoadedRoom} (h : DistinctNames rooms)
    {room room' : LoadedRoom} (hr : room ∈ rooms) (hr' : room' ∈ rooms)
    (hname : room.name = room'.name) : room = room' :=
  List.inj_on_of_nodup_map h hr hr' hname

theorem DistinctNames.nodup {rooms : List LoadedRoom} (h : DistinctNames rooms) : rooms.Nodup :=
  List.Nodup.of_map _ h

/-! ## Taking out one room -/

theorem at?_eq_some_iff {rooms : List LoadedRoom} {idx : Int} {room : LoadedRoom} :
    at? rooms idx = some room ↔ 0 ≤ idx ∧ rooms[idx.toNat]? = some room := by
  unfold at?
  split
  · next h => simp [h]
  · next h => simp [h]

/-- Taking out what is at the place of a room takes out that room. -/
theorem splice_eq_filter {rooms : List LoadedRoom} (h : rooms.Nodup) {idx : Int}
    {room : LoadedRoom} (hat : at? rooms idx = some room) :
    splice rooms idx = rooms.filter (fun r => r ≠ room) := by
  obtain ⟨hpos, hget⟩ := at?_eq_some_iff.mp hat
  obtain ⟨hlt, rfl⟩ := List.getElem?_eq_some_iff.mp hget
  have hsplice : splice rooms idx = rooms.eraseIdx idx.toNat := by
    unfold splice
    rw [if_pos hpos]
  rw [hsplice, ← List.Nodup.erase_getElem h idx.toNat hlt, erase_eq_filter_of_nodup h]

/-- A room that is in the array is found at its place. -/
theorem at?_indexOf {rooms : List LoadedRoom} {room : LoadedRoom} (h : room ∈ rooms) :
    at? rooms (indexOf rooms room) = some room := by
  have hfound : ∃ i, rooms.findIdx? (fun r => r = room) = some i := by
    rw [← Option.isSome_iff_exists, List.findIdx?_isSome, List.any_eq_true]
    exact ⟨room, h, by simp⟩
  obtain ⟨i, hi⟩ := hfound
  obtain ⟨hlt, heq, -⟩ := List.findIdx?_eq_some_iff_getElem.mp hi
  have hindexOf : indexOf rooms room = i := by
    unfold indexOf
    rw [hi]
  rw [hindexOf, at?_eq_some_iff]
  refine ⟨Int.natCast_nonneg i, ?_⟩
  rw [Int.toNat_natCast, List.getElem?_eq_getElem hlt]
  exact congrArg some (of_decide_eq_true heq)

section Remove

variable {m : Manager} {room : LoadedRoom} {idx : Int}

/-- Whatever the place, a call that is in the array's range is past it. -/
theorem removedBy_removeRoom (hrange : at? m.rooms idx ≠ none) (preserveRedis : Bool) :
    removedBy (removeRoom m room idx preserveRedis).2 = some room := by
  unfold removeRoom
  split
  · next hnone => exact absurd hnone hrange
  · cases preserveRedis <;> rfl

/-- A call that is out of range fails. -/
theorem removeRoom_of_at?_eq_none (h : at? m.rooms idx = none) (preserveRedis : Bool) :
    removeRoom m room idx preserveRedis = (m, .done .typeError) := by
  unfold removeRoom
  rw [h]

/-- A room that is in the array is taken out, unless another room of its name is at its place. -/
theorem removeRoom_of_place {there : LoadedRoom} (hrooms : m.rooms.Nodup) (hroom : room ∈ m.rooms)
    (hthere : at? m.rooms idx = some there) (hname : there.name = room.name → there = room)
    (preserveRedis : Bool) :
    (removeRoom m room idx preserveRedis).1.rooms = m.rooms.filter (fun r => r ≠ room) := by
  unfold removeRoom
  split
  · next hnone => simp [hthere] at hnone
  · next there' hthere' =>
    cases hthere.symm.trans hthere'
    have hplace : at? m.rooms (if there.name = room.name then idx else indexOf m.rooms room) =
        some room := by
      split
      · next heq => rw [hthere, hname heq]
      · exact at?_indexOf hroom
    have hsplice := splice_eq_filter hrooms hplace
    cases preserveRedis
    · exact hsplice
    · exact hsplice

/-- **A room that is in the array is taken out**, wherever the call's place points to. -/
theorem removeRoom_rooms (hnames : DistinctNames m.rooms) (hroom : room ∈ m.rooms)
    (hrange : at? m.rooms idx ≠ none) (preserveRedis : Bool) :
    (removeRoom m room idx preserveRedis).1.rooms = m.rooms.filter (fun r => r ≠ room) := by
  obtain ⟨there, hthere⟩ := Option.ne_none_iff_exists'.mp hrange
  refine removeRoom_of_place hnames.nodup hroom hthere (fun hname => ?_) preserveRedis
  exact hnames.eq_of_name (List.mem_of_getElem? (at?_eq_some_iff.mp hthere).2) hroom hname

theorem removeRoom_ne_typeError (hrange : at? m.rooms idx ≠ none) (preserveRedis : Bool) :
    (removeRoom m room idx preserveRedis).2 ≠ .done .typeError := by
  intro herror
  have hremoved : removedBy (removeRoom m room idx preserveRedis).2 = some room :=
    removedBy_removeRoom hrange preserveRedis
  rw [herror] at hremoved
  cases hremoved

theorem removeRoom_waiting {room' : LoadedRoom} {idx' : Int} {preserveRedis preserveRedis' : Bool} :
    (removeRoom m room idx preserveRedis).2 ≠
      .waiting (.onBeforeUnload room' idx' preserveRedis') := by
  unfold removeRoom
  split
  · simp
  · cases preserveRedis <;> simp

end Remove

/-! ## One step -/

section Step

variable {toLowerCase : String → String} {initial : List LoadedRoom} {p : Unloads}

theorem Exact.mem_rooms (h : Exact initial p) {room : LoadedRoom} :
    room ∈ p.shared.rooms ↔ room ∈ initial ∧ room ∉ removed p := by
  rw [h.rooms, List.mem_filter, decide_eq_true_iff]

theorem Exact.distinctNames (hinit : DistinctNames initial) (h : Exact initial p) :
    DistinctNames p.shared.rooms := by
  unfold DistinctNames
  rw [h.rooms]
  exact List.Nodup.sublist (List.filter_sublist.map _) hinit

/-- A step that takes out nothing more. -/
theorem Exact.same (h : Exact initial p) {p' : Unloads} (hrooms : p'.shared.rooms = p.shared.rooms)
    (hremoved : (removed p').Perm (removed p))
    (htasks : ∀ pr ∈ p'.tasks, pr ∈ p.tasks ∨ pr ≠ .done .typeError) : Exact initial p' := by
  constructor
  case rooms =>
    rw [hrooms, h.rooms]
    exact List.filter_congr (fun room _ => by rw [decide_eq_decide, hremoved.mem_iff])
  case once => exact hremoved.nodup_iff.mpr h.once
  case loaded => exact fun room hroom => h.loaded room (hremoved.mem_iff.mp hroom)
  case inRange => exact fun hmem => (htasks _ hmem).elim h.inRange (fun hne => hne rfl)

/-- A step that takes out a room that is in the array. -/
theorem Exact.remove (h : Exact initial p) {p' : Unloads} {room : LoadedRoom}
    (hroom : room ∈ p.shared.rooms)
    (hrooms : p'.shared.rooms = p.shared.rooms.filter (fun r => r ≠ room))
    (hremoved : (removed p').Perm (room :: removed p))
    (htasks : ∀ pr ∈ p'.tasks, pr ∈ p.tasks ∨ pr ≠ .done .typeError) : Exact initial p' := by
  constructor
  case rooms =>
    rw [hrooms, h.rooms, List.filter_filter]
    refine List.filter_congr (fun r _ => ?_)
    rw [← Bool.decide_and, decide_eq_decide, hremoved.mem_iff, List.mem_cons, not_or]
  case once =>
    exact hremoved.nodup_iff.mpr (List.nodup_cons.mpr ⟨(h.mem_rooms.mp hroom).2, h.once⟩)
  case loaded =>
    intro r hr
    obtain rfl | hr := List.mem_cons.mp (hremoved.mem_iff.mp hr)
    · exact (h.mem_rooms.mp hroom).1
    · exact h.loaded r hr
  case inRange => exact fun hmem => (htasks _ hmem).elim h.inRange (fun hne => hne rfl)

theorem inPlace_call {call : Unload} :
    InPlace p (.call call) ↔ ∀ room, call.room = .object room → call.reason ≠ .commanded := by
  obtain ⟨ref, reason, preserveRedis⟩ := call
  cases ref with
  | name name => simp [InPlace]
  | object room => cases reason <;> simp [InPlace]

/-- A name is resolved to a room and its place, an object to itself. -/
theorem resolve_eq_ok {m : Manager} {ref : RoomRef} {room : LoadedRoom} {idx : Int}
    (h : resolve toLowerCase m ref = .ok (room, idx)) :
    (at? m.rooms idx = some room ∧ ∀ object, ref ≠ .object object) ∨
      (idx = -1 ∧ ref = .object room) := by
  cases ref with
  | name name =>
    obtain ⟨i, rfl, hi⟩ := resolve_name_eq_ok h
    exact .inl ⟨at?_eq_some_iff.mpr ⟨Int.natCast_nonneg i, hi⟩, by simp⟩
  | object room' =>
    cases h
    exact .inr ⟨rfl, rfl⟩

/-- What a call does up to its first await: it finds out that it has nothing to do, it waits with
the room it has resolved, it takes that room out, or it fails. -/
theorem unloadRoom_cases (toLowerCase : String → String) (call : Unload) (m : Manager) :
    (∃ pr, unloadRoom toLowerCase call m = (m, pr) ∧ removedBy pr = none ∧ pr ≠ .done .typeError ∧
      (∀ room idx preserveRedis, pr = .waiting (.onBeforeUnload room idx preserveRedis) → 0 ≤ idx →
        room ∈ m.rooms) ∧
      ∀ p : Unloads, InPlace p (.call call)) ∨
    (∃ room idx preserveRedis, at? m.rooms idx = some room ∧
      unloadRoom toLowerCase call m = removeRoom m room idx preserveRedis ∧
      ∀ p : Unloads, InPlace p (.call call)) ∨
    (unloadRoom toLowerCase call m = (m, .done .typeError) ∧
      ∀ p : Unloads, ¬ InPlace p (.call call)) := by
  cases hresolve : resolve toLowerCase m call.room with
  | error name =>
    refine .inl ⟨.done (.roomNotFound name), ?_, rfl, by simp, by simp, fun p => ?_⟩
    · simp only [unloadRoom, hresolve]
    · refine inPlace_call.mpr (fun room hroom => ?_)
      rw [hroom] at hresolve
      cases hresolve
  | ok found =>
    obtain ⟨room, idx⟩ := found
    have hfound := resolve_eq_ok hresolve
    by_cases hcommanded : call.reason = .commanded
    · have hremove : unloadRoom toLowerCase call m =
          removeRoom m room idx (call.preserveRedis.getD (call.reason = .commanded)) := by
        simp only [unloadRoom, hresolve, hcommanded]
        simp
      obtain ⟨hat, hname⟩ | ⟨rfl, hobject⟩ := hfound
      · exact .inr (.inl ⟨room, idx, _, hat, hremove, fun p =>
          inPlace_call.mpr (fun object hobject => absurd hobject (hname object))⟩)
      · -- there is nothing at the place `-1`
        refine .inr (.inr ⟨hremove.trans (removeRoom_of_at?_eq_none rfl _), fun p hplace => ?_⟩)
        exact inPlace_call.mp hplace room hobject hcommanded
    · have hplace : ∀ p : Unloads, InPlace p (.call call) := fun p =>
        inPlace_call.mpr (fun _ _ => hcommanded)
      by_cases hkeepalive : call.reason = .keepalive ∧ m.users room.object > 0
      · refine .inl ⟨.done .refused, ?_, rfl, by simp, by simp, hplace⟩
        simp only [unloadRoom, hresolve]
        rw [if_pos hkeepalive]
      · refine .inl ⟨.waiting (.onBeforeUnload room idx
          (call.preserveRedis.getD (call.reason = .commanded))), ?_, rfl, by simp, ?_, hplace⟩
        · simp only [unloadRoom, hresolve]
          rw [if_neg hkeepalive, if_pos hcommanded]
        · intro room' idx' preserveRedis heq hidx
          cases heq
          obtain ⟨hat, -⟩ | ⟨rfl, -⟩ := hfound
          · exact List.mem_of_getElem? (at?_eq_some_iff.mp hat).2
          · exact absurd hidx (by decide)

/-- A segment behind an await goes on with what was taken out, or it is the one that takes out. -/
theorem resumeUnload_cases {task : UnloadTask} {answer : Answer} {m m' : Manager}
    {pr : Progress UnloadTask UnloadResult} (h : resumeUnload task answer m = some (m', pr)) :
    (m' = m ∧ removedBy pr = removedBy (.waiting task) ∧ pr ≠ .done .typeError ∧
      (∀ room idx preserveRedis, pr ≠ .waiting (.onBeforeUnload room idx preserveRedis)) ∧
      ∀ room idx preserveRedis, task = .onBeforeUnload room idx preserveRedis → answer ≠ .settled) ∨
    (∃ room idx preserveRedis, task = .onBeforeUnload room idx preserveRedis ∧ answer = .settled ∧
      m' = (removeRoom m room idx preserveRedis).1 ∧
      pr = (removeRoom m room idx preserveRedis).2) := by
  unfold resumeUnload at h
  split at h
  · cases h
    exact .inl ⟨rfl, rfl, by simp, by simp, by simp⟩
  · next room idx preserveRedis =>
    have heq : removeRoom m room idx preserveRedis = (m', pr) := Option.some.inj h
    exact .inr ⟨room, idx, preserveRedis, rfl, rfl, (congrArg Prod.fst heq).symm,
      (congrArg Prod.snd heq).symm⟩
  · cases h
    exact .inl ⟨rfl, rfl, by simp, by simp, by simp⟩
  · cases h
    exact .inl ⟨rfl, rfl, by simp, by simp, by simp⟩
  · cases h

/-- **Calls wait for rooms that were loaded**, and none is loaded while they do. -/
theorem Resolved.step (h : Resolved initial p) {p' : Unloads} {e : PoolEvent Unload Answer Change}
    (hstep : (unloader toLowerCase).machine.step p e = some p') : Resolved initial p' := by
  obtain ⟨call, rfl, rfl⟩ | ⟨i, answer, task, m', pr, rfl, htask, hresume, rfl⟩ |
    ⟨change, m', rfl, henv, rfl⟩ := Program.step_cases hstep
  · constructor
    case rooms =>
      exact fun room hroom => h.rooms room ((unloadRoom_sublist call p.shared).subset hroom)
    case waiting =>
      intro room idx preserveRedis hmem hidx
      obtain hold | hnew := List.mem_append.mp hmem
      · exact h.waiting room idx preserveRedis hold hidx
      have hwaiting : (unloadRoom toLowerCase call p.shared).2 =
          .waiting (.onBeforeUnload room idx preserveRedis) := (List.mem_singleton.mp hnew).symm
      obtain ⟨pr, heq, -, -, hpr, -⟩ | ⟨room', idx', preserveRedis', -, heq, -⟩ | ⟨heq, -⟩ :=
        unloadRoom_cases toLowerCase call p.shared
      · rw [heq] at hwaiting
        exact h.rooms room (hpr room idx preserveRedis hwaiting hidx)
      · rw [heq] at hwaiting
        exact absurd hwaiting removeRoom_waiting
      · rw [heq] at hwaiting
        cases hwaiting
  · constructor
    case rooms =>
      exact fun room hroom => h.rooms room ((resumeUnload_sublist hresume).subset hroom)
    case waiting =>
      intro room idx preserveRedis hmem hidx
      obtain hold | rfl := List.mem_or_eq_of_mem_set hmem
      · exact h.waiting room idx preserveRedis hold hidx
      obtain ⟨-, -, -, hpr, -⟩ | ⟨room', idx', preserveRedis', -, -, -, heq⟩ :=
        resumeUnload_cases hresume
      · exact absurd rfl (hpr room idx preserveRedis)
      · exact absurd heq.symm removeRoom_waiting
  · cases change with
    | users object count =>
      cases henv
      exact ⟨h.rooms, h.waiting⟩

/-- **The room of a call that goes on.** It is taken out exactly if it is still in the array and the
place is in range. -/
theorem exact_removeRoom_iff (hinit : DistinctNames initial) (hres : Resolved initial p)
    (h : Exact initial p) {i : Nat} {room : LoadedRoom} {idx : Int} {preserveRedis : Bool}
    (htask : p.tasks[i]? = some (.waiting (.onBeforeUnload room idx preserveRedis))) :
    Exact initial ⟨(removeRoom p.shared room idx preserveRedis).1,
        p.tasks.set i (removeRoom p.shared room idx preserveRedis).2⟩ ↔
      room ∈ p.shared.rooms ∧ 0 ≤ idx ∧ idx < p.shared.rooms.length := by
  have hlt : i < p.tasks.length := (List.getElem?_eq_some_iff.mp htask).1
  have hrange : at? p.shared.rooms idx ≠ none ↔ 0 ≤ idx ∧ idx < p.shared.rooms.length := by
    unfold at?
    split
    · next hpos => rw [Ne, List.getElem?_eq_none_iff]; omega
    · next hneg => exact ⟨fun habsurd => absurd rfl habsurd, fun hpos => absurd hpos.1 hneg⟩
  rw [← hrange]
  -- the calls, before and after
  obtain ⟨rest, hbefore, hafter⟩ := Program.filterMap_set_perm removedBy htask
    (removeRoom p.shared room idx preserveRedis).2
  have hmore (hin : at? p.shared.rooms idx ≠ none) :
      (removed ⟨(removeRoom p.shared room idx preserveRedis).1,
        p.tasks.set i (removeRoom p.shared room idx preserveRedis).2⟩).Perm (room :: removed p) := by
    rw [removedBy_removeRoom hin] at hafter
    exact hafter.trans (hbefore.symm.cons room)
  constructor
  · intro hexact
    have hin : at? p.shared.rooms idx ≠ none := by
      intro hnone
      rw [removeRoom_of_at?_eq_none hnone] at hexact
      exact hexact.inRange (List.mem_set hlt _)
    refine ⟨?_, hin⟩
    by_contra hgone
    -- it was loaded at first, so another call has taken it out already
    have hloaded : room ∈ initial :=
      hres.waiting room idx preserveRedis (List.mem_of_getElem? htask) (hrange.mp hin).1
    have htwice : room ∈ removed p := by
      by_contra hnot
      exact hgone (h.mem_rooms.mpr ⟨hloaded, hnot⟩)
    exact (List.nodup_cons.mp ((hmore hin).nodup_iff.mp hexact.once)).1 htwice
  · rintro ⟨hroom, hin⟩
    refine h.remove hroom (removeRoom_rooms (h.distinctNames hinit) hroom hin _) (hmore hin) ?_
    intro pr hpr
    obtain hold | rfl := List.mem_or_eq_of_mem_set hpr
    · exact .inl hold
    · exact .inr (removeRoom_ne_typeError hin _)

/-- **One step.** -/
theorem step_exact_iff (hinit : DistinctNames initial) (hres : Resolved initial p)
    (h : Exact initial p) {p' : Unloads} {e : PoolEvent Unload Answer Change}
    (hstep : (unloader toLowerCase).machine.step p e = some p') :
    Exact initial p' ↔ InPlace p e := by
  obtain ⟨call, rfl, rfl⟩ | ⟨i, answer, task, m', pr, rfl, htask, hresume, rfl⟩ |
    ⟨change, m', rfl, henv, rfl⟩ := Program.step_cases hstep
  · have hstart : (unloader toLowerCase).start call p.shared =
        unloadRoom toLowerCase call p.shared := rfl
    rw [hstart]
    have htasks (pr : Progress UnloadTask UnloadResult) (hpr : pr ≠ .done .typeError) :
        ∀ t ∈ p.tasks ++ [pr], t ∈ p.tasks ∨ t ≠ .done .typeError := by
      intro t ht
      obtain hold | hnew := List.mem_append.mp ht
      · exact .inl hold
      · rw [List.mem_singleton.mp hnew]
        exact .inr hpr
    obtain ⟨pr, heq, hnone, hpr, -, hplace⟩ | ⟨room, idx, preserveRedis, hat, heq, hplace⟩ |
      ⟨heq, hplace⟩ := unloadRoom_cases toLowerCase call p.shared
    · rw [heq]
      have hremoved : removed ⟨p.shared, p.tasks ++ [pr]⟩ = removed p := by
        simp [removed, List.filterMap_append, hnone]
      refine iff_of_true (h.same rfl ?_ (htasks pr hpr)) (hplace p)
      rw [hremoved]
    · rw [heq]
      have hin : at? p.shared.rooms idx ≠ none := by simp [hat]
      have hroom : room ∈ p.shared.rooms := List.mem_of_getElem? (at?_eq_some_iff.mp hat).2
      refine iff_of_true (h.remove hroom (removeRoom_rooms (h.distinctNames hinit) hroom hin _) ?_
        (htasks _ (removeRoom_ne_typeError hin _))) (hplace p)
      have hremoved : removed ⟨(removeRoom p.shared room idx preserveRedis).1,
          p.tasks ++ [(removeRoom p.shared room idx preserveRedis).2]⟩ = removed p ++ [room] := by
        simp [removed, List.filterMap_append, removedBy_removeRoom hin]
      rw [hremoved]
      exact List.perm_append_singleton room (removed p)
    · rw [heq]
      exact iff_of_false (fun hexact => hexact.inRange (by simp)) (hplace p)
  · obtain ⟨rfl, hsame, hpr, -, hnot⟩ | ⟨room, idx, preserveRedis, rfl, rfl, rfl, rfl⟩ :=
      resumeUnload_cases hresume
    · obtain ⟨rest, hbefore, hafter⟩ := Program.filterMap_set_perm removedBy htask pr
      rw [hsame] at hafter
      refine iff_of_true (h.same rfl (hafter.trans hbefore.symm) ?_) ?_
      · intro t ht
        obtain hold | rfl := List.mem_or_eq_of_mem_set ht
        · exact .inl hold
        · exact .inr hpr
      · cases task with
        | onBeforeUnload room idx preserveRedis =>
          cases answer with
          | settled => exact absurd rfl (hnot room idx preserveRedis rfl)
          | _ => trivial
        | _ => cases answer <;> simp [InPlace, htask]
    · rw [exact_removeRoom_iff hinit hres h htask]
      simp only [InPlace, htask]
  · cases change with
    | users object count =>
      cases henv
      exact iff_of_true (h.same rfl (.refl _) (fun pr hpr => .inl hpr)) trivial

end Step

/-! ## Runs -/

/-- **Unloading takes out exactly the rooms it names, if and only if every call finds its room still
loaded and its place in range when it goes on.** -/
theorem exact_throughout_iff (toLowerCase : String → String) {m : Manager}
    (hm : DistinctNames m.rooms) (events : List (PoolEvent Unload Answer Change)) :
    (unloader toLowerCase).machine.Always (Exact m.rooms) (Pool.idle m) events ↔
      (unloader toLowerCase).machine.Along InPlace (Pool.idle m) events := by
  have hresolved : Resolved m.rooms (Pool.idle m : Unloads) := ⟨fun _ h => h, by simp [Pool.idle]⟩
  refine Machine.always_iff_along_of_step (fun p e p' hp hstep => hp.step hstep)
    (fun p e p' hres hp hstep => step_exact_iff hm hres hp hstep) hresolved ?_
  constructor
  case rooms => simp [removed, Pool.idle]
  case once => exact List.nodup_nil
  case loaded => simp [removed, Pool.idle]
  case inRange => simp [Pool.idle]

/-- Three rooms are loaded. -/
def threeRooms : Manager := ⟨[⟨0, "a", false⟩, ⟨1, "b", true⟩, ⟨2, "c", true⟩], fun _ => 0, 3⟩

/-- Two of them are unloaded at once, and the later one is done first. -/
def unloadBackwards : List (PoolEvent Unload Answer Change) :=
  [.call ⟨.name "a", .admin, none⟩, .call ⟨.name "b", .admin, none⟩, .answer 1 .settled,
    .answer 0 .settled]

theorem exact_throughout_iff_unloadBackwards :
    DistinctNames threeRooms.rooms ∧
    ((unloader id).machine.Always (Exact threeRooms.rooms) (Pool.idle threeRooms) unloadBackwards ↔
      (unloader id).machine.Along InPlace (Pool.idle threeRooms) unloadBackwards) := by
  have hnames : DistinctNames threeRooms.rooms := by unfold DistinctNames; decide +kernel
  exact ⟨hnames, exact_throughout_iff id hnames unloadBackwards⟩

/-- The node is shut down, and the rooms get ready in the order in which they are loaded. -/
def shutdown : List (PoolEvent Unload Answer Change) :=
  [.call ⟨.name "a", .shutdown, some true⟩, .call ⟨.name "b", .shutdown, some true⟩,
    .call ⟨.name "c", .shutdown, some true⟩, .answer 0 .settled, .answer 1 .settled,
    .answer 2 .settled]

/-- **Shutting down three rooms fails on the index of the third**, which stays loaded. -/
theorem not_exact_throughout :
    ¬ ∀ (toLowerCase : String → String) (m : Manager), DistinctNames m.rooms →
      ∀ events, (unloader toLowerCase).machine.Always (Exact m.rooms) (Pool.idle m) events := by
  intro h
  have hnames : DistinctNames threeRooms.rooms := by unfold DistinctNames; decide +kernel
  have hrun : ((unloader id).machine.run (Pool.idle threeRooms) shutdown).map
      (fun p => (p.shared.rooms, p.tasks[2]?)) =
        some ([⟨2, "c", true⟩], some (.done .typeError)) := by
    decide +kernel
  obtain ⟨p, hp, heq⟩ := Option.map_eq_some_iff.mp hrun
  have hexact := (h id threeRooms hnames shutdown).last hp
  exact hexact.inRange (List.mem_of_getElem? (Prod.mk.inj heq).2)

end OpenTogetherTube.Server.RoomManager
