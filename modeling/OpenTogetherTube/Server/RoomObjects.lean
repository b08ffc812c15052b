import OpenTogetherTube.Server.Unloading

/-!
# Every room object is in one place

A `Room` is made when it is found in storage, and goes into the array at once; or it is made by
`createRoom`, which puts it there some awaits later: until then the call holds it, `Task.made`. An
object that has been taken out of the array does not come back. So the objects that were issued
never repeat, over the array, the calls that hold one, and whatever else they are moved to.
-/

namespace OpenTogetherTube.Server.RoomManager

open OpenTogetherTube.Lib

/-- These objects have been issued, each of them once. -/
structure Issued (fresh : ObjectId) (objects : List ObjectId) : Prop where
  once : objects.Nodup
  older : ∀ o ∈ objects, o < fresh

namespace Issued

variable {fresh fresh' : ObjectId} {objects objects' : List ObjectId}

theorem nil (fresh : ObjectId) : Issued fresh [] := ⟨List.nodup_nil, fun _ h => by cases h⟩

theorem perm (h : Issued fresh objects) (hp : objects.Perm objects') : Issued fresh objects' :=
  ⟨hp.nodup_iff.mp h.once, fun o ho => h.older o (hp.mem_iff.mpr ho)⟩

theorem sublist (h : Issued fresh objects) (hs : objects'.Sublist objects) :
    Issued fresh objects' :=
  ⟨h.once.sublist hs, fun o ho => h.older o (hs.subset ho)⟩

/-- The next one is new. -/
theorem issue (h : Issued fresh objects) : Issued (fresh + 1) (fresh :: objects) := by
  constructor
  case once => exact List.nodup_cons.mpr ⟨fun hmem => Nat.lt_irrefl _ (h.older _ hmem), h.once⟩
  case older =>
    intro o ho
    obtain rfl | ho := List.mem_cons.mp ho
    · exact Nat.lt_succ_self _
    · exact Nat.lt_succ_of_lt (h.older o ho)

end Issued

/-- The objects of rooms. -/
def objects (rooms : List LoadedRoom) : List ObjectId := rooms.map (·.object)

/-- The room that `createRoom` has made, before it is added. -/
def Task.made : Task → Option ObjectId
  | .saveRoom room | .update room | .sync room => some room.object
  | .redisGet _ | .getRoomByName _ | .redisExists _ _ | .isRoomNameTaken _ _ | .redisIncr _ _
  | .redisSet _ | .unload _ => none

def madeBy : Progress Task Result → Option ObjectId
  | .waiting task => task.made
  | .done _ => none

variable {toLowerCase : String → String}

theorem madeBy_unload (pr : Progress UnloadTask UnloadResult) :
    madeBy (pr.map .unload .unload) = none := by
  cases pr <;> rfl

theorem removeRoom_fresh (m : Manager) (room : LoadedRoom) (idx : Int) (preserveRedis : Bool) :
    (removeRoom m room idx preserveRedis).1.fresh = m.fresh := by
  unfold removeRoom
  split
  · rfl
  · cases preserveRedis <;> rfl

theorem unloadRoom_fresh (call : Unload) (m : Manager) :
    (unloadRoom toLowerCase call m).1.fresh = m.fresh := by
  unfold unloadRoom
  dsimp only
  split
  · rfl
  split
  · rfl
  split
  · rfl
  · exact removeRoom_fresh _ _ _ _

theorem resumeUnload_fresh {task : UnloadTask} {answer : Answer} {m m' : Manager}
    {pr : Progress UnloadTask UnloadResult} (h : resumeUnload task answer m = some (m', pr)) :
    m'.fresh = m.fresh := by
  obtain ⟨rfl, -⟩ | ⟨room, idx, preserveRedis, -, -, rfl, -⟩ := resumeUnload_cases h
  · rfl
  · exact removeRoom_fresh _ _ _ _

/-- A call makes no room up to its first await. -/
theorem start_objects (toLowerCase : String → String) (call : Call) (m : Manager) :
    (start toLowerCase call m).1.rooms.Sublist m.rooms ∧
      (start toLowerCase call m).1.fresh = m.fresh ∧
      madeBy (start toLowerCase call m).2 = none := by
  cases call with
  | getRoom roomName mustAlreadyBeLoaded =>
    simp only [start, getRoom]
    split
    · exact ⟨.refl _, rfl, rfl⟩
    · split <;> exact ⟨.refl _, rfl, rfl⟩
  | createRoom name isTemporary =>
    simp only [start, createRoom]
    split <;> exact ⟨.refl _, rfl, rfl⟩
  | unloadRoom call => exact ⟨unloadRoom_sublist call m, unloadRoom_fresh call m, madeBy_unload _⟩

section Resume

variable {m m' : Manager} {others : List ObjectId} {made made' : Option ObjectId}

/-- What was in the array, or with the call, may be left out. -/
theorem Issued.leave (h : Issued m.fresh (others ++ objects m.rooms ++ made.toList))
    (hfresh : m'.fresh = m.fresh) (hrooms : m'.rooms.Sublist m.rooms)
    (hmade : made' = made ∨ made' = none) :
    Issued m'.fresh (others ++ objects m'.rooms ++ made'.toList) := by
  rw [hfresh]
  refine h.sublist (((List.Sublist.refl others).append (hrooms.map _)).append ?_)
  obtain rfl | rfl := hmade
  · exact .refl _
  · exact List.nil_sublist _

theorem Issued.issueOne (h : Issued m.fresh (others ++ objects m.rooms ++ made.toList)) :
    Issued (m.fresh + 1) (others ++ objects m.rooms ++ [m.fresh]) := by
  have hleft : Issued m.fresh (others ++ objects m.rooms) :=
    h.sublist (List.sublist_append_left _ _)
  exact hleft.issue.perm (List.perm_append_singleton m.fresh _).symm

/-- A new object may go into the array. -/
theorem Issued.load (h : Issued m.fresh (others ++ objects m.rooms ++ made.toList))
    (stored : StoredRoom) :
    Issued (load m stored).1.fresh
      (others ++ objects (load m stored).1.rooms ++ (madeBy (load m stored).2).toList) := by
  have hloaded : others ++ objects (RoomManager.load m stored).1.rooms ++
      (madeBy (RoomManager.load m stored).2).toList = others ++ objects m.rooms ++ [m.fresh] := by
    simp [RoomManager.load, newRoom, addRoom, objects, madeBy, Task.made]
  rw [hloaded]
  exact h.issueOne

/-- **One segment**: it moves its own object, leaves some out, or issues one. -/
theorem resume_objects {task : Task} {answer : Answer} {pr : Progress Task Result}
    (h : resume toLowerCase task answer m = some (m', pr))
    (hissued : Issued m.fresh (others ++ objects m.rooms ++ task.made.toList)) :
    Issued m'.fresh (others ++ objects m'.rooms ++ (madeBy pr).toList) := by
  unfold resume at h
  split at h
  · obtain ⟨⟨m'', pr'⟩, hunload, heq⟩ := Option.map_eq_some_iff.mp h
    cases heq
    exact hissued.leave (resumeUnload_fresh hunload) (resumeUnload_sublist hunload)
      (.inr (madeBy_unload pr'))
  · cases h
    exact hissued.leave rfl (.refl _) (.inr rfl)
  · cases h
    exact hissued.leave rfl (.refl _) (.inl rfl)
  · -- from redis
    split at h
    · cases h
      exact hissued.load _
    · cases h
  · cases h
    exact hissued.leave rfl (.refl _) (.inl rfl)
  · -- from the database
    split at h
    · cases h
      exact hissued.load _
    · cases h
  · split at h
    · cases h
      exact hissued.leave rfl (.refl _) (.inl rfl)
    · cases h
      exact hissued.leave rfl (.refl _) (.inl rfl)
  · split at h
    · cases h
      exact hissued.leave rfl (.refl _) (.inl rfl)
    · -- the room that is created
      next isTemporary _ _ =>
      cases h
      cases isTemporary
      · exact hissued.issueOne
      · exact hissued.issueOne
  · cases h
    exact hissued.leave rfl (.refl _) (.inl rfl)
  · cases h
    exact hissued.leave rfl (.refl _) (.inl rfl)
  · -- it is added
    next room =>
    cases h
    have hadded : others ++ objects (m.rooms ++ [room]) ++ [] =
        others ++ objects m.rooms ++ [room.object] := by
      simp [objects]
    show Issued m.fresh (others ++ objects (m.rooms ++ [room]) ++ [])
    rw [hadded]
    exact hissued
  · split at h
    · cases h
      exact hissued.leave rfl (.refl _) (.inl rfl)
    · cases h
      exact hissued.leave rfl (.refl _) (.inl rfl)
  · cases h
    exact hissued.leave rfl (.refl _) (.inl rfl)
  · cases h

end Resume

end OpenTogetherTube.Server.RoomManager
