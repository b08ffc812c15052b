import OpenTogetherTube.Balancer.Integrity

/-!
# What becomes of one room

The balancer's operations are about many rooms at once, and most properties are about one of them.
For a room `r`, a context says where `r` is mapped to and which monoliths have it. `SameRoom r` is
the relation of contexts that say the same; an operation on another room stays within it, and for
each operation on `r` itself there is a lemma that says what the context says afterwards.
-/

namespace OpenTogetherTube.Balancer.BalancerContext

open OpenTogetherTube.Lib

/-- The two contexts say the same about the room, and have the same monoliths. -/
structure SameRoom (r : RoomName) (ctx ctx' : BalancerContext) : Prop where
  locator : ctx'.roomsToMonoliths.get? r = ctx.roomsToMonoliths.get? r
  holds : ∀ m, ctx'.Holds m r ↔ ctx.Holds m r
  connected : ∀ m, ctx'.Connected m ↔ ctx.Connected m

theorem SameRoom.refl (r : RoomName) (ctx : BalancerContext) : SameRoom r ctx ctx :=
  ⟨rfl, fun _ => Iff.rfl, fun _ => Iff.rfl⟩

theorem SameRoom.trans {r : RoomName} {ctx ctx' ctx'' : BalancerContext} (h : SameRoom r ctx ctx')
    (h' : SameRoom r ctx' ctx'') : SameRoom r ctx ctx'' :=
  ⟨h'.locator.trans h.locator, fun m => (h'.holds m).trans (h.holds m),
    fun m => (h'.connected m).trans (h.connected m)⟩

/-- Whom a conflict is about: who is told to unload the room. -/
def ConflictAction.handle : ConflictAction → MonolithId
  | .reject handle => handle
  | .replace handle => handle

variable {ctx : BalancerContext} {r : RoomName} {m : MonolithId}

variable (ctx) in
/-- Replacing a monolith that is there connects nobody. -/
theorem connected_setMonolith {mono mono' : BalancerMonolith} (hm : ctx.monoliths.get? m = some mono)
    (m' : MonolithId) :
    ({ ctx with monoliths := ctx.monoliths.set m mono' } : BalancerContext).Connected m' ↔
      ctx.Connected m' := by
  simp only [Connected, OrderedMap.contains_set, Bool.or_eq_true, decide_eq_true_eq,
    or_iff_right_iff_imp]
  rintro rfl
  exact connected_iff.mpr ⟨mono, hm⟩

/-- The rooms of a monolith that is there. -/
theorem holds_iff {mono : BalancerMonolith} (hm : ctx.monoliths.get? m = some mono) :
    ctx.Holds m r ↔ mono.rooms.contains r = true := by
  simp [Holds, hm]

/-! ## Taking the room off a monolith -/

theorem removeRoom_other {room : RoomName} (hne : r ≠ room) (m : MonolithId) :
    SameRoom r ctx (ctx.removeRoom room m).1 := by
  refine ⟨?_, fun m' => ?_, removeRoom_connected ctx room m⟩
  · unfold removeRoom
    split
    · rfl
    · dsimp only
      split
      · split
        · simp [hne]
        · rfl
      · rfl
  · cases hm : ctx.monoliths.get? m with
    | none => simp [removeRoom, hm]
    | some mono =>
      simp only [removeRoom, hm]
      refine holds_setMonolith.trans ?_
      split
      · next h =>
        subst h
        simp [holds_iff hm, hne]
      · rfl

/-- Nobody but the monolith loses the room. -/
theorem removeRoom_holds (ctx : BalancerContext) (r : RoomName) (m m' : MonolithId) :
    (ctx.removeRoom r m).1.Holds m' r ↔ m' ≠ m ∧ ctx.Holds m' r := by
  cases hm : ctx.monoliths.get? m with
  | none =>
    simp only [removeRoom, hm, iff_and_self]
    rintro ⟨mono, hmono, -⟩ rfl
    rw [hm] at hmono
    cases hmono
  | some mono =>
    simp only [removeRoom, hm]
    refine holds_setMonolith.trans ?_
    split
    · next h => simp [h]
    · next h => simp [h]

/-- The mapping goes along if it points to the monolith, and that is connected. -/
theorem removeRoom_locator (ctx : BalancerContext) (r : RoomName) (m : MonolithId)
    {locator : RoomLocator} :
    (ctx.removeRoom r m).1.roomsToMonoliths.get? r = some locator ↔
      ctx.roomsToMonoliths.get? r = some locator ∧
        ¬ (locator.monolithId = m ∧ ctx.Connected m) := by
  cases hm : ctx.monoliths.get? m with
  | none =>
    have hnot : ¬ ctx.Connected m := by
      rw [connected_iff, hm]
      simp
    simp [removeRoom, hm, hnot]
  | some mono =>
    have hconnected : ctx.Connected m := connected_iff.mpr ⟨mono, hm⟩
    simp only [removeRoom, hm, hconnected, and_true]
    cases hl : ctx.roomsToMonoliths.get? r with
    | none => simp [hl]
    | some l =>
      by_cases h : l.monolithId = m
      · simp only [h, if_true, OrderedMap.get?_erase]
        refine iff_of_false (by simp) ?_
        rintro ⟨heq, hne⟩
        cases heq
        exact hne h
      · simp only [h, if_false, hl]
        refine ⟨fun heq => ⟨heq, ?_⟩, And.left⟩
        cases heq
        exact h

/-! ## Putting the room on a monolith -/

section Place

variable (room : RoomMetadata) (loadEpoch : LoadEpoch) (conflict : Option ConflictAction)

theorem placeRoom_connected (m' : MonolithId) :
    (ctx.placeRoom room m loadEpoch conflict).1.Connected m' ↔ ctx.Connected m' := by
  cases hm : ctx.monoliths.get? m with
  | none =>
    simp only [placeRoom, hm]
    rfl
  | some mono =>
    obtain ⟨mono', hok, -, -, -⟩ := mono.addOrSyncRoom_ok room
    simp only [placeRoom, hm, hok]
    exact connected_setMonolith { ctx with
      roomsToMonoliths := ctx.roomsToMonoliths.set room.name ⟨m, loadEpoch⟩ } hm m'

/-- The room is mapped to the monolith in any case. -/
theorem placeRoom_locator (r : RoomName) :
    (ctx.placeRoom room m loadEpoch conflict).1.roomsToMonoliths.get? r =
      if r = room.name then some ⟨m, loadEpoch⟩ else ctx.roomsToMonoliths.get? r := by
  cases hm : ctx.monoliths.get? m with
  | none =>
    simp only [placeRoom, hm]
    exact OrderedMap.get?_set _ _ _ _
  | some mono =>
    obtain ⟨mono', hok, -, -, -⟩ := mono.addOrSyncRoom_ok room
    simp only [placeRoom, hm, hok]
    exact OrderedMap.get?_set _ _ _ _

/-- A monolith that is connected has the room afterwards. -/
theorem placeRoom_holds (r : RoomName) (m' : MonolithId) :
    (ctx.placeRoom room m loadEpoch conflict).1.Holds m' r ↔
      (m' = m ∧ r = room.name ∧ ctx.Connected m) ∨ ctx.Holds m' r := by
  cases hm : ctx.monoliths.get? m with
  | none =>
    have hnot : ¬ ctx.Connected m := by
      rw [connected_iff, hm]
      simp
    simp only [placeRoom, hm, hnot, and_false, false_or]
    rfl
  | some mono =>
    have hconnected : ctx.Connected m := connected_iff.mpr ⟨mono, hm⟩
    obtain ⟨mono', hok, -, -, hrooms⟩ := mono.addOrSyncRoom_ok room
    simp only [placeRoom, hm, hok]
    refine (@holds_setMonolith { ctx with
      roomsToMonoliths := ctx.roomsToMonoliths.set room.name ⟨m, loadEpoch⟩ } _ _ _ _).trans ?_
    split
    · next h => simp [h, hrooms, holds_iff hm, hconnected]
    · next h =>
      simp only [h, false_and, false_or]
      rfl

variable (ctx m) in
/-- Placing a room fails only if the monolith is gone. -/
theorem placeRoom_result :
    (ctx.Connected m ∧ (ctx.placeRoom room m loadEpoch conflict).2 = .ok conflict) ∨
      (¬ ctx.Connected m ∧
        (ctx.placeRoom room m loadEpoch conflict).2 = .error .monolithNotFound) := by
  cases hm : ctx.monoliths.get? m with
  | none =>
    have hnot : ¬ ctx.Connected m := by
      rw [connected_iff, hm]
      simp
    refine .inr ⟨hnot, ?_⟩
    simp only [placeRoom, hm]
  | some mono =>
    obtain ⟨mono', hok, -, -, -⟩ := mono.addOrSyncRoom_ok room
    refine .inl ⟨connected_iff.mpr ⟨mono, hm⟩, ?_⟩
    simp only [placeRoom, hm, hok]

theorem placeRoom_other (hne : r ≠ room.name) :
    SameRoom r ctx (ctx.placeRoom room m loadEpoch conflict).1 := by
  refine ⟨?_, fun m' => ?_, placeRoom_connected room loadEpoch conflict⟩
  · rw [placeRoom_locator, if_neg hne]
  · rw [placeRoom_holds]
    simp [hne]

end Place

/-! ## A report -/

section Sync

variable (room : RoomMetadata) (loadEpoch : LoadEpoch)

variable (ctx m) in
/-- **What a report does.** The room is placed on the monolith, if it is mapped nowhere or there
already; or an older load elsewhere wins; or a newer one does not, and is taken away; or nothing is
done, because the load elsewhere is as old or a monolith is gone. -/
theorem syncRoom_cases :
    ((ctx.roomsToMonoliths.get? room.name = none ∨
        ∃ epoch, ctx.roomsToMonoliths.get? room.name = some ⟨m, epoch⟩) ∧
      ctx.syncRoom room m loadEpoch = ctx.placeRoom room m loadEpoch none) ∨
    (∃ locator, ctx.roomsToMonoliths.get? room.name = some locator ∧ locator.monolithId ≠ m ∧
      ((locator.loadEpoch < loadEpoch ∧ ctx.Connected m ∧
          ctx.syncRoom room m loadEpoch = (ctx, .ok (some (.reject m)))) ∨
        (loadEpoch < locator.loadEpoch ∧ ctx.Connected locator.monolithId ∧
          ctx.syncRoom room m loadEpoch =
            (ctx.removeRoom room.name locator.monolithId).1.placeRoom room m loadEpoch
              (some (.replace locator.monolithId))) ∨
        ((locator.loadEpoch = loadEpoch ∨
            (locator.loadEpoch < loadEpoch ∧ ¬ ctx.Connected m) ∨
            (loadEpoch < locator.loadEpoch ∧ ¬ ctx.Connected locator.monolithId)) ∧
          ∃ e, ctx.syncRoom room m loadEpoch = (ctx, .error e)))) := by
  unfold syncRoom
  cases hl : ctx.roomsToMonoliths.get? room.name with
  | none => exact .inl ⟨.inl rfl, rfl⟩
  | some locator =>
    by_cases hm : locator.monolithId = m
    · refine .inl ⟨.inr ⟨locator.loadEpoch, ?_⟩, if_pos hm⟩
      subst hm
      rfl
    · refine .inr ⟨locator, rfl, hm, ?_⟩
      simp only [hm, if_false]
      rcases lt_trichotomy locator.loadEpoch loadEpoch with hlt | heq | hgt
      · rw [compare_lt_iff_lt.mpr hlt]
        cases hmono : ctx.monoliths.get? m with
        | none =>
          have hnot : ¬ ctx.Connected m := by
            rw [connected_iff, hmono]
            simp
          exact .inr (.inr ⟨.inr (.inl ⟨hlt, hnot⟩), _, rfl⟩)
        | some mono => exact .inl ⟨hlt, connected_iff.mpr ⟨mono, hmono⟩, rfl⟩
      · rw [compare_eq_iff_eq.mpr heq]
        exact .inr (.inr ⟨.inl heq, _, rfl⟩)
      · rw [compare_gt_iff_gt.mpr hgt]
        cases hold : ctx.monoliths.get? locator.monolithId with
        | none =>
          have hnot : ¬ ctx.Connected locator.monolithId := by
            rw [connected_iff, hold]
            simp
          exact .inr (.inr ⟨.inr (.inr ⟨hgt, hnot⟩), _, rfl⟩)
        | some old =>
          refine .inr (.inl ⟨hgt, connected_iff.mpr ⟨old, hold⟩, ?_⟩)
          have hok : ctx.removeRoom room.name locator.monolithId =
              ((ctx.removeRoom room.name locator.monolithId).1, .ok ()) := by
            simp only [removeRoom, hold]
          dsimp only
          rw [hok]

theorem syncRoom_other (hne : r ≠ room.name) : SameRoom r ctx (ctx.syncRoom room m loadEpoch).1 := by
  obtain ⟨-, h⟩ | ⟨locator, -, -, ⟨-, -, h⟩ | ⟨-, -, h⟩ | ⟨-, e, h⟩⟩ :=
    syncRoom_cases ctx m room loadEpoch
  · rw [h]
    exact placeRoom_other room loadEpoch none hne
  · rw [h]
    exact .refl r ctx
  · rw [h]
    exact (removeRoom_other hne locator.monolithId).trans (placeRoom_other room loadEpoch _ hne)
  · rw [h]
    exact .refl r ctx

variable (ctx m) in
theorem syncRoom_connected (m' : MonolithId) :
    (ctx.syncRoom room m loadEpoch).1.Connected m' ↔ ctx.Connected m' := by
  obtain ⟨-, hplace⟩ | ⟨locator, -, -, hcases⟩ := ctx.syncRoom_cases m room loadEpoch
  · rw [hplace, placeRoom_connected]
  · obtain ⟨-, -, h⟩ | ⟨-, -, h⟩ | ⟨-, _, h⟩ := hcases
    · rw [h]
    · rw [h, placeRoom_connected, removeRoom_connected]
    · rw [h]

end Sync

end OpenTogetherTube.Balancer.BalancerContext
