import OpenTogetherTube.Balancer.OneRoom

/-!
# A gossip message is authoritative for its sender

A gossip message lists the rooms that a monolith has loaded. Each of them is reported in turn, a room
that is refused is taken off the monolith, and the rooms that it had and did not list are taken off
it in the end.

`Authoritative` is what this is for: afterwards the monolith has the rooms that it listed, but for
those that another monolith has loaded before, and nothing else has moved. `gossip_authoritative`
says so of every gossip whose task runs without interruption, from every context whose mappings agree
with what the monoliths have.
-/

namespace OpenTogetherTube.Balancer

open OpenTogetherTube.Lib

namespace BalancerContext

/-! ## The purpose -/

/-- Who has the room is who it is mapped to. -/
def AgreesOn (ctx : BalancerContext) (r : RoomName) : Prop :=
  ∀ m, ctx.Holds m r ↔ ∃ epoch, ctx.roomsToMonoliths.get? r = some ⟨m, epoch⟩

/-- Both tables say the same. -/
def Agrees (ctx : BalancerContext) : Prop := ∀ r, ctx.AgreesOn r

/-- No other monolith has loaded the room before, or at the same time. -/
def Accepted (ctx : BalancerContext) (m : MonolithId) (g : GossipRoom) : Prop :=
  ∀ m' epoch, m' ≠ m → ctx.roomsToMonoliths.get? g.room.name = some ⟨m', epoch⟩ →
    ¬ epoch ≤ g.loadEpoch

/-- The room is listed, and the monolith gets it. -/
def Gets (ctx : BalancerContext) (m : MonolithId) (rooms : List GossipRoom) (r : RoomName) : Prop :=
  ∃ g ∈ rooms, g.room.name = r ∧ ctx.Accepted m g

/-- **The purpose**: the monolith has what it listed and nobody had before. -/
structure Authoritative (ctx ctx' : BalancerContext) (m : MonolithId) (rooms : List GossipRoom) :
    Prop where
  held : ∀ r, ctx'.Holds m r ↔ ctx.Gets m rooms r
  mapped : ∀ g ∈ rooms, ctx.Accepted m g →
    ctx'.roomsToMonoliths.get? g.room.name = some ⟨m, g.loadEpoch⟩ ∧
      ∀ m', m' ≠ m → ¬ ctx'.Holds m' g.room.name
  others : ∀ r m' epoch, m' ≠ m → ¬ ctx.Gets m rooms r →
    (ctx'.roomsToMonoliths.get? r = some ⟨m', epoch⟩ ↔
      ctx.roomsToMonoliths.get? r = some ⟨m', epoch⟩)
  connected : ∀ m', ctx'.Connected m' ↔ ctx.Connected m'
  agrees : ctx'.Agrees

/-! ## One report -/

/-- A report, with the room taken off the monolith again if it is refused. -/
def report (m : MonolithId) (ctx : BalancerContext) (g : GossipRoom) : BalancerContext :=
  let synced := ctx.syncRoom g.room m g.loadEpoch
  match synced.2 with
  | .error _ | .ok (some (.reject _)) => (synced.1.removeRoom g.room.name m).1
  | .ok none | .ok (some (.replace _)) => synced.1

/-- The room is on one monolith and nowhere else. -/
structure On (ctx : BalancerContext) (r : RoomName) (locator : RoomLocator) : Prop where
  mapped : ctx.roomsToMonoliths.get? r = some locator
  holds : ∀ m, ctx.Holds m r ↔ m = locator.monolithId

section Report

variable {ctx ctx' : BalancerContext} {m : MonolithId} {r : RoomName} {g : GossipRoom}
  {locator : RoomLocator}

theorem On.agreesOn (h : ctx.On r locator) : ctx.AgreesOn r := by
  intro m
  rw [h.holds, h.mapped]
  constructor
  · rintro rfl
    exact ⟨locator.loadEpoch, rfl⟩
  · rintro ⟨epoch, heq⟩
    rw [Option.some.inj heq]

theorem On.same (h : ctx.On r locator) (hsame : SameRoom r ctx ctx') : ctx'.On r locator :=
  ⟨hsame.locator.trans h.mapped, fun m => (hsame.holds m).trans (h.holds m)⟩

theorem AgreesOn.same (h : ctx.AgreesOn r) (hsame : SameRoom r ctx ctx') : ctx'.AgreesOn r := by
  intro m
  rw [hsame.holds, hsame.locator]
  exact h m

theorem accepted_congr (h : ctx'.roomsToMonoliths.get? g.room.name =
    ctx.roomsToMonoliths.get? g.room.name) : ctx'.Accepted m g ↔ ctx.Accepted m g := by
  unfold Accepted
  rw [h]

/-- A mapped room is on the monolith that it is mapped to. -/
theorem AgreesOn.on (h : ctx.AgreesOn r) (hl : ctx.roomsToMonoliths.get? r = some locator) :
    ctx.On r locator := by
  refine ⟨hl, fun m => ?_⟩
  rw [h m, hl]
  constructor
  · rintro ⟨epoch, heq⟩
    rw [Option.some.inj heq]
  · rintro rfl
    exact ⟨locator.loadEpoch, rfl⟩

/-- Whether a room that is mapped elsewhere is accepted is a matter of the two loads. -/
theorem accepted_iff (hl : ctx.roomsToMonoliths.get? g.room.name = some locator)
    (hne : locator.monolithId ≠ m) : ctx.Accepted m g ↔ g.loadEpoch < locator.loadEpoch := by
  rw [← not_le]
  constructor
  · exact fun haccepted => haccepted locator.monolithId locator.loadEpoch hne hl
  · intro hlater m' epoch _ hl'
    rw [hl, Option.some.injEq] at hl'
    rw [hl'] at hlater
    exact hlater

/-- Taking a room off a monolith that does not have it changes nothing. -/
theorem On.removeRoom (h : ctx.On r locator) (hne : locator.monolithId ≠ m) :
    SameRoom r ctx (ctx.removeRoom r m).1 := by
  refine ⟨?_, fun m' => ?_, removeRoom_connected ctx r m⟩
  · rw [h.mapped, removeRoom_locator]
    exact ⟨h.mapped, fun hand => hne hand.1⟩
  · rw [removeRoom_holds, and_iff_right_iff_imp]
    rintro hholds rfl
    exact hne ((h.holds m').mp hholds).symm

/-- A room that is nowhere else is placed. -/
theorem placeRoom_on (hm : ctx.Connected m) (hnone : ∀ m', m' ≠ m → ¬ ctx.Holds m' g.room.name)
    (conflict : Option ConflictAction) :
    (ctx.placeRoom g.room m g.loadEpoch conflict).1.On g.room.name ⟨m, g.loadEpoch⟩ := by
  refine ⟨by rw [placeRoom_locator, if_pos rfl], fun m' => ?_⟩
  rw [placeRoom_holds]
  constructor
  · rintro (⟨heq, -, -⟩ | hholds)
    · exact heq
    · by_contra hne
      exact hnone m' hne hholds
  · rintro rfl
    exact .inl ⟨rfl, rfl, hm⟩

theorem placeRoom_ok (hm : ctx.Connected m) (conflict : Option ConflictAction) :
    (ctx.placeRoom g.room m g.loadEpoch conflict).2 = .ok conflict := by
  obtain ⟨-, hok⟩ | ⟨hnot, -⟩ := placeRoom_result ctx m g.room g.loadEpoch conflict
  · exact hok
  · exact absurd hm hnot

theorem report_other (hne : r ≠ g.room.name) : SameRoom r ctx (report m ctx g) := by
  have hsync : SameRoom r ctx (ctx.syncRoom g.room m g.loadEpoch).1 :=
    syncRoom_other g.room g.loadEpoch hne
  unfold report
  dsimp only
  split <;> first
    | exact hsync.trans (removeRoom_other hne m)
    | exact hsync

theorem report_connected (m' : MonolithId) :
    (report m ctx g).Connected m' ↔ ctx.Connected m' := by
  have hsync := syncRoom_connected ctx m g.room g.loadEpoch m'
  unfold report
  dsimp only
  split
  · exact (removeRoom_connected _ _ _ m').trans hsync
  · exact (removeRoom_connected _ _ _ m').trans hsync
  · exact hsync
  · exact hsync

/-- **What a report does**: the monolith gets the room, or nothing changes. -/
theorem report_here (h : ctx.AgreesOn g.room.name) (hm : ctx.Connected m) :
    (ctx.Accepted m g → (report m ctx g).On g.room.name ⟨m, g.loadEpoch⟩) ∧
      (¬ ctx.Accepted m g → SameRoom g.room.name ctx (report m ctx g)) := by
  obtain ⟨hmapped, hsync⟩ | ⟨locator, hl, hne, hcases⟩ :=
    syncRoom_cases ctx m g.room g.loadEpoch
  · have hnone : ∀ m', m' ≠ m → ∀ epoch,
        ctx.roomsToMonoliths.get? g.room.name ≠ some ⟨m', epoch⟩ := by
      intro m' hne epoch hl
      obtain hnone | ⟨epoch', hsome⟩ := hmapped
      · rw [hnone] at hl
        cases hl
      · rw [hsome] at hl
        cases hl
        exact hne rfl
    have hreport : report m ctx g = (ctx.placeRoom g.room m g.loadEpoch none).1 := by
      simp only [report, hsync, placeRoom_ok hm]
    refine ⟨fun _ => ?_, fun hrefused => absurd (fun m' epoch hne hl => ?_) hrefused⟩
    · rw [hreport]
      refine placeRoom_on hm (fun m' hne hholds => ?_) none
      obtain ⟨epoch, hl⟩ := (h m').mp hholds
      exact hnone m' hne epoch hl
    · exact absurd hl (hnone m' hne epoch)
  · have hon := h.on hl
    rw [accepted_iff hl hne, not_lt]
    obtain ⟨hlt, -, hsync⟩ | ⟨hgt, -, hsync⟩ | ⟨hfails, e, hsync⟩ := hcases
    · -- an older load is known
      have hreport : report m ctx g = (ctx.removeRoom g.room.name m).1 := by
        simp only [report, hsync]
      rw [hreport]
      exact ⟨fun hgt => absurd hgt (lt_asymm hlt), fun _ => hon.removeRoom hne⟩
    · -- the load that is known is newer, and is taken off the monolith that has it
      have hconnected : (ctx.removeRoom g.room.name locator.monolithId).1.Connected m :=
        (removeRoom_connected _ _ _ m).mpr hm
      have hreport : report m ctx g = ((ctx.removeRoom g.room.name locator.monolithId).1.placeRoom
          g.room m g.loadEpoch (some (.replace locator.monolithId))).1 := by
        simp only [report, hsync, placeRoom_ok hconnected]
      rw [hreport]
      refine ⟨fun _ => placeRoom_on hconnected (fun m' _ hholds => ?_) _,
        fun hle => absurd hgt (not_lt.mpr hle)⟩
      rw [removeRoom_holds] at hholds
      exact hholds.1 ((hon.holds m').mp hholds.2)
    · have hreport : report m ctx g = (ctx.removeRoom g.room.name m).1 := by
        simp only [report, hsync]
      rw [hreport]
      refine ⟨fun hgt => ?_, fun _ => hon.removeRoom hne⟩
      -- the monoliths are both connected
      have hold : ctx.Connected locator.monolithId := ((hon.holds _).mpr rfl).connected
      obtain heq | ⟨hlt, -⟩ | ⟨-, hnot⟩ := hfails
      · exact absurd heq (ne_of_gt hgt)
      · exact absurd hlt (lt_asymm hgt)
      · exact absurd hold hnot

end Report

/-! ## All of them -/

section Reports

variable {ctx : BalancerContext} {m : MonolithId} {rooms : List GossipRoom} {r : RoomName}

/-- A name is only listed with one load. -/
def OneLoad (rooms : List GossipRoom) : Prop :=
  ∀ g ∈ rooms, ∀ g' ∈ rooms, g.room.name = g'.room.name → g.loadEpoch = g'.loadEpoch

theorem OneLoad.tail {g : GossipRoom} (h : OneLoad (g :: rooms)) : OneLoad rooms :=
  fun g hg g' hg' => h g (List.mem_cons_of_mem _ hg) g' (List.mem_cons_of_mem _ hg')

/-- The same room, listed twice, is accepted twice. -/
theorem accepted_of_same {g g' : GossipRoom} (hname : g'.room.name = g.room.name)
    (hepoch : g'.loadEpoch = g.loadEpoch) : ctx.Accepted m g' ↔ ctx.Accepted m g := by
  unfold Accepted
  rw [hname, hepoch]

theorem foldl_report_connected (rooms : List GossipRoom) (m' : MonolithId) :
    (rooms.foldl (report m) ctx).Connected m' ↔ ctx.Connected m' := by
  induction rooms generalizing ctx with
  | nil => rfl
  | cons g rooms ih => exact ih.trans (report_connected m')

/-- **What the reports do to a room**: it is on the monolith if one of them was accepted, and where it
was otherwise. -/
theorem foldl_report (h : ctx.AgreesOn r) (hm : ctx.Connected m) (hload : OneLoad rooms) :
    (∀ g ∈ rooms, g.room.name = r → ctx.Accepted m g →
      (rooms.foldl (report m) ctx).On r ⟨m, g.loadEpoch⟩) ∧
    (¬ ctx.Gets m rooms r → SameRoom r ctx (rooms.foldl (report m) ctx)) := by
  induction rooms generalizing ctx with
  | nil => exact ⟨fun g hg => absurd hg List.not_mem_nil, fun _ => .refl r ctx⟩
  | cons g rooms ih =>
    rw [List.foldl_cons]
    have hm' : (report m ctx g).Connected m := (report_connected m).mpr hm
    by_cases hname : g.room.name = r
    · subst hname
      obtain ⟨hplaced, hrefused⟩ := report_here h hm
      by_cases haccepted : ctx.Accepted m g
      · -- it is on the monolith now, and stays there
        have hon := hplaced haccepted
        obtain ⟨hagain, hkept⟩ := ih hon.agreesOn hm' hload.tail
        have hafter : (rooms.foldl (report m) (report m ctx g)).On g.room.name
            ⟨m, g.loadEpoch⟩ := by
          by_cases hgets : (report m ctx g).Gets m rooms g.room.name
          · obtain ⟨g', hg', hname, haccepted'⟩ := hgets
            have hepoch := hload g' (List.mem_cons_of_mem _ hg') g List.mem_cons_self hname
            rw [← hepoch]
            exact hagain g' hg' hname haccepted'
          · exact hon.same (hkept hgets)
        refine ⟨fun g' hg' hname _ => ?_, fun hnot => absurd ?_ hnot⟩
        · rw [hload g' hg' g List.mem_cons_self hname]
          exact hafter
        · exact ⟨g, List.mem_cons_self, rfl, haccepted⟩
      · -- the others that list it are refused as well
        have hsame := hrefused haccepted
        obtain ⟨-, hkept⟩ := ih (h.same hsame) hm' hload.tail
        have hall : ∀ g' ∈ g :: rooms, g'.room.name = g.room.name → ¬ ctx.Accepted m g' := by
          intro g' hg' hname
          have hepoch := hload g' hg' g List.mem_cons_self hname
          rwa [accepted_of_same hname hepoch]
        refine ⟨fun g' hg' hname hyes => absurd hyes (hall g' hg' hname), fun _ => ?_⟩
        refine hsame.trans (hkept ?_)
        rintro ⟨g', hg', hname, haccepted'⟩
        refine hall g' (List.mem_cons_of_mem _ hg') hname ((accepted_congr ?_).mp haccepted')
        rw [hname, hsame.locator]
    · have hsame : SameRoom r ctx (report m ctx g) := report_other (Ne.symm hname)
      obtain ⟨hplaced, hkept⟩ := ih (h.same hsame) hm' hload.tail
      have hcongr : ∀ g', g'.room.name = r →
          ((report m ctx g).Accepted m g' ↔ ctx.Accepted m g') := by
        intro g' hname
        apply accepted_congr
        rw [hname, hsame.locator]
      constructor
      · intro g' hg' hname' haccepted
        rcases List.mem_cons.mp hg' with rfl | hg'
        · exact absurd hname' hname
        · exact hplaced g' hg' hname' ((hcongr g' hname').mpr haccepted)
      · intro hnot
        refine hsame.trans (hkept ?_)
        rintro ⟨g', hg', hname', haccepted⟩
        exact hnot ⟨g', List.mem_cons_of_mem _ hg', hname', (hcongr g' hname').mp haccepted⟩

end Reports

/-! ## What was not listed -/

section Removal

variable {ctx : BalancerContext} {m : MonolithId} {toRemove : List RoomName} {r : RoomName}

/-- The rooms are taken off the monolith. -/
def removeRooms (m : MonolithId) (ctx : BalancerContext) (toRemove : List RoomName) :
    BalancerContext :=
  toRemove.foldl (fun ctx room => (ctx.removeRoom room m).1) ctx

theorem removeRooms_connected (toRemove : List RoomName) (m' : MonolithId) :
    (removeRooms m ctx toRemove).Connected m' ↔ ctx.Connected m' := by
  induction toRemove generalizing ctx with
  | nil => rfl
  | cons room toRemove ih => exact ih.trans (removeRoom_connected ctx room m m')

theorem removeRooms_other (h : r ∉ toRemove) : SameRoom r ctx (removeRooms m ctx toRemove) := by
  induction toRemove generalizing ctx with
  | nil => exact .refl r ctx
  | cons room toRemove ih =>
    rw [List.mem_cons, not_or] at h
    obtain ⟨hne, hnot⟩ := h
    exact (removeRoom_other hne m).trans (ih hnot)

/-- The room is mapped nowhere, and nobody has it. -/
structure Nowhere (ctx : BalancerContext) (r : RoomName) : Prop where
  unmapped : ctx.roomsToMonoliths.get? r = none
  unheld : ∀ m, ¬ ctx.Holds m r

theorem Nowhere.removeRoom (h : ctx.Nowhere r) (room : RoomName) :
    (ctx.removeRoom room m).1.Nowhere r := by
  by_cases hname : r = room
  · subst hname
    refine ⟨?_, fun m' hholds => h.unheld m' ((removeRoom_holds ctx r m m').mp hholds).2⟩
    rw [Option.eq_none_iff_forall_ne_some]
    intro locator hl
    have hbefore := ((removeRoom_locator ctx r m).mp hl).1
    rw [h.unmapped] at hbefore
    cases hbefore
  · have hsame : SameRoom r ctx (ctx.removeRoom room m).1 := removeRoom_other hname m
    exact ⟨hsame.locator.trans h.unmapped, fun m' hholds =>
      h.unheld m' ((hsame.holds m').mp hholds)⟩

theorem Nowhere.removeRooms (h : ctx.Nowhere r) (toRemove : List RoomName) :
    (BalancerContext.removeRooms m ctx toRemove).Nowhere r := by
  induction toRemove generalizing ctx with
  | nil => exact h
  | cons room toRemove ih => exact ih (h.removeRoom room)

/-- A room that is on the monolith is gone. -/
theorem removeRoom_nowhere {epoch : LoadEpoch} (h : ctx.On r ⟨m, epoch⟩) :
    (ctx.removeRoom r m).1.Nowhere r := by
  have hconnected : ctx.Connected m := ((h.holds m).mpr rfl).connected
  constructor
  · rw [Option.eq_none_iff_forall_ne_some]
    intro locator hl
    obtain ⟨hbefore, hnot⟩ := (removeRoom_locator ctx r m).mp hl
    rw [h.mapped] at hbefore
    cases hbefore
    exact hnot ⟨rfl, hconnected⟩
  · intro m' hholds
    obtain ⟨hne, hbefore⟩ := (removeRoom_holds ctx r m m').mp hholds
    exact hne ((h.holds m').mp hbefore)

theorem removeRooms_nowhere {epoch : LoadEpoch} (h : ctx.On r ⟨m, epoch⟩) (hmem : r ∈ toRemove) :
    (removeRooms m ctx toRemove).Nowhere r := by
  induction toRemove generalizing ctx with
  | nil => cases hmem
  | cons room toRemove ih =>
    by_cases hname : r = room
    · subst hname
      exact (removeRoom_nowhere h).removeRooms toRemove
    · exact ih (h.same (removeRoom_other hname m)) ((List.mem_cons.mp hmem).resolve_left hname)

theorem Nowhere.agreesOn (h : ctx.Nowhere r) : ctx.AgreesOn r := by
  intro m
  rw [h.unmapped]
  refine iff_of_false (h.unheld m) ?_
  rintro ⟨epoch, heq⟩
  cases heq

end Removal

/-- **The reports and the removals together.** -/
theorem authoritative_of_agrees {ctx : BalancerContext} (h : ctx.Agrees) {m : MonolithId}
    (hm : ctx.Connected m) {rooms : List GossipRoom} (hload : OneLoad rooms)
    {toRemove : List RoomName}
    (hremove : ∀ r, r ∈ toRemove ↔ ctx.Holds m r ∧ ∀ g ∈ rooms, g.room.name ≠ r) :
    ctx.Authoritative (removeRooms m (rooms.foldl (report m) ctx) toRemove) m rooms := by
  have hgets : ∀ g ∈ rooms, ctx.Accepted m g →
      (removeRooms m (rooms.foldl (report m) ctx) toRemove).On g.room.name ⟨m, g.loadEpoch⟩ := by
    intro g hg haccepted
    have hlisted : g.room.name ∉ toRemove := fun hmem => ((hremove _).mp hmem).2 g hg rfl
    exact ((foldl_report (h _) hm hload).1 g hg rfl haccepted).same (removeRooms_other hlisted)
  -- a room that the monolith does not get is taken off it, or stays where it was
  have hlost : ∀ r, ¬ ctx.Gets m rooms r →
      (removeRooms m (rooms.foldl (report m) ctx) toRemove).Nowhere r ∧ ctx.Holds m r ∨
      SameRoom r ctx (removeRooms m (rooms.foldl (report m) ctx) toRemove) ∧ ¬ ctx.Holds m r := by
    intro r hnot
    have hsame := (foldl_report (h r) hm hload).2 hnot
    by_cases hholds : ctx.Holds m r
    · left
      obtain ⟨epoch, hl⟩ := (h r m).mp hholds
      refine ⟨removeRooms_nowhere (((h r).on hl).same hsame) ((hremove r).mpr ⟨hholds, ?_⟩), hholds⟩
      intro g hg hname
      refine hnot ⟨g, hg, hname, fun m' epoch' hne hl' => ?_⟩
      rw [hname, hl] at hl'
      cases hl'
      exact absurd rfl hne
    · right
      exact ⟨hsame.trans (removeRooms_other (fun hmem => hholds ((hremove r).mp hmem).1)), hholds⟩
  refine ⟨fun r => ?_, fun g hg haccepted => ?_, fun r m' epoch hne hnot => ?_, fun m' => ?_,
    fun r => ?_⟩
  · by_cases hget : ctx.Gets m rooms r
    · obtain ⟨g, hg, rfl, haccepted⟩ := hget
      exact iff_of_true (((hgets g hg haccepted).holds m).mpr rfl) ⟨g, hg, rfl, haccepted⟩
    · obtain ⟨hnowhere, -⟩ | ⟨hsame, hholds⟩ := hlost r hget
      · exact iff_of_false (hnowhere.unheld m) hget
      · exact iff_of_false (fun hafter => hholds ((hsame.holds m).mp hafter)) hget
  · have hon := hgets g hg haccepted
    exact ⟨hon.mapped, fun m' hne hholds => hne ((hon.holds m').mp hholds)⟩
  · obtain ⟨hnowhere, hholds⟩ | ⟨hsame, -⟩ := hlost r hnot
    · -- it was on the monolith, not elsewhere
      rw [hnowhere.unmapped]
      obtain ⟨epoch', hl⟩ := (h r m).mp hholds
      rw [hl]
      exact iff_of_false (by simp) (fun heq => hne (RoomLocator.mk.inj (Option.some.inj heq)).1.symm)
    · rw [hsame.locator]
  · rw [removeRooms_connected, foldl_report_connected]
  · by_cases hget : ctx.Gets m rooms r
    · obtain ⟨g, hg, rfl, haccepted⟩ := hget
      exact (hgets g hg haccepted).agreesOn
    · obtain ⟨hnowhere, -⟩ | ⟨hsame, -⟩ := hlost r hget
      · exact hnowhere.agreesOn
      · exact (h r).same hsame

end BalancerContext

open BalancerContext

/-! ## The task -/

section Task

variable {s s' : State} {m : MonolithId} {g : GossipRoom} {rooms : List GossipRoom}
  {toRemove : List RoomName} {result : TaskEnd}

/-- The rest of a gossip's task that is not interrupted. -/
theorem alone_gossipRemove (h : balancer.Alone (gossipNext m [] toRemove) s s' result) :
    result = .ok ∧ s'.ctx = removeRooms m s.ctx toRemove := by
  induction toRemove generalizing s with
  | nil =>
    obtain ⟨rfl, rfl⟩ := Program.alone_done h
    exact ⟨rfl, rfl⟩
  | cons room toRemove ih =>
    cases h with
    | @resumed task x _ s₁ _ pr _ hstep hrest =>
      cases x with
      | lock =>
        cases hstep
        exact ih hrest
      | _ => cases hstep

/-- One listed room: its report, told to the one that is to unload it, and taken back if need be. -/
theorem alone_gossipSync (h : balancer.Alone (gossipNext m (g :: rooms) toRemove) s s' result) :
    ∃ s₁, s₁.ctx = report m s.ctx g ∧ balancer.Alone (gossipNext m rooms toRemove) s₁ s' result := by
  have hdropped : ∀ {s₁ : State} {room},
      balancer.Alone (.waiting (.gossipDrop m room rooms toRemove)) s₁ s' result →
      ∃ s₂, s₂.ctx = (s₁.ctx.removeRoom room m).1 ∧
        balancer.Alone (gossipNext m rooms toRemove) s₂ s' result := by
    intro s₁ room hdrop
    cases hdrop with
    | @resumed _ x _ _ _ _ _ hstep hrest =>
      cases x with
      | lock =>
        cases hstep
        exact ⟨_, rfl, hrest⟩
      | _ => cases hstep
  cases h with
  | @resumed _ x _ s₁ _ pr _ hstep hrest =>
    cases x with
    | lock =>
      change gossipSync s m g rooms toRemove = some (s₁, pr) at hstep
      unfold gossipSync at hstep
      rcases hsync : s.ctx.syncRoom g.room m g.loadEpoch with ⟨ctx, e | _ | conflict⟩
      · rw [hsync] at hstep
        cases hstep
        obtain ⟨s₂, hctx, hrest⟩ := hdropped hrest
        refine ⟨s₂, ?_, hrest⟩
        rw [hctx]
        simp only [report, hsync, State.withCtx_ctx]
      · rw [hsync] at hstep
        cases hstep
        refine ⟨_, ?_, hrest⟩
        simp only [report, hsync, State.withCtx_ctx]
      · rw [hsync] at hstep
        cases hstep
        cases hrest with
        | @resumed _ x _ s₂ _ pr _ hstep hrest =>
          cases x with
          | sent r =>
            change gossipSend (s.withCtx ctx) m g.room.name conflict rooms toRemove r =
              some (s₂, pr) at hstep
            have hsent := unloadSend_ctx (s.withCtx ctx) g.room.name conflict r
            cases conflict with
            | reject handle =>
              have hrefused : pr = .waiting (.gossipDrop m g.room.name rooms toRemove) ∧
                  s₂.ctx = ctx := by
                cases r <;> cases hstep <;> exact ⟨rfl, rfl⟩
              obtain ⟨rfl, hctx₂⟩ := hrefused
              obtain ⟨s₃, hctx, hrest⟩ := hdropped hrest
              refine ⟨s₃, ?_, hrest⟩
              rw [hctx, hctx₂]
              simp only [report, hsync]
            | replace handle =>
              have hreplaced : pr = gossipNext m rooms toRemove ∧ s₂.ctx = ctx := by
                cases r <;> cases hstep <;> exact ⟨rfl, rfl⟩
              obtain ⟨rfl, hctx₂⟩ := hreplaced
              refine ⟨s₂, ?_, hrest⟩
              rw [hctx₂]
              simp only [report, hsync]
          | _ => cases hstep
    | _ => cases hstep

theorem alone_gossipRooms (h : balancer.Alone (gossipNext m rooms toRemove) s s' result) :
    result = .ok ∧ s'.ctx = removeRooms m (rooms.foldl (report m) s.ctx) toRemove := by
  induction rooms generalizing s with
  | nil => exact alone_gossipRemove h
  | cons g rooms ih =>
    obtain ⟨s₁, hctx, hrest⟩ := alone_gossipSync h
    obtain ⟨hok, hfinal⟩ := ih hrest
    rw [hctx] at hfinal
    exact ⟨hok, hfinal⟩

/-- **A gossip's task that is not interrupted** reports the rooms, and removes what was not listed. -/
theorem alone_gossip (hm : s.ctx.Connected m)
    (h : balancer.Alone (.waiting (Call.gossip m rooms).task) s s' result) :
    result = .ok ∧ ∃ toRemove,
      (∀ r, r ∈ toRemove ↔ s.ctx.Holds m r ∧ ∀ g ∈ rooms, g.room.name ≠ r) ∧
      s'.ctx = removeRooms m (rooms.foldl (report m) s.ctx) toRemove := by
  obtain ⟨mono, hmono⟩ := connected_iff.mp hm
  cases h with
  | @resumed _ x _ s₁ _ pr _ hstep hrest =>
    cases x with
    | lockListing toRemove =>
      change gossip s m rooms toRemove = some (s₁, pr) at hstep
      unfold gossip at hstep
      rw [hmono] at hstep
      dsimp only at hstep
      split at hstep
      · next hperm =>
        cases hstep
        obtain ⟨hok, hctx⟩ := alone_gossipRooms hrest
        refine ⟨hok, toRemove, fun r => ?_, hctx⟩
        rw [(List.isPerm_iff.mp hperm).mem_iff, unlisted, List.mem_filter, holds_iff hmono,
          ← OrderedMap.mem_keys_iff]
        simp
      · cases hstep
    | _ => cases hstep

end Task

/-! ## It runs to its end -/

section Ends

variable {m : MonolithId} {rooms : List GossipRoom} {toRemove : List RoomName}

/-- It does so whatever the channels do, and in particular if all of them take what is sent. -/
theorem gossipRemove_ends (s : State) :
    ∃ s' result, balancer.Alone (gossipNext m [] toRemove) s s' result := by
  induction toRemove generalizing s with
  | nil => exact ⟨s, TaskEnd.ok, .done _ s⟩
  | cons room toRemove ih =>
    obtain ⟨s', result, hrest⟩ := ih (s.withCtx (s.ctx.removeRoom room m).1)
    exact ⟨s', result, .resumed (x := Answer.lock) rfl hrest⟩

theorem gossipRooms_ends (s : State) :
    ∃ s' result, balancer.Alone (gossipNext m rooms toRemove) s s' result := by
  induction rooms generalizing s with
  | nil => exact gossipRemove_ends s
  | cons g rooms ih =>
    have hdrop : ∀ s₁ : State, ∃ s' result, balancer.Alone
        (.waiting (.gossipDrop m g.room.name rooms toRemove)) s₁ s' result := by
      intro s₁
      obtain ⟨s', result, hrest⟩ := ih (s₁.withCtx (s₁.ctx.removeRoom g.room.name m).1)
      exact ⟨s', result, .resumed (x := Answer.lock) rfl hrest⟩
    have hfirst : ∀ {out}, gossipSync s m g rooms toRemove = some out →
        (∃ s' result, balancer.Alone out.2 out.1 s' result) →
        ∃ s' result, balancer.Alone (gossipNext m (g :: rooms) toRemove) s s' result := by
      rintro ⟨s₁, pr⟩ hstep ⟨s', result, hrest⟩
      exact ⟨s', result, .resumed (x := Answer.lock) hstep hrest⟩
    rcases hsync : s.ctx.syncRoom g.room m g.loadEpoch with ⟨ctx, e | _ | conflict⟩
    · refine hfirst (by rw [gossipSync, hsync]) (hdrop _)
    · refine hfirst (by rw [gossipSync, hsync]) (ih _)
    · refine hfirst (by rw [gossipSync, hsync]) ?_
      cases conflict with
      | reject handle =>
        obtain ⟨s', result, hrest⟩ := hdrop ((s.withCtx ctx).post handle (.unload g.room.name))
        exact ⟨s', result, .resumed (x := Answer.sent .ok) rfl hrest⟩
      | replace handle =>
        obtain ⟨s', result, hrest⟩ := ih ((s.withCtx ctx).post handle (.unload g.room.name))
        exact ⟨s', result, .resumed (x := Answer.sent .ok) rfl hrest⟩

theorem gossip_ends (s : State) (m : MonolithId) (rooms : List GossipRoom) :
    ∃ s' result, balancer.Alone (.waiting (Call.gossip m rooms).task) s s' result := by
  cases hmono : s.ctx.monoliths.get? m with
  | none =>
    have hstep : gossip s m rooms [] = some (s, .done .panic) := by
      rw [gossip, hmono]
    exact ⟨s, TaskEnd.panic, .resumed (x := Answer.lockListing []) hstep (.done _ s)⟩
  | some mono =>
    obtain ⟨s', result, hrest⟩ : ∃ s' result,
        balancer.Alone (gossipNext m rooms (unlisted mono rooms)) s s' result := gossipRooms_ends s
    refine ⟨s', result, .resumed (x := Answer.lockListing (unlisted mono rooms)) ?_ hrest⟩
    show gossip s m rooms (unlisted mono rooms) = _
    rw [gossip, hmono]
    exact if_pos (List.isPerm_iff.mpr (List.Perm.refl _))

end Ends

theorem alone_gossip_authoritative {s s' : State} (h : s.ctx.Agrees) {m : MonolithId}
    (hm : s.ctx.Connected m) {rooms : List GossipRoom} (hload : OneLoad rooms) {result : TaskEnd}
    (hrun : balancer.Alone (.waiting (Call.gossip m rooms).task) s s' result) :
    result = .ok ∧ s.ctx.Authoritative s'.ctx m rooms := by
  obtain ⟨hok, toRemove, hremove, hctx⟩ := alone_gossip hm hrun
  rw [hctx]
  exact ⟨hok, authoritative_of_agrees h hm hload hremove⟩

/-- **Gossip is authoritative for its sender**, if nothing comes in between. -/
theorem gossip_authoritative {s : State} (h : s.ctx.Agrees) {m : MonolithId}
    (hm : s.ctx.Connected m) {rooms : List GossipRoom} (hload : OneLoad rooms) :
    (∃ s' result, balancer.Alone (.waiting (Call.gossip m rooms).task) s s' result) ∧
    ∀ s' result, balancer.Alone (.waiting (Call.gossip m rooms).task) s s' result →
      result = .ok ∧ s.ctx.Authoritative s'.ctx m rooms :=
  ⟨gossip_ends s m rooms, fun _ _ hrun => alone_gossip_authoritative h hm hload hrun⟩

/-- In a pool of tasks, that is a gossip that comes in and is answered before anything else happens. -/
theorem gossip_run_authoritative {p : Pool State Task TaskEnd} (h : p.shared.ctx.Agrees)
    {m : MonolithId} (hm : p.shared.ctx.Connected m) {rooms : List GossipRoom}
    (hload : OneLoad rooms) :
    ∃ (answers : List Answer) (p' : Pool State Task TaskEnd), balancer.machine.run p
        (.call (.gossip m rooms) :: answers.map (PoolEvent.answer p.tasks.length)) = some p' ∧
      p.shared.ctx.Authoritative p'.shared.ctx m rooms := by
  obtain ⟨s', result, halone⟩ := gossip_ends p.shared m rooms
  have hlast : (p.tasks ++ [.waiting (Call.gossip m rooms).task])[p.tasks.length]? =
      some (.waiting (Call.gossip m rooms).task) := List.getElem?_concat_length
  obtain ⟨answers, hrun⟩ := halone.run hlast
  have hcalled : balancer.machine.step p (.call (.gossip m rooms)) =
      some ⟨p.shared, p.tasks ++ [.waiting (Call.gossip m rooms).task]⟩ := rfl
  have hrun' := Machine.run_cons_eq_some.mpr ⟨_, hcalled, hrun⟩
  exact ⟨answers, _, hrun', (alone_gossip_authoritative h hm hload halone).2⟩

/-- Agreement can be checked on the entries of the two tables. -/
theorem BalancerContext.agrees_of_entries {ctx : BalancerContext}
    (hmapped : ∀ e ∈ ctx.roomsToMonoliths.entries, ∃ mono ∈ ctx.monoliths.get? e.2.monolithId,
      mono.rooms.contains e.1 = true)
    (hheld : ∀ e ∈ ctx.monoliths.entries, ∀ r ∈ e.2.rooms.keys,
      ∃ locator ∈ ctx.roomsToMonoliths.get? r, locator.monolithId = e.1) : ctx.Agrees := by
  intro r m
  constructor
  · rintro ⟨mono, hmono, hcontains⟩
    obtain ⟨locator, hl, rfl⟩ := hheld _ (OrderedMap.get?_eq_some_iff.mp hmono) r
      (OrderedMap.mem_keys_iff.mpr hcontains)
    exact ⟨locator.loadEpoch, hl⟩
  · rintro ⟨epoch, hl⟩
    exact hmapped _ (OrderedMap.get?_eq_some_iff.mp hl)

/-- Monolith 1 has the lobby and the den, and monolith 2 has the attic. -/
def threeRooms : State where
  ctx :=
    let ctx := ((BalancerContext.new "local").addMonolith (.new ⟨1, "local"⟩)).addMonolith
      (.new ⟨2, "local"⟩)
    (((ctx.addRoom ⟨"lobby"⟩ ⟨1, 7⟩).1.addRoom ⟨"den"⟩ ⟨1, 2⟩).1.addRoom ⟨"attic"⟩ ⟨2, 1⟩).1
  outbox := []

/-- Monolith 2 has loaded the lobby before monolith 1 and the den after it, and says so twice. -/
def lobbyAndDen : List GossipRoom :=
  [⟨⟨⟨"lobby"⟩, .Public, ""⟩, 3⟩, ⟨⟨⟨"den"⟩, .Public, ""⟩, 5⟩, ⟨⟨⟨"lobby"⟩, .Public, ""⟩, 3⟩]

theorem gossip_authoritative_lobbyAndDen :
    (∃ s' result, balancer.Alone (.waiting (Call.gossip 2 lobbyAndDen).task) threeRooms s' result) ∧
    ∀ s' result, balancer.Alone (.waiting (Call.gossip 2 lobbyAndDen).task) threeRooms s' result →
      result = .ok ∧ threeRooms.ctx.Authoritative s'.ctx 2 lobbyAndDen :=
  gossip_authoritative (agrees_of_entries (by decide +kernel) (by decide +kernel))
    (by unfold Connected; decide +kernel) (by unfold OneLoad; decide +kernel)

end OpenTogetherTube.Balancer
