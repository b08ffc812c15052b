import OpenTogetherTube.Common.AnyGrants

/-!
# The closed form of grants

The constructor sets one role's mask after the other and hands it up to the roles above each time. No
order shows in what it makes: a role gets what it and the roles below it were given, less what the
receiver may not have (`Spans`). So a map, a list of pairs and an object of the same masks make the
same grants, and the masks that grants were stored with make them again, though those of
administrators and the owner are not stored.
-/

namespace OpenTogetherTube.Common

open OpenTogetherTube.Lib

/-- The permissions whose least role is not above this one. -/
def permitted (role : Role) : GrantMask :=
  ((permissions.filter (fun p => p.minRole.toInt ≤ role.toInt)).map (·.mask)).foldl (· ||| ·) 0

/-- The union, over the roles up to this one, of what each is given of what it may have. -/
def unionUpTo (m : Role → GrantMask) (role : Role) : GrantMask :=
  ((Role.ladder.filter (fun lower => lower.toInt ≤ role.toInt)).map
    (fun lower => m lower &&& permitted lower)).foldl (· ||| ·) 0

theorem permitted_eq {role : Role} (hrole : role ∈ Role.ladder) :
    permitted role = getValidationMask role := by
  cases role with
  | owner => exact absurd hrole (by decide)
  | unregisteredUser => decide +kernel
  | registeredUser => decide +kernel
  | trustedUser => decide +kernel
  | moderator => decide +kernel
  | administrator => decide +kernel

theorem getLsbD_permitted (role : Role) (b : Nat) :
    (permitted role).getLsbD b = true ↔
      ∃ p ∈ permissions, p.minRole.toInt ≤ role.toInt ∧ p.mask.getLsbD b = true := by
  rw [permitted, Grants.getLsbD_foldl_or]
  constructor
  · rintro (hzero | ⟨mask, hmask, hb⟩)
    · simp at hzero
    · obtain ⟨p, hp, rfl⟩ := List.mem_map.mp hmask
      obtain ⟨hp, hle⟩ := List.mem_filter.mp hp
      exact ⟨p, hp, of_decide_eq_true hle, hb⟩
  · rintro ⟨p, hp, hle, hb⟩
    exact .inr ⟨_, List.mem_map_of_mem (List.mem_filter.mpr ⟨hp, decide_eq_true hle⟩), hb⟩

theorem getLsbD_unionUpTo (m : Role → GrantMask) (role : Role) (b : Nat) :
    (unionUpTo m role).getLsbD b = true ↔
      ∃ lower ∈ Role.ladder, lower.toInt ≤ role.toInt ∧
        (m lower &&& getValidationMask lower).getLsbD b = true := by
  rw [unionUpTo, Grants.getLsbD_foldl_or]
  constructor
  · rintro (hzero | ⟨mask, hmask, hb⟩)
    · simp at hzero
    · obtain ⟨lower, hlower, rfl⟩ := List.mem_map.mp hmask
      obtain ⟨hlower, hle⟩ := List.mem_filter.mp hlower
      rw [permitted_eq hlower] at hb
      exact ⟨lower, hlower, of_decide_eq_true hle, hb⟩
  · rintro ⟨lower, hlower, hle, hb⟩
    rw [← permitted_eq hlower] at hb
    refine .inr ⟨_, List.mem_map_of_mem (List.mem_filter.mpr ⟨hlower, ?_⟩), hb⟩
    exact decide_eq_true hle

namespace Grants

/-! ## The invariant of the constructor's loop -/

/-- Every role but the owner has what it and the roles below it were given. -/
def Spans (h : Grants) (m : Role → GrantMask) : Prop :=
  ∀ role ∈ Role.ladder, ∀ b, h.Has role b ↔ (unionUpTo m role).getLsbD b = true

theorem spans_cleared : cleared.Spans (fun _ => 0) := by
  intro role _ b
  rw [getLsbD_unionUpTo]
  simp [Has, getMask, cleared]

section Spans

variable {h : Grants} {m : Role → GrantMask}

/-- Handing masks up again changes nothing. -/
theorem Spans.processInheiritance (hspans : h.Spans m) : h.processInheiritance.Spans m := by
  intro role hrole b
  rw [Has, getMask_processInheiritance, if_neg (mem_ladder_iff.mp hrole), Option.getD_some,
    getLsbD_inherited, getLsbD_unionUpTo]
  constructor
  · rintro ⟨lower, hlower, hle, hb⟩
    obtain ⟨lowest, hlowest, hle', hb⟩ :=
      (getLsbD_unionUpTo m lower b).mp ((hspans lower hlower b).mp hb)
    exact ⟨lowest, hlowest, hle'.trans hle, hb⟩
  · rintro ⟨lower, hlower, hle, hb⟩
    refine ⟨lower, hlower, hle, (hspans lower hlower b).mpr ?_⟩
    exact (getLsbD_unionUpTo m lower b).mpr ⟨lower, hlower, Int.le_refl _, hb⟩

/-- **One role's mask**, of a role that was given nothing yet. What it has inherited is written over
and handed up again. -/
theorem Spans.setRoleGrants (hspans : h.Spans m) {k : Role} (hk : m k = 0) (mask : GrantMask) :
    (h.setRoleGrants k mask).Spans (Function.update m k mask) := by
  intro role hrole b
  rw [has_setRoleGrants h k mask (mem_ladder_iff.mp hrole), getLsbD_unionUpTo]
  constructor
  · rintro ⟨lower, hlower, hle, hb⟩
    by_cases hlk : lower = k
    · rw [if_pos hlk] at hb
      refine ⟨lower, hlower, hle, ?_⟩
      rw [hlk, Function.update_self]
      exact hb
    · rw [if_neg hlk, hspans lower hlower, getLsbD_unionUpTo] at hb
      obtain ⟨lowest, hlowest, hle', hb⟩ := hb
      have hne : lowest ≠ k := by
        rintro rfl
        rw [hk] at hb
        simp at hb
      refine ⟨lowest, hlowest, hle'.trans hle, ?_⟩
      rw [Function.update_of_ne hne]
      exact hb
  · rintro ⟨lower, hlower, hle, hb⟩
    refine ⟨lower, hlower, hle, ?_⟩
    by_cases hlk : lower = k
    · rw [if_pos hlk]
      rw [hlk, Function.update_self] at hb
      exact hb
    · rw [if_neg hlk, hspans lower hlower, getLsbD_unionUpTo]
      rw [Function.update_of_ne hlk] at hb
      exact ⟨lower, hlower, Int.le_refl _, hb⟩

end Spans

end Grants

namespace AnyGrants

/-! ## The same of the class -/

/-- At the roles of the enumeration. -/
def Spans (g : AnyGrants) (m : Role → GrantMask) : Prop :=
  ∃ h : Grants, g.Agrees h ∧ h.Spans m

/-- The masks with one more, at whatever role. -/
def giving (m : Role → GrantMask) (q : ℚ) (mask : GrantMask) : Role → GrantMask :=
  fun role => if q = role.toInt then mask else m role

theorem giving_toInt (m : Role → GrantMask) (k : Role) (mask : GrantMask) :
    giving m k.toInt mask = Function.update m k mask := by
  funext role
  have hrole : ((k.toInt : ℚ) = role.toInt) ↔ k = role := toInt_injective.eq_iff
  by_cases hk : role = k
  · rw [hk, Function.update_self, giving, if_pos rfl]
  · rw [Function.update_of_ne hk, giving, if_neg (fun heq => hk (hrole.mp heq).symm)]

section Spans

variable {g : AnyGrants} {m : Role → GrantMask}

theorem spans_cleared : cleared.Spans (fun _ => 0) :=
  ⟨Grants.cleared, fun _ => rfl, Grants.spans_cleared⟩

/-- **One mask more.** -/
theorem Spans.set (hg : g.Spans m) {q : ℚ} (hq : ∀ role : Role, q = role.toInt → m role = 0)
    (mask : GrantMask) : (g.set q mask).Spans (giving m q mask) := by
  obtain ⟨h, hagrees, hspans⟩ := hg
  by_cases hrole : ∃ role : Role, (role.toInt : ℚ) = q
  · obtain ⟨role, rfl⟩ := hrole
    rw [giving_toInt]
    exact ⟨_, hagrees.set role mask, hspans.setRoleGrants (hq role rfl) mask⟩
  · have hother : ∀ role : Role, (role.toInt : ℚ) ≠ q := fun role heq => hrole ⟨role, heq⟩
    have hsame : giving m q mask = m := by
      funext role
      rw [giving, if_neg (hother role).symm]
    rw [hsame]
    exact ⟨_, hagrees.set_other hother mask, hspans.processInheiritance⟩

/-- A mask of nothing may be left out. -/
theorem Spans.skip (hg : g.Spans m) {q : ℚ} (hq : ∀ role : Role, q = role.toInt → m role = 0) :
    g.Spans (giving m q 0) := by
  have hsame : giving m q 0 = m := by
    funext role
    unfold giving
    split
    · next heq => exact (hq role heq).symm
    · rfl
  rw [hsame]
  exact hg

section Loop

variable {α : Type} (role : α → ℚ) (mask : α → GrantMask)

/-- What a list of masks gives to each role. -/
def givenBy (l : List α) : Role → GrantMask :=
  fun r => ((l.find? (fun a => role a = r.toInt)).map mask).getD 0

/-- Every mask is set, unless it is of nothing. -/
def Sets (f : AnyGrants → α → Option AnyGrants) (a : α) : Prop :=
  ∀ g, f g a = some (g.set (role a) (mask a)) ∨ mask a = 0 ∧ f g a = some g

variable {role mask}

theorem givenBy_cons (a : α) (l : List α) :
    givenBy role mask (a :: l) = giving (givenBy role mask l) (role a) (mask a) := by
  funext r
  unfold givenBy giving
  by_cases hrole : role a = r.toInt
  · simp [hrole]
  · simp [hrole]

/-- **The constructor's loop**, over masks of different roles in any order. -/
theorem Spans.foldlM {f : AnyGrants → α → Option AnyGrants} {l : List α}
    (hf : ∀ a ∈ l, Sets role mask f a) (hdistinct : (l.map role).Nodup) (hg : g.Spans m)
    (hnew : ∀ a ∈ l, ∀ r : Role, role a = r.toInt → m r = 0) :
    ∃ g', l.foldlM f g = some g' ∧ g'.Spans (fun r => m r ||| givenBy role mask l r) := by
  induction l generalizing g m with
  | nil =>
    refine ⟨g, rfl, ?_⟩
    have hsame : (fun r => m r ||| givenBy role mask [] r) = m := by
      funext r
      exact BitVec.or_zero
    rw [hsame]
    exact hg
  | cons a l ih =>
    rw [List.map_cons, List.nodup_cons] at hdistinct
    have hother : ∀ a' ∈ l, role a' ≠ role a :=
      fun a' ha' heq => hdistinct.1 (heq ▸ List.mem_map_of_mem ha')
    have hfirst : ∀ r : Role, role a = r.toInt → m r = 0 := hnew a List.mem_cons_self
    -- the first mask, set or passed over
    have hstep : ∃ g₁, f g a = some g₁ ∧ g₁.Spans (giving m (role a) (mask a)) := by
      rcases hf a List.mem_cons_self g with hset | ⟨hzero, hskip⟩
      · exact ⟨_, hset, hg.set hfirst (mask a)⟩
      · rw [hzero]
        exact ⟨_, hskip, hg.skip hfirst⟩
    obtain ⟨g₁, hrun, hg₁⟩ := hstep
    have hnew₁ : ∀ a' ∈ l, ∀ r : Role, role a' = r.toInt →
        giving m (role a) (mask a) r = 0 := by
      intro a' ha' r hr
      rw [giving, if_neg (fun heq => hother a' ha' (hr.trans heq.symm))]
      exact hnew a' (List.mem_cons_of_mem _ ha') r hr
    obtain ⟨g', hrest, hg'⟩ :=
      ih (fun a' ha' => hf a' (List.mem_cons_of_mem _ ha')) hdistinct.2 hg₁ hnew₁
    refine ⟨g', ?_, ?_⟩
    · rw [List.foldlM_cons, hrun]
      exact hrest
    · have hsame : (fun r => giving m (role a) (mask a) r ||| givenBy role mask l r) =
          (fun r => m r ||| givenBy role mask (a :: l) r) := by
        funext r
        rw [givenBy_cons]
        unfold giving
        by_cases hr : role a = r.toInt
        · have hnone : givenBy role mask l r = 0 := by
            have hfind : l.find? (fun a' => role a' = r.toInt) = none := by
              rw [List.find?_eq_none]
              intro a' ha' heq
              exact hother a' ha' ((of_decide_eq_true heq).trans hr.symm)
            rw [givenBy, hfind]
            rfl
          rw [if_pos hr, if_pos hr, hnone, hfirst r hr]
          exact BitVec.or_comm _ _
        · rw [if_neg hr, if_neg hr]
      rw [← hsame]
      exact hg'

end Loop

/-! ## The whole constructor -/

/-- Masks that agree up to a role have the same union there. -/
theorem unionUpTo_congr {m m' : Role → GrantMask} {role : Role} (hrole : Grants.Chosen role)
    (h : ∀ lower, Grants.Chosen lower → m lower = m' lower) :
    unionUpTo m role = unionUpTo m' role := by
  have hmasks : (Role.ladder.filter (fun lower => lower.toInt ≤ role.toInt)).map
        (fun lower => m lower &&& permitted lower) =
      (Role.ladder.filter (fun lower => lower.toInt ≤ role.toInt)).map
        (fun lower => m' lower &&& permitted lower) := by
    apply List.map_congr_left
    intro lower hlower
    obtain ⟨hlower, hle⟩ := List.mem_filter.mp hlower
    rw [h lower (hrole.below hlower (of_decide_eq_true hle))]
  rw [unionUpTo, unionUpTo, hmasks]

theorem toInt_ne {role role' : Role} (h : role ≠ role') : (role.toInt : ℚ) ≠ role'.toInt :=
  fun heq => h (toInt_injective heq)

/-- Administrators and the owner get everything, which no role below them sees. -/
theorem ofInput_of_spans {numberToString : Number → String} {input : Input}
    (hall : setAllGrants numberToString input = some g) (hg : g.Spans m)
    (hadministrator : m .administrator = 0) (howner : m .owner = 0) :
    ∃ g', ofInput numberToString input = some g' ∧
      ∀ role, Grants.Chosen role → g'.getMask role.toInt = some (unionUpTo m role) := by
  have hnumber : ∀ {k role : Role}, (k.toInt : ℚ) = role.toInt → role = k :=
    fun heq => (toInt_injective heq).symm
  have hfirst := hg.set (q := Role.administrator.toInt)
    (fun role heq => hnumber heq ▸ hadministrator) fullMask
  have hsecond := hfirst.set (q := Role.owner.toInt) (fun role heq => by
    rw [hnumber heq, giving, if_neg (toInt_ne (by decide))]
    exact howner) fullMask
  have hmade : ofInput numberToString input =
      some ((g.set Role.administrator.toInt fullMask).set Role.owner.toInt fullMask) := by
    unfold ofInput
    rw [hall]
    show (g.setRoleGrants (.number (.finite Role.administrator.toInt)) (.names ["*"])).bind
      (fun g => g.setRoleGrants (.number (.finite Role.owner.toInt)) (.names ["*"])) = _
    rw [setRoleGrants_toInt, Option.bind_some, setRoleGrants_toInt]
    rfl
  refine ⟨_, hmade, fun role hrole => ?_⟩
  obtain ⟨h, hagrees, hnormal⟩ := regular_ofInput hmade
  obtain ⟨h', hagrees', hspans⟩ := hsecond
  obtain ⟨mask, hmask⟩ := Option.isSome_iff_exists.mp (hnormal.total role)
  have heq : mask = unionUpTo m role := by
    have hsame : unionUpTo (giving (giving m Role.administrator.toInt fullMask)
        Role.owner.toInt fullMask) role = unionUpTo m role := by
      apply unionUpTo_congr hrole
      intro lower hlower
      rw [giving, if_neg (toInt_ne hlower.2.symm), giving, if_neg (toInt_ne hlower.1.symm)]
    apply BitVec.eq_of_getLsbD_eq
    intro b _
    have hb := hspans role (mem_ladder_iff.mpr hrole.2) b
    rw [Grants.Has, ← hagrees' role, hagrees role, hmask, Option.getD_some, hsame] at hb
    exact Bool.eq_iff_iff.mpr hb
  rw [hagrees role, hmask, heq]

end Spans

/-! ## A map, a list of pairs, an object -/

/-- The masks under the numbers of their roles. -/
def byNumber (m : OrderedMap Role Permissions) : List (Key × Permissions) :=
  m.entries.map (fun e => (.number (.finite e.1.toInt), e.2))

/-- The masks under the names of properties. -/
def byName (m : OrderedMap Role Permissions) : List (String × Permissions) :=
  m.entries.map (fun e => (toString e.1.toInt, e.2))

/-- The forms in which masks can be given. -/
def forms (m : OrderedMap Role Permissions) : List Input :=
  [.map (.ofList (byNumber m)), .pairs (byNumber m), .object (.ofList (byName m)) []]

/-- What a role is given. -/
def given (m : OrderedMap Role Permissions) (role : Role) : GrantMask :=
  ((m.get? role).map Permissions.normalize).getD 0

theorem givenBy_entries (m : OrderedMap Role Permissions) :
    givenBy (fun e : Role × Permissions => (e.1.toInt : ℚ)) (fun e => e.2.normalize) m.entries =
      given m := by
  funext role
  have hpred : (fun e : Role × Permissions => decide ((e.1.toInt : ℚ) = role.toInt)) =
      (fun e => decide (e.1 = role)) := by
    funext e
    exact decide_eq_decide.mpr toInt_injective.eq_iff
  rw [givenBy, given, OrderedMap.get?, hpred, Option.map_map]
  rfl

theorem distinct_entries (m : OrderedMap Role Permissions) :
    (m.entries.map (fun e : Role × Permissions => (e.1.toInt : ℚ))).Nodup := by
  have hmap := m.nodupKeys.map toInt_injective
  rw [List.map_map] at hmap
  exact hmap

/-- The constructor's loop over a map of masks. -/
theorem spans_given {f : AnyGrants → Role × Permissions → Option AnyGrants}
    {m : OrderedMap Role Permissions}
    (hf : ∀ e ∈ m.entries, Sets (fun e => (e.1.toInt : ℚ)) (fun e => e.2.normalize) f e) :
    ∃ g, m.entries.foldlM f cleared = some g ∧ g.Spans (given m) := by
  obtain ⟨g, hrun, hg⟩ := spans_cleared.foldlM hf (distinct_entries m) (fun _ _ _ _ => rfl)
  have hsame : (fun r => 0 ||| givenBy (fun e : Role × Permissions => (e.1.toInt : ℚ))
      (fun e => e.2.normalize) m.entries r) = given m := by
    rw [givenBy_entries]
    funext r
    exact BitVec.zero_or
  rw [hsame] at hg
  exact ⟨g, hrun, hg⟩

theorem normalize_of_not_truthy {perms : Permissions} (h : perms.truthy = false) :
    perms.normalize = 0 := by
  cases perms with
  | names perms => cases h
  | mask n =>
    rcases not_and_or.mp (fun hand : n ≠ .nan ∧ n ≠ .finite 0 => by
      simp [Permissions.truthy, hand] at h) with hn | hn
    · rw [not_not.mp hn]
      rfl
    · rw [not_not.mp hn]
      decide

/-- A number as the name of a property. -/
def NamesRoles (numberToString : Number → String) : Prop :=
  ∀ role : Role, numberToString (.finite role.toInt) = toString role.toInt

theorem parseInt_toString (role : Role) :
    parseInt (toString role.toInt) = .finite role.toInt := by
  cases role with
  | owner => decide +kernel
  | unregisteredUser => decide +kernel
  | registeredUser => decide +kernel
  | trustedUser => decide +kernel
  | moderator => decide +kernel
  | administrator => decide +kernel

/-- A map: what is falsy is passed over. -/
theorem setMap_byNumber (m : OrderedMap Role Permissions) :
    ∃ g, setMap (.ofList (byNumber m)) = some g ∧ g.Spans (given m) := by
  have hdistinct : ((byNumber m).map Prod.fst).Nodup := by
    have hinjective : Function.Injective (fun q : ℚ => Key.number (.finite q)) :=
      fun q q' heq => Number.finite.inj (Key.number.inj heq)
    have hmap := (distinct_entries m).map hinjective
    rw [byNumber, List.map_map]
    rw [List.map_map] at hmap
    exact hmap
  rw [setMap, OrderedMap.entries_ofList hdistinct, byNumber, List.foldlM_map]
  apply spans_given
  intro e _ g
  cases htruthy : e.2.truthy with
  | true => exact .inl ((if_pos htruthy).trans (setRoleGrants_toInt g e.1 e.2))
  | false =>
    refine .inr ⟨normalize_of_not_truthy htruthy, if_neg ?_⟩
    rw [htruthy]
    exact Bool.false_ne_true

/-- An object: every property is set. -/
theorem setObject_byName {numberToString : Number → String} (hnames : NamesRoles numberToString)
    (m : OrderedMap Role Permissions) :
    ∃ g, setObject numberToString (.ofList (byName m)) [] = some g ∧ g.Spans (given m) := by
  have hinjective : Function.Injective (fun role : Role => toString role.toInt) := by
    intro role role' heq
    have hnumber := congrArg parseInt heq
    rw [parseInt_toString, parseInt_toString] at hnumber
    exact toInt_injective (Number.finite.inj hnumber)
  have hdistinct : ((byName m).map Prod.fst).Nodup := by
    have hmap := m.nodupKeys.map hinjective
    rw [List.map_map] at hmap
    rw [byName, List.map_map]
    exact hmap
  have hget : ∀ e ∈ m.entries, (OrderedMap.ofList (byName m)).get? (toString e.1.toInt) =
      some e.2 := by
    intro e he
    rw [OrderedMap.get?_eq_some_iff, OrderedMap.entries_ofList hdistinct]
    exact List.mem_map_of_mem (f := fun e : Role × Permissions => (toString e.1.toInt, e.2)) he
  rw [setObject, List.append_nil, OrderedMap.keys, OrderedMap.entries_ofList hdistinct, byName,
    List.map_map, List.foldlM_map]
  apply spans_given
  intro e he g
  refine .inl ?_
  have hperms := (congrArg (OrderedMap.ofList (byName m)).get? (hnames e.1)).trans (hget e he)
  rw [byName] at hperms
  simp only [Function.comp_apply, parseInt_toString, hperms]
  exact setRoleGrants_toInt g e.1 e.2

/-- **The order of the masks does not show, nor their form.** -/
theorem ofInput_forms {numberToString : Number → String} (hnames : NamesRoles numberToString)
    {m : OrderedMap Role Permissions} (hm : ∀ role ∈ m.keys, Grants.Chosen role) {input : Input}
    (hinput : input ∈ forms m) :
    ∃ g, ofInput numberToString input = some g ∧
      ∀ role, Grants.Chosen role → g.getMask role.toInt = some (unionUpTo (given m) role) := by
  have hnot : ∀ role, ¬ Grants.Chosen role → given m role = 0 := by
    intro role hrole
    have hnone : m.get? role = none := by
      rw [OrderedMap.get?_eq_none_iff]
      intro perms hmem
      exact hrole (hm role (List.mem_map_of_mem (f := Prod.fst) hmem))
    rw [given, hnone]
    rfl
  have hall : ∃ g, setAllGrants numberToString input = some g ∧ g.Spans (given m) := by
    rcases List.mem_cons.mp hinput with rfl | hinput
    · exact setMap_byNumber m
    · rcases List.mem_cons.mp hinput with rfl | hinput
      · exact setMap_byNumber m
      · rw [List.mem_singleton.mp hinput]
        exact setObject_byName hnames m
  obtain ⟨g, hall, hg⟩ := hall
  exact ofInput_of_spans hall hg (hnot _ (fun h => h.1 rfl)) (hnot _ (fun h => h.2 rfl))

/-! ## Storage -/

def deleteRole (g : AnyGrants) (role : ℚ) : AnyGrants := ⟨g.masks.erase role⟩

def toJSON (g : AnyGrants) : List (Key × Permissions) :=
  g.masks.entries.map (fun e => (.number (.finite e.1), .mask (.finite e.2.toInt)))

/-- What `roomToDb` stores of the grants. -/
def filtered (g : AnyGrants) : AnyGrants :=
  (g.deleteRole Role.administrator.toInt).deleteRole Role.owner.toInt

/-- Well-formed grants whose masks are masks of roles, with nothing but permissions for the owner. -/
structure Proper (g : AnyGrants) : Prop extends g.WellFormed where
  roles : ∀ q mask, g.getMask q = some mask → -1 ≤ q ∧ q ≤ 4
  ownerKnown : ∀ b, (g.mask .owner).getLsbD b = true →
    ∃ p ∈ permissions, p.mask.getLsbD b = true

/-- A mask, as a number and back. -/
theorem toInt32_toInt (mask : GrantMask) : toInt32 (.finite mask.toInt) = mask := by
  have htruncate : Number.truncate (mask.toInt : ℚ) = mask.toInt := by
    unfold Number.truncate
    split
    · exact Int.ceil_intCast _
    · exact Int.floor_intCast _
  rw [toInt32, htruncate, BitVec.ofInt_toInt]

section Stored

variable {g : AnyGrants}

theorem getMask_filtered {role : Role} (hrole : Grants.Chosen role) :
    g.filtered.getMask role.toInt = g.getMask role.toInt := by
  unfold filtered deleteRole getMask
  rw [OrderedMap.get?_erase, if_neg (toInt_ne hrole.2), OrderedMap.get?_erase,
    if_neg (toInt_ne hrole.1)]

theorem getMask_filtered_not {role : Role} (hrole : ¬ Grants.Chosen role) :
    g.filtered.getMask role.toInt = none := by
  unfold filtered deleteRole getMask
  rw [OrderedMap.get?_erase, OrderedMap.get?_erase]
  by_cases howner : role = .owner
  · rw [if_pos (howner ▸ rfl)]
  · have hadministrator : role = .administrator := by
      by_contra hne
      exact hrole ⟨hne, howner⟩
    rw [if_neg (toInt_ne howner), if_pos (hadministrator ▸ rfl)]

/-- Stored masks are set one after the other. -/
theorem setMap_toJSON (hroles : ∀ q mask, g.getMask q = some mask → -1 ≤ q ∧ q ≤ 4) :
    ∃ g', setMap (.ofList g.toJSON) = some g' ∧ g'.Spans g.mask := by
  have hdistinct : (g.toJSON.map Prod.fst).Nodup := by
    have hinjective : Function.Injective (fun q : ℚ => Key.number (.finite q)) :=
      fun q q' heq => Number.finite.inj (Key.number.inj heq)
    have hmap := g.masks.nodupKeys.map hinjective
    rw [List.map_map] at hmap
    rw [toJSON, List.map_map]
    exact hmap
  have hsets : ∀ e ∈ g.masks.entries, Sets (fun e : ℚ × GrantMask => e.1) (fun e => e.2)
      (fun g' e => if (Permissions.mask (.finite e.2.toInt)).truthy then
        g'.setRoleGrants (.number (.finite e.1)) (.mask (.finite e.2.toInt)) else pure g') e := by
    intro e he g'
    cases htruthy : (Permissions.mask (.finite (e.2.toInt : ℚ))).truthy with
    | true =>
      refine .inl ((if_pos htruthy).trans ?_)
      have hrole : (Key.number (.finite e.1)).role? = some e.1 :=
        if_pos (hroles e.1 e.2 (OrderedMap.get?_eq_some_iff.mpr he))
      rw [setRoleGrants, hrole, Option.map_some, Permissions.normalize, toInt32_toInt]
    | false =>
      refine .inr ⟨?_, if_neg ?_⟩
      · have hzero := normalize_of_not_truthy htruthy
        rw [Permissions.normalize, toInt32_toInt] at hzero
        exact hzero
      · rw [htruthy]
        exact Bool.false_ne_true
  obtain ⟨g', hrun, hg'⟩ :=
    spans_cleared.foldlM hsets g.masks.nodupKeys (fun _ _ _ _ => rfl)
  have hsame : (fun r => 0 ||| givenBy (fun e : ℚ × GrantMask => e.1) (fun e => e.2)
      g.masks.entries r) = g.mask := by
    funext r
    exact BitVec.zero_or
  rw [hsame] at hg'
  refine ⟨g', ?_, hg'⟩
  rw [setMap, OrderedMap.entries_ofList hdistinct, toJSON, List.foldlM_map]
  exact hrun

/-- A mask that rises and is permitted is the union of those below it. -/
theorem WellFormed.unionUpTo (hg : g.WellFormed) {m : Role → GrantMask} {role : Role}
    (hrole : Grants.Chosen role) (hm : ∀ lower, Grants.Chosen lower → m lower = g.mask lower) :
    unionUpTo m role = g.mask role := by
  rw [unionUpTo_congr hrole hm]
  have hladder := mem_ladder_iff.mpr hrole.2
  have hnonneg : ∀ role ∈ Role.ladder, 0 ≤ role.toInt := by decide
  apply BitVec.eq_of_getLsbD_eq
  intro b _
  rw [Bool.eq_iff_iff, getLsbD_unionUpTo]
  constructor
  · rintro ⟨lower, hlower, hle, hb⟩
    rw [BitVec.getLsbD_and, Bool.and_eq_true] at hb
    exact Grants.getLsbD_of_and_eq (hg.rising lower role (hnonneg lower hlower) hle) hb.1
  · intro hb
    refine ⟨role, hladder, Int.le_refl _, ?_⟩
    have hvalid : (Common.getValidationMask role).getLsbD b = true := by
      rw [← permitted_eq hladder, getLsbD_permitted]
      exact hg.permitted role (hnonneg role hladder) b hb
    rw [BitVec.getLsbD_and, Bool.and_eq_true]
    exact ⟨hb, hvalid⟩

/-- Everything, and nothing but permissions. -/
theorem eq_fullMask {mask : GrantMask} (hall : ∀ p ∈ permissions, p.mask &&& mask = p.mask)
    (hknown : ∀ b, mask.getLsbD b = true → ∃ p ∈ permissions, p.mask.getLsbD b = true) :
    mask = fullMask := by
  have hfull : fullMask = permitted .administrator := by
    rw [permitted_eq (by decide), validationMask_administrator]
  apply BitVec.eq_of_getLsbD_eq
  intro b _
  rw [Bool.eq_iff_iff]
  constructor
  · intro hb
    obtain ⟨p, hp, hb⟩ := hknown b hb
    exact Grants.getLsbD_of_and_eq (and_fullMask hp) hb
  · intro hb
    rw [hfull, getLsbD_permitted] at hb
    obtain ⟨p, hp, -, hb⟩ := hb
    exact Grants.getLsbD_of_and_eq (hall p hp) hb

/-- **What was stored comes back.** -/
theorem Proper.restored (hg : g.Proper) (numberToString : Number → String) :
    ∃ g', ofInput numberToString (.pairs g.filtered.toJSON) = some g' ∧
      ∀ role : Role, g'.getMask role.toInt = g.getMask role.toInt := by
  have hroles : ∀ q mask, g.filtered.getMask q = some mask → -1 ≤ q ∧ q ≤ 4 := by
    intro q mask hget
    apply hg.roles q mask
    unfold filtered deleteRole getMask at hget
    rw [OrderedMap.get?_erase, OrderedMap.get?_erase] at hget
    split at hget
    · cases hget
    · split at hget
      · cases hget
      · exact hget
  obtain ⟨g₀, hall, hg₀⟩ := setMap_toJSON hroles
  have hnot : ∀ role, ¬ Grants.Chosen role → g.filtered.mask role = 0 := by
    intro role hrole
    rw [mask, getMask_filtered_not hrole]
    rfl
  have hpairs : setAllGrants numberToString (.pairs g.filtered.toJSON) = some g₀ := hall
  obtain ⟨g', hmade, hchosen⟩ := ofInput_of_spans hpairs hg₀
    (hnot _ (fun h => h.1 rfl)) (hnot _ (fun h => h.2 rfl))
  refine ⟨g', hmade, fun role => ?_⟩
  have hmask : g.getMask role.toInt = some (g.mask role) := by
    obtain ⟨m, hm⟩ := Option.isSome_iff_exists.mp (hg.total role)
    rw [mask, hm, Option.getD_some]
  rw [hmask]
  by_cases hrole : Grants.Chosen role
  · have hsame : ∀ lower, Grants.Chosen lower → g.filtered.mask lower = g.mask lower := by
      intro lower hlower
      rw [mask, mask, getMask_filtered hlower]
    rw [hchosen role hrole, hg.toWellFormed.unionUpTo hrole hsame]
  · obtain ⟨h, hagrees, hnormal⟩ := regular_ofInput hmade
    by_cases howner : role = .owner
    · rw [howner, hagrees, hnormal.owner, eq_fullMask hg.owner hg.ownerKnown]
    · have hadministrator : role = .administrator := by
        by_contra hne
        exact hrole ⟨hne, howner⟩
      have hknown : ∀ b, (g.mask .administrator).getLsbD b = true →
          ∃ p ∈ permissions, p.mask.getLsbD b = true := by
        intro b hb
        obtain ⟨p, hp, -, hb⟩ := hg.permitted .administrator (by decide) b hb
        exact ⟨p, hp, hb⟩
      rw [hadministrator, hagrees, hnormal.administrator, eq_fullMask hg.administrator hknown]

/-- What the constructor makes, and what setting masks makes of it, is proper. -/
theorem Regular.proper (hg : g.Regular)
    (hroles : ∀ q mask, g.getMask q = some mask → -1 ≤ q ∧ q ≤ 4) : g.Proper where
  toWellFormed := hg.wellFormed
  roles := hroles
  ownerKnown := by
    intro b hb
    obtain ⟨h, hagrees, hnormal⟩ := hg
    rw [mask, hagrees, hnormal.owner, Option.getD_some, ← validationMask_administrator,
      ← permitted_eq (by decide), getLsbD_permitted] at hb
    obtain ⟨p, hp, -, hb⟩ := hb
    exact ⟨p, hp, hb⟩

end Stored

/-! ## The closed form and the way through storage -/

/-- **Grants have a closed form**, whatever form and order the masks are given in, **and come back
from storage.** -/
theorem closed_form_and_restored {numberToString : Number → String}
    (hnames : NamesRoles numberToString) :
    (∀ m : OrderedMap Role Permissions, (∀ role ∈ m.keys, Grants.Chosen role) →
      ∀ input ∈ forms m, ∃ g, new numberToString (some input) = some g ∧
        ∀ role, Grants.Chosen role → g.getMask role.toInt = some (unionUpTo (given m) role)) ∧
    (∀ g : AnyGrants, g.Proper →
      ∃ g', new numberToString (some (.pairs g.filtered.toJSON)) = some g' ∧
        ∀ role : Role, g'.getMask role.toInt = g.getMask role.toInt) :=
  ⟨fun _ hm _ hinput => ofInput_forms hnames hm hinput,
    fun _ hg => hg.restored numberToString⟩

/-- The decimals of a whole number. -/
def decimals : Number → String
  | .finite q => toString q.num
  | _ => ""

/-- Moderators first, and then everybody; chat is among what both are given. -/
def moderatorsFirst : OrderedMap Role Permissions :=
  .ofList [(.moderator, .mask (.finite (2 ^ 24 + 2 ^ 7))), (.unregisteredUser, .names ["chat"])]

theorem closed_form_and_restored_moderatorsFirst : NamesRoles decimals ∧
    (∃ g, new decimals (some (.object (.ofList (byName moderatorsFirst)) [])) = some g ∧
      ∀ role, Grants.Chosen role →
        g.getMask role.toInt = some (unionUpTo (given moderatorsFirst) role)) ∧
    ∃ g : AnyGrants, new decimals (some oddMap) = some g ∧ g.Proper ∧
      ∃ g', new decimals (some (.pairs g.filtered.toJSON)) = some g' ∧
        ∀ role : Role, g'.getMask role.toInt = g.getMask role.toInt := by
  have hnames : NamesRoles decimals := by
    intro role
    show toString ((role.toInt : ℚ)).num = _
    rw [Rat.num_intCast]
  obtain ⟨hforms, hstored⟩ := closed_form_and_restored hnames
  have hkeys : ∀ role ∈ moderatorsFirst.keys, Grants.Chosen role := by
    unfold Grants.Chosen
    decide +kernel
  have hmade : (new decimals (some oddMap)).any
      (fun g => g.masks.entries.all (fun e => -1 ≤ e.1 ∧ e.1 ≤ 4)) = true := by decide +kernel
  obtain ⟨g, hg, hall⟩ := (Option.any_eq_true _ _).mp hmade
  have hproper : g.Proper := by
    apply (regular_new hg).proper
    intro q mask hget
    exact of_decide_eq_true (List.all_eq_true.mp hall _ (OrderedMap.get?_eq_some_iff.mp hget))
  exact ⟨hnames, hforms moderatorsFirst hkeys _ (by simp [forms]), g, hg, hproper,
    hstored g hproper⟩

/-- What everybody is given is not lost on those who were given something before. -/
example : unionUpTo (given moderatorsFirst) .moderator = 2 ^ 24 + 2 ^ 7 := by decide +kernel

end AnyGrants

end OpenTogetherTube.Common
