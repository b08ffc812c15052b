import OpenTogetherTube.Common.Grants
import OpenTogetherTube.Lib.Json

/-!
# Grants made from anything

`Grants` has one mask for each role of the enumeration. The class keeps its masks in a `Map`, and its
constructor takes maps, lists of pairs, objects and other grants: their keys are numbers and texts of
any kind, and a number passes as a role if it lies between those of the owner and of administrators,
a fraction too.

`AnyGrants` is the class with such keys. A fraction is a role of its own, which inherits nothing and
hands nothing down, so that at the roles of the enumeration these grants are `Grants` (`Agrees`).
What the constructor makes is therefore normal there, whatever it was made from.
-/

namespace OpenTogetherTube.Common

open OpenTogetherTube.Lib

/-! ## Keys and masks -/

/-- The characters that `parseInt` passes over at the start. -/
def isSpace (c : Char) : Bool :=
  c.toNat ∈ [9, 10, 11, 12, 13, 32, 0xA0, 0x1680, 0x2028, 0x2029, 0x202F, 0x205F, 0x3000, 0xFEFF] ||
    (0x2000 ≤ c.toNat && c.toNat ≤ 0x200A)

def digit? (radix : Nat) (c : Char) : Option Nat :=
  let digit := if c.isDigit then some (c.toNat - 48)
    else if 'a' ≤ c && c ≤ 'z' then some (c.toNat - 87)
    else if 'A' ≤ c && c ≤ 'Z' then some (c.toNat - 55)
    else none
  digit.filter (· < radix)

/-- The number that the digits at the start make. -/
def digits (radix : Nat) (cs : List Char) : Number :=
  match ((cs.map (digit? radix)).takeWhile Option.isSome).reduceOption with
  | [] => .nan
  | ds => .ofNat (ds.foldl (fun n d => n * radix + d) 0)

def unsigned (cs : List Char) : Number :=
  match cs with
  | '0' :: 'x' :: cs | '0' :: 'X' :: cs => digits 16 cs
  | cs => digits 10 cs

/-- `parseInt(s)`. -/
def parseInt (s : String) : Number :=
  match s.toList.dropWhile isSpace with
  | '-' :: cs =>
    match unsigned cs with
    | .finite q => .finite (-q)
    | n => n
  | '+' :: cs => unsigned cs
  | cs => unsigned cs

/-- A key of a `Map`. -/
inductive Key where
  | number (n : Number)
  | text (s : String)
  | other (id : Nat)
  deriving DecidableEq, Repr

/-- What a role is given: the names of permissions, or a mask. `undefined` counts as `NaN`. -/
inductive Permissions where
  | names (perms : List PermissionName)
  | mask (n : Number)
  deriving DecidableEq, Repr

/-- `!!permissions`. -/
def Permissions.truthy : Permissions → Bool
  | .names _ => true
  | .mask n => n ≠ .nan && n ≠ .finite 0

/-- A number, as the bit operators take it. -/
def toInt32 : Number → GrantMask
  | .finite q => BitVec.ofInt 32 (Number.truncate q)
  | .nan | .infinite _ => 0

/-- `_normalizePermissionsInput`, as far as `&` reads it. -/
def Permissions.normalize : Permissions → GrantMask
  | .names perms => parseIntoGrantMask perms
  | .mask n => toInt32 n

/-- `_normalizeRoleId`. -/
def Key.normalize : Key → Key
  | .text s => .number (parseInt s)
  | key => key

/-- The role that a key is, if `isRoleValid`. -/
def Key.role? (key : Key) : Option ℚ :=
  match key.normalize with
  | .number (.finite q) => if -1 ≤ q ∧ q ≤ 4 then some q else none
  | _ => none

/-! ## The class -/

/-- The masks, by the numbers of the roles. -/
structure AnyGrants where
  masks : OrderedMap ℚ GrantMask
  deriving DecidableEq

namespace AnyGrants

def cleared : AnyGrants := ⟨∅⟩

def getMask (g : AnyGrants) (role : ℚ) : Option GrantMask := g.masks.get? role

def getValidationMask (role : ℚ) : GrantMask :=
  match (permissions.filter (fun p => (p.minRole.toInt : ℚ) ≤ role)).map (·.mask) with
  | [] => parseIntoGrantMask ["*"]
  | m :: ms => ms.foldl (· ||| ·) m

def processInheiritance (g : AnyGrants) : AnyGrants :=
  (Role.ladder.foldl (fun acc role =>
    let fullmask := acc.1 ||| (acc.2.getMask role.toInt).getD 0
    (fullmask, ⟨acc.2.masks.set role.toInt fullmask⟩)) ((0 : GrantMask), g)).2

/-- The end of `setRoleGrants`, behind the check. -/
def set (g : AnyGrants) (role : ℚ) (mask : GrantMask) : AnyGrants :=
  processInheiritance ⟨g.masks.set role (mask &&& getValidationMask role)⟩

/-- It throws if the role is not valid. -/
def setRoleGrants (g : AnyGrants) (role : Key) (perms : Permissions) : Option AnyGrants :=
  role.role?.map (fun q => g.set q perms.normalize)

/-- What `setAllGrants` takes. An object has properties of its own and others that it inherits. -/
inductive Input where
  | map (entries : OrderedMap Key Permissions)
  | pairs (entries : List (Key × Permissions))
  | object (own : OrderedMap String Permissions) (inherited : List String)
  | grants (g : AnyGrants)

/-- `setAllGrants` with a map: what is falsy is passed over. -/
def setMap (entries : OrderedMap Key Permissions) : Option AnyGrants :=
  entries.entries.foldlM
    (fun g e => if e.2.truthy then g.setRoleGrants e.1 e.2 else pure g) cleared

/-- `setAllGrants` with an object: a property name is read as a number, and that number names the
property again. -/
def setObject (numberToString : Number → String) (own : OrderedMap String Permissions)
    (inherited : List String) : Option AnyGrants :=
  (own.keys ++ inherited).foldlM (fun g r =>
    match own.get? (numberToString (parseInt r)) with
    | some perms => g.setRoleGrants (.number (parseInt r)) perms
    | none => pure g) cleared

/-- The masks as they are iterated over. -/
def entriesOf (g : AnyGrants) : OrderedMap Key Permissions :=
  .ofList (g.masks.entries.map
    (fun e => (.number (.finite e.1), .mask (.finite e.2.toInt))))

def setAllGrants (numberToString : Number → String) : Input → Option AnyGrants
  | .map entries => setMap entries
  | .pairs entries => setMap (.ofList entries)
  | .object own inherited => setObject numberToString own inherited
  | .grants g => setMap g.entriesOf

/-- The constructor, of something that is not falsy. -/
def ofInput (numberToString : Number → String) (input : Input) : Option AnyGrants := do
  let g ← setAllGrants numberToString input
  let g ← g.setRoleGrants (.number (.finite 4)) (.names ["*"])
  g.setRoleGrants (.number (.finite (-1))) (.names ["*"])

/-- `defaultPermissions`: the keys that are numbers come first. -/
def defaultInput : Input :=
  .object (.ofList
    [("0", .names ["playback", "manage-queue", "chat", "configure-room.set-title",
        "configure-room.set-description", "configure-room.set-visibility",
        "configure-room.set-queue-mode", "configure-room.other"]),
      ("1", .names []),
      ("2", .names []),
      ("3", .names ["manage-users.promote-trusted-user", "manage-users.demote-trusted-user",
        "manage-users.kick"]),
      ("4", .names ["*"]),
      ("-1", .names ["*"])]) []

/-- `new Grants(grants)`. Without grants it starts from the defaults. -/
def new (numberToString : Number → String) : Option Input → Option AnyGrants
  | some input => ofInput numberToString input
  | none => do ofInput numberToString (.grants (← ofInput numberToString defaultInput))

/-! ## At the roles of the enumeration -/

/-- The mask of every role of the enumeration is what it is in the grants `h`. -/
def Agrees (g : AnyGrants) (h : Grants) : Prop :=
  ∀ role : Role, g.getMask role.toInt = h.getMask role

theorem toInt_injective : Function.Injective (fun role : Role => (role.toInt : ℚ)) := by
  intro role role' heq
  have hint : role.toInt = role'.toInt := Int.cast_injective heq
  have hrole := Role.ofInt?_toInt role
  rw [hint, Role.ofInt?_toInt] at hrole
  exact (Option.some.inj hrole).symm

theorem getValidationMask_toInt (role : Role) :
    getValidationMask role.toInt = Common.getValidationMask role := by
  have hfilter : permissions.filter (fun p => (p.minRole.toInt : ℚ) ≤ role.toInt) =
      permissions.filter (fun p => p.minRole.toInt ≤ role.toInt) :=
    List.filter_congr (fun p _ => decide_eq_decide.mpr Int.cast_le)
  unfold getValidationMask Common.getValidationMask
  exact hfilter ▸ rfl

section Agrees

variable {g : AnyGrants} {h : Grants}

theorem Agrees.set_masks (hg : g.Agrees h) (role : Role) (mask : GrantMask) :
    Agrees ⟨g.masks.set role.toInt mask⟩ ⟨h.masks.set role mask⟩ := by
  intro role'
  have hrole : (role'.toInt : ℚ) = role.toInt ↔ role' = role := toInt_injective.eq_iff
  unfold AnyGrants.getMask Grants.getMask
  rw [OrderedMap.get?_set, OrderedMap.get?_set]
  by_cases heq : role' = role
  · rw [if_pos heq, if_pos (hrole.mpr heq)]
  · rw [if_neg heq, if_neg (fun hcast => heq (hrole.mp hcast))]
    exact hg role'

/-- The loop reads and writes only roles of the enumeration. -/
theorem Agrees.processInheiritance (hg : g.Agrees h) :
    g.processInheiritance.Agrees h.processInheiritance := by
  unfold AnyGrants.processInheiritance Grants.processInheiritance
  have hloop : ∀ (roles : List Role) (fullmask : GrantMask) (g : AnyGrants) (h : Grants),
      g.Agrees h →
      Agrees (roles.foldl (fun acc role =>
          let fullmask := acc.1 ||| (acc.2.getMask role.toInt).getD 0
          (fullmask, (⟨acc.2.masks.set role.toInt fullmask⟩ : AnyGrants))) (fullmask, g)).2
        (roles.foldl (fun acc role =>
          let fullmask := acc.1 ||| (acc.2.getMask role).getD 0
          (fullmask, (⟨acc.2.masks.set role fullmask⟩ : Grants))) (fullmask, h)).2 := by
    intro roles
    induction roles with
    | nil => exact fun _ _ _ hg => hg
    | cons role roles ih =>
      intro fullmask g h hg
      rw [List.foldl_cons, List.foldl_cons]
      dsimp only
      rw [hg role]
      exact ih _ _ _ (hg.set_masks role _)
  exact hloop Role.ladder 0 g h hg

/-- Setting the mask of a role of the enumeration. -/
theorem Agrees.set (hg : g.Agrees h) (role : Role) (mask : GrantMask) :
    (g.set role.toInt mask).Agrees (h.setRoleGrants role mask) := by
  unfold AnyGrants.set Grants.setRoleGrants
  rw [getValidationMask_toInt]
  exact (hg.set_masks role _).processInheiritance

/-- Setting the mask of a fraction. -/
theorem Agrees.set_other (hg : g.Agrees h) {q : ℚ} (hq : ∀ role : Role, (role.toInt : ℚ) ≠ q)
    (mask : GrantMask) : (g.set q mask).Agrees h.processInheiritance := by
  apply Agrees.processInheiritance
  intro role
  unfold AnyGrants.getMask
  rw [OrderedMap.get?_set, if_neg (hq role)]
  exact hg role

end Agrees

/-! ## Grants that are valid at the roles of the enumeration -/

/-- They agree with grants in which no role has what it may not have. -/
def Covered (g : AnyGrants) : Prop := ∃ h : Grants, g.Agrees h ∧ h.Valid

theorem valid_processInheiritance {h : Grants} (hvalid : h.Valid) : h.processInheiritance.Valid := by
  intro role b hb
  unfold Grants.Has at hb
  rw [Grants.getMask_processInheiritance] at hb
  by_cases hrole : role = .owner
  · rw [if_pos hrole] at hb
    exact hvalid role b hb
  · rw [if_neg hrole, Option.getD_some, Grants.getLsbD_inherited] at hb
    obtain ⟨lower, hlower, hle, hb⟩ := hb
    exact Grants.getLsbD_of_and_eq (validationMask_mono hlower hle) (hvalid lower b hb)

theorem covered_cleared : Covered cleared :=
  ⟨Grants.cleared, fun _ => rfl, Grants.valid_cleared⟩

theorem Covered.set {g : AnyGrants} (hg : g.Covered) (q : ℚ) (mask : GrantMask) :
    (g.set q mask).Covered := by
  obtain ⟨h, hagrees, hvalid⟩ := hg
  by_cases hq : ∃ role : Role, (role.toInt : ℚ) = q
  · obtain ⟨role, rfl⟩ := hq
    exact ⟨_, hagrees.set role mask, hvalid.setRoleGrants role mask⟩
  · have hother : ∀ role : Role, (role.toInt : ℚ) ≠ q := fun role heq => hq ⟨role, heq⟩
    exact ⟨_, hagrees.set_other hother mask, valid_processInheiritance hvalid⟩

theorem Covered.setRoleGrants {g g' : AnyGrants} (hg : g.Covered) {role : Key} {perms : Permissions}
    (h : g.setRoleGrants role perms = some g') : g'.Covered := by
  obtain ⟨q, -, rfl⟩ := Option.map_eq_some_iff.mp h
  exact hg.set q _

/-- **However many masks are set, and from whatever keys.** -/
theorem Covered.foldlM {α : Type} {f : AnyGrants → α → Option AnyGrants}
    (hf : ∀ g a g', g.Covered → f g a = some g' → g'.Covered) (l : List α) {g g' : AnyGrants}
    (hg : g.Covered) (h : l.foldlM f g = some g') : g'.Covered := by
  induction l generalizing g with
  | nil =>
    cases h
    exact hg
  | cons a l ih =>
    rw [List.foldlM_cons, Option.bind_eq_bind, Option.bind_eq_some_iff] at h
    obtain ⟨g₁, hfirst, hrest⟩ := h
    exact ih (hf g a g₁ hg hfirst) hrest

theorem covered_setMap {entries : OrderedMap Key Permissions} {g : AnyGrants}
    (h : setMap entries = some g) : g.Covered := by
  refine Covered.foldlM (fun g e g' hg hset => ?_) entries.entries covered_cleared h
  split at hset
  · exact hg.setRoleGrants hset
  · cases hset
    exact hg

theorem covered_setAllGrants {numberToString : Number → String} {input : Input} {g : AnyGrants}
    (h : setAllGrants numberToString input = some g) : g.Covered := by
  cases input with
  | map entries => exact covered_setMap h
  | pairs entries => exact covered_setMap h
  | grants g' => exact covered_setMap h
  | object own inherited =>
    refine Covered.foldlM (fun g r g' hg hset => ?_) (own.keys ++ inherited) covered_cleared h
    split at hset
    · exact hg.setRoleGrants hset
    · cases hset
      exact hg

/-! ## What the constructor makes -/

/-- They agree with normal grants. -/
def Regular (g : AnyGrants) : Prop := ∃ h : Grants, g.Agrees h ∧ h.Normal

theorem setRoleGrants_toInt (g : AnyGrants) (role : Role) (perms : Permissions) :
    g.setRoleGrants (.number (.finite role.toInt)) perms =
      some (g.set role.toInt perms.normalize) := by
  have hrole : (Key.number (.finite role.toInt)).role? = some (role.toInt : ℚ) := by
    refine if_pos ?_
    cases role <;> norm_num [Role.toInt]
  rw [setRoleGrants, hrole]
  rfl

theorem regular_ofInput {numberToString : Number → String} {input : Input} {g : AnyGrants}
    (h : ofInput numberToString input = some g) : g.Regular := by
  unfold ofInput at h
  simp only [Option.bind_eq_bind, Option.bind_eq_some_iff] at h
  obtain ⟨g₀, hall, g₁, hadministrator, howner⟩ := h
  obtain ⟨h₀, hagrees, hvalid⟩ := covered_setAllGrants hall
  have hfirst : g₁ = g₀.set Role.administrator.toInt fullMask :=
    Option.some.inj (hadministrator.symm.trans
      (setRoleGrants_toInt g₀ .administrator (.names ["*"])))
  have hsecond : g = g₁.set Role.owner.toInt fullMask :=
    Option.some.inj (howner.symm.trans (setRoleGrants_toInt g₁ .owner (.names ["*"])))
  rw [hsecond, hfirst]
  exact ⟨h₀.withFullRoles, (hagrees.set .administrator fullMask).set .owner fullMask,
    Grants.normal_withFullRoles hvalid⟩

/-- **What the constructor makes is normal**, whatever it was made from. -/
theorem regular_new {numberToString : Number → String} {input : Option Input} {g : AnyGrants}
    (h : new numberToString input = some g) : g.Regular := by
  cases input with
  | some input => exact regular_ofInput h
  | none =>
    obtain ⟨defaults, -, hnew⟩ := Option.bind_eq_some_iff.mp h
    exact regular_ofInput hnew

/-- Setting the mask of a role below `Administrator`. -/
theorem Regular.set {g : AnyGrants} (hg : g.Regular) {role : Role} (hlow : 0 ≤ role.toInt)
    (hhigh : role.toInt ≤ 3) (mask : GrantMask) : (g.set role.toInt mask).Regular := by
  obtain ⟨h, hagrees, hnormal⟩ := hg
  have hadministrator : role ≠ .administrator := by rintro rfl; exact absurd hhigh (by decide)
  have howner : role ≠ .owner := by rintro rfl; exact absurd hlow (by decide)
  exact ⟨_, hagrees.set role mask, hnormal.setRoleGrants hadministrator howner mask⟩

/-! ## Well-formed grants -/

/-- The mask of a role. -/
def mask (g : AnyGrants) (role : Role) : GrantMask := (g.getMask role.toInt).getD 0

/-- Higher roles have what lower ones have, no role has a permission above it, and the two highest
have them all. -/
structure WellFormed (g : AnyGrants) : Prop where
  total : ∀ role : Role, (g.getMask role.toInt).isSome
  rising : ∀ lower role : Role, 0 ≤ lower.toInt → lower.toInt ≤ role.toInt →
    g.mask lower &&& g.mask role = g.mask lower
  permitted : ∀ role : Role, 0 ≤ role.toInt → ∀ b, (g.mask role).getLsbD b = true →
    ∃ p ∈ permissions, p.minRole.toInt ≤ role.toInt ∧ p.mask.getLsbD b = true
  administrator : ∀ p ∈ permissions, p.mask &&& g.mask .administrator = p.mask
  owner : ∀ p ∈ permissions, p.mask &&& g.mask .owner = p.mask

/-- What a role may have are the permissions whose least role is not above it. -/
theorem getLsbD_validationMask {role : Role} (hrole : 0 ≤ role.toInt) {b : Nat}
    (hb : (Common.getValidationMask role).getLsbD b = true) :
    ∃ p ∈ permissions, p.minRole.toInt ≤ role.toInt ∧ p.mask.getLsbD b = true := by
  unfold Common.getValidationMask at hb
  split at hb
  · next hnone =>
    -- a role of the ladder may have something
    have hempty : permissions.filter (fun p => p.minRole.toInt ≤ role.toInt) = [] :=
      List.map_eq_nil_iff.mp hnone
    have hfirst : ¬ decide ((0 : Int) ≤ role.toInt) = true := List.filter_eq_nil_iff.mp hempty
      ⟨"playback.play-pause", 1 <<< 0, .unregisteredUser⟩ (by decide)
    exact absurd (decide_eq_true hrole) hfirst
  · next m ms hmasks =>
    have hmem : ∃ mask ∈ m :: ms, mask.getLsbD b = true := by
      rw [Grants.getLsbD_foldl_or] at hb
      grind
    rw [← hmasks] at hmem
    obtain ⟨mask, hmask, hb⟩ := hmem
    obtain ⟨p, hp, rfl⟩ := List.mem_map.mp hmask
    obtain ⟨hp, hle⟩ := List.mem_filter.mp hp
    exact ⟨p, hp, of_decide_eq_true hle, hb⟩

theorem mem_ladder_of_nonneg {role : Role} (h : 0 ≤ role.toInt) : role ∈ Role.ladder := by
  apply mem_ladder_iff.mpr
  rintro rfl
  exact absurd h (by decide)

theorem and_fullMask {p : Permission} (hp : p ∈ permissions) : p.mask &&& fullMask = p.mask := by
  have hall : ∀ p ∈ permissions, p.mask &&& fullMask = p.mask := by decide +kernel
  exact hall p hp

/-- **Normal grants are well-formed.** -/
theorem Regular.wellFormed {g : AnyGrants} (hg : g.Regular) : g.WellFormed := by
  obtain ⟨h, hagrees, hnormal⟩ := hg
  have hmask : ∀ role, g.mask role = (h.getMask role).getD 0 := by
    intro role
    unfold AnyGrants.mask
    rw [hagrees role]
  constructor
  · intro role
    rw [hagrees role]
    exact hnormal.total role
  · intro lower role hlower hle
    apply BitVec.eq_of_getLsbD_eq
    intro b _
    rw [BitVec.getLsbD_and, hmask, hmask]
    have hrising := hnormal.rising (b := b) (mem_ladder_of_nonneg hlower)
      (mem_ladder_of_nonneg (hlower.trans hle)) hle
    unfold Grants.Has at hrising
    grind
  · intro role hrole b hb
    rw [hmask] at hb
    exact getLsbD_validationMask hrole (hnormal.valid role b hb)
  · intro p hp
    rw [hmask, hnormal.administrator, Option.getD_some]
    exact and_fullMask hp
  · intro p hp
    rw [hmask, hnormal.owner, Option.getD_some]
    exact and_fullMask hp

/-! ## Every sequence of calls -/

/-- **Grants stay well-formed**: those of a constructor that does not throw, and what setting the
masks of roles below `Administrator` makes of them. -/
theorem wellFormed_throughout {numberToString : Number → String} {input : Option Input}
    {g : AnyGrants} (hnew : new numberToString input = some g) (calls : List (Role × Permissions))
    (hcalls : ∀ call ∈ calls, 0 ≤ call.1.toInt ∧ call.1.toInt ≤ 3) :
    ∃ g', calls.foldlM (fun g call => g.setRoleGrants (.number (.finite call.1.toInt)) call.2) g =
      some g' ∧ g'.WellFormed := by
  have hregular : ∀ g : AnyGrants, g.Regular → ∃ g',
      calls.foldlM (fun g call => g.setRoleGrants (.number (.finite call.1.toInt)) call.2) g =
        some g' ∧ g'.Regular := by
    induction calls with
    | nil => exact fun g hg => ⟨g, rfl, hg⟩
    | cons call calls ih =>
      intro g hg
      have hrole := hcalls call List.mem_cons_self
      obtain ⟨g', hrun, hg'⟩ := ih (fun call hcall => hcalls call (List.mem_cons_of_mem _ hcall)) _
        (hg.set hrole.1 hrole.2 call.2.normalize)
      refine ⟨g', ?_, hg'⟩
      rw [List.foldlM_cons, setRoleGrants_toInt]
      exact hrun
  obtain ⟨g', hrun, hg'⟩ := hregular g (regular_new hnew)
  exact ⟨g', hrun, hg'.wellFormed⟩

/-- A map with a text and a fraction for keys, and with bits that stand for no permission. -/
def oddMap : Input :=
  .map (.ofList [(.text " 1px", .mask (.finite (2 ^ 31 + 1))),
    (.number (.finite (1 / 2)), .mask (.finite 7)), (.number (.finite 3), .mask .nan)])

/-- Registered users are given everything, and then moderators nothing. -/
def regrant : List (Role × Permissions) :=
  [(.registeredUser, .mask (.finite (-1))), (.moderator, .mask (.finite 0))]

theorem wellFormed_throughout_regrant : ∃ g, new (fun _ => "") (some oddMap) = some g ∧
    (∀ call ∈ regrant, 0 ≤ call.1.toInt ∧ call.1.toInt ≤ 3) ∧
    ∃ g', regrant.foldlM
        (fun g call => g.setRoleGrants (.number (.finite call.1.toInt)) call.2) g = some g' ∧
      g'.WellFormed := by
  have hsome : (new (fun _ => "") (some oddMap)).isSome = true := by decide +kernel
  obtain ⟨g, hg⟩ := Option.isSome_iff_exists.mp hsome
  have hcalls : ∀ call ∈ regrant, 0 ≤ call.1.toInt ∧ call.1.toInt ≤ 3 := by decide
  exact ⟨g, hg, hcalls, wellFormed_throughout hg regrant hcalls⟩

/-- What registered users get, moderators have as well. -/
example : (do
    let g ← new (fun _ => "") (some oddMap)
    let g ← g.setRoleGrants (.number (.finite 1)) (.names ["chat"])
    g.setRoleGrants (.number (.finite 3)) (.mask (.finite 1))).map
      (fun g : AnyGrants => (g.mask .unregisteredUser, g.mask .registeredUser, g.mask .moderator)) =
    some (0, 128, 129) := by
  decide +kernel

end AnyGrants

end OpenTogetherTube.Common
