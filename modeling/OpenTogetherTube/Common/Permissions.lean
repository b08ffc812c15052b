import OpenTogetherTube.Lib.OrderedMap
import Mathlib.Data.List.Basic

/-!
# Roles, permissions and grants

Every action of a room's user is checked against the room's `Grants`, a map from roles to 32-bit
permission masks. Permissions are named by dotted strings, and a prefix of a name stands for all
permissions it begins: `"playback"` names three of them, `"*"` names them all.

Masks are the 32-bit integers of JavaScript's bit operators. A role without a mask has the mask
`undefined`, which the operators read as `0`.
-/

namespace OpenTogetherTube.Common

open OpenTogetherTube.Lib

/-! ## Roles -/

inductive Role where
  | owner
  | unregisteredUser
  | registeredUser
  | trustedUser
  | moderator
  | administrator
  deriving DecidableEq, Repr

namespace Role

/-- The number of a role. -/
def toInt : Role → Int
  | owner => -1
  | unregisteredUser => 0
  | registeredUser => 1
  | trustedUser => 2
  | moderator => 3
  | administrator => 4

/-- The role with a number, if there is one. -/
def ofInt? (n : Int) : Option Role :=
  [owner, unregisteredUser, registeredUser, trustedUser, moderator, administrator].find?
    (fun r => r.toInt = n)

/-- The roles from `UnregisteredUser` up to `Administrator`, lowest first: the order in which masks
are inherited. -/
def ladder : List Role :=
  [unregisteredUser, registeredUser, trustedUser, moderator, administrator]

theorem ofInt?_toInt (r : Role) : ofInt? r.toInt = some r := by
  cases r <;> decide

theorem toInt_of_ofInt? {n : Int} {r : Role} (h : ofInt? n = some r) : r.toInt = n := by
  simpa using List.find?_some h

end Role

/-! ## Permissions -/

abbrev GrantMask := BitVec 32
abbrev PermissionName := String

structure Permission where
  name : PermissionName
  mask : GrantMask
  minRole : Role
  deriving DecidableEq, Repr

/-- `PERMISSIONS`. -/
def permissions : List Permission :=
  [⟨"playback.play-pause", 1 <<< 0, .unregisteredUser⟩,
   ⟨"playback.skip", 1 <<< 1, .unregisteredUser⟩,
   ⟨"playback.seek", 1 <<< 2, .unregisteredUser⟩,
   ⟨"manage-queue.add", 1 <<< 3, .unregisteredUser⟩,
   ⟨"manage-queue.remove", 1 <<< 4, .unregisteredUser⟩,
   ⟨"manage-queue.order", 1 <<< 5, .unregisteredUser⟩,
   ⟨"manage-queue.vote", 1 <<< 6, .unregisteredUser⟩,
   ⟨"chat", 1 <<< 7, .unregisteredUser⟩,
   ⟨"configure-room.set-title", 1 <<< 8, .unregisteredUser⟩,
   ⟨"configure-room.set-description", 1 <<< 9, .unregisteredUser⟩,
   ⟨"configure-room.set-visibility", 1 <<< 10, .unregisteredUser⟩,
   ⟨"configure-room.set-queue-mode", 1 <<< 11, .unregisteredUser⟩,
   ⟨"configure-room.set-permissions.for-moderator", 1 <<< 12, .administrator⟩,
   ⟨"configure-room.set-permissions.for-trusted-users", 1 <<< 13, .moderator⟩,
   ⟨"configure-room.set-permissions.for-all-registered-users", 1 <<< 14, .trustedUser⟩,
   ⟨"configure-room.set-permissions.for-all-unregistered-users", 1 <<< 15, .registeredUser⟩,
   ⟨"manage-users.promote-admin", 1 <<< 16, .administrator⟩,
   ⟨"manage-users.demote-admin", 1 <<< 17, .administrator⟩,
   ⟨"manage-users.promote-moderator", 1 <<< 18, .moderator⟩,
   ⟨"manage-users.demote-moderator", 1 <<< 19, .moderator⟩,
   ⟨"manage-users.promote-trusted-user", 1 <<< 20, .trustedUser⟩,
   ⟨"manage-users.demote-trusted-user", 1 <<< 21, .trustedUser⟩,
   ⟨"configure-room.other", 1 <<< 22, .unregisteredUser⟩,
   ⟨"playback.speed", 1 <<< 23, .unregisteredUser⟩,
   ⟨"manage-users.kick", 1 <<< 24, .trustedUser⟩,
   ⟨"manage-queue.play-now", 1 <<< 25, .unregisteredUser⟩,
   ⟨"manage-queue.edit", 1 <<< 26, .unregisteredUser⟩]

/-- `s.startsWith(start)`, on the UTF-8 encodings: an encoding is a prefix of another exactly if the
string is. -/
def startsWith (s start : String) : Bool :=
  start.toByteArray.data.toList.isPrefixOf s.toByteArray.data.toList

/-- `key.startsWith(perm) || perm === "*"`. -/
def Permission.namedBy (p : Permission) (perm : PermissionName) : Bool :=
  startsWith p.name perm || perm = "*"

/-- The mask of every permission that one of the strings names. -/
def parseIntoGrantMask (perms : List PermissionName) : GrantMask :=
  perms.foldl (fun mask perm =>
    permissions.foldl (fun mask p => if p.namedBy perm then mask ||| p.mask else mask) mask) 0

/-- The mask of the permissions a role may have at all. -/
def getValidationMask (role : Role) : GrantMask :=
  match (permissions.filter (fun p => p.minRole.toInt ≤ role.toInt)).map (·.mask) with
  | [] => parseIntoGrantMask ["*"]
  | m :: ms => ms.foldl (· ||| ·) m

/-! ## Grants -/

/-- The permission masks of a room's roles. -/
structure Grants where
  masks : OrderedMap Role GrantMask
  deriving DecidableEq

namespace Grants

/-- No masks at all: where `setAllGrants` starts. -/
def cleared : Grants := ⟨∅⟩

/-- `undefined` for a role that has none. -/
def getMask (g : Grants) (role : Role) : Option GrantMask := g.masks.get? role

/-- Every role up to `Administrator` gets what the roles below it have. -/
def processInheiritance (g : Grants) : Grants :=
  (Role.ladder.foldl (fun acc role =>
    let fullmask := acc.1 ||| (acc.2.getMask role).getD 0
    (fullmask, ⟨acc.2.masks.set role fullmask⟩)) ((0 : GrantMask), g)).2

/-- `setRoleGrants` with a mask. Every `Role` is a valid role, so nothing is thrown. -/
def setRoleGrants (g : Grants) (role : Role) (mask : GrantMask) : Grants :=
  processInheiritance ⟨g.masks.set role (mask &&& getValidationMask role)⟩

/-- `setAllGrants` with a map: empty masks are passed over. -/
def setAllGrants (grants : OrderedMap Role GrantMask) : Grants :=
  grants.entries.foldl (fun g e => if e.2 = 0 then g else g.setRoleGrants e.1 e.2) cleared

/-- `setAllGrants` with an object: its keys come in ascending order, the owner's last. -/
def setAllGrantsOf (grants : Role → List PermissionName) : Grants :=
  (Role.ladder ++ [Role.owner]).foldl
    (fun g role => g.setRoleGrants role (parseIntoGrantMask (grants role))) cleared

/-- The constructor's last two lines: administrators and the owner have all permissions. -/
def withFullRoles (g : Grants) : Grants :=
  (g.setRoleGrants .administrator (parseIntoGrantMask ["*"])).setRoleGrants .owner
    (parseIntoGrantMask ["*"])

/-- `defaultPermissions`. -/
def defaultPermissions : Grants :=
  withFullRoles (setAllGrantsOf (fun
    | .unregisteredUser =>
      ["playback", "manage-queue", "chat", "configure-room.set-title",
       "configure-room.set-description", "configure-room.set-visibility",
       "configure-room.set-queue-mode", "configure-room.other"]
    | .registeredUser => []
    | .trustedUser => []
    | .moderator =>
      ["manage-users.promote-trusted-user", "manage-users.demote-trusted-user",
       "manage-users.kick"]
    | .administrator => ["*"]
    | .owner => ["*"]))

/-- `new Grants(masks)`. -/
def ofMasks (masks : OrderedMap Role GrantMask) : Grants := withFullRoles (setAllGrants masks)

/-- `new Grants()`. -/
def new : Grants := ofMasks defaultPermissions.masks

/-- Whether the role has every permission the string names. -/
def granted (g : Grants) (role : Role) (permission : PermissionName) : Bool :=
  let checkmask := parseIntoGrantMask [permission]
  ((g.getMask role).getD 0 &&& checkmask) = checkmask

def getRoles (g : Grants) : List Role := g.masks.keys

def isEmpty (g : Grants) : Bool := g.masks.size = 0

def deleteRole (g : Grants) (role : Role) : Grants := ⟨g.masks.erase role⟩

end Grants

end OpenTogetherTube.Common
