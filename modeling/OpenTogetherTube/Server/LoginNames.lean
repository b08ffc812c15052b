import OpenTogetherTube.Lib.Machine
import OpenTogetherTube.Server.Accounts

/-!
# What a user logs in as

A user logs in, and recovers a password, with a string that is the email of their account, or the
username up to case. Four requests write these two columns: a registration, a login with a Discord
account that nobody has, a change of username, and a change of email. Before they do, the new name is
compared with the usernames and the new email with the emails, exactly.

`Unambiguous` is what login needs. `Keeps` is what a request would have to check: the new name is, up
to case, nobody's username or email, and the new email is, up to case, nobody's username.
`unambiguous_throughout_iff` says that names stay unambiguous in a run if and only if that is so for
each request that is not refused.

Each request is executed alone. A salt, a hash and a generated name are drawn by the request.
-/

namespace OpenTogetherTube.Server.Accounts

open OpenTogetherTube.Lib

/-! ## Registering -/

structure Registration where
  email : Option String
  username : String
  password : String
  salt : Buffer
  hash : Buffer
  deriving DecidableEq, Repr

/-- An email that is empty is none. -/
def Registration.address (r : Registration) : Option String := r.email.filter (fun e => e ≠ "")

def Registration.row (r : Registration) (id : Nat) : User :=
  ⟨id, r.username, r.address, some r.salt, some r.hash, none⟩

/-- A user of Discord. -/
structure Profile where
  id : String
  discriminator : Option String
  globalName : Option String
  username : String
  deriving DecidableEq, Repr

def buildUsernameFromDiscordProfile (profile : Profile) : String :=
  if profile.discriminator = some "0" then
    (profile.globalName.filter (fun name => name ≠ "")).getD profile.username
  else profile.username ++ "#" ++ profile.discriminator.getD "undefined"

section Requests

variable (conf : Conf) (pkg : Packages) (users : Users)

def registerUser (r : Registration) : Except Refusal Users :=
  if !conf.enableRegistration then .error .featureDisabled
  else if !isPasswordValid conf r.password then .error .badPassword
  else if codeUnits r.username.toList > USERNAME_LENGTH_MAX then .error .lengthOutOfRange
  else if isUsernameTaken users r.username then .error .usernameTaken
  else if r.address.any (isEmailTaken users) then .error .emailAlreadyInUse
  else users.create pkg (r.row users.nextId)

def socialRow (username discordId : String) (id : Nat) : User :=
  ⟨id, username, none, none, none, some discordId⟩

def registerUserSocial (username discordId : String) : Except Refusal Users :=
  if !conf.enableRegistration then .error .featureDisabled
  else users.create pkg (socialRow username discordId users.nextId)

/-- The name that a new account gets. -/
def discordName (profile : Profile) (generated : String) : String :=
  if isUsernameTaken users (buildUsernameFromDiscordProfile profile) then generated
  else buildUsernameFromDiscordProfile profile

/-- `authCallbackDiscord`, where nobody is logged in. -/
def authCallbackDiscord (profile : Profile) (generated : String) : Except Refusal Users :=
  match getUser pkg users ⟨none, none, some profile.id⟩ with
  | .ok _ => .ok users
  | .error _ => registerUserSocial conf pkg users (discordName users profile generated) profile.id

/-! ## Changing an account -/

/-- `POST /user`, of a user who is logged in. -/
def changeUsername (user : User) (username : String) : Except Refusal Users :=
  if username = "" then .error .missingArgument
  else if codeUnits username.toList > USERNAME_LENGTH_MAX then .error .lengthOutOfRange
  else if isUsernameTaken users username then .error .usernameTaken
  else
    match users.save pkg user { user with username := username } with
    | .error .uniqueConstraint => .error .usernameTaken
    | .error _ => .error .unknown
    | .ok users' => .ok users'

structure AccountUpdate where
  email : Option String
  currentPassword : Option String
  newPassword : Option String
  /-- What the current password is hashed to again, if it is. -/
  rehashed : Buffer
  salt : Buffer
  hash : Buffer
  deriving DecidableEq, Repr

/-- `OttApiRequestAccountUpdateSchema`. -/
def AccountUpdate.parses (update : AccountUpdate) : Bool :=
  update.email.all (fun e => pkg.zodEmail e && 3 ≤ codeUnits e.toList) &&
    (update.email.isSome || update.newPassword.isSome)

/-- The user with the new email. -/
def AccountUpdate.edit (update : AccountUpdate) (user : User) : User :=
  { user with email := update.email.or user.email }

def User.renewHash (u : User) (hash : Buffer) : User := { u with hash := some hash }

def User.setPassword (u : User) (salt hash : Buffer) : User :=
  { u with hash := some hash, salt := some salt }

/-- The table, the row as it is there, the user, and whether the password is right. `user` was read as
`old`, and a hash that is out of date is replaced. -/
def verifyUserPassword (old user : User) (password : String) (rehashed : Buffer) :
    Users × User × User × Except Refusal Bool :=
  match user.hash, user.salt with
  | some hash, some salt =>
    match pkg.verify hash salt password with
    | none => (users, old, user, .error .unknown)
    | some false => (users, old, user, .ok false)
    | some true =>
      if pkg.needsRehash hash then
        match users.save pkg old (user.renewHash rehashed) with
        | .error refusal => (users, old, user.renewHash rehashed, .error refusal)
        | .ok users' => (users', user.renewHash rehashed, user.renewHash rehashed, .ok true)
      else (users, old, user, .ok true)
  | _, _ => (users, old, user, .ok false)

def changeUserPassword (old user : User) (newPassword : String) (salt hash : Buffer) :
    Except Refusal Users :=
  if !isPasswordValid conf newPassword then .error .badPassword
  else users.save pkg old (user.setPassword salt hash)

/-- A result, with the table as it is. -/
def written (result : Except Refusal Users) : Users × Except Refusal Unit :=
  match result with
  | .ok users' => (users', .ok ())
  | .error refusal => (users, .error refusal)

/-- A new password, where the current one has to be given. -/
def replacePassword (user edited : User) (update : AccountUpdate)
    (currentPassword newPassword : String) : Users × Except Refusal Unit :=
  match verifyUserPassword pkg users user edited currentPassword update.rehashed with
  | (users', _, _, .error refusal) => (users', .error refusal)
  | (users', _, _, .ok false) => (users', .error .invalidPassword)
  | (users', old, edited', .ok true) =>
    written users' (changeUserPassword conf pkg users' old edited' newPassword update.salt
      update.hash)

def patchAccount (user : User) (update : AccountUpdate) : Users × Except Refusal Unit :=
  if !update.parses pkg then (users, .error .validation)
  else if update.email.any (fun e => user.email ≠ some e && isEmailTaken users e) then
    (users, .error .emailAlreadyInUse)
  else
    let edited := update.edit user
    match update.newPassword with
    | none => written users (users.save pkg user edited)
    | some newPassword =>
      if edited.hash.isSome || edited.salt.isSome then
        match update.currentPassword.filter (fun p => p ≠ "") with
        | none => (users, .error .currentPasswordRequired)
        | some currentPassword =>
          replacePassword conf pkg users user edited update currentPassword newPassword
      else
        written users (changeUserPassword conf pkg users user edited newPassword update.salt
          update.hash)

/-- Requests, with the id of the user who makes them where there is one. -/
inductive Request where
  | register (r : Registration)
  | discord (profile : Profile) (generated : String)
  | changeUsername (id : Nat) (username : String)
  | patchAccount (id : Nat) (update : AccountUpdate)
  deriving DecidableEq, Repr

/-- `deserializeUser`. -/
def currentUser (id : Nat) : Option User := (getUser pkg users ⟨none, some id, none⟩).toOption

/-- The table after a request. -/
def handle : Request → Users
  | .register r => (registerUser conf pkg users r).toOption.getD users
  | .discord profile generated =>
    (authCallbackDiscord conf pkg users profile generated).toOption.getD users
  | .changeUsername id username =>
    match currentUser pkg users id with
    | none => users
    | some user => (changeUsername pkg users user username).toOption.getD users
  | .patchAccount id update =>
    match currentUser pkg users id with
    | none => users
    | some user => (patchAccount conf pkg users user update).1

def system : Machine Users Request := ⟨fun users request => some (handle conf pkg users request)⟩

/-! ## The specification -/

/-- `getUser({ user: s })` may find `u`. -/
def Matches (s : String) (u : User) : Prop :=
  ∃ p ∈ UserQuery.condition pkg ⟨some s, none, none⟩, p u = true

/-- **The purpose**: a string is what at most one user logs in as. -/
def Unambiguous : Prop :=
  ∀ s, ∀ u ∈ users, ∀ v ∈ users, Matches pkg s u → Matches pkg s v → u = v

/-- Up to case, the name is no other account's username or email. -/
def FreeName (id : Nat) (username : String) : Prop :=
  ∀ v ∈ users, v.id ≠ id → pkg.lower v.username ≠ pkg.lower username ∧
    ∀ e ∈ v.email, pkg.lower e ≠ pkg.lower username

/-- Up to case, the email is no other account's username. -/
def FreeEmail (id : Nat) (email : String) : Prop :=
  ∀ v ∈ users, v.id ≠ id → pkg.lower v.username ≠ pkg.lower email

/-- A registration is not refused. -/
def Registers (r : Registration) : Prop :=
  conf.enableRegistration = true ∧ isPasswordValid conf r.password = true ∧
    codeUnits r.username.toList ≤ USERNAME_LENGTH_MAX ∧
    isUsernameTaken users r.username = false ∧
    (∀ e ∈ r.address, isEmailTaken users e = false) ∧
    (r.row users.nextId).validates pkg none = true

/-- Nobody has the Discord account, and a new account is not refused. -/
def RegistersSocial (profile : Profile) (generated : String) : Prop :=
  (getUser pkg users ⟨none, none, some profile.id⟩).toOption = none ∧
    conf.enableRegistration = true ∧
    (socialRow (discordName users profile generated) profile.id users.nextId).validates pkg none =
      true ∧
    isUsernameTaken users (discordName users profile generated) = false

/-- A change of username is not refused. -/
def Renames (user : User) (username : String) : Prop :=
  username ≠ "" ∧ codeUnits username.toList ≤ USERNAME_LENGTH_MAX ∧
    isUsernameTaken users username = false ∧
    User.validates pkg user { user with username := username } = true

/-- The current password is right, and either the hash is renewed, which saves the email, or the new
password is accepted. -/
def Authenticates (user : User) (update : AccountUpdate) (currentPassword newPassword : String) :
    Prop :=
  ∃ hash ∈ user.hash, ∃ salt ∈ user.salt, pkg.verify hash salt currentPassword = some true ∧
    if pkg.needsRehash hash then
      ((update.edit user).renewHash update.rehashed).validates pkg user = true
    else isPasswordValid conf newPassword = true ∧
      ((update.edit user).setPassword update.salt update.hash).validates pkg user = true

/-- An update of an account is written, also if it is refused in the end. -/
def Updates (user : User) (update : AccountUpdate) : Prop :=
  update.parses pkg = true ∧
    (∀ e ∈ update.email, user.email ≠ some e → isEmailTaken users e = false) ∧
    match update.newPassword with
    | none => (update.edit user).validates pkg user = true
    | some newPassword =>
      if user.hash.isSome || user.salt.isSome then
        ∃ currentPassword ∈ update.currentPassword, currentPassword ≠ "" ∧
          Authenticates conf pkg user update currentPassword newPassword
      else isPasswordValid conf newPassword = true ∧
        ((update.edit user).setPassword update.salt update.hash).validates pkg user = true

/-- A request that is not refused brings in no name or email of somebody else. -/
def Keeps : Request → Prop
  | .register r => Registers conf pkg users r →
    FreeName pkg users users.nextId r.username ∧
      ∀ e ∈ r.address, FreeEmail pkg users users.nextId e
  | .discord profile generated => RegistersSocial conf pkg users profile generated →
    FreeName pkg users users.nextId (discordName users profile generated)
  | .changeUsername id username => ∀ user ∈ currentUser pkg users id,
    Renames pkg users user username → FreeName pkg users id username
  | .patchAccount id update => ∀ user ∈ currentUser pkg users id,
    Updates conf pkg users user update → ∀ e ∈ update.email, FreeEmail pkg users id e

end Requests

/-! ## What a row that is written changes -/

section Names

variable {pkg : Packages} {users users' : Users} {u v w : User} {s : String}

/-- Names are not empty. -/
def User.WellNamed (u : User) : Prop := u.username ≠ "" ∧ u.email ≠ some ""

/-- Nobody else logs in with the name or the email. -/
structure Clear (pkg : Packages) (users : Users) (w : User) : Prop where
  name : FreeName pkg users w.id w.username
  email : ∀ e ∈ w.email, FreeEmail pkg users w.id e
  exact : ∀ e ∈ w.email, ∀ v ∈ users, v.id ≠ w.id → v.email ≠ some e

theorem matches_iff : Matches pkg s u ↔
    s ≠ "" ∧ (u.email = some s ∨ pkg.lower u.username = pkg.lower s) := by
  unfold Matches UserQuery.condition
  by_cases hempty : s = ""
  · rw [hempty]
    refine iff_of_false ?_ (fun h => h.1 rfl)
    rintro ⟨p, hp, -⟩
    cases hp
  · have hfilter : (some s).filter (fun s => decide (s ≠ "")) = some s :=
      if_pos (decide_eq_true hempty)
    rw [hfilter]
    simp [User.named, hempty]

/-- Two users who do not log in as the same. -/
theorem not_matches_both_iff (hu : u.WellNamed) (hv : v.WellNamed) :
    (∀ s, ¬ (Matches pkg s u ∧ Matches pkg s v)) ↔
      (pkg.lower v.username ≠ pkg.lower u.username ∧
        ∀ e ∈ v.email, pkg.lower e ≠ pkg.lower u.username) ∧
      ∀ e ∈ u.email, pkg.lower v.username ≠ pkg.lower e ∧ v.email ≠ some e := by
  have hnonempty : ∀ {w : User}, w.WellNamed → ∀ e ∈ w.email, e ≠ "" := by
    rintro w hw e he rfl
    exact hw.2 he
  constructor
  · intro h
    refine ⟨⟨fun heq => ?_, fun e he heq => ?_⟩, fun e he => ⟨fun heq => ?_, fun heq => ?_⟩⟩
    · exact h u.username ⟨matches_iff.mpr ⟨hu.1, .inr rfl⟩, matches_iff.mpr ⟨hu.1, .inr heq⟩⟩
    · have hne := hnonempty hv e he
      exact h e ⟨matches_iff.mpr ⟨hne, .inr heq.symm⟩, matches_iff.mpr ⟨hne, .inl he⟩⟩
    · have hne := hnonempty hu e he
      exact h e ⟨matches_iff.mpr ⟨hne, .inl he⟩, matches_iff.mpr ⟨hne, .inr heq⟩⟩
    · have hne := hnonempty hu e he
      exact h e ⟨matches_iff.mpr ⟨hne, .inl he⟩, matches_iff.mpr ⟨hne, .inl heq⟩⟩
  · rintro ⟨⟨hname, hother⟩, hemail⟩ s ⟨hsu, hsv⟩
    rcases (matches_iff.mp hsu).2 with hsu | hsu
    · rcases (matches_iff.mp hsv).2 with hsv | hsv
      · exact (hemail s hsu).2 hsv
      · exact (hemail s hsu).1 hsv
    · rcases (matches_iff.mp hsv).2 with hsv | hsv
      · exact hother s hsv hsu.symm
      · exact hname (hsv.trans hsu.symm)

theorem unambiguous_iff_separated : Unambiguous pkg users ↔
    users.table.Separated (fun u v => ∀ s, ¬ (Matches pkg s u ∧ Matches pkg s v)) := by
  constructor
  · intro h u hu v hv hne s hboth
    exact hne (congrArg User.id (h s u hu v hv hboth.1 hboth.2))
  · intro h s u hu v hv hsu hsv
    by_contra hne
    exact h u hu v hv (fun hid => hne (Users.eq_of_id hu hv hid)) s ⟨hsu, hsv⟩

/-- **The row that is written decides.** -/
theorem unambiguous_iff_clear (hwrite : Table.Writes users.table users'.table w)
    (h : Unambiguous pkg users) (hnamed : ∀ v ∈ users, v.WellNamed) (hw : w.WellNamed) :
    Unambiguous pkg users' ↔ Clear pkg users w := by
  rw [unambiguous_iff_separated, hwrite.separated_iff (fun _ _ hR s hboth => hR s hboth.symm)
    (unambiguous_iff_separated.mp h)]
  constructor
  · intro hapart
    have hpair : ∀ v ∈ users, v.id ≠ w.id → _ := fun v hv hne =>
      (not_matches_both_iff hw (hnamed v hv)).mp (hapart v hv hne)
    exact ⟨fun v hv hne => (hpair v hv hne).1, fun e he v hv hne => ((hpair v hv hne).2 e he).1,
      fun e he v hv hne => ((hpair v hv hne).2 e he).2⟩
  · intro hclear v hv hne
    exact (not_matches_both_iff hw (hnamed v hv)).mpr ⟨hclear.name v hv hne,
      fun e he => ⟨hclear.email e he v hv hne, hclear.exact e he v hv hne⟩⟩

/-- So it is with a row that is there already. -/
theorem Unambiguous.clear (h : Unambiguous pkg users) (hnamed : ∀ v ∈ users, v.WellNamed)
    (hu : u ∈ users) : Clear pkg users u :=
  (unambiguous_iff_clear (Table.writes_self hu) h hnamed (hnamed u hu)).mp h

end Names

/-! ## What each request writes -/

section Written

variable {conf : Conf} {pkg : Packages} {users users' : Users} {user : User} {r : Registration}
  {profile : Profile} {generated username : String} {update : AccountUpdate} {id : Nat}

theorem registerUser_ok (h : Registers conf pkg users r) :
    registerUser conf pkg users r = .ok (users.add (r.row users.nextId)) := by
  obtain ⟨henabled, hpassword, hlength, hname, hemail, hvalid⟩ := h
  unfold registerUser
  rw [henabled, hpassword, hname, if_neg (by decide), if_neg (by decide),
    if_neg (Nat.not_lt.mpr hlength), if_neg (by decide), if_neg]
  · exact Users.create_ok hvalid (Users.conflicts_eq_false (fun _ => hname) (fun _ => hemail))
  · rw [Bool.not_eq_true, Option.any_eq_false]
    exact fun e he => by rw [hemail e he]

theorem registers_of_ok (h : registerUser conf pkg users r = .ok users') :
    Registers conf pkg users r := by
  unfold registerUser at h
  split_ifs at h with henabled hpassword hlength hname hemail
  refine ⟨by simpa using henabled, by simpa using hpassword, Nat.not_lt.mp hlength,
    by simpa using hname, fun e he => ?_, (Users.create_eq_ok h).1⟩
  rw [Bool.not_eq_true, Option.any_eq_false] at hemail
  simpa using hemail e he

theorem handle_register (conf : Conf) (pkg : Packages) (users : Users) (r : Registration) :
    (Registers conf pkg users r ∧ Table.Writes users.table
        (handle conf pkg users (.register r)).table (r.row users.nextId)) ∨
      (¬ Registers conf pkg users r ∧ handle conf pkg users (.register r) = users) := by
  unfold handle
  dsimp only
  by_cases h : Registers conf pkg users r
  · rw [registerUser_ok h]
    exact .inl ⟨h, Users.writes_add⟩
  · refine .inr ⟨h, ?_⟩
    cases hresult : registerUser conf pkg users r with
    | ok users' => exact absurd (registers_of_ok hresult) h
    | error refusal => rfl

theorem authCallbackDiscord_ok (h : RegistersSocial conf pkg users profile generated) :
    authCallbackDiscord conf pkg users profile generated =
      .ok (users.add (socialRow (discordName users profile generated) profile.id users.nextId)) := by
  obtain ⟨hfound, henabled, hvalid, hname⟩ := h
  unfold authCallbackDiscord
  cases hget : getUser pkg users ⟨none, none, some profile.id⟩ with
  | ok u =>
    rw [hget] at hfound
    cases hfound
  | error e =>
    unfold registerUserSocial
    dsimp only
    rw [henabled, if_neg (by decide)]
    exact Users.create_ok hvalid
      (Users.conflicts_eq_false (fun _ => hname) (fun _ e he => by cases he))

theorem registersSocial_of_ok (h : authCallbackDiscord conf pkg users profile generated = .ok users') :
    RegistersSocial conf pkg users profile generated ∨ users' = users := by
  unfold authCallbackDiscord at h
  split at h
  · cases h
    exact .inr rfl
  · next e hget =>
    unfold registerUserSocial at h
    split at h
    · cases h
    · next henabled =>
      obtain ⟨hvalid, hunique⟩ := Users.create_eq_ok h
      refine .inl ⟨by rw [hget]; rfl, by simpa using henabled, hvalid,
        Users.isUsernameTaken_of_conflicts hunique⟩

theorem handle_discord (conf : Conf) (pkg : Packages) (users : Users) (profile : Profile)
    (generated : String) :
    (RegistersSocial conf pkg users profile generated ∧ Table.Writes users.table
        (handle conf pkg users (.discord profile generated)).table
        (socialRow (discordName users profile generated) profile.id users.nextId)) ∨
      (¬ RegistersSocial conf pkg users profile generated ∧
        handle conf pkg users (.discord profile generated) = users) := by
  unfold handle
  dsimp only
  by_cases h : RegistersSocial conf pkg users profile generated
  · rw [authCallbackDiscord_ok h]
    exact .inl ⟨h, Users.writes_add⟩
  · refine .inr ⟨h, ?_⟩
    cases hresult : authCallbackDiscord conf pkg users profile generated with
    | ok users' => exact (registersSocial_of_ok hresult).resolve_left h
    | error refusal => rfl

/-- A row that is saved is written, if it is valid. -/
theorem written_save {old u : User} (hold : old ∈ users) (hid : u.id = old.id)
    (hunique : users.conflicts old u = false) :
    (u.validates pkg old = true ∧
        Table.Writes users.table (written users (users.save pkg old u)).1.table u) ∨
      (¬ u.validates pkg old = true ∧ (written users (users.save pkg old u)).1 = users) := by
  by_cases hvalid : u.validates pkg old = true
  · obtain ⟨users', hsave, hwrite⟩ := Users.save_ok hold hid hvalid hunique
    rw [hsave]
    exact .inl ⟨hvalid, hwrite⟩
  · refine .inr ⟨hvalid, ?_⟩
    unfold Users.save
    rw [if_pos (by simpa using hvalid)]
    rfl

theorem handle_changeUsername (conf : Conf) (username : String)
    (hcurrent : currentUser pkg users id = some user) (hu : user ∈ users) :
    (Renames pkg users user username ∧ Table.Writes users.table
        (handle conf pkg users (.changeUsername id username)).table
        { user with username := username }) ∨
      (¬ Renames pkg users user username ∧
        handle conf pkg users (.changeUsername id username) = users) := by
  unfold handle changeUsername
  dsimp only
  rw [hcurrent]
  dsimp only
  by_cases hchecks : username ≠ "" ∧ codeUnits username.toList ≤ USERNAME_LENGTH_MAX ∧
      isUsernameTaken users username = false
  · obtain ⟨hgiven, hlength, hname⟩ := hchecks
    have hunique : users.conflicts user { user with username := username } = false :=
      Users.conflicts_eq_false (fun _ => hname)
        (fun hchanged => absurd rfl (of_decide_eq_true hchanged))
    rw [if_neg hgiven, if_neg (Nat.not_lt.mpr hlength), if_neg (by rw [hname]; decide)]
    by_cases hvalid : User.validates pkg user { user with username := username } = true
    · obtain ⟨users', hsave, hwrite⟩ := Users.save_ok
        (u := { user with username := username }) hu rfl hvalid hunique
      rw [hsave]
      exact .inl ⟨⟨hgiven, hlength, hname, hvalid⟩, hwrite⟩
    · refine .inr ⟨fun h => hvalid h.2.2.2, ?_⟩
      unfold Users.save
      rw [if_pos (by simpa using hvalid)]
      rfl
  · refine .inr ⟨fun h => hchecks ⟨h.1, h.2.1, h.2.2.1⟩, ?_⟩
    split_ifs with hgiven hlength hname
    · rfl
    · rfl
    · rfl
    · exact absurd ⟨hgiven, Nat.not_lt.mp hlength, by simpa using hname⟩ hchecks

/-! ### An update of an account -/

/-- The rows that an update writes have the id and the name of the user, and the new email. -/
def Edits (user : User) (update : AccountUpdate) (w : User) : Prop :=
  w.id = user.id ∧ w.username = user.username ∧ w.email = (update.edit user).email

theorem edits_edit : Edits user update (update.edit user) := ⟨rfl, rfl, rfl⟩

theorem Edits.renewHash {w : User} (h : Edits user update w) (hash : Buffer) :
    Edits user update (w.renewHash hash) := h

theorem Edits.setPassword {w : User} (h : Edits user update w) (salt hash : Buffer) :
    Edits user update (w.setPassword salt hash) := h

theorem conflicts_edit {w : User} (hw : Edits user update w)
    (hemail : ∀ e ∈ update.email, user.email ≠ some e → isEmailTaken users e = false) :
    users.conflicts user w = false := by
  obtain ⟨-, hname, hedit⟩ := hw
  apply Users.conflicts_eq_false
  · intro hchanged
    exact absurd (congrArg some hname.symm) (of_decide_eq_true hchanged)
  · intro hchanged e he
    have hne : some user.email ≠ some w.email := of_decide_eq_true hchanged
    rw [Option.mem_def, hedit] at he
    rw [hedit] at hne
    unfold AccountUpdate.edit at he hne
    cases hnew : update.email with
    | none =>
      rw [hnew] at hne
      exact absurd rfl hne
    | some e' =>
      rw [hnew] at he hne
      cases he
      exact hemail e hnew (fun heq => hne (by rw [heq]; rfl))

/-- A new password is saved, if it is accepted. -/
theorem written_changeUserPassword (conf : Conf) (pkg : Packages) (newPassword : String)
    (salt hash : Buffer) {old u : User} (hold : old ∈ users) (hid : u.id = old.id)
    (hunique : users.conflicts old (u.setPassword salt hash) = false) :
    ((isPasswordValid conf newPassword = true ∧
          (u.setPassword salt hash).validates pkg old = true) ∧
        Table.Writes users.table
          (written users (changeUserPassword conf pkg users old u newPassword salt hash)).1.table
          (u.setPassword salt hash)) ∨
      (¬ (isPasswordValid conf newPassword = true ∧
          (u.setPassword salt hash).validates pkg old = true) ∧
        (written users (changeUserPassword conf pkg users old u newPassword salt hash)).1 =
          users) := by
  unfold changeUserPassword
  by_cases hpassword : isPasswordValid conf newPassword = true
  · rw [if_neg (by rw [hpassword]; decide)]
    rcases written_save (u := u.setPassword salt hash) hold hid hunique with
      ⟨hvalid, hwrite⟩ | ⟨hinvalid, hsame⟩
    · exact .inl ⟨⟨hpassword, hvalid⟩, hwrite⟩
    · exact .inr ⟨fun h => hinvalid h.2, hsame⟩
  · rw [if_pos (by simpa using hpassword)]
    exact .inr ⟨fun h => hpassword h.1, rfl⟩

theorem verifyUserPassword_right (users : Users) (old : User) {u : User} {password : String}
    (rehashed : Buffer) {hash salt : Buffer} (hhash : u.hash = some hash)
    (hsalt : u.salt = some salt) (hverify : pkg.verify hash salt password = some true) :
    verifyUserPassword pkg users old u password rehashed =
      if pkg.needsRehash hash then
        match users.save pkg old (u.renewHash rehashed) with
        | .error refusal => (users, old, u.renewHash rehashed, .error refusal)
        | .ok users' => (users', u.renewHash rehashed, u.renewHash rehashed, .ok true)
      else (users, old, u, .ok true) := by
  unfold verifyUserPassword
  rw [hhash, hsalt]
  dsimp only
  rw [hverify]

/-- Nothing is written for a password that is not right. -/
theorem replacePassword_wrong {currentPassword newPassword : String} {edited : User}
    (hwrong : ¬ ∃ hash ∈ edited.hash, ∃ salt ∈ edited.salt,
      pkg.verify hash salt currentPassword = some true) :
    (replacePassword conf pkg users user edited update currentPassword newPassword).1 = users := by
  unfold replacePassword verifyUserPassword
  cases hhash : edited.hash with
  | none => rfl
  | some hash =>
    cases hsalt : edited.salt with
    | none => rfl
    | some salt =>
      dsimp only
      cases hverify : pkg.verify hash salt currentPassword with
      | none => rfl
      | some right =>
        cases right with
        | false => rfl
        | true => exact absurd ⟨hash, hhash, salt, hsalt, hverify⟩ hwrong

/-- The row with the hash that is renewed, or with the new password. -/
theorem replacePassword_writes {currentPassword newPassword : String} (hu : user ∈ users)
    (hemail : ∀ e ∈ update.email, user.email ≠ some e → isEmailTaken users e = false) :
    (Authenticates conf pkg user update currentPassword newPassword ∧
        ∃ w, Edits user update w ∧ Table.Writes users.table (replacePassword conf pkg users user
          (update.edit user) update currentPassword newPassword).1.table w) ∨
      (¬ Authenticates conf pkg user update currentPassword newPassword ∧
        (replacePassword conf pkg users user (update.edit user) update currentPassword
          newPassword).1 = users) := by
  by_cases hright : ∃ hash ∈ user.hash, ∃ salt ∈ user.salt,
      pkg.verify hash salt currentPassword = some true
  · obtain ⟨hash, hhash, salt, hsalt, hverify⟩ := hright
    have haccepted : Authenticates conf pkg user update currentPassword newPassword ↔
        if pkg.needsRehash hash then
          ((update.edit user).renewHash update.rehashed).validates pkg user = true
        else isPasswordValid conf newPassword = true ∧
          ((update.edit user).setPassword update.salt update.hash).validates pkg user = true := by
      unfold Authenticates
      rw [hhash, hsalt]
      simp [hverify]
    have hresult := verifyUserPassword_right users user (u := update.edit user) update.rehashed
      hhash hsalt hverify
    rw [haccepted]
    unfold replacePassword
    rw [hresult]
    by_cases hrehash : pkg.needsRehash hash = true
    · rw [if_pos hrehash, if_pos hrehash]
      by_cases hvalid : ((update.edit user).renewHash update.rehashed).validates pkg user = true
      · obtain ⟨users', hsave, hwrite⟩ := Users.save_ok
          (u := (update.edit user).renewHash update.rehashed) hu rfl hvalid
          (conflicts_edit (edits_edit.renewHash _) hemail)
        rw [hsave]
        refine .inl ⟨hvalid, ?_⟩
        -- the email is saved, also if the new password is refused
        dsimp only
        rcases written_changeUserPassword conf pkg newPassword update.salt update.hash
          ((hwrite _).mpr (.inl rfl)) rfl
          (Users.conflicts_eq_false (fun h => absurd rfl (of_decide_eq_true h))
            (fun h => absurd rfl (of_decide_eq_true h))) with ⟨-, hwrite'⟩ | ⟨-, hsame⟩
        · exact ⟨_, (edits_edit.renewHash _).setPassword _ _, hwrite.trans hwrite' rfl⟩
        · rw [hsame]
          exact ⟨_, edits_edit.renewHash _, hwrite⟩
      · refine .inr ⟨hvalid, ?_⟩
        unfold Users.save
        rw [if_pos (by simpa using hvalid)]
    · rw [if_neg hrehash, if_neg hrehash]
      rcases written_changeUserPassword conf pkg newPassword update.salt update.hash hu
        (u := update.edit user) rfl (conflicts_edit (edits_edit.setPassword _ _) hemail) with
        ⟨haccepted, hwrite⟩ | ⟨hrefused, hsame⟩
      · exact .inl ⟨haccepted, _, edits_edit.setPassword _ _, hwrite⟩
      · exact .inr ⟨hrefused, hsame⟩
  · refine .inr ⟨?_, replacePassword_wrong hright⟩
    rintro ⟨hash, hhash, salt, hsalt, hverify, -⟩
    exact hright ⟨hash, hhash, salt, hsalt, hverify⟩

theorem handle_patchAccount (conf : Conf) (update : AccountUpdate)
    (hcurrent : currentUser pkg users id = some user) (hu : user ∈ users) :
    (Updates conf pkg users user update ∧ ∃ w, Edits user update w ∧ Table.Writes users.table
        (handle conf pkg users (.patchAccount id update)).table w) ∨
      (¬ Updates conf pkg users user update ∧
        handle conf pkg users (.patchAccount id update) = users) := by
  unfold handle
  dsimp only
  rw [hcurrent]
  unfold Updates patchAccount
  by_cases hparses : update.parses pkg = true
  · by_cases hemail : ∀ e ∈ update.email, user.email ≠ some e → isEmailTaken users e = false
    · have htaken : ¬ update.email.any
          (fun e => user.email ≠ some e && isEmailTaken users e) = true := by
        rw [Bool.not_eq_true, Option.any_eq_false]
        intro e he
        by_cases hsame : user.email = some e
        · simp [hsame]
        · simp [hemail e he hsame]
      have hrest : ∀ {P : Prop}, (update.parses pkg = true ∧
          (∀ e ∈ update.email, user.email ≠ some e → isEmailTaken users e = false) ∧ P) ↔ P :=
        ⟨fun h => h.2.2, fun h => ⟨hparses, hemail, h⟩⟩
      rw [hrest, hparses]
      dsimp only
      rw [if_neg (by decide), if_neg htaken]
      cases hnew : update.newPassword with
      | none =>
        rcases written_save (u := update.edit user) hu rfl (conflicts_edit edits_edit hemail) with
          ⟨hvalid, hwrite⟩ | ⟨hinvalid, hsame⟩
        · exact .inl ⟨hvalid, _, edits_edit, hwrite⟩
        · exact .inr ⟨hinvalid, hsame⟩
      | some newPassword =>
        dsimp only
        rw [show (update.edit user).hash = user.hash from rfl,
          show (update.edit user).salt = user.salt from rfl]
        by_cases hlocal : (user.hash.isSome || user.salt.isSome) = true
        · rw [if_pos hlocal, if_pos hlocal]
          cases hcurrentPassword : update.currentPassword.filter (fun p => p ≠ "") with
          | none =>
            refine .inr ⟨?_, rfl⟩
            rintro ⟨p, hp, hne, -⟩
            rw [Option.filter_eq_none_iff] at hcurrentPassword
            exact hcurrentPassword p hp (decide_eq_true hne)
          | some currentPassword =>
            obtain ⟨hgiven, hne⟩ := Option.filter_eq_some_iff.mp hcurrentPassword
            have hchecked : (∃ p ∈ update.currentPassword, p ≠ "" ∧
                Authenticates conf pkg user update p newPassword) ↔
                Authenticates conf pkg user update currentPassword newPassword := by
              rw [hgiven]
              simpa using fun _ => of_decide_eq_true hne
            rw [hchecked]
            exact replacePassword_writes hu hemail
        · rw [if_neg hlocal, if_neg hlocal]
          rcases written_changeUserPassword conf pkg newPassword update.salt update.hash hu
            (u := update.edit user) rfl (conflicts_edit (edits_edit.setPassword _ _) hemail) with
            ⟨haccepted, hwrite⟩ | ⟨hrefused, hsame⟩
          · exact .inl ⟨haccepted, _, edits_edit.setPassword _ _, hwrite⟩
          · exact .inr ⟨hrefused, hsame⟩
    · refine .inr ⟨fun h => hemail h.2.1, ?_⟩
      have htaken : update.email.any
          (fun e => user.email ≠ some e && isEmailTaken users e) = true := by
        simp only [not_forall] at hemail
        obtain ⟨e, he, hne, htaken⟩ := hemail
        rw [Option.any_eq_true]
        exact ⟨e, he, by simpa [hne] using htaken⟩
      dsimp only
      rw [hparses, if_neg (by decide), if_pos htaken]
  · refine .inr ⟨fun h => hparses h.1, ?_⟩
    dsimp only
    rw [if_pos (by simpa using hparses)]

end Written

/-! ## Requests one after the other -/

section Run

variable {conf : Conf} {pkg : Packages} {users : Users} {user u : User} {id : Nat}

theorem mem_of_currentUser (h : currentUser pkg users id = some user) :
    user ∈ users ∧ user.id = id := by
  obtain ⟨hu, p, hp, hcondition⟩ := mem_of_getUser h
  refine ⟨hu, ?_⟩
  unfold UserQuery.condition at hp
  by_cases hid : id = 0
  · rw [hid] at hp
    cases hp
  · have hfilter : (some id).filter (fun id => decide (id ≠ 0)) = some id :=
      if_pos (decide_eq_true hid)
    rw [hfilter] at hp
    cases hp
    exact of_decide_eq_true hcondition

/-- A name that is new is validated. -/
theorem username_ne_empty_of_validates (h : u.validates pkg none = true) : u.username ≠ "" := by
  intro hempty
  unfold User.validates at h
  rw [hempty] at h
  revert h
  simp [changed]

/-- The email decides whether an update goes with the other rows. -/
theorem clear_edit_iff {update : AccountUpdate} {w : User} (hclear : Clear pkg users user)
    (hw : Edits user update w)
    (hemail : ∀ e ∈ update.email, user.email ≠ some e → isEmailTaken users e = false) :
    Clear pkg users w ↔ ∀ e ∈ update.email, FreeEmail pkg users user.id e := by
  obtain ⟨hid, hname, hedit⟩ := hw
  have hnew : ∀ e ∈ update.email, w.email = some e := by
    intro e he
    rw [hedit, AccountUpdate.edit, Option.mem_def.mp he]
    rfl
  constructor
  · intro h e he
    exact hid ▸ h.email e (hnew e he)
  · intro hfree
    refine ⟨by rw [hid, hname]; exact hclear.name, ?_, ?_⟩
    · intro e he
      rw [hid]
      cases hgiven : update.email with
      | none => exact hclear.email e (by rwa [hedit, AccountUpdate.edit, hgiven] at he)
      | some e' =>
        cases (hnew e' hgiven).symm.trans he
        exact hfree e hgiven
    · intro e he v hv hne
      rw [hid] at hne
      by_cases hold : user.email = some e
      · exact hclear.exact e hold v hv hne
      · cases hgiven : update.email with
        | none => exact absurd (by rwa [hedit, AccountUpdate.edit, hgiven] at he) hold
        | some e' =>
          cases (hnew e' hgiven).symm.trans he
          exact isEmailTaken_eq_false_iff.mp (hemail e hgiven hold) v hv

theorem wellNamed_edit {update : AccountUpdate} {w : User} (hu : user.WellNamed)
    (hw : Edits user update w) (hparses : update.parses pkg = true) : w.WellNamed := by
  obtain ⟨-, hname, hedit⟩ := hw
  refine ⟨by rw [hname]; exact hu.1, ?_⟩
  rw [hedit, AccountUpdate.edit]
  cases hgiven : update.email with
  | none => exact hu.2
  | some e =>
    rintro heq
    cases heq
    unfold AccountUpdate.parses at hparses
    rw [hgiven] at hparses
    revert hparses
    simp [codeUnits]

/-- **What a request does to the table**: it writes a row that may go with the others, or may not, or
it writes none. -/
theorem handle_cases (conf : Conf) (hnamed : ∀ v ∈ users, v.WellNamed) (request : Request) :
    (∃ w : User, w.WellNamed ∧
        Table.Writes users.table (handle conf pkg users request).table w ∧
        (Unambiguous pkg users → (Clear pkg users w ↔ Keeps conf pkg users request))) ∨
      (handle conf pkg users request = users ∧ Keeps conf pkg users request) := by
  cases request with
  | register r =>
    rcases handle_register conf pkg users r with
      ⟨haccepted, hwrite⟩ | ⟨hrefused, hsame⟩
    · obtain ⟨-, -, -, -, hemail, hvalid⟩ := id haccepted
      refine .inl ⟨_, ⟨username_ne_empty_of_validates hvalid, ?_⟩, hwrite, ?_⟩
      · intro hempty
        exact absurd rfl (of_decide_eq_true (Option.filter_eq_some_iff.mp hempty).2)
      · refine fun _ => ⟨fun hclear _ => ⟨hclear.name, hclear.email⟩, ?_⟩
        · intro hkeeps
          obtain ⟨hname, hfree⟩ := hkeeps haccepted
          exact ⟨hname, hfree, fun e he v hv _ => isEmailTaken_eq_false_iff.mp (hemail e he) v hv⟩
    · exact .inr ⟨hsame, fun haccepted => absurd haccepted hrefused⟩
  | discord profile generated =>
    rcases handle_discord conf pkg users profile generated with
      ⟨haccepted, hwrite⟩ | ⟨hrefused, hsame⟩
    · have hvalid := haccepted.2.2.1
      refine .inl ⟨_, ⟨username_ne_empty_of_validates hvalid, by simp [socialRow]⟩, hwrite, ?_⟩
      refine fun _ => ⟨fun hclear _ => hclear.name, ?_⟩
      · intro hkeeps
        exact ⟨hkeeps haccepted, fun e he => (by cases he), fun e he => (by cases he)⟩
    · exact .inr ⟨hsame, fun haccepted => absurd haccepted hrefused⟩
  | changeUsername id username =>
    cases hcurrent : currentUser pkg users id with
    | none =>
      refine .inr ⟨?_, fun user huser => ?_⟩
      · unfold handle
        dsimp only
        rw [hcurrent]
      · rw [hcurrent] at huser
        cases huser
    | some user =>
      obtain ⟨hu, rfl⟩ := mem_of_currentUser hcurrent
      have hcurrent' : ∀ {P : User → Prop}, (∀ u ∈ currentUser pkg users user.id, P u) ↔ P user := by
        simp [hcurrent]
      rcases handle_changeUsername conf username hcurrent hu with
        ⟨haccepted, hwrite⟩ | ⟨hrefused, hsame⟩
      · refine .inl ⟨{ user with username := username }, ⟨haccepted.1, (hnamed user hu).2⟩, hwrite, fun h => ?_⟩
        have hclear := h.clear hnamed hu
        show _ ↔ ∀ u ∈ currentUser pkg users user.id, _
        rw [hcurrent']
        exact ⟨fun hw _ => hw.name, fun hkeeps => ⟨hkeeps haccepted, hclear.email, hclear.exact⟩⟩
      · refine .inr ⟨hsame, ?_⟩
        show ∀ u ∈ currentUser pkg users user.id, _
        rw [hcurrent']
        exact fun haccepted => absurd haccepted hrefused
  | patchAccount id update =>
    cases hcurrent : currentUser pkg users id with
    | none =>
      refine .inr ⟨?_, fun user huser => ?_⟩
      · unfold handle
        dsimp only
        rw [hcurrent]
      · rw [hcurrent] at huser
        cases huser
    | some user =>
      obtain ⟨hu, rfl⟩ := mem_of_currentUser hcurrent
      have hcurrent' : ∀ {P : User → Prop}, (∀ u ∈ currentUser pkg users user.id, P u) ↔ P user := by
        simp [hcurrent]
      rcases handle_patchAccount conf update hcurrent hu with
        ⟨haccepted, w, hw, hwrite⟩ | ⟨hrefused, hsame⟩
      · obtain ⟨hparses, hemail, -⟩ := id haccepted
        refine .inl ⟨w, wellNamed_edit (hnamed user hu) hw hparses, hwrite, fun h => ?_⟩
        show _ ↔ ∀ u ∈ currentUser pkg users user.id, _
        rw [hcurrent', clear_edit_iff (h.clear hnamed hu) hw hemail]
        exact ⟨fun hfree _ => hfree, fun hkeeps => hkeeps haccepted⟩
      · refine .inr ⟨hsame, ?_⟩
        show ∀ u ∈ currentUser pkg users user.id, _
        rw [hcurrent']
        exact fun haccepted => absurd haccepted hrefused

theorem handle_wellNamed (conf : Conf) (hnamed : ∀ v ∈ users, v.WellNamed) (request : Request) :
    ∀ v ∈ handle conf pkg users request, v.WellNamed := by
  rcases handle_cases conf hnamed request with ⟨w, hw, hwrite, -⟩ | ⟨hsame, -⟩
  · intro v hv
    rcases (hwrite v).mp hv with rfl | ⟨hold, -⟩
    · exact hw
    · exact hnamed v hold
  · rw [hsame]
    exact hnamed

/-- **One request.** -/
theorem handle_unambiguous_iff (conf : Conf) (h : Unambiguous pkg users)
    (hnamed : ∀ v ∈ users, v.WellNamed) (request : Request) :
    Unambiguous pkg (handle conf pkg users request) ↔ Keeps conf pkg users request := by
  rcases handle_cases conf hnamed request with ⟨w, hw, hwrite, hkeeps⟩ | ⟨hsame, hkeeps⟩
  · rw [unambiguous_iff_clear hwrite h hnamed hw, hkeeps h]
  · rw [hsame]
    exact iff_of_true h hkeeps

end Run

/-- **Names stay unambiguous in a run if and only if** each request that is not refused brings in a
name that is free, and an email that is free. -/
theorem unambiguous_throughout_iff (conf : Conf) (pkg : Packages) (requests : List Request) :
    (system conf pkg).Always (Unambiguous pkg) Users.empty requests ↔
      (system conf pkg).Along (Keeps conf pkg) Users.empty requests := by
  refine Machine.always_iff_along_of_step (I := fun users => ∀ v ∈ users, v.WellNamed) ?_ ?_ ?_ ?_
  · intro users request users' hnamed hstep
    cases hstep
    exact handle_wellNamed conf hnamed request
  · intro users request users' hnamed h hstep
    cases hstep
    exact handle_unambiguous_iff conf h hnamed request
  · exact fun v hv => absurd hv Table.not_mem_empty
  · exact fun s u hu => absurd hu Table.not_mem_empty

/-- Alice has an email. -/
def aliceRegisters : Registration := ⟨some "alice@example.org", "alice", "correct horse 1", [1], [2]⟩

/-- Somebody else is called what she logs in with. -/
def impostorRegisters : Registration := ⟨none, "alice@example.org", "correct horse 2", [3], [4]⟩

/-- **Two users log in as one string**: the username of one is the email of the other. -/
theorem not_unambiguous_throughout :
    ¬ ∀ (conf : Conf) (pkg : Packages) (requests : List Request),
      (system conf pkg).Always (Unambiguous pkg) Users.empty requests := by
  intro h
  have hrun := h ⟨true, false⟩ examplePackages [.register aliceRegisters, .register impostorRegisters]
  have hend := (hrun.2 _ rfl).2 _ rfl
  have hsame := hend "alice@example.org" (aliceRegisters.row 1) (by decide +kernel)
    (impostorRegisters.row 2) (by decide +kernel) (matches_iff.mpr ⟨by decide, .inl rfl⟩)
    (matches_iff.mpr ⟨by decide, .inr rfl⟩)
  exact absurd (congrArg User.id hsame) (by decide)

end OpenTogetherTube.Server.Accounts
