import Mathlib.Algebra.GroupWithZero.Nat
import OpenTogetherTube.Lib.Table

/-!
# The table of users

A row is validated by the model before it is written, and the database refuses a second row with the
very same username or email. The three ways to look a user up are in `getUser`: one string is
compared with the emails as it is and with the usernames up to case.

What is not code of the repository is in `Packages`: the function `lower` of the database, the checks
of email addresses, and argon2. The database may find any row that meets the condition of a query;
here it is the first one, and the order of the rows is arbitrary.
-/

namespace OpenTogetherTube.Server.Accounts

open OpenTogetherTube.Lib

abbrev Buffer := List UInt8

structure User where
  id : Nat
  username : String
  email : Option String
  salt : Option Buffer
  hash : Option Buffer
  discordId : Option String
  deriving DecidableEq, Repr

structure Conf where
  enableRegistration : Bool
  development : Bool
  deriving DecidableEq, Repr

structure Packages where
  lower : String → String
  /-- `isEmail` of the model's validation. -/
  isEmail : String → Bool
  /-- `email()` of the schemas. -/
  zodEmail : String → Bool
  /-- Hash, salt and password. It throws where the hash is malformed. -/
  verify : Buffer → Buffer → String → Option Bool
  needsRehash : Buffer → Bool

/-- Why nothing, or nothing more, was written. -/
inductive Refusal where
  | featureDisabled
  | badPassword
  | lengthOutOfRange
  | missingArgument
  | usernameTaken
  | emailAlreadyInUse
  | validation
  | uniqueConstraint
  | currentPasswordRequired
  | invalidPassword
  | unknown
  deriving DecidableEq, Repr

/-! ## Strings of JavaScript -/

/-- A string that is there and not empty. -/
def truthy (s : Option String) : Bool := s.any (fun s => s ≠ "")

/-- `length`: in code units. -/
def codeUnits (s : List Char) : Nat := (s.map (fun c => if c.toNat < 0x10000 then 1 else 2)).sum

/-- What `.` matches. -/
def dot (c : Char) : Bool := c ≠ '\n' && c ≠ '\r' && c.toNat ≠ 0x2028 && c.toNat ≠ 0x2029

/-- The five expressions look no further than the end of the first line. -/
def isPasswordValid (conf : Conf) (password : String) : Bool :=
  let line := password.toList.takeWhile dot
  let conditions := [line.any Char.isLower, line.any Char.isUpper, line.any Char.isDigit,
    line.any (fun c => "!@#$%^&*".toList.contains c)]
  (conf.development && password = "1") ||
    (2 ≤ conditions.countP id && 8 ≤ codeUnits line)

def USERNAME_LENGTH_MAX : Nat := 48

/-! ## The model -/

/-- A field of a row that is new, or that is not what it was when the row was read. -/
def changed {α : Type} [DecidableEq α] (field : User → α) (old : Option User) (u : User) : Bool :=
  old.map field ≠ some (field u)

/-- A name needs a password, unless there is a Discord account. -/
def User.ensureCredentials (u : User) : Bool :=
  (u.username ≠ "" && u.hash.isSome && u.salt.isSome) || truthy u.discordId

/-- The fields that changed are validated, and the credentials. A salt has 128 bytes. -/
def User.validates (pkg : Packages) (old : Option User) (u : User) : Bool :=
  (!changed User.username old u || (1 ≤ u.username.length && u.username.length ≤ 255)) &&
    (!changed User.email old u || u.email.all pkg.isEmail) && u.ensureCredentials

/-- Rows, and the id of the next one. -/
structure Users where
  table : Table User.id
  nextId : Nat
  below : ∀ u ∈ table, u.id < nextId

namespace Users

instance : Membership User Users := ⟨fun users u => u ∈ users.table⟩

instance (u : User) (users : Users) : Decidable (u ∈ users) :=
  inferInstanceAs (Decidable (u ∈ users.table.rows))

def empty : Users := ⟨.empty, 1, fun _ hu => absurd hu Table.not_mem_empty⟩

def findOne (users : Users) (p : User → Bool) : Option User := users.table.rows.find? p

/-- The unique columns. -/
def conflicts (users : Users) (old : Option User) (u : User) : Bool :=
  users.table.rows.any (fun v => v.id ≠ u.id &&
    (changed User.username old u && v.username = u.username ||
      changed User.email old u && u.email.isSome && v.email = u.email))

/-- A row with the next id. -/
def add (users : Users) (u : User) : Users where
  table := users.table.insert { u with id := users.nextId }
    (fun v hv => Nat.ne_of_lt (users.below v hv))
  nextId := users.nextId + 1
  below := by
    intro v hv
    rcases Table.mem_insert.mp hv with hold | rfl
    · exact Nat.lt_succ_of_lt (users.below v hold)
    · exact Nat.lt_succ_self _

def replace (users : Users) (u : User) : Users where
  table := users.table.replace u
  nextId := users.nextId
  below := by
    intro v hv
    obtain ⟨w, hw, rfl⟩ := Table.mem_update.mp hv
    have hlt := users.below w hw
    split
    · next hid => exact of_decide_eq_true hid ▸ hlt
    · exact hlt

def destroy (users : Users) (u : User) : Users where
  table := users.table.delete (fun v => v.id = u.id)
  nextId := users.nextId
  below := fun v hv => users.below v (Table.mem_delete.mp hv).1

/-- `UserModel.create`. -/
def create (pkg : Packages) (users : Users) (u : User) : Except Refusal Users :=
  let row := { u with id := users.nextId }
  if !row.validates pkg none then .error .validation
  else if users.conflicts none row then .error .uniqueConstraint
  else .ok (users.add u)

/-- `user.save()`, of a row that was read as `old`. There is no query where nothing has changed. -/
def save (pkg : Packages) (users : Users) (old u : User) : Except Refusal Users :=
  if !u.validates pkg old then .error .validation
  else if u = old then .ok users
  else if users.conflicts old u then .error .uniqueConstraint
  else .ok (users.replace u)

end Users

/-- The row, with the columns in which `u` is not what was read. -/
def User.merge (old u row : User) : User where
  id := row.id
  username := if u.username = old.username then row.username else u.username
  email := if u.email = old.email then row.email else u.email
  salt := if u.salt = old.salt then row.salt else u.salt
  hash := if u.hash = old.hash then row.hash else u.hash
  discordId := if u.discordId = old.discordId then row.discordId else u.discordId

@[simp] theorem User.merge_id (old u row : User) : (User.merge old u row).id = row.id := rfl

namespace Users

/-- An update by id. -/
def updateColumns (users : Users) (old u : User) : Users where
  table := users.table.update (fun v => v.id = u.id) (User.merge old u)
    (fun row _ => User.merge_id old u row)
  nextId := users.nextId
  below := by
    intro v hv
    obtain ⟨w, hw, rfl⟩ := Table.mem_update.mp hv
    have hlt := users.below w hw
    split <;> exact hlt

/-- `user.save()`, where the row may have been written since `old` was read: only the columns that
have changed are sent. -/
def saveColumns (pkg : Packages) (users : Users) (old u : User) : Except Refusal Users :=
  if !u.validates pkg old then .error .validation
  else if u = old then .ok users
  else if users.conflicts old u then .error .uniqueConstraint
  else .ok (users.updateColumns old u)

end Users

/-! ## Looking users up -/

/-- What `getUser` is asked for. -/
structure UserQuery where
  user : Option String
  id : Option Nat
  discordId : Option String
  deriving DecidableEq, Repr

inductive LookupError where
  | invalidParameters
  | userNotFound
  deriving DecidableEq, Repr

/-- An email is compared as it is, a username up to case. -/
def User.named (pkg : Packages) (s : String) (u : User) : Bool :=
  u.email = some s || pkg.lower u.username = pkg.lower s

/-- The condition of the query, if there is one. -/
def UserQuery.condition (pkg : Packages) (query : UserQuery) : Option (User → Bool) :=
  match query.user.filter (fun s => s ≠ ""), query.id.filter (fun id => id ≠ 0),
    query.discordId.filter (fun d => d ≠ "") with
  | some s, _, _ => some (User.named pkg s)
  | none, some id, _ => some (fun u => u.id = id)
  | none, none, some d => some (fun u => u.discordId = some d)
  | none, none, none => none

def getUser (pkg : Packages) (users : Users) (query : UserQuery) : Except LookupError User :=
  match query.condition pkg with
  | none => .error .invalidParameters
  | some p =>
    match users.findOne p with
    | none => .error .userNotFound
    | some u => .ok u

def isUsernameTaken (users : Users) (username : String) : Bool :=
  (users.findOne (fun u => u.username = username)).isSome

def isEmailTaken (users : Users) (email : String) : Bool :=
  (users.findOne (fun u => u.email = some email)).isSome

/-- Nobody has an empty Discord id, and asking for one is an error. -/
theorem getUser_discordId (pkg : Packages) (users : Users) (discordId : String) :
    (getUser pkg users ⟨none, none, some discordId⟩).toOption =
      if discordId = "" then none else users.findOne (fun u => u.discordId = some discordId) := by
  unfold getUser UserQuery.condition
  by_cases hempty : discordId = ""
  · rw [if_pos hempty, hempty]
    rfl
  · have hfilter : (some discordId).filter (fun d => decide (d ≠ "")) = some discordId :=
      if_pos (decide_eq_true hempty)
    rw [if_neg hempty, hfilter]
    cases hfound : users.findOne (fun u => u.discordId = some discordId) with
    | none => simp [hfound, Except.toOption]
    | some u => simp [hfound, Except.toOption]

/-- Whoever is found is in the table, and meets the condition. -/
theorem mem_of_getUser {pkg : Packages} {users : Users} {query : UserQuery} {u : User}
    (h : (getUser pkg users query).toOption = some u) :
    u ∈ users ∧ ∃ p ∈ query.condition pkg, p u = true := by
  unfold getUser at h
  cases hp : query.condition pkg with
  | none =>
    rw [hp] at h
    cases h
  | some p =>
    rw [hp] at h
    dsimp only at h
    cases hfound : users.findOne p with
    | none =>
      rw [hfound] at h
      cases h
    | some v =>
      rw [hfound] at h
      cases h
      exact ⟨List.mem_of_find?_eq_some hfound, p, rfl, List.find?_some hfound⟩

theorem isUsernameTaken_eq_false_iff {users : Users} {username : String} :
    isUsernameTaken users username = false ↔ ∀ v ∈ users, v.username ≠ username := by
  unfold isUsernameTaken Users.findOne
  rw [Option.isSome_eq_false_iff, Option.isNone_iff_eq_none, List.find?_eq_none]
  simp only [decide_eq_true_eq]
  rfl

theorem isEmailTaken_eq_false_iff {users : Users} {email : String} :
    isEmailTaken users email = false ↔ ∀ v ∈ users, v.email ≠ some email := by
  unfold isEmailTaken Users.findOne
  rw [Option.isSome_eq_false_iff, Option.isNone_iff_eq_none, List.find?_eq_none]
  simp only [decide_eq_true_eq]
  rfl

/-! ## What is in the table afterwards -/

namespace Users

variable {users users' : Users} {u v : User}

theorem writes_add : Table.Writes users.table (users.add u).table { u with id := users.nextId } :=
  Table.writes_insert (h := fun v hv => Nat.ne_of_lt (users.below v hv))

@[simp] theorem mem_destroy : v ∈ users.destroy u ↔ v ∈ users ∧ v.id ≠ u.id := by
  show v ∈ users.table.delete _ ↔ _
  rw [Table.mem_delete, decide_eq_false_iff_not]
  rfl

theorem mem_of_findOne {p : User → Bool} (h : users.findOne p = some u) : u ∈ users ∧ p u = true :=
  ⟨List.mem_of_find?_eq_some h, List.find?_some h⟩

theorem eq_of_id (hu : u ∈ users) (hv : v ∈ users) (h : u.id = v.id) : u = v :=
  Table.eq_of_key hu hv h

/-- What has been checked not to be taken is no conflict. -/
theorem conflicts_eq_false {old : Option User}
    (hname : changed User.username old u = true → isUsernameTaken users u.username = false)
    (hemail : changed User.email old u = true → ∀ e ∈ u.email, isEmailTaken users e = false) :
    users.conflicts old u = false := by
  unfold conflicts
  rw [List.any_eq_false]
  intro v hv hconflict
  rw [Bool.and_eq_true, Bool.or_eq_true, Bool.and_eq_true, Bool.and_eq_true,
    Bool.and_eq_true] at hconflict
  rcases hconflict.2 with ⟨hchanged, hsame⟩ | ⟨⟨hchanged, hsome⟩, hsame⟩
  · exact isUsernameTaken_eq_false_iff.mp (hname hchanged) v hv (of_decide_eq_true hsame)
  · obtain ⟨e, he⟩ := Option.isSome_iff_exists.mp hsome
    exact isEmailTaken_eq_false_iff.mp (hemail hchanged e he) v hv
      ((of_decide_eq_true hsame).trans he)

theorem create_ok {pkg : Packages}
    (hvalid : User.validates pkg none { u with id := users.nextId } = true)
    (hunique : users.conflicts none { u with id := users.nextId } = false) :
    users.create pkg u = .ok (users.add u) := by
  unfold create
  dsimp only
  rw [hvalid, hunique]
  rfl

theorem create_eq_ok {pkg : Packages} (h : users.create pkg u = .ok users') :
    User.validates pkg none { u with id := users.nextId } = true ∧
      users.conflicts none { u with id := users.nextId } = false := by
  unfold create at h
  dsimp only at h
  split at h
  · cases h
  · next hvalid =>
    split at h
    · cases h
    · next hunique =>
      exact ⟨by simpa using hvalid, by simpa using hunique⟩

/-- The database does not let a new row have a name that is taken. -/
theorem isUsernameTaken_of_conflicts
    (h : users.conflicts none { u with id := users.nextId } = false) :
    isUsernameTaken users u.username = false := by
  rw [isUsernameTaken_eq_false_iff]
  intro v hv hsame
  have hid : v.id ≠ users.nextId := Nat.ne_of_lt (users.below v hv)
  exact List.any_eq_false.mp h v hv (by simp [changed, hid, hsame])

/-- **A row that is saved is written**, whether there is a query or not. -/
theorem save_ok {pkg : Packages} {old : User} (hold : old ∈ users) (hid : u.id = old.id)
    (hvalid : u.validates pkg old = true) (hunique : users.conflicts old u = false) :
    ∃ users', users.save pkg old u = .ok users' ∧ Table.Writes users.table users'.table u := by
  unfold save
  rw [hvalid, hunique]
  by_cases hsame : u = old
  · exact ⟨users, if_pos hsame, Table.writes_self (hsame ▸ hold)⟩
  · exact ⟨users.replace u, if_neg hsame, Table.writes_replace ⟨old, hold, hid.symm⟩⟩

/-- The email of another row is not written. -/
theorem ne_of_conflicts {old : User} (h : users.conflicts old u = false) {e : String}
    (he : u.email = some e) (hne : old.email ≠ some e) (hv : v ∈ users) (hid : v.id ≠ u.id) :
    v.email ≠ some e := by
  intro hsame
  have hchanged : changed User.email (some old) u = true := by
    simp [changed, he, hne]
  exact List.any_eq_false.mp h v hv (by simp [hid, hchanged, he, hsame])

@[simp] theorem mem_updateColumns {old : User} : v ∈ users.updateColumns old u ↔
    ∃ w ∈ users, (if w.id = u.id then User.merge old u w else w) = v := by
  show v ∈ (users.updateColumns old u).table ↔ _
  rw [updateColumns, Table.mem_update]
  simp only [decide_eq_true_eq]
  rfl

theorem writes_updateColumns {old : User} (hv : v ∈ users) (hid : v.id = u.id) :
    Table.Writes users.table (users.updateColumns old u).table (User.merge old u v) := by
  intro w
  refine Iff.trans mem_updateColumns ?_
  constructor
  · rintro ⟨w', hw', rfl⟩
    split
    · next hid' =>
      rw [eq_of_id hw' hv (hid'.trans hid.symm)]
      exact .inl rfl
    · next hne => exact .inr ⟨hw', fun heq => hne (heq.trans hid)⟩
  · rintro (rfl | ⟨hw, hne⟩)
    · exact ⟨v, hv, if_pos hid⟩
    · exact ⟨w, hw, if_neg (fun heq => hne (heq.trans hid.symm))⟩

theorem updateColumns_eq_self {old : User} (h : ∀ v ∈ users, v.id ≠ u.id) :
    (users.updateColumns old u).table = users.table :=
  Table.update_eq_self (h := fun row _ => User.merge_id old u row)
    (fun v hv hid => absurd (of_decide_eq_true hid) (h v hv))

theorem saveColumns_eq_ok {pkg : Packages} {old : User}
    (h : users.saveColumns pkg old u = .ok users') :
    users' = users ∧ u = old ∨
      users' = users.updateColumns old u ∧ users.conflicts old u = false := by
  unfold saveColumns at h
  split at h
  · cases h
  · split at h
    · next hsame =>
      cases h
      exact .inl ⟨rfl, hsame⟩
    · split at h
      · cases h
      · next hunique =>
        cases h
        exact .inr ⟨rfl, by simpa using hunique⟩

end Users

/-- ASCII letters are folded, every address is accepted, and no password is right. -/
def examplePackages : Packages where
  lower s := String.ofList (s.toList.map Char.toLower)
  isEmail _ := true
  zodEmail _ := true
  verify _ _ _ := some false
  needsRehash _ := false

end OpenTogetherTube.Server.Accounts
