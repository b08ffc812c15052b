import OpenTogetherTube.Lib.Tasks
import OpenTogetherTube.Server.LoginNames

/-!
# Recovering an account

A recovery key is drawn for an account and stored under the email of the account. Whoever has the key
sets a new password for the account that has the email by then, and the key is deleted.

A segment ends where redis or the database is asked, and the answer says whether the query was carried
out. Hashing has no segment of its own, since it touches nothing that is shared; where it fails, the
query behind it is not carried out. Keys, salts and hashes are drawn by the request.
-/

namespace OpenTogetherTube.Server.Recovery

open OpenTogetherTube.Lib Accounts

/-- The configuration. -/
structure Settings where
  conf : Conf
  pkg : Packages
  rateLimitEnabled : Bool
  mailEnabled : Bool

/-! ## Requests -/

/-- How `/recover/start` names the account. -/
inductive Identity where
  | email (email : String)
  | username (username : String)
  deriving DecidableEq, Repr

def Identity.user : Identity → String
  | .email e => e
  | .username name => name

structure StartRequest where
  identity : Identity
  verificationKey : String
  deriving DecidableEq, Repr

/-- `OttApiRequestAccountRecoveryStartSchema`. -/
def StartRequest.parses (pkg : Packages) (r : StartRequest) : Bool :=
  match r.identity with
  | .email email => pkg.zodEmail email && 3 ≤ codeUnits email.toList
  | .username _ => true

structure VerifyRequest where
  verifyKey : String
  newPassword : String
  token : Option String
  salt : Buffer
  hash : Buffer
  deriving DecidableEq, Repr

inductive Request where
  | start (r : StartRequest)
  | verify (r : VerifyRequest)
  | patchAccount (id : Nat) (update : AccountUpdate)
  deriving DecidableEq, Repr

inductive RequestError where
  | tooManyRequests
  | validation
  | lookup (e : LookupError)
  | noEmail
  | featureDisabled
  | mailer
  | invalidVerifyKey
  | notLoggedIn
  | refused (refusal : Refusal)
  | unknown
  deriving DecidableEq, Repr

abbrev Response := Except RequestError Unit

/-- A request, and what was sent for it. -/
structure Finished where
  request : Request
  response : Response

/-- The table, what redis has under `accountrecovery:` and a key, and the user of a token. -/
structure State where
  users : Users
  keys : String → Option String
  sessions : String → Option Nat

namespace State

def setEx (s : State) (key email : String) : State :=
  { s with keys := Function.update s.keys key (some email) }

def del (s : State) (key : String) : State :=
  { s with keys := Function.update s.keys key none }

def setSessionInfo (s : State) (token : String) (id : Nat) : State :=
  { s with sessions := Function.update s.sessions token (some id) }

def withUsers (s : State) (users : Users) : State := { s with users := users }

theorem keys_del_self (s : State) (key : String) : (s.del key).keys key = none :=
  Function.update_self _ _ _

/-- Whatever is deleted, a key is what it was, or gone. -/
theorem keys_del (s : State) (key key' : String) :
    (s.del key).keys key' = s.keys key' ∨ (s.del key).keys key' = none := by
  by_cases heq : key' = key
  · exact .inr (heq ▸ s.keys_del_self key)
  · exact .inl (Function.update_of_ne heq _ _)

end State

/-! ## Segments -/

/-- What a request waits for. `limited` says that the rate limiter has refused it. -/
inductive Task where
  -- `accountRecoveryStart`
  | startConsume (r : StartRequest)
  | startLookUp (limited : Bool) (r : StartRequest)
  | startSetEx (limited : Bool) (r : StartRequest) (user : User) (email : String)
  | startSend (limited : Bool) (r : StartRequest)
  -- `accountRecoveryVerify`
  | verifyConsume (r : VerifyRequest)
  | verifyGet (limited : Bool) (r : VerifyRequest)
  | verifyLookUp (limited : Bool) (r : VerifyRequest) (accountEmail : String)
  | verifySave (limited : Bool) (r : VerifyRequest) (user : User)
  | verifyDel (limited : Bool) (r : VerifyRequest) (user : User)
  | verifySession (limited : Bool) (r : VerifyRequest) (user : User) (token : String)
  | verifyReward (limited : Bool) (r : VerifyRequest)
  -- `patchAccount`, of `deserializeUser` first
  | patchLoad (id : Nat) (update : AccountUpdate)
  | patchConsume (user : User) (update : AccountUpdate)
  | patchCheck (user : User) (update : AccountUpdate) (email : String)
  | patchRehash (old user : User) (update : AccountUpdate) (newPassword : String)
  | patchSave (old user : User) (update : AccountUpdate)
  deriving DecidableEq, Repr

/-- How a query settles. -/
inductive Answer where
  | done
  /-- It is carried out, and the answer gets lost. -/
  | lost
  /-- It is not carried out. -/
  | failed
  /-- There are no points left. -/
  | refused
  deriving DecidableEq, Repr

abbrev Segment := Option (State × Progress Task Finished)

/-- A query that leaves `s'`. -/
def settle (x : Answer) (s s' : State) (next failure : Progress Task Finished) : Segment :=
  match x with
  | .done => some (s', next)
  | .lost => some (s', failure)
  | .failed => some (s, failure)
  | .refused => none

/-- `consumeRateLimitPoints`. -/
def consumeRateLimitPoints (x : Answer) (s : State) (next : Bool → Progress Task Finished)
    (failure : Progress Task Finished) : Segment :=
  match x with
  | .done => some (s, next false)
  | .refused => some (s, next true)
  | .lost | .failed => some (s, failure)

/-- What is sent first counts. -/
def respond (limited : Bool) (response : Response) : Response :=
  if limited then .error .tooManyRequests else response

def finish (request : Request) (response : Response) : Progress Task Finished :=
  .done ⟨request, response⟩

section Segments

variable (cfg : Settings) (s : State)

/-! ### `accountRecoveryStart` -/

def StartRequest.finish (limited : Bool) (r : StartRequest) (response : Response) :
    Progress Task Finished :=
  Recovery.finish (.start r) (respond limited response)

def accountRecoveryStart (r : StartRequest) : Progress Task Finished :=
  if !r.parses cfg.pkg then r.finish false (.error .validation)
  else if cfg.rateLimitEnabled then .waiting (.startConsume r)
  else .waiting (.startLookUp false r)

/-- From where the user is looked up, to the query of `sendPasswordResetEmail`. -/
def startFound (limited : Bool) (r : StartRequest) : Progress Task Finished :=
  match getUser cfg.pkg s.users ⟨some r.identity.user, none, none⟩ with
  | .error e => r.finish limited (.error (.lookup e))
  | .ok user =>
    match user.email.filter (fun e => e ≠ "") with
    | none => r.finish limited (.error .noEmail)
    | some email =>
      if !cfg.mailEnabled then r.finish limited (.error .featureDisabled)
      else .waiting (.startSetEx limited r user email)

/-! ### `accountRecoveryVerify` -/

def VerifyRequest.finish (limited : Bool) (r : VerifyRequest) (response : Response) :
    Progress Task Finished :=
  Recovery.finish (.verify r) (respond limited response)

/-- It goes on, also where it is limited. -/
def verifyBegin (limited : Bool) (r : VerifyRequest) : Progress Task Finished :=
  if !isPasswordValid cfg.conf r.newPassword then
    r.finish limited (.error (.refused .badPassword))
  else .waiting (.verifyGet limited r)

def accountRecoveryVerify (r : VerifyRequest) : Progress Task Finished :=
  if cfg.rateLimitEnabled then .waiting (.verifyConsume r) else verifyBegin cfg false r

def verifyGot (limited : Bool) (r : VerifyRequest) : Progress Task Finished :=
  match (s.keys r.verifyKey).filter (fun e => e ≠ "") with
  | none => r.finish limited (.error .invalidVerifyKey)
  | some accountEmail => .waiting (.verifyLookUp limited r accountEmail)

def verifyFound (limited : Bool) (r : VerifyRequest) (accountEmail : String) :
    Progress Task Finished :=
  match s.users.findOne (fun u => u.email = some accountEmail) with
  | none => r.finish limited (.error (.lookup .userNotFound))
  | some user => .waiting (.verifySave limited r user)

/-- The user with the new password. -/
def VerifyRequest.edit (r : VerifyRequest) (user : User) : User := user.setPassword r.salt r.hash

/-- `changeUserPassword`, where the password was validated before. -/
def verifySaved (x : Answer) (limited : Bool) (r : VerifyRequest) (user : User) : Segment :=
  match s.users.saveColumns cfg.pkg user (r.edit user) with
  | .error refusal => settle x s s (r.finish limited (.error (.refused refusal)))
      (r.finish limited (.error .unknown))
  | .ok users' => settle x s (s.withUsers users') (.waiting (.verifyDel limited r user))
      (r.finish limited (.error .unknown))

/-- From where the session is set. -/
def verifyReward (limited : Bool) (r : VerifyRequest) : Progress Task Finished :=
  if cfg.rateLimitEnabled then .waiting (.verifyReward limited r) else r.finish limited (.ok ())

def verifyDeleted (limited : Bool) (r : VerifyRequest) (user : User) : Progress Task Finished :=
  match r.token with
  | some token => .waiting (.verifySession limited r user token)
  | none => verifyReward cfg limited r

/-! ### `patchAccount` -/

/-- A new password is set on the user, who was read as `old`. -/
def patchPassword (old user : User) (update : AccountUpdate) (newPassword : String) :
    Progress Task Finished :=
  if !isPasswordValid cfg.conf newPassword then
    finish (.patchAccount old.id update) (.error (.refused .badPassword))
  else .waiting (.patchSave old (user.setPassword update.salt update.hash) update)

/-- `verifyUserPassword`, and what follows. -/
def patchVerify (old user : User) (update : AccountUpdate) (currentPassword newPassword : String) :
    Progress Task Finished :=
  match user.hash, user.salt with
  | some hash, some salt =>
    match cfg.pkg.verify hash salt currentPassword with
    | none => finish (.patchAccount old.id update) (.error .unknown)
    | some false => finish (.patchAccount old.id update) (.error (.refused .invalidPassword))
    | some true =>
      if cfg.pkg.needsRehash hash then
        .waiting (.patchRehash old (user.renewHash update.rehashed) update newPassword)
      else patchPassword cfg old user update newPassword
  | _, _ => finish (.patchAccount old.id update) (.error (.refused .invalidPassword))

/-- From where the email is set on the user. -/
def patchEdited (user : User) (update : AccountUpdate) : Progress Task Finished :=
  let edited := update.edit user
  match update.newPassword with
  | none => .waiting (.patchSave user edited update)
  | some newPassword =>
    if edited.hash.isSome || edited.salt.isSome then
      match update.currentPassword.filter (fun p => p ≠ "") with
      | none => finish (.patchAccount user.id update) (.error (.refused .currentPasswordRequired))
      | some currentPassword => patchVerify cfg user edited update currentPassword newPassword
    else patchPassword cfg user edited update newPassword

def patchParsed (user : User) (update : AccountUpdate) : Progress Task Finished :=
  if !update.parses cfg.pkg then finish (.patchAccount user.id update) (.error .validation)
  else
    match update.email.filter (fun e => user.email ≠ some e) with
    | some email => .waiting (.patchCheck user update email)
    | none => patchEdited cfg user update

def patchLoaded (id : Nat) (update : AccountUpdate) : Progress Task Finished :=
  match currentUser cfg.pkg s.users id with
  | none => finish (.patchAccount id update) (.error .notLoggedIn)
  | some user =>
    if cfg.rateLimitEnabled then .waiting (.patchConsume user update)
    else patchParsed cfg user update

def patchChecked (user : User) (update : AccountUpdate) (email : String) : Progress Task Finished :=
  if isEmailTaken s.users email then
    finish (.patchAccount user.id update) (.error (.refused .emailAlreadyInUse))
  else patchEdited cfg user update

/-- `user.save()`, in a request for the account of `old`. -/
def patchSaved (x : Answer) (old user : User) (update : AccountUpdate)
    (next : Progress Task Finished) : Segment :=
  match s.users.saveColumns cfg.pkg old user with
  | .error refusal => settle x s s (finish (.patchAccount old.id update) (.error (.refused refusal)))
      (finish (.patchAccount old.id update) (.error .unknown))
  | .ok users' => settle x s (s.withUsers users') next
      (finish (.patchAccount old.id update) (.error .unknown))

/-! ### All of them -/

def start : Request → Progress Task Finished
  | .start r => accountRecoveryStart cfg r
  | .verify r => accountRecoveryVerify cfg r
  | .patchAccount id update => .waiting (.patchLoad id update)

def resume (task : Task) (x : Answer) : Segment :=
  match task with
  | .startConsume r =>
    consumeRateLimitPoints x s (fun limited => .waiting (.startLookUp limited r))
      (r.finish false (.error .unknown))
  | .startLookUp limited r =>
    settle x s s (startFound cfg s limited r) (r.finish limited (.error .unknown))
  | .startSetEx limited r _ email =>
    settle x s (s.setEx r.verificationKey email) (.waiting (.startSend limited r))
      (r.finish limited (.error .unknown))
  | .startSend limited r =>
    settle x s s (r.finish limited (.ok ())) (r.finish limited (.error .mailer))
  | .verifyConsume r =>
    consumeRateLimitPoints x s (fun limited => verifyBegin cfg limited r)
      (r.finish false (.error .unknown))
  | .verifyGet limited r =>
    settle x s s (verifyGot s limited r) (r.finish limited (.error .unknown))
  | .verifyLookUp limited r accountEmail =>
    settle x s s (verifyFound s limited r accountEmail) (r.finish limited (.error .unknown))
  | .verifySave limited r user => verifySaved cfg s x limited r user
  | .verifyDel limited r user =>
    settle x s (s.del r.verifyKey) (verifyDeleted cfg limited r user)
      (r.finish limited (.error .unknown))
  | .verifySession limited r user token =>
    settle x s (s.setSessionInfo token user.id) (verifyReward cfg limited r)
      (r.finish limited (.error .unknown))
  | .verifyReward limited r =>
    settle x s s (r.finish limited (.ok ())) (r.finish limited (.error .unknown))
  | .patchLoad id update =>
    settle x s s (patchLoaded cfg s id update)
      (finish (.patchAccount id update) (.error .notLoggedIn))
  | .patchConsume user update =>
    consumeRateLimitPoints x s
      (fun limited => if limited then finish (.patchAccount user.id update) (.error .tooManyRequests)
        else patchParsed cfg user update)
      (finish (.patchAccount user.id update) (.error .unknown))
  | .patchCheck user update email =>
    -- where the query fails, the email counts as free
    settle x s s (patchChecked cfg s user update email) (patchEdited cfg user update)
  | .patchRehash old user update newPassword =>
    patchSaved cfg s x old user update (patchPassword cfg user user update newPassword)
  | .patchSave old user update =>
    patchSaved cfg s x old user update (finish (.patchAccount old.id update) (.ok ()))

/-- The requests, and keys that expire. -/
def program : Program State Request Task Answer String Finished where
  start request s := (s, start cfg request)
  resume task x s := resume cfg s task x
  environment key s := some (s.del key)

end Segments

/-! ## What a task has -/

/-- The key of a request to verify one. -/
def Task.verifies : Task → Option String
  | .verifyConsume r | .verifyGet _ r | .verifyLookUp _ r _ | .verifySave _ r _ | .verifyDel _ r _
  | .verifySession _ r _ _ | .verifyReward _ r => some r.verifyKey
  | _ => none

/-- The key that the request has drawn. -/
def Task.draws : Task → Option String
  | .startConsume r | .startLookUp _ r | .startSetEx _ r _ _ | .startSend _ r =>
    some r.verificationKey
  | _ => none

/-- A key that was read and is not deleted yet. -/
def Task.holding : Task → Option String
  | .verifyLookUp _ r _ | .verifySave _ r _ | .verifyDel _ r _ => some r.verifyKey
  | _ => none

/-- The key that is read next. -/
def Task.gets : Task → Option String
  | .verifyGet _ r => some r.verifyKey
  | _ => none

/-- The key that is deleted next. -/
def Task.deletes : Task → Option String
  | .verifyDel _ r _ => some r.verifyKey
  | _ => none

/-- It belongs to a change of an account. -/
def Task.Patches : Task → Prop
  | .patchLoad _ _ | .patchConsume _ _ | .patchCheck _ _ _ | .patchRehash _ _ _ _
  | .patchSave _ _ _ => True
  | _ => False

theorem Task.Patches.draws {task : Task} (h : task.Patches) : task.draws = none := by
  cases task <;> first | rfl | exact h.elim

theorem Task.Patches.verifies {task : Task} (h : task.Patches) : task.verifies = none := by
  cases task <;> first | rfl | exact h.elim

/-- Only what was looked up is deleted. -/
theorem holding_of_deletes {task : Task} {key : String} (h : task.deletes = some key) :
    task.holding = some key := by
  cases task <;> first | exact h | cases h

theorem Task.Patches.gets {task : Task} (h : task.Patches) : task.gets = none := by
  cases task <;> first | rfl | exact h.elim

theorem Task.Patches.deletes {task : Task} (h : task.Patches) : task.deletes = none := by
  cases task <;> first | rfl | exact h.elim

/-- A change of an account knows of no key. -/
theorem Task.Patches.holding {task : Task} (h : task.Patches) : task.holding = none := by
  cases task <;> first | rfl | exact h.elim

/-- A change of an account goes on, or is over. -/
def Patching (pr : Progress Task Finished) : Prop :=
  (∃ task : Task, task.Patches ∧ pr = .waiting task) ∨
    ∃ id update response, pr = finish (.patchAccount id update) response

theorem Patching.of_waiting {pr : Progress Task Finished} {task : Task} (h : Patching pr)
    (heq : pr = .waiting task) : task.Patches := by
  rcases h with ⟨task', htask, rfl⟩ | ⟨id, update, response, rfl⟩
  · cases heq
    exact htask
  · cases heq

/-- The save is carried out. -/
def Saves (cfg : Settings) (s : State) (x : Answer) (old user : User) : Prop :=
  x ≠ .failed ∧ ∃ users', s.users.saveColumns cfg.pkg old user = .ok users'

/-! ## What a segment leaves -/

section Segments

variable (cfg : Settings) (s : State) (limited : Bool)

/-- A query that settles is carried out, or carried out without an answer, or not carried out. -/
theorem settle_cases {x : Answer} {s s' t : State} {next failure pr : Progress Task Finished}
    (h : settle x s s' next failure = some (t, pr)) :
    x = .done ∧ t = s' ∧ pr = next ∨ x = .lost ∧ t = s' ∧ pr = failure ∨
      x = .failed ∧ t = s ∧ pr = failure := by
  cases x <;> cases h <;> simp

/-- A query that only reads. -/
theorem settle_reads {x : Answer} {s t : State} {next failure pr : Progress Task Finished}
    (h : settle x s s next failure = some (t, pr)) : t = s ∧ (pr = next ∨ pr = failure) := by
  rcases settle_cases h with ⟨-, rfl, rfl⟩ | ⟨-, rfl, rfl⟩ | ⟨-, rfl, rfl⟩
  · exact ⟨rfl, .inl rfl⟩
  · exact ⟨rfl, .inr rfl⟩
  · exact ⟨rfl, .inr rfl⟩

/-- The limiter changes nothing of the state. -/
theorem consumeRateLimitPoints_cases {x : Answer} {t : State}
    {next : Bool → Progress Task Finished} {failure pr : Progress Task Finished}
    (h : consumeRateLimitPoints x s next failure = some (t, pr)) :
    t = s ∧ ((∃ limited, pr = next limited) ∨ pr = failure) := by
  cases x <;> cases h
  · exact ⟨rfl, .inl ⟨false, rfl⟩⟩
  · exact ⟨rfl, .inr rfl⟩
  · exact ⟨rfl, .inr rfl⟩
  · exact ⟨rfl, .inl ⟨true, rfl⟩⟩

/-- A start is answered at once, or limited, or looked up. -/
theorem accountRecoveryStart_cases (r : StartRequest) :
    (∃ response, accountRecoveryStart cfg r = r.finish false response) ∨
      accountRecoveryStart cfg r = .waiting (.startConsume r) ∨
      accountRecoveryStart cfg r = .waiting (.startLookUp false r) := by
  unfold accountRecoveryStart
  split
  · exact .inl ⟨_, rfl⟩
  · split
    · exact .inr (.inl rfl)
    · exact .inr (.inr rfl)

/-- What is waited for next is about a user who has the e-mail. -/
theorem startFound_cases (r : StartRequest) :
    (∃ response, startFound cfg s limited r = r.finish limited response) ∨
      ∃ user ∈ s.users, ∃ email, user.email = some email ∧
        startFound cfg s limited r = .waiting (.startSetEx limited r user email) := by
  unfold startFound
  split
  · exact .inl ⟨_, rfl⟩
  · next user huser =>
    split
    · exact .inl ⟨_, rfl⟩
    · next email hemail =>
      split
      · exact .inl ⟨_, rfl⟩
      · obtain ⟨hmem, -⟩ := mem_of_getUser (congrArg Except.toOption huser)
        exact .inr ⟨user, hmem, email, (Option.filter_eq_some_iff.mp hemail).1, rfl⟩

theorem verifyBegin_cases (r : VerifyRequest) :
    (∃ response, verifyBegin cfg limited r = r.finish limited response) ∨
      verifyBegin cfg limited r = .waiting (.verifyGet limited r) := by
  unfold verifyBegin
  split
  · exact .inl ⟨_, rfl⟩
  · exact .inr rfl

theorem accountRecoveryVerify_cases (r : VerifyRequest) :
    (∃ response, accountRecoveryVerify cfg r = r.finish false response) ∨
      accountRecoveryVerify cfg r = .waiting (.verifyConsume r) ∨
      accountRecoveryVerify cfg r = .waiting (.verifyGet false r) := by
  unfold accountRecoveryVerify
  split
  · exact .inr (.inl rfl)
  · exact (verifyBegin_cases cfg false r).imp id .inr

/-- A key that was read says which e-mail is looked up. -/
theorem verifyGot_cases (r : VerifyRequest) :
    (∃ response, verifyGot s limited r = r.finish limited response) ∨
      ∃ email, s.keys r.verifyKey = some email ∧
        verifyGot s limited r = .waiting (.verifyLookUp limited r email) := by
  unfold verifyGot
  split
  · exact .inl ⟨_, rfl⟩
  · next email hemail => exact .inr ⟨email, (Option.filter_eq_some_iff.mp hemail).1, rfl⟩

/-- The user who is saved has that e-mail. -/
theorem verifyFound_cases (r : VerifyRequest) (email : String) :
    (∃ response, verifyFound s limited r email = r.finish limited response) ∨
      ∃ user ∈ s.users, user.email = some email ∧
        verifyFound s limited r email = .waiting (.verifySave limited r user) := by
  unfold verifyFound
  split
  · exact .inl ⟨_, rfl⟩
  · next user huser =>
    obtain ⟨hmem, hemail⟩ := Users.mem_of_findOne huser
    exact .inr ⟨user, hmem, of_decide_eq_true hemail, rfl⟩

theorem verifyReward_cases (r : VerifyRequest) :
    verifyReward cfg limited r = r.finish limited (.ok ()) ∨
      verifyReward cfg limited r = .waiting (.verifyReward limited r) := by
  unfold verifyReward
  split
  · exact .inr rfl
  · exact .inl rfl

/-- Then there is a session to be set, or a reward, or nothing. -/
theorem verifyDeleted_cases (r : VerifyRequest) (user : User) :
    verifyDeleted cfg limited r user = r.finish limited (.ok ()) ∨
      verifyDeleted cfg limited r user = .waiting (.verifyReward limited r) ∨
      ∃ token, verifyDeleted cfg limited r user = .waiting (.verifySession limited r user token) := by
  unfold verifyDeleted
  split
  · next token _ => exact .inr (.inr ⟨token, rfl⟩)
  · exact (verifyReward_cases cfg limited r).imp id .inl

/-- Only a save that is carried out changes the row, and only one that is answered goes on. -/
theorem verifySaved_cases {cfg : Settings} {x : Answer} {limited : Bool} {r : VerifyRequest}
    {user : User} {t : State} {pr : Progress Task Finished}
    (h : verifySaved cfg s x limited r user = some (t, pr)) :
    (∃ response, t = s ∧ pr = r.finish limited response) ∨
      ∃ users', s.users.saveColumns cfg.pkg user (r.edit user) = .ok users' ∧
        t = s.withUsers users' ∧
        (x = .done ∧ pr = .waiting (.verifyDel limited r user) ∨
          x = .lost ∧ pr = r.finish limited (.error .unknown)) := by
  unfold verifySaved at h
  split at h
  · obtain ⟨rfl, rfl | rfl⟩ := settle_reads h
    · exact .inl ⟨_, rfl, rfl⟩
    · exact .inl ⟨_, rfl, rfl⟩
  · next users' hsaved =>
    rcases settle_cases h with ⟨hx, rfl, rfl⟩ | ⟨hx, rfl, rfl⟩ | ⟨-, rfl, rfl⟩
    · exact .inr ⟨users', hsaved, rfl, .inl ⟨hx, rfl⟩⟩
    · exact .inr ⟨users', hsaved, rfl, .inr ⟨hx, rfl⟩⟩
    · exact .inl ⟨_, rfl, rfl⟩

/-! Changes of accounts -/

variable {cfg} {old user : User} {update : AccountUpdate}

theorem patching_finish {id : Nat} {response : Response} :
    Patching (finish (.patchAccount id update) response) :=
  .inr ⟨id, update, response, rfl⟩

theorem patching_waiting {task : Task} (h : task.Patches) : Patching (.waiting task) :=
  .inl ⟨task, h, rfl⟩

theorem patching_patchPassword {newPassword : String} :
    Patching (patchPassword cfg old user update newPassword) := by
  unfold patchPassword
  split
  · exact patching_finish
  · exact patching_waiting trivial

theorem patching_patchVerify {currentPassword newPassword : String} :
    Patching (patchVerify cfg old user update currentPassword newPassword) := by
  unfold patchVerify
  split
  · split
    · exact patching_finish
    · exact patching_finish
    · split
      · exact patching_waiting trivial
      · exact patching_patchPassword
  · exact patching_finish

theorem patching_patchEdited : Patching (patchEdited cfg user update) := by
  unfold patchEdited
  dsimp only
  split
  · exact patching_waiting trivial
  · split
    · split
      · exact patching_finish
      · exact patching_patchVerify
    · exact patching_patchPassword

theorem patching_patchParsed : Patching (patchParsed cfg user update) := by
  unfold patchParsed
  split
  · exact patching_finish
  · split
    · exact patching_waiting trivial
    · exact patching_patchEdited

theorem patching_patchLoaded {id : Nat} : Patching (patchLoaded cfg s id update) := by
  unfold patchLoaded
  split
  · exact patching_finish
  · split
    · exact patching_waiting trivial
    · exact patching_patchParsed

theorem patching_patchChecked {email : String} : Patching (patchChecked cfg s user update email) := by
  unfold patchChecked
  split
  · exact patching_finish
  · exact patching_patchEdited

/-- The same of a save of an account. -/
theorem patchSaved_cases {x : Answer} {t : State} {next pr : Progress Task Finished}
    (h : patchSaved cfg s x old user update next = some (t, pr)) (hnext : Patching next) :
    Patching pr ∧ (t = s ∨ ∃ users', Saves cfg s x old user ∧
      s.users.saveColumns cfg.pkg old user = .ok users' ∧ t = s.withUsers users') := by
  unfold patchSaved at h
  split at h
  · obtain ⟨rfl, rfl | rfl⟩ := settle_reads h
    · exact ⟨patching_finish, .inl rfl⟩
    · exact ⟨patching_finish, .inl rfl⟩
  · next users' hsaved =>
    rcases settle_cases h with ⟨rfl, rfl, rfl⟩ | ⟨rfl, rfl, rfl⟩ | ⟨-, rfl, rfl⟩
    · exact ⟨hnext, .inr ⟨users', ⟨by decide, users', hsaved⟩, hsaved, rfl⟩⟩
    · exact ⟨patching_finish, .inr ⟨users', ⟨by decide, users', hsaved⟩, hsaved, rfl⟩⟩
    · exact ⟨patching_finish, .inl rfl⟩

/-- The row that the task saves, and the user it was read as. -/
def Task.saves : Task → Option (User × User)
  | .patchRehash old user _ _ | .patchSave old user _ => some (old, user)
  | _ => none

/-- **A segment of such a change** goes on with it, and saves what the task says if it saves anything.
-/
theorem resume_patches {x : Answer} {t : State} {pr : Progress Task Finished} {task : Task}
    (htask : task.Patches) (h : resume cfg s task x = some (t, pr)) :
    Patching pr ∧ (t = s ∨ ∃ old user users', task.saves = some (old, user) ∧
      Saves cfg s x old user ∧ s.users.saveColumns cfg.pkg old user = .ok users' ∧
      t = s.withUsers users') := by
  cases task with
  | patchLoad id update =>
    obtain ⟨rfl, rfl | rfl⟩ := settle_reads h
    · exact ⟨patching_patchLoaded t, .inl rfl⟩
    · exact ⟨patching_finish, .inl rfl⟩
  | patchConsume user update =>
    unfold resume at h
    obtain ⟨rfl, ⟨limited, rfl⟩ | rfl⟩ := consumeRateLimitPoints_cases s h
    · refine ⟨?_, .inl rfl⟩
      split
      · exact patching_finish
      · exact patching_patchParsed
    · exact ⟨patching_finish, .inl rfl⟩
  | patchCheck user update email =>
    obtain ⟨rfl, rfl | rfl⟩ := settle_reads h
    · exact ⟨patching_patchChecked t, .inl rfl⟩
    · exact ⟨patching_patchEdited, .inl rfl⟩
  | patchRehash old user update newPassword =>
    obtain ⟨hpr, rfl | ⟨users', hsaves⟩⟩ := patchSaved_cases s h patching_patchPassword
    · exact ⟨hpr, .inl rfl⟩
    · exact ⟨hpr, .inr ⟨old, user, users', rfl, hsaves⟩⟩
  | patchSave old user update =>
    obtain ⟨hpr, rfl | ⟨users', hsaves⟩⟩ := patchSaved_cases s h patching_finish
    · exact ⟨hpr, .inl rfl⟩
    · exact ⟨hpr, .inr ⟨old, user, users', rfl, hsaves⟩⟩
  | _ => exact htask.elim

/-- `task'` has no other key than `task`, except where one is read. -/
def Inherits (task task' : Task) : Prop :=
  (∀ key, task'.draws = some key → task.draws = some key) ∧
    ∀ key, task'.holding = some key → task.holding = some key ∨ task.gets = some key

/-- **No segment makes up a key.** -/
theorem resume_inherits {x : Answer} {t : State} {task task' : Task}
    (h : resume cfg s task x = some (t, .waiting task')) : Inherits task task' := by
  have hpatches : task.Patches → Inherits task task' := by
    intro htask
    have hpr := (resume_patches s htask h).1.of_waiting rfl
    refine ⟨fun key hkey => ?_, fun key hkey => ?_⟩
    · rw [hpr.draws] at hkey
      cases hkey
    · rw [hpr.holding] at hkey
      cases hkey
  cases task with
  | startConsume r =>
    unfold resume at h
    obtain ⟨-, ⟨limited, heq⟩ | heq⟩ := consumeRateLimitPoints_cases s h
    · cases heq
      exact ⟨fun _ => id, fun _ hkey => (by cases hkey)⟩
    · cases heq
  | startLookUp limited r =>
    obtain ⟨rfl, heq | heq⟩ := settle_reads h
    · rcases startFound_cases cfg t limited r with ⟨response, hf⟩ | ⟨user, -, email, -, hf⟩
      · cases heq.trans hf
      · cases heq.trans hf
        exact ⟨fun _ => id, fun _ hkey => (by cases hkey)⟩
    · cases heq
  | startSetEx limited r user email =>
    rcases settle_cases h with ⟨-, -, heq⟩ | ⟨-, -, heq⟩ | ⟨-, -, heq⟩
    · cases heq
      exact ⟨fun _ => id, fun _ hkey => (by cases hkey)⟩
    · cases heq
    · cases heq
  | startSend limited r =>
    obtain ⟨-, heq | heq⟩ := settle_reads h <;> cases heq
  | verifyConsume r =>
    unfold resume at h
    obtain ⟨-, ⟨limited, heq⟩ | heq⟩ := consumeRateLimitPoints_cases s h
    · rcases verifyBegin_cases cfg limited r with ⟨response, hf⟩ | hf
      · cases heq.trans hf
      · cases heq.trans hf
        exact ⟨fun _ hkey => (by cases hkey), fun _ hkey => (by cases hkey)⟩
    · cases heq
  | verifyGet limited r =>
    obtain ⟨rfl, heq | heq⟩ := settle_reads h
    · rcases verifyGot_cases t limited r with ⟨response, hf⟩ | ⟨email, -, hf⟩
      · cases heq.trans hf
      · cases heq.trans hf
        exact ⟨fun _ hkey => (by cases hkey), fun _ => .inr⟩
    · cases heq
  | verifyLookUp limited r email =>
    obtain ⟨rfl, heq | heq⟩ := settle_reads h
    · rcases verifyFound_cases t limited r email with ⟨response, hf⟩ | ⟨user, -, -, hf⟩
      · cases heq.trans hf
      · cases heq.trans hf
        exact ⟨fun _ hkey => (by cases hkey), fun _ => .inl⟩
    · cases heq
  | verifySave limited r user =>
    rcases verifySaved_cases s h with ⟨response, -, heq⟩ | ⟨users', -, -, ⟨-, heq⟩ | ⟨-, heq⟩⟩
    · cases heq
    · cases heq
      exact ⟨fun _ hkey => (by cases hkey), fun _ => .inl⟩
    · cases heq
  | verifyDel limited r user =>
    rcases settle_cases h with ⟨-, -, heq⟩ | ⟨-, -, heq⟩ | ⟨-, -, heq⟩
    · rcases verifyDeleted_cases cfg limited r user with hf | hf | ⟨token, hf⟩ <;>
        cases heq.trans hf <;>
        exact ⟨fun _ hkey => (by cases hkey), fun _ hkey => (by cases hkey)⟩
    · cases heq
    · cases heq
  | verifySession limited r user token =>
    rcases settle_cases h with ⟨-, -, heq⟩ | ⟨-, -, heq⟩ | ⟨-, -, heq⟩
    · rcases verifyReward_cases cfg limited r with hf | hf <;> cases heq.trans hf
      exact ⟨fun _ hkey => (by cases hkey), fun _ hkey => (by cases hkey)⟩
    · cases heq
    · cases heq
  | verifyReward limited r =>
    obtain ⟨-, heq | heq⟩ := settle_reads h <;> cases heq
  | patchLoad | patchConsume | patchCheck | patchRehash | patchSave => exact hpatches trivial

end Segments

end OpenTogetherTube.Server.Recovery
