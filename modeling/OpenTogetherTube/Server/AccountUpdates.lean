import OpenTogetherTube.Server.LoginNames

/-!
# Updates of an account

A user changes the email, the password, or both. An update that is refused should leave the account as
it was, and one that is not should change what was asked for.

The new email is set on the user before the passwords are looked at. If the current password is right
and its hash is out of date, the hash is renewed, and the user is saved: with the new email. The new
password is validated and saved only then, so an update that fails there has changed the email. A
query that is carried out while its answer is lost is an error that has changed the row, too
(`atomic_iff`).

An argon2 hash is taken to verify the one password that was hashed, and what is drawn to be new
(`Honest`).
-/

namespace OpenTogetherTube.Server.Accounts

open OpenTogetherTube.Lib

section Updates

variable (conf : Conf) (pkg : Packages)

/-! ## The code, where queries can fail -/

/-- How `user.save()` ends where a query is sent: it is answered, it is carried out and its answer is
lost, or it is not carried out. -/
inductive SaveAnswer where
  | done
  | lost
  | failed
  deriving DecidableEq, Repr

/-- How the queries of an update end: whether that of `isEmailTaken` is answered, and those that save
the renewed hash and all that was asked for. -/
structure Queries where
  isEmailTaken : Bool
  rehash : SaveAnswer
  save : SaveAnswer

def Users.saveIn (x : SaveAnswer) (users : Users) (old u : User) : Users × Except Refusal Unit :=
  match users.save pkg old u with
  | .error refusal => (users, .error refusal)
  | .ok users' =>
    if u = old then (users, .ok ())
    else
      match x with
      | .done => (users', .ok ())
      | .lost => (users', .error .unknown)
      | .failed => (users, .error .unknown)

def verifyUserPasswordIn (x : SaveAnswer) (users : Users) (old user : User) (password : String)
    (rehashed : Buffer) : Users × User × User × Except Refusal Bool :=
  match user.hash, user.salt with
  | some hash, some salt =>
    match pkg.verify hash salt password with
    | none => (users, old, user, .error .unknown)
    | some false => (users, old, user, .ok false)
    | some true =>
      if pkg.needsRehash hash then
        match users.saveIn pkg x old (user.renewHash rehashed) with
        | (users', .error refusal) => (users', old, user.renewHash rehashed, .error refusal)
        | (users', .ok ()) => (users', user.renewHash rehashed, user.renewHash rehashed, .ok true)
      else (users, old, user, .ok true)
  | _, _ => (users, old, user, .ok false)

def changeUserPasswordIn (x : SaveAnswer) (users : Users) (old user : User) (newPassword : String)
    (salt hash : Buffer) : Users × Except Refusal Unit :=
  if !isPasswordValid conf newPassword then (users, .error .badPassword)
  else users.saveIn pkg x old (user.setPassword salt hash)

variable (queries : Queries) (users : Users) (user : User) (update : AccountUpdate)

def replacePasswordIn (edited : User) (currentPassword newPassword : String) :
    Users × Except Refusal Unit :=
  match verifyUserPasswordIn pkg queries.rehash users user edited currentPassword update.rehashed with
  | (users', _, _, .error refusal) => (users', .error refusal)
  | (users', _, _, .ok false) => (users', .error .invalidPassword)
  | (users', old, edited', .ok true) =>
    changeUserPasswordIn conf pkg queries.save users' old edited' newPassword update.salt update.hash

/-- An email counts as free where the query for it fails. -/
def patchAccountIn : Users × Except Refusal Unit :=
  if !update.parses pkg then (users, .error .validation)
  else if update.email.any (fun e => user.email ≠ some e && (queries.isEmailTaken &&
      isEmailTaken users e)) then
    (users, .error .emailAlreadyInUse)
  else
    let edited := update.edit user
    match update.newPassword with
    | none => users.saveIn pkg queries.save user edited
    | some newPassword =>
      if edited.hash.isSome || edited.salt.isSome then
        match update.currentPassword.filter (fun p => p ≠ "") with
        | none => (users, .error .currentPasswordRequired)
        | some currentPassword =>
          replacePasswordIn conf pkg queries users user update edited currentPassword newPassword
      else
        changeUserPasswordIn conf pkg queries.save users user edited newPassword update.salt
          update.hash

/-! ## The specification -/

/-- The password is one that the row verifies. -/
def Opens (u : User) (password : String) : Prop :=
  ∃ hash ∈ u.hash, ∃ salt ∈ u.salt, pkg.verify hash salt password = some true

/-- The account has this email, and is opened by these passwords. -/
structure Account where
  email : Option String
  opens : String → Prop

def account (u : User) : Account := ⟨u.email, Opens pkg u⟩

/-- The account that was asked for. -/
def requested : Account where
  email := update.email.or user.email
  opens := match update.newPassword with
    | some newPassword => fun password => password = newPassword
    | none => Opens pkg user

/-- The account that there should be. -/
def expected : Except Refusal Unit → Account
  | .ok () => requested pkg user update
  | .error _ => account pkg user

/-- A row of the user, whatever its email and password. -/
def IsRowOf (w : User) : Prop :=
  w.id = user.id ∧ w.username = user.username ∧ w.discordId = user.discordId

/-- The row of the user is written, and no other, and is the account that there should be. -/
def Leaves (result : Users × Except Refusal Unit) : Prop :=
  ∃ w, Table.Writes users.table result.1.table w ∧ IsRowOf user w ∧
    account pkg w = expected pkg user update result.2

/-- **The purpose**: the account is the one that was asked for if the update succeeds, and else the one
that it was. -/
def Atomic : Prop :=
  Leaves pkg users user update (patchAccountIn conf pkg queries users user update)

/-- The hashes are made of the passwords that they are said to be made of, and what is drawn is new. -/
structure Honest : Prop where
  /-- The row verifies no two passwords. -/
  row : ∀ p q, Opens pkg user p → Opens pkg user q → p = q
  rehashed : ∀ p ∈ update.currentPassword, ∀ salt ∈ user.salt,
    ∀ q, pkg.verify update.rehashed salt q = some (decide (q = p))
  hash : ∀ p ∈ update.newPassword,
    ∀ q, pkg.verify update.hash update.salt q = some (decide (q = p))
  upToDate : pkg.needsRehash update.rehashed = false
  salt : user.salt ≠ some update.salt

/-- The body names an email that is not the one there is. -/
def NewEmail : Prop := ∃ e ∈ update.email, user.email ≠ some e

/-- The new password is not the one there is. -/
def NewPassword : Prop := ∃ p ∈ update.newPassword, ¬ Opens pkg user p

/-- The current password is right, its hash is renewed, and the user can be saved. -/
def Renews : Prop :=
  update.newPassword ≠ none ∧ update.parses pkg = true ∧
    (∀ e ∈ update.email, user.email ≠ some e → isEmailTaken users e = false) ∧
    ∃ currentPassword ∈ update.currentPassword, currentPassword ≠ "" ∧
      ∃ hash ∈ user.hash, ∃ salt ∈ user.salt,
        pkg.verify hash salt currentPassword = some true ∧ pkg.needsRehash hash = true ∧
          ((update.edit user).renewHash update.rehashed).validates pkg user = true

/-- **What goes wrong**: the update fails, and the account is changed. -/
inductive Spoils : Prop
  /-- The email is saved with the renewed hash. The answer is lost, or the new password is refused, or
  it is not saved. -/
  | renewed (hrenews : Renews pkg users user update) (hemail : NewEmail user update)
      (hfails : queries.rehash = .lost ∨ queries.rehash = .done ∧
        ((∃ p ∈ update.newPassword, isPasswordValid conf p = false) ∨ queries.save ≠ .done))
  /-- All is saved, and the answer is lost. -/
  | lost (hlost : queries.save = .lost) (hupdates : Updates conf pkg users user update)
      (hvalid : ∀ p ∈ update.newPassword, isPasswordValid conf p = true)
      (hrehash : Renews pkg users user update → queries.rehash = .done)
      (hchanges : NewEmail user update ∨ NewPassword pkg user update)

/-- What an update comes to, once it is known what is saved. -/
inductive Comes : Users × Except Refusal Unit → Prop
  | refused (refusal : Refusal) (h : ¬ Updates conf pkg users user update) :
      Comes (users, .error refusal)
  | email (h : Updates conf pkg users user update) (hnone : update.newPassword = none) :
      Comes (users.saveIn pkg queries.save user (update.edit user))
  | password (h : Updates conf pkg users user update) {newPassword : String}
      (hsome : update.newPassword = some newPassword)
      (hpassword : isPasswordValid conf newPassword = true)
      (hvalid : ((update.edit user).setPassword update.salt update.hash).validates pkg user = true)
      (hstays : ¬ Renews pkg users user update) :
      Comes (users.saveIn pkg queries.save user ((update.edit user).setPassword update.salt update.hash))
  | renewal (h : Updates conf pkg users user update) {newPassword : String}
      (hsome : update.newPassword = some newPassword) (hrenews : Renews pkg users user update) :
      Comes (match users.saveIn pkg queries.rehash user ((update.edit user).renewHash update.rehashed) with
        | (users', .error refusal) => (users', .error refusal)
        | (users', .ok ()) => changeUserPasswordIn conf pkg queries.save users'
          ((update.edit user).renewHash update.rehashed)
          ((update.edit user).renewHash update.rehashed) newPassword update.salt update.hash)

end Updates

section Answered

variable {conf : Conf} {pkg : Packages} {users : Users} {user : User} {update : AccountUpdate}

theorem saveIn_done (pkg : Packages) (users : Users) (old u : User) :
    users.saveIn pkg .done old u = written users (users.save pkg old u) := by
  unfold Users.saveIn Users.save
  split_ifs <;> rfl

/-- **Where no query fails** it is `patchAccount`. -/
theorem patchAccountIn_done : patchAccountIn conf pkg ⟨true, .done, .done⟩ users user update =
    patchAccount conf pkg users user update := by
  have hchange : ∀ (users : Users) (old u : User) (newPassword : String) (salt hash : Buffer),
      changeUserPasswordIn conf pkg .done users old u newPassword salt hash =
        written users (changeUserPassword conf pkg users old u newPassword salt hash) := by
    intro users old u newPassword salt hash
    unfold changeUserPasswordIn changeUserPassword
    split
    · rfl
    · exact saveIn_done pkg users old _
  have hverify : ∀ (users : Users) (old u : User) (password : String) (rehashed : Buffer),
      verifyUserPasswordIn pkg .done users old u password rehashed =
        verifyUserPassword pkg users old u password rehashed := by
    intro users old u password rehashed
    unfold verifyUserPasswordIn verifyUserPassword
    simp only [saveIn_done]
    cases users.save pkg old (u.renewHash rehashed) <;> rfl
  have hreplace : ∀ currentPassword newPassword, replacePasswordIn conf pkg ⟨true, .done, .done⟩ users
      user update (update.edit user) currentPassword newPassword =
      replacePassword conf pkg users user (update.edit user) update currentPassword newPassword := by
    intro currentPassword newPassword
    unfold replacePasswordIn replacePassword
    rw [hverify]
    generalize verifyUserPassword pkg users user (update.edit user) currentPassword
      update.rehashed = verified
    obtain ⟨users', old, edited, refusal | right⟩ := verified
    · rfl
    · cases right with
      | false => rfl
      | true => exact hchange _ _ _ _ _ _
  unfold patchAccountIn patchAccount
  split
  · rfl
  · simp only [Bool.true_and]
    split
    · rfl
    · cases update.newPassword with
      | none => exact saveIn_done pkg users user _
      | some newPassword =>
        dsimp only
        split
        · cases update.currentPassword.filter (fun p => p ≠ "") with
          | none => rfl
          | some currentPassword => exact hreplace currentPassword newPassword
        · exact hchange _ _ _ _ _ _

end Answered

section Comes

variable {conf : Conf} {pkg : Packages} {queries : Queries} {users : Users} {user old u w : User}
  {update : AccountUpdate} {newPassword currentPassword : String} {hash salt : Buffer}

/-! ## What an update comes to -/

/-- A row that can be saved. -/
theorem saveIn_of_valid (hold : old ∈ users) (hid : u.id = old.id)
    (hvalid : u.validates pkg old = true) (hunique : users.conflicts old u = false) :
    ∃ users', Table.Writes users.table users'.table u ∧
      ∀ x, users.saveIn pkg x old u = if u = old then (users, .ok ())
        else match x with
          | .done => (users', .ok ())
          | .lost => (users', .error .unknown)
          | .failed => (users, .error .unknown) := by
  obtain ⟨users', hsave, hwrite⟩ := Users.save_ok hold hid hvalid hunique
  refine ⟨users', hwrite, fun x => ?_⟩
  unfold Users.saveIn
  rw [hsave]

/-- An email that is taken cannot be saved, also if it was not found out before. -/
theorem conflicts_of_taken (hu : user ∈ users) (hw : Edits user update w)
    (htaken : ¬ ∀ e ∈ update.email, user.email ≠ some e → isEmailTaken users e = false) :
    w ≠ user ∧ users.conflicts user w = true := by
  simp only [not_forall, Bool.not_eq_false] at htaken
  obtain ⟨e, he, hne, htaken⟩ := htaken
  have hemail : w.email = some e := by
    rw [hw.2.2, AccountUpdate.edit, Option.mem_def.mp he]
    rfl
  refine ⟨fun hsame => hne (hsame ▸ hemail), ?_⟩
  by_contra hconflicts
  rw [Bool.not_eq_true] at hconflicts
  refine absurd (isEmailTaken_eq_false_iff.mpr fun v hv => ?_) (by rw [htaken]; decide)
  by_cases hid : v.id = w.id
  · rw [Users.eq_of_id hv hu (hid.trans hw.1)]
    exact hne
  · exact Users.ne_of_conflicts hconflicts hemail hne hv hid

/-- A row of an update that can be saved, or that is refused. -/
theorem saveIn_edits (pkg : Packages) (x : SaveAnswer) (hu : user ∈ users) (hw : Edits user update w) :
    ((∀ e ∈ update.email, user.email ≠ some e → isEmailTaken users e = false) ∧
        w.validates pkg user = true) ∨
      ¬ ((∀ e ∈ update.email, user.email ≠ some e → isEmailTaken users e = false) ∧
        w.validates pkg user = true) ∧
      ∃ refusal, users.saveIn pkg x user w = (users, .error refusal) := by
  by_cases hvalid : w.validates pkg user = true
  · by_cases hemail : ∀ e ∈ update.email, user.email ≠ some e → isEmailTaken users e = false
    · exact .inl ⟨hemail, hvalid⟩
    · obtain ⟨hne, hconflicts⟩ := conflicts_of_taken hu hw hemail
      refine .inr ⟨fun h => hemail h.1, .uniqueConstraint, ?_⟩
      unfold Users.saveIn Users.save
      rw [hvalid, if_neg (by decide), if_neg hne, hconflicts, if_pos rfl]
  · refine .inr ⟨fun h => hvalid h.2, .validation, ?_⟩
    unfold Users.saveIn Users.save
    rw [if_pos (by simpa using hvalid)]

theorem Renews.updates (h : Renews pkg users user update) : Updates conf pkg users user update := by
  obtain ⟨hsome, hparses, hemail, currentPassword, hcurrent, hgiven, hash, hhash, salt, hsalt,
    hverify, hrehash, hvalid⟩ := h
  obtain ⟨newPassword, hnew⟩ := Option.ne_none_iff_exists'.mp hsome
  refine ⟨hparses, hemail, ?_⟩
  rw [hnew, Option.mem_def.mp hhash]
  refine ⟨currentPassword, hcurrent, hgiven, hash, hhash, salt, hsalt, hverify, ?_⟩
  rw [if_pos hrehash]
  exact hvalid

/-- The new password is saved with the email. -/
theorem changeUserPasswordIn_comes (hu : user ∈ users) (hnew : update.newPassword = some newPassword)
    (hstays : ¬ Renews pkg users user update)
    (hupdates : Updates conf pkg users user update ↔
      (∀ e ∈ update.email, user.email ≠ some e → isEmailTaken users e = false) ∧
        isPasswordValid conf newPassword = true ∧
          ((update.edit user).setPassword update.salt update.hash).validates pkg user = true) :
    Comes conf pkg queries users user update
      (changeUserPasswordIn conf pkg queries.save users user (update.edit user) newPassword update.salt
        update.hash) := by
  unfold changeUserPasswordIn
  cases hpassword : isPasswordValid conf newPassword with
  | false =>
    refine .refused _ fun h => ?_
    rw [(hupdates.mp h).2.1] at hpassword
    cases hpassword
  | true =>
    rcases saveIn_edits pkg queries.save hu (edits_edit.setPassword update.salt update.hash) with
      ⟨hemail, hvalid⟩ | ⟨hrefused, refusal, hsave⟩
    · exact .password (hupdates.mpr ⟨hemail, hpassword, hvalid⟩) hnew hpassword hvalid hstays
    · rw [if_neg (by decide), hsave]
      refine .refused refusal fun h => ?_
      exact hrefused ⟨(hupdates.mp h).1, (hupdates.mp h).2.2⟩

/-- Nothing is saved for a password that is not right. -/
theorem replacePasswordIn_wrong (hwrong : ¬ ∃ hash ∈ user.hash, ∃ salt ∈ user.salt,
      pkg.verify hash salt currentPassword = some true) :
    ∃ refusal, replacePasswordIn conf pkg queries users user update (update.edit user) currentPassword
      newPassword = (users, .error refusal) := by
  unfold replacePasswordIn verifyUserPasswordIn
  rw [show (update.edit user).hash = user.hash from rfl,
    show (update.edit user).salt = user.salt from rfl]
  cases hhash : user.hash with
  | none => exact ⟨_, rfl⟩
  | some hash =>
    cases hsalt : user.salt with
    | none => exact ⟨_, rfl⟩
    | some salt =>
      dsimp only
      cases hverify : pkg.verify hash salt currentPassword with
      | none => exact ⟨_, rfl⟩
      | some right =>
        cases right with
        | false => exact ⟨_, rfl⟩
        | true => exact absurd ⟨hash, hhash, salt, hsalt, hverify⟩ hwrong

theorem verifyUserPasswordIn_right (x : SaveAnswer) (users : Users) (old : User) (rehashed : Buffer)
    (hhash : u.hash = some hash) (hsalt : u.salt = some salt)
    (hverify : pkg.verify hash salt currentPassword = some true) :
    verifyUserPasswordIn pkg x users old u currentPassword rehashed =
      if pkg.needsRehash hash then
        match users.saveIn pkg x old (u.renewHash rehashed) with
        | (users', .error refusal) => (users', old, u.renewHash rehashed, .error refusal)
        | (users', .ok ()) => (users', u.renewHash rehashed, u.renewHash rehashed, .ok true)
      else (users, old, u, .ok true) := by
  unfold verifyUserPasswordIn
  rw [hhash, hsalt]
  dsimp only
  rw [hverify]

/-- The new password is asked to replace one that is given. -/
theorem replacePasswordIn_comes (hu : user ∈ users) (hparses : update.parses pkg = true)
    (hnew : update.newPassword = some newPassword)
    (hlocal : (user.hash.isSome || user.salt.isSome) = true)
    (hcurrent : update.currentPassword = some currentPassword) (hgiven : currentPassword ≠ "") :
    Comes conf pkg queries users user update
      (replacePasswordIn conf pkg queries users user update (update.edit user) currentPassword
        newPassword) := by
  have hupdates : Updates conf pkg users user update ↔
      (∀ e ∈ update.email, user.email ≠ some e → isEmailTaken users e = false) ∧
        Authenticates conf pkg user update currentPassword newPassword := by
    unfold Updates
    rw [hnew, hcurrent]
    dsimp only
    rw [if_pos hlocal]
    simp [hparses, hgiven]
  by_cases hright : ∃ hash ∈ user.hash, ∃ salt ∈ user.salt,
      pkg.verify hash salt currentPassword = some true
  · obtain ⟨hash, hhash, salt, hsalt, hverify⟩ := hright
    have hauthenticates : Authenticates conf pkg user update currentPassword newPassword ↔
        if pkg.needsRehash hash then
          ((update.edit user).renewHash update.rehashed).validates pkg user = true
        else isPasswordValid conf newPassword = true ∧
          ((update.edit user).setPassword update.salt update.hash).validates pkg user = true := by
      unfold Authenticates
      rw [hhash, hsalt]
      simp [hverify]
    rw [hauthenticates] at hupdates
    have hresult := verifyUserPasswordIn_right queries.rehash users user (u := update.edit user)
      update.rehashed hhash hsalt hverify
    by_cases hrehash : pkg.needsRehash hash = true
    · rw [if_pos hrehash] at hupdates hresult
      unfold replacePasswordIn
      rw [hresult]
      rcases saveIn_edits pkg queries.rehash hu (edits_edit.renewHash update.rehashed) with
        ⟨hemail, hvalid⟩ | ⟨hrefused, refusal, hsave⟩
      · have hrenews : Renews pkg users user update := by
          refine ⟨?_, hparses, hemail, currentPassword, hcurrent, hgiven, hash, hhash, salt, hsalt,
            hverify, hrehash, hvalid⟩
          rw [hnew]
          exact Option.some_ne_none _
        have hcomes : Comes conf pkg queries users user update _ :=
          .renewal (hupdates.mpr ⟨hemail, hvalid⟩) hnew hrenews
        revert hcomes
        generalize users.saveIn pkg queries.rehash user
          ((update.edit user).renewHash update.rehashed) = saved
        obtain ⟨users', refusal | _⟩ := saved
        · exact id
        · exact id
      · rw [hsave]
        exact .refused refusal fun h => hrefused (hupdates.mp h)
    · rw [if_neg hrehash] at hupdates hresult
      unfold replacePasswordIn
      rw [hresult]
      refine changeUserPasswordIn_comes hu hnew ?_ hupdates
      rintro ⟨-, -, -, -, -, -, hash', hhash', -, -, -, hrehash', -⟩
      cases hhash.symm.trans hhash'
      exact hrehash hrehash'
  · obtain ⟨refusal, hresult⟩ : ∃ refusal, replacePasswordIn conf pkg queries users user update
        (update.edit user) currentPassword newPassword = (users, .error refusal) :=
      replacePasswordIn_wrong hright
    rw [hresult]
    refine .refused refusal fun h => hright ?_
    obtain ⟨-, hash, hhash, salt, hsalt, hverify, -⟩ := hupdates.mp h
    exact ⟨hash, hhash, salt, hsalt, hverify⟩

/-- **Every update comes to one of four.** -/
theorem patchAccountIn_comes (hu : user ∈ users) : Comes conf pkg queries users user update
    (patchAccountIn conf pkg queries users user update) := by
  unfold patchAccountIn
  split
  · next hparses =>
    refine .refused .validation fun h => ?_
    rw [h.1] at hparses
    cases hparses
  · next hparses =>
    have hparsed : update.parses pkg = true := by simpa using hparses
    split
    · next htaken =>
      refine .refused .emailAlreadyInUse fun h => ?_
      rw [Option.any_eq_true] at htaken
      obtain ⟨e, he, htaken⟩ := htaken
      simp only [Bool.and_eq_true, decide_eq_true_eq] at htaken
      exact absurd (h.2.1 e he htaken.1) (by rw [htaken.2.2]; decide)
    · dsimp only
      cases hnew : update.newPassword with
      | none =>
        have hedits : Edits user update (update.edit user) := edits_edit
        rcases saveIn_edits pkg queries.save hu hedits with
          ⟨hemail, hvalid⟩ | ⟨hrefused, refusal, hsave⟩
        · refine .email ⟨hparsed, hemail, ?_⟩ hnew
          rw [hnew]
          exact hvalid
        · dsimp only
          rw [hsave]
          refine .refused refusal fun h => hrefused ⟨h.2.1, ?_⟩
          have hvalid := h.2.2
          rw [hnew] at hvalid
          exact hvalid
      | some newPassword =>
        dsimp only
        split
        · next hlocal =>
          have hlocal : (user.hash.isSome || user.salt.isSome) = true := hlocal
          cases hcurrent : update.currentPassword.filter (fun p => p ≠ "") with
          | none =>
            refine .refused .currentPasswordRequired fun h => ?_
            have hrest := h.2.2
            rw [hnew] at hrest
            dsimp only at hrest
            rw [if_pos hlocal] at hrest
            obtain ⟨p, hp, hgiven, -⟩ := hrest
            exact Option.filter_eq_none_iff.mp hcurrent p hp (decide_eq_true hgiven)
          | some currentPassword =>
            obtain ⟨hgiven, hne⟩ := Option.filter_eq_some_iff.mp hcurrent
            exact replacePasswordIn_comes hu hparsed hnew hlocal hgiven (of_decide_eq_true hne)
        · next hlocal =>
          have hlocal : ¬ (user.hash.isSome || user.salt.isSome) = true := hlocal
          refine changeUserPasswordIn_comes hu hnew ?_ ?_
          · rintro ⟨-, -, -, -, -, -, hash, hhash, -⟩
            rw [Option.mem_def.mp hhash] at hlocal
            exact hlocal rfl
          · unfold Updates
            rw [hnew]
            dsimp only
            rw [if_neg hlocal]
            simp [hparsed]

end Comes

section Atomic

variable {conf : Conf} {pkg : Packages} {queries : Queries} {users base users' : Users}
  {user old w : User} {update : AccountUpdate} {newPassword : String} {refusal : Refusal}

/-! ## The accounts that an update can leave -/

/-- A hash that was renewed opens to what it opened to before. -/
theorem opens_renewHash (hhonest : Honest pkg user update)
    (hrenews : Renews pkg users user update) :
    Opens pkg ((update.edit user).renewHash update.rehashed) = Opens pkg user := by
  obtain ⟨-, -, -, currentPassword, hcurrent, -, hash, hhash, salt, hsalt, hverify, -⟩ := hrenews
  have hopens : Opens pkg user currentPassword := ⟨hash, hhash, salt, hsalt, hverify⟩
  funext q
  apply propext
  constructor
  · rintro ⟨hash', hhash', salt', hsalt', hverify'⟩
    cases hhash'
    rw [hhonest.rehashed currentPassword hcurrent salt' hsalt', Option.some.injEq,
      decide_eq_true_eq] at hverify'
    exact hverify' ▸ hopens
  · intro hq
    cases hhonest.row q currentPassword hq hopens
    refine ⟨update.rehashed, rfl, salt, hsalt, ?_⟩
    rw [hhonest.rehashed currentPassword hcurrent salt hsalt, decide_eq_true rfl]

theorem opens_setPassword (hhonest : Honest pkg user update)
    (hnew : update.newPassword = some newPassword) :
    Opens pkg ((update.edit user).setPassword update.salt update.hash) =
      fun password => password = newPassword := by
  funext q
  apply propext
  constructor
  · rintro ⟨hash', hhash', salt', hsalt', hverify'⟩
    cases hhash'
    cases hsalt'
    rw [hhonest.hash newPassword hnew, Option.some.injEq, decide_eq_true_eq] at hverify'
    exact hverify'
  · rintro rfl
    refine ⟨update.hash, rfl, update.salt, rfl, ?_⟩
    rw [hhonest.hash q hnew, decide_eq_true rfl]

theorem email_edit_iff : (update.edit user).email = user.email ↔ ¬ NewEmail user update := by
  unfold AccountUpdate.edit NewEmail
  cases update.email with
  | none => simp
  | some e => simp [eq_comm]

theorem account_renewHash_iff (hhonest : Honest pkg user update)
    (hrenews : Renews pkg users user update) :
    account pkg ((update.edit user).renewHash update.rehashed) = account pkg user ↔
      ¬ NewEmail user update := by
  rw [← email_edit_iff]
  unfold account
  rw [opens_renewHash hhonest hrenews, Account.mk.injEq]
  exact and_iff_left rfl

theorem account_edit (hnone : update.newPassword = none) :
    account pkg (update.edit user) = requested pkg user update := by
  unfold account requested
  rw [hnone]
  rfl

theorem account_setPassword (hhonest : Honest pkg user update)
    (hnew : update.newPassword = some newPassword) :
    account pkg ((update.edit user).setPassword update.salt update.hash) =
      requested pkg user update := by
  unfold account requested
  rw [opens_setPassword hhonest hnew, hnew]
  rfl

/-- The body asks for the account that there is. -/
theorem requested_iff (hhonest : Honest pkg user update) :
    requested pkg user update = account pkg user ↔
      ¬ (NewEmail user update ∨ NewPassword pkg user update) := by
  rw [not_or, ← email_edit_iff]
  unfold requested account
  rw [Account.mk.injEq]
  refine and_congr Iff.rfl ?_
  unfold NewPassword
  cases hnew : update.newPassword with
  | none => simp
  | some newPassword =>
    simp only [Option.mem_some_iff, exists_eq_left', not_not]
    constructor
    · intro hsame
      rw [← hsame]
    · intro hopens
      funext q
      apply propext
      constructor
      · rintro rfl
        exact hopens
      · exact fun hq => hhonest.row q newPassword hq hopens

/-! ## How an update ends -/

theorem leaves_iff (hwrite : Table.Writes users.table users'.table w) (hw : IsRowOf user w)
    (answer : Except Refusal Unit) : Leaves pkg users user update (users', answer) ↔
      account pkg w = expected pkg user update answer := by
  constructor
  · rintro ⟨w', hwrite', hw', haccount⟩
    have hmem : w ∈ users' := (hwrite w).mpr (.inl rfl)
    have hmem' : w' ∈ users' := (hwrite' w').mpr (.inl rfl)
    cases Users.eq_of_id hmem' hmem (hw'.1.trans hw.1.symm)
    exact haccount
  · exact fun haccount => ⟨w, hwrite, hw, haccount⟩

/-- Nothing is written. -/
theorem leaves_refused (hu : user ∈ users) :
    Leaves pkg users user update (users, .error refusal) :=
  ⟨user, Table.writes_self hu, ⟨rfl, rfl, rfl⟩, rfl⟩

/-- The last row is saved, over that of the user or one that was saved before. -/
theorem leaves_saveIn_iff (x : SaveAnswer) (hbase : Table.Writes users.table base.table old)
    (hold : IsRowOf user old) (hw : IsRowOf user w) (hvalid : w.validates pkg old = true)
    (hunique : base.conflicts old w = false)
    (hrequested : account pkg w = requested pkg user update) :
    Leaves pkg users user update (base.saveIn pkg x old w) ↔ (w ≠ old → match x with
      | .done => True
      | .lost => requested pkg user update = account pkg user
      | .failed => account pkg old = account pkg user) := by
  have hmem : old ∈ base := (hbase old).mpr (.inl rfl)
  have hid : w.id = old.id := hw.1.trans hold.1.symm
  obtain ⟨base', hwrite, hsave⟩ := saveIn_of_valid hmem hid hvalid hunique
  have hwrite' : Table.Writes users.table base'.table w := hbase.trans hwrite hid.symm
  rw [hsave]
  by_cases hsame : w = old
  · rw [if_pos hsame, leaves_iff hbase hold, ← hsame]
    exact iff_of_true hrequested (fun hne => absurd rfl hne)
  · rw [if_neg hsame]
    cases x with
    | done =>
      rw [leaves_iff hwrite' hw]
      exact iff_of_true hrequested (fun _ => trivial)
    | lost =>
      rw [leaves_iff hwrite' hw, hrequested]
      exact ⟨fun h _ => h, fun h => h hsame⟩
    | failed =>
      rw [leaves_iff hbase hold]
      exact ⟨fun h _ => h, fun h => h hsame⟩

/-- A row that was saved before is saved with a new password. -/
theorem validates_setPassword {u : User} (salt hash : Buffer) (h : u.ensureCredentials = true) :
    (u.setPassword salt hash).validates pkg u = true := by
  have hcredentials : (u.setPassword salt hash).ensureCredentials = true := by
    unfold User.ensureCredentials at h ⊢
    rw [Bool.or_eq_true] at h ⊢
    refine h.imp (fun h => ?_) id
    rw [Bool.and_eq_true, Bool.and_eq_true] at h
    rw [Bool.and_eq_true, Bool.and_eq_true]
    exact ⟨⟨h.1.1, rfl⟩, rfl⟩
  unfold User.validates
  rw [hcredentials]
  simp [changed, User.setPassword]

/-- Where no hash is renewed, only the answer of the one save can be lost. -/
theorem spoils_iff_of_stays (hupdates : Updates conf pkg users user update)
    (hvalid : ∀ p ∈ update.newPassword, isPasswordValid conf p = true)
    (hstays : ¬ Renews pkg users user update) :
    Spoils conf pkg queries users user update ↔
      queries.save = .lost ∧ (NewEmail user update ∨ NewPassword pkg user update) := by
  constructor
  · intro h
    cases h with
    | renewed hrenews => exact absurd hrenews hstays
    | lost hlost _ _ _ hchanges => exact ⟨hlost, hchanges⟩
  · exact fun h => .lost h.1 hupdates hvalid (fun hrenews => absurd hrenews hstays) h.2

theorem spoils_iff_of_renews (hrenews : Renews pkg users user update) :
    Spoils conf pkg queries users user update ↔
      (NewEmail user update ∧ (queries.rehash = .lost ∨ queries.rehash = .done ∧
        ((∃ p ∈ update.newPassword, isPasswordValid conf p = false) ∨ queries.save ≠ .done))) ∨
      (queries.save = .lost ∧ queries.rehash = .done ∧
        (∀ p ∈ update.newPassword, isPasswordValid conf p = true) ∧
        (NewEmail user update ∨ NewPassword pkg user update)) := by
  constructor
  · intro h
    cases h with
    | renewed _ hemail hfails => exact .inl ⟨hemail, hfails⟩
    | lost hlost _ hvalid hrehash hchanges => exact .inr ⟨hlost, hrehash hrenews, hvalid, hchanges⟩
  · rintro (⟨hemail, hfails⟩ | ⟨hlost, hrehash, hvalid, hchanges⟩)
    · exact .renewed hrenews hemail hfails
    · exact .lost hlost hrenews.updates hvalid (fun _ => hrehash) hchanges

/-- One row is saved, over that of the user. -/
theorem leaves_save_iff (hu : user ∈ users) (hhonest : Honest pkg user update)
    (hupdates : Updates conf pkg users user update)
    (hvalidPassword : ∀ p ∈ update.newPassword, isPasswordValid conf p = true)
    (hstays : ¬ Renews pkg users user update) (hw : Edits user update w)
    (hdiscord : w.discordId = user.discordId) (hvalid : w.validates pkg user = true)
    (hrequested : account pkg w = requested pkg user update) :
    Leaves pkg users user update (users.saveIn pkg queries.save user w) ↔
      ¬ Spoils conf pkg queries users user update := by
  rw [leaves_saveIn_iff queries.save (Table.writes_self hu) ⟨rfl, rfl, rfl⟩
    ⟨hw.1, hw.2.1, hdiscord⟩ hvalid (conflicts_edit hw hupdates.2.1) hrequested,
    spoils_iff_of_stays hupdates hvalidPassword hstays, not_and, ← requested_iff hhonest]
  cases queries.save with
  | done => exact iff_of_true (fun _ => trivial) (fun h => nomatch h)
  | failed => exact iff_of_true (fun _ => rfl) (fun h => nomatch h)
  | lost =>
    refine ⟨fun h _ => ?_, fun h _ => h rfl⟩
    by_cases hsame : w = user
    · rw [← hrequested, hsame]
    · exact h hsame

/-- The hash is renewed, and then the new password is saved. -/
theorem leaves_renewal_iff (hu : user ∈ users) (hhonest : Honest pkg user update)
    (hrenews : Renews pkg users user update) (hnew : update.newPassword = some newPassword) :
    Leaves pkg users user update
      (match users.saveIn pkg queries.rehash user ((update.edit user).renewHash update.rehashed) with
        | (users', .error refusal) => (users', .error refusal)
        | (users', .ok ()) => changeUserPasswordIn conf pkg queries.save users'
          ((update.edit user).renewHash update.rehashed)
          ((update.edit user).renewHash update.rehashed) newPassword update.salt update.hash) ↔
      ¬ Spoils conf pkg queries users user update := by
  rw [spoils_iff_of_renews hrenews, hnew]
  simp only [Option.mem_some_iff, exists_eq_left', forall_eq']
  have hrow : IsRowOf user ((update.edit user).renewHash update.rehashed) := ⟨rfl, rfl, rfl⟩
  have haccount := account_renewHash_iff hhonest hrenews
  obtain ⟨-, -, hemail, -, -, -, hash, hhash, -, -, -, hrehash, hvalid⟩ := hrenews
  have hne : (update.edit user).renewHash update.rehashed ≠ user := by
    intro hsame
    cases Option.mem_def.mp hhash ▸ congrArg User.hash hsame
    rw [hhonest.upToDate] at hrehash
    cases hrehash
  obtain ⟨users', hwrite, hsave⟩ := saveIn_of_valid
    (u := (update.edit user).renewHash update.rehashed) hu rfl hvalid
    (conflicts_edit (edits_edit.renewHash _) hemail)
  rw [hsave, if_neg hne]
  cases hanswer : queries.rehash with
  | failed =>
    refine iff_of_true (leaves_refused hu) ?_
    simp
  | lost =>
    dsimp only
    rw [leaves_iff hwrite hrow]
    refine haccount.trans (not_congr ?_)
    simp
  | done =>
    dsimp only
    unfold changeUserPasswordIn
    cases hpassword : isPasswordValid conf newPassword with
    | false =>
      rw [if_pos (by decide), leaves_iff hwrite hrow]
      refine haccount.trans (not_congr ?_)
      simp
    | true =>
      have hcredentials := (Bool.and_eq_true_iff.mp hvalid).2
      have hrow' : IsRowOf user (((update.edit user).renewHash update.rehashed).setPassword
          update.salt update.hash) := hrow
      have hunsalted : ((update.edit user).renewHash update.rehashed).setPassword update.salt
          update.hash ≠ (update.edit user).renewHash update.rehashed :=
        fun hsame => hhonest.salt (congrArg User.salt hsame).symm
      have hunique : users'.conflicts ((update.edit user).renewHash update.rehashed)
          (((update.edit user).renewHash update.rehashed).setPassword update.salt update.hash) = false :=
        Users.conflicts_eq_false (fun h => absurd rfl (of_decide_eq_true h))
          (fun h => absurd rfl (of_decide_eq_true h))
      rw [if_neg (by decide), leaves_saveIn_iff queries.save hwrite hrow hrow'
        (validates_setPassword _ _ hcredentials) hunique (account_setPassword hhonest hnew),
        forall_prop_of_true hunsalted]
      cases queries.save with
      | done => simp
      | lost =>
        refine (requested_iff hhonest).trans (not_congr ?_)
        simp only [ne_eq, reduceCtorEq, not_false_eq_true, or_true, and_self, and_true, true_and]
        tauto
      | failed =>
        refine haccount.trans (not_congr ?_)
        simp

end Atomic

/-! ## An account whose hash is out of date -/

/-- Three hashes, of two passwords. The first one is out of date. -/
def threeHashes : Packages :=
  { examplePackages with
    verify := fun hash _ password =>
      if hash = [0] ∨ hash = [1] then some (password = "correct horse 1")
      else if hash = [2] then some (password = "short")
      else none
    needsRehash := fun hash => hash = [0] }

def outdatedAlice : User := ⟨1, "alice", some "alice@example.org", some [9], some [0], none⟩

def aliceAlone : Users := Users.empty.add outdatedAlice

/-- A new email, and a password that is too short. -/
def aliceUpdates : AccountUpdate :=
  ⟨some "new@example.org", some "correct horse 1", some "short", [1], [8], [2]⟩

/-- No query fails. -/
def allAnswered : Queries := ⟨true, .done, .done⟩

theorem honest_aliceUpdates : Honest threeHashes outdatedAlice aliceUpdates := by
  have hopens : ∀ p, Opens threeHashes outdatedAlice p → p = "correct horse 1" := by
    rintro p ⟨hash, hhash, salt, hsalt, hverify⟩
    cases hhash
    exact of_decide_eq_true (Option.some.inj hverify)
  refine ⟨fun p q hp hq => (hopens p hp).trans (hopens q hq).symm, ?_, ?_, rfl, by decide⟩
  · intro p hp salt hsalt q
    cases hp
    rfl
  · intro p hp q
    cases hp
    rfl

end OpenTogetherTube.Server.Accounts
