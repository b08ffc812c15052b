import OpenTogetherTube.Server.Accounts

/-!
# Linking a Discord account

Somebody who is logged in logs in with Discord. Where another account has the Discord account already,
and nothing else to log in with, `connectSocial` gives its rooms to the user and deletes it.

The account is found by its Discord id, and nothing says that it is another one. `NeverLoses` is what
linking is for, and `neverLoses_iff` says exactly when it does it, for any tables and whichever of
the four queries fail. The user's own account may be the one that is found, and then it is deleted
(`not_neverLoses`).
-/

namespace OpenTogetherTube.Server.Accounts

open OpenTogetherTube.Lib

/-- A row of the table of rooms, as far as it is about owners. -/
structure RoomRow where
  id : Nat
  ownerId : Option Nat
  deriving DecidableEq, Repr

structure Database where
  users : Users
  rooms : Table RoomRow.id

/-- The queries that `connectSocial` makes. -/
inductive Query where
  | findUser
  | moveRooms
  | deleteUser
  | saveUser
  deriving DecidableEq, Repr

inductive Rejection where
  /-- "Login credentials were found in the other account, so a merge could not be performed." -/
  | credentialsFound
  | refused (refusal : Refusal)
  | queryFailed (query : Query)
  deriving DecidableEq, Repr

/-- `RoomModel.update({ ownerId: owner }, { where: { ownerId: previous } })`. -/
def Database.moveRooms (db : Database) (previous owner : Nat) : Database where
  users := db.users
  rooms := db.rooms.update (fun r => r.ownerId = some previous)
    (fun r => { r with ownerId := some owner }) (fun _ _ => rfl)

def Database.destroyUser (db : Database) (u : User) : Database :=
  { db with users := db.users.destroy u }

/-- A password or an email to log in with. -/
def User.localCredentials (u : User) : Bool := truthy u.email || u.salt.isSome || u.hash.isSome

def User.link (u : User) (discordId : String) : User := { u with discordId := some discordId }

section Connect

variable (pkg : Packages) (fails : Query → Bool)

def Database.saveUser (db : Database) (old u : User) : Database × Except Rejection Unit :=
  match db.users.save pkg old u with
  | .error refusal => (db, .error (.refused refusal))
  | .ok users =>
    if u ≠ old ∧ fails .saveUser = true then (db, .error (.queryFailed .saveUser))
    else ({ db with users := users }, .ok ())

/-- Whom `getUser` finds. Whatever it throws is caught. -/
def Database.socialUser (db : Database) (discordId : String) : Option User :=
  if fails .findUser then none
  else (getUser pkg db.users ⟨none, none, some discordId⟩).toOption

def connectSocial (db : Database) (user : User) (discordId : String) :
    Database × Except Rejection Unit :=
  match db.socialUser pkg fails discordId with
  | none => db.saveUser pkg fails user (user.link discordId)
  | some socialUser =>
    if socialUser.localCredentials then (db, .error .credentialsFound)
    else if fails .moveRooms then (db, .error (.queryFailed .moveRooms))
    else
      let moved := db.moveRooms socialUser.id user.id
      if fails .deleteUser then (moved, .error (.queryFailed .deleteUser))
      else (moved.destroyUser socialUser).saveUser pkg fails user (user.link discordId)

end Connect

/-! ## The specification -/

/-- The user is still there, with the Discord account and no one else, and with all the rooms of their
own and of whoever is gone. -/
structure Linked (before after : Database) (u : User) (discordId : String) : Prop where
  kept : ∃ v ∈ after.users, v.id = u.id ∧ v.email = u.email ∧ v.hash = u.hash ∧ v.salt = u.salt ∧
    v.discordId = some discordId
  sole : ∀ v ∈ after.users, v.discordId = some discordId → v.id = u.id
  rooms : ∀ r ∈ before.rooms,
    r.ownerId = some u.id ∨ (∃ s ∈ before.users, r.ownerId = some s.id ∧
      ∀ v ∈ after.users, v.id ≠ s.id) →
    ∃ r' ∈ after.rooms, r'.id = r.id ∧ r'.ownerId = some u.id

/-- **The purpose**: the account is linked, or nothing changes. -/
def NeverLoses (pkg : Packages) (fails : Query → Bool) (db : Database) (u : User)
    (discordId : String) : Prop :=
  match connectSocial pkg fails db u discordId with
  | (after, .ok ()) => Linked db after u discordId
  | (after, .error _) => after = db

/-- The account that is found can be merged, or there is none, or nothing comes of it. -/
def Mergeable (pkg : Packages) (fails : Query → Bool) (db : Database) (u : User)
    (discordId : String) : Prop :=
  match db.socialUser pkg fails discordId with
  | none =>
    (u.link discordId).ensureCredentials = false ∨
      (u.discordId ≠ some discordId ∧ fails .saveUser = true) ∨
      ∀ v ∈ db.users, v.discordId = some discordId → v = u
  | some s =>
    s.localCredentials = true ∨ fails .moveRooms = true ∨
      if fails .deleteUser then s = u ∨ ∀ r ∈ db.rooms, r.ownerId ≠ some s.id
      else s ≠ u ∧ (u.discordId = some discordId ∨ fails .saveUser = false) ∧
        ∀ v ∈ db.users, v.discordId = some discordId → v = u ∨ v = s

/-! ## Saving the user -/

section Save

variable {pkg : Packages} {fails : Query → Bool} {db : Database} {u s : User} {discordId : String}

theorem link_eq_self_iff : u.link discordId = u ↔ u.discordId = some discordId := by
  constructor
  · intro h
    exact (congrArg User.discordId h).symm
  · intro h
    show { u with discordId := some discordId } = u
    rw [← h]

/-- A link changes the Discord id, and that column is not unique. -/
theorem save_link (users : Users) : users.save pkg u (u.link discordId) =
    if (u.link discordId).ensureCredentials = false then .error .validation
    else if u.discordId = some discordId then .ok users
    else .ok (users.replace (u.link discordId)) := by
  have hname : changed User.username (some u) (u.link discordId) = false :=
    decide_eq_false (fun h => h rfl)
  have hemail : changed User.email (some u) (u.link discordId) = false :=
    decide_eq_false (fun h => h rfl)
  have hvalid : (u.link discordId).validates pkg u = (u.link discordId).ensureCredentials := by
    unfold User.validates
    rw [hname, hemail]
    rfl
  have hconflicts : users.conflicts (some u) (u.link discordId) = false := by
    unfold Users.conflicts
    rw [hname, hemail]
    simp
  unfold Users.save
  rw [hvalid, hconflicts]
  by_cases hcredentials : (u.link discordId).ensureCredentials = true
  · simp [hcredentials, link_eq_self_iff]
  · rw [Bool.not_eq_true] at hcredentials
    simp [hcredentials]

theorem saveUser_link : db.saveUser pkg fails u (u.link discordId) =
    if (u.link discordId).ensureCredentials = false then (db, .error (.refused .validation))
    else if u.discordId = some discordId then (db, .ok ())
    else if fails .saveUser = true then (db, .error (.queryFailed .saveUser))
    else ({ db with users := db.users.replace (u.link discordId) }, .ok ()) := by
  unfold Database.saveUser
  rw [save_link]
  split
  · next refusal h =>
    split at h
    · next hinvalid =>
      cases h
      exact (if_pos hinvalid).symm
    · split at h <;> cases h
  · next users h =>
    split at h
    · cases h
    · next hvalid =>
      rw [if_neg hvalid]
      split at h
      · next hsame =>
        cases h
        rw [if_pos hsame, if_neg (fun hboth => hboth.1 (link_eq_self_iff.mpr hsame))]
      · next hother =>
        cases h
        rw [if_neg hother]
        have hne : u.link discordId ≠ u := fun h => hother (link_eq_self_iff.mp h)
        by_cases hfails : fails .saveUser = true
        · rw [if_pos ⟨hne, hfails⟩, if_pos hfails]
        · rw [if_neg (fun hboth => hfails hboth.2), if_neg hfails]

/-- Nothing is saved. -/
theorem saveUser_error (pkg : Packages) (db : Database)
    (h : (u.link discordId).ensureCredentials = false ∨
      u.discordId ≠ some discordId ∧ fails .saveUser = true) :
    ∃ e, db.saveUser pkg fails u (u.link discordId) = (db, .error e) := by
  rw [saveUser_link]
  by_cases hinvalid : (u.link discordId).ensureCredentials = false
  · exact ⟨_, if_pos hinvalid⟩
  · obtain ⟨hother, hfails⟩ := h.resolve_left hinvalid
    rw [if_neg hinvalid, if_neg hother, if_pos hfails]
    exact ⟨_, rfl⟩

/-- The user is saved, and nobody else has changed. -/
theorem saveUser_ok (pkg : Packages) (hu : u ∈ db.users)
    (hvalid : (u.link discordId).ensureCredentials = true)
    (hsave : u.discordId = some discordId ∨ fails .saveUser = false) :
    ∃ users, db.saveUser pkg fails u (u.link discordId) = ({ db with users := users }, .ok ()) ∧
      Table.Writes db.users.table users.table (u.link discordId) := by
  rw [saveUser_link, if_neg (by rw [hvalid]; decide)]
  by_cases hsame : u.discordId = some discordId
  · refine ⟨db.users, if_pos hsame, ?_⟩
    rw [link_eq_self_iff.mpr hsame]
    exact Table.writes_self hu
  · have hworks := hsave.resolve_left hsame
    refine ⟨db.users.replace (u.link discordId), ?_, Table.writes_replace ⟨u, hu, rfl⟩⟩
    rw [if_neg hsame, if_neg (by rw [hworks]; decide)]

end Save

/-! ## Merging the account that is found -/

section Merge

variable {pkg : Packages} {fails : Query → Bool} {db after : Database} {u s : User}
  {discordId : String}

/-- Whoever is found has the Discord id, which is not empty. -/
theorem mem_of_socialUser (h : db.socialUser pkg fails discordId = some s) :
    s ∈ db.users ∧ s.discordId = some discordId ∧ discordId ≠ "" := by
  unfold Database.socialUser at h
  split at h
  · cases h
  · rw [getUser_discordId] at h
    split at h
    · cases h
    · next hempty =>
      obtain ⟨hs, hdiscord⟩ := Users.mem_of_findOne h
      exact ⟨hs, of_decide_eq_true hdiscord, hempty⟩

theorem mem_moveRooms {previous owner : Nat} {r' : RoomRow} :
    r' ∈ (db.moveRooms previous owner).rooms ↔
      ∃ r ∈ db.rooms, (if r.ownerId = some previous then { r with ownerId := some owner } else r) =
        r' := by
  unfold Database.moveRooms
  simp only [Table.mem_update, decide_eq_true_eq]

/-- **When what is left is what linking is for**: only the user, and whoever is gone, had the Discord
account. -/
theorem linked_iff (removed : Option User) (hu : u ∈ db.users)
    (hremoved : ∀ s ∈ removed, s ∈ db.users)
    (hmem : ∀ v, v ∈ after.users ↔
      v = u.link discordId ∨ v ∈ db.users ∧ v.id ≠ u.id ∧ ∀ s ∈ removed, v.id ≠ s.id)
    (hrooms : ∀ r ∈ db.rooms, (r.ownerId = some u.id ∨ ∃ s ∈ removed, r.ownerId = some s.id) →
      ∃ r' ∈ after.rooms, r'.id = r.id ∧ r'.ownerId = some u.id) :
    Linked db after u discordId ↔
      ∀ v ∈ db.users, v.discordId = some discordId → v = u ∨ v ∈ removed := by
  have hlinked : u.link discordId ∈ after.users := (hmem _).mpr (.inl rfl)
  constructor
  · intro h v hv hdiscord
    by_contra hother
    rw [not_or] at hother
    have hid : v.id ≠ u.id := fun hid => hother.1 (Users.eq_of_id hv hu hid)
    have hleft : v ∈ after.users := by
      refine (hmem v).mpr (.inr ⟨hv, hid, fun s hs heq => hother.2 ?_⟩)
      rw [Users.eq_of_id hv (hremoved s hs) heq]
      exact hs
    exact hid (h.sole v hleft hdiscord)
  · intro hsole
    refine ⟨⟨_, hlinked, rfl, rfl, rfl, rfl, rfl⟩, ?_, ?_⟩
    · intro v hv hdiscord
      rcases (hmem v).mp hv with rfl | ⟨hold, hid, hkept⟩
      · rfl
      · rcases hsole v hold hdiscord with rfl | hgone
        · rfl
        · exact absurd rfl (hkept v hgone)
    · intro r hr howner
      apply hrooms r hr
      rcases howner with hown | ⟨s, hs, howner, hgone⟩
      · exact .inl hown
      · have hid : s.id ≠ u.id := fun hid => hgone _ hlinked hid.symm
        by_contra hnot
        rw [not_or] at hnot
        refine hgone s ((hmem s).mpr (.inr ⟨hs, hid, fun t ht heq => hnot.2 ⟨t, ht, ?_⟩⟩)) rfl
        rw [howner, heq]

/-- The rooms stay as they are if and only if they were the user's already, or there are none. -/
theorem moveRooms_eq_self_iff (hu : u ∈ db.users) (hs : s ∈ db.users) :
    db.moveRooms s.id u.id = db ↔ s = u ∨ ∀ r ∈ db.rooms, r.ownerId ≠ some s.id := by
  constructor
  · intro hsame
    by_contra hnot
    rw [not_or] at hnot
    obtain ⟨hne, hnot⟩ := hnot
    refine hnot (fun r hr howner => hne ?_)
    have hmoved : { r with ownerId := some u.id } ∈ (db.moveRooms s.id u.id).rooms :=
      mem_moveRooms.mpr ⟨r, hr, if_pos howner⟩
    rw [hsame] at hmoved
    have heq : { r with ownerId := some u.id } = r := Table.eq_of_key hmoved hr rfl
    have hid : some u.id = some s.id := (congrArg RoomRow.ownerId heq).trans howner
    exact Users.eq_of_id hs hu (Option.some.inj hid).symm
  · intro h
    have hrooms : (db.moveRooms s.id u.id).rooms = db.rooms := by
      refine Table.update_eq_self (f := fun r : RoomRow => { r with ownerId := some u.id })
        (h := fun _ _ => rfl) (fun r hr howner => ?_)
      have howner := of_decide_eq_true howner
      rcases h with rfl | hnone
      · rw [← howner]
      · exact absurd howner (hnone r hr)
    show { db with rooms := (db.moveRooms s.id u.id).rooms } = db
    rw [hrooms]

/-- Rooms of the user and of the other account are the user's. -/
theorem owned_of_moveRooms {r : RoomRow} (hr : r ∈ db.rooms)
    (howner : r.ownerId = some u.id ∨ r.ownerId = some s.id) :
    ∃ r' ∈ (db.moveRooms s.id u.id).rooms, r'.id = r.id ∧ r'.ownerId = some u.id := by
  by_cases hs : r.ownerId = some s.id
  · exact ⟨_, mem_moveRooms.mpr ⟨r, hr, if_pos hs⟩, rfl, rfl⟩
  · exact ⟨r, mem_moveRooms.mpr ⟨r, hr, if_neg hs⟩, rfl, howner.resolve_right hs⟩

/-- The user is saved where nobody was found. -/
theorem neverLoses_of_none (hu : u ∈ db.users)
    (hfound : db.socialUser pkg fails discordId = none) :
    NeverLoses pkg fails db u discordId ↔ Mergeable pkg fails db u discordId := by
  unfold NeverLoses Mergeable connectSocial
  rw [hfound]
  dsimp only
  by_cases herror : (u.link discordId).ensureCredentials = false ∨
      u.discordId ≠ some discordId ∧ fails .saveUser = true
  · obtain ⟨e, he⟩ := saveUser_error pkg db herror
    rw [he]
    exact iff_of_true rfl (or_assoc.mp (.inl herror))
  · rw [not_or, not_and_or, not_not, Bool.not_eq_true, Bool.not_eq_false] at herror
    obtain ⟨hvalid, hsave⟩ := herror
    obtain ⟨users, hok, hmem⟩ := saveUser_ok pkg hu hvalid hsave
    rw [hok]
    show Linked db { db with users := users } u discordId ↔ _
    rw [linked_iff none hu (fun s hs => by cases hs)]
    · constructor
      · intro hsole
        exact .inr (.inr (fun v hv hdiscord => (hsole v hv hdiscord).resolve_right (by simp)))
      · intro h
        have hsole := (or_assoc.mpr h).resolve_left (by
          rintro (hinvalid | ⟨hother, hfails⟩)
          · rw [hvalid] at hinvalid
            cases hinvalid
          · rcases hsave with hsame | hworks
            · exact hother hsame
            · rw [hworks] at hfails
              cases hfails)
        exact fun v hv hdiscord => .inl (hsole v hv hdiscord)
    · intro v
      show v ∈ users.table ↔ _
      rw [hmem v]
      show v = _ ∨ v ∈ db.users ∧ _ ↔ _
      simp [User.link]
    · rintro r hr (hown | ⟨s, hs, -⟩)
      · exact ⟨r, hr, rfl, hown⟩
      · cases hs

/-- The account that is found is deleted. -/
theorem neverLoses_of_delete (hu : u ∈ db.users)
    (hfound : db.socialUser pkg fails discordId = some s) :
    (match ((db.moveRooms s.id u.id).destroyUser s).saveUser pkg fails u (u.link discordId) with
      | (after, .ok ()) => Linked db after u discordId
      | (after, .error _) => after = db) ↔
      s ≠ u ∧ (u.discordId = some discordId ∨ fails .saveUser = false) ∧
        ∀ v ∈ db.users, v.discordId = some discordId → v = u ∨ v = s := by
  obtain ⟨hs, hdiscord, hempty⟩ := mem_of_socialUser hfound
  have hvalid : (u.link discordId).ensureCredentials = true := by
    unfold User.ensureCredentials User.link truthy
    simp [hempty]
  by_cases hself : s = u
  · -- the user has gone, and nothing has changed that would be saved
    subst hself
    rw [saveUser_link, if_neg (by rw [hvalid]; decide), if_pos hdiscord]
    refine iff_of_false (fun h => ?_) (fun h => h.1 rfl)
    obtain ⟨v, hv, hid, -⟩ := h.kept
    exact (Users.mem_destroy.mp hv).2 hid
  · have hne : u.id ≠ s.id := fun hid => hself (Users.eq_of_id hu hs hid).symm
    have hu' : u ∈ ((db.moveRooms s.id u.id).destroyUser s).users :=
      Users.mem_destroy.mpr ⟨hu, hne⟩
    by_cases hsave : u.discordId = some discordId ∨ fails .saveUser = false
    · obtain ⟨users, hok, hmem⟩ := saveUser_ok pkg hu' hvalid hsave
      rw [hok]
      show Linked db { (db.moveRooms s.id u.id).destroyUser s with users := users } u discordId ↔ _
      rw [linked_iff (some s) hu]
      · constructor
        · intro hsole
          refine ⟨hself, hsave, fun v hv hd => (hsole v hv hd).imp_right ?_⟩
          exact fun hv => (Option.mem_some_iff.mp hv).symm
        · rintro ⟨-, -, hsole⟩ v hv hd
          exact (hsole v hv hd).imp_right (fun hv => Option.mem_some_iff.mpr hv.symm)
      · intro t ht
        cases Option.mem_some_iff.mp ht
        exact hs
      · intro v
        show v ∈ users.table ↔ _
        rw [hmem v]
        show v = _ ∨ v ∈ db.users.destroy s ∧ v.id ≠ u.id ↔ _
        rw [Users.mem_destroy]
        grind
      · intro r hr howner
        apply owned_of_moveRooms hr
        rcases howner with hown | ⟨t, ht, hother⟩
        · exact .inl hown
        · cases Option.mem_some_iff.mp ht
          exact .inr hother
    · -- the other account has gone, and the user is not saved
      have hfails : u.discordId ≠ some discordId ∧ fails .saveUser = true := by
        rwa [not_or, Bool.not_eq_false] at hsave
      obtain ⟨e, he⟩ := saveUser_error pkg ((db.moveRooms s.id u.id).destroyUser s) (.inr hfails)
      rw [he]
      refine iff_of_false (fun h => ?_) (fun h => hsave h.2.1)
      have hgone : s ∈ ((db.moveRooms s.id u.id).destroyUser s).users := by
        rw [show (db.moveRooms s.id u.id).destroyUser s = db from h]
        exact hs
      exact (Users.mem_destroy.mp hgone).2 rfl

end Merge

/-- **Exactly when linking never loses an account**: for any tables, a user who is in them, and any
of the queries failing. -/
theorem neverLoses_iff (pkg : Packages) (fails : Query → Bool) (db : Database) {u : User}
    (hu : u ∈ db.users) (discordId : String) :
    NeverLoses pkg fails db u discordId ↔ Mergeable pkg fails db u discordId := by
  cases hfound : db.socialUser pkg fails discordId with
  | none => exact neverLoses_of_none hu hfound
  | some s =>
    unfold NeverLoses Mergeable connectSocial
    rw [hfound]
    dsimp only
    by_cases hcredentials : s.localCredentials = true
    · rw [if_pos hcredentials]
      exact iff_of_true rfl (.inl hcredentials)
    · rw [if_neg hcredentials]
      by_cases hmove : fails .moveRooms = true
      · rw [if_pos hmove]
        exact iff_of_true rfl (.inr (.inl hmove))
      · rw [if_neg hmove]
        by_cases hdelete : fails .deleteUser = true
        · rw [if_pos hdelete, if_pos hdelete]
          have hs := (mem_of_socialUser hfound).1
          show db.moveRooms s.id u.id = db ↔ _
          rw [moveRooms_eq_self_iff hu hs]
          simp [hcredentials, hmove]
        · rw [if_neg hdelete, if_neg hdelete, neverLoses_of_delete hu hfound]
          simp [hcredentials, hmove]

/-- She has a password. -/
def alice : User := ⟨1, "alice", none, some [1], some [2], none⟩

/-- He has nothing but Discord. -/
def bob : User := ⟨2, "bob", none, none, none, some "42"⟩

/-- The two, and a room of his. -/
def aliceAndBob : Database where
  users := (Users.empty.add alice).add bob
  rooms := Table.empty.insert ⟨7, some 2⟩ (fun _ h => absurd h Table.not_mem_empty)

/-- Alice links his Discord account, and gets his room. -/
theorem neverLoses_iff_merge :
    NeverLoses examplePackages (fun _ => false) aliceAndBob alice "42" :=
  (neverLoses_iff examplePackages (fun _ => false) aliceAndBob (u := alice) (.head _) "42").mpr
    (.inr (.inr ⟨by decide, .inr rfl, show ∀ v ∈ [alice, bob], _ by decide⟩))

/-- **He links his own**: his account is deleted. -/
theorem not_neverLoses : ¬ ∀ (pkg : Packages) (fails : Query → Bool) (db : Database) (u : User),
    u ∈ db.users → ∀ discordId, NeverLoses pkg fails db u discordId := by
  intro h
  have hlinked : Linked aliceAndBob (aliceAndBob.moveRooms 2 2 |>.destroyUser bob) bob "42" :=
    h examplePackages (fun _ => false) aliceAndBob bob (.tail _ (.head _)) "42"
  obtain ⟨v, hv, hid, -⟩ := hlinked.kept
  exact (Users.mem_destroy.mp hv).2 hid

end OpenTogetherTube.Server.Accounts
