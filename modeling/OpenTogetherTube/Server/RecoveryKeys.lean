import OpenTogetherTube.Server.Recovery

/-!
# Recovery keys

A key is used at most once, for the account it was issued for, and a request that fails has changed
nothing. The code does not see to it: two requests may use one key, since it is read, used and deleted
in segments of their own; the email of an account may have passed to another one; and what fails after
the password was saved fails too late, as does a request that the rate limiter has refused, which goes
on. `single_use_throughout` says that this is all, in runs of any number of requests.

The invariant says of each request what it relies on (`Fine`). A step changes little of that: it
issues a key, it uses one, or it does neither (`Inv.issue`, `Inv.used`, `Inv.keeps`).
-/

namespace OpenTogetherTube.Server.Recovery

open OpenTogetherTube.Lib Accounts

/-! ## The specification -/

abbrev Turn := Program.Turn State Task

abbrev History := Pool State Task Finished × List Turn

/-- Emails are unique. -/
def UniqueEmails (users : Users) : Prop :=
  ∀ u ∈ users, ∀ v ∈ users, ∀ email, u.email = some email → v.email = some email → u.id = v.id

/-- The account with the email has the id, if there is one. -/
def Owned (users : Users) (email : String) (id : Nat) : Prop :=
  ∀ u ∈ users, u.email = some email → u.id = id

/-- A request that verifies the key changes the table. -/
def Uses (key : String) (turn : Turn) : Prop :=
  turn.task.verifies = some key ∧ turn.after.users.table.rows ≠ turn.before.users.table.rows

instance (key : String) (turn : Turn) : Decidable (Uses key turn) :=
  inferInstanceAs (Decidable (_ ∧ _))

/-- The key is stored, for the account with the id. -/
def Issues (key : String) (id : Nat) (turn : Turn) : Prop :=
  turn.before.keys key = none ∧ turn.after.keys key ≠ none ∧
    ∃ limited r user email, turn.task = .startSetEx limited r user email ∧
      r.verificationKey = key ∧ user.id = id

def Issued (log : List Turn) (key : String) (id : Nat) : Prop := ∃ turn ∈ log, Issues key id turn

/-- Nothing but salt and hash of the account has changed. -/
def SetsPassword (u : User) (turn : Turn) : Prop :=
  ∃ salt hash, turn.before.users.table.Writes turn.after.users.table
    { u with salt := salt, hash := hash }

/-- **The purpose of a recovery key.** -/
structure SingleUse (t : History) : Prop where
  once : ∀ key, t.2.countP (fun turn => Uses key turn) ≤ 1
  issued : ∀ key id id', Issued t.2 key id → Issued t.2 key id' → id = id'
  bound : ∀ key, ∀ turn ∈ t.2, Uses key turn →
    ∃ u ∈ turn.before.users, Issued t.2 key u.id ∧ SetsPassword u turn
  failed : ∀ (i : Nat) r e, t.1.tasks[i]? = some (.done ⟨.verify r, .error e⟩) →
    ∀ turn ∈ t.2, turn.place = i → turn.after = turn.before

/-! ### What may not happen -/

/-- There is a key under the email, for the account with the id: it is stored, or will be, or was
read. -/
def Outstanding (t : History) (email : String) (id : Nat) : Prop :=
  (∃ key, t.1.shared.keys key = some email ∧ Issued t.2 key id) ∨
  (∃ limited r user, .waiting (.startSetEx limited r user email) ∈ t.1.tasks ∧ user.id = id) ∨
  ∃ limited r, .waiting (.verifyLookUp limited r email) ∈ t.1.tasks ∧ Issued t.2 r.verifyKey id

section Conditions

variable (cfg : Settings)

/-- A key is not read while another request uses it; a password is saved by a request that was not
limited, and nothing fails then; and an account does not get an email that a key of another account is
out for. -/
def OrderlyTask (t : History) (i : Nat) (x : Answer) : Task → Prop
  | .verifyGet _ r => t.1.shared.keys r.verifyKey ≠ none → ∀ j ≠ i, ∀ task,
    t.1.tasks[j]? = some (.waiting task) → task.holding ≠ some r.verifyKey
  | .verifySave limited r user =>
    Saves cfg t.1.shared x user (r.edit user) → x = .done ∧ limited = false
  | .verifyDel _ _ _ | .verifySession _ _ _ _ | .verifyReward _ _ => x = .done
  | .patchRehash old user _ _ | .patchSave old user _ => Saves cfg t.1.shared x old user →
    ∀ email ∈ user.email, old.email ≠ some email → ∀ id, Outstanding t email id → id = user.id
  | _ => True

def Orderly (t : History) : PoolEvent Request Answer String → Prop
  | .answer i x => ∀ task, t.1.tasks[i]? = some (.waiting task) → OrderlyTask cfg t i x task
  | _ => True

/-- The key that a request draws. -/
def drawnKey : PoolEvent Request Answer String → Option String
  | .call (.start r) => some r.verificationKey
  | _ => none

end Conditions

/-! ## What holds of a request -/

def Undrawn (s : State) (log : List Turn) (key : String) : Prop :=
  s.keys key = none ∧ ∀ id, ¬ Issued log key id

def Unused (log : List Turn) (key : String) : Prop := ∀ turn ∈ log, ¬ Uses key turn

/-- The request has changed nothing so far. -/
def Quiet (log : List Turn) (i : Nat) : Prop := ∀ turn ∈ log, turn.place = i → turn.after = turn.before

def Fine (s : State) (log : List Turn) (i : Nat) : Progress Task Finished → Prop
  | .waiting (.startConsume r) | .waiting (.startLookUp _ r) => Undrawn s log r.verificationKey
  | .waiting (.startSetEx _ r user email) =>
    Undrawn s log r.verificationKey ∧ Owned s.users email user.id
  | .waiting (.verifyConsume _) | .waiting (.verifyGet _ _) => Quiet log i
  | .waiting (.verifyLookUp _ r email) =>
    Quiet log i ∧ Unused log r.verifyKey ∧
      ∃ id, Issued log r.verifyKey id ∧ Owned s.users email id
  | .waiting (.verifySave _ r user) =>
    Quiet log i ∧ Unused log r.verifyKey ∧ Issued log r.verifyKey user.id
  | .waiting (.verifyDel limited _ _) | .waiting (.verifySession limited _ _ _)
  | .waiting (.verifyReward limited _) => limited = false
  | .done ⟨.verify _, .error _⟩ => Quiet log i
  | _ => True

theorem Patching.fine {pr : Progress Task Finished} {s : State} {log : List Turn} {i : Nat}
    (h : Patching pr) : Fine s log i pr := by
  rcases h with ⟨task, htask, rfl⟩ | ⟨id, update, response, rfl⟩
  · cases task <;> trivial
  · trivial

/-- A key that was used is about to be deleted. -/
def Deleting (tasks : List (Progress Task Finished)) (key : String) : Prop :=
  ∃ task : Task, .waiting task ∈ tasks ∧ task.deletes = some key

/-- **The invariant.** -/
structure Inv (t : History) : Prop where
  emails : UniqueEmails t.1.shared.users
  places : ∀ turn ∈ t.2, turn.place < t.1.tasks.length
  fine : ∀ (i : Nat) pr, t.1.tasks[i]? = some pr → Fine t.1.shared t.2 i pr
  draws : Program.Exclusive Task.draws t.1.tasks
  holding : Program.Exclusive Task.holding t.1.tasks
  stored : ∀ key email, t.1.shared.keys key = some email →
    (∃ id, Issued t.2 key id ∧ Owned t.1.shared.users email id) ∧
      (Unused t.2 key ∨ Deleting t.1.tasks key)
  once : ∀ key, t.2.countP (fun turn => Uses key turn) ≤ 1
  issued : ∀ key id id', Issued t.2 key id → Issued t.2 key id' → id = id'
  bound : ∀ key, ∀ turn ∈ t.2, Uses key turn →
    ∃ u ∈ turn.before.users, Issued t.2 key u.id ∧ SetsPassword u turn

theorem Inv.singleUse {t : History} (h : Inv t) : SingleUse t where
  once := h.once
  issued := h.issued
  bound := h.bound
  failed i _ _ ht := h.fine i _ ht

/-! ## The log -/

section Log

variable {s s' : State} {log new : List Turn} {key email : String} {i id : Nat}

theorem issued_append :
    Issued (log ++ new) key id ↔ Issued log key id ∨ Issued new key id := by
  unfold Issued
  simp only [List.mem_append, or_and_right, exists_or]

theorem unused_append : Unused (log ++ new) key ↔ Unused log key ∧ Unused new key :=
  List.forall_mem_append

theorem quiet_append : Quiet (log ++ new) i ↔ Quiet log i ∧ Quiet new i :=
  List.forall_mem_append

theorem countP_uses_eq_zero (h : Unused log key) :
    log.countP (fun turn => Uses key turn) = 0 := by
  rw [List.countP_eq_zero]
  exact fun turn hturn => by simpa using h turn hturn

/-- A segment that changes nothing. -/
theorem unused_still {task : Task} : Unused [⟨i, task, s, s⟩] key := by
  rintro turn hturn ⟨-, hne⟩
  cases List.mem_singleton.mp hturn
  exact hne rfl

theorem not_issued_still {j : Nat} {task : Task} : ¬ Issued [⟨j, task, s, s⟩] key id := by
  rintro ⟨turn, hturn, hbefore, hafter, -⟩
  cases List.mem_singleton.mp hturn
  exact hafter hbefore

theorem quiet_still {j : Nat} {task : Task} : Quiet [⟨j, task, s, s⟩] i := by
  intro turn hturn _
  cases List.mem_singleton.mp hturn
  rfl

/-- Of another task. -/
theorem quiet_of_ne (h : ∀ turn ∈ new, turn.place ≠ i) : Quiet new i :=
  fun turn hturn heq => absurd heq (h turn hturn)

/-- What has happened to a request stays so, as long as what it relies on does. -/
theorem Fine.frame {pr : Progress Task Finished} (h : Fine s log i pr) (hquiet : Quiet new i)
    (hundrawn : ∀ task key, pr = .waiting task → task.draws = some key → Undrawn s log key →
      Undrawn s' (log ++ new) key)
    (hunused : ∀ task key, pr = .waiting task → task.holding = some key → Unused log key →
      Unused (log ++ new) key)
    (howned : ∀ limited r user email, pr = .waiting (.startSetEx limited r user email) →
      Owned s.users email user.id → Owned s'.users email user.id)
    (howned' : ∀ limited r email id, pr = .waiting (.verifyLookUp limited r email) →
      Issued log r.verifyKey id → Owned s.users email id → Owned s'.users email id) :
    Fine s' (log ++ new) i pr := by
  have hquiet' : Quiet log i → Quiet (log ++ new) i := fun hold => quiet_append.mpr ⟨hold, hquiet⟩
  cases pr with
  | done result =>
    obtain ⟨request, response⟩ := result
    cases request with
    | verify r =>
      cases response with
      | ok _ => trivial
      | error e => exact hquiet' h
    | start r => trivial
    | patchAccount id update => trivial
  | waiting task =>
    cases task with
    | startConsume r => exact hundrawn _ _ rfl rfl h
    | startLookUp limited r => exact hundrawn _ _ rfl rfl h
    | startSetEx limited r user email =>
      exact ⟨hundrawn _ _ rfl rfl h.1, howned _ _ _ _ rfl h.2⟩
    | verifyConsume r => exact hquiet' h
    | verifyGet limited r => exact hquiet' h
    | verifyLookUp limited r email =>
      obtain ⟨hold, hfree, id, hissued, howns⟩ := h
      exact ⟨hquiet' hold, hunused _ _ rfl rfl hfree, id, issued_append.mpr (.inl hissued),
        howned' _ _ _ _ rfl hissued howns⟩
    | verifySave limited r user =>
      exact ⟨hquiet' h.1, hunused _ _ rfl rfl h.2.1, issued_append.mpr (.inl h.2.2)⟩
    | verifyDel limited r user => exact h
    | verifySession limited r user token => exact h
    | verifyReward limited r => exact h
    | startSend | patchLoad | patchConsume | patchCheck | patchRehash | patchSave => trivial

end Log

/-! ## A row that is saved -/

section Saves

variable {pkg : Packages} {users users' : Users} {old user v : User} {email : String} {id : Nat}

/-- A row has the email it had, or the new one of the user. -/
theorem email_merge (h : (User.merge old user v).email = some email) :
    v.email = some email ∨ user.email = some email ∧ old.email ≠ some email := by
  unfold User.merge at h
  dsimp only at h
  split at h
  · exact .inl h
  · next hne => exact .inr ⟨h, fun hold => hne (h.trans hold.symm)⟩

theorem owned_of_saveColumns (h : users.saveColumns pkg old user = .ok users')
    (howned : Owned users email id)
    (hclear : user.email = some email → old.email ≠ some email → id = user.id) :
    Owned users' email id := by
  rcases Users.saveColumns_eq_ok h with ⟨rfl, -⟩ | ⟨rfl, -⟩
  · exact howned
  · intro v hv hemail
    obtain ⟨w, hw, rfl⟩ := Users.mem_updateColumns.mp hv
    split at hemail
    · next hid =>
      rw [if_pos hid]
      rcases email_merge hemail with hsame | ⟨hnew, hne⟩
      · exact howned w hw hsame
      · exact hid.trans (hclear hnew hne).symm
    · next hid =>
      rw [if_neg hid]
      exact howned w hw hemail

/-- The database sees to it. -/
theorem uniqueEmails_of_saveColumns (h : users.saveColumns pkg old user = .ok users')
    (hunique : UniqueEmails users) : UniqueEmails users' := by
  rcases Users.saveColumns_eq_ok h with ⟨rfl, -⟩ | ⟨rfl, hconflicts⟩
  · exact hunique
  · -- a row that is merged, and one with another id
    have hother : ∀ v ∈ users, ∀ w ∈ users, v.id = user.id → w.id ≠ user.id → ∀ email,
        (User.merge old user v).email = some email → w.email ≠ some email := by
      intro v hv w hw hid hne email hmerged hemail
      rcases email_merge hmerged with hsame | ⟨hnew, hchanged⟩
      · exact hne ((hunique v hv w hw email hsame hemail).symm.trans hid)
      · exact Users.ne_of_conflicts hconflicts hnew hchanged hw hne hemail
    intro u' hmemu v' hmemv email hu' hv'
    obtain ⟨u, hu, rfl⟩ := Users.mem_updateColumns.mp hmemu
    obtain ⟨v, hv, rfl⟩ := Users.mem_updateColumns.mp hmemv
    by_cases huid : u.id = user.id <;> by_cases hvid : v.id = user.id
    · rw [if_pos huid, if_pos hvid]
      exact huid.trans hvid.symm
    · rw [if_pos huid] at hu'
      rw [if_neg hvid] at hv'
      exact absurd hv' (hother u hu v hv huid hvid email hu')
    · rw [if_neg huid] at hu'
      rw [if_pos hvid] at hv'
      exact absurd hu' (hother v hv u hu hvid huid email hv')
    · rw [if_neg huid] at hu' ⊢
      rw [if_neg hvid] at hv' ⊢
      exact hunique u hu v hv email hu' hv'

/-- A new password is all that is written with it. -/
theorem writes_of_saveColumns {salt hash : Buffer}
    (h : users.saveColumns pkg old (old.setPassword salt hash) = .ok users')
    (hne : users'.table.rows ≠ users.table.rows) :
    ∃ u ∈ users, u.id = old.id ∧ ∃ salt hash,
      Table.Writes users.table users'.table { u with salt := salt, hash := hash } := by
  rcases Users.saveColumns_eq_ok h with ⟨rfl, -⟩ | ⟨rfl, -⟩
  · exact absurd rfl hne
  · by_cases hfound : ∃ u ∈ users, u.id = (old.setPassword salt hash).id
    · obtain ⟨u, hu, hid⟩ := hfound
      have hmerge : User.merge old (old.setPassword salt hash) u =
          { u with
            salt := (User.merge old (old.setPassword salt hash) u).salt
            hash := (User.merge old (old.setPassword salt hash) u).hash } := by
        simp [User.merge, User.setPassword]
      have hwrites := @Users.writes_updateColumns _ _ u old hu hid
      rw [hmerge] at hwrites
      exact ⟨u, hu, hid, _, _, hwrites⟩
    · refine absurd (congrArg Table.rows (Users.updateColumns_eq_self ?_)) hne
      exact fun u hu hid => hfound ⟨u, hu, hid⟩

end Saves

/-! ## Kinds of steps -/

section Steps

variable {s s' : State} {log new : List Turn} {tasks tasks' : List (Progress Task Finished)}
  {i : Nat} {task : Task} {pr : Progress Task Finished}

/-- **A task goes on**, and what the others rely on is kept. -/
theorem Inv.fine_advance (h : Inv (⟨s, tasks⟩, log)) (hadv : Program.Advance tasks i pr tasks')
    (hplace : ∀ turn ∈ new, turn.place = i)
    (hundrawn : ∀ j ≠ i, ∀ task key, tasks[j]? = some (.waiting task) → task.draws = some key →
      Undrawn s log key → Undrawn s' (log ++ new) key)
    (hunused : ∀ j ≠ i, ∀ task key, tasks[j]? = some (.waiting task) → task.holding = some key →
      Unused log key → Unused (log ++ new) key)
    (howned : ∀ email id, Outstanding (⟨s, tasks⟩, log) email id → Owned s.users email id →
      Owned s'.users email id)
    (hfine : Fine s' (log ++ new) i pr) :
    ∀ (j : Nat) pr', tasks'[j]? = some pr' → Fine s' (log ++ new) j pr' := by
  intro j pr' hj
  by_cases hji : j = i
  · subst hji
    cases hadv.here.symm.trans hj
    exact hfine
  · rw [hadv.elsewhere j hji] at hj
    apply (h.fine j pr' hj).frame
    · exact quiet_of_ne (fun turn hturn heq => hji ((heq.symm.trans (hplace turn hturn))))
    · rintro task key rfl
      exact hundrawn j hji task key hj
    · rintro task key rfl
      exact hunused j hji task key hj
    · rintro limited r user email rfl
      exact howned email user.id (.inr (.inl ⟨limited, r, user, List.mem_of_getElem? hj, rfl⟩))
    · rintro limited r email id rfl hissued
      exact howned email id (.inr (.inr ⟨limited, r, List.mem_of_getElem? hj, hissued⟩))

/-- No other task deletes the key. -/
theorem Deleting.advance {key : String} (hadv : Program.Advance tasks i pr tasks')
    (hi : ∀ task, tasks[i]? = some (.waiting task) → task.deletes ≠ some key)
    (h : Deleting tasks key) : Deleting tasks' key := by
  obtain ⟨task, hmem, hkey⟩ := h
  obtain ⟨j, hj⟩ := List.mem_iff_getElem?.mp hmem
  have hji : j ≠ i := by
    rintro rfl
    exact hi task hj hkey
  exact ⟨task, hadv.mem_of_ne hji hj, hkey⟩

/-- No key is issued, keys may be lost, and emails for which there is a key stay where they are. -/
structure Keeps (t : History) (s' : State) (new : List Turn) : Prop where
  emails : UniqueEmails s'.users
  owned : ∀ email id, Outstanding t email id → Owned t.1.shared.users email id →
    Owned s'.users email id
  keys : ∀ key, s'.keys key = t.1.shared.keys key ∨ s'.keys key = none
  issued : ∀ key id, ¬ Issued new key id

theorem Keeps.issued_append_iff {t : History} {key : String} {id : Nat} (h : Keeps t s' new) :
    Issued (t.2 ++ new) key id ↔ Issued t.2 key id := by
  rw [issued_append, or_iff_left (h.issued key id)]

theorem Keeps.undrawn {t : History} {key : String} (h : Keeps t s' new)
    (hold : Undrawn t.1.shared t.2 key) : Undrawn s' (t.2 ++ new) key := by
  refine ⟨?_, fun id hissued => hold.2 id (h.issued_append_iff.mp hissued)⟩
  rcases h.keys key with hsame | hnone
  · rw [hsame]
    exact hold.1
  · exact hnone

/-- A key that was not used before is used now. -/
structure UsedNow (t : History) (i : Nat) (tasks' : List (Progress Task Finished))
    (new : List Turn) (key : String) : Prop where
  before : Unused t.2 key
  holds : ∃ task, t.1.tasks[i]? = some (.waiting task) ∧ task.holding = some key
  deleting : Deleting tasks' key
  once : new.countP (fun turn => Uses key turn) ≤ 1
  bound : ∀ turn ∈ new, Uses key turn →
    ∃ u ∈ turn.before.users, Issued t.2 key u.id ∧ SetsPassword u turn

/-- **A step that issues no key.** -/
theorem Inv.keeps (h : Inv (⟨s, tasks⟩, log)) (hkeeps : Keeps (⟨s, tasks⟩, log) s' new)
    (hadv : Program.Advance tasks i pr tasks') (hplace : ∀ turn ∈ new, turn.place = i)
    (hused : ∀ key, Unused new key ∨ UsedNow (⟨s, tasks⟩, log) i tasks' new key)
    (hfine : Fine s' (log ++ new) i pr)
    (hdraws : Program.Exclusive Task.draws tasks')
    (hholding : Program.Exclusive Task.holding tasks')
    (hdel : ∀ task key, tasks[i]? = some (.waiting task) → task.deletes = some key →
      s'.keys key = none) :
    Inv (⟨s', tasks'⟩, log ++ new) := by
  refine ⟨hkeeps.emails, ?_, ?_, hdraws, hholding, ?_, ?_, ?_, ?_⟩
  · intro turn hturn
    rcases List.mem_append.mp hturn with hold | hnew
    · exact hadv.lt_length (h.places turn hold)
    · rw [hplace turn hnew]
      exact hadv.here_lt
  · apply h.fine_advance hadv hplace (fun _ _ _ _ _ _ => hkeeps.undrawn) ?_ hkeeps.owned hfine
    -- the task that uses a key is the only one that holds it
    intro j hji task' key hj hkey hunused
    rcases hused key with hnew | hnow
    · exact unused_append.mpr ⟨hunused, hnew⟩
    · obtain ⟨task, ht, hholds⟩ := hnow.holds
      exact absurd (h.holding j i task' task key hj ht hkey hholds) hji
  · intro key email hkey
    have hold : s.keys key = some email := by
      rcases hkeeps.keys key with hsame | hnone
      · exact hsame.symm.trans hkey
      · rw [hnone] at hkey
        cases hkey
    obtain ⟨⟨id, hissued, howned⟩, hdeleting⟩ := h.stored key email hold
    refine ⟨⟨id, hkeeps.issued_append_iff.mpr hissued,
      hkeeps.owned email id (.inl ⟨key, hold, hissued⟩) howned⟩, ?_⟩
    rcases hused key with hnew | hnow
    · rcases hdeleting with hunused | hdeleting
      · exact .inl (unused_append.mpr ⟨hunused, hnew⟩)
      · refine .inr (hdeleting.advance hadv ?_)
        intro task ht hdeletes
        rw [hdel task key ht hdeletes] at hkey
        cases hkey
    · exact .inr hnow.deleting
  · intro key
    rw [List.countP_append]
    rcases hused key with hnew | hnow
    · rw [countP_uses_eq_zero hnew]
      exact h.once key
    · rw [countP_uses_eq_zero hnow.before, Nat.zero_add]
      exact hnow.once
  · intro key id id' hid hid'
    exact h.issued key id id' (hkeeps.issued_append_iff.mp hid) (hkeeps.issued_append_iff.mp hid')
  · have hissued : ∀ {key turn}, (∃ u ∈ turn.before.users, Issued log key u.id ∧
        SetsPassword u turn) → ∃ u ∈ turn.before.users, Issued (log ++ new) key u.id ∧
        SetsPassword u turn := by
      rintro key turn ⟨u, hu, hissued, hsets⟩
      exact ⟨u, hu, hkeeps.issued_append_iff.mpr hissued, hsets⟩
    intro key turn hturn huses
    rcases List.mem_append.mp hturn with hold | hnew
    · exact hissued (h.bound key turn hold huses)
    · rcases hused key with hunused | hnow
      · exact absurd huses (hunused turn hnew)
      · exact hissued (hnow.bound turn hnew huses)

/-- The table is as it was. -/
theorem Inv.keeps_of_users (h : Inv (⟨s, tasks⟩, log)) (husers : s'.users = s.users)
    (hkeys : ∀ key, s'.keys key = s.keys key ∨ s'.keys key = none)
    (hissued : ∀ key id, ¬ Issued new key id) : Keeps (⟨s, tasks⟩, log) s' new := by
  refine ⟨?_, fun email id _ howned => ?_, hkeys, hissued⟩
  · rw [husers]
    exact h.emails
  · rw [husers]
    exact howned

/-- The table is not changed by a suspended task. -/
theorem Inv.changed (h : Inv (⟨s, tasks⟩, log)) (ht : tasks[i]? = some (.waiting task))
    (husers : s'.users = s.users)
    (hkeys : ∀ key, s'.keys key = s.keys key ∨ s'.keys key = none)
    (hissued : ∀ key id, ¬ Issued [⟨i, task, s, s'⟩] key id)
    (hfine : Fine s' (log ++ [⟨i, task, s, s'⟩]) i pr)
    (hdraws : Program.Exclusive Task.draws (tasks.set i pr))
    (hholding : Program.Exclusive Task.holding (tasks.set i pr))
    (hdel : ∀ key, task.deletes = some key → s'.keys key = none) :
    Inv (⟨s', tasks.set i pr⟩, log ++ [⟨i, task, s, s'⟩]) := by
  refine h.keeps (h.keeps_of_users husers hkeys hissued) (Program.advance_set ht pr) ?_
    (fun key => .inl ?_) hfine hdraws hholding ?_
  · exact fun turn hturn => by rw [List.mem_singleton.mp hturn]
  · rintro turn hturn ⟨-, hne⟩
    cases List.mem_singleton.mp hturn
    exact hne (by rw [husers])
  · intro task' key ht' hkey
    cases ht.symm.trans ht'
    exact hdel key hkey

/-- Nothing is changed. -/
theorem Inv.still (h : Inv (⟨s, tasks⟩, log)) (ht : tasks[i]? = some (.waiting task))
    (hfine : Fine s log i pr)
    (hdraws : Program.Exclusive Task.draws (tasks.set i pr))
    (hholding : Program.Exclusive Task.holding (tasks.set i pr))
    (hdel : task.deletes = none) :
    Inv (⟨s, tasks.set i pr⟩, log ++ [⟨i, task, s, s⟩]) := by
  have hkeeps := h.keeps_of_users rfl (fun _ => .inl rfl)
    (fun _ _ => @not_issued_still s _ _ i task)
  apply h.changed ht rfl (fun _ => .inl rfl) (fun _ _ => not_issued_still) ?_
    hdraws hholding (fun key hkey => by rw [hdel] at hkey; cases hkey)
  exact hfine.frame quiet_still (fun _ _ _ _ => hkeeps.undrawn)
    (fun _ _ _ _ hunused => unused_append.mpr ⟨hunused, unused_still⟩)
    (fun _ _ _ _ _ => id) (fun _ _ _ _ _ _ => id)

/-- A key is stored that was drawn by the request. -/
theorem Inv.issue {limited : Bool} {r : StartRequest} {user : User} {email : String}
    (h : Inv (⟨s, tasks⟩, log))
    (ht : tasks[i]? = some (.waiting (.startSetEx limited r user email)))
    (hpr : pr = .waiting (.startSend limited r) ∨ ∃ response, pr = r.finish limited response) :
    Inv (⟨s.setEx r.verificationKey email, tasks.set i pr⟩,
      log ++ [⟨i, .startSetEx limited r user email, s, s.setEx r.verificationKey email⟩]) := by
  obtain ⟨⟨hnone, hunissued⟩, howned⟩ := h.fine i _ ht
  have hadv := Program.advance_set ht pr
  -- what the new turn issues
  have hissues : ∀ key id, Issued [⟨i, .startSetEx limited r user email, s,
      s.setEx r.verificationKey email⟩] key id ↔ key = r.verificationKey ∧ id = user.id := by
    intro key id
    constructor
    · rintro ⟨turn, hturn, -, -, limited', r', user', email', htask, rfl, rfl⟩
      cases List.mem_singleton.mp hturn
      cases htask
      exact ⟨rfl, rfl⟩
    · rintro ⟨rfl, rfl⟩
      refine ⟨_, List.mem_singleton_self _, hnone, ?_, limited, r, user, email, rfl, rfl, rfl⟩
      show Function.update s.keys _ _ _ ≠ none
      rw [Function.update_self]
      exact Option.some_ne_none _
  have hunused : ∀ key, Unused [⟨i, .startSetEx limited r user email, s,
      s.setEx r.verificationKey email⟩] key := by
    rintro key turn hturn ⟨hverifies, -⟩
    cases List.mem_singleton.mp hturn
    cases hverifies
  have hold : ∀ key, Unused log key → Unused (log ++ [⟨i, .startSetEx limited r user email, s,
      s.setEx r.verificationKey email⟩]) key :=
    fun key hlog => unused_append.mpr ⟨hlog, hunused key⟩
  refine ⟨h.emails, ?_, ?_, ?_, ?_, ?_, ?_, ?_, ?_⟩
  · intro turn hturn
    rcases List.mem_append.mp hturn with hin | hnew
    · exact hadv.lt_length (h.places turn hin)
    · rw [List.mem_singleton.mp hnew]
      exact hadv.here_lt
  · apply h.fine_advance hadv
    · exact fun turn hturn => by rw [List.mem_singleton.mp hturn]
    · -- a key is drawn by one request only
      intro j hji task key hj hkey hundrawn
      have hne : key ≠ r.verificationKey := by
        rintro rfl
        exact hji (h.draws j i _ _ _ hj ht hkey rfl)
      refine ⟨(Function.update_of_ne hne _ _).trans hundrawn.1, fun id hissued => ?_⟩
      rcases issued_append.mp hissued with hin | hnew
      · exact hundrawn.2 id hin
      · exact hne ((hissues key id).mp hnew).1
    · exact fun _ _ _ key _ _ => hold key
    · exact fun _ _ _ howns => howns
    · rcases hpr with rfl | ⟨response, rfl⟩ <;> trivial
  · apply h.draws.set ht
    intro task' key heq hkey
    rcases hpr with rfl | ⟨response, rfl⟩
    · cases heq
      exact hkey
    · cases heq
  · apply h.holding.set ht
    intro task' key heq hkey
    rcases hpr with rfl | ⟨response, rfl⟩
    · cases heq
      cases hkey
    · cases heq
  · intro key email' hkey
    by_cases heq : key = r.verificationKey
    · subst heq
      cases (Function.update_self _ _ _).symm.trans hkey
      refine ⟨⟨user.id, issued_append.mpr (.inr ((hissues _ _).mpr ⟨rfl, rfl⟩)), howned⟩, .inl ?_⟩
      refine hold _ (fun turn hturn huses => ?_)
      obtain ⟨u, -, hissued, -⟩ := h.bound _ turn hturn huses
      exact hunissued _ hissued
    · obtain ⟨⟨id, hissued, howns⟩, hused⟩ :=
        h.stored key email' ((Function.update_of_ne heq _ _).symm.trans hkey)
      refine ⟨⟨id, issued_append.mpr (.inl hissued), howns⟩, ?_⟩
      refine hused.imp (hold key) (fun hdeleting => hdeleting.advance hadv ?_)
      intro task ht' hdel
      cases ht.symm.trans ht'
      cases hdel
  · intro key
    rw [List.countP_append, countP_uses_eq_zero (hunused key)]
    exact h.once key
  · intro key id id' hid hid'
    rcases issued_append.mp hid with hid | hid <;> rcases issued_append.mp hid' with hid' | hid'
    · exact h.issued key id id' hid hid'
    · obtain ⟨rfl, -⟩ := (hissues key id').mp hid'
      exact absurd hid (hunissued id)
    · obtain ⟨rfl, -⟩ := (hissues key id).mp hid
      exact absurd hid' (hunissued id')
    · exact ((hissues key id).mp hid).2.trans ((hissues key id').mp hid').2.symm
  · intro key turn hturn huses
    rcases List.mem_append.mp hturn with hin | hnew
    · obtain ⟨u, hu, hissued, hsets⟩ := h.bound key turn hin huses
      exact ⟨u, hu, issued_append.mpr (.inl hissued), hsets⟩
    · exact absurd huses (hunused key turn hnew)

/-- The row of an account is saved, by a request that is not about keys. -/
theorem Inv.patched {pkg : Packages} {old user : User} {users' : Users}
    (h : Inv (⟨s, tasks⟩, log)) (ht : tasks[i]? = some (.waiting task)) (htask : task.Patches)
    (hpr : Patching pr) (hsaved : s.users.saveColumns pkg old user = .ok users')
    (hclear : ∀ email ∈ user.email, old.email ≠ some email → ∀ id,
      Outstanding (⟨s, tasks⟩, log) email id → id = user.id) :
    Inv (⟨s.withUsers users', tasks.set i pr⟩, log ++ [⟨i, task, s, s.withUsers users'⟩]) := by
  have hkeeps : Keeps (⟨s, tasks⟩, log) (s.withUsers users')
      [⟨i, task, s, s.withUsers users'⟩] := by
    refine ⟨uniqueEmails_of_saveColumns hsaved h.emails, ?_, fun _ => .inl rfl, ?_⟩
    · intro email id hout howned
      exact owned_of_saveColumns hsaved howned (fun hnew hne => hclear email hnew hne id hout)
    · rintro key id ⟨turn, hturn, hbefore, hafter, -⟩
      cases List.mem_singleton.mp hturn
      exact hafter hbefore
  refine h.keeps hkeeps (Program.advance_set ht pr) ?_ (fun key => .inl ?_) hpr.fine
    (h.draws.set ht ?_) (h.holding.set ht ?_) ?_
  · exact fun turn hturn => by rw [List.mem_singleton.mp hturn]
  · rintro turn hturn ⟨hverifies, -⟩
    cases List.mem_singleton.mp hturn
    rw [htask.verifies] at hverifies
    cases hverifies
  · intro task' key heq hkey
    rw [(hpr.of_waiting heq).draws] at hkey
    cases hkey
  · intro task' key heq hkey
    rw [(hpr.of_waiting heq).holding] at hkey
    cases hkey
  · intro task' key ht' hkey
    cases ht.symm.trans ht'
    rw [htask.deletes] at hkey
    cases hkey

/-- **A key is used.** -/
theorem Inv.used {pkg : Packages} {r : VerifyRequest} {user : User} {users' : Users}
    (h : Inv (⟨s, tasks⟩, log))
    (ht : tasks[i]? = some (.waiting (.verifySave false r user)))
    (hsaved : s.users.saveColumns pkg user (r.edit user) = .ok users') :
    Inv (⟨s.withUsers users', tasks.set i (.waiting (.verifyDel false r user))⟩,
      log ++ [⟨i, .verifySave false r user, s, s.withUsers users'⟩]) := by
  obtain ⟨-, hunused, hissued⟩ := h.fine i _ ht
  have hadv := Program.advance_set ht (.waiting (.verifyDel false r user))
  have hkeeps : Keeps (⟨s, tasks⟩, log) (s.withUsers users')
      [⟨i, .verifySave false r user, s, s.withUsers users'⟩] := by
    refine ⟨uniqueEmails_of_saveColumns hsaved h.emails, ?_, fun _ => .inl rfl, ?_⟩
    · intro email id _ howned
      exact owned_of_saveColumns hsaved howned (fun hnew hne => absurd hnew hne)
    · rintro key id ⟨turn, hturn, hbefore, hafter, -⟩
      cases List.mem_singleton.mp hturn
      exact hafter hbefore
  refine h.keeps hkeeps hadv ?_ ?_ rfl (h.draws.set ht ?_) (h.holding.set ht ?_) ?_
  · exact fun turn hturn => by rw [List.mem_singleton.mp hturn]
  · intro key
    by_cases hkey : r.verifyKey = key
    · subst hkey
      refine .inr ⟨hunused, ⟨_, ht, rfl⟩, ⟨_, List.mem_of_getElem? hadv.here, rfl⟩,
        List.countP_le_length, ?_⟩
      intro turn hturn huses
      cases List.mem_singleton.mp hturn
      obtain ⟨u, hu, hid, salt, hash, hwrites⟩ := writes_of_saveColumns hsaved huses.2
      exact ⟨u, hu, hid ▸ hissued, salt, hash, hwrites⟩
    · refine .inl ?_
      rintro turn hturn ⟨hverifies, -⟩
      cases List.mem_singleton.mp hturn
      exact hkey (Option.some.inj hverifies)
  · rintro task' key heq hkey
    cases heq
    cases hkey
  · rintro task' key heq hkey
    cases heq
    exact hkey
  · intro task key ht' hkey
    cases ht.symm.trans ht'
    cases hkey

/-! ## Every step -/

/-- Whatever a request to verify a key answers, if it has changed nothing. -/
theorem fine_finish {limited : Bool} {r : VerifyRequest} {response : Response}
    (h : Quiet log i) : Fine s log i (r.finish limited response) := by
  unfold VerifyRequest.finish finish
  cases respond limited response with
  | error e => exact h
  | ok _ => trivial

theorem Inv.draws_set {cfg : Settings} {x : Answer} (h : Inv (⟨s, tasks⟩, log))
    (ht : tasks[i]? = some (.waiting task)) (hr : resume cfg s task x = some (s', pr)) :
    Program.Exclusive Task.draws (tasks.set i pr) := by
  apply h.draws.set ht
  rintro task' key rfl
  exact (resume_inherits s hr).1 key

theorem Inv.holding_set {cfg : Settings} {x : Answer} (h : Inv (⟨s, tasks⟩, log))
    (ht : tasks[i]? = some (.waiting task)) (hr : resume cfg s task x = some (s', pr))
    (hget : task.gets = none) : Program.Exclusive Task.holding (tasks.set i pr) := by
  apply h.holding.set ht
  rintro task' key rfl hkey
  apply ((resume_inherits s hr).2 key hkey).resolve_right
  rw [hget]
  exact Option.some_ne_none key ∘ Eq.symm

/-- Where nothing is changed, it is enough to look at the task that goes on. -/
theorem Inv.read {cfg : Settings} {x : Answer} (h : Inv (⟨s, tasks⟩, log))
    (ht : tasks[i]? = some (.waiting task)) (hr : resume cfg s task x = some (s, pr))
    (hfine : Fine s log i pr) (hget : task.gets = none) (hdel : task.deletes = none) :
    Inv (⟨s, tasks.set i pr⟩, log ++ [⟨i, task, s, s⟩]) :=
  h.still ht hfine (h.draws_set ht hr) (h.holding_set ht hr hget) hdel

/-- A key is read that nobody else uses. -/
theorem Inv.got {limited : Bool} {r : VerifyRequest} {x : Answer} (h : Inv (⟨s, tasks⟩, log))
    (ht : tasks[i]? = some (.waiting (.verifyGet limited r)))
    (halone : OrderlyTask cfg (⟨s, tasks⟩, log) i x (.verifyGet limited r))
    {email : String} (hkey : s.keys r.verifyKey = some email)
    (hdraws : Program.Exclusive Task.draws
      (tasks.set i (.waiting (.verifyLookUp limited r email)))) :
    Inv (⟨s, tasks.set i (.waiting (.verifyLookUp limited r email))⟩,
      log ++ [⟨i, .verifyGet limited r, s, s⟩]) := by
  have hquiet : Quiet log i := h.fine i _ ht
  have hothers := halone (by rw [hkey]; exact Option.some_ne_none _)
  obtain ⟨hissued, hused⟩ := h.stored r.verifyKey email hkey
  have hunused : Unused log r.verifyKey := by
    refine hused.resolve_right ?_
    rintro ⟨task, hmem, hdeletes⟩
    obtain ⟨j, hj⟩ := List.mem_iff_getElem?.mp hmem
    have hji : j ≠ i := by
      rintro rfl
      cases ht.symm.trans hj
      cases hdeletes
    exact hothers j hji task hj (holding_of_deletes hdeletes)
  refine h.still ht ⟨hquiet, hunused, hissued⟩ hdraws ?_ rfl
  apply (Program.advance_set ht _).exclusive h.holding
  intro task' key heq hholding j hji task'' hj
  cases heq
  cases hholding
  exact hothers j hji task'' hj

/-- A segment of a request that is not about keys. -/
theorem Inv.resumed_patches {cfg : Settings} {x : Answer} (h : Inv (⟨s, tasks⟩, log))
    (ht : tasks[i]? = some (.waiting task)) (htask : task.Patches)
    (hok : OrderlyTask cfg (⟨s, tasks⟩, log) i x task)
    (hr : resume cfg s task x = some (s', pr)) :
    Inv (⟨s', tasks.set i pr⟩, log ++ [⟨i, task, s, s'⟩]) := by
  obtain ⟨hpr, rfl | ⟨old, user, users', hsaves, hcarried, hsaved, rfl⟩⟩ :=
    resume_patches s htask hr
  · exact h.read ht hr hpr.fine htask.gets htask.deletes
  · apply h.patched ht htask hpr hsaved
    cases task with
    | patchRehash | patchSave =>
      cases hsaves
      exact hok hcarried
    | _ => cases hsaves

/-- **A segment.** -/
theorem Inv.resumed {cfg : Settings} {x : Answer} (h : Inv (⟨s, tasks⟩, log))
    (ht : tasks[i]? = some (.waiting task)) (hok : OrderlyTask cfg (⟨s, tasks⟩, log) i x task)
    (hr : resume cfg s task x = some (s', pr)) :
    Inv (⟨s', tasks.set i pr⟩, log ++ [⟨i, task, s, s'⟩]) := by
  have hfine := h.fine i _ ht
  have hdraws := h.draws_set ht hr
  cases task with
  | startConsume r =>
    have hr' := hr
    unfold resume at hr'
    obtain ⟨rfl, ⟨limited, rfl⟩ | rfl⟩ := consumeRateLimitPoints_cases s hr'
    · exact h.read ht hr hfine rfl rfl
    · exact h.read ht hr trivial rfl rfl
  | startLookUp limited r =>
    obtain ⟨rfl, hpr⟩ := settle_reads hr
    apply h.read ht hr ?_ rfl rfl
    rcases hpr with rfl | rfl
    · rcases startFound_cases cfg s' limited r with ⟨response, hf⟩ | ⟨user, hu, email, he, hf⟩
      · rw [hf]
        trivial
      · rw [hf]
        exact ⟨hfine, fun v hv hemail => h.emails v hv user hu email hemail he⟩
    · trivial
  | startSetEx limited r user email =>
    rcases settle_cases hr with ⟨-, rfl, rfl⟩ | ⟨-, rfl, rfl⟩ | ⟨-, rfl, rfl⟩
    · exact h.issue ht (.inl rfl)
    · exact h.issue ht (.inr ⟨_, rfl⟩)
    · exact h.read ht hr trivial rfl rfl
  | startSend limited r =>
    obtain ⟨rfl, hpr⟩ := settle_reads hr
    apply h.read ht hr ?_ rfl rfl
    rcases hpr with rfl | rfl <;> trivial
  | verifyConsume r =>
    have hr' := hr
    unfold resume at hr'
    obtain ⟨rfl, hpr⟩ := consumeRateLimitPoints_cases s hr'
    apply h.read ht hr ?_ rfl rfl
    rcases hpr with ⟨limited, rfl⟩ | rfl
    · rcases verifyBegin_cases cfg limited r with ⟨response, hf⟩ | hf
      · rw [hf]
        exact fine_finish hfine
      · rw [hf]
        exact hfine
    · exact fine_finish hfine
  | verifyGet limited r =>
    obtain ⟨rfl, hpr⟩ := settle_reads hr
    have hfinish : ∀ response, pr = r.finish limited response →
        Inv (⟨s', tasks.set i pr⟩, log ++ [⟨i, .verifyGet limited r, s', s'⟩]) := by
      rintro response rfl
      refine h.still ht (fine_finish hfine) hdraws ?_ rfl
      exact h.holding.set ht (fun _ _ heq => by cases heq)
    rcases hpr with rfl | rfl
    · rcases verifyGot_cases s' limited r with ⟨response, hf⟩ | ⟨email, hkey, hf⟩
      · exact hfinish response hf
      · rw [hf] at hdraws ⊢
        exact h.got ht hok hkey hdraws
    · exact hfinish _ rfl
  | verifyLookUp limited r email =>
    obtain ⟨rfl, hpr⟩ := settle_reads hr
    obtain ⟨hquiet, hunused, id, hissued, howned⟩ := hfine
    apply h.read ht hr ?_ rfl rfl
    rcases hpr with rfl | rfl
    · rcases verifyFound_cases s' limited r email with ⟨response, hf⟩ | ⟨user, hu, hemail, hf⟩
      · rw [hf]
        exact fine_finish hquiet
      · rw [hf]
        exact ⟨hquiet, hunused, (howned user hu hemail).symm ▸ hissued⟩
    · exact fine_finish hquiet
  | verifySave limited r user =>
    rcases verifySaved_cases s hr with ⟨response, rfl, rfl⟩ | ⟨users', hsaved, rfl, hx⟩
    · exact h.read ht hr (fine_finish hfine.1) rfl rfl
    · have hnot : x ≠ .failed := by
        rcases hx with ⟨rfl, -⟩ | ⟨rfl, -⟩ <;> decide
      obtain ⟨rfl, rfl⟩ := hok ⟨hnot, users', hsaved⟩
      rcases hx with ⟨-, rfl⟩ | ⟨hlost, -⟩
      · exact h.used ht hsaved
      · cases hlost
  | verifyDel limited r user =>
    obtain rfl : x = .done := hok
    obtain rfl : limited = false := hfine
    have hholding := h.holding_set ht hr rfl
    cases hr
    refine h.changed ht rfl (s.keys_del r.verifyKey) ?_ ?_ hdraws hholding ?_
    · rintro key id ⟨turn, hturn, -, -, _, _, _, _, htask, -⟩
      cases List.mem_singleton.mp hturn
      cases htask
    · rcases verifyDeleted_cases cfg false r user with hf | hf | ⟨token, hf⟩ <;> rw [hf] <;> trivial
    · rintro key ⟨⟩
      exact s.keys_del_self r.verifyKey
  | verifySession limited r user token =>
    obtain rfl : x = .done := hok
    obtain rfl : limited = false := hfine
    have hholding := h.holding_set ht hr rfl
    cases hr
    refine h.changed ht rfl (fun _ => .inl rfl) ?_ ?_ hdraws hholding (fun _ hkey => by cases hkey)
    · rintro key id ⟨turn, hturn, -, -, _, _, _, _, htask, -⟩
      cases List.mem_singleton.mp hturn
      cases htask
    · rcases verifyReward_cases cfg false r with hf | hf <;> rw [hf] <;> trivial
  | verifyReward limited r =>
    obtain rfl : x = .done := hok
    obtain rfl : limited = false := hfine
    have hholding := h.holding_set ht hr rfl
    cases hr
    exact h.still ht trivial hdraws hholding rfl
  | patchLoad | patchConsume | patchCheck | patchRehash | patchSave =>
    exact h.resumed_patches ht trivial hok hr

/-! ### A call, and a key that expires -/

/-- A request has drawn the key, and waits or has gone on. -/
def Known (t : History) (key : String) : Prop :=
  (∃ task : Task, .waiting task ∈ t.1.tasks ∧ task.draws = some key) ∨
    ∃ turn ∈ t.2, turn.task.draws = some key

theorem Inv.undrawn {key : String} (h : Inv (⟨s, tasks⟩, log))
    (hnew : ¬ Known (⟨s, tasks⟩, log) key) : Undrawn s log key := by
  have hunissued : ∀ id, ¬ Issued log key id := by
    rintro id ⟨turn, hturn, -, -, limited, r, user, email, htask, rfl, -⟩
    refine hnew (.inr ⟨turn, hturn, ?_⟩)
    rw [htask]
    rfl
  refine ⟨?_, hunissued⟩
  cases hkey : s.keys key with
  | none => rfl
  | some email =>
    obtain ⟨⟨id, hissued, -⟩, -⟩ := h.stored key email hkey
    exact absurd hissued (hunissued id)

theorem fine_start (cfg : Settings) {request : Request} (hquiet : Quiet log i)
    (hundrawn : ∀ key ∈ drawnKey (.call request), Undrawn s log key) :
    Fine s log i (start cfg request) := by
  cases request with
  | start r =>
    have hkey : Undrawn s log r.verificationKey := hundrawn _ rfl
    show Fine s log i (accountRecoveryStart cfg r)
    rcases accountRecoveryStart_cases cfg r with ⟨response, hf⟩ | hf | hf <;> rw [hf]
    · trivial
    · exact hkey
    · exact hkey
  | verify r =>
    show Fine s log i (accountRecoveryVerify cfg r)
    rcases accountRecoveryVerify_cases cfg r with ⟨response, hf⟩ | hf | hf <;> rw [hf]
    · exact fine_finish hquiet
    · exact hquiet
    · exact hquiet
  | patchAccount id update => trivial

theorem start_waiting {cfg : Settings} {request : Request}
    (h : start cfg request = .waiting task) :
    (∀ key, task.draws = some key → drawnKey (.call request) = some key) ∧ task.holding = none := by
  cases request with
  | start r =>
    rcases accountRecoveryStart_cases cfg r with ⟨response, hf⟩ | hf | hf
    · cases hf.symm.trans h
    · cases hf.symm.trans h
      exact ⟨fun _ => id, rfl⟩
    · cases hf.symm.trans h
      exact ⟨fun _ => id, rfl⟩
  | verify r =>
    rcases accountRecoveryVerify_cases cfg r with ⟨response, hf⟩ | hf | hf
    · cases hf.symm.trans h
    · cases hf.symm.trans h
      exact ⟨fun _ hkey => (by cases hkey), rfl⟩
    · cases hf.symm.trans h
      exact ⟨fun _ hkey => (by cases hkey), rfl⟩
  | patchAccount id update =>
    cases h
    exact ⟨fun _ hkey => (by cases hkey), rfl⟩

theorem Inv.called {cfg : Settings} (h : Inv (⟨s, tasks⟩, log)) (request : Request)
    (hnew : ∀ key ∈ drawnKey (.call request), ¬ Known (⟨s, tasks⟩, log) key) :
    Inv (⟨s, tasks ++ [start cfg request]⟩, log) := by
  have hadv := Program.advance_append tasks (start cfg request)
  have hkeeps : Keeps (⟨s, tasks⟩, log) s [] :=
    h.keeps_of_users rfl (fun _ => .inl rfl) (fun _ _ ⟨_, hturn, _⟩ => by cases hturn)
  have hquiet : Quiet log tasks.length :=
    fun turn hturn heq => absurd (h.places turn hturn) (Nat.not_lt.mpr (Nat.le_of_eq heq.symm))
  have hinv := h.keeps hkeeps hadv (fun _ hturn => by cases hturn)
    (fun _ => .inl (fun _ hturn => by cases hturn)) ?_ ?_ ?_ ?_
  · rwa [List.append_nil] at hinv
  · rw [List.append_nil]
    exact fine_start cfg hquiet (fun key hkey => h.undrawn (hnew key hkey))
  · apply hadv.exclusive h.draws
    intro task key heq hkey j hj task' htask' hkey'
    exact hnew key ((start_waiting heq).1 key hkey)
      (.inl ⟨task', List.mem_of_getElem? htask', hkey'⟩)
  · apply hadv.exclusive h.holding
    intro task key heq hkey
    rw [(start_waiting heq).2] at hkey
    cases hkey
  · intro task key ht
    rw [List.getElem?_eq_none (Nat.le_refl _)] at ht
    cases ht

theorem Inv.expired (h : Inv (⟨s, tasks⟩, log)) (key : String) :
    Inv (⟨s.del key, tasks⟩, log) := by
  have hkeeps : Keeps (⟨s, tasks⟩, log) (s.del key) [] :=
    h.keeps_of_users rfl (s.keys_del key) (fun _ _ ⟨_, hturn, _⟩ => by cases hturn)
  refine ⟨h.emails, h.places, fun j pr hj => ?_, h.draws, h.holding, fun key' email hkey => ?_,
    h.once, h.issued, h.bound⟩
  · have hfine := (h.fine j pr hj).frame (fun _ hturn => by cases hturn)
      (fun _ _ _ _ => hkeeps.undrawn) (fun _ _ _ _ hunused => by rwa [List.append_nil])
      (fun _ _ _ _ _ => id) (fun _ _ _ _ _ _ => id)
    rwa [List.append_nil] at hfine
  · apply h.stored key' email
    rcases s.keys_del key key' with hsame | hnone
    · exact hsame.symm.trans hkey
    · rw [hnone] at hkey
      cases hkey

/-- **The step lemma.** -/
theorem step_inv {cfg : Settings} {t t' : History} {e : PoolEvent Request Answer String}
    (h : Inv t) (hok : Orderly cfg t e ∧ ∀ key ∈ drawnKey e, ¬ Known t key)
    (hstep : (program cfg).history.step t e = some t') : Inv t' := by
  obtain ⟨⟨s, tasks⟩, log⟩ := t
  rcases Program.history_cases hstep with ⟨request, rfl, rfl⟩ |
    ⟨i, x, task, s', pr, rfl, ht, hr, rfl⟩ | ⟨key, s', rfl, hs, rfl⟩
  · exact h.called request hok.2
  · exact h.resumed ht (hok.1 task ht) hr
  · cases hs
    exact h.expired key

/-- A key that is known was known before, or is drawn now. -/
theorem known_step {cfg : Settings} {t t' : History} {e : PoolEvent Request Answer String}
    {key : String} (hstep : (program cfg).history.step t e = some t') (h : Known t' key) :
    Known t key ∨ drawnKey e = some key := by
  rcases Program.history_cases hstep with ⟨request, rfl, rfl⟩ |
    ⟨i, x, task, s', pr, rfl, ht, hr, rfl⟩ | ⟨key', s', rfl, hs, rfl⟩
  · rcases h with ⟨task, hmem, hkey⟩ | hlog
    · rcases List.mem_append.mp hmem with hold | hnew
      · exact .inl (.inl ⟨task, hold, hkey⟩)
      · exact .inr ((start_waiting (List.mem_singleton.mp hnew).symm).1 key hkey)
    · exact .inl (.inr hlog)
  · have hmem : .waiting task ∈ t.1.tasks := List.mem_of_getElem? ht
    rcases h with ⟨task', hmem', hkey⟩ | ⟨turn, hturn, hkey⟩
    · rcases List.mem_or_eq_of_mem_set hmem' with hold | rfl
      · exact .inl (.inl ⟨task', hold, hkey⟩)
      · exact .inl (.inl ⟨task, hmem, (resume_inherits _ hr).1 key hkey⟩)
    · rcases List.mem_append.mp hturn with hold | hnew
      · exact .inl (.inr ⟨turn, hold, hkey⟩)
      · cases List.mem_singleton.mp hnew
        exact .inl (.inl ⟨task, hmem, hkey⟩)
  · exact .inl h

end Steps

/-! ## Every run -/

/-- Nobody has asked for anything. -/
def initial (users : Users) (sessions : String → Option Nat) : History :=
  (.idle ⟨users, fun _ => none, sessions⟩, [])

theorem inv_initial {users : Users} (hunique : UniqueEmails users)
    (sessions : String → Option Nat) : Inv (initial users sessions) where
  emails := hunique
  places := fun _ hturn => by cases hturn
  fine := fun _ _ ht => by cases ht
  draws := Program.exclusive_nil
  holding := Program.exclusive_nil
  stored := fun _ _ hkey => by cases hkey
  once := fun _ => Nat.zero_le 1
  issued := fun _ _ _ ⟨_, hturn, _⟩ => by cases hturn
  bound := fun _ _ hturn => by cases hturn

/-- **In every run in which keys are drawn once, a key is not used by two requests at a time, nothing
fails behind a password that was saved, and no account gets an email that a key of another account is
out for, a key is used once, on its account, and who fails has changed nothing.** -/
theorem single_use_throughout (cfg : Settings) {users : Users} (hunique : UniqueEmails users)
    (sessions : String → Option Nat) {events : List (PoolEvent Request Answer String)}
    (hkeys : (events.filterMap drawnKey).Nodup)
    (horderly : (program cfg).history.Along (Orderly cfg) (initial users sessions) events) :
    (program cfg).history.Always SingleUse (initial users sessions) events := by
  have hfresh := Machine.along_fresh (fun t e t' key => @known_step cfg t t' e key) hkeys
    (fun key _ (hknown : Known (initial users sessions) key) => by
      rcases hknown with ⟨_, hmem, _⟩ | ⟨_, hmem, _⟩ <;> cases hmem)
  exact (Machine.always_of_along (fun t e t' hinv hok hstep => step_inv hinv hok hstep)
    (inv_initial hunique sessions) (horderly.and hfresh)).imp (fun t => Inv.singleUse)

/-! ## Two requests with one key -/

def exampleSettings : Settings := ⟨⟨true, false⟩, examplePackages, false, true⟩

/-- Alice has registered. -/
def aliceOnly : Users := Users.empty.add (aliceRegisters.row 1)

theorem uniqueEmails_aliceOnly : UniqueEmails aliceOnly := by
  intro u hu v hv _ _ _
  cases List.mem_singleton.mp hu
  cases List.mem_singleton.mp hv
  rfl

/-- Alice is sent a key. -/
def aliceStarts : List (PoolEvent Request Answer String) :=
  [.call (.start ⟨.username "Alice", "key"⟩), .answer 0 .done, .answer 0 .done]

def newPassword (salt : UInt8) : VerifyRequest := ⟨"key", "battery staple 1", none, [salt], [salt]⟩

/-- She sets a password. -/
def aliceRecovers : List (PoolEvent Request Answer String) :=
  aliceStarts ++ [.call (.verify (newPassword 5)), .answer 1 .done, .answer 1 .done, .answer 1 .done,
    .answer 1 .done]

/-- The key is read twice before it is deleted. -/
def twoRecover : List (PoolEvent Request Answer String) :=
  aliceStarts ++ [.call (.verify (newPassword 5)), .call (.verify (newPassword 6)), .answer 1 .done,
    .answer 2 .done, .answer 1 .done, .answer 2 .done, .answer 1 .done, .answer 2 .done]

/-- In a run of one request after the other. -/
theorem orderly_aliceRecovers : (program exampleSettings).history.Along (Orderly exampleSettings)
    (initial aliceOnly (fun _ => none)) aliceRecovers := by
  refine Machine.along_cons rfl trivial ?_
  refine Machine.along_cons rfl (fun task htask => by cases htask; trivial) ?_
  refine Machine.along_cons rfl (fun task htask => by cases htask; trivial) ?_
  refine Machine.along_cons rfl trivial ?_
  refine Machine.along_cons rfl (fun task htask => ?_) ?_
  · cases htask
    rintro - j hj task htask hholding
    match j with
    | 0 =>
      cases htask
      cases hholding
    | 1 => exact hj rfl
    | j + 2 => cases htask
  refine Machine.along_cons rfl (fun task htask => by cases htask; trivial) ?_
  refine Machine.along_cons rfl (fun task htask => by cases htask; exact fun _ => ⟨rfl, rfl⟩) ?_
  exact Machine.along_cons rfl (fun task htask => by cases htask; rfl) trivial

theorem single_use_throughout_alice : (program exampleSettings).history.Always SingleUse
    (initial aliceOnly (fun _ => none)) aliceRecovers :=
  single_use_throughout exampleSettings uniqueEmails_aliceOnly _ (by decide) orderly_aliceRecovers

theorem not_single_use_throughout :
    ¬ ∀ (cfg : Settings) (users : Users) (sessions : String → Option Nat)
      (events : List (PoolEvent Request Answer String)), UniqueEmails users →
      (events.filterMap drawnKey).Nodup →
      (program cfg).history.Always SingleUse (initial users sessions) events := by
  intro h
  have hrun := h exampleSettings aliceOnly (fun _ => none) twoRecover uniqueEmails_aliceOnly
    (by decide)
  have htwice : ∃ t, (program exampleSettings).history.run (initial aliceOnly (fun _ => none))
      twoRecover = some t ∧ t.2.countP (fun turn => Uses "key" turn) = 2 :=
    ⟨_, rfl, by decide +kernel⟩
  obtain ⟨t, ht, hcount⟩ := htwice
  have honce := (hrun.last ht).once "key"
  rw [hcount] at honce
  exact absurd honce (by decide)

end OpenTogetherTube.Server.Recovery
