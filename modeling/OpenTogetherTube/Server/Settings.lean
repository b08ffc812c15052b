import OpenTogetherTube.Lib.Machine
import OpenTogetherTube.Server.Dirty
import OpenTogetherTube.Server.Persistence
import OpenTogetherTube.Server.Rejection

/-!
# Settings in the database

What a permanent room is set up to, who owns it and who has which role is kept in its row, in ten
columns. A change reaches the row on one of three paths. A setter marks its property, and `sync`
writes ten picked properties if anything is marked; `promoteUser` and a PATCH of the room write the
whole room when they are done.

`stored_throughout_iff` says exactly which runs keep the row up to date whenever no `sync` is
pending. `sync` does not pick `restoreQueueBehavior` and `enableVoteSkip`, a change of the first does
not even mark anything, and no path writes a value that is empty, false or zero.

Requests, updates and syncs are executed alone, one after the other, and the database does what it is
told.
-/

namespace OpenTogetherTube.Server

open OpenTogetherTube.Common OpenTogetherTube.Lib

/-! ## Columns -/

/-- The columns for settings, roles and the owner. The three lists of accounts count as one. -/
inductive Column where
  | title | description | visibility | queueMode | autoSkipSegmentCategories | restoreQueueBehavior
  | enableVoteSkip | grants | userRoles | owner
  deriving DecidableEq, Repr

def Column.Value : Column → Type
  | title | description => String
  | visibility => Visibility
  | queueMode => QueueMode
  | autoSkipSegmentCategories => List Category
  | restoreQueueBehavior => BehaviorOption
  | enableVoteSkip => Bool
  | grants => Grants
  | userRoles => OrderedMap Role (OrderedSet UserId)
  | owner => Option User

/-- What the room has for the column. -/
def Room.columnValue (r : Room) : (column : Column) → column.Value
  | .title => r.title
  | .description => r.description
  | .visibility => r.visibility
  | .queueMode => r.queueMode
  | .autoSkipSegmentCategories => r.autoSkipSegmentCategories
  | .restoreQueueBehavior => r.restoreQueueBehavior
  | .enableVoteSkip => r.enableVoteSkip
  | .grants => r.grants
  | .userRoles => r.userRoles
  | .owner => r.owner

/-- A room that is loaded from the row has the value. Grants are read role by role. -/
def DbRoom.Holds (row : DbRoom) : (column : Column) → column.Value → Prop
  | .title, value => row.title = value
  | .description, value => row.description = value
  | .visibility, value => row.visibility = value
  | .queueMode, value => row.queueMode = value
  | .autoSkipSegmentCategories, value => row.autoSkipSegmentCategories = value
  | .restoreQueueBehavior, value => row.restoreQueueBehavior = value
  | .enableVoteSkip, value => row.enableVoteSkip = value
  | .grants, value => ∀ role, row.permissions.grants.getMask role = Grants.getMask value role
  | .userRoles, value => ∀ role, (dbUserRoles row).get? role = OrderedMap.get? value role
  | .owner, value => row.ownerId = Option.map User.id value

/-- The values that `roomToDbPartial` leaves out. -/
def Column.Falsy : (column : Column) → column.Value → Prop
  | title, value | description, value => value = ""
  | restoreQueueBehavior, value => value = BehaviorOption.never
  | enableVoteSkip, value => value = false
  | owner, value => value = none
  | _, _ => False

/-- The properties that `sync` picks. -/
def Room.picked (r : Room) : PersistablePartial where
  title := r.title
  description := r.description
  visibility := r.visibility
  queueMode := r.queueMode
  owner := r.owner
  grants := r.grants
  userRoles := r.userRoles
  autoSkipSegmentCategories := r.autoSkipSegmentCategories
  prevQueue := some r.prevQueue
  restoreQueueBehavior := none
  enableVoteSkip := none

/-- `sync` leaves out what it does not pick, and what is falsy. -/
def Column.Skipped : (column : Column) → column.Value → Prop
  | restoreQueueBehavior, _ | enableVoteSkip, _ => True
  | column, value => column.Falsy value

namespace Room

/-- The row has what the room has. -/
def Stored (r : Room) (row : DbRoom) (column : Column) : Prop :=
  row.Holds column (r.columnValue column)

section Update

variable {r r' : Room} {row : DbRoom}

theorem stored_congr {column : Column} (h : r'.columnValue column = r.columnValue column) :
    r'.Stored row column ↔ r.Stored row column := by
  unfold Stored
  rw [h]

/-- What is kept for a value that is left out. -/
theorem kept_iff {α β : Type} {value none : α} {old : β} (f : α → β) :
    (value = none → old = f none) ↔ (value = none → old = f value) :=
  forall_congr' (fun h => by rw [h])

/-- **What an update with the whole room leaves in the row.** -/
theorem stored_update_persistable_iff (h : r.WellFormed) (column : Column) :
    r.Stored (row.update (roomToDbPartial r.persistable)) column ↔
      (column.Falsy (r.columnValue column) → r.Stored row column) := by
  have hwritten : ∀ {p : Prop}, p → (p ↔ (False → r.Stored row column)) :=
    fun hp => iff_of_true hp False.elim
  cases column with
  | title => exact (truthy_getD_iff r.title row.title).trans (kept_iff id)
  | description => exact (truthy_getD_iff r.description row.description).trans (kept_iff id)
  | visibility => exact hwritten rfl
  | queueMode => exact hwritten rfl
  | autoSkipSegmentCategories => exact hwritten rfl
  | restoreQueueBehavior => exact (behavior_getD_iff _ row.restoreQueueBehavior).trans (kept_iff id)
  | enableVoteSkip => exact (flag_getD_iff _ row.enableVoteSkip).trans (kept_iff id)
  | grants => exact hwritten (getMask_stored h.grants)
  | userRoles => exact hwritten (dbUserRoles_eq h rfl rfl rfl)
  | owner => exact (owner_orElse_iff r.owner row.ownerId).trans (kept_iff (Option.map User.id))

/-- **What a `sync` leaves in the row.** -/
theorem stored_update_picked_iff (h : r.WellFormed) (column : Column) :
    r.Stored (row.update (roomToDbPartial r.picked)) column ↔
      (column.Skipped (r.columnValue column) → r.Stored row column) := by
  cases column with
  | restoreQueueBehavior => exact ⟨fun hstored _ => hstored, fun hstored => hstored trivial⟩
  | enableVoteSkip => exact ⟨fun hstored _ => hstored, fun hstored => hstored trivial⟩
  | title => exact stored_update_persistable_iff h .title
  | description => exact stored_update_persistable_iff h .description
  | visibility => exact stored_update_persistable_iff h .visibility
  | queueMode => exact stored_update_persistable_iff h .queueMode
  | autoSkipSegmentCategories => exact stored_update_persistable_iff h .autoSkipSegmentCategories
  | grants => exact stored_update_persistable_iff h .grants
  | userRoles => exact stored_update_persistable_iff h .userRoles
  | owner => exact stored_update_persistable_iff h .owner

theorem skipped_of_falsy {column : Column} {value : column.Value} (h : column.Falsy value) :
    column.Skipped value := by
  cases column <;> first | exact trivial | exact h

end Update

/-! ## What an operation leaves of the columns -/

section Columns

variable {r r' : Room}

theorem columnValue_of_standing (h : r'.standing = r.standing) : r'.columnValue = r.columnValue := by
  funext column
  cases column with
  | title => exact congrArg Standing.title h
  | description => exact congrArg Standing.description h
  | visibility => exact congrArg Standing.visibility h
  | queueMode => exact congrArg Standing.queueMode h
  | autoSkipSegmentCategories => exact congrArg Standing.autoSkipSegmentCategories h
  | restoreQueueBehavior => exact congrArg Standing.restoreQueueBehavior h
  | enableVoteSkip => exact congrArg Standing.enableVoteSkip h
  | grants => exact congrArg Standing.grants h
  | userRoles => exact congrArg Standing.userRoles h
  | owner => exact congrArg Standing.owner h

/-- What no operation changes. -/
def fixed (r : Room) : String × Bool := (r.name, r.isTemporary)

theorem fixed_of_standing (h : r'.standing = r.standing) : r'.fixed = r.fixed :=
  congrArg (fun s : Standing => (s.name, s.isTemporary)) h

/-- What is kept with a list of users that may change. -/
def residence (r : Room) : (∀ column : Column, column.Value) × String × Bool :=
  (r.columnValue, r.fixed)

theorem dropVotes_residence (r : Room) (client : ClientId) :
    (r.dropVotes client).residence = r.residence :=
  dropVotes_keeps (R := Handler.SameOn residence) (fun _ _ => rfl) (fun _ => rfl) r client

/-- The requests that write columns. -/
def changesColumns : RoomRequest → Bool
  | .promote _ _ | .applySettings _ => true
  | _ => false

theorem processRequest_residence {request : RoomRequest} (h : changesColumns request = false)
    (env : Env) (context : RoomRequestContext) :
    (processRequest env request context).Keeps (Handler.SameOn residence) := by
  have hstanding : changesStanding request = false →
      (processRequest env request context).Keeps (Handler.SameOn residence) := fun hs r => by
    have hsame := processRequest_standing hs env context r
    exact Prod.ext (columnValue_of_standing hsame) (fixed_of_standing hsame)
  cases request with
  | promote target role => cases h
  | applySettings settings => cases h
  | join info =>
    exact mediated_keeps (joinRoom_keeps (R := Handler.SameOn residence) (fun _ _ => rfl) env info
      context)
  | leave =>
    exact mediated_keeps (leaveRoom_keeps (R := Handler.SameOn residence) (fun _ _ => rfl)
      dropVotes_residence (fun _ _ => rfl) context)
  | updateUser info =>
    exact mediated_keeps (updateUser_keeps (R := Handler.SameOn residence) (fun _ _ => rfl) env
      info)
  | _ => exact hstanding rfl

/-- **Requests never change a room's name, or whether it is temporary.** -/
theorem processRequest_fixed (env : Env) (request : RoomRequest) (context : RoomRequestContext) :
    (processRequest env request context).Keeps (Handler.SameOn fixed) := by
  have hother : changesColumns request = false →
      (processRequest env request context).Keeps (Handler.SameOn fixed) :=
    fun h r => congrArg Prod.snd (processRequest_residence h env context r)
  cases request with
  | promote target role =>
    refine mediated_keeps (promoteUser_keeps (R := Handler.SameOn fixed) (fun target role r => ?_)
      target role context)
    show (promoted target role r).fixed = r.fixed
    unfold promoted
    cases target.userId <;> rfl
  | applySettings settings =>
    have hignores : IgnoresSettings (Handler.SameOn fixed) := fun _ _ _ _ _ _ _ _ _ _ _ => rfl
    exact mediated_keeps (hignores.applySettings settings context)
  | _ => exact hother rfl

theorem onQueue_marks {α : Type} (op : VideoQueue → QueueStep α) (now : Time) :
    (onQueue op).Keeps (Tracked now Set.univ) := by
  intro r
  rw [run_onQueue]
  exact withQueue_tracked_of_mem (Set.mem_univ _) _

/-- **Requests never clean a mark.** -/
theorem processRequest_marks (env : Env) (request : RoomRequest) (context : RoomRequestContext) :
    (processRequest env request context).Keeps (Tracked env.now Set.univ) := by
  cases request with
  | join info => exact mediated_keeps (joinRoom_tracked env info context)
  | leave => exact mediated_keeps (leaveRoom_tracked context)
  | playback state => exact mediated_keeps (playback_tracked env state context)
  | skip => exact mediated_keeps (skip_tracked env context)
  | seek value => exact mediated_keeps (seek_tracked env value context)
  | add video videos url => exact mediated_keeps (addToQueue_tracked env video videos url context)
  | remove video => exact mediated_keeps (removeFromQueue_tracked video context)
  | order fromIdx toIdx => exact mediated_keeps (onQueue_tracked (fun q => q.move_told _ _))
  | vote video add => exact mediated_keeps (vote_tracked video add context)
  | promote target role => exact mediated_keeps (promoteUser_tracked target role context)
  | updateUser info => exact mediated_keeps (updateUser_tracked env info)
  | chat text => exact mediated_keeps (chat_keeps text context)
  | undo request additional => exact mediated_keeps (undo_tracked env request additional context)
  | playNow video => exact mediated_keeps (playNow_tracked env video context)
  | playbackSpeed speed => exact mediated_keeps (setPlaybackSpeedTo_tracked env speed)
  | restoreQueue discard => exact mediated_keeps (restoreQueue_tracked env discard)
  | kick clientId => exact mediated_keeps (kickUser_keeps clientId context)
  | applySettings settings =>
    exact mediated_keeps (fun r => (applySettings_tracked settings context r).mono
      (Set.subset_univ _))
  | shuffle =>
    exact mediated_keeps (.bind (checkGrant_keeps _ _)
      (fun _ => onQueue_marks (fun q => q.shuffle (env.shuffle q)) env.now))
  | updateQueueItem video update =>
    exact mediated_keeps (.ite (fun _ => .throw _) (fun _ =>
      .bind (onQueue_marks _ env.now) (fun _ =>
        .bind (.modify (fun _ => mutateCurrent_tracked (Set.mem_univ _) _ _))
          (fun _ => publishRoomEvent_keeps _ _ _))))

/-! ### Promotions -/

theorem promoteUser_columns (target : ClientId) (role : Int) (context : RoomRequestContext)
    {column : Column} (h : column ≠ .userRoles) :
    (promoteUser target role context).Keeps (Handler.SameOn (fun r => r.columnValue column)) := by
  refine promoteUser_keeps (fun target role r => ?_) target role context
  show (promoted target role r).columnValue column = _
  unfold promoted
  cases target.userId with
  | none => rfl
  | some userId =>
    cases column with
    | userRoles => exact absurd rfl h
    | _ => rfl

/-! ### Settings -/

/-- Steps that mark something unless they are harmless. -/
theorem foldl_dirty_iff {α : Type} {f : Room → α → Room} {Unmarked : α → Prop}
    (hf : ∀ r a, (f r a).dirty = ∅ ↔ r.dirty = ∅ ∧ Unmarked a) (l : List α) (r : Room) :
    (l.foldl f r).dirty = ∅ ↔ r.dirty = ∅ ∧ ∀ a ∈ l, Unmarked a := by
  induction l generalizing r with
  | nil => simp
  | cons a l ih => rw [List.foldl_cons, ih, hf, and_assoc, List.forall_mem_cons]

theorem applySetting_dirty_iff (r : Room) (setting : RoomSetting) :
    (r.applySetting setting).dirty = ∅ ↔
      r.dirty = ∅ ∧ ∃ v, setting = .restoreQueueBehavior v := by
  cases setting with
  | restoreQueueBehavior v => exact ⟨fun h => ⟨h, v, rfl⟩, fun h => h.1⟩
  | _ => exact iff_of_false (Finset.insert_ne_empty _ _) (fun h => by simpa using h.2)

theorem applyMask_dirty_iff (r : Room) (mask : Role × GrantMask) :
    (r.applyMask mask).dirty = ∅ ↔ r.dirty = ∅ ∧ False :=
  iff_of_false (Finset.insert_ne_empty _ _) (fun h => h.2)

/-- The settings change nothing that would be marked. -/
def MarksNothing (r : Room) (settings : RoomSettingsPatch) : Prop :=
  (∀ setting ∈ settings.props, r.holdsSetting setting = false →
    ∃ v, setting = .restoreQueueBehavior v) ∧
  r.changedMasks settings.grants = .ok []

theorem settingsToApply_unmarked_iff (settings : RoomSettingsPatch) (r : Room) :
    (∀ setting ∈ r.settingsToApply settings.props, ∃ v, setting = .restoreQueueBehavior v) ↔
      ∀ setting ∈ settings.props, r.holdsSetting setting = false →
        ∃ v, setting = .restoreQueueBehavior v := by
  have hnormal : ∀ setting, (∃ v, r.normalizeSetting setting = .restoreQueueBehavior v) ↔
      ∃ v, setting = .restoreQueueBehavior v := by
    intro setting
    cases setting with
    | autoSkipSegmentCategories v => simp only [normalizeSetting]; split <;> simp
    | _ => simp [normalizeSetting]
  simp only [settingsToApply, List.forall_mem_map, List.mem_filter, decide_eq_true_eq, and_imp,
    hnormal]

section Apply

variable (settings : RoomSettingsPatch) (context : RoomRequestContext)

/-- **When accepted settings leave everything clean.** -/
theorem applySettings_dirty_iff (h : r.Accepts settings context) :
    ((applySettings settings context).run r).state.dirty = ∅ ↔
      r.dirty = ∅ ∧ r.MarksNothing settings := by
  obtain ⟨-, masks, want, hmasks, hrun⟩ | ⟨hrefused, -⟩ := applySettings_run settings context r
  · rw [hrun]
    show (masks.foldl applyMask ((r.settingsToApply settings.props).foldl applySetting r)).dirty = ∅
      ↔ _
    rw [foldl_dirty_iff applyMask_dirty_iff, foldl_dirty_iff applySetting_dirty_iff,
      settingsToApply_unmarked_iff, MarksNothing, hmasks, and_assoc, Except.ok.injEq,
      List.eq_nil_iff_forall_not_mem]
  · exact absurd h hrefused

/-- A settings request that leaves everything clean has changed at most the field without a setter. -/
theorem applySettings_columns (hdirty : ((applySettings settings context).run r).state.dirty = ∅)
    {column : Column} (h : column ≠ .restoreQueueBehavior) :
    ((applySettings settings context).run r).state.columnValue column = r.columnValue column := by
  have hignores : IgnoresSettings (Handler.SameOn (fun r => (r.owner, r.userRoles))) :=
    fun _ _ _ _ _ _ _ _ _ _ _ => rfl
  have hkept := hignores.applySettings settings context r
  have hsame : ∀ prop, prop ≠ .restoreQueueBehavior →
      ((applySettings settings context).run r).state.syncableAt 0 prop = r.syncableAt 0 prop :=
    fun prop hprop => (applySettings_tracked settings context r).same prop
      (by rw [hdirty]; exact Finset.notMem_empty _) hprop
  cases column with
  | restoreQueueBehavior => exact absurd rfl h
  | title => exact hsame .title nofun
  | description => exact hsame .description nofun
  | visibility => exact hsame .visibility nofun
  | queueMode => exact hsame .queueMode nofun
  | autoSkipSegmentCategories => exact hsame .autoSkipSegmentCategories nofun
  | enableVoteSkip => exact hsame .enableVoteSkip nofun
  | grants => exact congrArg Grants.mk (OrderedMap.ext (hsame .grants nofun))
  | userRoles => exact congrArg Prod.snd hkept
  | owner => exact congrArg Prod.fst hkept

/-- **The field without a setter**: what is set is there. -/
theorem applySettings_restore (h : r.Accepts settings context) {v : BehaviorOption}
    (hv : .restoreQueueBehavior v ∈ settings.props) :
    ((applySettings settings context).run r).state.restoreQueueBehavior = v := by
  obtain ⟨-, hvalue, -⟩ | ⟨hrefused, -⟩ := applySettings_cases settings context r
  · rw [hvalue]
    by_cases heq : v = r.restoreQueueBehavior
    · refine ((settingsToApply_restore_iff settings r).mpr (fun v' hv' => ?_)).trans heq.symm
      rw [eq_of_restoreQueueBehavior_mem hv hv', heq]
    · exact foldl_restoreQueueBehavior (fun v' hv' =>
        eq_of_restoreQueueBehavior_mem hv (mem_settingsToApply.mp hv').1)
        (.inr (mem_settingsToApply.mpr ⟨hv, heq⟩))
  · exact absurd h hrefused

theorem applySettings_restore_same (hv : ∀ v, .restoreQueueBehavior v ∈ settings.props →
    v = r.restoreQueueBehavior) :
    ((applySettings settings context).run r).state.restoreQueueBehavior =
      r.restoreQueueBehavior := by
  obtain ⟨-, hvalue, -⟩ | ⟨-, hstate⟩ := applySettings_cases settings context r
  · rw [hvalue]
    exact (settingsToApply_restore_iff settings r).mpr hv
  · rw [hstate]

end Apply

end Columns

/-- The context that a request is processed in, if its sender can be made out. -/
def requestContext (env : Env) (authorization : RoomRequestAuthorization) (r : Room) :
    Except RoomError RoomRequestContext :=
  deriveRequestContext env (match truthy authorization.clientId with
    | some _ => authorization
    | none => { authorization with
        clientId := (r.getClientIdFromToken authorization.token).or authorization.clientId }) r

theorem run_processUnauthorizedRequest (env : Env) (request : RoomRequest)
    (authorization : RoomRequestAuthorization) (r : Room) :
    (∃ context, requestContext env authorization r = .ok context ∧
      ((processUnauthorizedRequest env request authorization).run r).state =
        ((processRequest env request context).run r).state ∧
      ((processUnauthorizedRequest env request authorization).run r).result =
        ((processRequest env request context).run r).result) ∨
    ∃ e, requestContext env authorization r = .error e ∧
      (processUnauthorizedRequest env request authorization).run r = ⟨r, [], .error e⟩ := by
  have hrun : (processUnauthorizedRequest env request authorization).run r =
      (Handler.liftExcept (requestContext env authorization r) >>=
        processRequest env request).run r := rfl
  rw [hrun]
  cases hcontext : requestContext env authorization r with
  | ok context => exact .inl ⟨context, rfl, rfl, rfl⟩
  | error e => exact .inr ⟨e, rfl, rfl⟩

end Room

namespace Settings

open Room

/-! ## The room and its row -/

/-- A room, its row, and whether `throttledSync` is armed. -/
structure State where
  room : Room
  row : DbRoom
  syncTimer : Bool

/-- `OttSettingsRequest`. -/
structure OttSettingsRequest where
  props : List RoomSetting
  grants : Option (List (Role × GrantMask))
  nodupProps : (props.map RoomSetting.name).Nodup

/-- The settings that `patchRoom` applies. There are always grants: the default ones if the request
has none. -/
def OttSettingsRequest.newBody (body : OttSettingsRequest) : RoomSettingsPatch where
  props := body.props
  grants := some (.grants (match body.grants with
    | some entries => Grants.ofMasks (OrderedMap.ofList entries)
    | none => Grants.new))
  nodupProps := body.nodupProps

/-- `OttApiRequestPatchRoom`. -/
inductive PatchRoom where
  | claim (claim : Bool)
  | settings (body : OttSettingsRequest)

namespace State

/-- What an operation leaves. The timer is armed with each mark, and outlasts the operation. -/
def after (s : State) (room : Room) : State where
  room := room
  row := s.row
  syncTimer := s.syncTimer || decide (room.dirty ≠ ∅)

/-- `storage.updateRoom`. A room without a name is refused. -/
def updateRoom (s : State) (room : PersistablePartial) : Option State :=
  if s.room.name = "" then none else some { s with row := s.row.update (roomToDbPartial room) }

/-- How `promoteUser` and `patchRoom` end. What `updateRoom` throws is logged. -/
def store (s : State) : State :=
  if s.room.isTemporary then s else (s.updateRoom s.room.persistable).getD s

/-- `cleanDirty`. -/
def cleanDirty (s : State) : State := { s with room := { s.room with dirty := ∅ } }

def sync (s : State) : State :=
  if s.room.dirty = ∅ then s
  else match s.updateRoom s.room.picked with
    | some s => s.cleanDirty
    | none => s

/-- A request over the websocket, or by the server for a client with a token. -/
def processUnauthorizedRequest (s : State) (env : Env) (request : RoomRequest)
    (authorization : RoomRequestAuthorization) : State :=
  let outcome := (Room.processUnauthorizedRequest env request authorization).run s.room
  match request, outcome.result with
  | .promote _ _, .ok () => (s.after outcome.state).store
  | _, _ => s.after outcome.state

/-- `patchRoom`, for somebody with a token who may be logged in. -/
def patchRoom (s : State) (env : Env) (token : AuthToken) (user : Option User) :
    PatchRoom → State
  | .claim true =>
    if s.room.owner.isSome then s
    else match user with
      | some user => (s.after (s.room.setOwner (some user))).store
      | none => s
  | .claim false => s.store
  | .settings body =>
    let outcome := (Room.processUnauthorizedRequest env (.applySettings body.newBody)
      ⟨token, none⟩).run s.room
    match outcome.result with
    | .ok () => (s.after outcome.state).store
    | .error _ => s.after outcome.state

end State

inductive Event where
  | processUnauthorizedRequest (env : Env) (request : RoomRequest)
      (authorization : RoomRequestAuthorization)
  | patchRoom (env : Env) (token : AuthToken) (user : Option User) (body : PatchRoom)
  | update (env : Env)
  /-- `sync`, called by the room manager. -/
  | sync
  /-- The timer of `throttledSync` fires. -/
  | throttledSync

/-- Everything is executed alone. -/
def step (s : State) : Event → Option State
  | .processUnauthorizedRequest env request authorization =>
    some (s.processUnauthorizedRequest env request authorization)
  | .patchRoom env token user body => some (s.patchRoom env token user body)
  | .update env => some (s.after ((Room.update env).run s.room).state)
  | .sync => some s.sync
  | .throttledSync => if s.syncTimer then some { s with syncTimer := false }.sync else none

def machine : Machine State Event := ⟨step⟩

/-! ## What holds, and when -/

/-- The row has all that the room has. -/
def UpToDate (s : State) : Prop := ∀ column, s.room.Stored s.row column

/-- **The purpose**: once no `sync` is pending the row is up to date. -/
def Settled (s : State) : Prop := s.syncTimer = false → UpToDate s

/-- A permanent room that is loaded, created, or in use. -/
structure Permanent (s : State) : Prop where
  reachable : s.room.Reachable
  permanent : s.room.isTemporary = false
  named : s.room.name ≠ ""
  armed : s.room.dirty ≠ ∅ → s.syncTimer = true

/-- Settings that mark nothing, while no `sync` is pending: all that they change is `v`. -/
def OnlyRestores (s : State) (env : Env) (settings : RoomSettingsPatch)
    (authorization : RoomRequestAuthorization) (v : BehaviorOption) : Prop :=
  s.syncTimer = false ∧ .restoreQueueBehavior v ∈ settings.props ∧
    s.room.MarksNothing settings ∧ ∃ context,
      requestContext env authorization s.room = .ok context ∧ s.room.Accepts settings context

/-- What reaches the row. A setting that marks nothing has to be the old one, or come by PATCH and be
one that is written. When the timer fires, the row has what `sync` skips. -/
def Reaches (s : State) : Event → Prop
  | .processUnauthorizedRequest env (.applySettings settings) authorization =>
    ∀ v, OnlyRestores s env settings authorization v → v = s.room.restoreQueueBehavior
  | .patchRoom env token _ (.settings body) =>
    OnlyRestores s env body.newBody ⟨token, none⟩ .never → s.room.restoreQueueBehavior = .never
  | .throttledSync =>
    ∀ column : Column, column.Skipped (s.room.columnValue column) → s.room.Stored s.row column
  | _ => True

/-! ## One step -/

section Steps

variable {s s' : State} {room : Room}

theorem Permanent.clean (h : Permanent s) (htimer : s.syncTimer = false) : s.room.dirty = ∅ := by
  by_contra hdirty
  rw [h.armed hdirty] at htimer
  cases htimer

theorem after_syncTimer : (s.after room).syncTimer = false ↔ s.syncTimer = false ∧ room.dirty = ∅ := by
  simp [State.after]

theorem Permanent.after (h : Permanent s) (hroom : room.Reachable)
    (hfixed : room.fixed = s.room.fixed) : Permanent (s.after room) where
  reachable := hroom
  permanent := (congrArg Prod.snd hfixed).trans h.permanent
  named := fun hname => h.named ((congrArg Prod.fst hfixed).symm.trans hname)
  armed := fun hdirty => by simpa [State.after] using Or.inr hdirty

theorem store_eq (h : Permanent s) :
    s.store = { s with row := s.row.update (roomToDbPartial s.room.persistable) } := by
  unfold State.store State.updateRoom
  rw [if_neg (by rw [h.permanent]; decide), if_neg h.named]
  rfl

theorem sync_eq (h : Permanent s) (hdirty : s.room.dirty ≠ ∅) : s.sync =
    { s with
      room := { s.room with dirty := ∅ }
      row := s.row.update (roomToDbPartial s.room.picked) } := by
  unfold State.sync State.updateRoom
  rw [if_neg hdirty, if_neg h.named]
  rfl

/-- **The invariant.** Where nothing is marked, the row is up to date in what `sync` writes. -/
structure Inv (s : State) : Prop extends Permanent s where
  stored : s.room.dirty = ∅ → ∀ column : Column,
    ¬ column.Skipped (s.room.columnValue column) → s.room.Stored s.row column

/-- An operation that marks what it changes, apart from what `sync` skips. -/
theorem Inv.after (h : Inv s) (hroom : room.Reachable) (hfixed : room.fixed = s.room.fixed)
    (hmarks : s.room.dirty ⊆ room.dirty)
    (hcolumns : room.dirty = ∅ → ∀ column : Column, ¬ column.Skipped (room.columnValue column) →
      room.columnValue column = s.room.columnValue column) : Inv (s.after room) := by
  refine ⟨h.toPermanent.after hroom hfixed, fun hdirty column hskipped => ?_⟩
  have hclean : s.room.dirty = ∅ := Finset.subset_empty.mp (hmarks.trans_eq hdirty)
  have hsame := hcolumns hdirty column hskipped
  refine (stored_congr hsame).mpr (h.stored hclean column ?_)
  rw [← hsame]
  exact hskipped

/-- The whole room is written. -/
theorem Permanent.store (h : Permanent s) : Inv s.store := by
  rw [store_eq h]
  refine ⟨⟨h.reachable, h.permanent, h.named, h.armed⟩, fun _ column hskipped => ?_⟩
  exact (stored_update_persistable_iff h.reachable.wellFormed column).mpr
    (fun hfalsy => absurd (skipped_of_falsy hfalsy) hskipped)

theorem settled_store_iff (h : Permanent s) : Settled s.store ↔
    (s.syncTimer = false → ∀ column : Column,
      column.Falsy (s.room.columnValue column) → s.room.Stored s.row column) := by
  rw [store_eq h]
  exact forall_congr' (fun _ => forall_congr'
    (fun column => stored_update_persistable_iff h.reachable.wellFormed column))

/-- An operation that changes no column. -/
theorem Settled.after (h : Settled s) (hcolumns : room.columnValue = s.room.columnValue) :
    Settled (s.after room) := fun htimer column =>
  (stored_congr (congrFun hcolumns column)).mpr (h (after_syncTimer.mp htimer).1 column)

theorem Settled.store (h : Permanent s) (hsettled : Settled s) : Settled s.store :=
  (settled_store_iff h).mpr (fun htimer column _ => hsettled htimer column)

theorem Inv.sync (h : Inv s) : Inv s.sync := by
  by_cases hdirty : s.room.dirty = ∅
  · rw [State.sync, if_pos hdirty]
    exact h
  · rw [sync_eq h.toPermanent hdirty]
    refine ⟨⟨.synced h.reachable, h.permanent, h.named, fun hmarked => absurd rfl hmarked⟩,
      fun _ column hskipped => ?_⟩
    exact (stored_update_picked_iff h.reachable.wellFormed column).mpr
      (fun hskipped' => absurd hskipped' hskipped)

/-- **What the row lacks after a `sync`** is what `sync` skips and it lacked before. -/
theorem upToDate_sync_iff (h : Inv s) : UpToDate s.sync ↔ ∀ column : Column,
    column.Skipped (s.room.columnValue column) → s.room.Stored s.row column := by
  by_cases hdirty : s.room.dirty = ∅
  · rw [State.sync, if_pos hdirty]
    exact forall_congr' (fun column => ⟨fun hstored _ => hstored, fun hstored => by
      by_cases hskipped : column.Skipped (s.room.columnValue column)
      · exact hstored hskipped
      · exact h.stored hdirty column hskipped⟩)
  · rw [sync_eq h.toPermanent hdirty]
    exact forall_congr'
      (fun column => stored_update_picked_iff h.reachable.wellFormed column)

/-- `sync` leaves the timer alone, and nothing marked. -/
theorem sync_syncTimer (h : Permanent s) : s.sync.syncTimer = s.syncTimer := by
  by_cases hdirty : s.room.dirty = ∅
  · rw [State.sync, if_pos hdirty]
  · rw [sync_eq h hdirty]

theorem sync_clean (h : Permanent s) : s.sync.room.dirty = ∅ := by
  by_cases hdirty : s.room.dirty = ∅
  · rw [State.sync, if_pos hdirty]
    exact hdirty
  · rw [sync_eq h hdirty]

/-- The timer is off before `sync` runs, which makes no difference to it. -/
theorem sync_throttled (h : Permanent s) :
    State.sync { s with syncTimer := false } = { s.sync with syncTimer := false } := by
  by_cases hdirty : s.room.dirty = ∅
  · rw [State.sync, if_pos hdirty, State.sync, if_pos hdirty]
  · rw [sync_eq h hdirty, State.sync, if_neg hdirty, State.updateRoom, if_neg h.named]
    rfl

end Steps

/-! ## One request -/

section Requests

variable {s : State} {env : Env} {authorization : RoomRequestAuthorization}

/-- The room after a request. -/
def requested (s : State) (env : Env) (request : RoomRequest)
    (authorization : RoomRequestAuthorization) : Room :=
  ((Room.processUnauthorizedRequest env request authorization).run s.room).state

theorem requested_reachable (h : Permanent s) (request : RoomRequest) :
    (requested s env request authorization).Reachable := .requested h.reachable env request _

theorem requested_fixed (request : RoomRequest) :
    (requested s env request authorization).fixed = s.room.fixed :=
  processUnauthorizedRequest_keeps (R := Handler.SameOn fixed)
    (processRequest_fixed env request) authorization s.room

theorem requested_marks (request : RoomRequest) :
    s.room.dirty ⊆ (requested s env request authorization).dirty :=
  (processUnauthorizedRequest_keeps (processRequest_marks env request) authorization s.room).marks

theorem requested_permanent (h : Permanent s) (request : RoomRequest) :
    Permanent (s.after (requested s env request authorization)) :=
  h.after (requested_reachable h request) (requested_fixed request)

/-- Requests of other kinds leave the columns alone. -/
theorem requested_columns {request : RoomRequest} (h : changesColumns request = false) :
    (requested s env request authorization).columnValue = s.room.columnValue :=
  congrArg Prod.fst (processUnauthorizedRequest_keeps (R := Handler.SameOn residence)
    (processRequest_residence h env) authorization s.room)

theorem step_other {request : RoomRequest} (h : changesColumns request = false) :
    s.processUnauthorizedRequest env request authorization =
      s.after (requested s env request authorization) := by
  unfold State.processUnauthorizedRequest
  cases request with
  | promote target role => cases h
  | _ => rfl

/-- A promotion is stored if it is carried out, and leaves everything else alone. -/
theorem step_promote (target : ClientId) (role : Int) :
    (∃ e, ((Room.processUnauthorizedRequest env (.promote target role) authorization).run
        s.room).result = .error e ∧
      s.processUnauthorizedRequest env (.promote target role) authorization =
        s.after (requested s env (.promote target role) authorization)) ∨
    s.processUnauthorizedRequest env (.promote target role) authorization =
      (s.after (requested s env (.promote target role) authorization)).store := by
  unfold State.processUnauthorizedRequest
  cases hresult : ((Room.processUnauthorizedRequest env (.promote target role) authorization).run
    s.room).result with
  | ok _ =>
    simp only [hresult]
    exact .inr rfl
  | error e =>
    simp only [hresult]
    exact .inl ⟨e, rfl, rfl⟩

theorem requested_promote_columns (target : ClientId) (role : Int) {column : Column}
    (h : column ≠ .userRoles) :
    (requested s env (.promote target role) authorization).columnValue column =
      s.room.columnValue column := by
  have hkeeps : ∀ context, (processRequest env (.promote target role) context).Keeps
      (Handler.SameOn (fun r => r.columnValue column)) :=
    fun context => mediated_keeps (promoteUser_columns target role context h)
  exact processUnauthorizedRequest_keeps hkeeps authorization s.room

theorem requested_promote_rejected {target : ClientId} {role : Int} {e : RoomError}
    (h : ((Room.processUnauthorizedRequest env (.promote target role) authorization).run
      s.room).result = .error e) :
    (requested s env (.promote target role) authorization).columnValue = s.room.columnValue := by
  have hroles : (requested s env (.promote target role) authorization).userRoles =
      s.room.userRoles := by
    unfold requested
    obtain ⟨context, -, hstate, hresult⟩ | ⟨e, -, hrun⟩ :=
      run_processUnauthorizedRequest env (.promote target role) authorization s.room
    · rw [hresult] at h
      rw [hstate]
      rw [processRequest, mediated_unlisted _ rfl] at h ⊢
      exact congrArg Guarded.userRoles (promoteUser_clean target role context s.room ⟨e, h⟩)
    · rw [hrun]
  funext column
  by_cases hcolumn : column = .userRoles
  · subst hcolumn
    exact hroles
  · exact requested_promote_columns target role hcolumn

/-- Settings are applied, or refused. -/
theorem requested_settings (settings : RoomSettingsPatch) :
    (∃ context, requestContext env authorization s.room = .ok context ∧
      s.room.Accepts settings context ∧
      ((Room.processUnauthorizedRequest env (.applySettings settings) authorization).run
        s.room).result = .ok () ∧
      requested s env (.applySettings settings) authorization =
        ((applySettings settings context).run s.room).state) ∨
    ((∀ context, requestContext env authorization s.room = .ok context →
        ¬ s.room.Accepts settings context) ∧
      (∃ e, ((Room.processUnauthorizedRequest env (.applySettings settings) authorization).run
        s.room).result = .error e) ∧
      requested s env (.applySettings settings) authorization = s.room) := by
  unfold requested
  obtain ⟨context, hcontext, hstate, hresult⟩ | ⟨e, hcontext, hrun⟩ :=
    run_processUnauthorizedRequest env (.applySettings settings) authorization s.room
  · rw [hstate, hresult, processRequest, mediated_unlisted _ rfl]
    show (∃ _, _) ∨ (_ ∧ (∃ e, ((applySettings settings context).run s.room).result = .error e) ∧
      ((applySettings settings context).run s.room).state = s.room)
    obtain ⟨haccepts, masks, want, -, hrun⟩ | ⟨hrefused, e, hrun⟩ :=
      applySettings_run settings context s.room
    · refine .inl ⟨context, hcontext, haccepts, ?_, rfl⟩
      show ((applySettings settings context).run s.room).result = _
      rw [hrun]
    · refine .inr ⟨fun context' hcontext' => ?_, ⟨e, by rw [hrun]⟩, by rw [hrun]⟩
      rw [hcontext] at hcontext'
      cases hcontext'
      exact hrefused
  · refine .inr ⟨fun context hcontext' => ?_, ⟨e, by rw [hrun]⟩, by rw [hrun]⟩
    rw [hcontext] at hcontext'
    cases hcontext'

/-- While nothing is marked, settings that mark nothing have changed one column at most. -/
theorem requested_settings_columns (settings : RoomSettingsPatch)
    (hdirty : (requested s env (.applySettings settings) authorization).dirty = ∅)
    {column : Column} (h : column ≠ .restoreQueueBehavior) :
    (requested s env (.applySettings settings) authorization).columnValue column =
      s.room.columnValue column := by
  obtain ⟨context, -, -, -, hstate⟩ | ⟨-, -, hstate⟩ :=
    @requested_settings s env authorization settings
  · rw [hstate] at hdirty ⊢
    exact applySettings_columns settings context hdirty h
  · rw [hstate]

end Requests

/-! ## The invariant is kept -/

section Invariant

variable {s s' : State}

theorem requested_inv (h : Inv s) (env : Env) (request : RoomRequest)
    (authorization : RoomRequestAuthorization)
    (hcolumns : (requested s env request authorization).dirty = ∅ → ∀ column : Column,
      ¬ column.Skipped ((requested s env request authorization).columnValue column) →
        (requested s env request authorization).columnValue column =
          s.room.columnValue column) :
    Inv (s.after (requested s env request authorization)) :=
  h.after (requested_reachable h.toPermanent request) (requested_fixed request)
    (requested_marks request) hcolumns

theorem processUnauthorizedRequest_inv (h : Inv s) (env : Env) (request : RoomRequest)
    (authorization : RoomRequestAuthorization) :
    Inv (s.processUnauthorizedRequest env request authorization) := by
  cases request with
  | promote target role =>
    obtain ⟨e, he, hstep⟩ | hstep := @step_promote s env authorization target role
    · rw [hstep]
      exact requested_inv h env _ authorization
        (fun _ column _ => congrFun (requested_promote_rejected he) column)
    · rw [hstep]
      exact (requested_permanent h.toPermanent _).store
  | applySettings settings =>
    refine requested_inv h env _ authorization (fun hdirty column hskipped => ?_)
    refine requested_settings_columns settings hdirty ?_
    rintro rfl
    exact hskipped trivial
  | _ =>
    rw [step_other rfl]
    exact requested_inv h env _ authorization
      (fun _ column _ => congrFun (requested_columns rfl) column)

theorem patchRoom_inv (h : Inv s) (env : Env) (token : AuthToken) (user : Option User)
    (body : PatchRoom) : Inv (s.patchRoom env token user body) := by
  cases body with
  | claim claim =>
    cases claim with
    | false => exact h.toPermanent.store
    | true =>
      unfold State.patchRoom
      dsimp only
      split
      · exact h
      · cases user with
        | none => exact h
        | some user => exact (h.toPermanent.after (.claimed h.reachable user) rfl).store
  | settings body =>
    show Inv (match ((Room.processUnauthorizedRequest env (.applySettings body.newBody)
      ⟨token, none⟩).run s.room).result with | .ok () => _ | .error _ => _)
    split
    · exact (requested_permanent h.toPermanent _).store
    · refine requested_inv h env _ _ (fun hdirty column hskipped => ?_)
      refine requested_settings_columns body.newBody hdirty ?_
      rintro rfl
      exact hskipped trivial

theorem update_marks (env : Env) (r : Room) : r.dirty ⊆ ((Room.update env).run r).state.dirty :=
  (update_tracked (S := Set.univ) env r).marks

/-- **Every step keeps the invariant.** -/
theorem step_inv (h : Inv s) {e : Event} (hstep : step s e = some s') : Inv s' := by
  cases e with
  | processUnauthorizedRequest env request authorization =>
    cases hstep
    exact processUnauthorizedRequest_inv h env request authorization
  | patchRoom env token user body =>
    cases hstep
    exact patchRoom_inv h env token user body
  | update env =>
    cases hstep
    have hstanding := update_standing env s.room
    exact h.after (.updated h.reachable env) (fixed_of_standing hstanding)
      (update_marks env s.room) (fun _ => fun column _ =>
        congrFun (columnValue_of_standing hstanding) column)
  | sync =>
    cases hstep
    exact h.sync
  | throttledSync =>
    obtain ⟨-, heq⟩ := Option.ite_none_right_eq_some.mp hstep
    cases heq
    rw [sync_throttled h.toPermanent]
    have hsync := h.sync
    exact ⟨⟨hsync.reachable, hsync.permanent, hsync.named,
      fun hdirty => absurd (sync_clean h.toPermanent) hdirty⟩, hsync.stored⟩

end Invariant

/-! ## What a step needs -/

section Exact

variable {s s' : State} {env : Env} {authorization : RoomRequestAuthorization}

/-- While no `sync` is pending, the field that is not marked is the only one that can differ. -/
theorem stored_requested_settings (hsettled : Settled s) (settings : RoomSettingsPatch)
    (htimer : (s.after (requested s env (.applySettings settings) authorization)).syncTimer = false)
    {column : Column} (h : column ≠ .restoreQueueBehavior) :
    (requested s env (.applySettings settings) authorization).Stored s.row column := by
  obtain ⟨hidle, hdirty⟩ := after_syncTimer.mp htimer
  exact (stored_congr (requested_settings_columns settings hdirty h)).mpr (hsettled hidle column)

/-- If that field is set to `v`, and no `sync` is pending afterwards, nothing else has changed. -/
theorem onlyRestores_of_requested {settings : RoomSettingsPatch}
    (htimer : (s.after (requested s env (.applySettings settings) authorization)).syncTimer = false)
    {v : BehaviorOption} (hv : .restoreQueueBehavior v ∈ settings.props)
    (hchanged : (requested s env (.applySettings settings) authorization).restoreQueueBehavior ≠
      s.room.restoreQueueBehavior) : OnlyRestores s env settings authorization v := by
  obtain ⟨hidle, hdirty⟩ := after_syncTimer.mp htimer
  obtain ⟨context, hcontext, haccepts, -, hstate⟩ | ⟨-, -, hstate⟩ :=
    @requested_settings s env authorization settings
  · rw [hstate, applySettings_dirty_iff settings context haccepts] at hdirty
    exact ⟨hidle, hv, hdirty.2, context, hcontext, haccepts⟩
  · rw [hstate] at hchanged
    exact absurd rfl hchanged

theorem OnlyRestores.requested (h : Permanent s) {settings : RoomSettingsPatch} {v : BehaviorOption}
    (hv : OnlyRestores s env settings authorization v) :
    (s.after (requested s env (.applySettings settings) authorization)).syncTimer = false ∧
      (requested s env (.applySettings settings) authorization).restoreQueueBehavior = v := by
  obtain ⟨hidle, hmem, hmarks, context, hcontext, haccepts⟩ := hv
  obtain ⟨context', hcontext', haccepts', -, hstate⟩ | ⟨hrefused, -⟩ :=
    @requested_settings s env authorization settings
  · rw [hstate]
    exact ⟨after_syncTimer.mpr ⟨hidle, (applySettings_dirty_iff settings context' haccepts').mpr
      ⟨h.clean hidle, hmarks⟩⟩, applySettings_restore settings context' haccepts' hmem⟩
  · exact absurd haccepts (hrefused context hcontext)

/-- The field that is not marked has changed if the settings have another value for it. -/
theorem restore_mem_of_changed {settings : RoomSettingsPatch}
    (hchanged : (Settings.requested s env (.applySettings settings)
      authorization).restoreQueueBehavior ≠ s.room.restoreQueueBehavior) :
    ∃ v, .restoreQueueBehavior v ∈ settings.props ∧ v ≠ s.room.restoreQueueBehavior := by
  by_contra hnone
  refine hchanged ?_
  obtain ⟨context, -, -, -, hstate⟩ | ⟨-, -, hstate⟩ :=
    @requested_settings s env authorization settings
  · rw [hstate]
    refine applySettings_restore_same settings context (fun v hv => ?_)
    by_contra hne
    exact hnone ⟨v, hv, hne⟩
  · rw [hstate]

/-- **Settings over the websocket.** -/
theorem settings_settled_iff (h : Permanent s) (hsettled : Settled s)
    (settings : RoomSettingsPatch) :
    Settled (s.after (requested s env (.applySettings settings) authorization)) ↔
      ∀ v, OnlyRestores s env settings authorization v → v = s.room.restoreQueueBehavior := by
  constructor
  · intro hset v hv
    obtain ⟨htimer, hvalue⟩ := hv.requested h
    have hnew : s.row.restoreQueueBehavior =
        (requested s env (.applySettings settings) authorization).restoreQueueBehavior :=
      hset htimer .restoreQueueBehavior
    have hold : s.row.restoreQueueBehavior = s.room.restoreQueueBehavior :=
      hsettled hv.1 .restoreQueueBehavior
    rw [← hvalue, ← hnew, hold]
  · intro hsame htimer column
    by_cases hcolumn : column = .restoreQueueBehavior
    · subst hcolumn
      refine (stored_congr ?_).mpr (hsettled (after_syncTimer.mp htimer).1 .restoreQueueBehavior)
      show (requested s env _ authorization).restoreQueueBehavior = s.room.restoreQueueBehavior
      by_contra hchanged
      obtain ⟨v, hv, hne⟩ := restore_mem_of_changed hchanged
      exact hne (hsame v (onlyRestores_of_requested htimer hv hchanged))
    · exact stored_requested_settings hsettled settings htimer hcolumn

/-- **Settings over HTTP.** -/
theorem patch_settled_iff (h : Permanent s) (hsettled : Settled s) (settings : RoomSettingsPatch) :
    Settled (s.after (requested s env (.applySettings settings) authorization)).store ↔
      (OnlyRestores s env settings authorization .never →
        s.room.restoreQueueBehavior = .never) := by
  rw [settled_store_iff (requested_permanent h _)]
  constructor
  · intro hset hnever
    obtain ⟨htimer, hvalue⟩ := hnever.requested h
    have hnew : s.row.restoreQueueBehavior =
        (requested s env (.applySettings settings) authorization).restoreQueueBehavior :=
      hset htimer .restoreQueueBehavior hvalue
    have hold : s.row.restoreQueueBehavior = s.room.restoreQueueBehavior :=
      hsettled hnever.1 .restoreQueueBehavior
    rw [← hvalue, ← hnew, hold]
  · intro hsame htimer column hfalsy
    by_cases hcolumn : column = .restoreQueueBehavior
    · subst hcolumn
      have hvalue : (requested s env (.applySettings settings)
        authorization).restoreQueueBehavior = .never := hfalsy
      refine (stored_congr ?_).mpr (hsettled (after_syncTimer.mp htimer).1 .restoreQueueBehavior)
      show (requested s env _ authorization).restoreQueueBehavior = s.room.restoreQueueBehavior
      by_contra hchanged
      obtain ⟨v, hv, hne⟩ := restore_mem_of_changed hchanged
      have honly := onlyRestores_of_requested htimer hv hchanged
      have hnever : v = .never := (honly.requested h).2.symm.trans hvalue
      rw [hnever] at honly
      exact hchanged (hvalue.trans (hsame honly).symm)
    · exact stored_requested_settings hsettled settings htimer hcolumn

theorem promote_settled (h : Permanent s) (hsettled : Settled s) (target : ClientId) (role : Int) :
    Settled (s.processUnauthorizedRequest env (.promote target role) authorization) := by
  obtain ⟨e, he, hstep⟩ | hstep := @step_promote s env authorization target role
  · rw [hstep]
    exact hsettled.after (requested_promote_rejected he)
  · rw [hstep, settled_store_iff (requested_permanent h _)]
    intro htimer column hfalsy
    refine (stored_congr (requested_promote_columns target role ?_)).mpr
      (hsettled (after_syncTimer.mp htimer).1 column)
    rintro rfl
    exact hfalsy

theorem claim_settled (h : Permanent s) (hsettled : Settled s) (token : AuthToken)
    (user : Option User) (claim : Bool) :
    Settled (s.patchRoom env token user (.claim claim)) := by
  cases claim with
  | false => exact hsettled.store h
  | true =>
    unfold State.patchRoom
    dsimp only
    split
    · exact hsettled
    · cases user with
      | none => exact hsettled
      | some user =>
        -- the mark arms the timer
        refine (settled_store_iff (h.after (.claimed h.reachable user) rfl)).mpr (fun htimer => ?_)
        exact absurd (after_syncTimer.mp htimer).2 (Finset.insert_ne_empty _ _)

theorem patchRoom_settled_iff (h : Permanent s) (hsettled : Settled s) (token : AuthToken)
    (user : Option User) (body : PatchRoom) :
    Settled (s.patchRoom env token user body) ↔ Reaches s (.patchRoom env token user body) := by
  cases body with
  | claim claim => exact iff_of_true (claim_settled h hsettled token user claim) trivial
  | settings body =>
    obtain ⟨context, hcontext, haccepts, hresult, -⟩ | ⟨hrefused, ⟨e, hresult⟩, hstate⟩ :=
      @requested_settings s env ⟨token, none⟩ body.newBody
    · have hstep : s.patchRoom env token user (.settings body) =
          (s.after (requested s env (.applySettings body.newBody) ⟨token, none⟩)).store := by
        unfold State.patchRoom
        simp only [hresult]
        rfl
      rw [hstep]
      exact patch_settled_iff h hsettled body.newBody
    · have hstep : s.patchRoom env token user (.settings body) =
          s.after (requested s env (.applySettings body.newBody) ⟨token, none⟩) := by
        unfold State.patchRoom
        simp only [hresult]
        rfl
      rw [hstep, hstate]
      refine iff_of_true (hsettled.after rfl) (fun honly => ?_)
      obtain ⟨-, -, -, context, hcontext, haccepts⟩ := honly
      exact absurd haccepts (hrefused context hcontext)

/-- **Exactly what a step needs.** -/
theorem step_settled_iff (h : Inv s) (hsettled : Settled s) {e : Event}
    (hstep : step s e = some s') : Settled s' ↔ Reaches s e := by
  cases e with
  | processUnauthorizedRequest env request authorization =>
    cases hstep
    cases request with
    | promote target role =>
      exact iff_of_true (promote_settled h.toPermanent hsettled target role) trivial
    | applySettings settings => exact settings_settled_iff h.toPermanent hsettled settings
    | _ =>
      rw [step_other rfl]
      exact iff_of_true (hsettled.after (requested_columns rfl)) trivial
  | patchRoom env token user body =>
    cases hstep
    exact patchRoom_settled_iff h.toPermanent hsettled token user body
  | update env =>
    cases hstep
    exact iff_of_true (hsettled.after (columnValue_of_standing (update_standing env s.room))) trivial
  | sync =>
    cases hstep
    refine iff_of_true (fun htimer => ?_) trivial
    rw [sync_syncTimer h.toPermanent] at htimer
    exact (upToDate_sync_iff h).mpr (fun column _ => hsettled htimer column)
  | throttledSync =>
    obtain ⟨-, heq⟩ := Option.ite_none_right_eq_some.mp hstep
    cases heq
    rw [sync_throttled h.toPermanent]
    exact ⟨fun hset => (upToDate_sync_iff h).mp (hset rfl),
      fun hreaches _ => (upToDate_sync_iff h).mpr hreaches⟩

end Exact

/-! ## Every run -/

/-- **Exactly the runs that keep the row up to date**, from any permanent room whose row is. -/
theorem stored_throughout_iff {s : State} (h : Permanent s) (hstored : UpToDate s)
    (events : List Event) :
    machine.Always Settled s events ↔ machine.Along Reaches s events :=
  Machine.always_iff_along_of_step (fun _ _ _ hinv hstep => step_inv hinv hstep)
    (fun _ _ _ hinv hsettled hstep => step_settled_iff hinv hsettled hstep)
    (I := Inv) ⟨h, fun _ column _ => hstored column⟩ (fun _ => hstored)

/-! ### Rooms that are loaded -/

/-- A room that was just loaded from its row. The marks of the constructor have armed the timer. -/
def loaded (users : UserId → Option User) (row : DbRoom) (now : Time) : State :=
  ⟨construct (dbToRoomArgs users row) now, row, true⟩

section Loaded

variable (users : UserId → Option User) (row : DbRoom) (now : Time)

theorem loaded_room_eq : ∃ queue prevQueue dirty,
    construct (dbToRoomArgs users row) now = { blank now with
      name := row.name
      title := row.title
      description := row.description
      isTemporary := false
      visibility := row.visibility
      queueMode := row.queueMode
      owner := row.ownerId.bind users
      grants := row.permissions.grants
      userRoles := dbUserRoles row
      autoSkipSegmentCategories := row.autoSkipSegmentCategories
      restoreQueueBehavior := row.restoreQueueBehavior
      enableVoteSkip := row.enableVoteSkip
      queue := queue
      prevQueue := prevQueue
      dirty := dirty } := by
  obtain ⟨queue, prevQueue, dirty, hrestored⟩ :=
    ((blank now).assignOptions (dbToRoomArgs users row)).restored_frame
  refine ⟨queue, prevQueue, dirty, ?_⟩
  rw [construct_eq, hrestored]
  simp only [assignOptions, dbToRoomArgs, assign, setName, setTitle, setDescription, setVisibility,
    setQueueMode, setOwner, setAutoSkipSegmentCategories, setPrevQueue_eq, setRestoreQueueBehavior,
    setEnableVoteSkip, markDirty]
  rfl

theorem loaded_permanent (hname : row.name ≠ "") : Permanent (loaded users row now) := by
  obtain ⟨queue, prevQueue, dirty, heq⟩ := loaded_room_eq users row now
  refine ⟨.loaded users row now, ?_, ?_, fun _ => rfl⟩
  · show (construct _ now).isTemporary = false
    rw [heq]
  · show (construct _ now).name ≠ ""
    rw [heq]
    exact hname

/-- **A room that is loaded has what its row has.** -/
theorem loaded_upToDate (howner : row.ownerId = (row.ownerId.bind users).map User.id) :
    UpToDate (loaded users row now) := by
  obtain ⟨queue, prevQueue, dirty, heq⟩ := loaded_room_eq users row now
  intro column
  show (construct (dbToRoomArgs users row) now).Stored row column
  rw [heq]
  cases column with
  | grants => exact fun _ => rfl
  | userRoles => exact fun _ => rfl
  | owner => exact howner
  | _ => rfl

end Loaded

/-- A visitor sets the room up, over the websocket. -/
def visitorSets (setting : RoomSetting) : Event :=
  .processUnauthorizedRequest { emptyEnv 0 with session := fun _ => some (.loggedOut "visitor") }
    (.applySettings ⟨[setting], none, by simp⟩) ⟨"visitor's token", none⟩

/-- A room that visitors may set up. -/
def visited : State := loaded (fun _ => none) promptRow 0

theorem visited_permanent : Permanent visited := loaded_permanent _ promptRow 0 (by decide)

theorem visited_upToDate : UpToDate visited := loaded_upToDate _ promptRow 0 rfl

/-- Which segments are skipped reaches the row. -/
theorem stored_throughout_iff_visited : machine.Always Settled visited
    [visitorSets (.autoSkipSegmentCategories [.sponsor]), .throttledSync] := by
  refine (stored_throughout_iff visited_permanent visited_upToDate _).mpr ?_
  have hset : (step visited (visitorSets (.autoSkipSegmentCategories [.sponsor]))).map (fun s =>
      ((s.room.title, s.room.description), (s.room.restoreQueueBehavior, s.room.enableVoteSkip),
        s.room.owner)) = some (("", ""), (.prompt, false), none) := by
    decide +kernel
  intro s hs
  refine ⟨fun v honly => absurd honly.1 (by decide), fun s' _ => ⟨fun column hskipped => ?_, trivial⟩⟩
  have hs' : step visited (visitorSets (.autoSkipSegmentCategories [.sponsor])) = some s := hs
  have hrow : s.row = promptRow := by
    cases hs
    rfl
  simp only [hs', Option.map_some, Option.some.injEq, Prod.mk.injEq] at hset
  obtain ⟨⟨htitle, hdescription⟩, ⟨hrestore, hvote⟩, howner⟩ := hset
  unfold Room.Stored
  rw [hrow]
  cases column with
  | title => exact htitle.symm
  | description => exact hdescription.symm
  | restoreQueueBehavior => exact hrestore.symm
  | enableVoteSkip => exact hvote.symm
  | owner =>
    show none = s.room.owner.map User.id
    rw [howner]
    rfl
  | _ => exact absurd hskipped id

/-- **A setting can miss the database**: `sync` runs and does not write it. -/
theorem not_stored_throughout :
    ¬ ∀ s, Permanent s → UpToDate s → ∀ events, machine.Always Settled s events := by
  intro h
  have hrun : (machine.run visited [visitorSets (.enableVoteSkip true), .throttledSync]).map
      (fun s => (s.syncTimer, s.room.enableVoteSkip, s.row.enableVoteSkip)) =
        some (false, true, false) := by
    decide +kernel
  obtain ⟨s, hs, heq⟩ := Option.map_eq_some_iff.mp hrun
  simp only [Prod.mk.injEq] at heq
  obtain ⟨hidle, hroom, hrow⟩ := heq
  have hstored : s.row.enableVoteSkip = s.room.enableVoteSkip :=
    (h visited visited_permanent visited_upToDate _).last hs hidle .enableVoteSkip
  rw [hroom, hrow] at hstored
  cases hstored

end Settings

end OpenTogetherTube.Server
