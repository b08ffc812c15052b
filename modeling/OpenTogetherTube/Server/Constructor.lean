import OpenTogetherTube.Server.Room

/-!
# The constructor of a room

`new Room(options)`. The options come from whoever creates the room, from the room's row in the
database, or from the state that redis kept, and every one of them may be missing. Most are assigned
to the properties of the same name, through the setters where there are any; the queue that was
saved when the room was last unloaded is then forgotten or brought back, as the room is set up to.
-/

namespace OpenTogetherTube.Server

open OpenTogetherTube.Common OpenTogetherTube.Lib

/-- Grants among the options: an instance of the class, or the masks to make one from. -/
inductive GrantsOption where
  | grants (value : Grants)
  | masks (value : OrderedMap Role GrantMask)
  deriving DecidableEq

/-- Roles among the options: a `Map`, or an object with a list for each role. -/
inductive UserRolesOption where
  | map (value : OrderedMap Role (OrderedSet UserId))
  | object (value : Role → Option (List UserId))

/-- `Partial<RoomOptions>`, with what redis keeps besides. The two that may be null as well as
missing are options of options. -/
structure RoomOptions where
  name : Option String := none
  title : Option String := none
  description : Option String := none
  isTemporary : Option Bool := none
  visibility : Option Visibility := none
  queueMode : Option QueueMode := none
  owner : Option (Option User) := none
  grants : Option GrantsOption := none
  userRoles : Option UserRolesOption := none
  autoSkipSegmentCategories : Option (List Category) := none
  restoreQueueBehavior : Option BehaviorOption := none
  enableVoteSkip : Option Bool := none
  currentSource : Option (Option QueueItem) := none
  queue : Option (List QueueItem) := none
  prevQueue : Option (Option (List QueueItem)) := none
  isPlaying : Option Bool := none
  playbackPosition : Option ℚ := none
  playbackSpeed : Option ℚ := none
  votesToSkip : Option (List ClientId) := none
  playbackStart : Option Time := none

namespace Room

def setName (r : Room) (value : String) : Room := { r with name := value }.markDirty .name

def setOwner (r : Room) (value : Option User) : Room := { r with owner := value }.markDirty .hasOwner

/-- Assign an option, if it is there. -/
def assign {α : Type} (value : Option α) (set : Room → α → Room) (r : Room) : Room :=
  match value with
  | some value => set r value
  | none => r

/-- The class's own fields, and the constructor's `this.owner = null`. -/
def blank (now : Time) : Room := { Room.new "" now with dirty := {.hasOwner} }

/-- The entries of a list of items that were objects of nothing before. -/
def entriesFrom (object : ObjectId) (items : List QueueItem) : List QueueEntry :=
  items.mapIdx (fun i item => ⟨object + i, item⟩)

/-- `Object.assign(this, _.pick(options, …))`. The votes to skip are set at the end. -/
def assignOptions (options : RoomOptions) (r : Room) : Room :=
  let r := r.assign options.name setName
  let r := r.assign options.title setTitle
  let r := r.assign options.description setDescription
  let r := r.assign options.visibility setVisibility
  let r := r.assign options.queueMode setQueueMode
  let r := r.assign options.isTemporary (fun r value => { r with isTemporary := value })
  let r := r.assign options.owner setOwner
  let r := r.assign options.currentSource
    (fun r value => r.setCurrentSource (value.map (fun item => ⟨0, item⟩)))
  let r := r.assign options.queue (fun r value => { r with queue := entriesFrom 1 value })
  let r := r.assign options.playbackPosition setPlaybackPosition
  let r := r.assign options.isPlaying setIsPlaying
  let r := r.assign options.playbackSpeed setPlaybackSpeed
  let r := r.assign options.autoSkipSegmentCategories setAutoSkipSegmentCategories
  let r := r.assign options.prevQueue setPrevQueue
  let r := r.assign options.restoreQueueBehavior setRestoreQueueBehavior
  r.assign options.enableVoteSkip setEnableVoteSkip

/-- A room that never restores its queue forgets it. -/
def forgetPrevQueue (r : Room) : Room :=
  if r.restoreQueueBehavior = .never then r.setPrevQueue none else r

/-- A room that always restores its queue does so if nothing is queued. -/
def restorePrevQueue (r : Room) : Room :=
  match r.prevQueue with
  | some items =>
    if r.queue.length = 0 ∧ r.restoreQueueBehavior = .always then
      ({ r with queue := r.queue ++ entriesFrom 1 items }.markDirty .queue).setPrevQueue none
    else r
  | none => r

/-- The grants to start with. -/
def grantsFrom (grants : Grants) : Option GrantsOption → Grants
  | some (.grants value) => value
  | some (.masks value) => Grants.ofMasks value
  | none => grants

/-- The roles to start with: a `Map` replaces the sets, an object replaces those it has. -/
def userRolesFrom (userRoles : OrderedMap Role (OrderedSet UserId)) :
    Option UserRolesOption → OrderedMap Role (OrderedSet UserId)
  | some (.map value) => value
  | some (.object value) =>
    [Role.trustedUser, .moderator, .administrator].foldl (fun roles role =>
      match value role with
      | some ids => roles.set role (OrderedSet.ofList ids)
      | none => roles) userRoles
  | none => userRoles

/-- `new Room(options)`. -/
def construct (options : RoomOptions) (now : Time) : Room :=
  let r := ((blank now).assignOptions options).forgetPrevQueue.restorePrevQueue
  { r with
    grants := grantsFrom r.grants options.grants
    userRoles := userRolesFrom r.userRoles options.userRoles
    playbackStart := options.playbackStart <|> r.playbackStart
    votesToSkip := OrderedSet.ofList (options.votesToSkip.getD []) }

/-- A room for which only a name is given. -/
theorem construct_named (name : String) (now : Time) :
    construct { name := some name } now = Room.new name now := by
  have hdirty : (insert SyncProp.name {SyncProp.hasOwner} : Finset SyncProp) =
      {.hasOwner, .name} := Finset.pair_comm _ _
  show { Room.new name now with dirty := insert SyncProp.name {SyncProp.hasOwner} } = _
  rw [hdirty]
  rfl

/-! ## Restoring the queue -/

section Restore

variable (r : Room)

/-- The two restore rules, run one after the other. -/
def restored : Room := r.forgetPrevQueue.restorePrevQueue

@[simp] theorem setPrevQueue_prevQueue (value : Option (List QueueItem)) :
    (r.setPrevQueue value).prevQueue = value := by
  unfold setPrevQueue
  split
  · next h => exact h.2.trans h.1.symm
  · rfl

/-- **What the restore rules leave**: the queue that was saved is dropped, or moved to where nothing
is queued, or stays where it is; nothing else changes. -/
theorem restored_cases :
    (r.restoreQueueBehavior = .never ∧ r.restored = r.setPrevQueue none) ∨
    (r.restoreQueueBehavior = .always ∧ r.queue = [] ∧ ∃ items, r.prevQueue = some items ∧
      r.restored = ({ r with queue := entriesFrom 1 items }.markDirty .queue).setPrevQueue none) ∨
    (r.restoreQueueBehavior ≠ .never ∧
      (r.restoreQueueBehavior = .always → r.queue = [] → r.prevQueue = none) ∧ r.restored = r) := by
  by_cases hnever : r.restoreQueueBehavior = .never
  · refine .inl ⟨hnever, ?_⟩
    have hforget : r.forgetPrevQueue = r.setPrevQueue none := if_pos hnever
    rw [restored, hforget, restorePrevQueue, setPrevQueue_prevQueue]
  · have hforget : r.forgetPrevQueue = r := if_neg hnever
    rw [restored, hforget, restorePrevQueue]
    cases hprev : r.prevQueue with
    | none => exact .inr (.inr ⟨hnever, fun _ _ => rfl, rfl⟩)
    | some items =>
      dsimp only
      by_cases hrestore : r.queue.length = 0 ∧ r.restoreQueueBehavior = .always
      · have hempty : r.queue = [] := List.eq_nil_of_length_eq_zero hrestore.1
        refine .inr (.inl ⟨hrestore.2, hempty, items, rfl, ?_⟩)
        rw [if_pos hrestore, hempty, List.nil_append]
      · refine .inr (.inr ⟨hnever, fun halways hempty => ?_, if_neg hrestore⟩)
        exact absurd ⟨by rw [hempty]; rfl, halways⟩ hrestore

end Restore

theorem construct_eq (options : RoomOptions) (now : Time) :
    construct options now =
      { ((blank now).assignOptions options).restored with
        grants := grantsFrom ((blank now).assignOptions options).restored.grants options.grants
        userRoles :=
          userRolesFrom ((blank now).assignOptions options).restored.userRoles options.userRoles
        playbackStart := options.playbackStart <|>
          ((blank now).assignOptions options).restored.playbackStart
        votesToSkip := OrderedSet.ofList (options.votesToSkip.getD []) } := rfl

end Room

end OpenTogetherTube.Server
