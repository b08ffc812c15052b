import Mathlib.Logic.Function.Basic
import OpenTogetherTube.Lib.Calls
import OpenTogetherTube.Lib.Machine

/-!
# The form with the settings of a room

What is edited in the form is submitted a second after the last edit. A list says which settings are
dirty: watchers put an edited one on it, and it is emptied when a submission has succeeded, and after
the form was loaded.

The form should submit what the user has edited, and nothing else. But the grants are part of every
submission, edited or not; and what is edited while a submission is under way is taken off the list
when that one succeeds, without having been sent. `edits_throughout` says what has to be avoided, and
`not_edits_throughout` shows the two.

The server takes what it is sent whenever it arrives, and answers at any time after that. A setting is
a value of any type; the texts of the form are left out.
-/

namespace OpenTogetherTube.Client.SettingsForm

open OpenTogetherTube.Lib

/-! ## The settings -/

/-- `keyof RoomSettings`. -/
inductive Key where
  | title | description | visibility | queueMode | grants | autoSkipSegmentCategories
  | restoreQueueBehavior | enableVoteSkip
  deriving DecidableEq, Repr

def Key.all : List Key :=
  [.title, .description, .visibility, .queueMode, .grants, .autoSkipSegmentCategories,
    .restoreQueueBehavior, .enableVoteSkip]

/-- A new object is never what was there. -/
def Key.isObject : Key → Bool
  | .grants | .autoSkipSegmentCategories => true
  | _ => false

def propsToGrants : List (Key × String) :=
  [(.title, "set-title"), (.description, "set-description"), (.visibility, "set-visibility"),
    (.queueMode, "set-queue-mode"), (.autoSkipSegmentCategories, "other"),
    (.restoreQueueBehavior, "other"), (.enableVoteSkip, "other")]

/-- Some of the settings. -/
abbrev Partial (V : Type) := Key → Option V

/-- The settings, with those of the body. -/
def Partial.applyTo {V : Type} (body : Partial V) (settings : Key → V) : Key → V :=
  fun key => (body key).getD (settings key)

/-! ## The component, and the server -/

inductive Reply where
  | success
  | errorResponse (message : String)
  | noResponse
  deriving DecidableEq, Repr

inductive Toast where
  | loadFailed
  | settingsApplied
  | message (text : String)
  deriving DecidableEq, Repr

/-- The refs, timers and requests, and what the server has. A request that was sent is known by its
number. -/
structure State (V : Type) where
  inputRoomSettings : Key → V
  dirtySettings : List Key
  isLoadingRoomSettings : Bool
  debounced : Bool
  /-- The timeouts of loads that have not run. -/
  timeouts : Nat
  patches : List (Call (Partial V) Reply)
  arrived : List Nat
  loads : List (Call Unit Bool)
  /-- What the server has read for a load. -/
  snapshots : Nat → Option (Key → V)
  toasts : List Toast
  server : Key → V

/-- The component is mounted, and the form is loaded. -/
def initial {V : Type} (defaults server : Key → V) : State V where
  inputRoomSettings := defaults
  dirtySettings := []
  isLoadingRoomSettings := true
  debounced := false
  timeouts := 0
  patches := []
  arrived := []
  loads := [⟨(), none⟩]
  snapshots := fun _ => none
  toasts := []
  server := server

/-- `if (!dirtySettings.value.includes(key)) dirtySettings.value.push(key);`. -/
def markDirty (dirtySettings : List Key) (key : Key) : List Key :=
  if key ∈ dirtySettings then dirtySettings else dirtySettings ++ [key]

namespace State

variable {V : Type} [DecidableEq V]

/-- A watcher of the setting runs. -/
def changes (s : State V) (key : Key) (value : V) : Bool :=
  key.isObject || s.inputRoomSettings key ≠ value

def edit (s : State V) (key : Key) (value : V) : State V :=
  { s with
    inputRoomSettings := Function.update s.inputRoomSettings key value
    dirtySettings := markDirty s.dirtySettings key
    debounced := true }

/-- `loadRoomSettings`, to the `await`. -/
def loadRoomSettings (s : State V) : State V :=
  { s with isLoadingRoomSettings := true, loads := Call.send s.loads () }

/-- `loadRoomSettings`, from the `await`. The grants are a new object, so there is a change. -/
def loaded (s : State V) (settings : Key → V) : State V :=
  { s with
    inputRoomSettings := settings
    dirtySettings :=
      (Key.all.filter (fun key => s.changes key (settings key))).foldl markDirty s.dirtySettings
    debounced := true
    timeouts := s.timeouts + 1
    isLoadingRoomSettings := false }

def loadFailed (s : State V) : State V :=
  { s with toasts := s.toasts ++ [.loadFailed], isLoadingRoomSettings := false }

def getRoomSettingsSubmit (s : State V) (granted : String → Bool) : Partial V :=
  let blocked := (propsToGrants.filter (fun prop =>
    prop.1 ∉ s.dirtySettings || !granted ("configure-room." ++ prop.2))).map Prod.fst
  fun key => if key ∈ blocked then none else some (s.inputRoomSettings key)

/-- `submitRoomSettings`, to the `await`. -/
def submitRoomSettings (s : State V) (granted : String → Bool) : State V :=
  { s with
    isLoadingRoomSettings := true
    patches := Call.send s.patches (s.getRoomSettingsSubmit granted) }

/-- `submitRoomSettings`, from the `await`. Without a response, the `catch` block throws. -/
def submitted (s : State V) : Reply → State V
  | .success =>
    { s with
      toasts := s.toasts ++ [.settingsApplied]
      dirtySettings := []
      isLoadingRoomSettings := false }
  | .errorResponse message =>
    { s with toasts := s.toasts ++ [.message message], isLoadingRoomSettings := false }
  | .noResponse => s

omit [DecidableEq V] in
theorem inputRoomSettings_edit (s : State V) (key key' : Key) (value : V) :
    (s.edit key value).inputRoomSettings key' =
      if key' = key then value else s.inputRoomSettings key' :=
  Function.update_apply _ _ _ _

end State

/-- `granted` is what the user may do at the time. -/
inductive Event (V : Type) where
  | edit (key : Key) (value : V)
  /-- A second has passed. -/
  | debounce (granted : String → Bool)
  /-- The button is pressed. -/
  | save (granted : String → Bool)
  | arrive (i : Nat)
  | reply (i : Nat) (outcome : Reply)
  | reload
  | read (i : Nat)
  | loaded (i : Nat) (ok : Bool)
  /-- `setTimeout` with 0. -/
  | timeout
  /-- Somebody else changes a setting. -/
  | change (key : Key) (value : V)

section System

variable {V : Type} [DecidableEq V]

/-- A load starts the debounce anew and its own timeout is shorter, so that the timeout runs first. -/
def step (s : State V) : Event V → Option (State V)
  | .edit key value => if s.changes key value then some (s.edit key value) else none
  | .debounce granted =>
    if !s.debounced || s.timeouts ≠ 0 then none
    else
      let s := { s with debounced := false }
      if s.dirtySettings = [] then some s else some (s.submitRoomSettings granted)
  | .save granted =>
    if s.dirtySettings = [] || s.isLoadingRoomSettings then none
    else some (s.submitRoomSettings granted)
  | .arrive i =>
    match s.patches[i]? with
    | some patch =>
      if i ∈ s.arrived then none
      else some { s with arrived := i :: s.arrived, server := patch.request.applyTo s.server }
    | none => none
  | .reply i outcome =>
    if outcome = .success && i ∉ s.arrived then none
    else (Call.answer s.patches i outcome).map
      (fun patches => { s with patches := patches }.submitted outcome)
  | .reload => some s.loadRoomSettings
  | .read i =>
    if s.loads.length ≤ i || (s.snapshots i).isSome then none
    else some { s with snapshots := Function.update s.snapshots i (some s.server) }
  | .loaded i ok =>
    match Call.answer s.loads i ok, ok, s.snapshots i with
    | some loads, true, some settings => some ({ s with loads := loads }.loaded settings)
    | some loads, false, _ => some { s with loads := loads }.loadFailed
    | _, _, _ => none
  | .timeout =>
    if s.timeouts = 0 then none
    else some { s with dirtySettings := [], timeouts := s.timeouts - 1 }
  | .change key value => some { s with server := Function.update s.server key value }

def form : Machine (State V) (Event V) := ⟨step⟩

end System

/-! ## The specification -/

/-- What has become of the user's edits. -/
structure History (V : Type) where
  lastEdit : Key → Option V
  /-- Edited since the last load or successful submission. -/
  edited : Key → Bool
  /-- Edited since it was submitted. -/
  unsent : Key → Bool
  /-- Changed by somebody else since it was edited. -/
  changedLater : Key → Bool

namespace History

variable {V : Type}

def empty : History V := ⟨fun _ => none, fun _ => false, fun _ => false, fun _ => false⟩

def edit (h : History V) (key : Key) (value : V) : History V where
  lastEdit := Function.update h.lastEdit key (some value)
  edited := Function.update h.edited key true
  unsent := Function.update h.unsent key true
  changedLater := Function.update h.changedLater key false

def submit (h : History V) (body : Partial V) : History V :=
  { h with unsent := fun key => h.unsent key && (body key).isNone }

/-- A load, or a submission that has succeeded. -/
def reset (h : History V) : History V := { h with edited := fun _ => false }

def change (h : History V) (key : Key) : History V :=
  { h with changedLater := Function.update h.changedLater key true }

section Fields

variable (h : History V) (key key' : Key) (value : V)

theorem lastEdit_edit :
    (h.edit key value).lastEdit key' = if key' = key then some value else h.lastEdit key' :=
  Function.update_apply _ _ _ _

theorem edited_edit : (h.edit key value).edited key' = if key' = key then true else h.edited key' :=
  Function.update_apply _ _ _ _

theorem unsent_edit : (h.edit key value).unsent key' = if key' = key then true else h.unsent key' :=
  Function.update_apply _ _ _ _

theorem changedLater_edit :
    (h.edit key value).changedLater key' = if key' = key then false else h.changedLater key' :=
  Function.update_apply _ _ _ _

theorem changedLater_change :
    (h.change key).changedLater key' = if key' = key then true else h.changedLater key' :=
  Function.update_apply _ _ _ _

theorem unsent_submit (body : Partial V) :
    (h.submit body).unsent key = (h.unsent key && (body key).isNone) := rfl

end Fields

end History

section Specification

variable {V : Type} [DecidableEq V]

/-- What is submitted in the step. -/
def State.submission (s : State V) : Event V → Option (Partial V)
  | .debounce granted =>
    if s.dirtySettings = [] then none else some (s.getRoomSettingsSubmit granted)
  | .save granted => some (s.getRoomSettingsSubmit granted)
  | _ => none

def observe (h : History V) (s : State V) : Event V → History V
  | .edit key value => h.edit key value
  | .debounce granted => ((s.submission (.debounce granted)).map h.submit).getD h
  | .save granted => ((s.submission (.save granted)).map h.submit).getD h
  | .reply _ .success | .loaded _ true => h.reset
  | .change key _ => h.change key
  | .reply _ (.errorResponse _) | .reply _ .noResponse | .loaded _ false | .arrive _ | .reload
  | .read _ | .timeout => h

def system : Machine (State V × History V) (Event V) := form.observing observe

/-- Only what the user has edited is submitted. -/
def OnlyEdits (t : State V × History V) (e : Event V) : Prop :=
  ∀ body ∈ t.1.submission e, ∀ key, body key ≠ none → t.2.edited key = true

/-- Nothing is pending, and all requests have succeeded. -/
structure Idle (s : State V) : Prop where
  debounced : s.debounced = false
  timeouts : s.timeouts = 0
  patches : ∀ c ∈ s.patches, c.reply = some .success
  loads : ∀ c ∈ s.loads, c.reply = some true

/-- The server has the user's last edits, unless somebody else has changed them. -/
def Kept (t : State V × History V) : Prop :=
  Idle t.1 → ∀ key value, t.2.lastEdit key = some value →
    t.1.server key = value ∨ t.2.changedLater key = true

/-- Nothing newer has arrived for a setting of the submission. -/
def InOrder (s : State V) (i : Nat) : Prop :=
  ∀ c, s.patches[i]? = some c → ∀ key, c.request key ≠ none →
    ∀ j > i, ∀ c', s.patches[j]? = some c' → c'.request key ≠ none → j ∉ s.arrived

/-- The grants were edited when something is submitted, and the button is not pressed right after a
load; submissions arrive in order; and the list of dirty settings is emptied when every edit has been
submitted. -/
def Careful (t : State V × History V) : Event V → Prop
  | .debounce _ => t.1.dirtySettings ≠ [] → t.2.edited .grants = true
  | .save _ => t.2.edited .grants = true ∧ t.1.timeouts = 0
  | .arrive i => InOrder t.1 i
  | .reply _ .success | .loaded _ true | .timeout => ∀ key, t.2.unsent key = false
  | .reply _ (.errorResponse _) | .reply _ .noResponse | .loaded _ false | .edit _ _ | .reload
  | .read _ | .change _ _ => True

end Specification

/-! ## What is submitted -/

section Submission

variable {V : Type} {s : State V} {key : Key} {value : V}

theorem mem_markDirty {dirtySettings : List Key} {key' : Key} :
    key' ∈ markDirty dirtySettings key ↔ key' ∈ dirtySettings ∨ key' = key := by
  unfold markDirty
  split
  · next hmem =>
    refine ⟨.inl, fun h => h.elim id ?_⟩
    rintro rfl
    exact hmem
  · rw [List.mem_append, List.mem_singleton]

/-- The grants, and what is dirty. -/
theorem mem_dirty_of_submit {granted : String → Bool}
    (h : s.getRoomSettingsSubmit granted key ≠ none) : key ∈ s.dirtySettings ∨ key = .grants := by
  by_cases hdirty : key ∈ s.dirtySettings
  · exact .inl hdirty
  · refine .inr ?_
    by_contra hgrants
    refine h (if_pos ?_)
    have hprop : ∃ permission, (key, permission) ∈ propsToGrants := by
      revert hgrants
      cases key <;> simp [propsToGrants]
    obtain ⟨permission, hprop⟩ := hprop
    refine List.mem_map.mpr ⟨(key, permission), List.mem_filter.mpr ⟨hprop, ?_⟩, rfl⟩
    simp [hdirty]

theorem eq_of_submit {granted : String → Bool}
    (h : s.getRoomSettingsSubmit granted key = some value) : s.inputRoomSettings key = value := by
  unfold State.getRoomSettingsSubmit at h
  split at h
  · cases h
  · exact Option.some.inj h

end Submission

/-! ## The invariant -/

/-- The setting is in the submission. -/
def Names {V : Type} (key : Key) (body : Partial V) : Prop := body key ≠ none

section Invariant

variable {V : Type}

/-- What holds if care is taken. -/
structure Inv (s : State V) (h : History V) : Prop where
  /-- The form holds what the user has edited. -/
  holds : ∀ key, h.edited key = true → h.lastEdit key = some (s.inputRoomSettings key)
  listed : s.timeouts = 0 → ∀ key ∈ s.dirtySettings, h.edited key = true
  unsent : ∀ key, h.unsent key = true → key ∈ s.dirtySettings ∧ h.edited key = true
  /-- What is to be submitted is waiting for the debounce, or for a response. -/
  waits : ∀ key, h.unsent key = true →
    s.debounced = true ∨ ∃ c ∈ s.patches, c.reply ≠ some .success
  sent : ∀ i ∈ s.arrived, i < s.patches.length
  answered : ∀ i c, s.patches[i]? = some c → c.reply = some .success → i ∈ s.arrived
  /-- The latest submission of a setting has the user's last edit, and the server has it from there. -/
  kept : ∀ key value, h.lastEdit key = some value → h.unsent key = false →
    ∃ i c, Call.Latest (Names key) s.patches i c ∧ c.request key = some value ∧
      (i ∈ s.arrived → h.changedLater key = false → s.server key = value)

variable {s : State V} {h : History V}

theorem not_unsent (hunsent : ∀ key, h.unsent key = false) (key : Key) : ¬ h.unsent key = true :=
  (Bool.not_eq_true _).mpr (hunsent key)

theorem inv_initial (defaults server : Key → V) : Inv (initial defaults server) History.empty where
  holds := fun _ hedited => absurd hedited Bool.false_ne_true
  listed := fun _ _ hmem => absurd hmem List.not_mem_nil
  unsent := fun _ hunsent => absurd hunsent Bool.false_ne_true
  waits := fun _ hunsent => absurd hunsent Bool.false_ne_true
  sent := fun _ hmem => absurd hmem List.not_mem_nil
  answered := by
    intro i c hc
    cases hc
  kept := by
    intro key value hlast
    cases hlast

theorem Inv.edit (hinv : Inv s h) (key : Key) (value : V) :
    Inv (s.edit key value) (h.edit key value) where
  holds := by
    intro key' hedited
    rw [History.edited_edit] at hedited
    rw [History.lastEdit_edit, State.inputRoomSettings_edit]
    split
    · rfl
    · next hne =>
      rw [if_neg hne] at hedited
      exact hinv.holds key' hedited
  listed := by
    intro htimeouts key' hmem
    rw [History.edited_edit]
    split
    · rfl
    · next hne => exact hinv.listed htimeouts key' ((mem_markDirty.mp hmem).resolve_right hne)
  unsent := by
    intro key' hunsent
    show key' ∈ markDirty s.dirtySettings key ∧ _
    rw [History.unsent_edit] at hunsent
    rw [mem_markDirty, History.edited_edit]
    by_cases heq : key' = key
    · exact ⟨.inr heq, if_pos heq⟩
    · rw [if_neg heq] at hunsent ⊢
      exact ⟨.inl (hinv.unsent key' hunsent).1, (hinv.unsent key' hunsent).2⟩
  waits := fun _ _ => .inl rfl
  sent := hinv.sent
  answered := hinv.answered
  kept := by
    intro key' value' hlast hunsent
    rw [History.unsent_edit] at hunsent
    rw [History.lastEdit_edit] at hlast
    rw [History.changedLater_edit]
    by_cases heq : key' = key
    · rw [if_pos heq] at hunsent
      cases hunsent
    · rw [if_neg heq] at hunsent hlast ⊢
      exact hinv.kept key' value' hlast hunsent

/-- All of what is submitted has been edited. -/
theorem Inv.submit (hinv : Inv s h) {granted : String → Bool} (debounced : Bool)
    (hedited : ∀ key, s.getRoomSettingsSubmit granted key ≠ none → h.edited key = true) :
    Inv ({ s with debounced := debounced }.submitRoomSettings granted)
      (h.submit (s.getRoomSettingsSubmit granted)) where
  holds := hinv.holds
  listed := hinv.listed
  unsent := by
    intro key hunsent
    exact hinv.unsent key ((Bool.and_eq_true _ _).mp hunsent).1
  waits := by
    intro key _
    refine .inr ⟨_, List.mem_append_right _ (List.mem_singleton_self _), fun hreply => ?_⟩
    cases hreply
  sent := by
    intro i hi
    show i < (s.patches ++ [_]).length
    rw [List.length_append]
    exact Nat.lt_add_right _ (hinv.sent i hi)
  answered := by
    intro i c hc hreply
    rcases Nat.lt_or_ge i s.patches.length with hlt | hge
    · exact hinv.answered i c ((List.getElem?_append_left hlt).symm.trans hc) hreply
    · have hnew : c ∈ ([⟨s.getRoomSettingsSubmit granted, none⟩] : List (Call (Partial V) Reply)) :=
        List.mem_of_getElem? ((List.getElem?_append_right hge).symm.trans hc)
      cases List.mem_singleton.mp hnew
      cases hreply
  kept := by
    intro key value hlast hunsent
    by_cases hnames : Names key (s.getRoomSettingsSubmit granted)
    · refine ⟨_, _, Call.latest_send hnames, ?_, fun harrived => ?_⟩
      · obtain ⟨value', hvalue'⟩ := Option.ne_none_iff_exists'.mp hnames
        have hinput := hinv.holds key (hedited key hnames)
        have hsame : some value = some (s.inputRoomSettings key) := hlast.symm.trans hinput
        rw [hsame, eq_of_submit hvalue']
        exact hvalue'
      · exact absurd (hinv.sent _ harrived) (Nat.lt_irrefl _)
    · have hnone : s.getRoomSettingsSubmit granted key = none := not_not.mp hnames
      rw [History.unsent_submit, hnone, Option.isNone_none, Bool.and_true] at hunsent
      obtain ⟨i, c, hlatest, hrequest, hstored⟩ := hinv.kept key value hlast hunsent
      exact ⟨i, c, hlatest.after_send hnames, hrequest, hstored⟩

theorem Inv.arrive (hinv : Inv s h) {i : Nat} {c : Call (Partial V) Reply}
    (hc : s.patches[i]? = some c) (hsent : i ∉ s.arrived) (horder : InOrder s i) :
    Inv { s with arrived := i :: s.arrived, server := c.request.applyTo s.server } h where
  holds := hinv.holds
  listed := hinv.listed
  unsent := hinv.unsent
  waits := hinv.waits
  sent := by
    intro j hj
    rcases List.mem_cons.mp hj with rfl | hj
    · exact (List.getElem?_eq_some_iff.mp hc).1
    · exact hinv.sent j hj
  answered := fun j c' hc' hreply => List.mem_cons_of_mem _ (hinv.answered j c' hc' hreply)
  kept := by
    intro key value hlast hunsent
    obtain ⟨j, c', hlatest, hrequest, hstored⟩ := hinv.kept key value hlast hunsent
    refine ⟨j, c', hlatest, hrequest, fun harrived hchanged => ?_⟩
    show (c.request key).getD (s.server key) = value
    by_cases hji : j = i
    · subst hji
      cases hc.symm.trans hlatest.here
      rw [hrequest, Option.getD_some]
    · have hj : j ∈ s.arrived := (List.mem_cons.mp harrived).resolve_left hji
      -- an older submission of the setting does not arrive behind the latest one
      have hnone : c.request key = none := by
        by_contra hnames
        rcases Nat.lt_or_gt_of_ne hji with hlt | hgt
        · exact hlatest.later i hlt c hc hnames
        · exact horder c hc key hnames j hgt c' hlatest.here hlatest.holds hj
      rw [hnone, Option.getD_none]
      exact hstored hj hchanged

/-- A reply is put beside its submission. -/
theorem Inv.answer (hinv : Inv s h) {i : Nat} {outcome : Reply}
    {patches : List (Call (Partial V) Reply)} (hanswer : Call.answer s.patches i outcome = some patches)
    (harrived : outcome = .success → i ∈ s.arrived)
    (hwaits : ∀ key, h.unsent key = true → outcome ≠ .success) :
    Inv { s with patches := patches } h where
  holds := hinv.holds
  listed := hinv.listed
  unsent := hinv.unsent
  waits := by
    intro key hunsent
    obtain ⟨a, ha, rfl⟩ := Call.answer_eq_some hanswer
    obtain ⟨hi, -⟩ := List.getElem?_eq_some_iff.mp ha
    refine .inr ⟨_, List.mem_of_getElem? (List.getElem?_set_self hi), fun hreply => ?_⟩
    exact hwaits key hunsent (Option.some.inj hreply)
  sent := by
    intro j hj
    obtain ⟨a, ha, rfl⟩ := Call.answer_eq_some hanswer
    show j < (s.patches.set i _).length
    rw [List.length_set]
    exact hinv.sent j hj
  answered := by
    intro j c hc hreply
    rw [Call.getElem?_answer hanswer] at hc
    split at hc
    · next hji =>
      obtain ⟨c₀, -, rfl⟩ := Option.map_eq_some_iff.mp hc
      rw [hji]
      exact harrived (Option.some.inj hreply)
    · exact hinv.answered j c hc hreply
  kept := by
    intro key value hlast hunsent
    obtain ⟨j, c, hlatest, hrequest, hstored⟩ := hinv.kept key value hlast hunsent
    obtain ⟨c', hlatest', hsame⟩ := hlatest.after_answer hanswer
    exact ⟨j, c', hlatest', hsame ▸ hrequest, hstored⟩

/-- Where everything is submitted, the list of dirty settings may be emptied, and the form may be
loaded. -/
theorem Inv.forget (hinv : Inv s h) (hunsent : ∀ key, h.unsent key = false) {s' : State V}
    (hlisted : s'.timeouts = 0 → s'.dirtySettings = []) (hpatches : s'.patches = s.patches)
    (harrived : s'.arrived = s.arrived) (hserver : s'.server = s.server) :
    Inv s' h.reset where
  holds := fun _ hedited => absurd hedited Bool.false_ne_true
  listed := by
    intro htimeouts key hmem
    rw [hlisted htimeouts] at hmem
    exact absurd hmem List.not_mem_nil
  unsent := fun key htrue => absurd htrue (not_unsent hunsent key)
  waits := fun key htrue => absurd htrue (not_unsent hunsent key)
  sent := by
    rw [harrived, hpatches]
    exact hinv.sent
  answered := by
    rw [harrived, hpatches]
    exact hinv.answered
  kept := by
    rw [harrived, hpatches, hserver]
    exact hinv.kept

theorem Inv.timeout (hinv : Inv s h) (hunsent : ∀ key, h.unsent key = false) (timeouts : Nat) :
    Inv { s with dirtySettings := [], timeouts := timeouts } h where
  holds := hinv.holds
  listed := fun _ _ hmem => absurd hmem List.not_mem_nil
  unsent := fun key htrue => absurd htrue (not_unsent hunsent key)
  waits := hinv.waits
  sent := hinv.sent
  answered := hinv.answered
  kept := hinv.kept

theorem Inv.change (hinv : Inv s h) (key : Key) (value : V) :
    Inv { s with server := Function.update s.server key value } (h.change key) where
  holds := hinv.holds
  listed := hinv.listed
  unsent := hinv.unsent
  waits := hinv.waits
  sent := hinv.sent
  answered := hinv.answered
  kept := by
    intro key' value' hlast hunsent
    obtain ⟨i, c, hlatest, hrequest, hstored⟩ := hinv.kept key' value' hlast hunsent
    refine ⟨i, c, hlatest, hrequest, fun harrived hchanged => ?_⟩
    rw [History.changedLater_change] at hchanged
    split at hchanged
    · cases hchanged
    · next hne =>
      show Function.update s.server key value key' = value'
      rw [Function.update_of_ne hne]
      exact hstored harrived hchanged

/-- The invariant says nothing of loads and toasts. -/
theorem Inv.congr (hinv : Inv s h) {s' : State V} (hinput : s'.inputRoomSettings = s.inputRoomSettings)
    (hdirty : s'.dirtySettings = s.dirtySettings) (hdebounced : s'.debounced = s.debounced)
    (htimeouts : s'.timeouts = s.timeouts) (hpatches : s'.patches = s.patches)
    (harrived : s'.arrived = s.arrived) (hserver : s'.server = s.server) : Inv s' h where
  holds := hinput ▸ hinv.holds
  listed := htimeouts ▸ hdirty ▸ hinv.listed
  unsent := hdirty ▸ hinv.unsent
  waits := hdebounced ▸ hpatches ▸ hinv.waits
  sent := harrived ▸ hpatches ▸ hinv.sent
  answered := harrived ▸ hpatches ▸ hinv.answered
  kept := harrived ▸ hpatches ▸ hserver ▸ hinv.kept

theorem Inv.kept_of_idle (hinv : Inv s h) : Kept (s, h) := by
  intro hidle key value hlast
  have hunsent : h.unsent key = false := by
    cases hunsent : h.unsent key with
    | false => rfl
    | true =>
      rcases hinv.waits key hunsent with hdebounced | ⟨c, hc, hreply⟩
      · exact absurd (hidle.debounced.symm.trans hdebounced) Bool.false_ne_true
      · exact absurd (hidle.patches c hc) hreply
  obtain ⟨i, c, hlatest, -, hstored⟩ := hinv.kept key value hlast hunsent
  have hreply := hidle.patches c (List.mem_of_getElem? hlatest.here)
  have harrived := hinv.answered i c hlatest.here hreply
  cases hchanged : h.changedLater key with
  | false => exact .inl (hstored harrived hchanged)
  | true => exact .inr rfl

end Invariant

/-! ## Runs -/

section Runs

variable {V : Type} [DecidableEq V] {t t' : State V × History V} {e : Event V}

theorem step_debounce {s s' : State V} {granted : String → Bool}
    (h : step s (.debounce granted) = some s') :
    s.timeouts = 0 ∧
      ((s.dirtySettings = [] ∧ s' = { s with debounced := false }) ∨
        s.dirtySettings ≠ [] ∧
          s' = { s with debounced := false }.submitRoomSettings granted) := by
  unfold step at h
  dsimp only at h
  split at h
  · cases h
  · next hset =>
    have htimeouts : s.timeouts = 0 := by
      by_contra hne
      exact hset (by simp [hne])
    refine ⟨htimeouts, ?_⟩
    split at h
    · next hdirty => exact .inl ⟨hdirty, (Option.some.inj h).symm⟩
    · next hdirty => exact .inr ⟨hdirty, (Option.some.inj h).symm⟩

omit [DecidableEq V] in
/-- What is submitted was edited: the grants by care, and what is dirty since the list was emptied. -/
theorem edited_of_submit (hinv : Inv t.1 t.2) (hgrants : t.2.edited .grants = true)
    (htimeouts : t.1.timeouts = 0) (granted : String → Bool) {key : Key}
    (hkey : t.1.getRoomSettingsSubmit granted key ≠ none) : t.2.edited key = true := by
  rcases mem_dirty_of_submit hkey with hdirty | rfl
  · exact hinv.listed htimeouts key hdirty
  · exact hgrants

theorem onlyEdits_of_inv (hinv : Inv t.1 t.2) (hcareful : Careful t e)
    (hstep : system.step t e = some t') : OnlyEdits t e := by
  obtain ⟨hs, -⟩ := Machine.step_observing.mp hstep
  intro body hbody key hkey
  cases e with
  | debounce granted =>
    obtain ⟨htimeouts, ⟨hdirty, -⟩ | ⟨hdirty, -⟩⟩ := step_debounce hs
    · have hnone : t.1.submission (.debounce granted) = none := if_pos hdirty
      cases hnone.symm.trans hbody
    · have hsome : t.1.submission (.debounce granted) = some (t.1.getRoomSettingsSubmit granted) :=
        if_neg hdirty
      cases hsome.symm.trans hbody
      exact edited_of_submit hinv (hcareful hdirty) htimeouts granted hkey
  | save granted =>
    cases hbody
    exact edited_of_submit hinv hcareful.1 hcareful.2 granted hkey
  | _ => cases hbody

theorem inv_step {s s' : State V} {h : History V} (hinv : Inv s h) (hcareful : Careful (s, h) e)
    (honly : OnlyEdits (s, h) e) (hstep : step s e = some s') : Inv s' (observe h s e) := by
  cases e with
  | edit key value =>
    unfold step at hstep
    dsimp only at hstep
    split at hstep
    · cases hstep
      exact hinv.edit key value
    · cases hstep
  | debounce granted =>
    obtain ⟨-, ⟨hdirty, rfl⟩ | ⟨hdirty, rfl⟩⟩ := step_debounce hstep
    · have hobserve : observe h s (.debounce granted) = h := by
        simp [observe, State.submission, hdirty]
      rw [hobserve]
      refine ⟨hinv.holds, hinv.listed, hinv.unsent, fun key hunsent => ?_, hinv.sent, hinv.answered,
        hinv.kept⟩
      have hmem := (hinv.unsent key hunsent).1
      rw [hdirty] at hmem
      exact absurd hmem List.not_mem_nil
    · have hsubmission : s.submission (.debounce granted) =
          some (s.getRoomSettingsSubmit granted) := if_neg hdirty
      have hobserve : observe h s (.debounce granted) =
          h.submit (s.getRoomSettingsSubmit granted) := by
        simp [observe, hsubmission]
      rw [hobserve]
      exact hinv.submit false (honly _ hsubmission)
  | save granted =>
    unfold step at hstep
    dsimp only at hstep
    split at hstep
    · cases hstep
    · cases hstep
      exact hinv.submit s.debounced (honly _ rfl)
  | arrive i =>
    unfold step at hstep
    dsimp only at hstep
    split at hstep
    · next c hc =>
      split at hstep
      · cases hstep
      · next harrived =>
        cases hstep
        exact hinv.arrive hc harrived hcareful
    · cases hstep
  | reply i outcome =>
    unfold step at hstep
    dsimp only at hstep
    split at hstep
    · cases hstep
    · next hsuccess =>
      obtain ⟨patches, hanswer, rfl⟩ := Option.map_eq_some_iff.mp hstep
      have harrived : outcome = .success → i ∈ s.arrived := by
        intro heq
        by_contra hnot
        exact hsuccess (by simp [heq, hnot])
      cases outcome with
      | success =>
        have hanswered := hinv.answer hanswer harrived
          (fun key htrue => absurd htrue (not_unsent hcareful key))
        exact hanswered.forget hcareful (fun _ => rfl) rfl rfl rfl
      | errorResponse message =>
        have hanswered := hinv.answer hanswer harrived (fun _ _ => Reply.noConfusion)
        exact hanswered.congr rfl rfl rfl rfl rfl rfl rfl
      | noResponse => exact hinv.answer hanswer harrived (fun _ _ => Reply.noConfusion)
  | reload =>
    cases hstep
    exact hinv.congr rfl rfl rfl rfl rfl rfl rfl
  | read i =>
    unfold step at hstep
    dsimp only at hstep
    split at hstep
    · cases hstep
    · cases hstep
      exact hinv.congr rfl rfl rfl rfl rfl rfl rfl
  | loaded i ok =>
    unfold step at hstep
    dsimp only at hstep
    split at hstep
    · cases hstep
      exact hinv.forget hcareful (fun hzero => absurd hzero (Nat.succ_ne_zero _)) rfl rfl rfl
    · cases hstep
      exact hinv.congr rfl rfl rfl rfl rfl rfl rfl
    · cases hstep
  | timeout =>
    unfold step at hstep
    dsimp only at hstep
    split at hstep
    · cases hstep
    · cases hstep
      exact hinv.timeout hcareful _
  | change key value =>
    cases hstep
    exact hinv.change key value

theorem step_inv (hinv : Inv t.1 t.2) (hcareful : Careful t e)
    (hstep : system.step t e = some t') : Inv t'.1 t'.2 := by
  have honly := onlyEdits_of_inv hinv hcareful hstep
  obtain ⟨hs, hnext⟩ := Machine.step_observing.mp hstep
  rw [hnext]
  exact inv_step hinv hcareful honly hs

/-- **In every run in which care is taken, the form submits the user's edits and nothing else**: what
is submitted was edited, and in the end the server has it. -/
theorem edits_throughout {V : Type} [DecidableEq V] (defaults server : Key → V)
    {events : List (Event V)}
    (h : system.Along Careful (initial defaults server, History.empty) events) :
    system.Along OnlyEdits (initial defaults server, History.empty) events ∧
      system.Always Kept (initial defaults server, History.empty) events := by
  have hstep (t : State V × History V) (e : Event V) (t' : State V × History V) :=
    @step_inv V _ t t' e
  have hinitial := inv_initial defaults server
  constructor
  · exact Machine.along_of_along (I := fun t => Inv t.1 t.2) hstep
      (fun t e t' hinv hcareful hs => onlyEdits_of_inv hinv hcareful hs) hinitial h
  · exact (Machine.always_of_along (I := fun t => Inv t.1 t.2) hstep hinitial h).imp
      (fun t hinv => hinv.kept_of_idle)

end Runs

/-! ## Two runs -/

/-- Every setting is 0. -/
def start : State Nat × History Nat := (initial (fun _ => 0) (fun _ => 0), History.empty)

def everything : String → Bool := fun _ => true

/-- The form is loaded, and the grants are edited. -/
def grantsEdited : List (Event Nat) :=
  [.read 0, .loaded 0 true, .timeout, .edit .grants 1, .debounce everything, .arrive 0,
    .reply 0 .success]

theorem edits_throughout_grantsEdited :
    system.Along OnlyEdits start grantsEdited ∧ system.Always Kept start grantsEdited := by
  refine edits_throughout (fun _ => 0) (fun _ => 0) ?_
  refine Machine.along_cons rfl trivial (Machine.along_cons rfl (fun _ => rfl) ?_)
  refine Machine.along_cons rfl (fun _ => rfl) (Machine.along_cons rfl trivial ?_)
  refine Machine.along_cons rfl (fun _ => rfl) (Machine.along_cons rfl ?_ ?_)
  · intro c _ key _ j hj c' _ _ harrived
    exact absurd harrived List.not_mem_nil
  · refine Machine.along_cons rfl (fun key => ?_) trivial
    cases key <;> rfl

/-- The title is edited. -/
def titleEdited : List (Event Nat) := [.read 0, .loaded 0 true, .timeout, .edit .title 1]

/-- The title is edited while the grants are submitted. -/
def editedMeanwhile : List (Event Nat) :=
  [.read 0, .loaded 0 true, .timeout, .edit .grants 1, .debounce everything, .arrive 0,
    .edit .title 2, .reply 0 .success, .debounce everything]

/-- **Grants that nobody has edited are submitted, and a title that is edited meanwhile never is.** -/
theorem not_edits_throughout :
    ¬ system.Along OnlyEdits start (titleEdited ++ [.debounce everything]) ∧
      ¬ system.Always Kept start editedMeanwhile := by
  constructor
  · intro h
    have hrun : ∃ t, system.run start titleEdited = some t ∧
        t.2.edited .grants = false ∧
        ∃ body, t.1.submission (.debounce everything) = some body ∧ body .grants = some 0 ∧
          ∃ t', system.step t (.debounce everything) = some t' :=
      ⟨_, rfl, rfl, _, rfl, rfl, _, rfl⟩
    obtain ⟨t, ht, hedited, body, hbody, hgrants, t', hstep⟩ := hrun
    have hnames : body .grants ≠ none := by
      rw [hgrants]
      exact Option.some_ne_none 0
    have honly := (h.of_append ht t' hstep).1 body hbody .grants hnames
    exact absurd (hedited.symm.trans honly) Bool.false_ne_true
  · intro h
    have hrun : ∃ t, system.run start editedMeanwhile = some t ∧ Idle t.1 ∧
        t.2.lastEdit .title = some 2 ∧ t.1.server .title = 0 ∧ t.2.changedLater .title = false := by
      refine ⟨_, rfl, ⟨rfl, rfl, ?_, ?_⟩, rfl, rfl, rfl⟩
      · intro c hc
        cases List.mem_singleton.mp hc
        rfl
      · intro c hc
        cases List.mem_singleton.mp hc
        rfl
    obtain ⟨t, ht, hidle, hlast, hserver, hchanged⟩ := hrun
    rcases h.last ht hidle .title 2 hlast with hstored | hlater
    · exact absurd (hserver.symm.trans hstored) (by decide)
    · exact absurd (hchanged.symm.trans hlater) Bool.false_ne_true

end OpenTogetherTube.Client.SettingsForm
