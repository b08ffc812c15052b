import OpenTogetherTube.Common.Models
import OpenTogetherTube.Lib.Machine
import OpenTogetherTube.Lib.Removal
import OpenTogetherTube.Lib.Splice

/-!
# Toasts

A toast is shown until its timer runs out, its button is pressed or its event was undone, which removes
it by its id, until all are cleared, or until the next one that is added replaces it: a playback event
replaces one in front of it, and a seek event one of the same user, whose previous position it takes
over. Nothing else should take a toast away (`Shown`), and the last of a run of seeks should lead back
to where the first one came from (`Carries`).

An id that is not there any more takes away the last toast, since the place that is searched for is -1.
And a toast is compared with the last one that is shown, which others that came in between may have
left alone there. `faithful_throughout_iff` says that nothing else goes wrong.

What was committed to the store is kept beside it, for the statements only.
-/

namespace OpenTogetherTube.Client.Toasts

open OpenTogetherTube.Common OpenTogetherTube.Lib

/-! ## The store -/

/-- `RoomRequestType`. -/
inductive RoomRequestType where
  | join | leave | playback | skip | seek | add | remove | order | vote | promote | updateUser | chat
  | undo | applySettings | playNow | shuffle | playbackSpeed | restoreQueue | kick | updateQueueItem
  deriving DecidableEq, Repr

/-- `request.type`. -/
def typeOf : RoomRequest → RoomRequestType
  | .join _ => .join
  | .leave => .leave
  | .playback _ => .playback
  | .skip => .skip
  | .seek _ => .seek
  | .add _ _ _ => .add
  | .remove _ => .remove
  | .order _ _ => .order
  | .vote _ _ => .vote
  | .promote _ _ => .promote
  | .updateUser _ => .updateUser
  | .chat _ => .chat
  | .undo _ _ => .undo
  | .applySettings _ => .applySettings
  | .playNow _ => .playNow
  | .shuffle => .shuffle
  | .playbackSpeed _ => .playbackSpeed
  | .restoreQueue _ => .restoreQueue
  | .kick _ => .kick
  | .updateQueueItem _ _ => .updateQueueItem

structure EventUser where
  name : String
  isLoggedIn : Bool
  deriving DecidableEq, Repr

structure ServerMessageEvent where
  request : RoomRequest
  user : EventUser
  additional : RoomEventContext
  deriving DecidableEq

inductive ToastStyle where
  | neutral | success | error | important
  deriving DecidableEq, Repr

/-- `Omit<Toast, "id">`. -/
structure Notification where
  content : String
  duration : Option ℚ
  style : ToastStyle
  event : Option ServerMessageEvent
  deriving DecidableEq

namespace Notification

/-- `notification.event?.request.type`. -/
def type? (n : Notification) : Option RoomRequestType := n.event.map (fun event => typeOf event.request)

/-- `notification.event?.user.name`. -/
def userName? (n : Notification) : Option String := n.event.map (·.user.name)

/-- `notification.event?.additional.prevPosition`. -/
def prevPosition? (n : Notification) : Option ℚ := n.event.bind (·.additional.prevPosition)

/-- `notification.event.additional.prevPosition = position`. -/
def withPrevPosition (n : Notification) (position : Option ℚ) : Notification :=
  { n with event := n.event.map (fun event =>
      { event with additional := { event.additional with prevPosition := position } }) }

end Notification

/-- A toast. Every call of `Symbol` gives another id. -/
structure Toast where
  id : Nat
  notification : Notification
  deriving DecidableEq

structure ToastState where
  notifications : List Toast
  /-- How often `Symbol` was called for a toast. -/
  symbols : Nat
  deriving DecidableEq

def initial : ToastState := ⟨[], 0⟩

inductive Mutation where
  | addToast (notification : Notification)
  | removeToast (id : Nat)
  | clearAllToasts
  deriving DecidableEq

/-- `notifications.push({ ...notification, id: Symbol() })`. -/
def ToastState.push (s : ToastState) (n : Notification) : ToastState :=
  ⟨s.notifications ++ [⟨s.symbols, n⟩], s.symbols + 1⟩

/-- `notifications.splice(idx, 1)`. -/
def ToastState.splice (s : ToastState) (idx : Int) : ToastState :=
  { s with notifications := (Lib.splice s.notifications (.finite idx) (.ofNat 1) []).2 }

/-- `ADD_TOAST`. -/
def addToast (s : ToastState) (n : Notification) : ToastState :=
  match s.notifications.getLast? with
  | none => s.push n
  | some last =>
    if n.type? = last.notification.type? then
      if last.notification.type? = some .playback then
        (s.splice (s.notifications.length - 1)).push n
      else if last.notification.type? = some .seek ∧
          last.notification.userName? = n.userName? then
        (s.splice (s.notifications.length - 1)).push
          (n.withPrevPosition last.notification.prevPosition?)
      else s.push n
    else s.push n

/-- `_.findIndex(notifications, { id })`. -/
def findIndex (notifications : List Toast) (id : Nat) : Int :=
  match notifications.findIdx? (fun toast => toast.id = id) with
  | none => -1
  | some i => i

/-- `REMOVE_TOAST`. -/
def removeToast (s : ToastState) (id : Nat) : ToastState := s.splice (findIndex s.notifications id)

/-- `CLEAR_ALL_TOASTS`. -/
def clearAllToasts (s : ToastState) : ToastState := { s with notifications := [] }

def commit (s : ToastState) : Mutation → ToastState
  | .addToast n => addToast s n
  | .removeToast id => removeToast s id
  | .clearAllToasts => clearAllToasts s

/-- The store, and what was committed to it. -/
def system : Machine (ToastState × List Mutation) Mutation :=
  Machine.observing ⟨fun s e => some (commit s e)⟩ (fun committed _ e => committed ++ [e])

/-! ## The purpose -/

/-- The merge rule: the second event replaces the first one. -/
def Merges (n next : Notification) : Prop :=
  next.type? = n.type? ∧
    (n.type? = some .playback ∨ n.type? = some .seek ∧ n.userName? = next.userName?)

instance (n next : Notification) : Decidable (Merges n next) := by
  unfold Merges
  infer_instance

/-- The toasts that were added. -/
def added (es : List Mutation) : List Notification :=
  es.filterMap (fun
    | .addToast n => some n
    | _ => none)

/-- This toast was added, and then this was committed. -/
def Added (es : List Mutation) (id : Nat) (n : Notification) (later : List Mutation) : Prop :=
  ∃ before, es = before ++ .addToast n :: later ∧ (added before).length = id

/-- There was a reason for the toast to go. -/
def Gone (id : Nat) (n : Notification) (later : List Mutation) : Prop :=
  .removeToast id ∈ later ∨ .clearAllToasts ∈ later ∨ ∃ next ∈ (added later).head?, Merges n next

/-- The toast should be there. -/
def Stays (es : List Mutation) (id : Nat) : Prop := ∃ n later, Added es id n later ∧ ¬ Gone id n later

/-- **The toasts that are shown are those that were added and have no reason to go.** -/
def Shown (s : ToastState × List Mutation) : Prop :=
  ∀ id, (∃ toast ∈ s.1.notifications, toast.id = id) ↔ Stays s.2 id

/-- The next toast replaced this one: it was still there. -/
def Replaced (es : List Mutation) (id : Nat) : Prop :=
  ∃ n between next later, Added es id n (between ++ .addToast next :: later) ∧
    ¬ Gone id n between ∧ added between = [] ∧ Merges n next

/-- A run of toasts, each of them replaced by the next one. -/
structure IsRun (es : List Mutation) (first last : Nat) : Prop where
  le : first ≤ last
  replaced : ∀ id, first ≤ id → id < last → Replaced es id
  begins : ∀ id, id + 1 = first → ¬ Replaced es id

/-- **The last of a run of seeks has the previous position of the first one.** -/
def Carries (s : ToastState × List Mutation) : Prop :=
  ∀ toast ∈ s.1.notifications, toast.notification.type? = some .seek →
    ∀ first, IsRun s.2 first toast.id → ∃ n later, Added s.2 first n later ∧
      toast.notification.prevPosition? = n.prevPosition?

/-- What the claims on the toasts come to. -/
structure Faithful (s : ToastState × List Mutation) : Prop where
  shown : Shown s
  carries : Carries s

/-- **The condition** on a step: only what is there is removed, unless there is nothing; and what a
toast is merged with was added right before it. -/
def Careful (s : ToastState × List Mutation) : Mutation → Prop
  | .addToast n => ∀ last ∈ s.1.notifications.getLast?, Merges last.notification n →
      last.id + 1 = s.1.symbols
  | .removeToast id => (∃ toast ∈ s.1.notifications, toast.id = id) ∨ s.1.notifications = []
  | .clearAllToasts => True

/-! ## The mutations -/

section Mutations

variable {s : ToastState} {n : Notification} {position : Option ℚ}

@[simp] theorem type?_withPrevPosition : (n.withPrevPosition position).type? = n.type? := by
  cases hevent : n.event <;> simp [Notification.type?, Notification.withPrevPosition, hevent]

@[simp] theorem userName?_withPrevPosition :
    (n.withPrevPosition position).userName? = n.userName? := by
  cases hevent : n.event <;> simp [Notification.userName?, Notification.withPrevPosition, hevent]

theorem prevPosition?_withPrevPosition {type : RoomRequestType} (h : n.type? = some type) :
    (n.withPrevPosition position).prevPosition? = position := by
  obtain ⟨event, hevent, -⟩ := Option.map_eq_some_iff.mp h
  simp [Notification.prevPosition?, Notification.withPrevPosition, hevent]

/-- What is left where the last toast is taken out. -/
theorem splice_end (hne : s.notifications ≠ []) :
    s.splice (s.notifications.length - 1) = { s with notifications := s.notifications.dropLast } := by
  have hpos : 0 < s.notifications.length := List.length_pos_iff.mpr hne
  have hcast : (((s.notifications.length : Int) - 1 : Int) : ℚ) =
      ((s.notifications.length - 1 : Nat) : ℚ) := by
    have hint : (s.notifications.length : Int) - 1 = ((s.notifications.length - 1 : Nat) : Int) := by
      omega
    rw [hint, Int.cast_natCast]
  unfold ToastState.splice
  rw [hcast, splice_remove (by omega), List.eraseIdx_length_sub_one]

/-- What is shown of a notification that replaces a toast. -/
def replacing (n last : Notification) : Notification :=
  if last.type? = some .playback then n else n.withPrevPosition last.prevPosition?

/-- **A toast is added**, and replaces the last one if the two merge. -/
theorem addToast_eq (s : ToastState) (n : Notification) : addToast s n =
    match s.notifications.getLast? with
    | none => s.push n
    | some last =>
      if Merges last.notification n then
        ⟨s.notifications.dropLast ++ [⟨s.symbols, replacing n last.notification⟩], s.symbols + 1⟩
      else s.push n := by
  unfold addToast
  cases hlast : s.notifications.getLast? with
  | none => rfl
  | some last =>
    have hne : s.notifications ≠ [] := by
      rintro hnil
      rw [hnil] at hlast
      cases hlast
    dsimp only
    rw [splice_end hne]
    unfold Merges replacing
    by_cases htype : n.type? = last.notification.type?
    · by_cases hplayback : last.notification.type? = some .playback
      · simp [htype, hplayback, ToastState.push]
      · by_cases hseek : last.notification.type? = some .seek ∧
            last.notification.userName? = n.userName?
        · simp [htype, hseek.1, hseek.2, ToastState.push]
        · rw [if_pos htype, if_neg hplayback, if_neg hseek]
          symm
          apply if_neg
          rintro ⟨-, hor⟩
          exact hor.elim hplayback hseek
    · rw [if_neg htype]
      symm
      apply if_neg
      exact fun hmerges => htype hmerges.1

theorem type?_replacing (n last : Notification) : (replacing n last).type? = n.type? := by
  unfold replacing
  split <;> simp

theorem userName?_replacing (n last : Notification) : (replacing n last).userName? = n.userName? := by
  unfold replacing
  split <;> simp

/-- A seek takes the previous position over. -/
theorem prevPosition?_replacing {n last : Notification} (h : Merges last n)
    (hseek : n.type? = some .seek) : (replacing n last).prevPosition? = last.prevPosition? := by
  have hlast : last.type? ≠ some .playback := by
    rw [← h.1, hseek]
    decide
  unfold replacing
  rw [if_neg hlast, prevPosition?_withPrevPosition hseek]

/-- **A toast is removed**: the one with the id, or else the last one. -/
theorem removeToast_notifications (hnodup : (s.notifications.map (·.id)).Nodup) (id : Nat) :
    (removeToast s id).notifications =
      if ∃ toast ∈ s.notifications, toast.id = id then
        s.notifications.filter (fun toast => toast.id ≠ id)
      else s.notifications.dropLast := by
  unfold removeToast ToastState.splice findIndex
  cases hfind : s.notifications.findIdx? (fun toast => toast.id = id) with
  | none =>
    have hnone : ¬ ∃ toast ∈ s.notifications, toast.id = id := by
      rintro ⟨toast, htoast, hid⟩
      have hall := List.findIdx?_eq_none_iff.mp hfind toast htoast
      exact absurd hid (by simpa using hall)
    rw [if_neg hnone]
    exact splice_last _
  | some i =>
    obtain ⟨hi, hid, -⟩ := List.findIdx?_eq_some_iff_getElem.mp hfind
    have hsome : ∃ toast ∈ s.notifications, toast.id = id :=
      ⟨s.notifications[i], List.getElem_mem hi, of_decide_eq_true hid⟩
    rw [if_pos hsome, ← eraseP_key_eq_filter hnodup, List.eraseP_eq_eraseIdx, hfind]
    exact splice_remove hi

end Mutations

/-! ## What was committed -/

section History

variable {es later later' : List Mutation} {e : Mutation} {id : Nat} {n n' : Notification}

@[simp] theorem added_append (es es' : List Mutation) : added (es ++ es') = added es ++ added es' :=
  List.filterMap_append

theorem added_add (n : Notification) (es : List Mutation) :
    added (.addToast n :: es) = n :: added es := rfl

theorem Added.length (h : Added es id n later) : (added es).length = id + 1 + (added later).length := by
  obtain ⟨before, rfl, rfl⟩ := h
  simp [added_add]
  omega

/-- A toast is added once. -/
theorem Added.unique (h : Added es id n later) (h' : Added es id n' later') : n = n' ∧ later = later' := by
  obtain ⟨before, hes, hid⟩ := h
  obtain ⟨before', hes', hid'⟩ := h'
  subst hes
  induction before generalizing before' id with
  | nil =>
    cases before' with
    | nil =>
      obtain ⟨hadd, hlater⟩ := List.cons.inj hes'
      exact ⟨Mutation.addToast.inj hadd, hlater⟩
    | cons e before' =>
      -- the other one would come later
      obtain ⟨rfl, -⟩ := List.cons.inj hes'
      simp [← hid, added] at hid'
  | cons e before ih =>
    cases before' with
    | nil =>
      obtain ⟨rfl, -⟩ := List.cons.inj hes'
      simp [← hid', added] at hid
    | cons e' before' =>
      obtain ⟨rfl, hrest⟩ := List.cons.inj hes'
      have hsame : (added before).length = (added before').length := by
        have hlengths := hid.trans hid'.symm
        cases e <;> simpa [added] using hlengths
      exact ih rfl before' hsame.symm hrest

theorem added_snoc_iff : Added (es ++ [e]) id n later ↔
    (∃ later', later = later' ++ [e] ∧ Added es id n later') ∨
      e = .addToast n ∧ later = [] ∧ (added es).length = id := by
  constructor
  · rintro ⟨before, heq, hid⟩
    rcases List.eq_nil_or_concat' later with rfl | ⟨later', e', rfl⟩
    · obtain ⟨hes, he⟩ := List.append_inj' heq rfl
      cases he
      exact .inr ⟨rfl, rfl, hes ▸ hid⟩
    · rw [← List.cons_append, ← List.append_assoc] at heq
      obtain ⟨hes, he⟩ := List.append_inj' heq rfl
      cases he
      exact .inl ⟨later', rfl, before, hes, hid⟩
  · rintro (⟨later', rfl, before, rfl, hid⟩ | ⟨rfl, rfl, hid⟩)
    · exact ⟨before, by simp, hid⟩
    · exact ⟨es, rfl, hid⟩

/-- What gives one more reason to go. -/
theorem gone_snoc_iff : Gone id n (later ++ [e]) ↔ Gone id n later ∨ e = .removeToast id ∨
    e = .clearAllToasts ∨ added later = [] ∧ ∃ next, e = .addToast next ∧ Merges n next := by
  unfold Gone
  simp only [List.mem_append, List.mem_singleton, added_append]
  cases hlater : added later with
  | nil =>
    cases e <;> simp [added, eq_comm]
    all_goals tauto
  | cons next rest =>
    simp [eq_comm (b := e)]
    tauto

/-- **What one commit changes**, by its kind. -/
theorem stays_remove_iff {k : Nat} :
    Stays (es ++ [.removeToast k]) id ↔ Stays es id ∧ id ≠ k := by
  constructor
  · rintro ⟨n, later, hadded, hnot⟩
    rcases added_snoc_iff.mp hadded with ⟨later', rfl, hadded'⟩ | ⟨habsurd, -⟩
    · rw [gone_snoc_iff, not_or, not_or] at hnot
      exact ⟨⟨n, later', hadded', hnot.1⟩, fun heq => hnot.2.1 (heq ▸ rfl)⟩
    · cases habsurd
  · rintro ⟨⟨n, later, hadded, hnot⟩, hne⟩
    refine ⟨n, _, added_snoc_iff.mpr (.inl ⟨later, rfl, hadded⟩), ?_⟩
    rw [gone_snoc_iff]
    rintro (hgone | hremove | hclear | ⟨-, next, hadd, -⟩)
    · exact hnot hgone
    · exact hne (Mutation.removeToast.inj hremove).symm
    · cases hclear
    · cases hadd

theorem not_stays_clear : ¬ Stays (es ++ [.clearAllToasts]) id := by
  rintro ⟨n, later, hadded, hnot⟩
  rcases added_snoc_iff.mp hadded with ⟨later', rfl, -⟩ | ⟨habsurd, -⟩
  · exact hnot (gone_snoc_iff.mpr (.inr (.inr (.inl rfl))))
  · cases habsurd

theorem stays_add_iff {next : Notification} : Stays (es ++ [.addToast next]) id ↔
    id = (added es).length ∨ ∃ n later, Added es id n later ∧ ¬ Gone id n later ∧
      ¬ (id + 1 = (added es).length ∧ Merges n next) := by
  constructor
  · rintro ⟨n, later, hadded, hnot⟩
    rcases added_snoc_iff.mp hadded with ⟨later', rfl, hadded'⟩ | ⟨-, -, hid⟩
    · rw [gone_snoc_iff, not_or] at hnot
      refine .inr ⟨n, later', hadded', hnot.1, ?_⟩
      rintro ⟨hlast, hmerges⟩
      have hnone : added later' = [] := by
        have hlength := hadded'.length
        exact List.length_eq_zero_iff.mp (by omega)
      exact hnot.2 (.inr (.inr ⟨hnone, next, rfl, hmerges⟩))
    · exact .inl hid.symm
  · rintro (rfl | ⟨n, later, hadded, hnot, hkept⟩)
    · refine ⟨next, [], added_snoc_iff.mpr (.inr ⟨rfl, rfl, rfl⟩), ?_⟩
      simp [Gone, added]
    · refine ⟨n, _, added_snoc_iff.mpr (.inl ⟨later, rfl, hadded⟩), ?_⟩
      rw [gone_snoc_iff]
      rintro (hgone | hremove | hclear | ⟨hnone, next', hadd, hmerges⟩)
      · exact hnot hgone
      · cases hremove
      · cases hclear
      · cases hadd
        have hlength := hadded.length
        rw [hnone] at hlength
        exact hkept ⟨hlength.symm, hmerges⟩

theorem replaced_snoc_iff (h : id + 1 < (added es).length) :
    Replaced (es ++ [e]) id ↔ Replaced es id := by
  constructor
  · rintro ⟨n, between, next, later, hadded, hnot, hnone, hmerges⟩
    rcases added_snoc_iff.mp hadded with ⟨later', heq, hadded'⟩ | ⟨-, heq, -⟩
    · rcases List.eq_nil_or_concat' later with rfl | ⟨later'', e', rfl⟩
      · -- the next toast was already there
        obtain ⟨rfl, -⟩ := List.append_inj' heq rfl
        have hlength := hadded'.length
        rw [hnone] at hlength
        simp at hlength
        omega
      · rw [← List.cons_append, ← List.append_assoc] at heq
        obtain ⟨rfl, -⟩ := List.append_inj' heq rfl
        exact ⟨n, between, next, later'', hadded', hnot, hnone, hmerges⟩
    · simp at heq
  · rintro ⟨n, between, next, later, hadded, hnot, hnone, hmerges⟩
    refine ⟨n, between, next, later ++ [e], ?_, hnot, hnone, hmerges⟩
    rw [← List.cons_append, ← List.append_assoc]
    exact added_snoc_iff.mpr (.inl ⟨_, rfl, hadded⟩)

/-- The last toast is replaced by the one that is added if it should be there, and the two merge. -/
theorem replaced_last_iff {next : Notification} (h : id + 1 = (added es).length) :
    Replaced (es ++ [.addToast next]) id ↔
      ∃ n later, Added es id n later ∧ ¬ Gone id n later ∧ Merges n next := by
  constructor
  · rintro ⟨n, between, next', later, hadded, hnot, hnone, hmerges⟩
    rcases added_snoc_iff.mp hadded with ⟨later', heq, hadded'⟩ | ⟨-, heq, -⟩
    · rcases List.eq_nil_or_concat' later with rfl | ⟨later'', e', rfl⟩
      · obtain ⟨rfl, hlast⟩ := List.append_inj' heq rfl
        cases hlast
        exact ⟨n, between, hadded', hnot, hmerges⟩
      · rw [← List.cons_append, ← List.append_assoc] at heq
        obtain ⟨rfl, -⟩ := List.append_inj' heq rfl
        have hlength := hadded'.length
        simp [added_add] at hlength
        omega
    · simp at heq
  · rintro ⟨n, later, hadded, hnot, hmerges⟩
    have hlength := hadded.length
    have hnone : added later = [] := List.length_eq_zero_iff.mp (by omega)
    exact ⟨n, later, next, [], added_snoc_iff.mpr (.inl ⟨later, rfl, hadded⟩), hnot, hnone, hmerges⟩

/-- A run goes on to be one. -/
theorem isRun_snoc_iff {first last : Nat} (h : last < (added es).length) :
    IsRun (es ++ [e]) first last ↔ IsRun es first last := by
  have hsame : ∀ j, j < last → (Replaced (es ++ [e]) j ↔ Replaced es j) :=
    fun j hj => replaced_snoc_iff (by omega)
  constructor
  · rintro ⟨hle, hreplaced, hbegins⟩
    refine ⟨hle, fun j hj hlt => (hsame j hlt).mp (hreplaced j hj hlt), fun j hj hold => ?_⟩
    exact hbegins j hj ((hsame j (by omega)).mpr hold)
  · rintro ⟨hle, hreplaced, hbegins⟩
    refine ⟨hle, fun j hj hlt => (hsame j hlt).mpr (hreplaced j hj hlt), fun j hj hold => ?_⟩
    exact hbegins j hj ((hsame j (by omega)).mp hold)

end History

/-! ## What always holds -/

/-- The toasts are in the order in which they were added, and show what was added. -/
structure Inv (s : ToastState × List Mutation) : Prop where
  symbols : s.1.symbols = (added s.2).length
  sorted : s.1.notifications.Pairwise (fun toast toast' => toast.id < toast'.id)
  known : ∀ toast ∈ s.1.notifications, ∃ n later, Added s.2 toast.id n later ∧
    toast.notification.type? = n.type? ∧ toast.notification.userName? = n.userName?

section Step

variable {s s' : ToastState × List Mutation} {e : Mutation} {n : Notification} {last toast : Toast}

theorem step_eq_some : system.step s e = some s' ↔ s' = (commit s.1 e, s.2 ++ [e]) := by
  unfold system
  rw [Machine.step_observing]
  constructor
  · rintro ⟨hstate, hcommitted⟩
    exact Prod.ext (Option.some.inj hstate).symm hcommitted
  · rintro rfl
    exact ⟨rfl, rfl⟩

theorem Inv.lt (h : Inv s) (ht : toast ∈ s.1.notifications) : toast.id < (added s.2).length := by
  obtain ⟨n, later, hadded, -, -⟩ := h.known toast ht
  have hlength := hadded.length
  omega

theorem Inv.nodup (h : Inv s) : (s.1.notifications.map (·.id)).Nodup := by
  rw [List.Nodup, List.pairwise_map]
  exact h.sorted.imp (fun hlt => Nat.ne_of_lt hlt)

/-- The last toast that is shown, and those in front of it. -/
theorem Inv.front_lt (h : Inv s) (hlast : s.1.notifications.getLast? = some last) :
    s.1.notifications = s.1.notifications.dropLast ++ [last] ∧
      ∀ toast ∈ s.1.notifications.dropLast, toast.id < last.id := by
  obtain ⟨front, hfront⟩ := List.getLast?_eq_some_iff.mp hlast
  have hsorted := h.sorted
  rw [hfront, List.dropLast_concat]
  rw [hfront, List.pairwise_append] at hsorted
  exact ⟨rfl, fun toast ht => hsorted.2.2 toast ht last List.mem_cons_self⟩

/-- What was added last is shown last. -/
theorem Inv.getLast?_of_newest (h : Inv s) (ht : toast ∈ s.1.notifications)
    (hnewest : toast.id + 1 = (added s.2).length) : s.1.notifications.getLast? = some toast := by
  cases hlast : s.1.notifications.getLast? with
  | none =>
    rw [List.getLast?_eq_none_iff] at hlast
    rw [hlast] at ht
    cases ht
  | some last =>
    obtain ⟨heq, hlt⟩ := h.front_lt hlast
    rw [heq] at ht
    rcases List.mem_append.mp ht with hfront | hend
    · have hless := hlt toast hfront
      have hbound := h.lt (List.mem_of_getLast? hlast)
      omega
    · rw [List.mem_singleton.mp hend]

/-- A toast merges by what was added. -/
theorem Inv.merges_iff (h : Inv s) (ht : toast ∈ s.1.notifications) {n₀ next : Notification}
    {later : List Mutation} (hadded : Added s.2 toast.id n₀ later) :
    Merges toast.notification next ↔ Merges n₀ next := by
  obtain ⟨n, later', hadded', htype, huser⟩ := h.known toast ht
  obtain ⟨rfl, -⟩ := hadded.unique hadded'
  unfold Merges
  rw [htype, huser]

/-- What is pushed, and in front of what. -/
theorem commit_add_cases (s : ToastState) (n : Notification) :
    (commit s (.addToast n) = s.push n ∧
      ∀ last ∈ s.notifications.getLast?, ¬ Merges last.notification n) ∨
    ∃ last, s.notifications.getLast? = some last ∧ Merges last.notification n ∧
      commit s (.addToast n) = ⟨s.notifications.dropLast ++
        [⟨s.symbols, replacing n last.notification⟩], s.symbols + 1⟩ := by
  have heq := addToast_eq s n
  cases hlast : s.notifications.getLast? with
  | none =>
    rw [hlast] at heq
    exact .inl ⟨heq, fun last hmem => by cases hmem⟩
  | some last =>
    rw [hlast] at heq
    by_cases hmerges : Merges last.notification n
    · exact .inr ⟨last, rfl, hmerges, heq.trans (if_pos hmerges)⟩
    · refine .inl ⟨heq.trans (if_neg hmerges), fun last' hmem => ?_⟩
      cases hmem
      exact hmerges

/-- Where a toast is put behind some of those that are shown, the invariant stays. -/
theorem Inv.put (h : Inv s) {front : List Toast} {m : Notification}
    (hfront : front.Sublist s.1.notifications) (htype : m.type? = n.type?)
    (huser : m.userName? = n.userName?) :
    Inv (⟨front ++ [⟨s.1.symbols, m⟩], s.1.symbols + 1⟩, s.2 ++ [.addToast n]) := by
  constructor
  · simp [h.symbols, added]
  · refine List.pairwise_append.mpr ⟨h.sorted.sublist hfront, List.pairwise_singleton _ _, ?_⟩
    intro toast ht new hnew
    cases List.mem_singleton.mp hnew
    rw [h.symbols]
    exact h.lt (hfront.mem ht)
  · intro toast ht
    rcases List.mem_append.mp ht with hold | hnew
    · obtain ⟨n₀, later, hadded, hsame⟩ := h.known toast (hfront.mem hold)
      exact ⟨n₀, _, added_snoc_iff.mpr (.inl ⟨later, rfl, hadded⟩), hsame⟩
    · cases List.mem_singleton.mp hnew
      exact ⟨n, [], added_snoc_iff.mpr (.inr ⟨rfl, rfl, h.symbols.symm⟩), htype, huser⟩

/-- Where some toasts are taken away, the invariant stays. -/
theorem Inv.takeAway (h : Inv s) {left : List Toast} (hleft : left.Sublist s.1.notifications)
    (hnone : added [e] = []) :
    Inv (⟨left, s.1.symbols⟩, s.2 ++ [e]) := by
  constructor
  · simp [h.symbols, hnone]
  · exact h.sorted.sublist hleft
  · intro toast ht
    obtain ⟨n₀, later, hadded, hsame⟩ := h.known toast (hleft.mem ht)
    exact ⟨n₀, _, added_snoc_iff.mpr (.inl ⟨later, rfl, hadded⟩), hsame⟩

theorem Inv.step (h : Inv s) (hstep : system.step s e = some s') : Inv s' := by
  rw [step_eq_some.mp hstep]
  cases e with
  | addToast n =>
    rcases commit_add_cases s.1 n with ⟨heq, -⟩ | ⟨last, -, -, heq⟩
    · rw [heq]
      exact h.put (List.Sublist.refl _) rfl rfl
    · rw [heq]
      exact h.put (List.dropLast_sublist _) (type?_replacing n _) (userName?_replacing n _)
  | removeToast id =>
    have hleft := removeToast_notifications h.nodup id
    have hsublist : (removeToast s.1 id).notifications.Sublist s.1.notifications := by
      rw [hleft]
      split
      · exact List.filter_sublist
      · exact List.dropLast_sublist _
    exact h.takeAway hsublist rfl
  | clearAllToasts => exact h.takeAway (List.nil_sublist _) rfl

/-! ## One step -/

theorem Shown.stays_iff (h : Shown s) {id : Nat} :
    Stays s.2 id ↔ ∃ toast ∈ s.1.notifications, toast.id = id := (h id).symm

/-- A toast that is pushed takes none away, and none was to go. -/
theorem shown_push (hinv : Inv s) (hshown : Shown s)
    (hnone : ∀ last ∈ s.1.notifications.getLast?, ¬ Merges last.notification n) :
    Shown (s.1.push n, s.2 ++ [.addToast n]) := by
  intro id
  rw [stays_add_iff]
  constructor
  · rintro ⟨toast, ht, rfl⟩
    rcases List.mem_append.mp ht with hold | hnew
    · obtain ⟨n₀, later, hadded, hnot⟩ := hshown.stays_iff.mpr ⟨toast, hold, rfl⟩
      refine .inr ⟨n₀, later, hadded, hnot, fun ⟨hnewest, hmerges⟩ => ?_⟩
      -- it would be the last one that is shown
      exact hnone toast (hinv.getLast?_of_newest hold hnewest)
        ((hinv.merges_iff hold hadded).mpr hmerges)
    · cases List.mem_singleton.mp hnew
      exact .inl hinv.symbols
  · rintro (rfl | ⟨n₀, later, hadded, hnot, -⟩)
    · exact ⟨⟨s.1.symbols, n⟩, List.mem_append_right _ List.mem_cons_self, hinv.symbols⟩
    · obtain ⟨toast, ht, hid⟩ := hshown.stays_iff.mp ⟨n₀, later, hadded, hnot⟩
      exact ⟨toast, List.mem_append_left _ ht, hid⟩

/-- A toast that takes the place of the last one is right to exactly if that was added right before. -/
theorem shown_replace_iff (hinv : Inv s) (hshown : Shown s)
    (hlast : s.1.notifications.getLast? = some last) (hmerges : Merges last.notification n) :
    Shown (⟨s.1.notifications.dropLast ++ [⟨s.1.symbols, replacing n last.notification⟩],
      s.1.symbols + 1⟩, s.2 ++ [.addToast n]) ↔ last.id + 1 = s.1.symbols := by
  obtain ⟨hfront, hlt⟩ := hinv.front_lt hlast
  have hmem : last ∈ s.1.notifications := List.mem_of_getLast? hlast
  constructor
  · intro hshown'
    by_contra hne
    rw [hinv.symbols] at hne
    -- it should stay, and it is gone
    obtain ⟨n₀, later, hadded, hnot⟩ := hshown.stays_iff.mpr ⟨last, hmem, rfl⟩
    have hstays : Stays (s.2 ++ [.addToast n]) last.id :=
      stays_add_iff.mpr (.inr ⟨n₀, later, hadded, hnot, fun h => hne h.1⟩)
    obtain ⟨toast, ht, hid⟩ := (hshown' last.id).mpr hstays
    rcases List.mem_append.mp ht with hold | hnew
    · have hless := hlt toast hold
      omega
    · cases List.mem_singleton.mp hnew
      have hbound := hinv.lt hmem
      have hsymbols := hinv.symbols
      change s.1.symbols = last.id at hid
      omega
  · intro hnewest id
    rw [hinv.symbols] at hnewest
    rw [stays_add_iff]
    constructor
    · rintro ⟨toast, ht, rfl⟩
      rcases List.mem_append.mp ht with hold | hnew
      · obtain ⟨n₀, later, hadded, hnot⟩ :=
          hshown.stays_iff.mpr ⟨toast, (List.dropLast_sublist _).mem hold, rfl⟩
        refine .inr ⟨n₀, later, hadded, hnot, fun h => ?_⟩
        have hless := hlt toast hold
        omega
      · cases List.mem_singleton.mp hnew
        exact .inl hinv.symbols
    · rintro (rfl | ⟨n₀, later, hadded, hnot, hkept⟩)
      · exact ⟨_, List.mem_append_right _ List.mem_cons_self, hinv.symbols⟩
      · obtain ⟨toast, ht, rfl⟩ := hshown.stays_iff.mp ⟨n₀, later, hadded, hnot⟩
        rw [hfront] at ht
        rcases List.mem_append.mp ht with hold | hend
        · exact ⟨toast, List.mem_append_left _ hold, rfl⟩
        · cases List.mem_singleton.mp hend
          exact absurd ⟨hnewest, (hinv.merges_iff hmem hadded).mp hmerges⟩ hkept

/-- **Adding a toast** is right exactly if no toast goes but the one that was added right before. -/
theorem shown_add_iff (hinv : Inv s) (hshown : Shown s) (n : Notification) :
    Shown (commit s.1 (.addToast n), s.2 ++ [.addToast n]) ↔ Careful s (.addToast n) := by
  rcases commit_add_cases s.1 n with ⟨heq, hnone⟩ | ⟨last, hlast, hmerges, heq⟩
  · rw [heq]
    exact iff_of_true (shown_push hinv hshown hnone)
      (fun last hlast hmerges => absurd hmerges (hnone last hlast))
  · rw [heq, shown_replace_iff hinv hshown hlast hmerges]
    constructor
    · intro hnewest last' hlast' _
      cases hlast.symm.trans hlast'
      exact hnewest
    · exact fun hcareful => hcareful last hlast hmerges

/-- **Removing a toast** is right exactly if it is there, or nothing is. -/
theorem shown_remove_iff (hinv : Inv s) (hshown : Shown s) (id : Nat) :
    Shown (commit s.1 (.removeToast id), s.2 ++ [.removeToast id]) ↔
      Careful s (.removeToast id) := by
  have hleft : (commit s.1 (.removeToast id)).notifications = _ :=
    removeToast_notifications hinv.nodup id
  by_cases hthere : ∃ toast ∈ s.1.notifications, toast.id = id
  · rw [if_pos hthere] at hleft
    refine iff_of_true (fun k => ?_) (.inl hthere)
    rw [hleft, stays_remove_iff, hshown.stays_iff]
    constructor
    · rintro ⟨toast, ht, rfl⟩
      obtain ⟨hold, hne⟩ := List.mem_filter.mp ht
      exact ⟨⟨toast, hold, rfl⟩, of_decide_eq_true hne⟩
    · rintro ⟨⟨toast, ht, rfl⟩, hne⟩
      exact ⟨toast, List.mem_filter.mpr ⟨ht, decide_eq_true hne⟩, rfl⟩
  · rw [if_neg hthere] at hleft
    constructor
    · intro hshown'
      refine .inr ?_
      by_contra hne
      -- the last toast is taken away
      obtain ⟨last, hlast⟩ := Option.isSome_iff_exists.mp (List.getLast?_isSome.mpr hne)
      have hmem := List.mem_of_getLast? hlast
      have hother : last.id ≠ id := fun heq => hthere ⟨last, hmem, heq⟩
      have hstays := stays_remove_iff.mpr ⟨hshown.stays_iff.mpr ⟨last, hmem, rfl⟩, hother⟩
      obtain ⟨toast, ht, hid⟩ := (hshown' last.id).mpr hstays
      rw [hleft] at ht
      have hless := (hinv.front_lt hlast).2 toast ht
      omega
    · rintro (habsurd | hnil) k
      · exact absurd habsurd hthere
      · rw [hleft, stays_remove_iff, hshown.stays_iff, hnil]
        simp

theorem shown_iff (hinv : Inv s) (hshown : Shown s) (hstep : system.step s e = some s') :
    Shown s' ↔ Careful s e := by
  rw [step_eq_some.mp hstep]
  cases e with
  | addToast n => exact shown_add_iff hinv hshown n
  | removeToast id => exact shown_remove_iff hinv hshown id
  | clearAllToasts =>
    refine iff_of_true (fun id => ?_) trivial
    exact iff_of_false (by rintro ⟨toast, ht, -⟩; cases ht) not_stays_clear

/-- Toasts that were there keep what they carry. -/
theorem Carries.old (hinv : Inv s) (h : Carries s) (ht : toast ∈ s.1.notifications)
    (hseek : toast.notification.type? = some .seek) {first : Nat}
    (hrun : IsRun (s.2 ++ [e]) first toast.id) : ∃ n later, Added (s.2 ++ [e]) first n later ∧
      toast.notification.prevPosition? = n.prevPosition? := by
  obtain ⟨n, later, hadded, hsame⟩ := h toast ht hseek first ((isRun_snoc_iff (hinv.lt ht)).mp hrun)
  exact ⟨n, _, added_snoc_iff.mpr (.inl ⟨later, rfl, hadded⟩), hsame⟩

/-- A toast that replaces none begins a run. -/
theorem Inv.run_begins (hinv : Inv s) (hshown : Shown s)
    (hnone : ∀ last ∈ s.1.notifications.getLast?, ¬ Merges last.notification n) {first : Nat}
    (hrun : IsRun (s.2 ++ [.addToast n]) first s.1.symbols) : first = s.1.symbols := by
  by_contra hne
  have hlt : first < s.1.symbols := Nat.lt_of_le_of_ne hrun.le hne
  -- the toast in front would be there, and merge
  have hreplaced := hrun.replaced (s.1.symbols - 1) (by omega) (by omega)
  have hnewest : s.1.symbols - 1 + 1 = (added s.2).length := by
    rw [← hinv.symbols]
    omega
  obtain ⟨n₀, later, hadded, hnot, hmerges⟩ := (replaced_last_iff hnewest).mp hreplaced
  obtain ⟨toast, ht, hid⟩ := hshown.stays_iff.mp ⟨n₀, later, hadded, hnot⟩
  rw [← hid] at hadded hnewest
  exact hnone toast (hinv.getLast?_of_newest ht hnewest) ((hinv.merges_iff ht hadded).mpr hmerges)

/-- A toast that replaces another goes on with its run. -/
theorem Inv.run_goesOn (hinv : Inv s) (hshown : Shown s) (hmem : last ∈ s.1.notifications)
    (hmerges : Merges last.notification n) (hnewest : last.id + 1 = s.1.symbols) {first : Nat}
    (hrun : IsRun (s.2 ++ [.addToast n]) first s.1.symbols) :
    IsRun (s.2 ++ [.addToast n]) first last.id := by
  have hreplaced : Replaced (s.2 ++ [.addToast n]) last.id := by
    obtain ⟨n₀, later, hadded, hnot⟩ := hshown.stays_iff.mpr ⟨last, hmem, rfl⟩
    refine (replaced_last_iff (hnewest.trans hinv.symbols)).mpr ⟨n₀, later, hadded, hnot, ?_⟩
    exact (hinv.merges_iff hmem hadded).mp hmerges
  refine ⟨?_, fun j hj hlt => hrun.replaced j hj (by omega), hrun.begins⟩
  have hle := hrun.le
  have hne : first ≠ last.id + 1 := fun heq => hrun.begins last.id heq.symm hreplaced
  omega

theorem carries_add (hinv : Inv s) (hshown : Shown s) (h : Carries s)
    (hcareful : Careful s (.addToast n)) :
    Carries (commit s.1 (.addToast n), s.2 ++ [.addToast n]) := by
  intro toast ht hseek first hrun
  rcases commit_add_cases s.1 n with ⟨heq, hnone⟩ | ⟨last, hlast, hmerges, heq⟩
  · rw [heq] at ht
    rcases List.mem_append.mp ht with hold | hnew
    · exact h.old hinv hold hseek hrun
    · cases List.mem_singleton.mp hnew
      rw [hinv.run_begins hshown hnone hrun]
      exact ⟨n, [], added_snoc_iff.mpr (.inr ⟨rfl, rfl, hinv.symbols.symm⟩), rfl⟩
  · rw [heq] at ht
    rcases List.mem_append.mp ht with hold | hnew
    · exact h.old hinv ((List.dropLast_sublist _).mem hold) hseek hrun
    · cases List.mem_singleton.mp hnew
      have hmem := List.mem_of_getLast? hlast
      have hnseek : n.type? = some .seek := (type?_replacing n _).symm.trans hseek
      have hlseek : last.notification.type? = some .seek := hmerges.1.symm.trans hnseek
      have hrun' := hinv.run_goesOn hshown hmem hmerges (hcareful last hlast hmerges) hrun
      obtain ⟨n₁, later, hadded, hsame⟩ := h.old hinv hmem hlseek hrun'
      exact ⟨n₁, later, hadded, (prevPosition?_replacing hmerges hnseek).trans hsame⟩

/-- Toasts that are left carry what they did. -/
theorem carries_left (hinv : Inv s) (h : Carries s) {t : ToastState}
    (hleft : t.notifications.Sublist s.1.notifications) : Carries (t, s.2 ++ [e]) :=
  fun _ ht hseek _ hrun => h.old hinv (hleft.mem ht) hseek hrun

theorem carries_step (hinv : Inv s) (hfaithful : Faithful s) (hcareful : Careful s e)
    (hstep : system.step s e = some s') : Carries s' := by
  rw [step_eq_some.mp hstep]
  cases e with
  | addToast n => exact carries_add hinv hfaithful.shown hfaithful.carries hcareful
  | removeToast id =>
    apply carries_left hinv hfaithful.carries
    show (removeToast s.1 id).notifications.Sublist _
    rw [removeToast_notifications hinv.nodup id]
    split
    · exact List.filter_sublist
    · exact List.dropLast_sublist _
  | clearAllToasts => exact carries_left hinv hfaithful.carries (List.nil_sublist _)

/-- **One step is right exactly if it is careful.** -/
theorem faithful_step_iff (hinv : Inv s) (hfaithful : Faithful s)
    (hstep : system.step s e = some s') : Faithful s' ↔ Careful s e := by
  have hshown := shown_iff hinv hfaithful.shown hstep
  constructor
  · exact fun h => hshown.mp h.shown
  · exact fun hcareful => ⟨hshown.mpr hcareful, carries_step hinv hfaithful hcareful hstep⟩

end Step

/-! ## Every sequence of mutations -/

theorem inv_initial : Inv (initial, []) := by
  constructor
  · rfl
  · exact List.Pairwise.nil
  · intro toast ht
    cases ht

theorem faithful_initial : Faithful (initial, []) := by
  constructor
  · intro id
    refine iff_of_false (by rintro ⟨toast, ht, -⟩; cases ht) ?_
    rintro ⟨n, later, ⟨before, heq, -⟩, -⟩
    simp at heq
  · intro toast ht
    cases ht

/-- **Toasts disappear for their own reason throughout, exactly if every step is careful.** -/
theorem faithful_throughout_iff (es : List Mutation) :
    system.Always Faithful (initial, []) es ↔ system.Along Careful (initial, []) es :=
  Machine.always_iff_along_of_step (I := Inv) (fun _ _ _ hinv hs => hinv.step hs)
    (fun _ _ _ hinv hfaithful hs => faithful_step_iff hinv hfaithful hs) inv_initial faithful_initial

/-- Two notes that are no events. -/
def note (content : String) : Notification := ⟨content, some 3000, .neutral, none⟩

/-- The first toast is closed, and the answer to its undo comes late. -/
def closedTwice : List Mutation :=
  [.addToast (note "first"), .addToast (note "second"), .removeToast 0, .removeToast 0]

/-- **A stale id takes another toast away.** -/
theorem not_faithful_throughout : ¬ ∀ es : List Mutation, system.Always Faithful (initial, []) es := by
  intro h
  have hrun : system.run (initial, []) closedTwice = some (⟨[], 2⟩, closedTwice) := by
    decide +kernel
  have hfaithful := (h closedTwice).last hrun
  have hstays : Stays closedTwice 1 := by
    refine ⟨note "second", [.removeToast 0, .removeToast 0], ⟨[.addToast (note "first")], rfl, rfl⟩, ?_⟩
    simp [Gone, added]
  obtain ⟨toast, ht, -⟩ := (hfaithful.shown 1).mpr hstays
  cases ht

end OpenTogetherTube.Client.Toasts
