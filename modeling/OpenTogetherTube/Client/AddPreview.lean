import OpenTogetherTube.Common.AnyGrants
import OpenTogetherTube.Lib.Calls
import OpenTogetherTube.Lib.Machine

/-!
# The preview of what is added

Somebody types a URL, and a second after the last change the server is asked what is there; for any
other text the server is asked when somebody searches for it. What the server answers is shown, and
may be added to the queue as a whole.

A request says nothing about itself when it is answered, and a change of the text does not cancel what
is under way: a reply is shown whatever the text is by then, and replaces what a later request has
found. `upToDate_throughout` says that nothing else goes wrong, and `not_upToDate_throughout` is a run
in which the text is changed while the server still looks for the old one.

The callback of a watcher runs before anything else does. The parser of URLs is the browser's.
-/

namespace OpenTogetherTube.Client.AddPreview

open OpenTogetherTube.Common OpenTogetherTube.Lib

/-! ## The component -/

/-- A request to `/data/previewAdd`. -/
structure Request where
  input : String
  adapter : Option String
  deriving DecidableEq, Repr

/-- How a request ends. -/
inductive Outcome (Video : Type) where
  | success (result : List Video) (highlighted : Option Video)
  /-- A response that says that there is no success. -/
  | unsuccessful
  | errorResponse (status : Nat) (name message : String) (retryAfter : Option String)
  | noResponse
  deriving DecidableEq, Repr

/-- What is translated to `videosLoadFailureText`. -/
inductive FailureText where
  | empty
  | unknownError
  | message (text : String)
  | rateLimited (duration : Option String)
  deriving DecidableEq, Repr

/-- The refs, whether a debounced call is pending, and what the component has sent or opened. -/
structure State (Video : Type) where
  inputAddPreview : String
  selectedAdapter : Option String
  isLoadingAddPreview : Bool
  hasAddPreviewFailed : Bool
  videosLoadFailureText : FailureText
  videos : List Video
  highlightedAddPreviewItem : Option Video
  isLoadingAddAll : Bool
  debounced : Bool
  requests : List (Call Request (Outcome Video))
  /-- What was posted to the queue. -/
  added : List (List Video)
  /-- Searches on YouTube. -/
  opened : List String
  toasts : Nat

def initial (Video : Type) : State Video where
  inputAddPreview := ""
  selectedAdapter := none
  isLoadingAddPreview := false
  hasAddPreviewFailed := false
  videosLoadFailureText := .empty
  videos := []
  highlightedAddPreviewItem := none
  isLoadingAddAll := false
  debounced := false
  requests := []
  added := []
  opened := []
  toasts := 0

/-- Nothing is left of it by `_.trim`. -/
def blank (text : String) : Bool := text.toList.all isSpace

/-- `new URL(input).host`, where it does not throw. A URL has a scheme. -/
structure UrlParser where
  host : String → Option String
  host_blank : ∀ text, blank text = true → host text = none

namespace State

variable {Video : Type} (urls : UrlParser)

def isAddPreviewInputUrl (s : State Video) : Bool :=
  (urls.host s.inputAddPreview).any (fun h => h ≠ "")

/-- What is shown goes. -/
def clear (s : State Video) : State Video :=
  { s with videos := [], highlightedAddPreviewItem := none }

/-- `requestAddPreview`, to the `await`. -/
def requestAddPreview (s : State Video) : State Video :=
  { s with
    requests := Call.send s.requests
      ⟨s.inputAddPreview, s.selectedAdapter.filter (fun adapter => adapter ≠ "")⟩ }

/-- The `catch` block, where it is not known what is wrong. -/
def failUnknown (s : State Video) : State Video :=
  { s with
    hasAddPreviewFailed := true
    videosLoadFailureText := .unknownError
    toasts := s.toasts + 1 }

def failResponse (s : State Video) (status : Nat) (name message : String)
    (retryAfter : Option String) : State Video :=
  if status = 400 then
    { s with
      hasAddPreviewFailed := true
      videosLoadFailureText := .message message
      opened :=
        if name = "FeatureDisabledException" && !s.isAddPreviewInputUrl urls then
          s.opened ++ [s.inputAddPreview]
        else s.opened }
  else if status = 429 then
    { s with hasAddPreviewFailed := true, videosLoadFailureText := .rateLimited retryAfter }
  else s.failUnknown

/-- `requestAddPreview`, from the `await`. -/
def settle (s : State Video) (outcome : Outcome Video) : State Video :=
  let s :=
    match outcome with
    | .success result highlighted =>
      { s with
        hasAddPreviewFailed := false
        videos := result
        highlightedAddPreviewItem := highlighted }
    | .errorResponse status name message retryAfter =>
      s.failResponse urls status name message retryAfter
    | .unsuccessful | .noResponse => s.failUnknown
  { s with isLoadingAddPreview := false }

def requestAddPreviewExplicit (s : State Video) : State Video :=
  { s.clear with isLoadingAddPreview := true, hasAddPreviewFailed := false }.requestAddPreview

def onInputAddPreviewChange (s : State Video) : State Video :=
  let s := { s with hasAddPreviewFailed := false }
  if s.inputAddPreview = "" || blank s.inputAddPreview then s.clear
  else if !s.isAddPreviewInputUrl urls then s.clear
  else { s.clear with isLoadingAddPreview := true, debounced := true }

/-- The text is set, and watched. -/
def setInput (s : State Video) (text : String) : State Video :=
  if text = s.inputAddPreview then s
  else { s with inputAddPreview := text }.onInputAddPreviewChange urls

def onInputAddPreviewKeyDown (s : State Video) (keyCode : Nat) : State Video :=
  if blank s.inputAddPreview || s.isAddPreviewInputUrl urls then s
  else if keyCode = 13 && s.videos.length = 0 then s.requestAddPreviewExplicit
  else s

/-- The button to search is there. -/
def offersSearch (s : State Video) : Bool :=
  !s.isLoadingAddPreview && s.videos.length = 0 && s.inputAddPreview ≠ "" &&
    !s.hasAddPreviewFailed && !s.isAddPreviewInputUrl urls

def addAllToQueue (s : State Video) : State Video :=
  { s with isLoadingAddAll := true, added := s.added ++ [s.videos] }

end State

inductive Event (Video : Type) where
  | input (text : String)
  | selectAdapter (adapter : Option String)
  | keyDown (keyCode : Nat)
  | search
  /-- A second has passed. -/
  | timer
  | reply (i : Nat) (outcome : Outcome Video)
  | addAll
  | addedAll (ok : Bool)

section System

variable {Video : Type} (urls : UrlParser)

/-- A button is pressed that is there, a timer fires that is set, and a request is answered once. -/
def step (s : State Video) : Event Video → Option (State Video)
  | .input text => some (s.setInput urls text)
  | .selectAdapter adapter => some { s with selectedAdapter := adapter }
  | .keyDown keyCode => some (s.onInputAddPreviewKeyDown urls keyCode)
  | .search => if s.offersSearch urls then some s.requestAddPreviewExplicit else none
  | .timer => if s.debounced then some { s with debounced := false }.requestAddPreview else none
  | .reply i outcome =>
    (Call.answer s.requests i outcome).map
      (fun requests => { s with requests := requests }.settle urls outcome)
  | .addAll => if s.videos.length > 1 && !s.isLoadingAddAll then some s.addAllToQueue else none
  | .addedAll ok =>
    if s.isLoadingAddAll then
      some { s with isLoadingAddAll := false, toasts := if ok then s.toasts else s.toasts + 1 }
    else none

def system : Machine (State Video) (Event Video) := ⟨step urls⟩

/-! ## The specification -/

/-- A request for the text that is there. -/
def State.Asks (s : State Video) (r : Request) : Prop := r.input = s.inputAddPreview

/-- No timer is set, and no request is open. -/
def State.Settled (s : State Video) : Prop := s.debounced = false ∧ Call.Settled s.requests

/-- The response is shown, and nothing else. -/
def State.Shows (s : State Video) (result : List Video) (highlighted : Option Video) : Prop :=
  s.videos = result ∧ s.highlightedAddPreviewItem = highlighted

/-- **The purpose.** -/
structure UpToDate (s : State Video) : Prop where
  shown : ¬ s.Shows [] none →
    Call.Answered s.Asks s.requests (.success s.videos s.highlightedAddPreviewItem)
  loaded : s.Settled → s.isLoadingAddPreview = false
  latest : s.Settled → s.isAddPreviewInputUrl urls = true → ∀ i c, Call.Latest s.Asks s.requests i c →
    ∀ result highlighted, c.reply = some (.success result highlighted) → s.Shows result highlighted

/-- A request that succeeds has found nothing or is for the text that is there. And where that is a
URL and no other request is to come, the latest request for it has not succeeded before, or has found
the same. -/
def Timely (s : State Video) : Event Video → Prop
  | .reply i (.success result highlighted) =>
    (result = [] ∧ highlighted = none ∨ ∀ c, s.requests[i]? = some c → s.Asks c.request) ∧
      (s.debounced = false → s.isAddPreviewInputUrl urls = true →
        ∀ j c, Call.Latest s.Asks s.requests j c →
        ∀ result' highlighted', c.reply = some (.success result' highlighted') →
          result' = result ∧ highlighted' = highlighted)
  | _ => True

end System

/-! ## What the handlers do -/

namespace State

variable {Video : Type} (urls : UrlParser) {s : State Video}

/-- What is shown goes, and a request is to come for a URL. -/
theorem onInputAddPreviewChange_cases (s : State Video) :
    (s.isAddPreviewInputUrl urls = false ∧
        s.onInputAddPreviewChange urls = { s.clear with hasAddPreviewFailed := false }) ∨
      s.onInputAddPreviewChange urls =
        { s.clear with
          hasAddPreviewFailed := false
          isLoadingAddPreview := true
          debounced := true } := by
  unfold onInputAddPreviewChange
  dsimp only
  split
  · next hblank =>
    have hb : blank s.inputAddPreview = true := by
      rcases Bool.or_eq_true_iff.mp hblank with hempty | hb
      · rw [of_decide_eq_true hempty]
        rfl
      · exact hb
    refine .inl ⟨?_, rfl⟩
    unfold isAddPreviewInputUrl
    rw [urls.host_blank _ hb]
    rfl
  · split
    · next hurl => exact .inl ⟨(Bool.not_eq_true' _).mp hurl, rfl⟩
    · exact .inr rfl

/-- A failure changes nothing that is shown. -/
theorem settle_cases (s : State Video) (outcome : Outcome Video) :
    (∃ result highlighted, outcome = .success result highlighted ∧
        s.settle urls outcome =
          { s with
            hasAddPreviewFailed := false
            videos := result
            highlightedAddPreviewItem := highlighted
            isLoadingAddPreview := false }) ∨
      (∀ result highlighted, outcome ≠ .success result highlighted) ∧
        ∃ text opened toasts, s.settle urls outcome =
          { s with
            hasAddPreviewFailed := true
            videosLoadFailureText := text
            opened := opened
            toasts := toasts
            isLoadingAddPreview := false } := by
  cases outcome with
  | success result highlighted => exact .inl ⟨result, highlighted, rfl, rfl⟩
  | unsuccessful => exact .inr ⟨fun _ _ => nofun, _, _, _, rfl⟩
  | noResponse => exact .inr ⟨fun _ _ => nofun, _, _, _, rfl⟩
  | errorResponse status name message retryAfter =>
    refine .inr ⟨fun _ _ => nofun, ?_⟩
    unfold settle failResponse
    dsimp only
    split
    · exact ⟨_, _, _, rfl⟩
    · split
      · exact ⟨_, _, _, rfl⟩
      · exact ⟨_, _, _, rfl⟩

end State

/-! ## Every run -/

section Run

variable {Video : Type} {urls : UrlParser} {s s' : State Video} {e : Event Video}

/-- **The invariant.** While something is loading, something is to come; and what is shown for a URL
is the latest response, unless a request is to come. -/
structure Inv (urls : UrlParser) (s : State Video) : Prop where
  shown : ¬ s.Shows [] none →
    Call.Answered s.Asks s.requests (.success s.videos s.highlightedAddPreviewItem)
  loading : s.isLoadingAddPreview = true → s.debounced = true ∨ ¬ Call.Settled s.requests
  latest : s.debounced = false → s.isAddPreviewInputUrl urls = true → ∀ i c,
    Call.Latest s.Asks s.requests i c → ∀ result highlighted,
    c.reply = some (.success result highlighted) → s.Shows result highlighted

theorem Inv.upToDate (h : Inv urls s) : UpToDate urls s where
  shown := h.shown
  loaded := by
    rintro ⟨htimer, hsettled⟩
    rw [Bool.eq_false_iff]
    intro hloading
    rcases h.loading hloading with hdebounced | hopen
    · rw [htimer] at hdebounced
      cases hdebounced
    · exact hopen hsettled
  latest := fun hsettled => h.latest hsettled.1

theorem inv_initial : Inv urls (initial Video) where
  shown h := absurd ⟨rfl, rfl⟩ h
  loading h := by cases h
  latest _ _ i c h := by cases h.here

/-- A request for the text that is there has no reply yet. -/
theorem not_latest_sent {i : Nat} {c : Call Request (Outcome Video)} {outcome : Outcome Video}
    (h : Call.Latest s.requestAddPreview.Asks s.requestAddPreview.requests i c) :
    c.reply ≠ some outcome := by
  rw [h.of_send rfl]
  exact nofun

/-- What was shown, if anything, was for the same text. -/
theorem inv_requestAddPreview (hshown : ¬ s.Shows [] none →
      Call.Answered s.Asks s.requests (.success s.videos s.highlightedAddPreviewItem)) :
    Inv urls s.requestAddPreview where
  shown h := Call.answered_send.mpr (hshown h)
  loading _ := .inr Call.not_settled_send
  latest _ _ _ _ hlatest _ _ hreply := absurd hreply (not_latest_sent hlatest)

theorem inv_requestAddPreviewExplicit : Inv urls s.requestAddPreviewExplicit :=
  inv_requestAddPreview (fun h => absurd ⟨rfl, rfl⟩ h)

theorem Inv.setInput (h : Inv urls s) (text : String) : Inv urls (s.setInput urls text) := by
  unfold State.setInput
  split
  · exact h
  · rcases State.onInputAddPreviewChange_cases urls { s with inputAddPreview := text } with
      ⟨hurl, heq⟩ | heq
    · rw [heq]
      refine ⟨fun hshows => absurd ⟨rfl, rfl⟩ hshows, h.loading, fun _ hurl' => ?_⟩
      exact absurd (hurl.symm.trans hurl') Bool.false_ne_true
    · rw [heq]
      exact ⟨fun hshows => absurd ⟨rfl, rfl⟩ hshows, fun _ => .inl rfl,
        fun htimer => absurd htimer nofun⟩

theorem Inv.reply {i : Nat} {outcome : Outcome Video}
    {requests : List (Call Request (Outcome Video))} (h : Inv urls s)
    (htimely : Timely urls s (.reply i outcome))
    (hanswer : Call.answer s.requests i outcome = some requests) :
    Inv urls ({ s with requests := requests }.settle urls outcome) := by
  rcases State.settle_cases urls { s with requests := requests } outcome with
    ⟨result, highlighted, rfl, heq⟩ | ⟨hfails, text, opened, toasts, heq⟩
  · obtain ⟨hasks, hlatest⟩ := htimely
    rw [heq]
    refine ⟨fun hshows => ?_, nofun, fun htimer hurl j c hj result' highlighted' hreply => ?_⟩
    · refine Call.answered_here hanswer ?_
      exact hasks.resolve_left hshows
    · rcases hj.of_answer hanswer with hnew | hold
      · cases hnew.symm.trans hreply
        exact ⟨rfl, rfl⟩
      · obtain ⟨rfl, rfl⟩ := hlatest htimer hurl j c hold result' highlighted' hreply
        exact ⟨rfl, rfl⟩
  · rw [heq]
    refine ⟨fun hshows => ?_, nofun, fun htimer hurl j c hj result' highlighted' hreply => ?_⟩
    · exact Call.answered_answer hanswer (h.shown hshows)
    · rcases hj.of_answer hanswer with hnew | hold
      · exact absurd (Option.some.inj (hnew.symm.trans hreply)) (hfails _ _)
      · exact h.latest htimer hurl j c hold result' highlighted' hreply

/-- **The step lemma.** -/
theorem step_inv (h : Inv urls s) (htimely : Timely urls s e)
    (hstep : (system urls).step s e = some s') : Inv urls s' := by
  change step urls s e = some s' at hstep
  cases e with
  | input text =>
    cases hstep
    exact h.setInput text
  | selectAdapter adapter =>
    cases hstep
    exact ⟨h.shown, h.loading, h.latest⟩
  | keyDown keyCode =>
    cases hstep
    unfold State.onInputAddPreviewKeyDown
    split
    · exact h
    · split
      · exact inv_requestAddPreviewExplicit
      · exact h
  | search =>
    unfold step at hstep
    dsimp only at hstep
    split at hstep
    · cases hstep
      exact inv_requestAddPreviewExplicit
    · cases hstep
  | timer =>
    unfold step at hstep
    dsimp only at hstep
    split at hstep
    · cases hstep
      exact inv_requestAddPreview h.shown
    · cases hstep
  | reply i outcome =>
    obtain ⟨requests, hanswer, rfl⟩ := Option.map_eq_some_iff.mp hstep
    exact h.reply htimely hanswer
  | addAll =>
    unfold step at hstep
    dsimp only at hstep
    split at hstep
    · cases hstep
      exact ⟨h.shown, h.loading, h.latest⟩
    · cases hstep
  | addedAll ok =>
    unfold step at hstep
    dsimp only at hstep
    split at hstep
    · cases hstep
      exact ⟨h.shown, h.loading, h.latest⟩
    · cases hstep

end Run

/-- **In every run in which replies are timely, what is shown is up to date.** -/
theorem upToDate_throughout {Video : Type} (urls : UrlParser) {events : List (Event Video)}
    (h : (system urls).Along (Timely urls) (initial Video) events) :
    (system urls).Always (UpToDate urls) (initial Video) events :=
  (Machine.always_of_along (fun _ _ _ hinv htimely hstep => step_inv hinv htimely hstep)
    inv_initial h).imp (fun _ => Inv.upToDate)

/-! ## A change of the text while a request is open -/

/-- A parser that knows two URLs. -/
def exampleUrls : UrlParser where
  host text :=
    if blank text then none
    else if text = "https://example.org/1" ∨ text = "https://example.org/2" then some "example.org"
    else none
  host_blank _ hblank := if_pos hblank

/-- A URL is typed, and the server finds something. -/
def found : List (Event Nat) :=
  [.input "https://example.org/1", .timer, .reply 0 (.success [1] none)]

theorem upToDate_throughout_found :
    (system exampleUrls).Always (UpToDate exampleUrls) (initial Nat) found := by
  refine upToDate_throughout exampleUrls ?_
  refine Machine.along_cons rfl trivial (Machine.along_cons rfl trivial ?_)
  refine Machine.along_cons rfl ⟨.inr ?_, ?_⟩ trivial
  · rintro c ⟨⟩
    rfl
  · intro _ _ j c hlatest result highlighted hreply
    match j with
    | 0 =>
      cases hlatest.here
      cases hreply
    | j + 1 => cases hlatest.here

/-- Another URL is typed before the server has answered. -/
def overtaken : List (Event Nat) :=
  [.input "https://example.org/1", .timer, .input "https://example.org/2",
    .reply 0 (.success [1] none)]

theorem not_upToDate_throughout : ¬ ∀ (Video : Type) (urls : UrlParser)
    (events : List (Event Video)),
    (system urls).Always (UpToDate urls) (initial Video) events := by
  intro h
  have hend : ∃ t, (system exampleUrls).run (initial Nat) overtaken = some t ∧ t.videos = [1] ∧
      t.inputAddPreview = "https://example.org/2" ∧
      t.requests.map (·.request.input) = ["https://example.org/1"] :=
    ⟨_, rfl, rfl, rfl, rfl⟩
  obtain ⟨t, ht, hvideos, hinput, hrequests⟩ := hend
  have hshown : ¬ t.Shows [] none := by
    intro hshows
    rw [hshows.1] at hvideos
    cases hvideos
  obtain ⟨c, hc, hasks, -⟩ := ((h Nat exampleUrls overtaken).last ht).shown hshown
  have hinput' : c.request.input ∈ ["https://example.org/1"] :=
    hrequests ▸ List.mem_map.mpr ⟨c, hc, rfl⟩
  rw [List.mem_singleton, hasks, hinput] at hinput'
  exact absurd hinput' (by decide)

end OpenTogetherTube.Client.AddPreview
