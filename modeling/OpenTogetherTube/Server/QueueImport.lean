import Mathlib.Data.List.Infix
import OpenTogetherTube.Server.Adapters

/-!
# Exported queues

A queue is exported as a text of links, one a line, which is there to be pasted into the "Add" tab to
restore the queue. `ImportsBack` says that it does. YouTube and Vimeo links always come back. The link
of any other item is looked at by every adapter in turn, and is lost if it does not end in an extension
of its service: so are the manifests and streams of Invidious, which have none. `importsBack_iff` is the
exact condition.
-/

namespace OpenTogetherTube.Server.QueueImport

open OpenTogetherTube.Common OpenTogetherTube.Lib Adapters

/-! ## Exporting -/

def buildUrlForQueueItem (item : QueueItem) : Option String :=
  match item.service with
  | .youtube => some ("https://youtu.be/" ++ item.id)
  | .vimeo => some ("https://vimeo.com/" ++ item.id)
  | .direct => some item.id
  | .hls => some (item.metadata.hlsUrl.getD item.id)
  | .dash => some (item.metadata.dashUrl.getD item.id)
  | .tubi | .reddit | .googledrive | .peertube | .pluto | .invidious | .odysee => none

/-- None if it throws. -/
def exportQueue (queue : List QueueItem) : Option String :=
  (queue.mapM buildUrlForQueueItem).map (String.intercalate "\n")

/-- What the adapters give out. The id of a video on YouTube or Vimeo passes the check that it is looked
up with, and where there is a `hls_url` or a `dash_url`, it is the id: in `HlsVideoAdapter`,
`DashVideoAdapter`, Invidious and PeerTube. These and `DirectVideoAdapter` give out any link. -/
def Produced (item : QueueItem) : Prop :=
  match item.service with
  | .youtube => item.id ≠ "" ∧ ∀ c ∈ item.id.toList, isIdChar c = true
  | .vimeo => item.id ≠ "" ∧ ∀ c ∈ item.id.toList, c.isDigit = true
  | .hls => ∀ url ∈ item.metadata.hlsUrl, url = item.id
  | .dash => ∀ url ∈ item.metadata.dashUrl, url = item.id
  | _ => True

/-! ## Importing -/

structure Resolved where
  service : VideoService
  id : Option String
  deriving DecidableEq

section Import

variable (rt : Runtime) (config : Config)

def resolveLine (line : String) : Except Failure Resolved := do
  let adapter ← getServiceAdapterForURL rt config line
  let id ← adapter.getVideoId line
  return ⟨adapter.serviceId, id⟩

/-- A query of several lines is trimmed. -/
def queryLines (query : String) : List String :=
  if '\n' ∈ query.toList then split (trim query) '\n' else [query]

/-- `resolveVideoQueryImpl`, as far as the ids. -/
def resolveVideoQuery (query : String) : Except Failure (List Resolved) :=
  ((queryLines query).filter (isURL rt)).mapM (resolveLine rt config)

/-! ## The specification -/

/-- **The purpose.** -/
def ImportsBack (queue : List QueueItem) : Prop :=
  ∀ text, exportQueue queue = some text →
    resolveVideoQuery rt config text = .ok (queue.map (fun item => ⟨item.service, some item.id⟩))

/-- The adapter of a service that has links for ids. -/
def linkAdapterOf : VideoService → Option Adapter
  | .direct => some (direct rt)
  | .hls => some (hls rt)
  | .dash => some (dash rt)
  | _ => none

/-- The adapters that are asked before. -/
def before : List Adapter :=
  [youtube rt, vimeo rt, googledrive rt, reddit rt, tubi rt, peertube rt config]

/-- The link is one line and a URL, ends in an extension of its service, and no adapter that is asked
before takes it. -/
structure ReadsAs (adapter : Adapter) (link : String) : Prop where
  oneLine : '\n' ∉ link.toList
  isURL : isURL rt link = true
  unclaimed : ∀ other ∈ before rt config, other.canHandleURL link = .ok false
  extension : adapter.canHandleURL link = .ok true

/-- **The condition.** Where there are several lines, the first has no white space before it, and the
last none behind it. -/
structure Readable (queue : List QueueItem) : Prop where
  links : ∀ item ∈ queue, ∀ adapter ∈ linkAdapterOf rt item.service, ReadsAs rt config adapter item.id
  first : 2 ≤ queue.length → ∀ item ∈ queue.head?, ∀ _ ∈ linkAdapterOf rt item.service,
    ∀ c ∈ item.id.toList.head?, isWhite c = false
  last : 2 ≤ queue.length → ∀ item ∈ queue.getLast?, ∀ _ ∈ linkAdapterOf rt item.service,
    ∀ c ∈ item.id.toList.getLast?, isWhite c = false

end Import

/-- The URL standard, on no text and on the links that are written for YouTube and Vimeo. -/
structure UrlStandard (rt : Runtime) : Prop where
  empty : rt.newURL "" none = none
  plain : ∀ host ∈ ["youtu.be", "vimeo.com"], ∀ id, (∀ c ∈ id.toList, isIdChar c = true) →
    rt.newURL ("https://" ++ host ++ "/" ++ id) none = some ⟨"https:", host, host, "/" ++ id, []⟩

/-! ## One line -/

section Line

variable {rt : Runtime} {config : Config}

theorem find_cons (url : String) (adapter : Adapter) (rest : List Adapter) :
    find url (adapter :: rest) = (adapter.canHandleURL url).bind
      (fun handles => if handles = true then .ok adapter else find url rest) := rfl

theorem find_eq_ok {url : String} {list : List Adapter} {adapter : Adapter}
    (h : find url list = .ok adapter) :
    ∃ asked rest, list = asked ++ adapter :: rest ∧ adapter.canHandleURL url = .ok true ∧
      ∀ other ∈ asked, other.canHandleURL url = .ok false := by
  induction list with
  | nil => cases h
  | cons first list ih =>
    rw [find_cons] at h
    cases hfirst : first.canHandleURL url with
    | error failure =>
      rw [hfirst] at h
      cases h
    | ok handles =>
      rw [hfirst] at h
      cases handles with
      | true =>
        cases h
        exact ⟨[], list, rfl, hfirst, fun _ hother => by cases hother⟩
      | false =>
        obtain ⟨asked, rest, rfl, hadapter, hasked⟩ := ih h
        exact ⟨first :: asked, rest, rfl, hadapter, List.forall_mem_cons.mpr ⟨hfirst, hasked⟩⟩

theorem find_append {url : String} {asked rest : List Adapter} {adapter : Adapter}
    (hasked : ∀ other ∈ asked, other.canHandleURL url = .ok false)
    (hadapter : adapter.canHandleURL url = .ok true) :
    find url (asked ++ adapter :: rest) = .ok adapter := by
  induction asked with
  | nil =>
    rw [List.nil_append, find_cons, hadapter]
    rfl
  | cons first asked ih =>
    obtain ⟨hfirst, hasked⟩ := List.forall_mem_cons.mp hasked
    rw [List.cons_append, find_cons, hfirst]
    exact ih hasked

/-- The services of the adapters are different. -/
theorem asked_of_split {list asked rest : List Adapter} {adapter : Adapter}
    (hnodup : (list.map (·.serviceId)).Nodup) {asked' rest' : List Adapter} {adapter' : Adapter}
    (h : list = asked ++ adapter :: rest) (h' : list = asked' ++ adapter' :: rest')
    (hservice : adapter.serviceId = adapter'.serviceId) : asked = asked' ∧ adapter = adapter' := by
  subst h
  induction asked generalizing asked' with
  | nil =>
    cases asked' with
    | nil =>
      cases h'
      exact ⟨rfl, rfl⟩
    | cons first asked' =>
      cases h'
      simp [hservice] at hnodup
  | cons first asked ih =>
    cases asked' with
    | nil =>
      cases h'
      simp [← hservice] at hnodup
    | cons first' asked' =>
      rw [List.cons_append, List.cons_append, List.cons.injEq] at h'
      obtain ⟨rfl, h'⟩ := h'
      obtain ⟨rfl, rfl⟩ := ih (List.nodup_cons.mp hnodup).2 h'
      exact ⟨rfl, rfl⟩

/-! ### Links -/

theorem hasExtension_iff {extensions : List String} {path : String} :
    hasExtension extensions path = true ↔
      ∃ e ∈ extensions, '.' :: e.toList <:+ path.toList := by
  unfold hasExtension endsWith
  simp [List.isSuffixOf_iff_suffix]

/-- What stands behind the last dot is one extension. -/
theorem hasExtension_disjoint {extensions extensions' : List String} {path : String}
    (hdots : ∀ e ∈ extensions ++ extensions', '.' ∉ e.toList)
    (hdisjoint : ∀ e ∈ extensions, e ∉ extensions') (h : hasExtension extensions path = true) :
    hasExtension extensions' path = false := by
  rw [Bool.eq_false_iff]
  intro h'
  obtain ⟨e, he, hsuffix⟩ := hasExtension_iff.mp h
  obtain ⟨e', he', hsuffix'⟩ := hasExtension_iff.mp h'
  have hlonger : ∀ {a b : List Char}, '.' ∉ b → '.' :: a <:+ '.' :: b → a = b := by
    intro a b hb hab
    rcases List.suffix_cons_iff.mp hab with heq | hinside
    · exact (List.cons.inj heq).2
    · exact absurd (hinside.subset List.mem_cons_self) hb
  have heq : e.toList = e'.toList := by
    rcases List.suffix_or_suffix_of_suffix hsuffix hsuffix' with hab | hba
    · exact hlonger (hdots e' (List.mem_append_right _ he')) hab
    · exact (hlonger (hdots e (List.mem_append_left _ he)) hba).symm
  exact hdisjoint e he (String.toList_inj.mp heq ▸ he')

theorem linkAdapter_canHandleURL_disjoint {service service' : VideoService}
    {extensions extensions' : List String} {link : String}
    (hdots : ∀ e ∈ extensions ++ extensions', '.' ∉ e.toList)
    (hdisjoint : ∀ e ∈ extensions, e ∉ extensions')
    (h : (linkAdapter rt service extensions).canHandleURL link = .ok true) :
    (linkAdapter rt service' extensions').canHandleURL link = .ok false := by
  unfold linkAdapter at h ⊢
  dsimp only at h ⊢
  cases hpath : rt.parsePath link with
  | none =>
    rw [hpath] at h
    cases h
  | some path =>
    rw [hpath] at h
    exact congrArg Except.ok (hasExtension_disjoint hdots hdisjoint (Except.ok.inj h))

/-- Where an adapter of links stands among the others: those of other extensions stand between. -/
theorem adapters_split (config : Config) {service : VideoService} {adapter : Adapter}
    (h : adapter ∈ linkAdapterOf rt service) :
    adapter.serviceId = service ∧ (∀ link, adapter.getVideoId link = .ok (some link)) ∧
      ∃ between rest, adapters rt config = (before rt config ++ between) ++ adapter :: rest ∧
        ∀ link, adapter.canHandleURL link = .ok true →
          ∀ other ∈ between, other.canHandleURL link = .ok false := by
  cases service <;> cases h
  · exact ⟨rfl, fun _ => rfl, [], _, rfl, fun _ _ _ hother => by cases hother⟩
  · refine ⟨rfl, fun _ => rfl, [direct rt], _, rfl, ?_⟩
    intro link hlink other hother
    cases List.mem_singleton.mp hother
    exact linkAdapter_canHandleURL_disjoint (by decide) (by decide) hlink
  · refine ⟨rfl, fun _ => rfl, [direct rt, hls rt], _, rfl, ?_⟩
    intro link hlink other hother
    rcases List.mem_cons.mp hother with rfl | hother
    · exact linkAdapter_canHandleURL_disjoint (by decide) (by decide) hlink
    · cases List.mem_singleton.mp hother
      exact linkAdapter_canHandleURL_disjoint (by decide) (by decide) hlink

theorem serviceIds_nodup : ((adapters rt config).map (·.serviceId)).Nodup := by
  show [VideoService.youtube, .vimeo, .googledrive, .reddit, .tubi, .peertube, .direct, .hls, .dash,
    .pluto, .invidious, .odysee].Nodup
  decide

theorem resolveLine_link_iff {service : VideoService} {adapter : Adapter}
    (hadapter : adapter ∈ linkAdapterOf rt service) {line id : String} :
    resolveLine rt config line = .ok ⟨service, some id⟩ ↔
      line = id ∧ (∀ other ∈ before rt config, other.canHandleURL line = .ok false) ∧
        adapter.canHandleURL line = .ok true := by
  obtain ⟨hservice, hid, between, rest, hsplit, hbetween⟩ := adapters_split config hadapter
  unfold resolveLine getServiceAdapterForURL
  constructor
  · intro h
    cases hfind : find line (adapters rt config) with
    | error failure =>
      rw [hfind] at h
      cases h
    | ok found =>
      obtain ⟨asked, rest', hsplit', hhandles, hasked⟩ := find_eq_ok hfind
      rw [hfind] at h
      cases hfound : found.getVideoId line with
      | error failure =>
        simp [bind, Except.bind, hfound] at h
      | ok id' =>
        simp only [bind, Except.bind, hfound, pure, Except.pure, Except.ok.injEq,
          Resolved.mk.injEq] at h
        obtain ⟨rfl, rfl⟩ := asked_of_split serviceIds_nodup hsplit' hsplit (h.1.trans hservice.symm)
        cases hfound.symm.trans (hid line)
        refine ⟨Option.some.inj h.2, ?_, hhandles⟩
        intro other hother
        exact hasked other (List.mem_append_left _ hother)
  · rintro ⟨rfl, hbefore, hhandles⟩
    rw [hsplit, find_append (List.forall_mem_append.mpr ⟨hbefore, hbetween line hhandles⟩) hhandles]
    simp [bind, Except.bind, hid, pure, Except.pure, hservice]

/-! ### YouTube and Vimeo -/

/-- A line that comes back as the item. -/
structure Comes (rt : Runtime) (config : Config) (item : QueueItem) (line : String) : Prop where
  isURL : isURL rt line = true
  resolved : resolveLine rt config line = .ok ⟨item.service, some item.id⟩

theorem plain_not_isWhite (host : String) {id : String} (hhost : host ∈ ["youtu.be", "vimeo.com"])
    (hid : ∀ c ∈ id.toList, isIdChar c = true) :
    ∀ c ∈ ("https://" ++ host ++ "/" ++ id).toList, isWhite c = false := by
  have hstart : ∀ host ∈ ["youtu.be", "vimeo.com"],
      ("https://" ++ host ++ "/").toList.all (fun c => !isWhite c) = true := by decide
  intro c hc
  rw [String.toList_append] at hc
  rcases List.mem_append.mp hc with hc | hid'
  · simpa using List.all_eq_true.mp (hstart host hhost) c hc
  · obtain ⟨hlow, hhigh, -⟩ := isIdChar_bounds (hid c hid')
    exact isWhite_of_bounds (by omega) hhigh

section Plain

variable {item : QueueItem}

theorem trim_id (hid : ∀ c ∈ item.id.toList, isIdChar c = true) : trim item.id = item.id := by
  refine trim_eq_self (fun c hc => ?_)
  obtain ⟨hlow, hhigh, -⟩ := isIdChar_bounds (hid c hc)
  exact isWhite_of_bounds (by omega) hhigh

theorem isURL_plain (host : String) (hrt : UrlStandard rt) (hhost : host ∈ ["youtu.be", "vimeo.com"])
    (hid : ∀ c ∈ item.id.toList, isIdChar c = true) :
    isURL rt ("https://" ++ host ++ "/" ++ item.id) = true := by
  have hne : ∀ host ∈ ["youtu.be", "vimeo.com"], host ≠ "" := by decide
  unfold isURL
  rw [hrt.plain host hhost item.id hid]
  exact decide_eq_true (hne host hhost)

theorem youtube_comes (hrt : UrlStandard rt) (hservice : item.service = .youtube)
    (hne : item.id ≠ "") (hid : ∀ c ∈ item.id.toList, isIdChar c = true) :
    Comes rt config item ("https://youtu.be/" ++ item.id) := by
  have hurl : rt.url ("https://youtu.be/" ++ item.id) =
      .ok ⟨"https:", "youtu.be", "youtu.be", "/" ++ item.id, []⟩ :=
    Runtime.url_eq_ok (hrt.plain "youtu.be" (by decide) item.id hid)
  have hhandles : (youtube rt).canHandleURL ("https://youtu.be/" ++ item.id) = .ok true := by
    have hlength : 1 < ("/" ++ item.id).length := by
      have hpos : item.id.length ≠ 0 := fun h => hne (String.length_eq_zero_iff.mp h)
      rw [String.length_append]
      show 1 < 1 + item.id.length
      omega
    show (rt.url _).bind _ = _
    rw [hurl]
    show Except.ok (youtubeCanHandle _) = _
    unfold youtubeCanHandle
    dsimp only
    rw [if_neg (by decide), if_pos (by decide), decide_eq_true hlength]
  have hvideo : (youtube rt).getVideoId ("https://youtu.be/" ++ item.id) = .ok (some item.id) := by
    show (rt.url _).bind _ = _
    rw [hurl]
    show youtubeVideoId _ = _
    unfold youtubeVideoId
    dsimp only
    rw [if_pos (by decide)]
    show Except.ok (some (trim (String.ofList (("/" ++ item.id).toList.erase '/')))) = _
    rw [String.toList_append]
    show Except.ok (some (trim (String.ofList item.id.toList))) = _
    rw [String.ofList_toList, trim_id hid]
  refine ⟨isURL_plain "youtu.be" hrt (by decide) hid, ?_⟩
  unfold resolveLine getServiceAdapterForURL
  rw [show adapters rt config = [] ++ youtube rt :: _ from rfl,
    find_append (fun _ h => by cases h) hhandles]
  show ((youtube rt).getVideoId _).bind _ = _
  rw [hvideo, hservice]
  rfl

theorem vimeo_comes (hrt : UrlStandard rt) (hservice : item.service = .vimeo)
    (hne : item.id ≠ "") (hid : ∀ c ∈ item.id.toList, c.isDigit = true) :
    Comes rt config item ("https://vimeo.com/" ++ item.id) := by
  have hid' : ∀ c ∈ item.id.toList, isIdChar c = true := fun c hc => isIdChar_of_isDigit (hid c hc)
  have hurl : rt.url ("https://vimeo.com/" ++ item.id) =
      .ok ⟨"https:", "vimeo.com", "vimeo.com", "/" ++ item.id, []⟩ :=
    Runtime.url_eq_ok (hrt.plain "vimeo.com" (by decide) item.id hid')
  have hpath : ("/" ++ item.id).toList = '/' :: item.id.toList := by
    rw [String.toList_append]
    rfl
  have hyoutube : (youtube rt).canHandleURL ("https://vimeo.com/" ++ item.id) = .ok false := by
    show (rt.url _).bind _ = _
    rw [hurl]
    show Except.ok (youtubeCanHandle _) = _
    unfold youtubeCanHandle
    dsimp only
    rw [if_neg (by decide), if_neg (by decide)]
  have hhandles : (vimeo rt).canHandleURL ("https://vimeo.com/" ++ item.id) = .ok true := by
    have hregex : vimeoVideoPathRegex ("/" ++ item.id) = true := by
      have hdigits : item.id.toList ≠ [] := fun h => hne (String.toList_eq_nil_iff.mp h)
      unfold vimeoVideoPathRegex
      rw [hpath]
      simpa [hdigits] using hid
    show (rt.url _).bind _ = _
    rw [hurl]
    show Except.ok (_ && vimeoVideoPathRegex ("/" ++ item.id)) = _
    rw [hregex]
    rfl
  have hvideo : (vimeo rt).getVideoId ("https://vimeo.com/" ++ item.id) = .ok (some item.id) := by
    have hsegment : lastSegment ("/" ++ item.id) = item.id := by
      have hslash : '/' ∉ item.id.toList := fun h => (isIdChar_bounds (hid' _ h)).2.2 rfl
      unfold lastSegment split
      rw [hpath, List.splitOn_cons_eq_if_modifyHead, if_pos (by decide),
        List.splitOn_eq_singleton hslash]
      show trim (String.ofList item.id.toList) = _
      rw [String.ofList_toList, trim_id hid']
    show (rt.url _).bind _ = _
    rw [hurl]
    show Except.ok (some (lastSegment ("/" ++ item.id))) = _
    rw [hsegment]
  refine ⟨isURL_plain "vimeo.com" hrt (by decide) hid', ?_⟩
  unfold resolveLine getServiceAdapterForURL
  rw [show adapters rt config = [youtube rt] ++ vimeo rt :: _ from rfl,
    find_append (fun other h => List.mem_singleton.mp h ▸ hyoutube) hhandles]
  show ((vimeo rt).getVideoId _).bind _ = _
  rw [hvideo, hservice]
  rfl

end Plain

/-! ### Items -/

section Item

variable {item : QueueItem} {url : String}

/-- A link comes back as it is. -/
theorem link_comes_iff {adapter : Adapter} (hadapter : adapter ∈ linkAdapterOf rt item.service)
    {line : String} : Comes rt config item line ↔ line = item.id ∧ Comes rt config item item.id := by
  constructor
  · intro h
    obtain ⟨rfl, -, -⟩ := (resolveLine_link_iff hadapter).mp h.resolved
    exact ⟨rfl, h⟩
  · rintro ⟨rfl, h⟩
    exact h

theorem readsAs_iff {adapter : Adapter} (hadapter : adapter ∈ linkAdapterOf rt item.service) :
    ReadsAs rt config adapter item.id ↔
      '\n' ∉ item.id.toList ∧ Comes rt config item item.id := by
  constructor
  · rintro ⟨honeLine, hisURL, hunclaimed, hextension⟩
    exact ⟨honeLine, hisURL, (resolveLine_link_iff hadapter).mpr ⟨rfl, hunclaimed, hextension⟩⟩
  · rintro ⟨honeLine, hisURL, hresolved⟩
    obtain ⟨-, hunclaimed, hextension⟩ := (resolveLine_link_iff hadapter).mp hresolved
    exact ⟨honeLine, hisURL, hunclaimed, hextension⟩

/-- An item is exported as its link, or as one that comes back and has no white space in it. -/
theorem exported_cases (config : Config) (hrt : UrlStandard rt) (hproduced : Produced item)
    (hurl : buildUrlForQueueItem item = some url) :
    (∃ adapter ∈ linkAdapterOf rt item.service, url = item.id) ∨
      (linkAdapterOf rt item.service = none ∧ Comes rt config item url ∧
        ∀ c ∈ url.toList, isWhite c = false) := by
  unfold buildUrlForQueueItem at hurl
  unfold Produced at hproduced
  cases hservice : item.service <;> rw [hservice] at hurl hproduced <;> cases hurl
  case youtube =>
    refine .inr ⟨rfl, youtube_comes hrt hservice hproduced.1 hproduced.2, ?_⟩
    exact plain_not_isWhite "youtu.be" (by decide) hproduced.2
  case vimeo =>
    refine .inr ⟨rfl, vimeo_comes hrt hservice hproduced.1 hproduced.2, ?_⟩
    exact plain_not_isWhite "vimeo.com" (by decide)
      (fun c hc => isIdChar_of_isDigit (hproduced.2 c hc))
  case direct => exact .inl ⟨_, rfl, rfl⟩
  case hls =>
    refine .inl ⟨_, rfl, ?_⟩
    cases hlink : item.metadata.hlsUrl with
    | none => rfl
    | some link => exact hproduced link hlink
  case dash =>
    refine .inl ⟨_, rfl, ?_⟩
    cases hlink : item.metadata.dashUrl with
    | none => rfl
    | some link => exact hproduced link hlink

/-- A line that white space is trimmed off comes back if it is a link that has lost none. -/
theorem trimmed_comes_iff (config : Config) (hrt : UrlStandard rt) (hproduced : Produced item)
    (hurl : buildUrlForQueueItem item = some url) {trimmed : String → String}
    (htrimmed : ∀ line, (∀ c ∈ line.toList, isWhite c = false) → trimmed line = line) :
    Comes rt config item (trimmed url) ↔ ∀ adapter ∈ linkAdapterOf rt item.service,
      trimmed item.id = item.id ∧ Comes rt config item item.id := by
  rcases exported_cases config hrt hproduced hurl with
    ⟨adapter, hadapter, rfl⟩ | ⟨hnone, hcomes, hwhite⟩
  · rw [link_comes_iff hadapter]
    exact ⟨fun h _ _ => h, fun h => h adapter hadapter⟩
  · rw [htrimmed url hwhite]
    refine iff_of_true hcomes (fun adapter hadapter => ?_)
    rw [hnone] at hadapter
    cases hadapter

end Item

end Line

/-! ## A text of lines -/

section Text

variable {rt : Runtime} {config : Config} {text : String} {results : List Resolved}

theorem not_mem_of_mem_queryLines {line : String} (h : line ∈ queryLines text) :
    '\n' ∉ line.toList := by
  unfold queryLines at h
  split at h
  · obtain ⟨chars, hchars, rfl⟩ := List.mem_map.mp h
    rw [String.toList_ofList]
    exact Lines.not_mem_of_mem_splitOn hchars
  · next hnone =>
    cases List.mem_singleton.mp h
    exact hnone

/-- A link with a line break in it is not among the results. -/
theorem oneLine_of_resolved (h : resolveVideoQuery rt config text = .ok results)
    {service : VideoService} {id : String} (hmem : ⟨service, some id⟩ ∈ results) {adapter : Adapter}
    (hadapter : adapter ∈ linkAdapterOf rt service) : '\n' ∉ id.toList := by
  have hmap := Lines.mapM_eq_ok_iff.mp h
  have hresolved : Except.ok ⟨service, some id⟩ ∈
      ((queryLines text).filter (isURL rt)).map (resolveLine rt config) := by
    rw [hmap]
    exact List.mem_map_of_mem hmem
  obtain ⟨line, hline, heq⟩ := List.mem_map.mp hresolved
  obtain ⟨rfl, -, -⟩ := (resolveLine_link_iff hadapter).mp heq
  exact not_mem_of_mem_queryLines (List.mem_filter.mp hline).1

def trimStart (line : String) : String := String.ofList (line.toList.dropWhile isWhite)

def trimEnd (line : String) : String := String.ofList (line.toList.rdropWhile isWhite)

theorem queryLines_singleton {line : String} (hfree : '\n' ∉ line.toList) :
    queryLines (String.intercalate "\n" [line]) = [line] := by
  rw [String.intercalate_singleton]
  exact if_neg hfree

section Several

variable {first last : String} {inner : List String}

theorem toList_intercalate_several :
    (String.intercalate "\n" (first :: (inner ++ [last]))).toList =
      ['\n'].intercalate (first.toList :: (inner.map String.toList ++ [last.toList])) := by
  rw [String.toList_intercalate, List.map_cons, List.map_append]
  rfl

theorem queryLines_several :
    queryLines (String.intercalate "\n" (first :: (inner ++ [last]))) =
      ((Lines.trim isWhite (['\n'].intercalate
        (first.toList :: (inner.map String.toList ++ [last.toList])))).splitOn '\n').map
          String.ofList := by
  have hseveral : '\n' ∈ (String.intercalate "\n" (first :: (inner ++ [last]))).toList := by
    rw [toList_intercalate_several, Lines.intercalate_first]
    exact List.mem_append_right _ List.mem_cons_self
  unfold queryLines
  rw [if_pos hseveral]
  unfold split trim
  rw [String.toList_ofList, toList_intercalate_several]

/-- What the lines of a text are trimmed to. -/
theorem map_trimmed :
    (first.toList.dropWhile isWhite ::
      (inner.map String.toList ++ [last.toList.rdropWhile isWhite])).map String.ofList =
        trimStart first :: (inner ++ [trimEnd last]) := by
  rw [List.map_cons, List.map_append, List.map_map]
  have hid : String.ofList ∘ String.toList = id := funext fun _ => String.ofList_toList
  rw [hid, List.map_id]
  rfl

theorem isURL_not_blank (hrt : UrlStandard rt) {chars : List Char}
    (h : isURL rt (String.ofList chars) = true) : chars ≠ [] := by
  rintro rfl
  unfold isURL at h
  rw [show String.ofList [] = "" from rfl, hrt.empty] at h
  cases h

/-- Several lines, each without a line break. -/
theorem resolveVideoQuery_several_iff (hrt : UrlStandard rt)
    (hfree : ∀ line ∈ first :: (inner ++ [last]), '\n' ∉ line.toList)
    (hlength : results.length = (first :: (inner ++ [last])).length) :
    resolveVideoQuery rt config (String.intercalate "\n" (first :: (inner ++ [last]))) =
        .ok results ↔
      (∀ line ∈ trimStart first :: (inner ++ [trimEnd last]), isURL rt line = true) ∧
        (trimStart first :: (inner ++ [trimEnd last])).map (resolveLine rt config) =
          results.map .ok := by
  have hfree' : ∀ l ∈ first.toList :: (inner.map String.toList ++ [last.toList]), '\n' ∉ l := by
    intro l hl
    obtain ⟨line, hline, rfl⟩ : ∃ line ∈ first :: (inner ++ [last]), line.toList = l := by
      simpa [eq_comm] using hl
    exact hfree line hline
  have hlength' : (trimStart first :: (inner ++ [trimEnd last])).length = results.length := by
    rw [hlength]
    simp
  constructor
  · intro h
    have hlines : queryLines (String.intercalate "\n" (first :: (inner ++ [last]))) =
        trimStart first :: (inner ++ [trimEnd last]) := by
      -- as many results as lines, so that no line was lost
      have hresults := congrArg List.length (Lines.mapM_eq_ok_iff.mp h)
      have hfilter := List.length_filter_le (isURL rt)
        (queryLines (String.intercalate "\n" (first :: (inner ++ [last]))))
      have hle := Lines.length_splitOn_trim_le '\n' isWhite
        (['\n'].intercalate (first.toList :: (inner.map String.toList ++ [last.toList])))
      rw [List.length_map, List.length_map, hlength] at hresults
      rw [queryLines_several] at hresults hfilter ⊢
      rw [List.splitOn_intercalate '\n' hfree' (by simp)] at hle
      rw [List.length_map] at hfilter
      have hall : (first.toList :: (inner.map String.toList ++ [last.toList])).length =
          (first :: (inner ++ [last])).length := by simp
      rw [Lines.splitOn_trim_intercalate_of_length (by decide) hfree' (by omega), map_trimmed]
    unfold resolveVideoQuery at h
    rw [hlines] at h
    exact (Lines.mapM_filter_eq_ok_iff hlength').mp h
  · rintro ⟨hurls, hmap⟩
    have hfirst : ¬ ∀ c ∈ first.toList, isWhite c = true := by
      intro hblank
      refine isURL_not_blank hrt (hurls _ List.mem_cons_self) ?_
      exact List.dropWhile_eq_nil_iff.mpr hblank
    have hlast : ¬ ∀ c ∈ last.toList, isWhite c = true := by
      intro hblank
      refine isURL_not_blank hrt (hurls _ (List.mem_cons_of_mem _
        (List.mem_append_right _ List.mem_cons_self))) ?_
      exact List.rdropWhile_eq_nil_iff.mpr hblank
    have hlines : queryLines (String.intercalate "\n" (first :: (inner ++ [last]))) =
        trimStart first :: (inner ++ [trimEnd last]) := by
      rw [queryLines_several, Lines.splitOn_trim_intercalate hfree' hfirst hlast, map_trimmed]
    unfold resolveVideoQuery
    rw [hlines]
    exact (Lines.mapM_filter_eq_ok_iff hlength').mpr ⟨hurls, hmap⟩

end Several

end Text

/-! ## A queue -/

section Queue

variable {rt : Runtime} {config : Config} {queue : List QueueItem} {text : String}

/-- The line of an item that can be exported. -/
def url (item : QueueItem) : String := (buildUrlForQueueItem item).getD ""

theorem mapM_buildUrl {urls : List String} (h : queue.mapM buildUrlForQueueItem = some urls) :
    urls = queue.map url ∧ ∀ item ∈ queue, buildUrlForQueueItem item = some (url item) := by
  induction queue generalizing urls with
  | nil =>
    cases h
    exact ⟨rfl, fun _ h => by cases h⟩
  | cons item queue ih =>
    rw [List.mapM_cons] at h
    cases hitem : buildUrlForQueueItem item with
    | none =>
      rw [hitem] at h
      cases h
    | some line =>
      cases hqueue : queue.mapM buildUrlForQueueItem with
      | none =>
        rw [hitem, hqueue] at h
        cases h
      | some lines =>
        rw [hitem, hqueue] at h
        cases h
        obtain ⟨rfl, hlines⟩ := ih hqueue
        have hline : line = url item := by
          unfold url
          rw [hitem]
          rfl
        exact ⟨by rw [List.map_cons, hline], List.forall_mem_cons.mpr ⟨hline ▸ hitem, hlines⟩⟩

theorem exportQueue_eq_some (h : exportQueue queue = some text) :
    text = String.intercalate "\n" (queue.map url) ∧
      ∀ item ∈ queue, buildUrlForQueueItem item = some (url item) := by
  obtain ⟨urls, hurls, rfl⟩ := Option.map_eq_some_iff.mp h
  obtain ⟨rfl, hlines⟩ := mapM_buildUrl hurls
  exact ⟨rfl, hlines⟩

/-- What the lines are, read one by one. -/
theorem forall₂_comes_iff {lines : List String} :
    (∀ line ∈ lines, isURL rt line = true) ∧ lines.map (resolveLine rt config) =
        (queue.map (fun item => Resolved.mk item.service (some item.id))).map .ok ↔
      List.Forall₂ (Comes rt config) queue lines := by
  induction queue generalizing lines with
  | nil => cases lines <;> simp
  | cons item queue ih =>
    cases lines with
    | nil => simp
    | cons line lines =>
      rw [List.forall₂_cons, ← ih, List.forall_mem_cons, List.map_cons, List.map_cons, List.map_cons,
        List.cons.injEq]
      constructor
      · rintro ⟨⟨hurl, hurls⟩, hline, hlines⟩
        exact ⟨⟨hurl, hline⟩, hurls, hlines⟩
      · rintro ⟨⟨hurl, hline⟩, hurls, hlines⟩
        exact ⟨⟨hurl, hurls⟩, hline, hlines⟩

theorem forall₂_several_iff {R : QueueItem → String → Prop} {inner : List QueueItem}
    {last : QueueItem} {line : String} :
    List.Forall₂ R (inner ++ [last]) (inner.map url ++ [line]) ↔
      (∀ item ∈ inner, R item (url item)) ∧ R last line := by
  induction inner with
  | nil => simp
  | cons item inner ih => simp [ih, and_assoc]

/-- No line has a line break in it, whether the queue comes back or is readable. -/
theorem oneLine_of_item (config : Config) (hrt : UrlStandard rt) {item : QueueItem} (hproduced : Produced item)
    (hurl : buildUrlForQueueItem item = some (url item))
    (hlink : ∀ adapter ∈ linkAdapterOf rt item.service, '\n' ∉ item.id.toList) :
    '\n' ∉ (url item).toList := by
  rcases exported_cases config hrt hproduced hurl with
    ⟨adapter, hadapter, heq⟩ | ⟨-, -, hwhite⟩
  · rw [heq]
    exact hlink adapter hadapter
  · intro hmem
    exact absurd (hwhite _ hmem) (by decide)

theorem trimStart_eq_self_iff {line : String} :
    trimStart line = line ↔ ∀ c ∈ line.toList.head?, isWhite c = false := by
  unfold trimStart
  rw [← String.toList_inj, String.toList_ofList]
  cases line.toList with
  | nil => simp
  | cons c chars =>
    rw [List.dropWhile_eq_self_iff]
    simp

theorem trimEnd_eq_self_iff {line : String} :
    trimEnd line = line ↔ ∀ c ∈ line.toList.getLast?, isWhite c = false := by
  unfold trimEnd
  rw [← String.toList_inj, String.toList_ofList, List.rdropWhile_eq_self_iff]
  constructor
  · intro h c hc
    obtain ⟨hne, rfl⟩ := List.mem_getLast?_eq_getLast hc
    simpa using h hne
  · intro h hne
    simpa using h _ (List.getLast?_eq_some_getLast hne)

/-- A line in the middle comes back if it is a link that does. -/
theorem url_comes_iff (hrt : UrlStandard rt) {item : QueueItem} (hproduced : Produced item)
    (hurl : buildUrlForQueueItem item = some (url item)) :
    Comes rt config item (url item) ↔
      ∀ adapter ∈ linkAdapterOf rt item.service, Comes rt config item item.id := by
  have h := trimmed_comes_iff config hrt hproduced hurl (fun line _ => (rfl : id line = line))
  simpa using h

theorem trimStart_eq_self {line : String} (h : ∀ c ∈ line.toList, isWhite c = false) :
    trimStart line = line :=
  trimStart_eq_self_iff.mpr (fun c hc => h c (List.mem_of_mem_head? hc))

theorem trimEnd_eq_self {line : String} (h : ∀ c ∈ line.toList, isWhite c = false) :
    trimEnd line = line :=
  trimEnd_eq_self_iff.mpr (fun c hc => h c (List.mem_of_getLast? hc))

/-! ### Queues of any length -/

theorem resolveVideoQuery_empty (hrt : UrlStandard rt) : resolveVideoQuery rt config "" = .ok [] := by
  have hnone : isURL rt "" = false := by
    unfold isURL
    rw [hrt.empty]
    rfl
  unfold resolveVideoQuery
  rw [show queryLines "" = [""] from rfl, List.filter_cons_of_neg (by simp [hnone])]
  rfl

theorem resolves_singleton_iff {item : QueueItem} (hfree : '\n' ∉ (url item).toList) :
    resolveVideoQuery rt config (String.intercalate "\n" ([item].map url)) =
        .ok ([item].map (fun item => ⟨item.service, some item.id⟩)) ↔
      Comes rt config item (url item) := by
  unfold resolveVideoQuery
  rw [List.map_singleton, queryLines_singleton hfree, Lines.mapM_filter_eq_ok_iff (by simp),
    forall₂_comes_iff]
  simp

theorem resolves_several_iff (hrt : UrlStandard rt) {first last : QueueItem} {inner : List QueueItem}
    (hfree : ∀ item ∈ first :: (inner ++ [last]), '\n' ∉ (url item).toList) :
    resolveVideoQuery rt config
        (String.intercalate "\n" ((first :: (inner ++ [last])).map url)) =
          .ok ((first :: (inner ++ [last])).map (fun item => ⟨item.service, some item.id⟩)) ↔
      Comes rt config first (trimStart (url first)) ∧
        (∀ item ∈ inner, Comes rt config item (url item)) ∧
          Comes rt config last (trimEnd (url last)) := by
  have hfree' : ∀ line ∈ url first :: (inner.map url ++ [url last]), '\n' ∉ line.toList := by
    intro line hline
    obtain ⟨item, hitem, rfl⟩ : ∃ item ∈ first :: (inner ++ [last]), url item = line := by
      simpa [eq_comm] using hline
    exact hfree item hitem
  rw [List.map_cons (f := url), List.map_append (f := url), List.map_singleton (f := url),
    resolveVideoQuery_several_iff hrt hfree' (by simp), forall₂_comes_iff, List.forall₂_cons,
    forall₂_several_iff]

/-- The condition, on links that are one line each. -/
theorem readable_iff
    (honeLine : ∀ item ∈ queue, ∀ adapter ∈ linkAdapterOf rt item.service, '\n' ∉ item.id.toList) :
    Readable rt config queue ↔
      (∀ item ∈ queue, ∀ adapter ∈ linkAdapterOf rt item.service, Comes rt config item item.id) ∧
        (2 ≤ queue.length → ∀ item ∈ queue.head?, ∀ _ ∈ linkAdapterOf rt item.service,
          trimStart item.id = item.id) ∧
          (2 ≤ queue.length → ∀ item ∈ queue.getLast?, ∀ _ ∈ linkAdapterOf rt item.service,
            trimEnd item.id = item.id) := by
  simp only [trimStart_eq_self_iff, trimEnd_eq_self_iff]
  constructor
  · rintro ⟨hlinks, hfirst, hlast⟩
    refine ⟨?_, hfirst, hlast⟩
    intro item hitem adapter hadapter
    exact ((readsAs_iff hadapter).mp (hlinks item hitem adapter hadapter)).2
  · rintro ⟨hcomes, hfirst, hlast⟩
    refine ⟨?_, hfirst, hlast⟩
    intro item hitem adapter hadapter
    exact (readsAs_iff hadapter).mpr
      ⟨honeLine item hitem adapter hadapter, hcomes item hitem adapter hadapter⟩

/-- **A queue whose links are one line each.** -/
theorem resolves_iff (hrt : UrlStandard rt) (hproduced : ∀ item ∈ queue, Produced item)
    (hurls : ∀ item ∈ queue, buildUrlForQueueItem item = some (url item))
    (honeLine : ∀ item ∈ queue, ∀ adapter ∈ linkAdapterOf rt item.service, '\n' ∉ item.id.toList) :
    resolveVideoQuery rt config (String.intercalate "\n" (queue.map url)) =
        .ok (queue.map (fun item => ⟨item.service, some item.id⟩)) ↔
      Readable rt config queue := by
  have hfree : ∀ item ∈ queue, '\n' ∉ (url item).toList := fun item hitem =>
    oneLine_of_item config hrt (hproduced item hitem) (hurls item hitem) (honeLine item hitem)
  have hcomes : ∀ item ∈ queue, Comes rt config item (url item) ↔
      ∀ adapter ∈ linkAdapterOf rt item.service, Comes rt config item item.id := fun item hitem =>
    url_comes_iff hrt (hproduced item hitem) (hurls item hitem)
  rw [readable_iff honeLine]
  rcases queue with - | ⟨first, - | ⟨second, rest⟩⟩
  · refine iff_of_true (resolveVideoQuery_empty hrt) ⟨?_, by simp, by simp⟩
    intro item hitem
    cases hitem
  · rw [resolves_singleton_iff (hfree first List.mem_cons_self), hcomes first List.mem_cons_self]
    simp
  · obtain ⟨inner, last, hinner⟩ : ∃ inner last, second :: rest = inner ++ [last] :=
      (List.eq_nil_or_concat' _).resolve_left (List.cons_ne_nil _ _)
    rw [hinner] at hproduced hurls hfree hcomes ⊢
    have hfirst : first ∈ first :: (inner ++ [last]) := List.mem_cons_self
    have hlast : last ∈ first :: (inner ++ [last]) :=
      List.mem_cons_of_mem _ (List.mem_append_right _ List.mem_cons_self)
    have hseveral : 2 ≤ (first :: (inner ++ [last])).length := by simp
    have hend : (first :: (inner ++ [last])).getLast? = some last := by
      rw [← List.cons_append, List.getLast?_concat]
    rw [resolves_several_iff hrt hfree, trimmed_comes_iff config hrt (hproduced first hfirst)
      (hurls first hfirst) (fun _ => trimStart_eq_self), trimmed_comes_iff config hrt
      (hproduced last hlast) (hurls last hlast) (fun _ => trimEnd_eq_self)]
    constructor
    · rintro ⟨hstart, hmiddle, hstop⟩
      refine ⟨?_, ?_, ?_⟩
      · intro item hitem
        rcases List.mem_cons.mp hitem with rfl | hitem'
        · exact fun adapter hadapter => (hstart adapter hadapter).2
        rcases List.mem_append.mp hitem' with hmem | hmem
        · exact (hcomes item hitem).mp (hmiddle item hmem)
        · cases List.mem_singleton.mp hmem
          exact fun adapter hadapter => (hstop adapter hadapter).2
      · intro _ item hitem adapter hadapter
        cases hitem
        exact (hstart adapter hadapter).1
      · intro _ item hitem adapter hadapter
        cases hend.symm.trans hitem
        exact (hstop adapter hadapter).1
    · rintro ⟨hall, hstart, hstop⟩
      refine ⟨?_, ?_, ?_⟩
      · intro adapter hadapter
        exact ⟨hstart hseveral first rfl adapter hadapter, hall first hfirst adapter hadapter⟩
      · intro item hmem
        have hitem := List.mem_cons_of_mem first (List.mem_append_left [last] hmem)
        exact (hcomes item hitem).mpr (hall item hitem)
      · intro adapter hadapter
        exact ⟨hstop hseveral last hend adapter hadapter, hall last hlast adapter hadapter⟩

/-- **Exactly which queues come back.** -/
theorem importsBack_iff (hrt : UrlStandard rt) (hproduced : ∀ item ∈ queue, Produced item)
    (hexport : (exportQueue queue).isSome) :
    ImportsBack rt config queue ↔ Readable rt config queue := by
  obtain ⟨text, htext⟩ := Option.isSome_iff_exists.mp hexport
  obtain ⟨rfl, hurls⟩ := exportQueue_eq_some htext
  constructor
  · intro h
    have hresolved := h _ htext
    refine (resolves_iff hrt hproduced hurls ?_).mp hresolved
    intro item hitem adapter hadapter
    exact oneLine_of_resolved hresolved (List.mem_map_of_mem hitem) hadapter
  · intro h text' htext'
    cases htext.symm.trans htext'
    refine (resolves_iff hrt hproduced hurls ?_).mpr h
    intro item hitem adapter hadapter
    exact (h.links item hitem adapter hadapter).oneLine

end Queue

/-! ## Links without anything special in them -/

/-- `https://host/path?key=value&…`. -/
def plainUrl (text : String) : Option Url :=
  if text.toList.take 8 = "https://".toList then
    let rest := text.toList.drop 8
    let host := String.ofList (rest.takeWhile (fun c => c ≠ '/'))
    let path := rest.dropWhile (fun c => c ≠ '/')
    let query := String.ofList ((path.dropWhile (fun c => c ≠ '?')).drop 1)
    some
      { protocol := "https:"
        host := host
        hostname := host
        pathname := String.ofList (path.takeWhile (fun c => c ≠ '?'))
        searchParams := ((split query '&').filter (· ≠ "")).map (fun pair =>
          ((split pair '=').headD "", ((split pair '=')[1]?).getD "")) }
  else none

/-- The runtime, on such links. -/
def plainRuntime : Runtime where
  newURL input _ := plainUrl input
  setPathname url path := { url with pathname := path }
  parsePath link :=
    (plainUrl link).map (fun _ =>
      some (String.ofList ((link.toList.drop 8).dropWhile (fun c => c ≠ '/'))))
  normalize := id

theorem urlStandard_plainRuntime : UrlStandard plainRuntime where
  empty := rfl
  plain := by
    intro host hhost id hid
    have htext : ("https://" ++ host ++ "/" ++ id).toList =
        "https://".toList ++ (host.toList ++ '/' :: id.toList) := by simp
    have hslash : ∀ host ∈ ["youtu.be", "vimeo.com"],
        host.toList.all (fun c => decide (c ≠ '/')) = true := by decide
    have hslash' := List.all_eq_true.mp (hslash host hhost)
    have hquery : ∀ c ∈ '/' :: id.toList, decide (c ≠ '?') = true := by
      intro c hc
      rcases List.mem_cons.mp hc with rfl | hc
      · rfl
      · refine decide_eq_true ?_
        rintro rfl
        exact absurd (hid '?' hc) (by decide)
    have htake : (host.toList ++ '/' :: id.toList).takeWhile (fun c => c ≠ '/') = host.toList := by
      rw [List.takeWhile_append_of_pos hslash', List.takeWhile_cons_of_neg (by decide),
        List.append_nil]
    have hdrop : (host.toList ++ '/' :: id.toList).dropWhile (fun c => c ≠ '/') = '/' :: id.toList := by
      rw [List.dropWhile_append_of_pos hslash', List.dropWhile_cons_of_neg (by decide)]
    have hpath : String.ofList ('/' :: id.toList) = "/" ++ id := by
      rw [← String.toList_inj, String.toList_ofList, String.toList_append]
      rfl
    have hscheme : ("https://".toList ++ (host.toList ++ '/' :: id.toList)).take 8 =
        "https://".toList := rfl
    have hrest : ("https://".toList ++ (host.toList ++ '/' :: id.toList)).drop 8 =
        host.toList ++ '/' :: id.toList := rfl
    show plainUrl _ = _
    unfold plainUrl
    rw [htext, if_pos hscheme]
    dsimp only
    rw [hrest, htake, hdrop, List.takeWhile_eq_self_iff.mpr hquery,
      List.dropWhile_eq_nil_iff.mpr hquery, hpath, String.ofList_toList]
    rfl

/-- A link to Tubi has its domain in it. -/
theorem domain_of_tubiUrlRegex {link : String} (h : tubiUrlRegex link = true) :
    "tubitv.com".toList <:+: link.toList := by
  unfold tubiUrlRegex at h
  obtain ⟨text, htext, hbehind⟩ := List.any_eq_true.mp h
  obtain ⟨rest, hrest, -⟩ := List.any_eq_true.mp hbehind
  obtain ⟨l, hl, hbehind⟩ := List.mem_filterMap.mp hrest
  have hdomains : ∀ host ∈ webHosts "tubitv.com", "tubitv.com".toList <:+: host.toList := by
    decide +kernel
  obtain ⟨host, hhost, hkind⟩ := List.mem_flatMap.mp hl
  obtain ⟨kind, -, rfl⟩ := List.mem_map.mp hkind
  split at hbehind
  · next hprefix =>
    have hhostPrefix : host.toList <+: text := by
      refine List.IsPrefix.trans ?_ (List.isPrefixOf_iff_prefix.mp hprefix)
      rw [String.toList_append]
      exact List.prefix_append _ _
    have hsuffix : text <:+ link.toList := (List.mem_tails _ _).mp htext
    exact ((hdomains host hhost).trans hhostPrefix.isInfix).trans hsuffix.isInfix
  · cases hbehind

/-- A video of each kind that comes back. -/
theorem importsBack_iff_restored : ImportsBack plainRuntime ⟨["framatube.org"], ["yewtu.be"]⟩
    [QueueItem.ofVideoId ⟨.youtube, "dQw4w9WgXcQ"⟩, QueueItem.ofVideoId ⟨.vimeo, "76979871"⟩,
      QueueItem.ofVideoId ⟨.direct, "https://example.com/video.mp4"⟩] := by
  have hlink : ReadsAs plainRuntime ⟨["framatube.org"], ["yewtu.be"]⟩ (direct plainRuntime)
      "https://example.com/video.mp4" := by
    refine ⟨by decide, by decide, ?_, by decide +kernel⟩
    have htubi : tubiUrlRegex "https://example.com/video.mp4" = false := by
      rw [← Bool.not_eq_true]
      exact fun hmatch => absurd (domain_of_tubiUrlRegex hmatch) (by decide +kernel)
    intro other hother
    simp only [before, List.mem_cons, List.not_mem_nil, or_false] at hother
    rcases hother with rfl | rfl | rfl | rfl | rfl | rfl
    case inr.inr.inr.inr.inl => exact congrArg Except.ok htubi
    all_goals decide +kernel
  refine (importsBack_iff urlStandard_plainRuntime ?_ rfl).mpr ⟨?_, ?_, ?_⟩
  · simp only [List.forall_mem_cons]
    exact ⟨⟨by decide, List.all_eq_true.mp (by decide)⟩, ⟨by decide, List.all_eq_true.mp (by decide)⟩,
      trivial, fun _ h => (by cases h)⟩
  · simp only [List.forall_mem_cons]
    refine ⟨fun _ h => (by cases h), fun _ h => (by cases h), ?_, fun _ h => (by cases h)⟩
    intro adapter hadapter
    cases hadapter
    exact hlink
  · intro _ item hitem adapter hadapter
    cases hitem
    cases hadapter
  · intro _ item hitem _ _ c hc
    cases hitem
    cases hc
    decide

/-- The manifest that Invidious gives out for a video, from `manifestUrl`. -/
def invidiousItem : QueueItem :=
  let url := "https://yewtu.be/api/manifest/hls/id/dQw4w9WgXcQ?local=1&source=youtube"
  { QueueItem.ofVideoId ⟨.hls, url⟩ with
    metadata := { VideoMetadata.none with hlsUrl := some url } }

/-- **No adapter takes it back.** -/
theorem not_importsBack : ¬ ∀ queue : List QueueItem, (∀ item ∈ queue, Produced item) →
    (exportQueue queue).isSome →
      ImportsBack plainRuntime ⟨["framatube.org"], ["yewtu.be"]⟩ queue := by
  intro h
  have hproduced : ∀ item ∈ [invidiousItem], Produced item := by
    intro item hitem
    cases List.mem_singleton.mp hitem
    intro url hurl
    exact (Option.some.inj hurl).symm
  have himport := h [invidiousItem] hproduced rfl invidiousItem.id rfl
  have hlines : (queryLines invidiousItem.id).filter (isURL plainRuntime) = [invidiousItem.id] := by
    decide +kernel
  unfold resolveVideoQuery at himport
  rw [hlines, List.mapM_cons, List.mapM_nil] at himport
  cases hline : resolveLine plainRuntime ⟨["framatube.org"], ["yewtu.be"]⟩ invidiousItem.id with
  | error failure =>
    rw [hline] at himport
    cases himport
  | ok resolved =>
    rw [hline] at himport
    cases himport
    -- the path of a manifest has no extension
    have hhls : hls plainRuntime ∈ linkAdapterOf plainRuntime .hls := rfl
    have hhandles := ((resolveLine_link_iff hhls).mp hline).2.2
    exact absurd hhandles (by decide +kernel)

end OpenTogetherTube.Server.QueueImport
