import OpenTogetherTube.Lib.Neighbours
import OpenTogetherTube.Server.Adapters
import Mathlib.Data.List.Infix

/-!
# Collections and videos

A link that an adapter can handle is one to a collection, such as a playlist, or one to a video. What
it is shows in the segments of its path, and for YouTube in the parameter `list`; and where it is a
video, they name its id (`Faithful`).

Reddit, Tubi and Pluto look for words in the whole link instead, queries and all. Reddit looks for the
id there as well, Pluto reads no further than small letters and digits go, and YouTube takes an id as
it comes. `Careful` says for which links none of this matters.
-/

namespace OpenTogetherTube.Server.LinkClasses

open OpenTogetherTube.Common OpenTogetherTube.Lib Adapters Neighbours

/-- The services with collections that are told by their links. -/
inductive Service where
  | youtube
  | reddit
  | tubi
  | pluto
  deriving DecidableEq, Repr

/-! ## The code -/

section Code

variable (rt : Runtime)

def adapter : Service → Adapter
  | .youtube => youtube rt
  | .reddit => reddit rt
  | .tubi => tubi rt
  | .pluto => pluto rt

/-- `text.includes(part)`. -/
def includes (text part : String) : Bool := part.toList <:+: text.toList

def knownPrivateLists : List String := ["LL", "WL"]

/-- `!!qList && !knownPrivateLists.includes(qList)`. -/
def publicList (url : Url) : Bool :=
  (url.get "list").any (fun qList => qList ≠ "" && !knownPrivateLists.contains qList)

def youtubeIsCollection (url : Url) : Bool :=
  startsWith url.pathname "/channel/" || startsWith url.pathname "/c/" ||
    startsWith url.pathname "/user/" || startsWith url.pathname "/playlist" ||
    startsWith url.pathname "/@" || publicList url

def isCollectionURL : Service → String → Except Failure Bool
  | .youtube, link => do
    let url ← rt.url link
    return youtubeIsCollection url
  | .reddit, link => .ok (!includes link "comments")
  | .tubi, link => .ok (includes link "series")
  | .pluto, link => .ok (!includes link "episode" && !includes link "movies")

end Code

/-! ## The specification -/

/-- The pieces of the path, behind each slash. -/
def segments (url : Url) : List String := (split url.pathname '/').tail

/-- What is behind the first segment of this name. -/
def after (word : String) (segments : List String) : Option String :=
  match segments.dropWhile (· ≠ word) with
  | _ :: id :: _ => if id = "" then none else some id
  | _ => none

def isShort (url : Url) : Bool := endsWith url.host "youtu.be"

/-- The id in `/movies/id` and in `/oz/videos/id`. -/
def tubiVideo : List String → Option String
  | [] => none
  | kind :: rest =>
    if kind ∈ ["tv-shows", "movies", "video"] then rest[0]?
    else if kind = "oz" ∧ rest[0]? = some "videos" then rest[1]?
    else none

/-- The type, the id and the episode in `/en/on-demand/type/id/season/1/episode/episode`. -/
def plutoParts : List String → Option (String × String × Option String)
  | country :: onDemand :: type :: id :: rest =>
    if country.length = 2 ∧ onDemand = "on-demand" ∧ type ∈ ["movies", "series"] ∧ id ≠ "" then
      some (type, id, after "episode" rest)
    else none
  | _ => none

def plutoId (type id : String) (episode : Option String) : String :=
  type ++ "/" ++ id ++ (episode.map ("/" ++ ·)).getD ""

/-- Whether the path, or a public list, is that of a collection. The path of a short link is that of a
video. -/
def collects : Service → Url → Bool
  | .youtube, url =>
    publicList url || (!isShort url && (segments url).head?.any (fun first =>
      ["channel", "c", "user", "playlist"].contains first || startsWith first "@"))
  | .reddit, url => (after "comments" (segments url)).isNone
  | .tubi, url => (segments url).head? = some "series"
  | .pluto, url => (plutoParts (segments url)).any (fun p => p.1 = "series" && p.2.2.isNone)

/-- The id that the path, or the parameter `v`, names. -/
def names : Service → Url → Option String
  | .youtube, url =>
    if isShort url then (segments url).head?.map trim
    else if (segments url).head?.any (["shorts", "live", "video"].contains ·) then (segments url)[1]?
    else (url.get "v").map trim
  | .reddit, url => after "comments" (segments url)
  | .tubi, url => tubiVideo (segments url)
  | .pluto, url => (plutoParts (segments url)).map (fun p => plutoId p.1 p.2.1 p.2.2)

/-- Something, and neither a query nor another segment. -/
structure Clean (part : String) : Prop where
  nonempty : part ≠ ""
  slash : '/' ∉ part.toList
  query : '?' ∉ part.toList

def Proper : Service → String → Prop
  | .pluto, id => ∃ type part, ∃ episode : Option String, type ∈ ["movies", "series"] ∧ Clean part ∧
    (∀ e ∈ episode, Clean e) ∧ id = plutoId type part episode
  | _, id => Clean id

section Specification

variable (rt : Runtime)

/-- **The purpose**: a link is taken for a collection exactly if its path is one; and the id of any
other link is the one that the path names, if there is no error. -/
structure Faithful (service : Service) (link : String) (url : Url) : Prop where
  collection : isCollectionURL rt service link = .ok (collects service url)
  video : isCollectionURL rt service link = .ok false →
    ∀ id, (adapter rt service).getVideoId link = .ok id →
      ∃ video, id = some video ∧ names service url = some video ∧ Proper service video

end Specification

/-! ## The condition -/

def isSlugChar (c : Char) : Bool := c.isLower || c.isDigit

/-- The small letters and digits that a segment begins with, if there are any. -/
def slug (segment : String) : Option String :=
  let slug := segment.toList.takeWhile isSlugChar
  if slug = [] then none else some (String.ofList slug)

/-- The first segment of a kind that has letters or digits behind it, and they. -/
def firstSlug (kind : String → Bool) (pieces : List String) : Option (String × String) :=
  (neighbours pieces).findSome? (fun ab => if kind ab.1 then (slug ab.2).map (ab.1, ·) else none)

def IsBlank (text : String) : Prop := ∀ c ∈ text.toList, isWhite c = true

/-- A short link has one segment, which does not look like a channel or a playlist. On the site, `v` is
an id, a playlist is called so, and there is something behind `shorts`, `live` and `video`. -/
def YoutubeCareful (url : Url) : Prop :=
  publicList url = true ∨
    if isShort url then
      ∃ id, segments url = [id] ∧ ¬ IsBlank id ∧ startsWith id "@" = false ∧
        startsWith id "playlist" = false
    else
      ∀ first rest, segments url = first :: rest →
        (startsWith first "watch" = true → ∀ v ∈ url.get "v",
          ¬ IsBlank v ∧ '/' ∉ v.toList ∧ '?' ∉ v.toList) ∧
        (startsWith first "playlist" = true → first = "playlist") ∧
        (first ∈ ["shorts", "live", "video"] → rest.head? ≠ some "")

/-- The link of a collection does not have the word in it. That of a post has the id as a part of its
own, behind the first part `comments`; or it begins with the id, where no part is the word. -/
def RedditCareful (link : String) (url : Url) : Prop :=
  match after "comments" (segments url) with
  | none => includes link "comments" = false
  | some id => includes link "comments" = true ∧
    ((∃ front back, split link '/' = front ++ "comments" :: id :: back ∧ "comments" ∉ front) ∨
      ("comments" ∉ split link '/' ∧ (split link '/').head? = some id))

/-- The word is in the link exactly if it is the first segment; and there is something where the id is
read. -/
def TubiCareful (link : String) (url : Url) : Prop :=
  (includes link "series" = true ↔ (segments url).head? = some "series") ∧
    ∀ first rest, segments url = first :: rest →
      (first ∈ ["tv-shows", "movies"] → ∃ id, rest[0]? = some id ∧ id ≠ "") ∧
      (first = "oz" → rest[0]? = some "videos" ∧ ∃ id, rest[1]? = some id ∧ id ≠ "")

/-- One of the words is in the link exactly if the path is one of a video. The ids consist of small
letters and digits, and there is no other segment that ends in `episode` with some behind it. Where
there are none behind `movies` and `series`, there is an error. -/
def PlutoCareful (link : String) (url : Url) : Prop :=
  ((includes link "episode" = true ∨ includes link "movies" = true) ↔ collects .pluto url = false) ∧
    (collects .pluto url = false →
      firstSlug (["movies", "series"].contains ·) (segments url) = none ∨
        ∃ type id episode, plutoParts (segments url) = some (type, id, episode) ∧
          slug id = some id ∧
          (firstSlug (endsWith · "episode") (split url.pathname '/')).map (·.2) = episode)

/-- **The condition**, on the link and its URL. -/
def Careful : Service → String → Url → Prop
  | .youtube, _, url => YoutubeCareful url
  | .reddit, link, url => RedditCareful link url
  | .tubi, link, url => TubiCareful link url
  | .pluto, link, url => PlutoCareful link url

/-- What is taken from the standard: a path does not have what is behind it, and it begins with a slash
where there is a host. -/
structure UrlStandard (rt : Runtime) : Prop where
  path : ∀ {input base url}, rt.newURL input base = some url →
    '?' ∉ url.pathname.toList ∧ '#' ∉ url.pathname.toList
  rooted : ∀ {input base url}, rt.newURL input base = some url → url.host ≠ "" →
    url.pathname = "" ∨ url.pathname.toList.head? = some '/'

/-! ## Texts -/

theorem eq_of_utf8EncodeChar {a c : Char} {s t : List UInt8}
    (h : String.utf8EncodeChar a ++ s = String.utf8EncodeChar c ++ t) : a = c := by
  -- both begin with the encoding of one character
  have hdecoded := congrArg (fun l : List UInt8 => l.toByteArray.utf8DecodeChar? 0) h
  rw [List.toByteArray_append, List.toByteArray_append, ByteArray.utf8DecodeChar?_utf8EncodeChar_append,
    ByteArray.utf8DecodeChar?_utf8EncodeChar_append] at hdecoded
  exact Option.some.inj hdecoded

theorem utf8Encode_prefix_iff {as cs : List Char} :
    as.flatMap String.utf8EncodeChar <+: cs.flatMap String.utf8EncodeChar ↔ as <+: cs := by
  induction as generalizing cs with
  | nil => exact iff_of_true List.nil_prefix List.nil_prefix
  | cons a as ih =>
    cases cs with
    | nil => simp
    | cons c cs =>
      rw [List.flatMap_cons, List.flatMap_cons, List.cons_prefix_cons]
      constructor
      · rintro ⟨t, ht⟩
        rw [List.append_assoc] at ht
        cases eq_of_utf8EncodeChar ht
        exact ⟨rfl, ih.mp ⟨t, List.append_cancel_left ht⟩⟩
      · rintro ⟨rfl, h⟩
        exact (List.prefix_append_right_inj _).mpr (ih.mpr h)

/-- An encoding is a prefix of another exactly if the text is. -/
theorem startsWith_iff {s start : String} : startsWith s start = true ↔ start.toList <+: s.toList := by
  have hbytes : ∀ t : String,
      t.toByteArray.data.toList = t.toList.flatMap String.utf8EncodeChar := by
    intro t
    rw [← String.utf8Encode_toList, List.utf8Encode, List.data_toByteArray]
  unfold startsWith
  rw [List.isPrefixOf_iff_prefix, hbytes, hbytes, utf8Encode_prefix_iff]

theorem startsWith_exclusive {s a b : String} (ha : startsWith s a = true)
    (h : startsWith a b = false) (h' : startsWith b a = false) : startsWith s b = false := by
  rw [← Bool.not_eq_true] at h h' ⊢
  rw [startsWith_iff] at h h' ha ⊢
  intro hb
  exact (List.prefix_or_prefix_of_prefix ha hb).elim h' h

/-- What begins otherwise is another word. -/
theorem ne_of_startsWith {first start word : String} (hstart : startsWith first start = true)
    (hword : startsWith word start = false) : first ≠ word := by
  rintro rfl
  rw [hword] at hstart
  cases hstart

theorem endsWith_iff {s ending : String} : endsWith s ending = true ↔ ending.toList <:+ s.toList :=
  List.isSuffixOf_iff_suffix

/-! ## Segments -/

section Segments

variable {url : Url} {first word : String} {rest : List String}

theorem Clean.of_mem_segments (hpath : '?' ∉ url.pathname.toList) {segment : String}
    (hsegment : segment ∈ segments url) (hne : segment ≠ "") : Clean segment := by
  obtain ⟨piece, hpiece, rfl⟩ := List.mem_map.mp (List.mem_of_mem_tail hsegment)
  refine ⟨hne, ?_, ?_⟩
  · rw [String.toList_ofList]
    exact Lines.not_mem_of_mem_splitOn hpiece
  · rw [String.toList_ofList]
    exact fun hmem => hpath ((infix_of_mem_splitOn hpiece).subset hmem)

theorem getElem?_segments (url : Url) (i : Nat) :
    (segments url)[i]? = (split url.pathname '/')[i + 1]? := List.getElem?_tail

/-- What is said about the first segment and the others. -/
theorem forall_cons_iff {segments : List String} (h : segments = first :: rest)
    {P : String → List String → Prop} :
    (∀ first' rest', segments = first' :: rest' → P first' rest') ↔ P first rest := by
  constructor
  · exact fun hall => hall first rest h
  · intro hfirst first' rest' heq
    cases h.symm.trans heq
    exact hfirst

theorem after_spec {segments : List String} {id : String} (h : after word segments = some id) :
    id ∈ segments ∧ id ≠ "" := by
  unfold after at h
  split at h
  · next kind id' more hdrop =>
    split at h
    · cases h
    · next hne =>
      cases h
      have hmem : id ∈ segments.dropWhile (· ≠ word) := by
        rw [hdrop]
        exact List.mem_cons_of_mem _ List.mem_cons_self
      exact ⟨(List.dropWhile_sublist _).subset hmem, hne⟩
  · cases h

/-- A path that begins with a slash, and its pieces. -/
structure Path (url : Url) (first : String) (rest : List String) : Prop where
  text : ∃ t, url.pathname.toList = '/' :: t ∧ t.splitOn '/' = first.toList :: rest.map String.toList

theorem Path.exists_of_rooted (h : url.pathname.toList.head? = some '/') :
    ∃ first rest, Path url first rest := by
  cases hpath : url.pathname.toList with
  | nil =>
    rw [hpath] at h
    cases h
  | cons c t =>
    rw [hpath] at h
    cases h
    obtain ⟨p, ps, hpieces⟩ := List.exists_cons_of_ne_nil (List.splitOn_ne_nil '/' t)
    refine ⟨String.ofList p, ps.map String.ofList, ⟨t, hpath, ?_⟩⟩
    rw [hpieces, String.toList_ofList, List.map_map]
    have hid : String.toList ∘ String.ofList = id := funext (fun l => String.toList_ofList)
    rw [hid, List.map_id]

theorem Path.segments_eq (h : Path url first rest) : segments url = first :: rest := by
  obtain ⟨t, hpath, hpieces⟩ := h.text
  have hid : String.ofList ∘ String.toList = id := funext (fun s => String.ofList_toList)
  unfold segments split
  rw [hpath, List.splitOn_cons_eq_if_modifyHead, if_pos (beq_self_eq_true '/'), List.map_cons,
    List.tail_cons, hpieces, List.map_cons, List.map_map, hid, List.map_id, String.ofList_toList]

theorem Path.slash_not_mem (h : Path url first rest) : '/' ∉ first.toList := by
  obtain ⟨t, -, hpieces⟩ := h.text
  exact Lines.not_mem_of_mem_splitOn (hpieces ▸ List.mem_cons_self)

theorem Path.startsWith_word (h : Path url first rest) (hword : '/' ∉ word.toList) :
    startsWith url.pathname ("/" ++ word) = startsWith first word := by
  obtain ⟨t, hpath, hpieces⟩ := h.text
  rw [Bool.eq_iff_iff, startsWith_iff, startsWith_iff, hpath, String.toList_append]
  show '/' :: word.toList <+: _ ↔ _
  rw [List.cons_prefix_cons, prefix_iff_of_not_mem hword hpieces]
  exact and_iff_right rfl

theorem Path.startsWith_segment (h : Path url first rest) (hword : '/' ∉ word.toList) :
    startsWith url.pathname ("/" ++ word ++ "/") = decide (first = word ∧ rest ≠ []) := by
  obtain ⟨t, hpath, hpieces⟩ := h.text
  rw [Bool.eq_iff_iff, startsWith_iff, hpath, String.toList_append, String.toList_append,
    decide_eq_true_eq]
  show '/' :: (word.toList ++ ['/']) <+: _ ↔ _
  rw [List.cons_prefix_cons, word_prefix_iff hword, hpieces]
  constructor
  · rintro ⟨-, q, ps, heq⟩
    obtain ⟨hfirst, hrest⟩ := List.cons.inj heq
    refine ⟨String.toList_inj.mp hfirst, ?_⟩
    rintro rfl
    cases hrest
  · rintro ⟨rfl, hrest⟩
    obtain ⟨second, more, rfl⟩ := List.exists_cons_of_ne_nil hrest
    exact ⟨rfl, _, _, rfl⟩

end Segments

/-! ## Collections and videos -/

section Faithful

variable {rt : Runtime} {link : String} {url : Url}

/-- Where the path names a collection, the rest of the specification is about nothing. -/
theorem faithful_of_collection {service : Service} (h : collects service url = true) :
    Faithful rt service link url ↔ isCollectionURL rt service link = .ok true := by
  constructor
  · intro hfaithful
    rw [hfaithful.collection, h]
  · intro htrue
    refine ⟨by rw [htrue, h], fun hfalse => ?_⟩
    rw [htrue] at hfalse
    cases hfalse

/-- Where it names a video, the id is that one. -/
theorem faithful_of_video {service : Service} (h : collects service url = false) :
    Faithful rt service link url ↔ isCollectionURL rt service link = .ok false ∧
      ∀ id, (adapter rt service).getVideoId link = .ok id →
        ∃ video, id = some video ∧ names service url = some video ∧ Proper service video := by
  constructor
  · intro hfaithful
    have hfalse := hfaithful.collection
    rw [h] at hfalse
    exact ⟨hfalse, hfaithful.video hfalse⟩
  · rintro ⟨hfalse, hvideo⟩
    exact ⟨by rw [hfalse, h], fun _ => hvideo⟩

/-- A segment that is found is a clean one where there is something in it. -/
theorem segment_video_iff (hpath : '?' ∉ url.pathname.toList) {found named : Option String}
    (h : ∀ id ∈ found, id ∈ segments url) :
    (∀ id, (Except.ok found : Except Failure (Option String)) = .ok id →
        ∃ video, id = some video ∧ named = some video ∧ Clean video) ↔
      ∃ video, found = some video ∧ named = some video ∧ video ≠ "" := by
  constructor
  · intro hvideo
    obtain ⟨video, hfound, hnamed, hclean⟩ := hvideo _ rfl
    exact ⟨video, hfound, hnamed, hclean.nonempty⟩
  · rintro ⟨video, hfound, hnamed, hne⟩ id hid
    cases hid
    exact ⟨video, hfound, hnamed, .of_mem_segments hpath (h video hfound) hne⟩

end Faithful

end OpenTogetherTube.Server.LinkClasses
