import OpenTogetherTube.Server.Adapters

/-!
# The ids of videos on instances

The id of a video on an instance is its host, a colon, and the id that the video has there. A host may
have a port, and what is taken for the id of the video may hold a colon. Invidious splits the id at
the last colon, and PeerTube at the first one, so neither gets back what was joined in all cases
(`splitLast_join`, `splitFirst_join`).

PeerTube takes the last segment of the path for the video, whatever is behind the one that the adapter
has recognised. `decodes_iff` says which links survive.
-/

namespace OpenTogetherTube.Server.InstanceIds

open OpenTogetherTube.Common OpenTogetherTube.Lib Adapters Instances

/-! ## Joining and splitting -/

/-- What stands before the first colon. -/
def uptoColon (text : String) : String := String.ofList (text.toList.takeWhile (fun c => c ≠ ':'))

section Split

variable {host id text : String}

theorem toList_join (host text : String) :
    (host ++ ":" ++ text).toList = host.toList ++ ':' :: text.toList := by
  rw [String.toList_append, String.toList_append, List.append_assoc]
  rfl

theorem mem_join (host text : String) : ':' ∈ (host ++ ":" ++ text).toList := by
  rw [toList_join]
  exact List.mem_append_right _ List.mem_cons_self

theorem not_mem_takeWhile (l : List Char) : ':' ∉ l.takeWhile (fun c => c ≠ ':') := by
  intro hmem
  have hne := List.mem_takeWhile_imp hmem
  exact absurd rfl (of_decide_eq_true hne)

/-- **The last colon is the one that joins**, if the video has none. -/
theorem splitLast_join : splitLast (host ++ ":" ++ id) = some (host, id) ↔ ':' ∉ id.toList := by
  unfold splitLast
  rw [if_pos (mem_join host id), toList_join]
  constructor
  · intro h
    have hid := congrArg (fun p : String × String => p.2.toList) (Option.some.inj h)
    rw [← hid, String.toList_ofList, List.rtakeWhile, List.mem_reverse]
    exact not_mem_takeWhile _
  · intro hfree
    have hall : ∀ c ∈ id.toList.reverse, decide (c ≠ ':') = true := by
      intro c hc
      rw [decide_eq_true_eq]
      rintro rfl
      exact hfree (List.mem_reverse.mp hc)
    have hreverse : (host.toList ++ ':' :: id.toList).reverse =
        id.toList.reverse ++ ':' :: host.toList.reverse := by simp
    have hdrop : (host.toList ++ ':' :: id.toList).rdropWhile (fun c => c ≠ ':') =
        host.toList ++ [':'] := by
      unfold List.rdropWhile
      rw [hreverse, List.dropWhile_append_of_pos hall, List.dropWhile_cons_of_neg (by simp)]
      simp
    have htake : (host.toList ++ ':' :: id.toList).rtakeWhile (fun c => c ≠ ':') = id.toList := by
      unfold List.rtakeWhile
      rw [hreverse, List.takeWhile_append_of_pos hall, List.takeWhile_cons_of_neg (by simp)]
      simp
    rw [hdrop, htake, List.dropLast_concat, String.ofList_toList, String.ofList_toList]

/-- **The first colon is the one that joins**, if the host has none. -/
theorem splitFirst_join : splitFirst (host ++ ":" ++ text) = some (host, id) ↔
    ':' ∉ host.toList ∧ uptoColon text = id := by
  unfold splitFirst
  rw [if_pos (mem_join host text), toList_join]
  constructor
  · intro h
    have hhost := congrArg (fun p : String × String => p.1.toList) (Option.some.inj h)
    have hfree : ':' ∉ host.toList := by
      rw [← hhost, String.toList_ofList]
      exact not_mem_takeWhile _
    refine ⟨hfree, ?_⟩
    have hall : ∀ c ∈ host.toList, decide (c ≠ ':') = true :=
      fun c hc => decide_eq_true fun heq => hfree (heq ▸ hc)
    rw [List.dropWhile_append_of_pos hall, List.dropWhile_cons_of_neg (by simp)] at h
    exact congrArg Prod.snd (Option.some.inj h)
  · rintro ⟨hfree, rfl⟩
    have hall : ∀ c ∈ host.toList, decide (c ≠ ':') = true :=
      fun c hc => decide_eq_true fun heq => hfree (heq ▸ hc)
    rw [List.takeWhile_append_of_pos hall, List.takeWhile_cons_of_neg (by simp),
      List.dropWhile_append_of_pos hall, List.dropWhile_cons_of_neg (by simp), List.append_nil,
      String.ofList_toList]
    rfl

end Split

/-! ## Links -/

section Links

variable (rt : Runtime) (config : Config)

def adapterOf : Service → Adapter
  | .invidious => invidious rt config
  | .peertube => peertube rt config

/-- As `fetchVideoInfo` splits an id into host and video. -/
def splitId : Service → String → Option (String × String)
  | .invidious => splitLast
  | .peertube => splitFirst

/-- The segment that `/w/` leads to. -/
def watchSegment (path : String) : Option String := (split path '/')[2]?

/-- The video that a link is about. -/
def videoOf (service : Service) (url : Url) : Option String :=
  if service = .invidious ∧ url.pathname = "/watch" then (url.get "v").map trim
  else (watchSegment url.pathname).map trim

/-- **The purpose**: the id is split into the host of the link and its video, and there is one. -/
def Decodes (service : Service) (url : Url) (id : String) : Prop :=
  ∃ video, videoOf service url = some video ∧ video ≠ "" ∧
    splitId service id = some (url.host, video)

/-- **The condition**, on the link. -/
def Splittable (url : Url) : Service → Prop
  | .invidious => url.pathname = "/watch" → ∀ v ∈ url.get "v", trim v ≠ "" ∧ ':' ∉ (trim v).toList
  | .peertube => ':' ∉ url.host.toList ∧
    ∀ segment ∈ watchSegment url.pathname, uptoColon (lastSegment url.pathname) = trim segment

end Links

section Paths

variable {path : String} {p : List Char → Bool}

theorem any_behind_iff {literal : String} {text : List Char} :
    (behind [literal] text).any p = true ↔ ∃ rest, text = literal.toList ++ rest ∧ p rest = true := by
  have hdrop : ∀ rest, (literal.toList ++ rest).drop literal.length = rest := by
    intro rest
    rw [← String.length_toList, List.drop_left]
  unfold behind
  constructor
  · intro h
    obtain ⟨rest, hrest, hp⟩ := List.any_eq_true.mp h
    obtain ⟨l, hl, hfound⟩ := List.mem_filterMap.mp hrest
    cases List.mem_singleton.mp hl
    split at hfound
    · next hprefix =>
      obtain ⟨rest', htext⟩ := List.isPrefixOf_iff_prefix.mp hprefix
      rw [← htext, hdrop] at hfound
      cases hfound
      exact ⟨rest, htext.symm, hp⟩
    · cases hfound
  · rintro ⟨rest, rfl, hp⟩
    refine List.any_eq_true.mpr ⟨rest, List.mem_filterMap.mpr ⟨literal, List.mem_singleton_self _, ?_⟩, hp⟩
    rw [if_pos (List.isPrefixOf_iff_prefix.mpr (List.prefix_append _ _)), hdrop]

/-- The segments of a path that begins with `/w/`. -/
theorem split_watch {rest : List Char} (h : path.toList = "/w/".toList ++ rest) :
    split path '/' = "" :: "w" :: (rest.splitOn '/').map String.ofList := by
  have htext : path.toList = '/' :: 'w' :: '/' :: rest := h
  unfold split
  rw [htext, List.splitOn_cons_eq_if_modifyHead, if_pos (by decide),
    List.splitOn_cons_eq_if_modifyHead, if_neg (by decide), List.splitOn_cons_eq_if_modifyHead,
    if_pos (by decide)]
  rfl

theorem trim_ne_empty {text : String} {c : Char} (hc : c ∈ text.toList) (hwhite : isWhite c = false) :
    trim text ≠ "" := by
  intro h
  have hnil : Lines.trim isWhite text.toList = [] := by
    have hlist := congrArg String.toList h
    unfold trim at hlist
    rwa [String.toList_ofList] at hlist
  have hall := List.rdropWhile_eq_nil_iff.mp hnil
  cases hdrop : text.toList.dropWhile isWhite with
  | nil =>
    have hwhite' := List.dropWhile_eq_nil_iff.mp hdrop c hc
    rw [hwhite] at hwhite'
    cases hwhite'
  | cons d rest =>
    have hd : isWhite d = true := hall d (by rw [hdrop]; exact List.mem_cons_self)
    have hne : text.toList.dropWhile isWhite ≠ [] := by
      rw [hdrop]
      exact List.cons_ne_nil _ _
    have hnot := List.head_dropWhile_not isWhite hne
    simp only [hdrop, List.head_cons] at hnot
    rw [hd] at hnot
    cases hnot

theorem isIdChar_of_isWordChar {c : Char} (h : isWordChar c = true) : isIdChar c = true := by
  unfold isIdChar
  unfold isWordChar at h
  rw [h, Bool.true_or]

theorem isWhite_of_isIdChar {c : Char} (h : isIdChar c = true) : isWhite c = false := by
  obtain ⟨hlow, hhigh, -⟩ := isIdChar_bounds h
  exact isWhite_of_bounds (by omega) hhigh

/-- A short link has one segment behind `/w/`, and there is no colon in it. -/
theorem split_of_shortWatch (h : invidiousShortWatchRe path = true) :
    ∃ id, split path '/' = ["", "w", id] ∧ id ≠ "" ∧ trim id = id ∧ ':' ∉ id.toList := by
  obtain ⟨rest, hpath, hrest⟩ := any_behind_iff.mp h
  obtain ⟨hne, hall⟩ := Bool.and_eq_true_iff.mp hrest
  have hchars : ∀ c ∈ rest, isIdChar c = true := List.all_eq_true.mp hall
  have hslash : '/' ∉ rest := fun hmem => (isIdChar_bounds (hchars _ hmem)).2.2 rfl
  refine ⟨String.ofList rest, ?_, ?_, ?_, ?_⟩
  · rw [split_watch hpath, List.splitOn_eq_singleton hslash]
    rfl
  · intro hempty
    exact of_decide_eq_true hne (String.ofList_eq_empty_iff.mp hempty)
  · refine trim_eq_self (fun c hc => ?_)
    rw [String.toList_ofList] at hc
    exact isWhite_of_isIdChar (hchars c hc)
  · rw [String.toList_ofList]
    exact fun hmem => absurd (hchars ':' hmem) (by decide)

/-- A watch path has a segment behind `/w/`, which is not empty. -/
theorem watchSegment_of_watchPath (h : peertubeWatchPathRegex path = true) :
    ∃ segment, watchSegment path = some segment ∧ trim segment ≠ "" := by
  obtain ⟨rest, hpath, hrest⟩ := any_behind_iff.mp h
  rw [Option.any_eq_true] at hrest
  obtain ⟨c, hc, hword⟩ := hrest
  cases rest with
  | nil => cases hc
  | cons d rest =>
    cases hc
    have hid := isIdChar_of_isWordChar hword
    have hslash : ¬ (c == '/') = true := by
      rw [beq_iff_eq]
      exact (isIdChar_bounds hid).2.2
    unfold watchSegment
    rw [split_watch hpath, List.splitOn_cons_eq_if_modifyHead, if_neg hslash]
    cases hsplit : rest.splitOn '/' with
    | nil => exact absurd hsplit (List.splitOn_ne_nil _ _)
    | cons first others =>
      refine ⟨String.ofList (c :: first), rfl, ?_⟩
      refine trim_ne_empty ?_ (isWhite_of_isIdChar hid)
      rw [String.toList_ofList]
      exact List.mem_cons_self

end Paths

section Decodes

variable {rt : Runtime} {config : Config} {link id : String} {url : Url}

theorem invidious_link (hurl : rt.newURL link none = some url)
    (hcan : (invidious rt config).canHandleURL link = .ok true)
    (hid : (invidious rt config).getVideoId link = .ok (some id)) :
    ∃ video, videoOf .invidious url = some video ∧ id = url.host ++ ":" ++ video ∧
      (url.pathname ≠ "/watch" → video ≠ "" ∧ ':' ∉ video.toList) := by
  unfold invidious at hcan hid
  dsimp only at hcan hid
  rw [hurl] at hcan hid
  dsimp only at hcan hid
  have hpath := (Bool.and_eq_true_iff.mp (Except.ok.inj hcan)).2
  by_cases hwatch : url.pathname = "/watch"
  · have hvideo : videoOf .invidious url = (url.get "v").map trim := if_pos ⟨rfl, hwatch⟩
    rw [if_pos hwatch] at hpath
    obtain ⟨v, hv⟩ := Option.isSome_iff_exists.mp hpath
    refine ⟨trim v, by rw [hvideo, hv]; rfl, ?_, fun hne => absurd hwatch hne⟩
    simp only [hwatch, hv, if_true, bind, Option.bind] at hid
    by_cases hempty : v = ""
    · simp [hempty] at hid
    · simp only [if_neg hempty, Except.ok.injEq, Option.some.injEq] at hid
      exact hid.symm
  · have hvideo : videoOf .invidious url = (watchSegment url.pathname).map trim :=
      if_neg (fun h => hwatch h.2)
    rw [if_neg hwatch] at hpath
    obtain ⟨segment, hsplit, hne, htrim, hcolon⟩ := split_of_shortWatch hpath
    have hsegment : watchSegment url.pathname = some segment := by
      unfold watchSegment
      rw [hsplit]
      rfl
    refine ⟨segment, by rw [hvideo, hsegment]; exact congrArg some htrim, ?_, fun _ => ⟨hne, hcolon⟩⟩
    simp only [if_neg hwatch, hpath, if_true, hsplit, bind, Option.bind, List.getLast?_cons_cons,
      List.getLast?_singleton, if_neg hne, Except.ok.injEq, Option.some.injEq, htrim] at hid
    exact hid.symm

theorem peertube_link (hurl : rt.newURL link none = some url)
    (hcan : (peertube rt config).canHandleURL link = .ok true)
    (hid : (peertube rt config).getVideoId link = .ok (some id)) :
    ∃ segment, watchSegment url.pathname = some segment ∧ trim segment ≠ "" ∧
      id = url.host ++ ":" ++ lastSegment url.pathname := by
  unfold peertube Runtime.url at hcan hid
  dsimp only at hcan hid
  rw [hurl] at hcan hid
  have hpath := (Bool.and_eq_true_iff.mp (Except.ok.inj hcan)).2
  obtain ⟨segment, hsegment, hne⟩ := watchSegment_of_watchPath hpath
  exact ⟨segment, hsegment, hne, (Option.some.inj (Except.ok.inj hid)).symm⟩

/-- **The id of an accepted link splits into its host and its video**, if and only if: for Invidious,
the video that the query names is not blank and has no colon; for PeerTube, the host has no port, and
the last segment of the path is, up to its first colon, the one behind `/w/`. -/
theorem decodes_iff (rt : Runtime) (config : Config) (link : String) (service : Service)
    (hurl : rt.newURL link none = some url)
    (hcan : (adapterOf rt config service).canHandleURL link = .ok true)
    (hid : (adapterOf rt config service).getVideoId link = .ok (some id)) :
    Decodes service url id ↔ Splittable url service := by
  cases service with
  | invidious =>
    obtain ⟨video, hvideo, rfl, hshort⟩ := invidious_link hurl hcan hid
    have hdecodes : Decodes .invidious url (url.host ++ ":" ++ video) ↔
        video ≠ "" ∧ ':' ∉ video.toList := by
      unfold Decodes splitId
      rw [hvideo]
      constructor
      · rintro ⟨video', heq, hne, hsplit⟩
        cases heq
        exact ⟨hne, splitLast_join.mp hsplit⟩
      · exact fun h => ⟨video, rfl, h.1, splitLast_join.mpr h.2⟩
    rw [hdecodes]
    unfold Splittable
    by_cases hwatch : url.pathname = "/watch"
    · have hquery : (url.get "v").map trim = some video := by
        rw [← hvideo]
        exact (if_pos ⟨rfl, hwatch⟩).symm
      obtain ⟨v, hv, rfl⟩ := Option.map_eq_some_iff.mp hquery
      rw [hv]
      exact ⟨fun h _ v' hv' => by cases hv'; exact h, fun h => h hwatch v rfl⟩
    · exact iff_of_true (hshort hwatch) (fun h => absurd h hwatch)
  | peertube =>
    obtain ⟨segment, hsegment, hne, rfl⟩ := peertube_link hurl hcan hid
    have hvideo : videoOf .peertube url = some (trim segment) := by
      unfold videoOf
      rw [if_neg (fun h => by cases h.1), hsegment]
      rfl
    unfold Decodes splitId Splittable
    rw [hvideo, hsegment]
    constructor
    · rintro ⟨video', heq, -, hsplit⟩
      cases heq
      obtain ⟨hhost, hlast⟩ := splitFirst_join.mp hsplit
      exact ⟨hhost, fun segment' h => by cases h; exact hlast⟩
    · rintro ⟨hhost, hlast⟩
      exact ⟨_, rfl, hne, splitFirst_join.mpr ⟨hhost, hlast segment rfl⟩⟩

end Decodes

/-! ### An instance with a port -/

def withPort : Url :=
  ⟨"https:", "peertube.example:9000", "peertube.example", "/w/kkGMgK9ZtnKfYAgnEtQxbv", []⟩

/-- The URL parser, on a link to the instance. -/
def onePort : Runtime where
  newURL input _ :=
    if input = "https://peertube.example:9000/w/kkGMgK9ZtnKfYAgnEtQxbv" then some withPort else none
  setPathname url path := { url with pathname := path }
  parsePath _ := none
  normalize := id

theorem newURL_withPort :
    onePort.newURL "https://peertube.example:9000/w/kkGMgK9ZtnKfYAgnEtQxbv" none = some withPort := by
  simp [onePort]

theorem decodes_iff_withPort :
    Decodes .peertube withPort "peertube.example:9000:kkGMgK9ZtnKfYAgnEtQxbv" ↔
      Splittable withPort .peertube :=
  decodes_iff onePort ⟨["peertube.example:9000"], []⟩
    "https://peertube.example:9000/w/kkGMgK9ZtnKfYAgnEtQxbv" .peertube newURL_withPort
    (by decide +kernel) (by decide +kernel)

/-- **The port is taken for the video.** -/
theorem not_decodes : ¬ ∀ (rt : Runtime) (config : Config) (link id : String) (url : Url)
    (service : Service), rt.newURL link none = some url →
    (adapterOf rt config service).canHandleURL link = .ok true →
    (adapterOf rt config service).getVideoId link = .ok (some id) → Decodes service url id := by
  intro h
  obtain ⟨video, -, -, hsplit⟩ := h onePort ⟨["peertube.example:9000"], []⟩
    "https://peertube.example:9000/w/kkGMgK9ZtnKfYAgnEtQxbv"
    ("peertube.example:9000" ++ ":" ++ "kkGMgK9ZtnKfYAgnEtQxbv") withPort .peertube newURL_withPort
    (by decide +kernel) (by decide +kernel)
  have hhost := (splitFirst_join.mp hsplit).1
  exact hhost (by decide)

end OpenTogetherTube.Server.InstanceIds
