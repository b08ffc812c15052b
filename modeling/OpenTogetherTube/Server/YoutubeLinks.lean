import OpenTogetherTube.Server.LinkClasses

/-!
# Links to YouTube

A link to YouTube is told by its first segment and by the parameter `list`. A short link is taken for
one to the site where its id begins like a channel or a playlist; everything else that goes wrong is an
id that is taken as it comes (`youtube_faithful_iff`).
-/

namespace OpenTogetherTube.Server.YoutubeLinks

open OpenTogetherTube.Common OpenTogetherTube.Lib Adapters LinkClasses Neighbours

section Links

variable {rt : Runtime} {link : String} {url : Url} {first : String} {rest : List String}

/-! ## Links that can be handled -/

theorem clean_trim_iff {text : String} :
    Clean (trim text) ↔ ¬ IsBlank text ∧ '/' ∉ text.toList ∧ '?' ∉ text.toList := by
  have hmem : ∀ c, isWhite c = false → (c ∈ (trim text).toList ↔ c ∈ text.toList) := by
    intro c hc
    unfold trim
    rw [String.toList_ofList]
    exact Lines.mem_trim hc
  have hblank : trim text = "" ↔ IsBlank text := by
    unfold trim IsBlank
    rw [← String.toList_inj, String.toList_ofList]
    exact Lines.trim_eq_nil_iff
  constructor
  · rintro ⟨hne, hslash, hquery⟩
    rw [hmem _ (by decide)] at hslash hquery
    exact ⟨fun h => hne (hblank.mpr h), hslash, hquery⟩
  · rintro ⟨hne, hslash, hquery⟩
    refine ⟨fun h => hne (hblank.mp h), ?_, ?_⟩
    · rwa [hmem _ (by decide)]
    · rwa [hmem _ (by decide)]

theorem path_of_accepted (hrt : UrlStandard rt) (hurl : rt.newURL link none = some url)
    (haccepts : youtubeCanHandle url = true) : ∃ first rest, Path url first rest := by
  have hhost : url.host ≠ "" := by
    intro h
    unfold youtubeCanHandle at haccepts
    rw [h, if_neg (by decide), if_neg (by decide)] at haccepts
    cases haccepts
  rcases hrt.rooted hurl hhost with hempty | hroot
  · have hnone : ∀ word ∈ ["/watch", "/channel/", "/user/", "/c/", "/playlist", "/shorts/", "/live/",
        "/@", "/video/"], startsWith "" word = false := by decide
    simp only [List.forall_mem_cons] at hnone
    unfold youtubeCanHandle at haccepts
    rw [hempty] at haccepts
    simp [hnone] at haccepts
  · exact Path.exists_of_rooted hroot

theorem startsWith_watch (h : Path url first rest) :
    startsWith url.pathname "/watch" = startsWith first "watch" :=
  @Path.startsWith_word _ _ "watch" _ h (by decide)

theorem youtubeIsCollection_eq (h : Path url first rest) : youtubeIsCollection url =
    (decide (first = "channel" ∧ rest ≠ []) || decide (first = "c" ∧ rest ≠ []) ||
      decide (first = "user" ∧ rest ≠ []) || startsWith first "playlist" || startsWith first "@" ||
      publicList url) := by
  have hchannel := @Path.startsWith_segment _ _ "channel" _ h (by decide)
  have hc := @Path.startsWith_segment _ _ "c" _ h (by decide)
  have huser := @Path.startsWith_segment _ _ "user" _ h (by decide)
  have hplaylist := @Path.startsWith_word _ _ "playlist" _ h (by decide)
  have hat := @Path.startsWith_word _ _ "@" _ h (by decide)
  rw [← hchannel, ← hc, ← huser, ← hplaylist, ← hat]
  rfl

/-- What the path of a link to the site begins with. -/
theorem accepted_cases (h : Path url first rest) (hsite : isShort url = false)
    (haccepts : youtubeCanHandle url = true) :
    (startsWith first "watch" = true ∧ ∃ v, url.get "v" = some v ∧ v ≠ "") ∨
      (first ∈ ["channel", "c", "user"] ∧ rest ≠ []) ∨ startsWith first "playlist" = true ∨
      (first ∈ ["shorts", "live", "video"] ∧ rest ≠ []) ∨ startsWith first "@" = true := by
  have hwatch := startsWith_watch h
  have hplaylist : startsWith url.pathname "/playlist" = _ :=
    @Path.startsWith_word _ _ "playlist" _ h (by decide)
  have hat : startsWith url.pathname "/@" = _ := @Path.startsWith_word _ _ "@" _ h (by decide)
  have hchannel : startsWith url.pathname "/channel/" = _ :=
    @Path.startsWith_segment _ _ "channel" _ h (by decide)
  have hc : startsWith url.pathname "/c/" = _ := @Path.startsWith_segment _ _ "c" _ h (by decide)
  have huser : startsWith url.pathname "/user/" = _ :=
    @Path.startsWith_segment _ _ "user" _ h (by decide)
  have hshorts : startsWith url.pathname "/shorts/" = _ :=
    @Path.startsWith_segment _ _ "shorts" _ h (by decide)
  have hlive : startsWith url.pathname "/live/" = _ :=
    @Path.startsWith_segment _ _ "live" _ h (by decide)
  have hvideo : startsWith url.pathname "/video/" = _ :=
    @Path.startsWith_segment _ _ "video" _ h (by decide)
  unfold isShort at hsite
  unfold youtubeCanHandle at haccepts
  rw [hsite, if_neg Bool.false_ne_true] at haccepts
  split at haccepts
  · rw [hwatch, hplaylist, hat, hchannel, hc, huser, hshorts, hlive, hvideo] at haccepts
    simp only [Bool.or_eq_true, Bool.and_eq_true, decide_eq_true_eq, Option.any_eq_true] at haccepts
    rcases haccepts with (((((((⟨hw, hv⟩ | ⟨hs, -⟩) | ⟨hs, -⟩) | ⟨hs, -⟩) | ⟨hp, -⟩) | hs) | hs) |
      ⟨hp, -⟩) | ⟨-, hs⟩
    -- the cases are in the order of the source
    · exact .inl ⟨hw, hv⟩
    · exact .inr (.inl ⟨by rw [hs.1]; decide, hs.2⟩)
    · exact .inr (.inl ⟨by rw [hs.1]; decide, hs.2⟩)
    · exact .inr (.inl ⟨by rw [hs.1]; decide, hs.2⟩)
    · exact .inr (.inr (.inl hp))
    · exact .inr (.inr (.inr (.inl ⟨by rw [hs.1]; decide, hs.2⟩)))
    · exact .inr (.inr (.inr (.inl ⟨by rw [hs.1]; decide, hs.2⟩)))
    · exact .inr (.inr (.inr (.inr hp)))
    · exact .inr (.inr (.inr (.inl ⟨by rw [hs.1]; decide, hs.2⟩)))
  · cases haccepts

theorem youtube_isCollectionURL (hurl : rt.newURL link none = some url) :
    isCollectionURL rt .youtube link = .ok (youtubeIsCollection url) := by
  show (rt.url link >>= fun url => pure (youtubeIsCollection url)) = _
  rw [Runtime.url_eq_ok hurl]
  rfl

theorem youtube_video (hurl : rt.newURL link none = some url) :
    (youtube rt).getVideoId link = youtubeVideoId url := by
  show (rt.url link >>= fun url => youtubeVideoId url) = _
  rw [Runtime.url_eq_ok hurl]
  rfl

/-- The path of a short link is the id, whatever it is. -/
theorem youtube_short_iff (hpath : '?' ∉ url.pathname.toList)
    (hurl : rt.newURL link none = some url) (h : Path url first rest) (hlist : publicList url = false)
    (hshort : isShort url = true) : Faithful rt .youtube link url ↔ YoutubeCareful url := by
  have hcollects : collects .youtube url = false := by
    show (publicList url || (!isShort url && _)) = false
    rw [hlist, hshort]
    rfl
  have hnames : names .youtube url = some (trim first) := by
    show (if isShort url then (segments url).head?.map trim else _) = _
    rw [if_pos hshort, h.segments_eq]
    rfl
  have hquery : '?' ∉ first.toList := by
    intro hmem
    obtain ⟨t, htext, hpieces⟩ := h.text
    refine hpath ?_
    rw [htext]
    exact List.mem_cons_of_mem _ ((prefix_of_splitOn hpieces).subset hmem)
  rw [faithful_of_video hcollects, youtube_isCollectionURL hurl, youtubeIsCollection_eq h, hlist,
    Except.ok.injEq]
  show _ ∧ (∀ id, (youtube rt).getVideoId link = .ok id → ∃ video, id = some video ∧
    names .youtube url = some video ∧ Clean video) ↔ _
  unfold YoutubeCareful
  rw [hlist, hshort, if_pos rfl, youtube_video hurl, hnames, h.segments_eq]
  simp only [Bool.false_eq_true, false_or, Bool.or_false, Bool.or_eq_false_iff, decide_eq_false_iff_not]
  have hid : youtubeVideoId url =
      .ok (some (trim (String.ofList (url.pathname.toList.erase '/')))) := if_pos hshort
  rw [hid]
  obtain ⟨t, htext, hpieces⟩ := h.text
  rw [htext, List.erase_cons_head]
  cases rest with
  | nil =>
    rw [(eq_of_splitOn_singleton hpieces).1, String.ofList_toList]
    constructor
    · rintro ⟨⟨⟨-, hplaylist⟩, hat⟩, hvideo⟩
      obtain ⟨video, -, hnamed, hclean⟩ := hvideo _ rfl
      cases hnamed
      exact ⟨first, rfl, (clean_trim_iff.mp hclean).1, hat, hplaylist⟩
    · rintro ⟨id, hsegments, hblank, hat, hplaylist⟩
      cases hsegments
      have hnone : ∀ word, ¬ (first = word ∧ ([] : List String) ≠ []) := fun word h => h.2 rfl
      refine ⟨⟨⟨⟨⟨hnone _, hnone _⟩, hnone _⟩, hplaylist⟩, hat⟩, fun id hid => ?_⟩
      cases hid
      exact ⟨_, rfl, rfl, clean_trim_iff.mpr ⟨hblank, h.slash_not_mem, hquery⟩⟩
  | cons second more =>
    -- the other segments become part of the id
    refine iff_of_false ?_ (fun ⟨_, hsegments, _⟩ => by cases hsegments)
    rintro ⟨-, hvideo⟩
    obtain ⟨video, hid, -, hclean⟩ := hvideo _ rfl
    cases hid
    have hslash := (clean_trim_iff.mp hclean).2.1
    obtain ⟨back, rfl, -⟩ := eq_append_of_splitOn hpieces
    rw [String.toList_ofList] at hslash
    exact hslash (List.mem_append_right _ List.mem_cons_self)

section Site

variable (h : Path url first rest) (hsite : isShort url = false) (hlist : publicList url = false)

include h hsite

theorem names_site : names .youtube url =
    if first ∈ ["shorts", "live", "video"] then rest[0]? else (url.get "v").map trim := by
  show (if isShort url then _ else if (segments url).head?.any _ then (segments url)[1]? else _) = _
  rw [if_neg (by rw [hsite]; exact Bool.false_ne_true), h.segments_eq]
  simp only [List.head?_cons, Option.any_some, List.contains_iff_mem, List.getElem?_cons_succ]

theorem youtubeVideoId_watch (hwatch : startsWith first "watch" = true) {v : String}
    (hv : url.get "v" = some v) (hne : v ≠ "") : youtubeVideoId url = .ok (some (trim v)) := by
  unfold isShort at hsite
  unfold youtubeVideoId
  rw [hsite, if_neg Bool.false_ne_true, startsWith_watch h, if_pos hwatch, hv]
  split
  · next heq => cases heq
  · next heq => exact absurd (Option.some.inj heq) hne
  · next heq =>
    cases heq
    rfl

theorem youtubeVideoId_segment (hwatch : startsWith first "watch" = false) :
    youtubeVideoId url = .ok rest[0]? := by
  have hsecond : (split url.pathname '/')[2]? = rest[0]? := by
    rw [← getElem?_segments, h.segments_eq, List.getElem?_cons_succ]
  unfold isShort at hsite
  unfold youtubeVideoId
  rw [hsite, if_neg Bool.false_ne_true, startsWith_watch h, hwatch, if_neg Bool.false_ne_true, hsecond]

include hlist

theorem collects_site : collects .youtube url =
    decide (first ∈ ["channel", "c", "user", "playlist"] ∨ startsWith first "@" = true) := by
  show (publicList url || (!isShort url && (segments url).head?.any _)) = _
  rw [hlist, hsite, h.segments_eq, Bool.eq_iff_iff]
  simp

theorem careful_site : YoutubeCareful url ↔
    (startsWith first "watch" = true → ∀ v ∈ url.get "v",
      ¬ IsBlank v ∧ '/' ∉ v.toList ∧ '?' ∉ v.toList) ∧
    (startsWith first "playlist" = true → first = "playlist") ∧
    (first ∈ ["shorts", "live", "video"] → rest.head? ≠ some "") := by
  unfold YoutubeCareful
  rw [hlist, hsite, if_neg Bool.false_ne_true, or_iff_right Bool.false_ne_true]
  exact forall_cons_iff h.segments_eq

/-- `/watch?v=…` -/
theorem watch_iff (hurl : rt.newURL link none = some url)
    (hwatch : startsWith first "watch" = true) {v : String} (hv : url.get "v" = some v) (hne : v ≠ "") :
    Faithful rt .youtube link url ↔ YoutubeCareful url := by
  have hcollects := collects_site h hsite hlist
  have hnames := names_site h hsite
  have hcollection := youtube_isCollectionURL hurl
  rw [youtubeIsCollection_eq h, hlist] at hcollection
  rw [careful_site h hsite hlist]
  -- a segment that begins with one word begins with no other
  have hplaylist : startsWith first "playlist" = false :=
    startsWith_exclusive hwatch (by decide) (by decide)
  have hat : startsWith first "@" = false := startsWith_exclusive hwatch (by decide) (by decide)
  have hother : ∀ word ∈ ["channel", "c", "user", "playlist", "shorts", "live", "video"],
      first ≠ word := by
    have hnone : ∀ word ∈ ["channel", "c", "user", "playlist", "shorts", "live", "video"],
        startsWith word "watch" = false := by decide
    exact fun word hword => ne_of_startsWith hwatch (hnone word hword)
  simp only [List.forall_mem_cons] at hother
  simp only [hplaylist, hat, hother, List.mem_cons, List.not_mem_nil, false_and, or_self,
    decide_false, Bool.or_self, Bool.false_eq_true, if_false] at hcollects hnames hcollection
  rw [faithful_of_video hcollects, hcollection, hnames, hv]
  show _ ∧ (∀ id, (youtube rt).getVideoId link = .ok id → ∃ video, id = some video ∧
    some (trim v) = some video ∧ Clean video) ↔ _
  rw [youtube_video hurl, youtubeVideoId_watch h hsite hwatch hv hne]
  constructor
  · rintro ⟨-, hvideo⟩
    obtain ⟨video, hid, -, hclean⟩ := hvideo _ rfl
    cases hid
    refine ⟨fun _ v' hv' => ?_, fun hcontra => ?_, fun hmem => ?_⟩
    · cases hv'
      exact clean_trim_iff.mp hclean
    · rw [hplaylist] at hcontra
      cases hcontra
    · simp [hother] at hmem
  · rintro ⟨hall, -⟩
    refine ⟨rfl, fun id hid => ?_⟩
    cases hid
    exact ⟨_, rfl, rfl, clean_trim_iff.mpr (hall hwatch v rfl)⟩

/-- `/channel/…` -/
theorem channel_iff (hurl : rt.newURL link none = some url)
    (hfirst : first ∈ ["channel", "c", "user"]) (hrest : rest ≠ []) :
    Faithful rt .youtube link url ↔ YoutubeCareful url := by
  have hcollects := collects_site h hsite hlist
  have hcollection := youtube_isCollectionURL hurl
  rw [youtubeIsCollection_eq h, hlist] at hcollection
  rw [careful_site h hsite hlist]
  have hcollects' : collects .youtube url = true := by
    rw [hcollects, decide_eq_true_eq]
    exact .inl (List.mem_append_left ["playlist"] hfirst)
  have hnone : ∀ word ∈ ["channel", "c", "user"], startsWith word "watch" = false ∧
      startsWith word "playlist" = false ∧ word ∉ ["shorts", "live", "video"] := by decide
  obtain ⟨hwatch, hplaylist, hvideo⟩ := hnone first hfirst
  rw [faithful_of_collection hcollects', hcollection, hwatch, hplaylist]
  simp only [List.mem_cons, List.not_mem_nil, or_false] at hfirst
  refine iff_of_true ?_ ⟨fun hcontra => absurd hcontra Bool.false_ne_true,
    fun hcontra => absurd hcontra Bool.false_ne_true, fun hmem => absurd hmem hvideo⟩
  rcases hfirst with rfl | rfl | rfl <;> simp [hrest]

/-- `/playlist?list=…` -/
theorem playlist_iff (hurl : rt.newURL link none = some url)
    (hplaylist : startsWith first "playlist" = true) :
    Faithful rt .youtube link url ↔ YoutubeCareful url := by
  have hcollects := collects_site h hsite hlist
  have hcollection := youtube_isCollectionURL hurl
  rw [youtubeIsCollection_eq h, hlist] at hcollection
  rw [careful_site h hsite hlist]
  have hwatch : startsWith first "watch" = false :=
    startsWith_exclusive hplaylist (by decide) (by decide)
  have hat : startsWith first "@" = false := startsWith_exclusive hplaylist (by decide) (by decide)
  have hnone : ∀ word ∈ ["channel", "c", "user", "shorts", "live", "video"],
      startsWith word "playlist" = false := by decide
  have hother : ∀ word ∈ ["channel", "c", "user", "shorts", "live", "video"], first ≠ word :=
    fun word hword => ne_of_startsWith hplaylist (hnone word hword)
  simp only [List.forall_mem_cons] at hother
  have hcareful : ((startsWith first "watch" = true → ∀ v ∈ url.get "v",
      ¬ IsBlank v ∧ '/' ∉ v.toList ∧ '?' ∉ v.toList) ∧
      (startsWith first "playlist" = true → first = "playlist") ∧
      (first ∈ ["shorts", "live", "video"] → rest.head? ≠ some "")) ↔ first = "playlist" := by
    simp [hwatch, hplaylist, hother]
  rw [hcareful]
  simp only [hplaylist, Bool.or_true, Bool.true_or] at hcollection
  by_cases hfirst : first = "playlist"
  · have hcollects' : collects .youtube url = true := by
      rw [hcollects, hfirst]
      decide
    rw [faithful_of_collection hcollects']
    exact iff_of_true hcollection hfirst
  · have hcollects' : collects .youtube url = false := by
      simp [hcollects, hother, hat, hfirst]
    -- the code takes it for a collection, whatever follows the word
    rw [faithful_of_video hcollects', hcollection]
    exact iff_of_false (fun hvideo => by cases hvideo.1) hfirst

/-- `/shorts/…` -/
theorem shorts_iff (hpath : '?' ∉ url.pathname.toList)
    (hurl : rt.newURL link none = some url)
    (hfirst : first ∈ ["shorts", "live", "video"]) (hrest : rest ≠ []) :
    Faithful rt .youtube link url ↔ YoutubeCareful url := by
  have hcollects := collects_site h hsite hlist
  have hnames := names_site h hsite
  have hcollection := youtube_isCollectionURL hurl
  rw [youtubeIsCollection_eq h, hlist] at hcollection
  rw [careful_site h hsite hlist]
  have hnone : ∀ word ∈ ["shorts", "live", "video"], startsWith word "watch" = false ∧
      startsWith word "playlist" = false ∧ startsWith word "@" = false ∧
      word ∉ ["channel", "c", "user", "playlist"] := by decide
  obtain ⟨hwatch, hplaylist, hat, hother⟩ := hnone first hfirst
  obtain ⟨second, more, rfl⟩ := List.exists_cons_of_ne_nil hrest
  have hcollects' : collects .youtube url = false := by
    simp only [hcollects, hother, hat, Bool.false_eq_true, or_self, decide_false]
  simp only [List.mem_cons, List.not_mem_nil, or_false, not_or] at hother
  simp only [hplaylist, hat, hother, false_and, decide_false, Bool.or_self] at hcollection
  rw [faithful_of_video hcollects', hcollection, hnames, if_pos hfirst]
  show _ ∧ (∀ id, (youtube rt).getVideoId link = .ok id → ∃ video, id = some video ∧
    some second = some video ∧ Clean video) ↔ _
  have hsegments : ∀ id ∈ some second, id ∈ segments url := by
    rintro id ⟨⟩
    rw [h.segments_eq]
    exact List.mem_cons_of_mem _ List.mem_cons_self
  rw [youtube_video hurl, youtubeVideoId_segment h hsite hwatch]
  show _ ∧ (∀ id, Except.ok (some second) = Except.ok id → _) ↔ _
  rw [segment_video_iff hpath hsegments]
  simp only [hwatch, hplaylist, hfirst, Bool.false_eq_true, false_implies, true_and, true_implies,
    List.head?_cons, Option.some.injEq, exists_eq_left', ne_eq]

/-- `/@…` -/
theorem handle_iff (hurl : rt.newURL link none = some url)
    (hat : startsWith first "@" = true) :
    Faithful rt .youtube link url ↔ YoutubeCareful url := by
  have hcollects := collects_site h hsite hlist
  have hcollection := youtube_isCollectionURL hurl
  rw [youtubeIsCollection_eq h, hlist] at hcollection
  rw [careful_site h hsite hlist]
  have hwatch : startsWith first "watch" = false := startsWith_exclusive hat (by decide) (by decide)
  have hplaylist : startsWith first "playlist" = false :=
    startsWith_exclusive hat (by decide) (by decide)
  have hnone : ∀ word ∈ ["shorts", "live", "video"], startsWith word "@" = false := by decide
  have hcollects' : collects .youtube url = true := by
    rw [hcollects, decide_eq_true_eq]
    exact .inr hat
  simp only [hat, Bool.or_true, Bool.true_or] at hcollection
  rw [faithful_of_collection hcollects', hwatch, hplaylist]
  exact iff_of_true hcollection ⟨fun hcontra => absurd hcontra Bool.false_ne_true,
    fun hcontra => absurd hcontra Bool.false_ne_true,
    fun hmem => absurd rfl (ne_of_startsWith hat (hnone first hmem))⟩

/-- On the site, it depends on what the path begins with. -/
theorem youtube_site_iff (hpath : '?' ∉ url.pathname.toList) (hurl : rt.newURL link none = some url)
    (haccepts : youtubeCanHandle url = true) :
    Faithful rt .youtube link url ↔ YoutubeCareful url := by
  rcases accepted_cases h hsite haccepts with ⟨hwatch, v, hv, hne⟩ | ⟨hfirst, hrest⟩ | hplaylist |
    ⟨hfirst, hrest⟩ | hat
  · exact watch_iff h hsite hlist hurl hwatch hv hne
  · exact channel_iff h hsite hlist hurl hfirst hrest
  · exact playlist_iff h hsite hlist hurl hplaylist
  · exact shorts_iff h hsite hlist hpath hurl hfirst hrest
  · exact handle_iff h hsite hlist hurl hat

end Site

theorem youtube_faithful_iff (hrt : UrlStandard rt) (hurl : rt.newURL link none = some url)
    (haccepts : (youtube rt).canHandleURL link = .ok true) :
    Faithful rt .youtube link url ↔ YoutubeCareful url := by
  have hcan : youtubeCanHandle url = true := by
    have hlink : (youtube rt).canHandleURL link = .ok (youtubeCanHandle url) := by
      show (rt.url link >>= fun url => pure (youtubeCanHandle url)) = _
      rw [Runtime.url_eq_ok hurl]
      rfl
    exact Except.ok.inj (hlink.symm.trans haccepts)
  obtain ⟨first, rest, h⟩ := path_of_accepted hrt hurl hcan
  obtain ⟨hpath, -⟩ := hrt.path hurl
  cases hlist : publicList url with
  | true =>
    have hcollects : collects .youtube url = true := by
      show (publicList url || _) = true
      rw [hlist, Bool.true_or]
    rw [faithful_of_collection hcollects, youtube_isCollectionURL hurl, youtubeIsCollection_eq h, hlist,
      Bool.or_true]
    exact iff_of_true rfl (.inl hlist)
  | false =>
    cases hshort : isShort url with
    | true => exact youtube_short_iff hpath hurl h hlist hshort
    | false => exact youtube_site_iff h hshort hlist hpath hurl hcan

end Links

end OpenTogetherTube.Server.YoutubeLinks
