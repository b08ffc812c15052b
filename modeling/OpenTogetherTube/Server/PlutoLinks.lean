import OpenTogetherTube.Server.LinkClasses

/-!
# Links to Pluto

The ids in a link to Pluto are matched by regular expressions that begin anywhere in the path, and go as
far as small letters and digits do. Both search the segments of the path (`plutoSeriesPathRegex_eq`,
`slugBehind_eq`), so what they find can be compared with the segments that the path has in their places
(`pluto_faithful_iff`).
-/

namespace OpenTogetherTube.Server.PlutoLinks

open OpenTogetherTube.Common OpenTogetherTube.Lib Adapters LinkClasses Neighbours

/-! ## Slugs -/

theorem slug_ofList (text : List Char) : slug (String.ofList text) =
    if text.takeWhile isSlugChar = [] then none
    else some (String.ofList (text.takeWhile isSlugChar)) := by
  unfold slug
  rw [String.toList_ofList]

/-- What is made of a slug where there is one. -/
theorem map_slug {β : Type} (f : String → β) (text : List Char) :
    (slug (String.ofList text)).map f =
      if text.takeWhile isSlugChar = [] then none
      else some (f (String.ofList (text.takeWhile isSlugChar))) := by
  rw [slug_ofList]
  split <;> rfl

/-- A slug ends with its segment. -/
theorem local_slug {β : Type} (f : String → β) :
    Local '/' (fun text => (slug (String.ofList text)).map f) := by
  intro piece rest hpiece
  have htake : ∀ piece : List Char,
      (piece ++ '/' :: rest).takeWhile isSlugChar = piece.takeWhile isSlugChar := by
    intro piece
    induction piece with
    | nil => rfl
    | cons c piece ih => rw [List.cons_append, List.takeWhile_cons, List.takeWhile_cons, ih]
  dsimp only
  rw [map_slug, map_slug, htake]

theorem slug_spec {segment s : String} (h : slug segment = some s) :
    s ≠ "" ∧ (∀ c ∈ s.toList, isSlugChar c = true) ∧ slug s = some s := by
  rw [← segment.ofList_toList, slug_ofList] at h
  split at h
  · cases h
  · next hne =>
    cases h
    have hall : ∀ c ∈ segment.toList.takeWhile isSlugChar, isSlugChar c = true :=
      fun c hc => List.mem_takeWhile_imp hc
    refine ⟨fun hempty => hne ?_, ?_, ?_⟩
    · rw [← String.toList_inj, String.toList_ofList] at hempty
      exact hempty
    · rw [String.toList_ofList]
      exact hall
    · rw [slug_ofList, List.takeWhile_eq_self_iff.mpr hall, if_neg hne]

theorem slug_clean {segment s : String} (h : slug segment = some s) : Clean s := by
  obtain ⟨hne, hall, -⟩ := slug_spec h
  refine ⟨hne, fun hmem => ?_, fun hmem => ?_⟩
  · exact absurd (hall _ hmem) (by decide)
  · exact absurd (hall _ hmem) (by decide)

theorem behind_findSome? {β : Type} (literal : String) (text : List Char) (f : List Char → Option β) :
    (behind [literal] text).findSome? f =
      if literal.toList <+: text then f (text.drop literal.length) else none := by
  unfold behind
  rw [List.filterMap_cons, List.filterMap_nil]
  by_cases h : literal.toList <+: text
  · rw [if_pos (List.isPrefixOf_iff_prefix.mpr h), if_pos h]
    dsimp only
    rw [List.findSome?_cons, List.findSome?_nil]
    cases f (text.drop literal.length) <;> rfl
  · rw [if_neg (by rwa [List.isPrefixOf_iff_prefix]), if_neg h]
    rfl

/-- The first of the neighbours, on the characters. -/
theorem firstSlug_map (kind : String → Bool) (pieces : List (List Char)) :
    firstSlug kind (pieces.map String.ofList) = (neighbours pieces).findSome? (fun ab =>
      if kind (String.ofList ab.1) then
        (slug (String.ofList ab.2)).map (String.ofList ab.1, ·) else none) := by
  unfold firstSlug
  rw [neighbours_map, List.findSome?_map]
  rfl

/-- The episode is searched for in the segments. -/
theorem slugBehind_eq (path : String) : slugBehind "episode/" path =
    (firstSlug (endsWith · "episode") (split path '/')).map (·.2) := by
  have hword : '/' ∉ "episode".toList := by decide
  have hsearch := findSome?_readBehind hword (local_slug id) path.toList
  -- the literal is a word and a slash
  have hlhs : slugBehind "episode/" path = path.toList.tails.findSome?
      (readBehind '/' "episode".toList fun text => (slug (String.ofList text)).map id) := by
    unfold slugBehind
    refine congrArg (fun f => List.findSome? f path.toList.tails) (funext fun text => ?_)
    rw [behind_findSome?]
    show (if "episode/".toList <+: text then _ else none) =
      if "episode/".toList <+: text then (slug (String.ofList _)).map id else none
    rw [map_slug]
    rfl
  have hsuffix : ∀ piece : List Char,
      endsWith (String.ofList piece) "episode" = true ↔ "episode".toList <:+ piece := by
    intro piece
    have h := @endsWith_iff (String.ofList piece) "episode"
    rwa [@String.toList_ofList piece] at h
  rw [hlhs, hsearch]
  unfold split
  rw [firstSlug_map, List.map_findSome?]
  refine congrArg (fun f => List.findSome? f _) (funext fun ab => ?_)
  rw [Function.comp_apply]
  by_cases h : "episode".toList <:+ ab.1
  · rw [if_pos h, if_pos ((hsuffix _).mpr h), Option.map_map]
    rfl
  · rw [if_neg h, if_neg (fun hends => h ((hsuffix _).mp hends))]
    rfl

/-- The type and the id are searched for in the segments, too. -/
theorem plutoSeriesPathRegex_eq (path : String) : plutoSeriesPathRegex path =
    firstSlug (["movies", "series"].contains ·) (split path '/').tail := by
  have hwords : ∀ word ∈ ["movies", "series"].map String.toList, '/' ∉ word := by decide
  have hsearch := findSome?_readBetween hwords
    (fun word => local_slug (String.ofList word, ·)) path.toList
  have hlhs : plutoSeriesPathRegex path = path.toList.tails.findSome? (fun t =>
      (["movies", "series"].map String.toList).findSome? (fun word => readBehind '/' ('/' :: word)
        (fun text => (slug (String.ofList text)).map (String.ofList word, ·)) t)) := by
    unfold plutoSeriesPathRegex
    refine congrArg (fun f => List.findSome? f path.toList.tails) (funext fun text => ?_)
    rw [List.findSome?_map]
    refine congrArg (fun f => List.findSome? f ["movies", "series"]) (funext fun type => ?_)
    have htext : ("/" ++ type ++ "/").toList = '/' :: type.toList ++ ['/'] := by
      rw [String.toList_append, String.toList_append]
      rfl
    have hlength : ("/" ++ type ++ "/").length = ('/' :: type.toList).length + 1 := by
      rw [← String.length_toList, htext, List.length_append]
      rfl
    rw [behind_findSome?, Function.comp_apply, readBehind, hlength]
    simp only [htext, map_slug, String.ofList_toList]
    rfl
  have hmem : ∀ piece : List Char, ["movies", "series"].contains (String.ofList piece) = true ↔
      piece ∈ ["movies", "series"].map String.toList := by
    intro piece
    rw [List.contains_iff_mem, List.mem_map]
    constructor
    · exact fun h => ⟨_, h, String.toList_ofList⟩
    · rintro ⟨word, hword, rfl⟩
      rwa [String.ofList_toList]
  rw [hlhs, hsearch]
  unfold split
  rw [← List.map_tail, firstSlug_map]
  refine congrArg (fun f => List.findSome? f _) (funext fun ab => ?_)
  by_cases h : ab.1 ∈ ["movies", "series"].map String.toList
  · rw [if_pos h, if_pos ((hmem _).mpr h)]
  · rw [if_neg h, if_neg (fun hcontains => h ((hmem _).mp hcontains))]

/-! ## Links -/

section Links

variable {rt : Runtime} {link : String} {url : Url}

theorem split_plutoId {type id : String} {episode : Option String} (htype : '/' ∉ type.toList)
    (hid : '/' ∉ id.toList) (hepisode : ∀ e ∈ episode, '/' ∉ e.toList) :
    split (plutoId type id episode) '/' = type :: id :: episode.toList := by
  unfold plutoId
  rw [String.append_assoc, split_slash htype]
  cases episode with
  | none =>
    show type :: split (id ++ "") '/' = _
    rw [String.append_empty, split_of_not_mem hid]
    rfl
  | some e =>
    show type :: split (id ++ ("/" ++ e)) '/' = _
    rw [← String.append_assoc, split_slash hid, split_of_not_mem (hepisode e rfl)]
    rfl

/-- The parts of an id are told apart. -/
theorem plutoId_inj {type id type' id' : String} {episode episode' : Option String}
    (htype : '/' ∉ type.toList) (hid : '/' ∉ id.toList) (hepisode : ∀ e ∈ episode, '/' ∉ e.toList)
    (htype' : '/' ∉ type'.toList) (hid' : '/' ∉ id'.toList)
    (hepisode' : ∀ e ∈ episode', '/' ∉ e.toList)
    (h : plutoId type id episode = plutoId type' id' episode') :
    type = type' ∧ id = id' ∧ episode = episode' := by
  have hsplit := congrArg (split · '/') h
  rw [split_plutoId htype hid hepisode, split_plutoId htype' hid' hepisode'] at hsplit
  obtain ⟨htypes, hrest⟩ := List.cons.inj hsplit
  obtain ⟨hids, hepisodes⟩ := List.cons.inj hrest
  refine ⟨htypes, hids, ?_⟩
  cases episode <;> cases episode' <;> simp_all

/-- Where the path is one of Pluto, the type and the id are in it. -/
theorem plutoParts_spec {segments : List String} {type id : String} {episode : Option String}
    (h : plutoParts segments = some (type, id, episode)) :
    ∃ country rest, segments = country :: "on-demand" :: type :: id :: rest ∧ country.length = 2 ∧
      type ∈ ["movies", "series"] ∧ id ≠ "" ∧ episode = after "episode" rest := by
  unfold plutoParts at h
  split at h
  · split at h
    · next hform =>
      cases h
      obtain ⟨hcountry, rfl, htype, hid⟩ := hform
      exact ⟨_, _, rfl, hcountry, htype, hid, rfl⟩
    · cases h
  · cases h

theorem plutoParts_clean (hpath : '?' ∉ url.pathname.toList) {type id : String}
    {episode : Option String} (h : plutoParts (segments url) = some (type, id, episode)) :
    type ∈ ["movies", "series"] ∧ Clean id ∧ ∀ e ∈ episode, Clean e := by
  obtain ⟨country, rest, hsegments, -, htype, hid, rfl⟩ := plutoParts_spec h
  refine ⟨htype, .of_mem_segments hpath (by rw [hsegments]; simp) hid, fun e he => ?_⟩
  obtain ⟨hmem, hne⟩ := after_spec he
  exact .of_mem_segments hpath (by rw [hsegments]; simp [hmem]) hne

theorem firstSlug_spec {kind : String → Bool} {pieces : List String} {a s : String}
    (h : firstSlug kind pieces = some (a, s)) : kind a = true ∧ Clean s ∧ slug s = some s := by
  unfold firstSlug at h
  obtain ⟨ab, -, hab⟩ := List.exists_of_findSome?_eq_some h
  split at hab
  · next hkind =>
    obtain ⟨s', hs', heq⟩ := Option.map_eq_some_iff.mp hab
    cases heq
    exact ⟨hkind, slug_clean hs', (slug_spec hs').2.2⟩
  · cases hab

theorem firstSlug_cons_cons (kind : String → Bool) (a b : String) (rest : List String) :
    firstSlug kind (a :: b :: rest) =
      (if kind a then (slug b).map (a, ·) else none).or (firstSlug kind (b :: rest)) := by
  unfold firstSlug
  rw [neighbours_cons_cons, List.findSome?_cons]
  cases (if kind a then (slug b).map (a, ·) else none) <;> rfl

/-- What the type leads to is found first. -/
theorem firstSlug_of_plutoParts {segments : List String} {type id : String} {episode : Option String}
    (h : plutoParts segments = some (type, id, episode)) (hslug : slug id = some id) :
    firstSlug (["movies", "series"].contains ·) segments = some (type, id) := by
  obtain ⟨country, rest, rfl, hcountry, htype, -, -⟩ := plutoParts_spec h
  have hcountry' : ¬ ["movies", "series"].contains country = true := by
    rw [List.contains_iff_mem]
    intro hmem
    have hlength : ∀ word ∈ ["movies", "series"], word.length ≠ 2 := by decide
    exact hlength country hmem hcountry
  rw [firstSlug_cons_cons, if_neg hcountry', Option.none_or, firstSlug_cons_cons, if_neg (by decide),
    Option.none_or, firstSlug_cons_cons, if_pos (List.contains_iff_mem.mpr htype), hslug]
  rfl

theorem pluto_video (hurl : rt.newURL link none = some url) : (pluto rt).getVideoId link =
    match firstSlug (["movies", "series"].contains ·) (segments url) with
    | none => .error .other
    | some (type, id) => .ok (some (plutoId type id
        ((firstSlug (endsWith · "episode") (split url.pathname '/')).map (·.2)))) := by
  show (rt.url link >>= fun url => _) = _
  rw [Runtime.url_eq_ok hurl]
  show (match plutoSeriesPathRegex url.pathname with
    | none => throw Failure.other
    | some (type, id) =>
      pure (some (type ++ "/" ++ id ++ ((slugBehind "episode/" url.pathname).map ("/" ++ ·)).getD ""))) = _
  rw [plutoSeriesPathRegex_eq, slugBehind_eq]
  show _ = (match firstSlug _ (split url.pathname '/').tail with
    | none => _
    | some (type, id) => _)
  cases firstSlug (["movies", "series"].contains ·) (split url.pathname '/').tail <;> rfl

theorem pluto_faithful_iff (hpath : '?' ∉ url.pathname.toList) (hurl : rt.newURL link none = some url) :
    Faithful rt .pluto link url ↔ PlutoCareful link url := by
  have hwords : isCollectionURL rt .pluto link =
      .ok (!includes link "episode" && !includes link "movies") := rfl
  unfold PlutoCareful
  cases hcollects : collects .pluto url with
  | true =>
    rw [faithful_of_collection hcollects, hwords, Except.ok.injEq]
    simp
  | false =>
    rw [faithful_of_video hcollects, hwords, Except.ok.injEq]
    have hword : (!includes link "episode" && !includes link "movies") = false ↔
        ((includes link "episode" = true ∨ includes link "movies" = true) ↔ false = false) := by
      cases includes link "episode" <;> cases includes link "movies" <;> decide
    refine and_congr hword ?_
    rw [forall_prop_of_true rfl]
    show (∀ id, (pluto rt).getVideoId link = .ok id → _) ↔ _
    rw [pluto_video hurl]
    cases hfirst : firstSlug (["movies", "series"].contains ·) (segments url) with
    | none => exact iff_of_true (fun id hid => by cases hid) (.inl rfl)
    | some found =>
      obtain ⟨type', id'⟩ := found
      obtain ⟨htype', hid', hslug'⟩ := firstSlug_spec hfirst
      have hepisode' : ∀ e ∈ (firstSlug (endsWith · "episode") (split url.pathname '/')).map (·.2),
          Clean e := by
        intro e he
        obtain ⟨found, hfound, rfl⟩ := Option.map_eq_some_iff.mp he
        exact (firstSlug_spec hfound).2.1
      have htypes : ∀ type ∈ ["movies", "series"], '/' ∉ type.toList := by decide
      constructor
      · -- an id has one reading, so its parts are those of the path
        intro hvideo
        obtain ⟨video, hid, hnames, -⟩ := hvideo _ rfl
        cases hid
        obtain ⟨⟨type, id, episode⟩, hform, heq⟩ := Option.map_eq_some_iff.mp hnames
        obtain ⟨htype, hid, hepisode⟩ := plutoParts_clean hpath hform
        obtain ⟨rfl, rfl, rfl⟩ := plutoId_inj (htypes _ htype) hid.slash
          (fun e he => (hepisode e he).slash) (htypes _ (List.contains_iff_mem.mp htype')) hid'.slash
          (fun e he => (hepisode' e he).slash) heq
        exact .inr ⟨_, _, _, hform, hslug', rfl⟩
      · rintro (hnone | ⟨type, id, episode, hform, hslug, rfl⟩) id hid
        · cases hnone
        · cases hid
          obtain ⟨htype, hclean, hepisode⟩ := plutoParts_clean hpath hform
          cases hfirst.symm.trans (firstSlug_of_plutoParts hform hslug)
          refine ⟨_, rfl, ?_, type', id', _, htype, hclean, hepisode, rfl⟩
          show (plutoParts (segments url)).map _ = _
          rw [hform]
          rfl

end Links

end OpenTogetherTube.Server.PlutoLinks
