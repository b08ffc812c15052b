import OpenTogetherTube.Server.PlutoLinks
import OpenTogetherTube.Server.YoutubeLinks

/-!
# Links by their classes

Reddit and Tubi look for a word anywhere in a link, and Reddit reads the id from the text of the link as
well. A parameter `sort=comments` makes a video of a listing, and a query behind a post becomes part of
its id, unless there is a slash between them.

`classified_iff` is about all four services, and every link that they can handle.
-/

namespace OpenTogetherTube.Server.ClassifiedLinks

open OpenTogetherTube.Common OpenTogetherTube.Lib Adapters LinkClasses Neighbours

section Links

variable {rt : Runtime} {link : String} {url : Url}

/-! ## Reddit -/

theorem idxOf?_append_cons {word : String} {front : List String} (h : word ∉ front)
    (back : List String) : (front ++ word :: back).idxOf? word = some front.length := by
  induction front with
  | nil => simp [List.idxOf?_cons]
  | cons part front ih =>
    obtain ⟨hpart, hfront⟩ := not_or.mp (fun hor => h (List.mem_cons.mpr hor))
    rw [List.cons_append, List.idxOf?_cons, ih hfront, if_neg (by rw [beq_iff_eq]; exact Ne.symm hpart)]
    rfl

theorem append_cons_inj {word : String} {front front' back back' : List String} (h : word ∉ front)
    (h' : word ∉ front') (heq : front ++ word :: back = front' ++ word :: back') :
    front = front' ∧ back = back' := by
  have hlength := congrArg (List.idxOf? word) heq
  rw [idxOf?_append_cons h, idxOf?_append_cons h', Option.some.injEq] at hlength
  obtain ⟨hfront, hback⟩ := List.append_inj heq hlength
  exact ⟨hfront, (List.cons.inj hback).2⟩

theorem reddit_video (rt : Runtime) (link : String) : (reddit rt).getVideoId link =
    .ok (match (split link '/').idxOf? "comments" with
      | none => (split link '/')[0]?
      | some i => (split link '/')[i + 1]?) := by
  show (match (split link '/').idxOf? "comments" with
    | none => Except.ok (split link '/')[0]?
    | some i => .ok (split link '/')[i + 1]?) = _
  cases (split link '/').idxOf? "comments" <;> rfl

/-- What `getVideoId` finds. -/
theorem reddit_id_iff (rt : Runtime) {id : String} :
    (reddit rt).getVideoId link = .ok (some id) ↔
      (∃ front back, split link '/' = front ++ "comments" :: id :: back ∧ "comments" ∉ front) ∨
        ("comments" ∉ split link '/' ∧ (split link '/').head? = some id) := by
  rw [reddit_video, Except.ok.injEq]
  by_cases hmem : "comments" ∈ split link '/'
  · obtain ⟨front, back, hparts, hfront⟩ := List.eq_append_cons_of_mem hmem
    have hnext : (split link '/')[front.length + 1]? = back[0]? := by
      rw [hparts, List.getElem?_append_right (by omega), Nat.add_sub_cancel_left,
        List.getElem?_cons_succ]
    rw [hparts, idxOf?_append_cons hfront, ← hparts]
    dsimp only
    rw [hnext]
    constructor
    · intro hid
      cases back with
      | nil => cases hid
      | cons part back =>
        cases hid
        exact .inl ⟨front, back, hparts, hfront⟩
    · rintro (⟨front', back', hparts', hfront'⟩ | ⟨hno, -⟩)
      · rw [(append_cons_inj hfront hfront' (hparts.symm.trans hparts')).2]
        rfl
      · exact absurd hmem hno
  · rw [List.idxOf?_eq_none_iff.mpr hmem]
    dsimp only
    rw [← List.head?_eq_getElem?]
    constructor
    · exact fun hid => .inr ⟨hmem, hid⟩
    · rintro (⟨front, back, hparts, -⟩ | ⟨-, hid⟩)
      · rw [hparts] at hmem
        exact absurd (List.mem_append_right _ List.mem_cons_self) hmem
      · exact hid

theorem reddit_faithful_iff (hpath : '?' ∉ url.pathname.toList) :
    Faithful rt .reddit link url ↔ RedditCareful link url := by
  unfold RedditCareful
  cases hafter : after "comments" (segments url) with
  | none =>
    have hcollects : collects .reddit url = true := by
      show (after "comments" (segments url)).isNone = true
      rw [hafter]
      rfl
    rw [faithful_of_collection hcollects]
    show Except.ok (!includes link "comments") = Except.ok true ↔ _
    rw [Except.ok.injEq, Bool.not_eq_true']
  | some id =>
    have hcollects : collects .reddit url = false := by
      show (after "comments" (segments url)).isNone = false
      rw [hafter]
      rfl
    obtain ⟨hmem, hne⟩ := after_spec hafter
    have hclean : Clean id := .of_mem_segments hpath hmem hne
    rw [faithful_of_video hcollects]
    show Except.ok (!includes link "comments") = Except.ok false ∧ _ ↔ _
    rw [Except.ok.injEq, Bool.not_eq_false']
    refine and_congr_right fun _ => ?_
    rw [← reddit_id_iff rt]
    constructor
    · intro hvideo
      obtain ⟨video, hid, hnames, -⟩ := hvideo _ (reddit_video rt link)
      have hsame : some id = some video := hafter.symm.trans hnames
      rw [reddit_video, hid, hsame]
    · intro hid id' hid'
      cases hid.symm.trans hid'
      exact ⟨id, rfl, hafter, hclean⟩

/-! ## Tubi -/

theorem tubiVideo_cons (kind : String) (rest : List String) : tubiVideo (kind :: rest) =
    if kind ∈ ["tv-shows", "movies", "video"] then rest[0]?
    else if kind = "oz" ∧ rest[0]? = some "videos" then rest[1]?
    else none := rfl

theorem tubi_video (hurl : rt.newURL link none = some url) : (tubi rt).getVideoId link =
    if (segments url)[0]? = some "tv-shows" ∨ (segments url)[0]? = some "movies" then
      .ok (segments url)[1]?
    else if (segments url)[0]? = some "oz" then .ok (segments url)[2]?
    else .error .other := by
  show (rt.url link >>= fun url => _) = _
  rw [Runtime.url_eq_ok hurl, getElem?_segments, getElem?_segments, getElem?_segments]
  rfl

/-- The id is the one that the path names, exactly if there is something where it is read. -/
theorem tubi_id_iff (hpath : '?' ∉ url.pathname.toList) (hurl : rt.newURL link none = some url) :
    (∀ id, (tubi rt).getVideoId link = .ok id →
      ∃ video, id = some video ∧ tubiVideo (segments url) = some video ∧ Clean video) ↔
    ∀ first rest, segments url = first :: rest →
      (first ∈ ["tv-shows", "movies"] → ∃ id, rest[0]? = some id ∧ id ≠ "") ∧
      (first = "oz" → rest[0]? = some "videos" ∧ ∃ id, rest[1]? = some id ∧ id ≠ "") := by
  rw [tubi_video hurl]
  cases hsegments : segments url with
  | nil => exact iff_of_true (fun id hid => by cases hid) (fun first rest h => by cases h)
  | cons first rest =>
    have hrest : ∀ i : Nat, ∀ id ∈ rest[i]?, id ∈ segments url := by
      intro i id hid
      rw [hsegments]
      exact List.mem_cons_of_mem _ (List.mem_of_getElem? hid)
    simp only [List.getElem?_cons_zero, List.getElem?_cons_succ, Option.some.injEq]
    rw [forall_cons_iff rfl, tubiVideo_cons]
    by_cases hkind : first = "tv-shows" ∨ first = "movies"
    · have hmem : first ∈ ["tv-shows", "movies", "video"] ∧ first ∈ ["tv-shows", "movies"] ∧
          first ≠ "oz" := by
        rcases hkind with rfl | rfl <;> decide
      rw [if_pos hkind, if_pos hmem.1, segment_video_iff hpath (hrest 0)]
      simp only [hmem.2.1, hmem.2.2, forall_const, false_implies, and_true]
      exact exists_congr fun id => ⟨fun h => ⟨h.1, h.2.2⟩, fun h => ⟨h.1, h.1, h.2⟩⟩
    · by_cases hoz : first = "oz"
      · subst hoz
        have hvideo : "oz" ∉ ["tv-shows", "movies"] ∧ "oz" ∉ ["tv-shows", "movies", "video"] := by
          decide
        rw [if_neg hkind, if_pos rfl, if_neg hvideo.2, segment_video_iff hpath (hrest 1)]
        simp only [hvideo.1, false_implies, true_and, forall_const]
        -- the id is read whatever the segment in between is
        by_cases hvideos : rest[0]? = some "videos"
        · rw [if_pos hvideos, iff_true_intro hvideos, true_and]
          exact exists_congr fun id => ⟨fun h => ⟨h.1, h.2.2⟩, fun h => ⟨h.1, h.1, h.2⟩⟩
        · rw [if_neg hvideos]
          exact iff_of_false (fun ⟨_, _, h, _⟩ => by cases h) (fun h => hvideos h.1)
      · -- there is an error, for `/video/…` as well
        rw [if_neg hkind, if_neg hoz]
        refine iff_of_true (fun id hid => by cases hid) ⟨fun hmem => ?_, fun h => absurd h hoz⟩
        rw [List.mem_cons, List.mem_singleton] at hmem
        exact absurd hmem hkind

theorem tubi_faithful_iff (hpath : '?' ∉ url.pathname.toList) (hurl : rt.newURL link none = some url) :
    Faithful rt .tubi link url ↔ TubiCareful link url := by
  unfold TubiCareful
  by_cases hseries : (segments url).head? = some "series"
  · have hcollects : collects .tubi url = true := decide_eq_true hseries
    rw [faithful_of_collection hcollects, iff_true_right hseries]
    show Except.ok (includes link "series") = Except.ok true ↔ _
    rw [Except.ok.injEq]
    refine (and_iff_left ?_).symm
    intro first rest hsegments
    rw [hsegments, List.head?_cons] at hseries
    cases hseries
    exact ⟨fun h => absurd h (by decide), fun h => absurd h (by decide)⟩
  · have hcollects : collects .tubi url = false := decide_eq_false hseries
    rw [faithful_of_video hcollects, iff_false_right hseries, Bool.not_eq_true]
    show Except.ok (includes link "series") = Except.ok false ∧ _ ↔ _
    rw [Except.ok.injEq]
    exact and_congr_right fun _ => tubi_id_iff hpath hurl

end Links

/-! ## All four -/

/-- **Links are classified by their paths, and videos have the ids that these name**, exactly if the
condition of the service holds. -/
theorem classified_iff {rt : Runtime} (hrt : UrlStandard rt) (service : Service) {link : String}
    {url : Url} (hurl : rt.newURL link none = some url)
    (haccepts : (adapter rt service).canHandleURL link = .ok true) :
    Faithful rt service link url ↔ Careful service link url := by
  obtain ⟨hpath, -⟩ := hrt.path hurl
  cases service with
  | youtube => exact YoutubeLinks.youtube_faithful_iff hrt hurl haccepts
  | reddit => exact reddit_faithful_iff hpath
  | tubi => exact tubi_faithful_iff hpath hurl
  | pluto => exact PlutoLinks.pluto_faithful_iff hpath hurl

/-! ## A search that is sorted by comments -/

def sorted : String := "https://www.reddit.com/r/videos/search?sort=comments"

def sortedUrl : Url :=
  ⟨"https:", "www.reddit.com", "www.reddit.com", "/r/videos/search", [("sort", "comments")]⟩

/-- The URL parser, on this link. -/
def oneSearch : Runtime where
  newURL input _ := if input = sorted then some sortedUrl else none
  setPathname url path := { url with pathname := path }
  parsePath _ := none
  normalize := id

theorem newURL_sorted : oneSearch.newURL sorted none = some sortedUrl := by
  simp [oneSearch]

theorem urlStandard_oneSearch : UrlStandard oneSearch := by
  have hone : ∀ {input base url}, oneSearch.newURL input base = some url → url = sortedUrl := by
    intro input base url h
    simp only [oneSearch] at h
    split at h
    · exact (Option.some.inj h).symm
    · cases h
  constructor
  · intro input base url h
    rw [hone h]
    decide
  · intro input base url h _
    rw [hone h]
    decide

theorem classified_iff_sorted : Faithful oneSearch .reddit sorted sortedUrl ↔
    Careful .reddit sorted sortedUrl :=
  classified_iff urlStandard_oneSearch .reddit newURL_sorted (by decide +kernel)

/-- **A listing of a subreddit is taken for a video**, whose id is `https:`. -/
theorem not_classified : ¬ ∀ (rt : Runtime) (service : Service) (link : String) (url : Url),
    UrlStandard rt → rt.newURL link none = some url →
    (adapter rt service).canHandleURL link = .ok true → Faithful rt service link url := by
  intro h
  have hcollection := (h oneSearch .reddit sorted sortedUrl urlStandard_oneSearch newURL_sorted
    (by decide +kernel)).collection
  revert hcollection
  decide +kernel

end OpenTogetherTube.Server.ClassifiedLinks
