import OpenTogetherTube.Server.Escapes

/-!
# Paths of Odysee

A link to Odysee is normalised before it is read: its path is decoded, composed, and encoded again.
What it means should stay the same, segment by segment, so that a video has one id however its link is
written (`KeepsMeaning`).

`decodeURI` keeps the escapes of reserved characters, and `encodeURI` escapes their percent signs: a
colon that arrives as `%3A` is no colon afterwards. `keeps_meaning_iff` says that nothing else goes
wrong.

What is taken from the standards is in `Nfc` and in `UrlStandard`. A URL whose path cannot be set, such
as that of a mail address, is left as it is.
-/

namespace OpenTogetherTube.Server.OdyseePaths

open OpenTogetherTube.Common OpenTogetherTube.Lib Adapters Escapes Instances

/-! ## The standards -/

/-- Characters that nothing is composed with, or to. -/
def inert : List Char := ['/', '?', '#', '%']

structure Nfc (normalize : String → String) : Prop where
  idempotent : ∀ s, normalize (normalize s) = normalize s
  empty : normalize "" = ""
  dots : ∀ s ∈ [".", ".."], ∀ t, normalize t = s → t = s
  count : ∀ c ∈ inert, ∀ s, (normalize s).toList.count c = s.toList.count c
  /-- Nothing is composed across a slash. -/
  slash : ∀ a b, normalize (a ++ "/" ++ b) = normalize a ++ "/" ++ normalize b

/-- The path has segments. -/
def Rooted (url : Url) : Prop := url.pathname.toList.head? = some '/'

instance (url : Url) : Decidable (Rooted url) := inferInstanceAs (Decidable (_ = _))

def IsDots (segment : String) : Prop := ∃ s ∈ [".", ".."], decodeURIComponent segment = some s

/-- A path that is set as it is: nothing in it has to be escaped, and no segment leads up. -/
structure Settable (path : String) : Prop where
  rooted : path.toList.head? = some '/'
  chars : ∀ c ∈ path.toList, isUnreserved c = true ∨ c = '%' ∨
    (isReservedURI c = true ∧ c ≠ '?' ∧ c ≠ '#')
  segments : ∀ segment ∈ split path '/', ¬ IsDots segment

structure UrlStandard (rt : Runtime) : Prop where
  nfc : Nfc rt.normalize
  /-- What is behind a path is not in it. -/
  path : ∀ {input base url}, rt.newURL input base = some url →
    '?' ∉ url.pathname.toList ∧ '#' ∉ url.pathname.toList
  segments : ∀ {input base url}, rt.newURL input base = some url → Rooted url →
    ∀ segment ∈ split url.pathname '/', ¬ IsDots segment
  set : ∀ {url : Url} {path : String}, Rooted url → Settable path →
    rt.setPathname url path = { url with pathname := path }
  /-- Such a path is empty, or it cannot be set. -/
  rootless : ∀ {input base url}, rt.newURL input base = some url → ¬ Rooted url →
    (∀ path, (url.pathname = "" → path = "") → rt.setPathname url path = url) ∧
      (url.pathname ≠ "" → url.hostname = "")

/-! ## The specification -/

section Specification

variable (rt : Runtime)

/-- `normalizeOdyseeUrl`, of a URL. Its text is parsed to the URL again. -/
def normalizeUrl (url : Url) : Option Url :=
  (decodeURI url.pathname).map (fun decodedPath =>
    rt.setPathname url (encodeURI (rt.normalize decodedPath)))

theorem normalizeOdyseeUrl_eq (input : String) : normalizeOdyseeUrl rt input =
    (rt.newURL input (some "https://odysee.com")).bind (normalizeUrl rt) := by
  unfold normalizeOdyseeUrl normalizeUrl
  cases rt.newURL input (some "https://odysee.com") with
  | none => rfl
  | some url =>
    show ((decodeURI url.pathname).bind fun decodedPath =>
      some (rt.setPathname url (encodeURI (rt.normalize decodedPath)))) = _
    rw [Option.bind_some]
    cases decodeURI url.pathname <;> rfl

/-- The LBRY URI of the parts of a path. -/
def lbryOf (parts : List String) : Option String :=
  match parts.filter (· ≠ "") with
  | [] => none
  | first :: rest =>
    if startsWith first "@" then
      some ("lbry://" ++ claim first ++ (rest.head?.map (fun part => "/" ++ claim part)).getD "")
    else if rest = [] ∧ ':' ∈ first.toList then some ("lbry://" ++ claim first)
    else none

/-- What a URL says: its segments, decoded and composed. -/
def meaning (url : Url) : List (Option String) :=
  (split url.pathname '/').map (fun segment => (decodeURIComponent segment).map rt.normalize)

/-- The id of the video that a URL leads to, by what it says. -/
def videoOf (url : Url) : Option String :=
  if domainRegex "odysee.com" url.hostname then lbryOf ((meaning rt url).filterMap id) else none

/-- The link is one to the web site. -/
structure OdyseeLink (link : String) (own : Url) : Prop where
  parsed : rt.newURL link none = some own
  site : isHostUnderDomain own.hostname "odysee.com" = true
  content : isHostUnderDomain own.hostname "odycdn.com" = false
  given : link ≠ ""
  web : startsWith link "lbry://" = false

/-- **The purpose**: the segments say the same as before; there is nothing left to normalise; and the
id of a link depends on what it says alone. -/
structure KeepsMeaning (input : String) (url result : Url) : Prop where
  segments : (split result.pathname '/').map decodeURIComponent = meaning rt url
  twice : normalizeUrl rt result = some result
  id : ∀ own, OdyseeLink rt input own → (odysee rt).getVideoId input =
    match videoOf rt url with
    | none => .error (.invalidVideoId .odysee input)
    | some id => .ok (some id)

/-- **The condition**: no escape is of a reserved character. A path that cannot be set is composed. -/
def Faithful (url : Url) : Prop :=
  if Rooted url then ∀ segment ∈ split url.pathname '/', reservedEscapes segment.toList = false
  else ∀ segment ∈ split url.pathname '/',
    (decodeURIComponent segment).map rt.normalize = decodeURIComponent segment

end Specification

/-! ## Composing segment by segment -/

section Composing

variable {normalize : String → String} {text : String}

theorem Nfc.not_mem (hnfc : Nfc normalize) {c : Char} (hc : c ∈ inert) (h : c ∉ text.toList) :
    c ∉ (normalize text).toList := by
  rw [← List.count_eq_zero, hnfc.count c hc, List.count_eq_zero]
  exact h

/-- **A path is composed segment by segment.** -/
theorem split_normalize (hnfc : Nfc normalize) (text : String) :
    split (normalize text) '/' = (split text '/').map normalize := by
  -- by the length, as the segments in front are taken off
  induction hn : text.length using Nat.strong_induction_on generalizing text with
  | _ n ih =>
    by_cases hslash : '/' ∈ text.toList
    · obtain ⟨front, rest, hsplit, hfront⟩ := List.eq_append_cons_of_mem hslash
      have htext : text = String.ofList front ++ "/" ++ String.ofList rest := by
        rw [← String.toList_inj, hsplit, String.toList_append, String.toList_append,
          String.toList_ofList, String.toList_ofList, List.append_assoc]
        exact congrArg (fun l => front ++ '/' :: l) String.toList_ofList.symm
      have hfront' : '/' ∉ (String.ofList front).toList := by
        rw [String.toList_ofList]
        exact hfront
      have hlength : (String.ofList rest).length < n := by
        rw [← hn, ← String.length_toList, ← String.length_toList, hsplit, String.toList_ofList,
          List.length_append, List.length_cons]
        omega
      rw [htext, hnfc.slash, split_slash (hnfc.not_mem (by decide) hfront'), split_slash hfront',
        ih _ hlength _ rfl, List.map_cons]
    · rw [split_of_not_mem hslash, split_of_not_mem (hnfc.not_mem (by decide) hslash),
        List.map_singleton]

/-- What is decoded and composed is the same either way, if no escape is of a reserved character. -/
theorem normalize_decoded_iff (hnfc : Nfc normalize) {s d : List Char}
    (h : Decodes isReservedURI s d) :
    some (normalize (String.ofList d)) = (decodeURIComponent (String.ofList s)).map normalize ↔
      reservedEscapes s = false := by
  obtain ⟨d', hd', -, hsame, hlt⟩ := h.full
  have hdecoded : decodeURIComponent (String.ofList s) = some (String.ofList d') := by
    rw [decodeURIComponent_iff, String.toList_ofList, String.toList_ofList]
    exact hd'
  rw [hdecoded, Option.map_some, Option.some.injEq]
  constructor
  · intro heq
    rw [← Bool.not_eq_true]
    intro hsome
    have hcount := congrArg (fun t : String => t.toList.count '%') heq
    rw [hnfc.count '%' (by decide), hnfc.count '%' (by decide), String.toList_ofList,
      String.toList_ofList] at hcount
    exact absurd hcount (Nat.ne_of_gt (hlt hsome))
  · exact fun hnone => by rw [hsame hnone]

theorem map_normalize_decoded_iff (hnfc : Nfc normalize) {ss ds : List (List Char)}
    (h : List.Forall₂ (Decodes isReservedURI) ss ds) :
    ds.map (fun d => some (normalize (String.ofList d))) =
        ss.map (fun s => (decodeURIComponent (String.ofList s)).map normalize) ↔
      ∀ s ∈ ss, reservedEscapes s = false := by
  induction h with
  | nil => exact iff_of_true rfl (fun _ h => absurd h List.not_mem_nil)
  | cons hd _ ih =>
    rw [List.map_cons, List.map_cons, List.cons.injEq, List.forall_mem_cons,
      normalize_decoded_iff hnfc hd, ih]

/-- A path, decoded by `decodeURI`. -/
theorem segments_decodeURI {path decoded : String} (h : decodeURI path = some decoded) :
    List.Forall₂ (Decodes isReservedURI) (path.toList.splitOn '/') (decoded.toList.splitOn '/') :=
  (decodeURI_iff.mp h).segments (by decide)

theorem map_decode_encode (l : List String) : (l.map encodeURI).map decodeURIComponent = l.map some := by
  rw [List.map_map]
  refine List.map_congr_left fun s _ => ?_
  rw [Function.comp_apply, decodeURIComponent_encodeURI]

/-- **What the new path says is what the old one says**, if no escape is of a reserved character. -/
theorem map_decode_iff (hnfc : Nfc normalize) {path decoded : String}
    (h : decodeURI path = some decoded) :
    (split (encodeURI (normalize decoded)) '/').map decodeURIComponent =
        (split path '/').map (fun segment => (decodeURIComponent segment).map normalize) ↔
      ∀ segment ∈ split path '/', reservedEscapes segment.toList = false := by
  have hdecode : (split (encodeURI (normalize decoded)) '/').map decodeURIComponent =
      (decoded.toList.splitOn '/').map (fun d => some (normalize (String.ofList d))) := by
    rw [split_encodeURI, map_decode_encode, split_normalize hnfc]
    unfold split
    rw [List.map_map, List.map_map, Function.comp_def, Function.comp_def]
  have hmeaning : (split path '/').map (fun segment => (decodeURIComponent segment).map normalize) =
      (path.toList.splitOn '/').map
        (fun s => (decodeURIComponent (String.ofList s)).map normalize) := by
    unfold split
    rw [List.map_map, Function.comp_def]
  rw [hdecode, hmeaning, map_normalize_decoded_iff hnfc (segments_decodeURI h)]
  unfold split
  rw [List.forall_mem_map]
  refine forall₂_congr fun s _ => ?_
  rw [String.toList_ofList]

end Composing

/-! ## Normalising a URL -/

section Normalising

variable {rt : Runtime} {input : String} {base : Option String} {url result : Url} {decoded : String}

theorem head_of_decodes {keep : Char → Bool} {d : List Char} {t : List Char}
    (h : Decodes keep ('/' :: t) d) : ∃ d', d = '/' :: d' := by
  generalize htext : '/' :: t = text at h
  cases h with
  | nil => cases htext
  | plain _ hd =>
    obtain ⟨rfl, -⟩ := List.cons.inj htext
    exact ⟨_, rfl⟩
  | escape he hd =>
    obtain ⟨a, b, e', rfl, -⟩ := he.starts
    exact absurd (List.cons.inj htext).1 (by decide)

/-- **A path that was normalised can be set.** -/
theorem settable (hrt : UrlStandard rt) (hurl : rt.newURL input base = some url) (hroot : Rooted url)
    (hdecoded : decodeURI url.pathname = some decoded) :
    Settable (encodeURI (rt.normalize decoded)) := by
  have hdecodes := decodeURI_iff.mp hdecoded
  obtain ⟨hquestion, hhash⟩ := hrt.path hurl
  have hnone : ∀ c ∈ ['?', '#'], c ∉ decoded.toList := by
    intro c hc
    have hraw : c ∉ url.pathname.toList := by
      rcases List.mem_cons.mp hc with rfl | hc
      · exact hquestion
      · cases List.mem_singleton.mp hc
        exact hhash
    have hreserved : isReservedURI c = true ∧ isUnreserved c = false := by
      rcases List.mem_cons.mp hc with rfl | hc
      · decide
      · cases List.mem_singleton.mp hc
        decide
    exact hdecodes.not_mem hreserved.1 hraw
  refine ⟨?_, fun c hc => ?_, fun segment hsegment => ?_⟩
  · obtain ⟨t, ht⟩ : ∃ t, url.pathname.toList = '/' :: t := by
      cases hpath : url.pathname.toList with
      | nil =>
        unfold Rooted at hroot
        rw [hpath] at hroot
        cases hroot
      | cons c t =>
        unfold Rooted at hroot
        rw [hpath] at hroot
        cases hroot
        exact ⟨t, rfl⟩
    rw [ht] at hdecodes
    obtain ⟨d, hd⟩ := head_of_decodes hdecodes
    have htext : decoded = "" ++ "/" ++ String.ofList d := by
      rw [← String.toList_inj, hd, String.toList_append, String.toList_ofList]
      rfl
    rw [htext, hrt.nfc.slash, hrt.nfc.empty, encodeURI_eq, String.toList_ofList,
      String.toList_append]
    rfl
  · rw [encodeURI_eq, String.toList_ofList] at hc
    obtain ⟨x, hx, hmem⟩ := List.mem_flatMap.mp hc
    rcases mem_encodeChar hmem with h | h | ⟨rfl, h⟩
    · exact .inl h
    · exact .inr (.inl h)
    · refine .inr (.inr ⟨h, ?_, ?_⟩)
      · rintro rfl
        exact hrt.nfc.not_mem (by decide) (hnone '?' (by decide)) hx
      · rintro rfl
        exact hrt.nfc.not_mem (by decide) (hnone '#' (by decide)) hx
  · -- a segment that says a dot has said it before
    rintro ⟨dots, hdots, hsays⟩
    rw [split_encodeURI, split_normalize hrt.nfc, List.map_map] at hsegment
    obtain ⟨part, hpart, rfl⟩ := List.mem_map.mp hsegment
    rw [Function.comp_apply, decodeURIComponent_encodeURI, Option.some.injEq] at hsays
    have hsame := hrt.nfc.dots dots hdots part hsays
    subst hsame
    obtain ⟨d, hd, hpart'⟩ := List.mem_map.mp hpart
    obtain ⟨s, hs, hsd⟩ := Lines.exists_of_forall₂ (segments_decodeURI hdecoded) hd
    obtain ⟨d', hd', -, hplain, hlt⟩ := hsd.full
    have hpercent : d.count '%' = 0 := by
      have hfree : ∀ s ∈ [".", ".."], s.toList.count '%' = 0 := by decide
      rw [← hfree part hdots, ← hpart', String.toList_ofList]
    have hdots' : decodeURIComponent (String.ofList s) = some part := by
      rw [decodeURIComponent_iff, String.toList_ofList, ← hpart', String.toList_ofList]
      cases hescapes : reservedEscapes s with
      | false => exact hplain hescapes ▸ hd'
      | true =>
        have hless := hlt hescapes
        omega
    exact hrt.segments hurl hroot (String.ofList s) (List.mem_map_of_mem hs) ⟨part, hdots, hdots'⟩

theorem normalizeUrl_rooted (hrt : UrlStandard rt) (hurl : rt.newURL input base = some url)
    (hroot : Rooted url) (hdecoded : decodeURI url.pathname = some decoded) :
    normalizeUrl rt url = some { url with pathname := encodeURI (rt.normalize decoded) } := by
  unfold normalizeUrl
  rw [hdecoded, Option.map_some, hrt.set hroot (settable hrt hurl hroot hdecoded)]

/-- **Normalising twice is normalising once.** -/
theorem normalizeUrl_normalized (hrt : UrlStandard rt) (hurl : rt.newURL input base = some url)
    (hroot : Rooted url) (hdecoded : decodeURI url.pathname = some decoded) :
    normalizeUrl rt { url with pathname := encodeURI (rt.normalize decoded) } =
      some { url with pathname := encodeURI (rt.normalize decoded) } := by
  have hsettable := settable hrt hurl hroot hdecoded
  have hset : rt.setPathname { url with pathname := encodeURI (rt.normalize decoded) }
      (encodeURI (rt.normalize decoded)) =
        { url with pathname := encodeURI (rt.normalize decoded) } :=
    hrt.set hsettable.rooted hsettable
  unfold normalizeUrl
  rw [decodeURI_encodeURI, Option.map_some, hrt.nfc.idempotent, hset]

/-- A path that cannot be set stays. -/
theorem normalizeUrl_rootless (hrt : UrlStandard rt) (hurl : rt.newURL input base = some url)
    (hroot : ¬ Rooted url) (hdecoded : decodeURI url.pathname = some decoded) :
    normalizeUrl rt url = some url := by
  unfold normalizeUrl
  rw [hdecoded, Option.map_some, (hrt.rootless hurl hroot).1]
  intro hempty
  have hnone : decoded = "" := by
    rw [hempty] at hdecoded
    exact (Option.some.inj hdecoded).symm
  rw [hnone, hrt.nfc.empty]
  rfl

/-- The LBRY URI is read off the result. -/
theorem parseOdyseeUrlToLbry_eq (hgiven : input ≠ "") (hweb : startsWith input "lbry://" = false)
    (hresult : normalizeOdyseeUrl rt input = some result)
    (hdecoded : decodeURI result.pathname = some decoded) :
    parseOdyseeUrlToLbry rt input =
      if domainRegex "odysee.com" result.hostname then lbryOf (split (rt.normalize decoded) '/')
      else none := by
  unfold parseOdyseeUrlToLbry
  rw [if_neg hgiven, if_neg (by rw [hweb]; decide), hresult]
  cases hhost : domainRegex "odysee.com" result.hostname with
  | false => simp [hhost]
  | true =>
    simp only [hhost, hdecoded, bind, Option.bind_some, if_true, Bool.true_eq_false, if_false]
    rfl

theorem getVideoId_eq {own : Url} (hlink : OdyseeLink rt input own) : (odysee rt).getVideoId input =
    match parseOdyseeUrlToLbry rt input with
    | none => .error (.invalidVideoId .odysee input)
    | some id => .ok (some id) := by
  unfold odysee
  cases hid : parseOdyseeUrlToLbry rt input with
  | none => simp [hlink.parsed, hlink.content, hid]
  | some id => simp [hlink.parsed, hlink.content, hlink.site, hid]

end Normalising

/-! ## What is kept -/

section Keeping

variable {rt : Runtime} {input : String} {url result : Url} {decoded : String}

theorem meaning_eq_of_faithful (hnfc : Nfc rt.normalize)
    (hdecoded : decodeURI url.pathname = some decoded)
    (h : ∀ segment ∈ split url.pathname '/', reservedEscapes segment.toList = false) :
    (meaning rt url).filterMap id = split (rt.normalize decoded) '/' := by
  have hsame := (map_decode_iff hnfc hdecoded).mpr h
  unfold meaning
  rw [← hsame, split_encodeURI, map_decode_encode, List.filterMap_map]
  exact List.filterMap_some

/-- A URL whose path cannot be set leads to no video. -/
theorem videoOf_rootless (hrt : UrlStandard rt)
    (hurl : rt.newURL input (some "https://odysee.com") = some url) (hroot : ¬ Rooted url) :
    videoOf rt url = none ∧ (url.pathname ≠ "" → domainRegex "odysee.com" url.hostname = false) := by
  have hhost : url.pathname ≠ "" → domainRegex "odysee.com" url.hostname = false := by
    intro hpath
    rw [(hrt.rootless hurl hroot).2 hpath]
    decide
  refine ⟨?_, hhost⟩
  unfold videoOf
  by_cases hpath : url.pathname = ""
  · have hmeaning : meaning rt url = [some ""] := by
      unfold meaning
      rw [hpath]
      show [(decodeURIComponent "").map rt.normalize] = _
      rw [show decodeURIComponent "" = some "" from rfl, Option.map_some, hrt.nfc.empty]
    rw [hmeaning]
    split <;> rfl
  · rw [hhost hpath]
    rfl

/-- **Normalising keeps what a path means**, if and only if none of its escapes is of a reserved
character (and a path that cannot be set is composed already). -/
theorem keeps_meaning_iff (hrt : UrlStandard rt)
    (hurl : rt.newURL input (some "https://odysee.com") = some url)
    (hresult : normalizeOdyseeUrl rt input = some result) :
    KeepsMeaning rt input url result ↔ Faithful rt url := by
  have hnormal : normalizeUrl rt url = some result := by
    rw [normalizeOdyseeUrl_eq, hurl] at hresult
    exact hresult
  obtain ⟨decoded, hdecoded⟩ : ∃ decoded, decodeURI url.pathname = some decoded := by
    unfold normalizeUrl at hnormal
    obtain ⟨decoded, hdecoded, -⟩ := Option.map_eq_some_iff.mp hnormal
    exact ⟨decoded, hdecoded⟩
  unfold Faithful
  by_cases hroot : Rooted url
  · rw [if_pos hroot]
    have hpath := normalizeUrl_rooted hrt hurl hroot hdecoded
    cases hnormal.symm.trans hpath
    constructor
    · exact fun hkeeps => (map_decode_iff hrt.nfc hdecoded).mp hkeeps.segments
    · intro hfaithful
      refine ⟨(map_decode_iff hrt.nfc hdecoded).mpr hfaithful,
        normalizeUrl_normalized hrt hurl hroot hdecoded, fun own hlink => ?_⟩
      rw [getVideoId_eq hlink, parseOdyseeUrlToLbry_eq hlink.given hlink.web hresult
        (decodeURI_encodeURI _), hrt.nfc.idempotent]
      unfold videoOf
      rw [meaning_eq_of_faithful hrt.nfc hdecoded hfaithful]
  · rw [if_neg hroot]
    cases hnormal.symm.trans (normalizeUrl_rootless hrt hurl hroot hdecoded)
    have hsegments : (split url.pathname '/').map decodeURIComponent = meaning rt url ↔
        ∀ segment ∈ split url.pathname '/',
          (decodeURIComponent segment).map rt.normalize = decodeURIComponent segment := by
      unfold meaning
      rw [List.map_inj_left]
      exact forall₂_congr fun _ _ => eq_comm
    constructor
    · exact fun hkeeps => hsegments.mp hkeeps.segments
    · intro hfaithful
      refine ⟨hsegments.mpr hfaithful, hnormal, fun own hlink => ?_⟩
      obtain ⟨hnone, hhost⟩ := videoOf_rootless hrt hurl hroot
      rw [hnone, getVideoId_eq hlink, parseOdyseeUrlToLbry_eq hlink.given hlink.web hresult hdecoded]
      by_cases hempty : url.pathname = ""
      · have hdecoded' : decoded = "" := by
          rw [hempty] at hdecoded
          exact (Option.some.inj hdecoded).symm
        have hnoparts : lbryOf (split "" '/') = none := by decide
        rw [hdecoded', hrt.nfc.empty, hnoparts, ite_self]
      · rw [hhost hempty]
        rfl

end Keeping

/-! ### A colon that is escaped -/

def escapedColons : String := "https://odysee.com/@channel%3A1/video%3A2"

def escapedUrl : Url := ⟨"https:", "odysee.com", "odysee.com", "/@channel%3A1/video%3A2", []⟩

/-- The runtime, on this link. -/
def oneLink : Runtime where
  newURL input _ := if input = escapedColons then some escapedUrl else none
  setPathname url path := { url with pathname := path }
  parsePath _ := none
  normalize := id

theorem eq_escapedUrl {input : String} {base : Option String} {url : Url}
    (h : oneLink.newURL input base = some url) : url = escapedUrl := by
  simp only [oneLink] at h
  split at h
  · exact (Option.some.inj h).symm
  · cases h

theorem urlStandard_oneLink : UrlStandard oneLink := by
  refine ⟨⟨fun _ => rfl, rfl, fun s _ t h => h, fun _ _ _ => rfl, fun _ _ => rfl⟩, ?_, ?_,
    fun _ _ => rfl, ?_⟩
  · intro input base url h
    rw [eq_escapedUrl h]
    decide
  · intro input base url h _ segment hsegment
    rw [eq_escapedUrl h] at hsegment
    have hall : ∀ segment ∈ split escapedUrl.pathname '/',
        ∀ s ∈ [".", ".."], decodeURIComponent segment ≠ some s := by decide +kernel
    rintro ⟨s, hs, hsays⟩
    exact hall segment hsegment s hs hsays
  · intro input base url h hroot
    rw [eq_escapedUrl h] at hroot
    exact absurd (by decide) hroot

theorem newURL_escaped (base : Option String) : oneLink.newURL escapedColons base = some escapedUrl := by
  simp [oneLink]

theorem decodeURI_escaped : decodeURI escapedUrl.pathname = some escapedUrl.pathname := by
  decide +kernel

/-- The URL after it was normalised. -/
def encodedTwice : Url := { escapedUrl with pathname := encodeURI escapedUrl.pathname }

theorem normalizeOdyseeUrl_escaped : normalizeOdyseeUrl oneLink escapedColons = some encodedTwice := by
  rw [normalizeOdyseeUrl_eq, newURL_escaped, Option.bind_some,
    normalizeUrl_rooted urlStandard_oneLink (newURL_escaped none) (by decide) decodeURI_escaped]
  rfl

theorem keeps_meaning_iff_escaped :
    KeepsMeaning oneLink escapedColons escapedUrl encodedTwice ↔ Faithful oneLink escapedUrl :=
  keeps_meaning_iff urlStandard_oneLink (newURL_escaped _) normalizeOdyseeUrl_escaped

/-- **The colons are gone.** -/
theorem not_keeps_meaning : ¬ ∀ (rt : Runtime) (input : String) (url result : Url), UrlStandard rt →
    rt.newURL input (some "https://odysee.com") = some url →
    normalizeOdyseeUrl rt input = some result → KeepsMeaning rt input url result := by
  intro h
  have hkeeps := h oneLink escapedColons escapedUrl encodedTwice urlStandard_oneLink
    (newURL_escaped _) normalizeOdyseeUrl_escaped
  have hnone := (map_decode_iff urlStandard_oneLink.nfc decodeURI_escaped).mp hkeeps.segments
    "@channel%3A1" (by decide +kernel)
  revert hnone
  decide +kernel

end OpenTogetherTube.Server.OdyseePaths
