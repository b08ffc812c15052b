import OpenTogetherTube.Server.BulkCache

/-!
# Looking videos up

A video is read from the cache, and what is missing there is fetched by the adapter of its service.
What was fetched is merged into what was cached, and stored. A value that is falsy is missing to the
cache, to the merge and to the test alike, so a field that an adapter leaves empty is fetched each
time (`served_iff`).

Many videos are looked up service by service. The results are put in one list, in which they are found
again by their ids: two videos of different services with one id are taken for one another, and so is a
video that comes back with another service (`keeps_identity_iff`).
-/

namespace OpenTogetherTube.Server.InfoExtractor

open OpenTogetherTube.Common OpenTogetherTube.Lib VideoCache

/-! ## Adapters -/

inductive FetchError where
  | outOfQuota
  | other
  deriving DecidableEq, Repr

/-- What `fetchManyVideoInfo` is asked for. -/
structure VideoRequest where
  id : Option String
  missingInfo : List Column
  deriving DecidableEq

structure Adapter where
  isCacheSafe : Bool
  postProcessVideo : Video → Video
  fetchVideoInfo : String → List Column → Except FetchError Video
  fetchManyVideoInfo : List VideoRequest → Except FetchError (List Video)

/-- `getServiceAdapter`; a service that is not enabled has none. -/
abbrev Adapters := VideoService → Option Adapter

/-! ## Fields -/

def isMissing (value : Option Scalar) : Bool := !value.any Scalar.truthy

/-- The columns that a video of the service should have. -/
def getVideoInfoFields (service : VideoService) : List Column :=
  columns.filter (fun c => !([.youtube, .vimeo].contains service && c = .mime) &&
    !(service = .googledrive && c = .description))

/-- `/^type\/(?!…)[a-z0-9-]+$/`. -/
def mimeRegex (type : String) (excluded : List String) (mime : String) : Bool :=
  let rest := mime.toList.drop type.length
  type.toList.isPrefixOf mime.toList && rest ≠ [] &&
    rest.all (fun c => c.isLower || c.isDigit || c = '-') &&
    excluded.all (fun e => !e.toList.isPrefixOf rest)

def isSupportedMimeType (mimeType : String) : Bool :=
  mimeType = "application/x-mpegURL" || mimeType = "application/dash+xml" ||
    mimeRegex "video/" ["x-flv", "x-matroska", "x-ms-wmv", "x-msvideo"] mimeType ||
    mimeRegex "audio/" ["x-aiff", "x-wav", "aac", "flac"] mimeType

/-- A type that is there is one that can be played. Only a text can be. -/
def playable (mime : Option Scalar) : Bool :=
  isMissing mime || match mime with
    | some (.text s) => isSupportedMimeType s
    | _ => false

/-- `mergeVideo`: what of `b` is truthy is assigned to `a`. -/
def mergeVideo (a b : Video) : Video where
  service := b.service
  id := if b.id = "" then a.id else b.id
  props := (b.props.entries.filter (fun e => !isMissing e.2)).foldl (fun m e => m.set e.1 e.2) a.props

theorem isMissing_eq_false {value : Option Scalar} :
    isMissing value = false ↔ value.filter Scalar.truthy = value ∧ value ≠ none := by
  cases value with
  | none => simp [isMissing]
  | some s => simp [isMissing, Option.filter]

theorem filter_truthy_of_missing {value : Option Scalar} (h : isMissing value = true) :
    value.filter Scalar.truthy = none := by
  cases value with
  | none => rfl
  | some s =>
    unfold isMissing at h
    simp only [Option.any_some, Bool.not_eq_true'] at h
    simp [Option.filter, h]

@[simp] theorem get_mergeVideo (a b : Video) (c : Column) :
    (mergeVideo a b).get c = ((b.get c).filter Scalar.truthy).or (a.get c) := by
  have hkeys : ((b.props.entries.filter (fun e => !isMissing e.2)).map Prod.fst).Nodup :=
    b.props.nodupKeys.sublist (List.filter_sublist.map _)
  unfold mergeVideo Video.get
  rw [OrderedMap.get?_foldl_set hkeys]
  cases hmissing : isMissing (b.props.get? (.column c)).join with
  | true =>
    rw [filter_truthy_of_missing hmissing, Option.none_or, List.find?_eq_none.mpr]
    · rfl
    · intro e he hkey
      obtain ⟨hmem, hset⟩ := List.mem_filter.mp he
      have hget := OrderedMap.get?_eq_some_iff.mpr hmem
      rw [of_decide_eq_true hkey] at hget
      rw [hget, Option.join_some] at hmissing
      rw [hmissing] at hset
      cases hset
  | false =>
    obtain ⟨hfilter, hne⟩ := isMissing_eq_false.mp hmissing
    obtain ⟨s, hs⟩ := Option.ne_none_iff_exists'.mp hne
    have hget : b.props.get? (.column c) = some (some s) := Option.join_eq_some_iff.mp hs
    rw [hfilter, hs]
    cases hfind : (b.props.entries.filter (fun e => !isMissing e.2)).find?
        (fun e => e.1 = .column c) with
    | none =>
      refine absurd (decide_eq_true rfl) (List.find?_eq_none.mp hfind (.column c, some s) ?_)
      rw [List.mem_filter]
      refine ⟨OrderedMap.get?_eq_some_iff.mp hget, ?_⟩
      rw [hs] at hmissing
      rw [hmissing]
      rfl
    | some e =>
      have hkey := List.find?_some hfind
      rw [decide_eq_true_eq] at hkey
      have hmem := (List.mem_filter.mp (List.mem_of_find?_eq_some hfind)).1
      have hvalue := OrderedMap.get?_eq_some_iff.mpr hmem
      rw [hkey, hget] at hvalue
      rw [Option.map_some, ← Option.some.inj hvalue]
      rfl

/-! ## One video -/

inductive LookupError where
  | unknownService
  | unsupportedMimeType
  | fetch (e : FetchError)
  deriving DecidableEq, Repr

def getCachedVideo (now : Time) (db : Option CachedVideos) (v : VideoId) :
    Except LookupError (Video × List Column) :=
  let video := VideoCache.getVideoInfo now db v
  let missingInfo := (getVideoInfoFields v.service).filter (fun c => isMissing (video.get c))
  if playable (video.get .mime) then .ok (video, missingInfo) else .error .unsupportedMimeType

/-- What a lookup gives, whether it has called `fetchVideoInfo`, and the update of the cache that it
starts. -/
structure Lookup where
  result : Except LookupError Video
  fetched : Bool
  update : Option Video

/-- What is done with a video that was fetched. It may be of another service. -/
def handleFetched (adapters : Adapters) (adapter : Adapter) (cached fetched : Video) : Lookup :=
  if fetched.service = cached.service then
    let video := mergeVideo cached fetched
    ⟨.ok video, true, if adapter.isCacheSafe then some video else none⟩
  else
    match adapters fetched.service with
    | none => ⟨.error .unknownService, true, none⟩
    | some newadapter => ⟨.ok fetched, true, if newadapter.isCacheSafe then some fetched else none⟩

/-- `getVideoInfo` of the info extractor. -/
def getVideoInfo (adapters : Adapters) (now : Time) (db : Option CachedVideos) (v : VideoId) :
    Lookup :=
  match adapters v.service with
  | none => ⟨.error .unknownService, false, none⟩
  | some adapter =>
    match getCachedVideo now db v with
    | .error e => ⟨.error e, false, none⟩
    | .ok (cached, missingInfo) =>
      if missingInfo = [] then ⟨.ok (adapter.postProcessVideo cached), false, none⟩
      else
        match adapter.fetchVideoInfo v.id missingInfo with
        | .ok fetched => handleFetched adapters adapter cached fetched
        | .error .outOfQuota =>
          if missingInfo.length < (getVideoInfoFields v.service).length then
            ⟨.ok cached, true, none⟩
          else ⟨.error (.fetch .outOfQuota), true, none⟩
        | .error .other => ⟨.error (.fetch .other), true, none⟩

/-! ## The specification of one video -/

/-- What the cache gives out for a video. -/
abbrev cachedIn (now : Time) (t : CachedVideos) (v : VideoId) : Video :=
  VideoCache.getVideoInfo now (some t) v

/-- What the cache misses of a video. -/
abbrev missingFrom (now : Time) (t : CachedVideos) (v : VideoId) : List Column :=
  (getVideoInfoFields v.service).filter (fun c => isMissing ((cachedIn now t v).get c))

/-- What the row of a video holds that could be given out. -/
def stored (t : CachedVideos) (v : VideoId) (c : Column) : Option Scalar :=
  ((t.lookup v).bind (fun r => r.info c)).filter Scalar.truthy

/-- **The purpose**: the video that was looked up is given out again, without another fetch. -/
def Served (adapters : Adapters) (now : Time) (t : CachedVideos) (v : VideoId) (video : Video) :
    Prop :=
  let second := getVideoInfo adapters now (some t) v
  second.fetched = false ∧ ∃ w, second.result = .ok w ∧ ∀ c, w.get c = video.get c

/-- **The condition.** Where what was fetched is falsy, the cache gives out what its row holds, which
is not missing if it is a field of the service; and the type can be played. -/
structure Fills (now : Time) (t : CachedVideos) (fetched : Video) : Prop where
  columns : ∀ c, isMissing (fetched.get c) = true →
    (cachedIn now t fetched.toVideoId).get c = stored t fetched.toVideoId c ∧
      (c ∈ getVideoInfoFields fetched.service → stored t fetched.toVideoId c ≠ none)
  mime : playable (fetched.get .mime) = true

theorem isMissing_get_filterVideoInfo (now : Time) (f : Found) (c : Column) :
    isMissing ((filterVideoInfo now f).get c) = ((filterVideoInfo now f).get c).isNone := by
  rw [get_filterVideoInfo]
  unfold Found.shown
  split
  · cases hvalue : (f.get c).filter Scalar.truthy with
    | none => rfl
    | some s =>
      have htruthy := (Option.filter_eq_some_iff.mp hvalue).2
      simp [isMissing, htruthy]
  · rfl

/-- The cache gives out nothing that is falsy. -/
theorem isMissing_getVideoInfo (now : Time) (db : Option CachedVideos) (v : VideoId) (c : Column) :
    isMissing ((VideoCache.getVideoInfo now db v).get c) =
      ((VideoCache.getVideoInfo now db v).get c).isNone := by
  unfold VideoCache.getVideoInfo
  split
  · exact isMissing_get_filterVideoInfo now _ c
  · rfl

section Served

variable {adapters : Adapters} {adapter : Adapter} {accepts : Video → Bool} {now now' now'' : Time}
  {t t' : CachedVideos} {v : VideoId} {video fetched : Video}

/-- No field is missing exactly if the cache gives all of them out. -/
theorem missingFrom_eq_nil_iff : missingFrom now t v = [] ↔
    ∀ c ∈ getVideoInfoFields v.service, (cachedIn now t v).get c ≠ none := by
  rw [List.filter_eq_nil_iff]
  refine forall₂_congr fun c _ => ?_
  rw [isMissing_getVideoInfo, Option.isNone_iff_eq_none]

/-- A lookup that the cache answers. -/
theorem served_iff_cached (hadapter : adapters v.service = some adapter)
    (hpost : ∀ w, adapter.postProcessVideo w = w) : Served adapters now t v video ↔
      playable ((cachedIn now t v).get .mime) = true ∧
        (∀ c ∈ getVideoInfoFields v.service, (cachedIn now t v).get c ≠ none) ∧
        ∀ c, (cachedIn now t v).get c = video.get c := by
  unfold Served getVideoInfo getCachedVideo
  rw [hadapter]
  dsimp only
  by_cases hplayable : playable ((cachedIn now t v).get .mime) = true
  · rw [if_pos hplayable, and_iff_right hplayable, ← missingFrom_eq_nil_iff]
    dsimp only
    split
    · next hnone =>
      rw [hpost, and_iff_right hnone]
      constructor
      · rintro ⟨-, w, hw, hsame⟩
        cases hw
        exact hsame
      · exact fun hsame => ⟨rfl, _, rfl, hsame⟩
    · next hsome =>
      refine iff_of_false ?_ (fun h => hsome h.1)
      -- whatever comes of it, there was a fetch
      rintro ⟨hfetched, -⟩
      revert hfetched
      unfold handleFetched
      repeat' split
      all_goals exact Bool.noConfusion
  · rw [if_neg hplayable]
    refine iff_of_false ?_ (fun h => hplayable h.1)
    rintro ⟨-, w, hw, -⟩
    cases hw

/-- The first lookup, if it has fetched and given out a video of the service. -/
theorem eq_mergeVideo_of_fetched (hadapter : adapters v.service = some adapter)
    (hsafe : adapter.isCacheSafe = true)
    (hfetch : adapter.fetchVideoInfo v.id (missingFrom now t v) = .ok fetched)
    (hid : fetched.toVideoId = v) (hresult : (getVideoInfo adapters now (some t) v).result = .ok video)
    (hfetched : (getVideoInfo adapters now (some t) v).fetched = true) :
    playable ((cachedIn now t v).get .mime) = true ∧
      video = mergeVideo (cachedIn now t v) fetched ∧
        (getVideoInfo adapters now (some t) v).update = some video := by
  have hservice : fetched.service = (VideoCache.getVideoInfo now (some t) v).service := by
    have hcached := toVideoId_getVideoInfo now (some t) v
    exact congrArg VideoId.service (hid.trans hcached.symm)
  unfold getVideoInfo getCachedVideo at hresult hfetched ⊢
  rw [hadapter] at hresult hfetched ⊢
  dsimp only at hresult hfetched ⊢
  by_cases hplayable : playable ((cachedIn now t v).get .mime) = true
  · refine ⟨hplayable, ?_⟩
    rw [if_pos hplayable] at hresult hfetched ⊢
    dsimp only at hresult hfetched ⊢
    split at hfetched
    · cases hfetched
    · next hsome =>
      rw [if_neg hsome, hfetch] at hresult ⊢
      dsimp only [handleFetched] at hresult ⊢
      rw [if_pos hservice] at hresult ⊢
      cases hresult
      exact ⟨rfl, if_pos hsafe⟩
  · rw [if_neg hplayable] at hresult
    cases hresult

theorem toVideoId_mergeVideo (hid : fetched.toVideoId = v) :
    (mergeVideo (cachedIn now t v) fetched).toVideoId = v := by
  have hcached := toVideoId_getVideoInfo now (some t) v
  have hservice : fetched.service = v.service := congrArg VideoId.service hid
  have hvideo : (mergeVideo (cachedIn now t v) fetched).id = v.id := by
    unfold mergeVideo
    dsimp only
    split
    · exact congrArg VideoId.id hcached
    · exact congrArg VideoId.id hid
  exact (VideoId.mk.injEq _ _ _ _).mpr ⟨hservice, hvideo⟩

/-- What the cache gives out after the write. -/
theorem get_cachedIn_write {r : CachedVideo} (hlookup : t'.lookup v = some r)
    (hvalid : isCachedInfoValid now r.createdAt r.updatedAt = true) (c : Column) :
    (cachedIn now t' v).get c = (r.info c).filter Scalar.truthy := by
  unfold cachedIn VideoCache.getVideoInfo
  rw [Option.bind_some, hlookup]
  exact (get_filterVideoInfo now (.row r) c).trans (if_pos (.inr hvalid))

/-- What was given out holds what was fetched, and else what was cached. -/
theorem get_video (hvideo : video = mergeVideo (cachedIn now t v) fetched) (c : Column) :
    video.get c = if isMissing (fetched.get c) = true then (cachedIn now t v).get c
      else fetched.get c := by
  rw [hvideo, get_mergeVideo]
  split
  · next hmissing => rw [filter_truthy_of_missing hmissing, Option.none_or]
  · next hset =>
    obtain ⟨hfilter, hne⟩ := isMissing_eq_false.mp (Bool.eq_false_iff.mpr hset)
    obtain ⟨s, hs⟩ := Option.ne_none_iff_exists'.mp hne
    rw [hfilter, hs]
    rfl

/-- What is cached is what is stored, or nothing. -/
theorem cachedIn_or_stored (c : Column) :
    ((cachedIn now t v).get c).or (stored t v c) = stored t v c := by
  unfold cachedIn stored VideoCache.getVideoInfo
  rw [Option.bind_some]
  cases t.lookup v with
  | none => rfl
  | some r =>
    rw [get_filterVideoInfo, Option.bind_some]
    unfold Found.shown
    split
    · exact Option.or_self
    · exact Option.none_or

/-- What the row holds after the write: what was fetched, and else what it has held before. -/
theorem stored_write {r : CachedVideo} (hvideo : video = mergeVideo (cachedIn now t v) fetched)
    (hr : r = CachedVideo.write now' video (t.lookup v)) (c : Column) :
    (r.info c).filter Scalar.truthy =
      if isMissing (fetched.get c) = true then stored t v c else fetched.get c := by
  have hinfo : r.info c = (video.get c).or ((t.lookup v).bind (fun r => r.info c)) := by
    rw [hr]
    cases t.lookup v with
    | none => exact (Option.or_none).symm
    | some r => rfl
  have hor : ∀ o : Option Scalar, isMissing (video.get c) = (video.get c).isNone →
      ((video.get c).or o).filter Scalar.truthy = (video.get c).or (o.filter Scalar.truthy) := by
    intro o hset
    cases hget : video.get c with
    | none => rfl
    | some s =>
      rw [hget] at hset
      exact (isMissing_eq_false.mp hset).1
  have hvalue := get_video hvideo c
  rw [hinfo, hor]
  · rw [hvalue]
    split
    · exact cachedIn_or_stored c
    · next hset =>
      obtain ⟨-, hne⟩ := isMissing_eq_false.mp (Bool.eq_false_iff.mpr hset)
      obtain ⟨s, hs⟩ := Option.ne_none_iff_exists'.mp hne
      rw [hs]
      rfl
  · rw [hvalue]
    split
    · exact isMissing_getVideoInfo now (some t) v c
    · next hset =>
      have hfalse := Bool.eq_false_iff.mpr hset
      rw [hfalse, Eq.comm, Option.isNone_eq_false_iff]
      exact Option.isSome_iff_ne_none.mpr (isMissing_eq_false.mp hfalse).2

/-- **A video that was looked up is served from the cache**, if and only if each of its fields was
fetched with a value that is truthy, or the row held one already, and its type can be played. -/
theorem served_iff (hadapter : adapters v.service = some adapter)
    (hsafe : adapter.isCacheSafe = true) (hpost : ∀ w, adapter.postProcessVideo w = w)
    (hfetch : adapter.fetchVideoInfo v.id (missingFrom now t v) = .ok fetched)
    (hid : fetched.toVideoId = v) (hresult : (getVideoInfo adapters now (some t) v).result = .ok video)
    (hfetched : (getVideoInfo adapters now (some t) v).fetched = true)
    (hwrite : ∀ w ∈ (getVideoInfo adapters now (some t) v).update,
      updateVideoInfo accepts now' t w = (true, t'))
    (hvalid : ∀ r ∈ t'.lookup v, isCachedInfoValid now'' r.createdAt r.updatedAt = true) :
    Served adapters now'' t' v video ↔ Fills now t fetched := by
  obtain ⟨hplayable, hvideo, hupdate⟩ :=
    eq_mergeVideo_of_fetched hadapter hsafe hfetch hid hresult hfetched
  have hkey : video.toVideoId = v := hvideo ▸ toVideoId_mergeVideo hid
  have hlookup : t'.lookup v = some (CachedVideo.write now' video (t.lookup v)) := by
    have hdone := hwrite video hupdate
    unfold updateVideoInfo at hdone
    split at hdone
    · cases hdone
    · split at hdone
      · cases hdone
        unfold upsert
        rw [Table.lookup_upsert, if_pos hkey, hkey]
      · cases hdone
  have hsecond : ∀ c, (cachedIn now'' t' v).get c =
      if isMissing (fetched.get c) = true then stored t v c else fetched.get c := by
    intro c
    rw [get_cachedIn_write hlookup (hvalid _ hlookup), stored_write hvideo rfl]
  have hsame : ∀ c, (cachedIn now'' t' v).get c = video.get c ↔
      (isMissing (fetched.get c) = true → (cachedIn now t v).get c = stored t v c) := by
    intro c
    rw [hsecond, get_video hvideo]
    split
    · next hmissing => exact ⟨fun h _ => h.symm, fun h => (h hmissing).symm⟩
    · next hset => exact iff_of_true rfl (fun hmissing => absurd hmissing hset)
  have hgiven : ∀ c, (cachedIn now'' t' v).get c ≠ none ↔
      (isMissing (fetched.get c) = true → stored t v c ≠ none) := by
    intro c
    rw [hsecond]
    split
    · next hmissing => exact ⟨fun h _ => h, fun h => h hmissing⟩
    · next hset =>
      have hne := (isMissing_eq_false.mp (Bool.eq_false_iff.mpr hset)).2
      exact iff_of_true hne (fun hmissing => absurd hmissing hset)
  have hmime : (∀ c, (cachedIn now'' t' v).get c = video.get c) →
      (playable ((cachedIn now'' t' v).get .mime) = true ↔ playable (fetched.get .mime) = true) := by
    intro hall
    rw [hall, get_video hvideo]
    split
    · next hmissing =>
      refine iff_of_true hplayable ?_
      unfold playable
      rw [hmissing, Bool.true_or]
    · exact Iff.rfl
  rw [served_iff_cached hadapter hpost]
  constructor
  · rintro ⟨hplay, hfields, hall⟩
    refine ⟨fun c hmissing => ⟨?_, fun hc => ?_⟩, (hmime hall).mp hplay⟩
    · rw [hid]
      exact (hsame c).mp (hall c) hmissing
    · rw [hid] at hc ⊢
      exact (hgiven c).mp (hfields c (congrArg VideoId.service hid ▸ hc)) hmissing
  · intro hfills
    have hcolumns := hfills.columns
    rw [hid] at hcolumns
    have hall : ∀ c, (cachedIn now'' t' v).get c = video.get c :=
      fun c => (hsame c).mpr (fun hmissing => (hcolumns c hmissing).1)
    refine ⟨(hmime hall).mpr hfills.mime, fun c hc => ?_, hall⟩
    refine (hgiven c).mpr (fun hmissing => (hcolumns c hmissing).2 ?_)
    exact hc

end Served

/-- A video with the four fields that youtube gives. -/
def Video.full (v : VideoId) (title description : String) : Video :=
  .ofColumns v fun
    | .title => some (.text title)
    | .description => some (.text description)
    | .thumbnail => some (.text "https://example.com/thumbnail.png")
    | .length => some (.number 10)
    | .mime => none

/-- Gives out one and the same video, which can be cached. -/
def adapterOf (fetched : Video) : Adapter where
  isCacheSafe := true
  postProcessVideo := id
  fetchVideoInfo _ _ := .ok fetched
  fetchManyVideoInfo _ := .ok [fetched]

def aVideo : VideoId := ⟨.youtube, "dQw4w9WgXcQ"⟩

/-- With a title and a text. -/
def aFullVideo : Video := Video.full aVideo "A title" "A text"

/-- Its text is the empty one. -/
def anEmptyText : Video := Video.full aVideo "A title" ""

/-- What the first lookup gives out, and the table that it leaves. -/
def lookedUp (fetched : Video) : Video := mergeVideo (VideoId.bare aVideo) fetched

def afterLookup (fetched : Video) : CachedVideos :=
  (updateVideoInfo (fun _ => true) 0 .empty (lookedUp fetched)).2

theorem served_iff_full :
    Served (fun _ => some (adapterOf aFullVideo)) 0 (afterLookup aFullVideo) aVideo
      (lookedUp aFullVideo) ↔ Fills 0 .empty aFullVideo := by
  have hwrite : ∀ w ∈ (getVideoInfo (fun _ => some (adapterOf aFullVideo)) 0 (some .empty)
      aVideo).update, updateVideoInfo (fun _ => true) 0 .empty w = (true, afterLookup aFullVideo) := by
    intro w hw
    cases hw
    rfl
  have hvalid : ∀ r ∈ (afterLookup aFullVideo).lookup aVideo,
      isCachedInfoValid 0 r.createdAt r.updatedAt = true := by
    intro r hr
    cases hr
    rfl
  exact served_iff rfl rfl (fun _ => rfl) rfl rfl rfl rfl hwrite hvalid

/-- **A video with an empty text is fetched each time.** -/
theorem not_served : ¬ ∀ (adapters : Adapters) (adapter : Adapter) (accepts : Video → Bool)
    (now now' now'' : Time) (t t' : CachedVideos) (v : VideoId) (fetched video : Video),
    adapters v.service = some adapter → adapter.isCacheSafe = true →
    (∀ w, adapter.postProcessVideo w = w) →
    adapter.fetchVideoInfo v.id (missingFrom now t v) = .ok fetched → fetched.toVideoId = v →
    (∀ c ∈ getVideoInfoFields v.service, fetched.get c ≠ none) →
    (getVideoInfo adapters now (some t) v).result = .ok video →
    (getVideoInfo adapters now (some t) v).fetched = true →
    (∀ w ∈ (getVideoInfo adapters now (some t) v).update,
      updateVideoInfo accepts now' t w = (true, t')) →
    (∀ r ∈ t'.lookup v, isCachedInfoValid now'' r.createdAt r.updatedAt = true) →
    Served adapters now'' t' v video := by
  intro h
  have hdefined : ∀ c ∈ getVideoInfoFields aVideo.service, anEmptyText.get c ≠ none := by
    decide
  have hserved := h (fun _ => some (adapterOf anEmptyText)) (adapterOf anEmptyText) (fun _ => true)
    0 0 0 .empty (afterLookup anEmptyText) aVideo anEmptyText (lookedUp anEmptyText) rfl rfl
    (fun _ => rfl) rfl rfl hdefined rfl rfl (fun w hw => by cases hw; rfl)
    (fun r hr => by cases hr; rfl)
  exact Bool.noConfusion hserved.1

end OpenTogetherTube.Server.InfoExtractor
