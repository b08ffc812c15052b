import OpenTogetherTube.Server.InfoExtractor
import OpenTogetherTube.Lib.Lines

/-!
# Looking many videos up

Many videos are looked up service by service. The results of all services are put in one list, in
which the videos that were asked for are found again, by their ids alone. So two videos of different
services that have one id are taken for one another, and a video that an adapter gives out with the
service of another keeps it (`keeps_identity_iff`).

If one service fails, the lookup fails.
-/

namespace OpenTogetherTube.Server.InfoExtractor

open OpenTogetherTube.Common OpenTogetherTube.Lib VideoCache

/-! ## The videos of one service -/

/-- What is known of the videos before anything is fetched. -/
def cachedMany (adapter : Adapter) (now : Time) (db : Option CachedVideos) (videos : List VideoId) :
    List Returned :=
  if adapter.isCacheSafe then VideoCache.getManyVideoInfo now db (videos.map VideoId.bare)
  else videos.map (fun v => .video (VideoId.bare v))

/-- The request for a video. -/
def requestOf : Returned → VideoRequest
  | .video w =>
    ⟨some w.id, (getVideoInfoFields w.service).filter (fun c => isMissing (w.get c))⟩
  | .renamed w =>
    ⟨none, (getVideoInfoFields w.service).filter (fun c => isMissing (w.get c))⟩

def requestsOf (cached : List Returned) : List VideoRequest :=
  (cached.map requestOf).filter (fun request => request.missingInfo ≠ [])

/-- The first of the fetched videos with the id is merged into the video. -/
def mergeFetched (fetched : List Video) : Returned → Returned
  | .video w =>
    match fetched.find? (fun f => f.id = w.id) with
    | some f => .video (mergeVideo w f)
    | none => .video w
  | .renamed w => .renamed w

def lookupService (adapters : Adapters) (now : Time) (db : Option CachedVideos)
    (videos : List VideoId) (service : VideoService) : Except LookupError (List Returned) :=
  match adapters service with
  | none => .error .unknownService
  | some adapter =>
    let cached := cachedMany adapter now db videos
    let requests := requestsOf cached
    if requests = [] ∧ adapter.isCacheSafe then .ok cached
    else
      match adapter.fetchManyVideoInfo requests with
      | .ok fetched => .ok (cached.map (mergeFetched fetched))
      | .error e => .error (.fetch e)

/-! ## All videos -/

/-- `_.groupBy`: the services in the order in which they are first met. -/
def servicesOf (videos : List VideoId) : List VideoService := (videos.map (·.service)).eraseDups

def ofService (videos : List VideoId) (service : VideoService) : List VideoId :=
  videos.filter (fun v => v.service = service)

/-- `flattened.find(v => v.id === id)`. -/
def findVideo (flattened : List Returned) (id : String) : Option Video :=
  flattened.findSome? fun
    | .video w => if w.id = id then some w else none
    | .renamed _ => none

/-- `getManyVideoInfo`, and the videos that are written to the cache. -/
def getManyVideoInfo (adapters : Adapters) (now : Time) (db : Option CachedVideos)
    (videos : List VideoId) : Except LookupError (List Video × List Video) :=
  match (servicesOf videos).mapM
      (fun service => lookupService adapters now db (ofService videos service) service) with
  | .error e => .error e
  | .ok results =>
    let result := videos.filterMap (fun v => findVideo results.flatten v.id)
    if result.all (fun w => (adapters w.service).isSome) then
      .ok (result, result.filter (fun w => (adapters w.service).any Adapter.isCacheSafe))
    else .error .unknownService

/-! ## What they should do -/

/-- **The purpose**: one video for each that was asked for, in this order, of its service and with its
id. -/
def KeepsIdentity (adapters : Adapters) (now : Time) (db : Option CachedVideos)
    (videos : List VideoId) : Prop :=
  ∃ result update, getManyVideoInfo adapters now db videos = .ok (result, update) ∧
    result.map (·.toVideoId) = videos

/-- What an adapter is asked for, and answers. -/
def fetchMissing (adapter : Adapter) (cached : List Returned) : Except FetchError (List Video) :=
  if requestsOf cached = [] ∧ adapter.isCacheSafe then .ok []
  else adapter.fetchManyVideoInfo (requestsOf cached)

/-- The service of a video has an adapter that answers; the cache, if it is asked, answers; and the
first of the fetched videos that has the id has the service. -/
def Answered (adapters : Adapters) (now : Time) (db : Option CachedVideos) (videos : List VideoId)
    (v : VideoId) : Prop :=
  ∃ adapter fetched, adapters v.service = some adapter ∧
    (adapter.isCacheSafe = true → db ≠ none) ∧
    fetchMissing adapter (cachedMany adapter now db (ofService videos v.service)) = .ok fetched ∧
    ∀ f ∈ fetched.find? (fun f => f.id = v.id), f.service = v.service

/-- **The condition.** -/
structure Distinguishable (adapters : Adapters) (now : Time) (db : Option CachedVideos)
    (videos : List VideoId) : Prop where
  answered : ∀ v ∈ videos, Answered adapters now db videos v
  /-- No id is asked for in two services. -/
  ids : ∀ v ∈ videos, ∀ w ∈ videos, v.id = w.id → v = w

section Service

variable {adapters : Adapters} {adapter : Adapter} {now : Time} {db : Option CachedVideos}
  {videos : List VideoId} {service : VideoService} {cached results : List Returned}
  {fetched : List Video} {v : VideoId} {w : Video}

theorem mergeFetched_nil (x : Returned) : mergeFetched [] x = x := by cases x <;> rfl

/-- To return early is to fetch nothing. -/
theorem lookupService_eq (h : adapters service = some adapter) :
    lookupService adapters now db videos service =
      match fetchMissing adapter (cachedMany adapter now db videos) with
      | .ok fetched => .ok ((cachedMany adapter now db videos).map (mergeFetched fetched))
      | .error e => .error (.fetch e) := by
  unfold lookupService fetchMissing
  rw [h]
  dsimp only
  split
  · have hmerged : (cachedMany adapter now db videos).map (mergeFetched []) =
        cachedMany adapter now db videos := by
      rw [List.map_congr_left fun x _ => mergeFetched_nil x, List.map_id']
    exact congrArg Except.ok hmerged.symm
  · rfl

theorem lookupService_eq_ok_iff : lookupService adapters now db videos service = .ok results ↔
    ∃ adapter fetched, adapters service = some adapter ∧
      fetchMissing adapter (cachedMany adapter now db videos) = .ok fetched ∧
      results = (cachedMany adapter now db videos).map (mergeFetched fetched) := by
  constructor
  · intro h
    cases hadapter : adapters service with
    | none =>
      unfold lookupService at h
      rw [hadapter] at h
      cases h
    | some adapter =>
      rw [lookupService_eq hadapter] at h
      cases hfetch : fetchMissing adapter (cachedMany adapter now db videos) with
      | error e =>
        rw [hfetch] at h
        cases h
      | ok fetched =>
        rw [hfetch] at h
        exact ⟨adapter, fetched, rfl, hfetch, (Except.ok.inj h).symm⟩
  · rintro ⟨adapter, fetched, hadapter, hfetch, rfl⟩
    rw [lookupService_eq hadapter, hfetch]

theorem map_bare (videos : List VideoId) :
    (videos.map VideoId.bare).map (·.toVideoId) = videos := by
  rw [List.map_map]
  exact List.map_id _

/-- What is known beforehand is what was asked for, as long as the cache answers. -/
theorem mem_cachedMany {x : Returned} (hdb : adapter.isCacheSafe = true → db ≠ none)
    (hx : x ∈ cachedMany adapter now db videos) : ∃ w : Video, x = .video w ∧ w.toVideoId ∈ videos := by
  unfold cachedMany at hx
  split at hx
  · next hsafe =>
    obtain ⟨t, rfl⟩ := Option.ne_none_iff_exists'.mp (hdb hsafe)
    exact map_bare videos ▸ mem_getManyVideoInfo hx
  · obtain ⟨v, hv, rfl⟩ := List.mem_map.mp hx
    exact ⟨VideoId.bare v, rfl, hv⟩

theorem exists_mem_cachedMany (hdb : adapter.isCacheSafe = true → db ≠ none) (hv : v ∈ videos) :
    ∃ w : Video, .video w ∈ cachedMany adapter now db videos ∧ w.toVideoId = v := by
  unfold cachedMany
  split
  · next hsafe =>
    obtain ⟨t, rfl⟩ := Option.ne_none_iff_exists'.mp (hdb hsafe)
    exact exists_mem_getManyVideoInfo ((map_bare videos).symm ▸ hv)
  · exact ⟨VideoId.bare v, List.mem_map_of_mem hv, rfl⟩

/-- Without an answer there are no videos. -/
theorem not_video_mem_cachedMany (hsafe : adapter.isCacheSafe = true) :
    Returned.video w ∉ cachedMany adapter now none videos := by
  unfold cachedMany
  rw [if_pos hsafe]
  intro hw
  obtain ⟨v, -, hv⟩ := List.mem_map.mp hw
  cases hv

/-- A merge keeps the id, and takes over the service. -/
theorem mergeFetched_video (fetched : List Video) (w : Video) :
    ∃ w', mergeFetched fetched (.video w) = .video w' ∧ w'.id = w.id ∧
      w'.service = ((fetched.find? (fun f => f.id = w.id)).map (·.service)).getD w.service := by
  unfold mergeFetched
  dsimp only
  cases hfind : fetched.find? (fun f => f.id = w.id) with
  | none => exact ⟨w, rfl, rfl, rfl⟩
  | some f =>
    have hid := List.find?_some hfind
    rw [decide_eq_true_eq] at hid
    refine ⟨mergeVideo w f, rfl, ?_, rfl⟩
    show (if f.id = "" then w.id else f.id) = w.id
    rw [hid, ite_self]

theorem video_of_mergeFetched {x : Returned} (h : mergeFetched fetched x = .video w) :
    ∃ w₀, x = .video w₀ := by
  cases x with
  | video w₀ => exact ⟨w₀, rfl⟩
  | renamed w₀ => cases h

end Service

/-! ### Finding them again -/

section Find

variable {adapters : Adapters} {now : Time} {db : Option CachedVideos} {videos : List VideoId}
  {flattened : List Returned} {results : List (List Returned)} {id : String} {v : VideoId} {w : Video}

theorem mem_of_findVideo (h : findVideo flattened id = some w) :
    .video w ∈ flattened ∧ w.id = id := by
  obtain ⟨x, hx, hfound⟩ := List.exists_of_findSome?_eq_some h
  cases x with
  | video w' =>
    dsimp only at hfound
    split at hfound
    · next hid =>
      cases hfound
      exact ⟨hx, hid⟩
    · cases hfound
  | renamed w' => cases hfound

theorem findVideo_of_mem (hw : .video w ∈ flattened) : ∃ w', findVideo flattened w.id = some w' := by
  apply Option.ne_none_iff_exists'.mp
  intro hnone
  have hskip := List.findSome?_eq_none_iff.mp hnone _ hw
  dsimp only at hskip
  rw [if_pos rfl] at hskip
  cases hskip

/-- Nothing is left out exactly if everything is found, and is what it stands for. -/
theorem filterMap_map_eq_iff {find : VideoId → Option Video} :
    (videos.filterMap find).map (·.toVideoId) = videos ↔
      ∀ v ∈ videos, ∃ w, find v = some w ∧ w.toVideoId = v := by
  induction videos with
  | nil => exact iff_of_true rfl (fun _ h => absurd h List.not_mem_nil)
  | cons v videos ih =>
    rw [List.forall_mem_cons, ← ih]
    cases hfind : find v with
    | none =>
      rw [List.filterMap_cons_none hfind]
      refine iff_of_false (fun heq => ?_) (fun h => by obtain ⟨⟨w, hw, -⟩, -⟩ := h; cases hw)
      have hle := List.length_filterMap_le find videos
      have hlength := congrArg List.length heq
      rw [List.length_map, List.length_cons] at hlength
      omega
    | some w =>
      rw [List.filterMap_cons_some hfind, List.map_cons, List.cons.injEq]
      exact and_congr_left fun _ => ⟨fun h => ⟨w, rfl, h⟩, fun ⟨w', hw', h⟩ => by cases hw'; exact h⟩

theorem mem_servicesOf {service : VideoService} :
    service ∈ servicesOf videos ↔ ∃ v ∈ videos, v.service = service := by
  unfold servicesOf
  rw [List.mem_eraseDups, List.mem_map]

theorem mem_ofService {service : VideoService} :
    v ∈ ofService videos service ↔ v ∈ videos ∧ v.service = service := by
  unfold ofService
  rw [List.mem_filter, decide_eq_true_eq]

/-- A video that is in the list stands for one that was asked for, or for one with the same id. -/
theorem origin (hresults : (servicesOf videos).map
      (fun service => lookupService adapters now db (ofService videos service) service) =
        results.map .ok) (hw : .video w ∈ results.flatten) :
    ∃ v ∈ videos, v.id = w.id ∧ ∃ adapter fetched, adapters v.service = some adapter ∧
      (adapter.isCacheSafe = true → db ≠ none) ∧
      fetchMissing adapter (cachedMany adapter now db (ofService videos v.service)) = .ok fetched ∧
      w.service = ((fetched.find? (fun f => f.id = v.id)).map (·.service)).getD v.service := by
  obtain ⟨xs, hxs, hmem⟩ := List.mem_flatten.mp hw
  have hok : Except.ok xs ∈ results.map (Except.ok (ε := LookupError)) := List.mem_map_of_mem hxs
  rw [← hresults] at hok
  obtain ⟨service, -, hlookup⟩ := List.mem_map.mp hok
  obtain ⟨adapter, fetched, hadapter, hfetch, rfl⟩ := lookupService_eq_ok_iff.mp hlookup
  obtain ⟨x, hx, hmerge⟩ := List.mem_map.mp hmem
  obtain ⟨w₀, rfl⟩ := video_of_mergeFetched hmerge
  have hdb : adapter.isCacheSafe = true → db ≠ none := by
    rintro hsafe rfl
    exact not_video_mem_cachedMany hsafe hx
  obtain ⟨w₀', heq, hid⟩ := mem_cachedMany hdb hx
  cases heq
  obtain ⟨hv, hservice⟩ := mem_ofService.mp hid
  obtain ⟨w', hw', hsame, htaken⟩ := mergeFetched_video fetched w₀
  cases hw'.symm.trans hmerge
  refine ⟨w₀.toVideoId, hv, hsame.symm, adapter, fetched, ?_, hdb, ?_, htaken⟩
  · rw [hservice]
    exact hadapter
  · rw [hservice]
    exact hfetch

/-- Each video that was asked for is in the list with its id, if its service answers. -/
theorem reached (hresults : (servicesOf videos).map
      (fun service => lookupService adapters now db (ofService videos service) service) =
        results.map .ok) (hv : v ∈ videos) (hanswered : Answered adapters now db videos v) :
    ∃ w, .video w ∈ results.flatten ∧ w.id = v.id := by
  obtain ⟨adapter, fetched, hadapter, hdb, hfetch, -⟩ := hanswered
  have hcached : ∃ w₀ : Video, .video w₀ ∈ cachedMany adapter now db (ofService videos v.service) ∧
      w₀.toVideoId = v := exists_mem_cachedMany hdb (mem_ofService.mpr ⟨hv, rfl⟩)
  obtain ⟨w₀, hw₀, hid⟩ := hcached
  obtain ⟨w, hw, hsame, -⟩ := mergeFetched_video fetched w₀
  have hlookup : lookupService adapters now db (ofService videos v.service) v.service =
      .ok ((cachedMany adapter now db (ofService videos v.service)).map (mergeFetched fetched)) :=
    lookupService_eq_ok_iff.mpr ⟨adapter, fetched, hadapter, hfetch, rfl⟩
  have hmem := List.mem_map_of_mem
    (f := fun service => lookupService adapters now db (ofService videos service) service)
    (mem_servicesOf.mpr ⟨v, hv, rfl⟩)
  rw [hresults, hlookup] at hmem
  obtain ⟨xs, hxs, heq⟩ := List.mem_map.mp hmem
  cases heq
  refine ⟨w, List.mem_flatten.mpr ⟨_, hxs, ?_⟩, hsame.trans (congrArg VideoId.id hid)⟩
  rw [← hw]
  exact List.mem_map_of_mem hw₀

end Find

/-- What has kept identity and order was distinguishable. -/
theorem KeepsIdentity.distinguishable {adapters : Adapters} {now : Time} {db : Option CachedVideos}
    {videos : List VideoId} (h : KeepsIdentity adapters now db videos) :
    Distinguishable adapters now db videos := by
  obtain ⟨result, update, hlookup, hsame⟩ := h
  unfold getManyVideoInfo at hlookup
  split at hlookup
  · cases hlookup
  · next results hmap =>
    have hresults := Lines.mapM_eq_ok_iff.mp hmap
    dsimp only at hlookup
    split at hlookup
    · cases hlookup
      have hfound := filterMap_map_eq_iff.mp hsame
      have hids : ∀ v ∈ videos, ∀ w ∈ videos, v.id = w.id → v = w := by
        intro v hv w hw hid
        obtain ⟨x, hx, hxv⟩ := hfound v hv
        obtain ⟨y, hy, hyw⟩ := hfound w hw
        rw [hid, hy] at hx
        cases hx
        exact hxv.symm.trans hyw
      refine ⟨fun v hv => ?_, hids⟩
      obtain ⟨w, hw, hwv⟩ := hfound v hv
      obtain ⟨hmem, -⟩ := mem_of_findVideo hw
      obtain ⟨v', hv', hid, adapter, fetched, hadapter, hdb, hfetch, hservice⟩ :=
        origin hresults hmem
      cases hids v' hv' v hv (hid.trans (congrArg VideoId.id hwv))
      refine ⟨adapter, fetched, hadapter, hdb, hfetch, fun f hf => ?_⟩
      rw [Option.mem_def.mp hf] at hservice
      exact hservice.symm.trans (congrArg VideoId.service hwv)
    · cases hlookup

/-- **A bulk lookup keeps identity and order**, if and only if every service answers with videos of its
own, and no id is asked for in two services. -/
theorem keeps_identity_iff (adapters : Adapters) (now : Time) (db : Option CachedVideos)
    (videos : List VideoId) :
    KeepsIdentity adapters now db videos ↔ Distinguishable adapters now db videos := by
  constructor
  · exact KeepsIdentity.distinguishable
  · rintro ⟨hanswered, hids⟩
    have hall : ∀ service ∈ servicesOf videos, ∃ xs,
        lookupService adapters now db (ofService videos service) service = .ok xs := by
      intro service hservice
      obtain ⟨v, hv, rfl⟩ := mem_servicesOf.mp hservice
      obtain ⟨adapter, fetched, hadapter, -, hfetch, -⟩ := hanswered v hv
      exact ⟨_, lookupService_eq_ok_iff.mpr ⟨adapter, fetched, hadapter, hfetch, rfl⟩⟩
    obtain ⟨results, hresults⟩ := Lines.exists_map_eq_ok hall
    have hfound : ∀ v ∈ videos, ∃ w, findVideo results.flatten v.id = some w ∧
        w.toVideoId = v := by
      intro v hv
      obtain ⟨w₀, hw₀, hid₀⟩ := reached hresults hv (hanswered v hv)
      obtain ⟨w, hw⟩ := findVideo_of_mem hw₀
      rw [hid₀] at hw
      refine ⟨w, hw, ?_⟩
      obtain ⟨hmem, hwid⟩ := mem_of_findVideo hw
      obtain ⟨v', hv', hid, adapter, fetched, hadapter, -, hfetch, hservice⟩ :=
        origin hresults hmem
      cases hids v' hv' v hv (hid.trans hwid)
      obtain ⟨adapter', fetched', hadapter', -, hfetch', hown⟩ := hanswered v hv
      cases hadapter.symm.trans hadapter'
      cases hfetch.symm.trans hfetch'
      have htaken : w.service = v.service := by
        rw [hservice]
        cases hfind : fetched.find? (fun f => f.id = v.id) with
        | none => rfl
        | some f => exact hown f hfind
      exact (VideoId.mk.injEq _ _ _ _).mpr ⟨htaken, hwid⟩
    have hsame := filterMap_map_eq_iff.mpr hfound
    have hknown : ∀ w ∈ videos.filterMap (fun v => findVideo results.flatten v.id),
        (adapters w.service).isSome = true := by
      intro w hw
      have hv : w.toVideoId ∈ videos := by
        rw [← hsame]
        exact List.mem_map_of_mem hw
      obtain ⟨adapter, -, hadapter, -⟩ := hanswered _ hv
      exact Option.isSome_of_eq_some hadapter
    unfold KeepsIdentity getManyVideoInfo
    rw [Lines.mapM_eq_ok_iff.mpr hresults]
    dsimp only
    rw [if_pos (List.all_eq_true.mpr hknown)]
    exact ⟨_, _, rfl, hsame⟩

/-- One link, taken for a file and for a playlist. -/
def sameIds : List VideoId :=
  [⟨.direct, "https://example.com/video"⟩, ⟨.hls, "https://example.com/video"⟩]

/-- An adapter that has nothing to add, and whose videos are not cached, as files and playlists. -/
def silent : Adapter where
  isCacheSafe := false
  postProcessVideo := id
  fetchVideoInfo _ _ := .error .other
  fetchManyVideoInfo _ := .ok []

/-- **Videos of two services with one id are taken for one another.** -/
theorem not_keeps_identity : ¬ ∀ (adapters : Adapters) (now : Time) (t : CachedVideos)
    (videos : List VideoId), (∀ v ∈ videos, ∃ adapter, adapters v.service = some adapter ∧
      ∀ requests, ∃ fetched, adapter.fetchManyVideoInfo requests = .ok fetched) →
    KeepsIdentity adapters now (some t) videos := by
  intro h
  have hkeeps := h (fun _ => some silent) 0 .empty sameIds
    (fun _ _ => ⟨silent, rfl, fun _ => ⟨[], rfl⟩⟩)
  have hids := hkeeps.distinguishable.ids
  have heq := hids ⟨.direct, "https://example.com/video"⟩ (by decide)
    ⟨.hls, "https://example.com/video"⟩ (by decide) rfl
  cases heq

end OpenTogetherTube.Server.InfoExtractor
