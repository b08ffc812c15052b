import OpenTogetherTube.Server.VideoCache
import Mathlib.Data.List.Dedup
import Mathlib.Data.List.Perm.Subperm

/-!
# Many videos and the cache

The cache is read and written for many videos in one go, which should come to the same as going
through the videos one by one.

What is read in bulk is compared with what was asked for. A video that is not found among the rows is
given out as it came, with the metadata that it came with, and it counts as found only if a row holds
all of that metadata. Where the query fails, the ids are missing.

What is written in bulk is split by the rows that are there at the beginning. Rows that are there are
updated side by side, in any order; the others are inserted at once, which fails if two of them are of
one video.
-/

namespace OpenTogetherTube.Server.VideoCache

open OpenTogetherTube.Common OpenTogetherTube.Lib

/-! ## Reading -/

/-- What `getManyVideoInfo` gives out: videos, or videos whose `id` is still called `serviceId`. -/
inductive Returned where
  | video (v : Video)
  | renamed (v : Video)
  deriving DecidableEq

def Returned.id : Returned → Option String
  | video v => some v.id
  | renamed _ => none

/-- It has the property, with the very value. A row holds no `undefined`, and nothing but columns. -/
def Found.holds : Found → Property × Option Scalar → Bool
  | row r, (.column c, some s) => r.info c = some s
  | row _, _ => false
  | renamed w, (p, x) => w.props.get? p = some x

/-- As `_.find` compares, with a video whose `id` was renamed. -/
def Found.matches (f : Found) (v : Video) : Bool :=
  f.videoId = v.toVideoId && v.props.entries.all f.holds

/-- The videos that are not found are pushed. -/
def pushMissing (found : List Found) : List Video → List Found
  | [] => found
  | v :: vs => pushMissing (if found.any (·.matches v) then found else found ++ [.renamed v]) vs

/-- `DbCachedVideo.findAll`, with the services and ids of the videos. -/
def findAll (t : CachedVideos) (videos : List Video) : List CachedVideo :=
  t.rows.filter (fun r => videos.any (fun v => v.toVideoId = r.videoId))

/-- `getManyVideoInfo` of the storage. -/
def getManyVideoInfo (now : Time) (db : Option CachedVideos) (videos : List Video) :
    List Returned :=
  match db with
  | none => videos.map .renamed
  | some t =>
    let rows := (findAll t videos).map Found.row
    let found := if videos.length ≠ rows.length then pushMissing rows videos else rows
    found.map (fun f => .video (filterVideoInfo now f))

/-- **The purpose**: one video for each service and id, as it is read alone. -/
def ReadsAsSingle (now : Time) (db : Option CachedVideos) (videos : List Video) : Prop :=
  (getManyVideoInfo now db videos).Perm
    ((videos.map (·.toVideoId)).dedup.map (fun v => .video (getVideoInfo now db v)))

/-- No column holds anything that would be given out. -/
def Video.Blank (v : Video) : Prop := ∀ c, (v.get c).filter Scalar.truthy = none

/-- Every video has a row, and none is asked for twice. -/
def AllCached (t : CachedVideos) (videos : List Video) : Prop :=
  (videos.map (·.toVideoId)).Nodup ∧ ∀ v ∈ videos, ∃ r ∈ t, r.videoId = v.toVideoId

/-- Whoever has the id of the video already, holds its metadata. The first video of an id that nobody
has comes without metadata. -/
def Held (found : List Found) (videos : List Video) (v : Video) : Prop :=
  match found.find? (fun f => f.videoId = v.toVideoId) with
  | some f => f.matches v = true
  | none => ∀ w ∈ videos.find? (fun w => w.toVideoId = v.toVideoId),
      w.Blank ∧ (Found.renamed w).matches v = true

/-- **The condition**, of a table: what comes with the videos is what their rows hold. -/
def Agrees (t : CachedVideos) (videos : List Video) : Prop :=
  ∀ v ∈ videos, Held ((findAll t videos).map Found.row) videos v

section Pushing

variable {found : List Found} {v w : Video} {vs : List Video}

theorem videoId_of_matches {f : Found} (h : f.matches v = true) : f.videoId = v.toVideoId := by
  unfold Found.matches at h
  rw [Bool.and_eq_true, decide_eq_true_eq] at h
  exact h.1

theorem matches_self (v : Video) : (Found.renamed v).matches v = true := by
  unfold Found.matches
  rw [Bool.and_eq_true, List.all_eq_true]
  refine ⟨decide_eq_true rfl, fun e he => decide_eq_true ?_⟩
  exact OrderedMap.get?_eq_some_iff.mpr he

theorem prefix_pushMissing : found <+: pushMissing found vs := by
  induction vs generalizing found with
  | nil => exact List.prefix_rfl
  | cons v vs ih =>
    refine List.IsPrefix.trans ?_ ih
    split
    · exact List.prefix_rfl
    · exact List.prefix_append _ _

/-- Whoever is found has the id, and there is one such. -/
theorem any_matches_eq (hnodup : (found.map Found.videoId).Nodup) :
    found.any (·.matches v) =
      (found.find? (fun f => f.videoId = v.toVideoId)).any (·.matches v) := by
  cases hfind : found.find? (fun f => f.videoId = v.toVideoId) with
  | none =>
    refine List.any_eq_false.mpr (fun f hf hmatches => ?_)
    exact List.find?_eq_none.mp hfind f hf (decide_eq_true (videoId_of_matches hmatches))
  | some g =>
    have hg := List.mem_of_find?_eq_some hfind
    have hid := List.find?_some hfind
    rw [Bool.eq_iff_iff, List.any_eq_true]
    constructor
    · rintro ⟨f, hf, hmatches⟩
      have hsame : f.videoId = g.videoId :=
        (videoId_of_matches hmatches).trans (of_decide_eq_true hid).symm
      cases List.inj_on_of_nodup_map hnodup hf hg hsame
      exact hmatches
    · exact fun hmatches => ⟨g, hg, hmatches⟩

/-- A video that is not the first counts no more. -/
theorem held_cons_of_ne (hne : v.toVideoId ≠ w.toVideoId) :
    Held found (v :: vs) w ↔ Held found vs w := by
  unfold Held
  rw [List.find?_cons_of_neg (by simpa using hne)]

theorem held_of_found {f : Found} (h : found.find? (fun f => f.videoId = w.toVideoId) = some f) :
    Held found vs w ↔ f.matches w = true := by
  unfold Held
  rw [h]

/-- **Each id is given out once, and the rest is blank**, exactly if every video is held. -/
theorem pushMissing_iff (hnodup : (found.map Found.videoId).Nodup)
    (hblank : ∀ w, Found.renamed w ∈ found → w.Blank) :
    ((pushMissing found vs).map Found.videoId).Nodup ∧
        (∀ w, Found.renamed w ∈ pushMissing found vs → w.Blank) ↔
      ∀ v ∈ vs, Held found vs v := by
  induction vs generalizing found with
  | nil => exact iff_of_true ⟨hnodup, hblank⟩ (fun _ h => absurd h List.not_mem_nil)
  | cons v vs ih =>
    rw [List.forall_mem_cons]
    unfold pushMissing
    rw [any_matches_eq hnodup]
    cases hfind : found.find? (fun f => f.videoId = v.toVideoId) with
    | some f =>
      have hother : (∀ w ∈ vs, Held found (v :: vs) w) ↔ ∀ w ∈ vs, Held found vs w := by
        refine forall₂_congr fun w _ => ?_
        by_cases hid : v.toVideoId = w.toVideoId
        · rw [held_of_found (hid ▸ hfind), held_of_found (hid ▸ hfind)]
        · exact held_cons_of_ne hid
      rw [held_of_found hfind, hother, Option.any_some]
      by_cases hmatches : f.matches v = true
      · rw [if_pos hmatches, ih hnodup hblank]
        exact ⟨fun h => ⟨hmatches, h⟩, fun h => h.2⟩
      · rw [if_neg hmatches]
        refine iff_of_false (fun h => ?_) (fun h => hmatches h.1)
        -- the id is there twice
        have htwice := h.1.sublist (prefix_pushMissing.sublist.map Found.videoId)
        rw [List.map_append, List.nodup_append] at htwice
        have hid := List.find?_some hfind
        exact htwice.2.2 _ (List.mem_map_of_mem (List.mem_of_find?_eq_some hfind)) v.toVideoId
          List.mem_cons_self (of_decide_eq_true hid)
    | none =>
      rw [Option.any_none, if_neg Bool.false_ne_true]
      have hfresh : ∀ f ∈ found, f.videoId ≠ v.toVideoId := fun f hf heq =>
        List.find?_eq_none.mp hfind f hf (decide_eq_true heq)
      have hself : Held found (v :: vs) v ↔ v.Blank := by
        unfold Held
        rw [hfind, List.find?_cons_of_pos (by simp)]
        exact ⟨fun h => (h v rfl).1, fun h w hw => by cases hw; exact ⟨h, matches_self v⟩⟩
      rw [hself]
      by_cases hv : v.Blank
      · have hnodup' : ((found ++ [Found.renamed v]).map Found.videoId).Nodup := by
          rw [List.map_append, List.nodup_append]
          refine ⟨hnodup, List.nodup_singleton _, ?_⟩
          intro k hk k' hk' heq
          obtain ⟨f, hf, rfl⟩ := List.mem_map.mp hk
          cases List.mem_singleton.mp hk'
          exact hfresh f hf heq
        have hblank' : ∀ w, Found.renamed w ∈ found ++ [.renamed v] → w.Blank := by
          intro w hw
          rcases List.mem_append.mp hw with hold | hnew
          · exact hblank w hold
          · cases List.mem_singleton.mp hnew
            exact hv
        rw [ih hnodup' hblank', and_iff_right hv]
        refine forall₂_congr fun w _ => ?_
        by_cases hid : v.toVideoId = w.toVideoId
        · have hlast : (found ++ [Found.renamed v]).find? (fun f => f.videoId = w.toVideoId) =
              some (.renamed v) := by
            rw [List.find?_append, ← hid, hfind]
            simp [Found.videoId]
          rw [held_of_found hlast]
          unfold Held
          rw [← hid, hfind, List.find?_cons_of_pos (by simp)]
          exact ⟨fun h u hu => by cases hu; exact ⟨hv, h⟩, fun h => (h v rfl).2⟩
        · rw [held_cons_of_ne hid]
          unfold Held
          have hskip : (found ++ [Found.renamed v]).find? (fun f => f.videoId = w.toVideoId) =
              found.find? (fun f => f.videoId = w.toVideoId) := by
            rw [List.find?_append]
            simp [Found.videoId, hid]
          rw [hskip]
      · refine iff_of_false (fun h => hv (h.2 v ?_)) (fun h => hv h.1)
        exact prefix_pushMissing.subset (List.mem_append_right _ List.mem_cons_self)

theorem mem_videoId_pushMissing {k : VideoId} :
    k ∈ (pushMissing found vs).map Found.videoId ↔
      k ∈ found.map Found.videoId ∨ k ∈ vs.map (·.toVideoId) := by
  induction vs generalizing found with
  | nil => simp [pushMissing]
  | cons v vs ih =>
    unfold pushMissing
    rw [ih, List.map_cons, List.mem_cons]
    split
    · next hany =>
      obtain ⟨f, hf, hmatches⟩ := List.any_eq_true.mp hany
      have hv : v.toVideoId ∈ found.map Found.videoId :=
        List.mem_map.mpr ⟨f, hf, videoId_of_matches hmatches⟩
      constructor
      · rintro (h | h)
        · exact .inl h
        · exact .inr (.inr h)
      · rintro (h | rfl | h)
        · exact .inl h
        · exact .inl hv
        · exact .inr h
    · rw [List.map_append, List.mem_append, or_assoc]
      exact or_congr Iff.rfl (or_congr List.mem_singleton Iff.rfl)

theorem row_mem_pushMissing {r : CachedVideo} :
    Found.row r ∈ pushMissing found vs ↔ Found.row r ∈ found := by
  induction vs generalizing found with
  | nil => exact Iff.rfl
  | cons v vs ih =>
    unfold pushMissing
    rw [ih]
    split
    · exact Iff.rfl
    · simp

end Pushing

/-! ### The rows -/

section Rows

variable {t : CachedVideos} {videos : List Video} {now : Time}

theorem mem_findAll {r : CachedVideo} :
    r ∈ findAll t videos ↔ r ∈ t ∧ r.videoId ∈ videos.map (·.toVideoId) := by
  unfold findAll
  rw [List.mem_filter, List.any_eq_true, List.mem_map]
  simp only [decide_eq_true_eq]
  rfl

theorem nodup_findAll : ((findAll t videos).map CachedVideo.videoId).Nodup :=
  t.keys.sublist (List.filter_sublist.map _)

theorem map_videoId_rows : ((findAll t videos).map Found.row).map Found.videoId =
    (findAll t videos).map CachedVideo.videoId := by
  rw [List.map_map]
  rfl

/-- The numbers of rows and of videos are the same only if they are the same videos. -/
theorem length_findAll_eq_iff : videos.length = (findAll t videos).length ↔ AllCached t videos := by
  have hsubset : (findAll t videos).map CachedVideo.videoId ⊆ videos.map (·.toVideoId) := by
    intro k hk
    obtain ⟨r, hr, rfl⟩ := List.mem_map.mp hk
    exact (mem_findAll.mp hr).2
  constructor
  · intro hlength
    have hperm := (List.subperm_of_subset nodup_findAll hsubset).perm_of_length_le
      (by rw [List.length_map, List.length_map, hlength])
    refine ⟨hperm.nodup_iff.mp nodup_findAll, fun v hv => ?_⟩
    obtain ⟨r, hr, hkey⟩ := List.mem_map.mp (hperm.mem_iff.mpr (List.mem_map_of_mem hv))
    exact ⟨r, (mem_findAll.mp hr).1, hkey⟩
  · rintro ⟨hnodup, hrows⟩
    have hperm : ((findAll t videos).map CachedVideo.videoId).Perm (videos.map (·.toVideoId)) := by
      rw [List.perm_ext_iff_of_nodup nodup_findAll hnodup]
      refine fun k => ⟨fun hk => hsubset hk, fun hk => ?_⟩
      obtain ⟨v, hv, rfl⟩ := List.mem_map.mp hk
      obtain ⟨r, hr, hkey⟩ := hrows v hv
      exact List.mem_map.mpr ⟨r, mem_findAll.mpr ⟨hr, hkey ▸ hk⟩, hkey⟩
    have hlength := hperm.length_eq
    rw [List.length_map, List.length_map] at hlength
    exact hlength.symm

theorem videoId_mem_of_row {k : VideoId}
    (hk : k ∈ ((findAll t videos).map Found.row).map Found.videoId) :
    k ∈ videos.map (·.toVideoId) := by
  rw [map_videoId_rows] at hk
  obtain ⟨r, hr, rfl⟩ := List.mem_map.mp hk
  exact (mem_findAll.mp hr).2

/-- Nothing but what was asked for is found, be it that nothing is missing, -/
theorem mem_videoId_rows (hall : AllCached t videos) {k : VideoId} :
    k ∈ ((findAll t videos).map Found.row).map Found.videoId ↔ k ∈ videos.map (·.toVideoId) := by
  refine ⟨videoId_mem_of_row, fun hk => ?_⟩
  obtain ⟨v, hv, rfl⟩ := List.mem_map.mp hk
  obtain ⟨r, hr, hkey⟩ := hall.2 v hv
  rw [map_videoId_rows]
  exact List.mem_map.mpr ⟨r, mem_findAll.mpr ⟨hr, hkey ▸ hk⟩, hkey⟩

/-- or that it was pushed. -/
theorem mem_videoId_pushed {k : VideoId} :
    k ∈ (pushMissing ((findAll t videos).map Found.row) videos).map Found.videoId ↔
      k ∈ videos.map (·.toVideoId) := by
  rw [mem_videoId_pushMissing]
  exact or_iff_right_of_imp videoId_mem_of_row

/-- **What is read in bulk**, from a table: videos, and of those that were asked for all. -/
theorem mem_getManyVideoInfo {x : Returned} (hx : x ∈ getManyVideoInfo now (some t) videos) :
    ∃ w : Video, x = .video w ∧ w.toVideoId ∈ videos.map (·.toVideoId) := by
  obtain ⟨f, hf, rfl⟩ := List.mem_map.mp hx
  refine ⟨_, rfl, ?_⟩
  rw [toVideoId_filterVideoInfo]
  by_cases hall : AllCached t videos
  · rw [List.length_map, if_neg (fun hne => hne (length_findAll_eq_iff.mpr hall))] at hf
    exact videoId_mem_of_row (List.mem_map_of_mem hf)
  · rw [List.length_map, if_pos (fun heq => hall (length_findAll_eq_iff.mp heq))] at hf
    exact mem_videoId_pushed.mp (List.mem_map_of_mem hf)

theorem exists_mem_getManyVideoInfo {k : VideoId} (hk : k ∈ videos.map (·.toVideoId)) :
    ∃ w : Video, .video w ∈ getManyVideoInfo now (some t) videos ∧ w.toVideoId = k := by
  have hfound : ∃ f, f ∈ (if videos.length ≠ ((findAll t videos).map Found.row).length then
      pushMissing ((findAll t videos).map Found.row) videos
      else (findAll t videos).map Found.row) ∧ f.videoId = k := by
    apply List.mem_map.mp
    by_cases hall : AllCached t videos
    · rw [List.length_map, if_neg (fun hne => hne (length_findAll_eq_iff.mpr hall))]
      exact (mem_videoId_rows hall).mpr hk
    · rw [List.length_map, if_pos (fun heq => hall (length_findAll_eq_iff.mp heq))]
      exact mem_videoId_pushed.mpr hk
  obtain ⟨f, hf, hid⟩ := hfound
  exact ⟨filterVideoInfo now f, List.mem_map_of_mem hf, hid⟩

@[simp] theorem shown_renamed (v : Video) (c : Column) :
    (Found.renamed v).shown now c = (v.get c).filter Scalar.truthy :=
  if_pos (.inr (isCachedInfoValid_of_le (le_refl now)))

theorem filterVideoInfo_renamed_iff {v : Video} :
    filterVideoInfo now (.renamed v) = VideoId.bare v.toVideoId ↔ v.Blank := by
  rw [← ofColumns_none]
  show Video.ofColumns v.toVideoId _ = _ ↔ _
  rw [ofColumns_inj, funext_iff]
  exact forall_congr' fun c => by rw [shown_renamed]

theorem getVideoInfo_row {r : CachedVideo} (h : r ∈ t) :
    getVideoInfo now (some t) r.videoId = filterVideoInfo now (.row r) := by
  have hlookup := Table.lookup_eq_some_iff.mpr ⟨h, rfl⟩
  simp only [getVideoInfo, Option.bind_some, hlookup]

theorem getVideoInfo_missing {v : VideoId} (h : ∀ r ∈ t, r.videoId ≠ v) :
    getVideoInfo now (some t) v = VideoId.bare v := by
  have hlookup := Table.lookup_eq_none_iff.mpr h
  simp only [getVideoInfo, Option.bind_some, hlookup]

/-- **What is found, and comes to the same**: each id once, and blank where there is no row. -/
theorem perm_single_iff {found : List Found}
    (hids : ∀ k, k ∈ found.map Found.videoId ↔ k ∈ videos.map (·.toVideoId))
    (hrows : ∀ r, Found.row r ∈ found ↔ r ∈ t ∧ r.videoId ∈ videos.map (·.toVideoId)) :
    (found.map (fun f => Returned.video (filterVideoInfo now f))).Perm
        ((videos.map (·.toVideoId)).dedup.map (fun v => .video (getVideoInfo now (some t) v))) ↔
      (found.map Found.videoId).Nodup ∧ ∀ w, Found.renamed w ∈ found → w.Blank := by
  have hkeys : ∀ f : Found, (Returned.video (filterVideoInfo now f)) =
      .video (getVideoInfo now (some t) f.videoId) ↔
        filterVideoInfo now f = getVideoInfo now (some t) f.videoId :=
    fun f => ⟨Returned.video.inj, congrArg _⟩
  -- a video that was pushed has no row, where each id is there once
  have hmissing : (found.map Found.videoId).Nodup → ∀ w, Found.renamed w ∈ found →
      getVideoInfo now (some t) w.toVideoId = VideoId.bare w.toVideoId := by
    intro hnodup w hw
    refine getVideoInfo_missing (fun r hr hkey => ?_)
    have hid : r.videoId ∈ videos.map (·.toVideoId) :=
      hkey ▸ (hids _).mp (List.mem_map_of_mem hw)
    cases List.inj_on_of_nodup_map hnodup ((hrows r).mpr ⟨hr, hid⟩) hw hkey
  constructor
  · intro hperm
    have hnodup : (found.map Found.videoId).Nodup := by
      have hmap := hperm.map (fun x => match x with | .video v | .renamed v => v.toVideoId)
      rw [List.map_map, List.map_map] at hmap
      have hsource : (found.map Found.videoId).Perm ((videos.map (·.toVideoId)).dedup.map id) := by
        refine hmap.trans (List.Perm.of_eq (List.map_congr_left fun v _ => ?_))
        exact toVideoId_getVideoInfo now (some t) v
      rw [List.map_id] at hsource
      exact hsource.nodup_iff.mpr (List.nodup_dedup _)
    refine ⟨hnodup, fun w hw => ?_⟩
    obtain ⟨v, -, hv⟩ := List.mem_map.mp (hperm.subset (List.mem_map_of_mem hw))
    have hvideo := Returned.video.inj hv
    have hid : v = w.toVideoId := by
      rw [← toVideoId_getVideoInfo now (some t) v, hvideo]
      rfl
    rw [hid, hmissing hnodup w hw] at hvideo
    exact filterVideoInfo_renamed_iff.mp hvideo.symm
  · rintro ⟨hnodup, hblank⟩
    have hsingle : ∀ f ∈ found, filterVideoInfo now f = getVideoInfo now (some t) f.videoId := by
      intro f hf
      cases f with
      | row r => exact (getVideoInfo_row ((hrows r).mp hf).1).symm
      | renamed w =>
        exact (filterVideoInfo_renamed_iff.mpr (hblank w hf)).trans (hmissing hnodup w hf).symm
    have hmap : found.map (fun f => Returned.video (filterVideoInfo now f)) =
        (found.map Found.videoId).map (fun v => .video (getVideoInfo now (some t) v)) := by
      rw [List.map_map]
      exact List.map_congr_left fun f hf => (hkeys f).mpr (hsingle f hf)
    rw [hmap]
    apply List.Perm.map
    rw [List.perm_ext_iff_of_nodup hnodup (List.nodup_dedup _)]
    exact fun k => (hids k).trans List.mem_dedup.symm

end Rows

/-- **The bulk read is the single reads**, if and only if the query is answered, and either every
video has a row and none is asked for twice, or the metadata that comes with the videos is in the rows
already. -/
theorem reads_as_single_iff (now : Time) (db : Option CachedVideos) (videos : List Video) :
    ReadsAsSingle now db videos ↔
      match db with
      | none => videos = []
      | some t => AllCached t videos ∨ Agrees t videos := by
  cases db with
  | none =>
    constructor
    · intro hperm
      cases videos with
      | nil => rfl
      | cons v vs =>
        obtain ⟨k, -, hk⟩ := List.mem_map.mp (hperm.subset (List.mem_cons_self))
        cases hk
    · rintro rfl
      exact List.Perm.nil
  | some t =>
    have hrows : ∀ r, Found.row r ∈ (findAll t videos).map Found.row ↔
        r ∈ t ∧ r.videoId ∈ videos.map (·.toVideoId) := by
      intro r
      rw [← mem_findAll, List.mem_map]
      exact ⟨fun ⟨r', hr', heq⟩ => Found.row.inj heq ▸ hr', fun h => ⟨r, h, rfl⟩⟩
    have hnodup : (((findAll t videos).map Found.row).map Found.videoId).Nodup :=
      map_videoId_rows ▸ nodup_findAll
    have hblank : ∀ w, Found.renamed w ∈ (findAll t videos).map Found.row → w.Blank := by
      intro w hw
      obtain ⟨r, -, heq⟩ := List.mem_map.mp hw
      cases heq
    unfold ReadsAsSingle getManyVideoInfo
    dsimp only
    rw [List.length_map]
    by_cases hall : AllCached t videos
    · rw [if_neg (fun hne => hne (length_findAll_eq_iff.mpr hall))]
      exact iff_of_true ((perm_single_iff (fun k => mem_videoId_rows hall) hrows).mpr
        ⟨hnodup, hblank⟩) (.inl hall)
    · rw [if_pos (fun heq => hall (length_findAll_eq_iff.mp heq)), or_iff_right hall]
      refine (perm_single_iff (fun k => mem_videoId_pushed) (fun r => ?_)).trans
        (pushMissing_iff hnodup hblank)
      rw [row_mem_pushMissing, hrows]

/-- Videos that come without metadata can be asked for in bulk, as often as one likes. -/
theorem agrees_of_bare {t : CachedVideos} {videos : List Video} (h : ∀ v ∈ videos, v.props = ∅) :
    Agrees t videos := by
  have hmatches : ∀ f : Found, ∀ v ∈ videos, f.videoId = v.toVideoId → f.matches v = true := by
    intro f v hv hid
    unfold Found.matches
    rw [h v hv, Bool.and_eq_true]
    exact ⟨decide_eq_true hid, rfl⟩
  intro v hv
  unfold Held
  split
  · next f hfind =>
    have hid := List.find?_some hfind
    exact hmatches f v hv (of_decide_eq_true hid)
  · intro w hw
    have hid := List.find?_some hw
    have hprops := h w (List.mem_of_find?_eq_some hw)
    refine ⟨fun c => ?_, hmatches _ v hv (of_decide_eq_true hid)⟩
    unfold Video.get
    rw [hprops]
    rfl

/-- **Without an answer, the id is missing.** -/
theorem not_reads_as_single : ¬ ∀ (now : Time) (db : Option CachedVideos) (videos : List Video),
    ReadsAsSingle now db videos := by
  intro h
  have hperm := h 0 none [VideoId.bare ⟨.youtube, "dQw4w9WgXcQ"⟩]
  have hmem : Returned.renamed (VideoId.bare ⟨.youtube, "dQw4w9WgXcQ"⟩) ∈
      [Returned.video (VideoId.bare ⟨.youtube, "dQw4w9WgXcQ"⟩)] :=
    hperm.subset List.mem_cons_self
  cases List.mem_singleton.mp hmem

/-! ## Writing -/

/-- What a video is stored as. Properties that are omitted are left as they are. -/
def CachedVideo.write (now : Time) (v : Video) : Option CachedVideo → CachedVideo
  | some r =>
    { r with
      service := v.service
      serviceId := v.id
      info := fun c => (v.get c).or (r.info c)
      updatedAt := now }
  | none => ⟨v.service, v.id, v.get, now, now⟩

@[simp] theorem CachedVideo.videoId_write (now : Time) (v : Video) (o : Option CachedVideo) :
    (CachedVideo.write now v o).videoId = v.toVideoId := by cases o <;> rfl

/-- `DbCachedVideo.upsert`. -/
def upsert (now : Time) (t : CachedVideos) (v : Video) : CachedVideos :=
  t.upsert v.toVideoId (CachedVideo.write now v) (CachedVideo.videoId_write now v)

section Write

/-! `accepts` is what the database takes, as far as the values go. -/

variable (accepts : Video → Bool) (now : Time)

def updateVideoInfo (t : CachedVideos) (v : Video) : Bool × CachedVideos :=
  if v.id = "" then (false, t)
  else if accepts v then (true, upsert now t v)
  else (false, t)

/-- `updateVideoInfo`, of one video after the other. -/
def updateEach (t : CachedVideos) (videos : List Video) : CachedVideos :=
  videos.foldl (fun t v => (updateVideoInfo accepts now t v).2) t

/-- `DbCachedVideo.bulkCreate`: all of the rows, or none. -/
def bulkCreate (t : CachedVideos) (videos : List Video) : Option CachedVideos :=
  if videos.all accepts then t.insertAll (videos.map (fun v => CachedVideo.write now v none))
  else none

def isFound (t : CachedVideos) (videos : List Video) (v : Video) : Bool :=
  (findAll t videos).any (fun r => r.videoId = v.toVideoId)

def toUpdate (t : CachedVideos) (videos : List Video) : List Video :=
  videos.filter (isFound t videos)

def toCreate (t : CachedVideos) (videos : List Video) : List Video :=
  videos.filter (fun v => !isFound t videos v)

/-- The query for the rows that are there may fail. The database gets to the updates in the given
order. -/
def updateManyVideoInfo (answered : Bool) (t : CachedVideos) (videos order : List Video) :
    Bool × CachedVideos :=
  if !answered then (false, t)
  else
    let updated := updateEach accepts now t order
    if toCreate t videos = [] then (true, updated)
    else
      match bulkCreate accepts now updated (toCreate t videos) with
      | some created => (true, created)
      | none => (false, updated)

/-- **The purpose**: the same rows as after the single writes, whatever the order. -/
def WritesAsSingle (answered : Bool) (t : CachedVideos) (videos : List Video) : Prop :=
  ∀ order : List Video, order.Perm (toUpdate t videos) →
    (updateManyVideoInfo accepts now answered t videos order).1 = true ∧
      ∀ r, r ∈ (updateManyVideoInfo accepts now answered t videos order).2 ↔
        r ∈ updateEach accepts now t videos

end Write

/-- Two writes of one row set the same values. -/
def SameWrites (v w : Video) : Prop := ∀ c, ∀ s ∈ v.get c, ∀ s' ∈ w.get c, s = s'

/-- **The condition.** -/
structure Writable (answered : Bool) (t : CachedVideos) (videos : List Video) : Prop where
  answered : answered = true
  /-- No video without a row is there twice. -/
  creates : ((toCreate t videos).map (·.toVideoId)).Nodup
  /-- Videos with one row agree. -/
  updates : ∀ v ∈ toUpdate t videos, ∀ w ∈ toUpdate t videos, v.toVideoId = w.toVideoId →
    SameWrites v w

section Writing

variable {accepts : Video → Bool} {now : Time} {t : CachedVideos} {videos order : List Video}
  {v w : Video}

theorem isFound_iff (hv : v ∈ videos) :
    isFound t videos v = true ↔ t.lookup v.toVideoId ≠ none := by
  unfold isFound
  rw [List.any_eq_true, Ne, Table.lookup_eq_none_iff, not_forall₂]
  constructor
  · rintro ⟨r, hr, hkey⟩
    exact ⟨r, (mem_findAll.mp hr).1, not_not.mpr (of_decide_eq_true hkey)⟩
  · rintro ⟨r, hr, hkey⟩
    have heq := not_not.mp hkey
    exact ⟨r, mem_findAll.mpr ⟨hr, heq ▸ List.mem_map_of_mem hv⟩, decide_eq_true heq⟩

theorem mem_toUpdate : v ∈ toUpdate t videos ↔ v ∈ videos ∧ t.lookup v.toVideoId ≠ none := by
  unfold toUpdate
  rw [List.mem_filter]
  exact and_congr_right isFound_iff

theorem mem_toCreate : v ∈ toCreate t videos ↔ v ∈ videos ∧ t.lookup v.toVideoId = none := by
  unfold toCreate
  rw [List.mem_filter, Bool.not_eq_true']
  refine and_congr_right fun hv => ?_
  rw [← Bool.not_eq_true, isFound_iff hv, not_not]

/-- The videos of one id go one way or the other. -/
theorem filter_toUpdate {k : VideoId} (hk : t.lookup k ≠ none) :
    (toUpdate t videos).filter (fun v => v.toVideoId = k) =
      videos.filter (fun v => v.toVideoId = k) := by
  unfold toUpdate
  rw [List.filter_filter]
  refine List.filter_congr fun v hv => ?_
  by_cases hid : v.toVideoId = k
  · rw [(isFound_iff hv).mpr (hid ▸ hk), Bool.and_true]
  · simp [hid]

theorem filter_toCreate {k : VideoId} (hk : t.lookup k = none) :
    (toCreate t videos).filter (fun v => v.toVideoId = k) =
      videos.filter (fun v => v.toVideoId = k) := by
  unfold toCreate
  rw [List.filter_filter]
  refine List.filter_congr fun v hv => ?_
  by_cases hid : v.toVideoId = k
  · have hfound : isFound t videos v = false := by
      rw [← Bool.not_eq_true, isFound_iff hv, hid]
      exact fun hne => hne hk
    rw [hfound]
    simp
  · simp [hid]

/-- What the database accepts, it writes. -/
theorem updateEach_eq (hset : ∀ v ∈ videos, v.id ≠ "") (haccepts : ∀ v ∈ videos, accepts v = true) :
    updateEach accepts now t videos = videos.foldl (upsert now) t := by
  unfold updateEach
  induction videos generalizing t with
  | nil => rfl
  | cons v videos ih =>
    obtain ⟨hv, hset⟩ := List.forall_mem_cons.mp hset
    obtain ⟨hvaccepts, haccepts⟩ := List.forall_mem_cons.mp haccepts
    have hwrite : (updateVideoInfo accepts now t v).2 = upsert now t v := by
      unfold updateVideoInfo
      rw [if_neg hv, if_pos hvaccepts]
    rw [List.foldl_cons, List.foldl_cons, hwrite]
    exact ih hset haccepts

/-- The row of an id, after writes. -/
theorem lookup_foldl_upsert (k : VideoId) : (videos.foldl (upsert now) t).lookup k =
    (videos.filter (fun v => v.toVideoId = k)).foldl (fun o v => some (CachedVideo.write now v o))
      (t.lookup k) :=
  Table.lookup_foldl_upsert videos

/-- Writes that set the same values can be swapped. -/
theorem write_comm (hid : v.toVideoId = w.toVideoId) (hsame : SameWrites v w)
    (o : Option CachedVideo) : CachedVideo.write now w (some (CachedVideo.write now v o)) =
      CachedVideo.write now v (some (CachedVideo.write now w o)) := by
  have hvalues : ∀ (c : Column) (x : Option Scalar),
      (w.get c).or ((v.get c).or x) = (v.get c).or ((w.get c).or x) := by
    intro c x
    cases hv : v.get c with
    | none => rfl
    | some s =>
      cases hw : w.get c with
      | none => rfl
      | some s' => exact congrArg some (hsame c s hv s' hw).symm
  have hservice : v.service = w.service := congrArg VideoId.service hid
  have hserviceId : v.id = w.id := congrArg VideoId.id hid
  cases o with
  | none =>
    simp only [CachedVideo.write, hservice, hserviceId]
    congr 1
    funext c
    simpa using hvalues c none
  | some r =>
    simp only [CachedVideo.write, hservice, hserviceId]
    congr 1
    funext c
    exact hvalues c (r.info c)

/-- The updates leave the ids without rows alone. -/
theorem lookup_updated_eq_none (horder : order.Perm (toUpdate t videos)) {k : VideoId}
    (hk : t.lookup k = none) : (order.foldl (upsert now) t).lookup k = none := by
  have hfilter : order.filter (fun v => v.toVideoId = k) = [] := by
    refine List.filter_eq_nil_iff.mpr (fun v hv hid => ?_)
    exact (mem_toUpdate.mp (horder.subset hv)).2 (of_decide_eq_true hid ▸ hk)
  rw [lookup_foldl_upsert, hfilter, hk]
  rfl

/-- The rows that are inserted at once. -/
def newRows (now : Time) (t : CachedVideos) (videos : List Video) : List CachedVideo :=
  (toCreate t videos).map (fun v => CachedVideo.write now v none)

theorem map_videoId_newRows : (newRows now t videos).map CachedVideo.videoId =
    (toCreate t videos).map (·.toVideoId) := by
  unfold newRows
  rw [List.map_map]
  exact List.map_congr_left fun v _ => CachedVideo.videoId_write now v none

/-- **What the bulk write does**, where everything is accepted. -/
theorem updateManyVideoInfo_eq (hset : ∀ v ∈ videos, v.id ≠ "")
    (haccepts : ∀ v ∈ videos, accepts v = true) (horder : order.Perm (toUpdate t videos)) :
    updateManyVideoInfo accepts now true t videos order =
      match (order.foldl (upsert now) t).insertAll (newRows now t videos) with
      | some created => (true, created)
      | none => (false, order.foldl (upsert now) t) := by
  have hmem : ∀ v ∈ order, v ∈ videos := fun v hv => (mem_toUpdate.mp (horder.subset hv)).1
  have heach : updateEach accepts now t order = order.foldl (upsert now) t :=
    updateEach_eq (fun v hv => hset v (hmem v hv)) (fun v hv => haccepts v (hmem v hv))
  have hall : (toCreate t videos).all accepts = true :=
    List.all_eq_true.mpr fun v hv => haccepts v (mem_toCreate.mp hv).1
  unfold updateManyVideoInfo bulkCreate newRows
  simp only [Bool.not_true, Bool.false_eq_true, if_false, heach, hall, if_true]
  by_cases hnone : toCreate t videos = []
  · rw [if_pos hnone, hnone]
    rfl
  · rw [if_neg hnone]
    rfl

/-- It succeeds if no video without a row is there twice. -/
theorem isSome_insertAll_newRows (horder : order.Perm (toUpdate t videos)) :
    ((order.foldl (upsert now) t).insertAll (newRows now t videos)).isSome ↔
      ((toCreate t videos).map (·.toVideoId)).Nodup := by
  rw [Table.isSome_insertAll, map_videoId_newRows]
  refine and_iff_left fun r hr => ?_
  obtain ⟨v, hv, rfl⟩ := List.mem_map.mp hr
  rw [CachedVideo.videoId_write]
  exact lookup_updated_eq_none horder (mem_toCreate.mp hv).2

/-- Then the ids that had a row have the one that was updated. -/
theorem lookup_created_of_found {created : CachedVideos} {k : VideoId} (hk : t.lookup k ≠ none)
    (hcreated : (order.foldl (upsert now) t).insertAll (newRows now t videos) = some created) :
    created.lookup k = (order.filter (fun v => v.toVideoId = k)).foldl
      (fun o v => some (CachedVideo.write now v o)) (t.lookup k) := by
  have hnew : (newRows now t videos).find? (fun r => r.videoId = k) = none := by
    refine List.find?_eq_none.mpr (fun r hr hid => ?_)
    obtain ⟨v, hv, rfl⟩ := List.mem_map.mp hr
    rw [decide_eq_true_eq, CachedVideo.videoId_write] at hid
    exact hk (hid ▸ (mem_toCreate.mp hv).2)
  rw [Table.lookup_insertAll hcreated, hnew, Option.or_none, lookup_foldl_upsert]

/-- And the others have the one video that there is. -/
theorem lookup_created_of_missing {created : CachedVideos} {k : VideoId} (hk : t.lookup k = none)
    (horder : order.Perm (toUpdate t videos))
    (hnodup : ((toCreate t videos).map (·.toVideoId)).Nodup)
    (hcreated : (order.foldl (upsert now) t).insertAll (newRows now t videos) = some created) :
    created.lookup k = (videos.foldl (upsert now) t).lookup k := by
  rw [Table.lookup_insertAll hcreated, lookup_updated_eq_none horder hk, Option.none_or,
    lookup_foldl_upsert, ← filter_toCreate hk, hk]
  cases hfilter : (toCreate t videos).filter (fun v => v.toVideoId = k) with
  | nil =>
    refine List.find?_eq_none.mpr (fun r hr hid => ?_)
    obtain ⟨v, hv, rfl⟩ := List.mem_map.mp hr
    rw [CachedVideo.videoId_write] at hid
    exact List.filter_eq_nil_iff.mp hfilter v hv hid
  | cons v rest =>
    have hv : v ∈ toCreate t videos ∧ v.toVideoId = k := by
      have hmem : v ∈ (toCreate t videos).filter (fun v => v.toVideoId = k) := by
        rw [hfilter]
        exact List.mem_cons_self
      rw [List.mem_filter, decide_eq_true_eq] at hmem
      exact hmem
    have hrest : rest = [] := by
      refine List.eq_nil_iff_forall_not_mem.mpr (fun w hw => ?_)
      have hsub : List.Sublist
          (((toCreate t videos).filter (fun v => v.toVideoId = k)).map (·.toVideoId))
          ((toCreate t videos).map (·.toVideoId)) := List.filter_sublist.map _
      rw [hfilter, List.map_cons] at hsub
      have hmem : w ∈ (toCreate t videos).filter (fun v => v.toVideoId = k) := by
        rw [hfilter]
        exact List.mem_cons_of_mem _ hw
      have hid := (List.mem_filter.mp hmem).2
      rw [decide_eq_true_eq] at hid
      refine (List.nodup_cons.mp (hnodup.sublist hsub)).1 ?_
      rw [hv.2, ← hid]
      exact List.mem_map_of_mem hw
    have hnew : CachedVideo.write now v none ∈ newRows now t videos := List.mem_map_of_mem hv.1
    have hkeys : ((newRows now t videos).map CachedVideo.videoId).Nodup :=
      map_videoId_newRows ▸ hnodup
    rw [hrest, List.foldl_cons, List.foldl_nil]
    cases hfind : (newRows now t videos).find? (fun r => r.videoId = k) with
    | none =>
      refine absurd (decide_eq_true ?_) (List.find?_eq_none.mp hfind _ hnew)
      rw [CachedVideo.videoId_write, hv.2]
    | some r =>
      have hid := List.find?_some hfind
      rw [decide_eq_true_eq] at hid
      rw [List.inj_on_of_nodup_map hkeys (List.mem_of_find?_eq_some hfind) hnew]
      rw [hid, CachedVideo.videoId_write, hv.2]

end Writing

/-- **The bulk write is the single writes**, if and only if the query is answered, no video without a
row is there twice, and the videos of one row set the same values. -/
theorem writes_as_single_iff {accepts : Video → Bool} (now : Time) (answered : Bool)
    (t : CachedVideos) {videos : List Video} (hset : ∀ v ∈ videos, v.id ≠ "")
    (haccepts : ∀ v ∈ videos, accepts v = true) :
    WritesAsSingle accepts now answered t videos ↔ Writable answered t videos := by
  unfold WritesAsSingle
  rw [updateEach_eq hset haccepts]
  constructor
  · intro h
    have hanswered : answered = true := by
      cases answered with
      | true => rfl
      | false => exact absurd (h _ (List.Perm.refl _)).1 Bool.false_ne_true
    subst hanswered
    have hsuccess : ∀ order : List Video, order.Perm (toUpdate t videos) →
        ∃ created, (order.foldl (upsert now) t).insertAll (newRows now t videos) = some created ∧
          ∀ k, created.lookup k = (videos.foldl (upsert now) t).lookup k := by
      intro order horder
      obtain ⟨hdone, hrows⟩ := h order horder
      rw [updateManyVideoInfo_eq hset haccepts horder] at hdone hrows
      cases hcreated : (order.foldl (upsert now) t).insertAll (newRows now t videos) with
      | none =>
        rw [hcreated] at hdone
        cases hdone
      | some created =>
        rw [hcreated] at hrows
        exact ⟨created, rfl, Table.forall_mem_iff_lookup.mp hrows⟩
    refine ⟨rfl, ?_, ?_⟩
    · obtain ⟨created, hcreated, -⟩ := hsuccess _ (List.Perm.refl _)
      exact (isSome_insertAll_newRows (List.Perm.refl _)).mp (Option.isSome_of_eq_some hcreated)
    · -- whichever write comes last, its values are those of the single writes
      have hlast : ∀ v ∈ toUpdate t videos, ∀ c, ∀ s ∈ v.get c,
          ∃ r, (videos.foldl (upsert now) t).lookup v.toVideoId = some r ∧ r.info c = some s := by
        intro v hv c s hs
        have horder : ((toUpdate t videos).erase v ++ [v]).Perm (toUpdate t videos) :=
          (List.perm_append_singleton v _).trans (List.perm_cons_erase hv).symm
        obtain ⟨created, hcreated, hrows⟩ := hsuccess _ horder
        rw [← hrows, lookup_created_of_found (mem_toUpdate.mp hv).2 hcreated, List.filter_append,
          List.foldl_append, List.filter_singleton, decide_eq_true rfl]
        refine ⟨_, rfl, ?_⟩
        cases (((toUpdate t videos).erase v).filter
            (fun w => w.toVideoId = v.toVideoId)).foldl
              (fun o v => some (CachedVideo.write now v o)) (t.lookup v.toVideoId) with
        | none => exact hs
        | some r => exact (congrArg (·.or (r.info c)) hs).trans rfl
      intro v hv w hw hid c s hs s' hs'
      obtain ⟨r, hr, hinfo⟩ := hlast v hv c s hs
      obtain ⟨r', hr', hinfo'⟩ := hlast w hw c s' hs'
      rw [← hid, hr] at hr'
      cases hr'
      exact Option.some.inj (hinfo.symm.trans hinfo')
  · rintro ⟨rfl, hcreates, hupdates⟩ order horder
    rw [updateManyVideoInfo_eq hset haccepts horder]
    have hinserts : ((order.foldl (upsert now) t).insertAll (newRows now t videos)).isSome :=
      (isSome_insertAll_newRows horder).mpr hcreates
    obtain ⟨created, hcreated⟩ := Option.isSome_iff_exists.mp hinserts
    rw [hcreated]
    refine ⟨rfl, Table.forall_mem_iff_lookup.mpr fun k => ?_⟩
    by_cases hk : t.lookup k = none
    · exact lookup_created_of_missing hk horder hcreates hcreated
    · have hvideos : videos.filter (fun v => v.toVideoId = k) =
          (toUpdate t videos).filter (fun v => v.toVideoId = k) := (filter_toUpdate hk).symm
      rw [lookup_created_of_found hk hcreated, lookup_foldl_upsert, hvideos]
      refine (horder.filter _).foldl_eq' (fun v hv w hw o => ?_) _
      rw [List.mem_filter, decide_eq_true_eq] at hv hw
      exact congrArg some (write_comm (hv.2.trans hw.2.symm)
        (hupdates v (horder.subset hv.1) w (horder.subset hw.1) (hv.2.trans hw.2.symm)) o)

/-- A video with a title. -/
def titled (id title : String) : Video :=
  .ofColumns ⟨.youtube, id⟩ (fun c => if c = .title then some (.text title) else none)

/-- One video is in the cache. -/
def oneStored : CachedVideos := ⟨[CachedVideo.write 0 (titled "stored" "An old title") none], by simp⟩

/-- What is in the cache gets its new title twice, and another video comes in. -/
theorem writes_as_single_iff_repeated :
    WritesAsSingle (fun _ => true) 1000 true oneStored
      [titled "stored" "A title", titled "other" "Another title", titled "stored" "A title"] := by
  have hsame : ∀ v : Video, SameWrites v v := fun v c s hs s' hs' => Option.some.inj (hs.symm.trans hs')
  refine (writes_as_single_iff 1000 true oneStored (by decide) (fun _ _ => rfl)).mpr ⟨rfl, ?_, ?_⟩
  · decide
  · have hupdates : toUpdate oneStored [titled "stored" "A title", titled "other" "Another title",
        titled "stored" "A title"] = [titled "stored" "A title", titled "stored" "A title"] := by
      decide
    rw [hupdates]
    intro v hv w hw _
    rw [List.mem_pair, or_self] at hv hw
    rw [hv, hw]
    exact hsame _

/-- **A video that is there twice is not stored at all.** -/
theorem not_writes_as_single : ¬ ∀ (accepts : Video → Bool) (now : Time) (t : CachedVideos)
    (videos : List Video), (∀ v ∈ videos, v.id ≠ "") → (∀ v ∈ videos, accepts v = true) →
      WritesAsSingle accepts now true t videos := by
  intro h
  have hwrites := h (fun _ => true) 0 .empty
    [VideoId.bare ⟨.youtube, "dQw4w9WgXcQ"⟩, VideoId.bare ⟨.youtube, "dQw4w9WgXcQ"⟩]
    (by simp [VideoId.bare]) (fun _ _ => rfl) [] (List.Perm.refl _)
  exact absurd hwrites.1 (by decide)

end OpenTogetherTube.Server.VideoCache
