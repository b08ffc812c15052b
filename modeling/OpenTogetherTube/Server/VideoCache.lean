import OpenTogetherTube.Common.Models
import OpenTogetherTube.Lib.Table

/-!
# The cache of videos

What was looked up about a video is kept in a table, with one row for each service and id. What is
read from a row is filtered: what can change is left out of a row that was not updated for long, and
so is what is falsy. Nothing else is asked of the rows.

A property of a video may be set to `undefined`, which is not the same as not being set: `_.find`
tells them apart. A column is `NULL` or holds a value.

Ages are taken in whole days. `filterVideoInfo` subtracts in the wrong order, so that every row that
was written in the past counts as recent (`isCachedInfoValid_of_le`).
-/

namespace OpenTogetherTube.Server.VideoCache

open OpenTogetherTube.Common OpenTogetherTube.Lib

/-! ## Videos -/

/-- A value that can be stored. -/
inductive Scalar where
  | bool (b : Bool)
  | number (q : ℚ)
  | text (s : String)
  deriving DecidableEq, Repr

def Scalar.truthy : Scalar → Bool
  | bool b => b
  | number q => q ≠ 0
  | text s => s ≠ ""

/-- The columns of the table, besides service and id. -/
inductive Column where
  | title | description | thumbnail | length | mime
  deriving DecidableEq, Repr

/-- They are listed in this order. -/
def columns : List Column := [.title, .description, .thumbnail, .length, .mime]

theorem mem_columns (c : Column) : c ∈ columns := by cases c <;> decide

/-- A property of a video, besides service and id. -/
inductive Property where
  | column (c : Column)
  | other (name : String)
  deriving DecidableEq, Repr

/-- A video, and its properties. One that is set to `undefined` holds none. -/
structure Video extends VideoId where
  props : OrderedMap Property (Option Scalar)
  deriving DecidableEq

/-- `video[p]`. -/
def Video.get (v : Video) (c : Column) : Option Scalar := (v.props.get? (.column c)).join

def VideoId.bare (v : VideoId) : Video := ⟨v, ∅⟩

/-- Service, id, and some of the columns. -/
def Video.ofColumns (v : VideoId) (info : Column → Option Scalar) : Video :=
  ⟨v, .ofList (columns.filterMap (fun c => (info c).map (fun s => (.column c, some s))))⟩

@[simp] theorem get_ofColumns (v : VideoId) (info : Column → Option Scalar) (c : Column) :
    (Video.ofColumns v info).get c = info c := by
  have hkeys : ((columns.filterMap (fun c => (info c).map (fun s =>
      ((Property.column c, some s) : Property × Option Scalar)))).map Prod.fst).Nodup := by
    rw [List.map_filterMap]
    refine List.Nodup.filterMap ?_ (by decide)
    intro c c' p hp hp'
    obtain ⟨e, he, rfl⟩ := Option.map_eq_some_iff.mp hp
    obtain ⟨e', he', heq⟩ := Option.map_eq_some_iff.mp hp'
    obtain ⟨s, -, rfl⟩ := Option.map_eq_some_iff.mp he
    obtain ⟨s', -, rfl⟩ := Option.map_eq_some_iff.mp he'
    cases heq
    rfl
  unfold Video.get Video.ofColumns
  cases hinfo : info c with
  | none =>
    rw [OrderedMap.get?_eq_none_iff.mpr ?_]
    · rfl
    · intro v' hmem
      rw [OrderedMap.entries_ofList hkeys] at hmem
      obtain ⟨c', -, hc'⟩ := List.mem_filterMap.mp hmem
      obtain ⟨s, hs, heq⟩ := Option.map_eq_some_iff.mp hc'
      cases heq
      cases hinfo.symm.trans hs
  | some s =>
    rw [OrderedMap.get?_eq_some_iff.mpr ?_]
    · rfl
    · rw [OrderedMap.entries_ofList hkeys]
      exact List.mem_filterMap.mpr ⟨c, mem_columns c, by rw [hinfo]; rfl⟩

theorem ofColumns_none (v : VideoId) : Video.ofColumns v (fun _ => none) = VideoId.bare v := rfl

/-- Videos with these columns alone are told apart by them. -/
theorem ofColumns_inj {v : VideoId} {info info' : Column → Option Scalar} :
    Video.ofColumns v info = Video.ofColumns v info' ↔ info = info' := by
  refine ⟨fun h => funext fun c => ?_, fun h => by rw [h]⟩
  rw [← get_ofColumns v info c, h, get_ofColumns]

/-! ## The table -/

/-- A row of `CachedVideos`. The ids are in `serviceId`. -/
structure CachedVideo where
  service : VideoService
  serviceId : String
  info : Column → Option Scalar
  createdAt : Time
  updatedAt : Time

def CachedVideo.videoId (r : CachedVideo) : VideoId := ⟨r.service, r.serviceId⟩

/-- The columns of `unique_service_serviceId` are different. -/
abbrev CachedVideos := Table CachedVideo.videoId

/-! ## What is still valid -/

def MILLISECONDS_A_DAY : Int := 24 * 60 * 60 * 1000

/-- `a.diff(b, "days")`: whole days, cut off. -/
def diffDays (a b : Time) : Int := (a - b).tdiv MILLISECONDS_A_DAY

/-- As `filterVideoInfo` decides. -/
def isCachedInfoValid (now createdAt updatedAt : Time) : Bool :=
  diffDays updatedAt now ≤ if diffDays createdAt now ≤ 7 then 7 else 30

/-- What `filterVideoInfo` is given: a row, or a video whose `id` was renamed to `serviceId`. Such a
video has no dates, and `dayjs(undefined)` is now. -/
inductive Found where
  | row (r : CachedVideo)
  | renamed (v : Video)

namespace Found

def videoId : Found → VideoId
  | row r => r.videoId
  | renamed v => v.toVideoId

def get : Found → Column → Option Scalar
  | row r => r.info
  | renamed v => v.get

def createdAt (now : Time) : Found → Time
  | row r => r.createdAt
  | renamed _ => now

def updatedAt (now : Time) : Found → Time
  | row r => r.updatedAt
  | renamed _ => now

/-- The length, and the three texts, may have changed; the type has not. -/
def shown (now : Time) (f : Found) (c : Column) : Option Scalar :=
  if c = .mime ∨ isCachedInfoValid now (f.createdAt now) (f.updatedAt now) then
    (f.get c).filter Scalar.truthy
  else none

end Found

def filterVideoInfo (now : Time) (f : Found) : Video := .ofColumns f.videoId (f.shown now)

@[simp] theorem toVideoId_filterVideoInfo (now : Time) (f : Found) :
    (filterVideoInfo now f).toVideoId = f.videoId := rfl

@[simp] theorem get_filterVideoInfo (now : Time) (f : Found) (c : Column) :
    (filterVideoInfo now f).get c = f.shown now c := get_ofColumns _ _ _

/-! ## Reading -/

/-- `getVideoInfo` of the storage, of a table whose query may fail. -/
def getVideoInfo (now : Time) (db : Option CachedVideos) (v : VideoId) : Video :=
  match db.bind (fun t => t.lookup v) with
  | some r => filterVideoInfo now (.row r)
  | none => VideoId.bare v

@[simp] theorem toVideoId_getVideoInfo (now : Time) (db : Option CachedVideos) (v : VideoId) :
    (getVideoInfo now db v).toVideoId = v := by
  unfold getVideoInfo
  split
  · next r hr =>
    obtain ⟨t, -, hfound⟩ := Option.bind_eq_some_iff.mp hr
    exact (Table.lookup_eq_some_iff.mp hfound).2
  · rfl

/-! ## What should be valid -/

/-- Updated no more than 30 days ago; or 7, where it was created no more than 7 days ago. -/
def Recent (now : Time) (r : CachedVideo) : Prop :=
  diffDays now r.updatedAt ≤ if diffDays now r.createdAt ≤ 7 then 7 else 30

instance (now : Time) (r : CachedVideo) : Decidable (Recent now r) :=
  inferInstanceAs (Decidable (_ ≤ _))

/-- **The purpose**: title, description, thumbnail and length are given out of recent rows only. -/
def Expires (now : Time) (r : CachedVideo) : Prop :=
  ∀ c, c ≠ .mime → (filterVideoInfo now (.row r)).get c =
    if Recent now r then (r.info c).filter Scalar.truthy else none

theorem diffDays_nonpos {a b : Time} (h : a ≤ b) : diffDays a b ≤ 0 := by
  unfold diffDays
  have hage : 0 ≤ (b - a).tdiv MILLISECONDS_A_DAY := Int.tdiv_nonneg (Int.sub_nonneg_of_le h) (by decide)
  rw [← Int.neg_sub, Int.neg_tdiv]
  omega

/-- The difference is negative, and no threshold is. -/
theorem isCachedInfoValid_of_le {now createdAt updatedAt : Time} (h : updatedAt ≤ now) :
    isCachedInfoValid now createdAt updatedAt = true := by
  have hnonpos := diffDays_nonpos h
  apply decide_eq_true
  split <;> omega

/-- **Nothing that was written in the past ever expires.** -/
theorem shown_of_le {now : Time} {r : CachedVideo} (h : r.updatedAt ≤ now) (c : Column) :
    (Found.row r).shown now c = (r.info c).filter Scalar.truthy :=
  if_pos (.inr (isCachedInfoValid_of_le h))

/-- **Cached titles expire where there are none**, and where the row is recent. -/
theorem expires_iff {now : Time} {r : CachedVideo} (hupdated : r.updatedAt ≤ now) :
    Expires now r ↔ Recent now r ∨ ∀ c, c ≠ .mime → (r.info c).filter Scalar.truthy = none := by
  unfold Expires
  simp only [get_filterVideoInfo, shown_of_le hupdated]
  by_cases hrecent : Recent now r
  · simp [hrecent]
  · simp [hrecent]

/-- A row that was last written at the epoch. -/
def oldRow : CachedVideo where
  service := .youtube
  serviceId := "dQw4w9WgXcQ"
  info c := if c = .title then some (.text "A title") else none
  createdAt := 0
  updatedAt := 0

/-- On the day of the last update. -/
theorem expires_iff_today : Expires 1000 oldRow ↔
    Recent 1000 oldRow ∨ ∀ c, c ≠ .mime → (oldRow.info c).filter Scalar.truthy = none :=
  expires_iff (by decide)

/-- **A year later, the title is still given out.** -/
theorem not_expires : ¬ ∀ (now : Time) (r : CachedVideo), r.createdAt ≤ r.updatedAt →
    r.updatedAt ≤ now → Expires now r := by
  intro h
  have htitle := h (365 * MILLISECONDS_A_DAY) oldRow (by decide) (by decide) .title (by decide)
  rw [get_filterVideoInfo, shown_of_le (by decide)] at htitle
  revert htitle
  decide

end OpenTogetherTube.Server.VideoCache
