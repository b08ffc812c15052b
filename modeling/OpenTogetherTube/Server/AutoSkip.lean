import OpenTogetherTube.Lib.Machine
import OpenTogetherTube.Server.Position

/-!
# Which segments are skipped

An update looks for the first segment in the list that contains the position, and skips it if its
category is enabled. A seek looks for the first one that contains the position too, and until its
end nothing is skipped.

Segments may overlap. So a segment of an enabled category is not skipped while one of another
category comes before it in the list (`skipsExactly_iff`), and a seek into two segments keeps
playing only the first (`suppressed_throughout_iff`).
-/

namespace OpenTogetherTube.Server

open OpenTogetherTube.Common OpenTogetherTube.Lib

/-- The segment is being played at this time. Both ends belong to it. -/
def Contains (s : Segment) (t : ℚ) : Prop := s.startTime ≤ t ∧ t ≤ s.endTime

instance (s : Segment) (t : ℚ) : Decidable (Contains s t) := inferInstanceAs (Decidable (_ ∧ _))

namespace Room

/-! ## The specification -/

/-- A video plays that is not over, and segments are skipped at all. -/
structure Watched (env : Env) (r : Room) : Prop where
  source : r.currentSource ≠ none
  before : r.sourceEnded env.now = false
  enabled : env.sponsorblockEnabled = true

/-- The room as it is when segments are looked for: those that were wanted have been fetched. -/
def upToDate (env : Env) (r : Room) : Room :=
  if r.wantSponsorBlock then fetchSponsorBlockSegments env { r with wantSponsorBlock := false }
  else r

/-- The update seeks to a position by itself, and says so. -/
structure AutoSeeks (env : Env) (r : Room) (position : ℚ) : Prop where
  position : ((update env).run r).state.playbackPosition = position
  start : ((update env).run r).state.playbackStart = some env.now
  published : ∃ category : Category,
    ((update env).run r).published = [.eventCustom ("Skipped " ++ category.name)]

/-- The segment is of an enabled category and contains the position. -/
def Due (env : Env) (r : Room) (s : Segment) : Prop :=
  s.category ∈ r.autoSkipSegmentCategories ∧ Contains s (r.realPlaybackPosition env.now)

/-- **The purpose of the update**: it skips exactly what is due. -/
structure SkipsExactly (env : Env) (r : Room) : Prop where
  iff : (∃ position, AutoSeeks env r position) ↔ ∃ s ∈ (r.upToDate env).videoSegments, Due env r s
  target : ∀ position, AutoSeeks env r position →
    ∃ s ∈ (r.upToDate env).videoSegments, Due env r s ∧ s.endTime = position

/-- If something is due, the first segment in the list that contains the position is, and the
seconds watched can be counted. -/
def FirstIsDue (env : Env) (r : Room) : Prop :=
  (∃ s ∈ (r.upToDate env).videoSegments, Due env r s) →
    (∃ s, (r.upToDate env).getSegmentForTime (r.realPlaybackPosition env.now) = some s ∧
      s.category ∈ r.autoSkipSegmentCategories) ∧ r.Counts env.now

/-! ## An update -/

section Update

variable {env : Env} {r : Room}

theorem refreshKeepAlive_eq (env : Env) (r : Room) :
    ∃ ping, refreshKeepAlive env r = { r with keepAlivePing := ping } := by
  unfold refreshKeepAlive
  split
  · exact ⟨_, rfl⟩
  · exact ⟨r.keepAlivePing, rfl⟩

theorem sortByVotes_eq (r : Room) :
    ∃ queue dirty, r.sortByVotes = { r with queue := queue, dirty := dirty } := by
  unfold sortByVotes withQueue
  split
  · split
    · exact ⟨_, _, rfl⟩
    · exact ⟨_, r.dirty, rfl⟩
  · exact ⟨r.queue, r.dirty, rfl⟩

/-- Segments are fetched for what plays, whatever is queued behind it. -/
theorem upToDate_eq (env : Env) (r : Room) (queue : VideoQueue) (dirty : Finset SyncProp)
    (ping : Time) : ∃ dirty',
      upToDate env { r with queue := queue, dirty := dirty, keepAlivePing := ping } =
        { r with
          queue := queue
          dirty := dirty'
          keepAlivePing := ping
          wantSponsorBlock := false
          videoSegments := (r.upToDate env).videoSegments } := by
  unfold upToDate
  cases hwant : r.wantSponsorBlock with
  | false =>
    refine ⟨dirty, ?_⟩
    rw [if_neg Bool.false_ne_true, if_neg Bool.false_ne_true, ← hwant]
  | true =>
    rw [if_pos rfl, if_pos rfl]
    have hdrop : ∀ r : Room, ∃ dirty', r.dropVideoSegments =
        { r with dirty := dirty', videoSegments := [] } := by
      intro r
      unfold dropVideoSegments
      split
      · exact ⟨_, rfl⟩
      · next h =>
        have hnil : r.videoSegments = [] :=
          List.length_eq_zero_iff.mp (Nat.le_zero.mp (not_lt.mp h))
        exact ⟨r.dirty, by rw [← hnil]⟩
    have hdropped : ∀ r : Room, r.dropVideoSegments.videoSegments = [] := by
      intro r
      obtain ⟨dirty', h⟩ := hdrop r
      rw [h]
    unfold fetchSponsorBlockSegments
    cases hsource : r.currentSource with
    | none =>
      dsimp only
      rw [hdropped]
      obtain ⟨dirty', h⟩ := hdrop { r with
        queue := queue, dirty := dirty, keepAlivePing := ping, wantSponsorBlock := false }
      exact ⟨dirty', by rw [← hsource]; exact h⟩
    | some e =>
      dsimp only
      split
      · cases env.fetchSegments e.item.id with
        | ok segments => exact ⟨_, by rw [← hsource]; rfl⟩
        | error e => exact ⟨_, by rw [← hsource]⟩
      · rw [hdropped]
        obtain ⟨dirty', h⟩ := hdrop { r with
          queue := queue, dirty := dirty, keepAlivePing := ping, wantSponsorBlock := false }
        exact ⟨dirty', by rw [← hsource]; exact h⟩

/-- Until when nothing is skipped, as soon as the update has looked at it. -/
def lifted (env : Env) (r : Room) : Option ℚ :=
  match r.dontSkipSegmentsUntil.filter (· ≠ 0) with
  | some time => if r.realPlaybackPosition env.now ≥ time then none else r.dontSkipSegmentsUntil
  | none => r.dontSkipSegmentsUntil

theorem endDontSkip_eq (env : Env) (r : Room) :
    endDontSkip env r = { r with dontSkipSegmentsUntil := lifted env r } := by
  unfold endDontSkip lifted
  cases r.dontSkipSegmentsUntil.filter (· ≠ 0) with
  | none => rfl
  | some time =>
    dsimp only
    split <;> rfl

/-- **The update of a room whose video is not over.** What it tidies up does not matter to the
segments. -/
theorem run_update_watched (h : Watched env r) : ∃ queue dirty dirty' ping,
    (update env).run r =
      if r.autoSkipSegmentCategories.length > 0 then
        (autoSkip env).run { r with
          queue := queue
          dirty := dirty'
          keepAlivePing := ping
          wantSponsorBlock := false
          videoSegments := (r.upToDate env).videoSegments
          dontSkipSegmentsUntil := lifted env r }
      else ⟨{ r with queue := queue, dirty := dirty, keepAlivePing := ping }, [], .ok ()⟩ := by
  obtain ⟨ping, hping⟩ := refreshKeepAlive_eq env r
  obtain ⟨queue, dirty, hsort⟩ := sortByVotes_eq { r with keepAlivePing := ping }
  obtain ⟨dirty', hfetch⟩ := upToDate_eq env r queue dirty ping
  refine ⟨queue, dirty, dirty', ping, ?_⟩
  have hgoesOn : ¬ (r.currentSource = none ∧ r.queue ≠ [] ∨ r.sourceEnded env.now = true) := by
    rw [h.before]
    rintro (hnone | hended)
    · exact h.source hnone.1
    · cases hended
  rw [run_update, Handler.run_when, if_neg hgoesOn, Outcome.andThen_ok]
  unfold updateRest
  rw [Handler.run_bind, Handler.run_modify, Outcome.andThen_ok, hping, hsort, Handler.run_bind,
    Handler.run_get, Outcome.andThen_ok, Handler.run_when]
  by_cases hcategories : r.autoSkipSegmentCategories.length > 0
  · rw [if_pos ⟨h.enabled, hcategories⟩, if_pos hcategories, Handler.run_bind, Handler.run_modify,
      Outcome.andThen_ok, Handler.run_bind, Handler.run_modify, Outcome.andThen_ok]
    unfold upToDate at hfetch
    rw [hfetch, endDontSkip_eq]
    simp only [List.nil_append]
    rfl
  · rw [if_neg (fun hon => hcategories hon.2), if_neg hcategories]
    rfl

/-- The three ways in which skipping goes. -/
theorem autoSkip_cases (env : Env) (r : Room) :
    ((r.isPlaying = true → r.dontSkipSegmentsUntil = none →
        ∀ s, r.getSegmentForTime (r.realPlaybackPosition env.now) = some s →
          s.category ∉ r.autoSkipSegmentCategories) ∧
      (autoSkip env).run r = ⟨r, [], .ok ()⟩) ∨
    (r.isPlaying = true ∧ r.dontSkipSegmentsUntil = none ∧
      ∃ s, r.getSegmentForTime (r.realPlaybackPosition env.now) = some s ∧
        s.category ∈ r.autoSkipSegmentCategories ∧
        ((¬ r.Counts env.now ∧ (autoSkip env).run r = ⟨r, [], .error (r.countError env.now)⟩) ∨
          (r.Counts env.now ∧ (autoSkip env).run r =
            ⟨(r.setPlaybackPosition s.endTime).setPlaybackStart (some env.now),
              [.eventCustom ("Skipped " ++ s.category.name)], .ok ()⟩))) := by
  unfold autoSkip
  rw [Handler.run_bind, Handler.run_get, Outcome.andThen_ok]
  simp only [List.nil_append]
  cases hsegment : r.getSegmentForTime (r.realPlaybackPosition env.now) with
  | none =>
    left
    refine ⟨fun _ _ s hs => ?_, ?_⟩
    · cases hs
    · split <;> rfl
  | some s =>
    have hlength : r.videoSegments.length > 0 :=
      List.length_pos_of_mem (List.mem_of_find?_eq_some hsegment)
    by_cases hskips : r.isPlaying = true ∧ r.dontSkipSegmentsUntil = none
    · rw [if_pos ⟨hskips.1, hlength, hskips.2⟩, Handler.run_when]
      by_cases hcategory : s.category ∈ r.autoSkipSegmentCategories
      · right
        refine ⟨hskips.1, hskips.2, s, rfl, hcategory, ?_⟩
        rw [if_pos hcategory]
        unfold seekRaw
        by_cases hcounts : r.Counts env.now
        · right
          refine ⟨hcounts, ?_⟩
          simp [run_countSecondsWatched env hcounts]
        · left
          refine ⟨hcounts, ?_⟩
          simp [run_countSecondsWatched_throws env hcounts]
      · left
        rw [if_neg hcategory]
        refine ⟨fun _ _ s' hs' => ?_, rfl⟩
        cases hs'
        exact hcategory
    · left
      rw [if_neg (fun h => hskips ⟨h.1, h.2.2⟩)]
      exact ⟨fun hplaying hnone => absurd ⟨hplaying, hnone⟩ hskips, rfl⟩

/-- **When an update seeks by itself.** -/
theorem autoSeeks_iff (h : Watched env r) (position : ℚ) : AutoSeeks env r position ↔
    r.isPlaying = true ∧ lifted env r = none ∧ r.Counts env.now ∧
      ∃ s, (r.upToDate env).getSegmentForTime (r.realPlaybackPosition env.now) = some s ∧
        s.category ∈ r.autoSkipSegmentCategories ∧ s.endTime = position := by
  obtain ⟨queue, dirty, dirty', ping, hrun⟩ := run_update_watched h
  have hsilent : ∀ {state : Room} {result}, (update env).run r = ⟨state, [], result⟩ →
      ¬ AutoSeeks env r position := by
    rintro state result heq ⟨-, -, category, hpublished⟩
    rw [heq] at hpublished
    cases hpublished
  by_cases hcategories : r.autoSkipSegmentCategories.length > 0
  · rw [if_pos hcategories] at hrun
    rcases autoSkip_cases env { r with
        queue := queue
        dirty := dirty'
        keepAlivePing := ping
        wantSponsorBlock := false
        videoSegments := (r.upToDate env).videoSegments
        dontSkipSegmentsUntil := lifted env r } with
      ⟨hnot, hskip⟩ |
        ⟨hplaying, hlifted, s, hsegment, hcategory, ⟨hcounts, hskip⟩ | ⟨hcounts, hskip⟩⟩
    · refine iff_of_false (hsilent (hrun.trans hskip)) ?_
      rintro ⟨hplaying, hlifted, -, s, hsegment, hcategory, -⟩
      exact hnot hplaying hlifted s hsegment hcategory
    · exact iff_of_false (hsilent (hrun.trans hskip)) (fun h => hcounts h.2.2.1)
    · have hstate := hrun.trans hskip
      constructor
      · rintro ⟨hposition, -, -⟩
        rw [hstate] at hposition
        exact ⟨hplaying, hlifted, hcounts, s, hsegment, hcategory, hposition⟩
      · rintro ⟨-, -, -, s', hsegment', -, hposition⟩
        have hsame : s = s' := Option.some.inj (hsegment.symm.trans hsegment')
        subst hsame
        refine ⟨?_, ?_, s.category, ?_⟩
        · rw [hstate]
          exact hposition
        · rw [hstate]
          rfl
        · rw [hstate]
  · rw [if_neg hcategories] at hrun
    refine iff_of_false (hsilent hrun) ?_
    rintro ⟨-, -, -, s, -, hcategory, -⟩
    exact hcategories (List.length_pos_of_mem hcategory)

theorem mem_of_getSegmentForTime {t : ℚ} {s : Segment} (h : r.getSegmentForTime t = some s) :
    s ∈ r.videoSegments ∧ Contains s t := by
  refine ⟨List.mem_of_find?_eq_some h, ?_⟩
  have hcontains := List.find?_some h
  simpa [Contains] using hcontains

/-- **An update skips exactly what is due**, exactly if the first segment is. -/
theorem skipsExactly_iff (h : Watched env r) (hplaying : r.isPlaying = true)
    (hnone : r.dontSkipSegmentsUntil = none) : SkipsExactly env r ↔ FirstIsDue env r := by
  have hlifted : lifted env r = none := by
    unfold lifted
    rw [hnone]
    rfl
  have hdue : ∀ {position}, AutoSeeks env r position →
      ∃ s ∈ (r.upToDate env).videoSegments, Due env r s ∧ s.endTime = position := by
    intro position hseeks
    obtain ⟨-, -, -, s, hsegment, hcategory, hposition⟩ := (autoSeeks_iff h position).mp hseeks
    obtain ⟨hmem, hcontains⟩ := mem_of_getSegmentForTime hsegment
    exact ⟨s, hmem, ⟨hcategory, hcontains⟩, hposition⟩
  constructor
  · intro hexactly hsome
    obtain ⟨position, hseeks⟩ := hexactly.iff.mpr hsome
    obtain ⟨-, -, hcounts, s, hsegment, hcategory, -⟩ := (autoSeeks_iff h position).mp hseeks
    exact ⟨⟨s, hsegment, hcategory⟩, hcounts⟩
  · intro hfirst
    refine ⟨⟨?_, ?_⟩, fun position hseeks => hdue hseeks⟩
    · rintro ⟨position, hseeks⟩
      obtain ⟨s, hmem, hs, -⟩ := hdue hseeks
      exact ⟨s, hmem, hs⟩
    · intro hsome
      obtain ⟨⟨s, hsegment, hcategory⟩, hcounts⟩ := hfirst hsome
      exact ⟨s.endTime, (autoSeeks_iff h _).mpr
        ⟨hplaying, hlifted, hcounts, s, hsegment, hcategory, rfl⟩⟩

end Update

/-! ## After a seek -/

/-- What decides about skipping, apart from the position. -/
def skipMarks (r : Room) : List Segment × Option ℚ × Bool :=
  (r.videoSegments, r.dontSkipSegmentsUntil, r.wantSponsorBlock)

inductive SkipEvent where
  | update (env : Env)
  /-- Whatever else leaves the marks alone. -/
  | other (r : Room)

def watching : Machine Room SkipEvent where
  step r
    | .update env => some ((update env).run r).state
    | .other r' => if r'.skipMarks = r.skipMarks then some r' else none

/-- At the update the video is not over, and the position is in a segment that `p` is in as well. -/
def Stays (p : ℚ) (r : Room) : SkipEvent → Prop
  | .update env => Watched env r ∧ ∃ s ∈ r.videoSegments,
      Contains s p ∧ Contains s (r.realPlaybackPosition env.now)
  | .other _ => True

/-- The update does not seek. -/
def Plays (r : Room) : SkipEvent → Prop
  | .update env => ∀ position, ¬ AutoSeeks env r position
  | .other _ => True

/-- The position has reached the end of the first segment in the list that contains `p`, now or at
an update before. An end of zero is never reached. -/
def Passed (p : ℚ) (env : Env) (r : Room) : Prop :=
  r.dontSkipSegmentsUntil = none ∨ ∃ s, r.getSegmentForTime p = some s ∧ s.endTime ≠ 0 ∧
    s.endTime ≤ r.realPlaybackPosition env.now

/-- Once the position has passed, the first segment in the list that contains it is of a category
that is not enabled. -/
def Suppressed (p : ℚ) (r : Room) : SkipEvent → Prop
  | .update env => r.isPlaying = true → Passed p env r → r.Counts env.now →
      ∀ s, r.getSegmentForTime (r.realPlaybackPosition env.now) = some s →
        s.category ∉ r.autoSkipSegmentCategories
  | .other _ => True

/-- What a seek to `p` leaves: nothing is skipped before the end of the first segment that contains
`p`. -/
structure Sought (p : ℚ) (r : Room) : Prop where
  holdsBack : r.dontSkipSegmentsUntil = none ∨
    r.dontSkipSegmentsUntil = (r.getSegmentForTime p).map (·.endTime)
  fetched : r.wantSponsorBlock = false

theorem Sought.congr {p : ℚ} {r r' : Room} (h : Sought p r) (hmarks : r'.skipMarks = r.skipMarks) :
    Sought p r' := by
  obtain ⟨hsegments, hmarks⟩ := Prod.mk.injEq .. ▸ hmarks
  obtain ⟨huntil, hwant⟩ := Prod.mk.injEq .. ▸ hmarks
  refine ⟨?_, hwant.trans h.fetched⟩
  unfold getSegmentForTime
  rw [hsegments, huntil]
  exact h.holdsBack

section Seek

variable {env : Env} {r : Room} {p : ℚ}

theorem lifted_of_some {time : ℚ} (h : r.dontSkipSegmentsUntil = some time) :
    lifted env r = none ↔ time ≠ 0 ∧ time ≤ r.realPlaybackPosition env.now := by
  unfold lifted
  rw [h]
  by_cases hzero : time = 0
  · rw [Option.filter_some, if_neg (by simp [hzero])]
    simp [hzero]
  · rw [Option.filter_some, if_pos (by simp [hzero])]
    dsimp only
    split
    · next hle => exact iff_of_true rfl ⟨hzero, hle⟩
    · next hlt => exact iff_of_false (Option.some_ne_none time) (fun hpassed => hlt hpassed.2)

theorem lifted_eq_none_iff (h : Sought p r) : lifted env r = none ↔ Passed p env r := by
  unfold Passed
  rcases h.holdsBack with hnone | hfirst
  · refine iff_of_true ?_ (.inl hnone)
    unfold lifted
    rw [hnone]
    rfl
  · cases hsegment : r.getSegmentForTime p with
    | none =>
      rw [hsegment] at hfirst
      refine iff_of_true ?_ (.inl hfirst)
      unfold lifted
      rw [hfirst]
      rfl
    | some s =>
      rw [hsegment] at hfirst
      rw [lifted_of_some hfirst, hfirst]
      constructor
      · rintro ⟨hzero, hle⟩
        exact .inr ⟨s, rfl, hzero, hle⟩
      · rintro (hnone | ⟨s', hs', hpassed⟩)
        · cases hnone
        · cases hs'
          exact hpassed

/-- A seek that returns. -/
theorem seek_sought {context : RoomRequestContext} (hwant : r.wantSponsorBlock = false)
    (hreturns : ((seek env (some p) context).run r).result = .ok ()) :
    Sought p ((seek env (some p) context).run r).state := by
  by_cases hcounts : r.Counts env.now
  · have hrun : (seek env (some p) context).run r =
        ((publishRoomEvent (.seek (some p)) context
          { RoomEventContext.none with prevPosition := some (r.realPlaybackPosition env.now) }).run
            ((r.setPlaybackPosition p).setPlaybackStart (some env.now))).andThen (fun _ =>
          Handler.modify (fun r => { r with dontSkipSegmentsUntil :=
            (r.getSegmentForTime r.playbackPosition).map (·.endTime) })) := by
      simp [seek, seekRaw, run_countSecondsWatched env hcounts]
    have hsame := publishRoomEvent_keeps (R := Handler.SameOn id) (.seek (some p)) context
      { RoomEventContext.none with prevPosition := some (r.realPlaybackPosition env.now) }
      ((r.setPlaybackPosition p).setPlaybackStart (some env.now))
    rw [hrun] at hreturns ⊢
    generalize (publishRoomEvent (.seek (some p)) context _).run
      ((r.setPlaybackPosition p).setPlaybackStart (some env.now)) = o at hreturns hsame ⊢
    obtain ⟨state, published, result⟩ := o
    change state = (r.setPlaybackPosition p).setPlaybackStart (some env.now) at hsame
    subst hsame
    cases result with
    | error e => cases hreturns
    | ok _ => exact ⟨.inr rfl, hwant⟩
  · simp [seek, seekRaw, run_countSecondsWatched_throws env hcounts] at hreturns

theorem plays_iff_suppressed (h : Sought p r) (hwatched : Watched env r) :
    (∀ position, ¬ AutoSeeks env r position) ↔ Suppressed p r (.update env) := by
  have hsame : r.upToDate env = r := by
    unfold upToDate
    rw [h.fetched, if_neg Bool.false_ne_true]
  simp only [autoSeeks_iff hwatched, hsame, lifted_eq_none_iff h, Suppressed]
  constructor
  · intro hnot hplaying hpassed hcounts s hsegment hcategory
    exact hnot s.endTime ⟨hplaying, hpassed, hcounts, s, hsegment, hcategory, rfl⟩
  · rintro hsuppressed position ⟨hplaying, hpassed, hcounts, s, hsegment, hcategory, -⟩
    exact hsuppressed hplaying hpassed hcounts s hsegment hcategory

/-- An update lifts the mark or leaves it, and leaves the segments. -/
theorem Sought.update (h : Sought p r) (hwatched : Watched env r) :
    Sought p ((update env).run r).state := by
  have hsame : r.upToDate env = r := by
    unfold upToDate
    rw [h.fetched, if_neg Bool.false_ne_true]
  have hlifted : lifted env r = none ∨ lifted env r = r.dontSkipSegmentsUntil := by
    unfold lifted
    split
    · split
      · exact .inl rfl
      · exact .inr rfl
    · exact .inr rfl
  have hholds : lifted env r = none ∨
      lifted env r = (r.getSegmentForTime p).map (·.endTime) := by
    rcases hlifted with hnone | hkept
    · exact .inl hnone
    · rw [hkept]
      exact h.holdsBack
  obtain ⟨queue, dirty, dirty', ping, hrun⟩ := run_update_watched hwatched
  rw [hrun, hsame]
  split
  · have hkeeps : ∀ r : Room, ((autoSkip env).run r).state.skipMarks = r.skipMarks := by
      intro r
      rcases autoSkip_cases env r with ⟨-, hskip⟩ | ⟨-, -, s, -, -, ⟨-, hskip⟩ | ⟨-, hskip⟩⟩
      · rw [hskip]
      · rw [hskip]
      · rw [hskip]
        rfl
    exact Sought.congr ⟨hholds, rfl⟩ (hkeeps _)
  · exact ⟨h.holdsBack, h.fetched⟩

end Seek

/-- **Nothing is skipped after a seek** exactly as long as what comes after the first segment is not
to be skipped. -/
theorem suppressed_throughout_iff {env : Env} {r : Room} {p : ℚ} {context : RoomRequestContext}
    {es : List SkipEvent} (hwant : r.wantSponsorBlock = false)
    (hreturns : ((seek env (some p) context).run r).result = .ok ())
    (hstays : watching.Along (Stays p) ((seek env (some p) context).run r).state es) :
    watching.Along Plays ((seek env (some p) context).run r).state es ↔
      watching.Along (Suppressed p) ((seek env (some p) context).run r).state es := by
  refine Machine.along_iff_along (I := Sought p) (C := Stays p) ?_ ?_ (seek_sought hwant hreturns)
    hstays
  · rintro r (env | r') r'' hr hstay hstep
    · cases hstep
      exact hr.update hstay.1
    · obtain ⟨hmarks, heq⟩ := Option.ite_none_right_eq_some.mp hstep
      cases heq
      exact hr.congr hmarks
  · rintro r (env | r') r'' hr hstay -
    · exact plays_iff_suppressed hr hstay.1
    · exact Iff.rfl

/-! ## All together -/

/-- A video with segments plays from the tenth second on; sponsors are skipped. -/
def sponsoredRoom (segments : List Segment) : Room :=
  { Room.new "foo" 0 with
    currentSource := some ⟨0, { QueueItem.ofVideoId ⟨.youtube, "foo"⟩ with length := some 100 }⟩
    isPlaying := true
    playbackPosition := 10
    playbackStart := some 0
    videoSegments := segments
    autoSkipSegmentCategories := [.sponsor] }

/-- At this time, with segments to be skipped. -/
def skippingEnv (now : Time) : Env := { emptyEnv now with sponsorblockEnabled := true }

def short : Segment := ⟨10, 20, .sponsor⟩

def long (category : Category) : Segment := ⟨5, 30, category⟩

def nobody : RoomRequestContext := ⟨"", .owner, none, none⟩

end Room

end OpenTogetherTube.Server
