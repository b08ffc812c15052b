import OpenTogetherTube.Lib.Removal
import OpenTogetherTube.Server.Duplicates
import OpenTogetherTube.Server.UndoSkip

/-!
# Undoing an add, undoing a removal

The event of an add says what was added, the event of a removal what was removed and from where. A
removal that is undone right away is taken back (`undo_remove_restores`).

An add is undone by removing the video that its request names, if something is queued. If nothing is
queued, or the request is a list, the undo stops what plays instead. That takes the add back only if
what plays was added and nothing else that was added is queued: `undo_add_iff` says exactly when the
undo removes what was added and is still queued, and nothing else.
-/

namespace OpenTogetherTube.Server

open OpenTogetherTube.Common OpenTogetherTube.Lib

/-- What the event of an add says was added. -/
def addedBy (additional : RoomEventContext) : List VideoId :=
  (additional.video.toList ++ additional.videos.getD []).map (·.toVideoId)

/-- The video that the request of an add names, by itself or by a url. -/
def namedVideo : RoomRequest → Option VideoAdd
  | .add video _ _ => video
  | _ => none

namespace Room

/-! ## The add -/

section Add

variable {r : Room} {context : RoomRequestContext} {request request' : RoomRequest}
  {additional additional' : RoomEventContext} {user : RoomUserInfo} {env : Env}

/-- What is published is what was given. -/
theorem publishRoomEvent_published
    (h : .event request' user additional' ∈
      ((publishRoomEvent request context additional).run r).published) :
    request' = request ∧ additional' = additional := by
  unfold publishRoomEvent at h
  cases hclient : context.clientId with
  | none =>
    rw [hclient] at h
    cases h
  | some client =>
    simp only [hclient, Handler.run_bind, Handler.run_get, Outcome.andThen_ok,
      Handler.run_liftExcept] at h
    cases hinfo : r.getUserInfo client with
    | error e =>
      rw [hinfo] at h
      cases h
    | ok info =>
      rw [hinfo] at h
      obtain ⟨hrequest, -, hadditional⟩ := RoomOutput.event.inj (List.mem_singleton.mp h)
      exact ⟨hrequest, hadditional⟩

theorem isVideoInQueue_iff {video : VideoId} :
    r.isVideoInQueue video = true ↔ video ∈ r.videoIds := by
  rw [isVideoInQueue, Bool.or_eq_true, contains_iff, videoIds_eq, List.mem_append]
  refine or_congr ?_ Iff.rfl
  cases r.currentSource with
  | none => simp
  | some current =>
    show current.is video = true ↔ video ∈ [current.videoId]
    rw [QueueEntry.is_iff, List.mem_singleton]
    exact eq_comm

/-- A video that was added is not there twice, as it was not there before. -/
theorem addVideo_published {video : VideoAdd}
    (h : .event request' user additional ∈
      ((addVideo env request video context).run r).published) :
    request' = request ∧
      ((addVideo env request video context).run r).state.videoIds.count video.toVideoId ≤ 1 := by
  cases hqueued : r.isVideoInQueue video.toVideoId with
  | true =>
    simp only [addVideo, Handler.run_bind, Handler.run_get, Outcome.andThen_ok, if_pos hqueued] at h
    cases h
  | false =>
    have hnew : r.videoIds.count video.toVideoId = 0 := by
      apply List.count_eq_zero.mpr
      intro hmem
      rw [isVideoInQueue_iff.mpr hmem] at hqueued
      cases hqueued
    constructor
    · simp only [addVideo, Handler.run_bind, Handler.run_get, Outcome.andThen_ok, hqueued,
        Bool.false_eq_true, if_false, Handler.run_liftExcept, List.nil_append] at h
      cases hfound : env.getVideoInfo video.toVideoId with
      | error e =>
        rw [hfound] at h
        cases h
      | ok found =>
        cases found with
        | none =>
          rw [hfound] at h
          cases h
        | some found =>
          simp only [hfound, Handler.run_bind, Handler.run_liftExcept, Outcome.andThen_ok,
            List.nil_append] at h
          cases hitem : withSubtitles video.subtitleUrl found with
          | error e =>
            rw [hitem] at h
            cases h
          | ok item =>
            rw [hitem] at h
            exact (publishRoomEvent_published h).1
    · have hadds := addVideo_adds env request video context r
      rw [hqueued, if_neg Bool.false_ne_true] at hadds
      obtain ⟨-, hfewer⟩ | hperm := hadds
      · exact (hfewer.count_le _).trans (by omega)
      · rw [hperm.count_eq, List.count_append, hnew]
        cases foundVideo env video with
        | none => exact Nat.zero_le 1
        | some found => exact List.count_le_length

theorem addVideos_published {videos : List VideoAdd}
    (h : .event request' user additional ∈
      ((addVideos env request videos context).run r).published) : request' = request := by
  simp only [addVideos, Handler.run_bind, Handler.run_liftExcept] at h
  cases hfound : env.getManyVideoInfo videos with
  | error e =>
    rw [hfound] at h
    cases h
  | ok found =>
    simp only [hfound, Outcome.andThen_ok, Handler.run_get, Handler.run_bind,
      Handler.run_liftExcept, List.nil_append] at h
    cases hnew : r.notQueued found with
    | error e =>
      rw [hnew] at h
      cases h
    | ok added =>
      simp only [hnew, Outcome.andThen_ok, List.nil_append] at h
      split at h
      · cases h
      · exact (publishRoomEvent_published h).1

/-- **What the event of an add names** is in the room once at most. -/
theorem add_published {video : Option VideoAdd} {videos : Option (List VideoAdd)}
    {url : Option String}
    (h : .event request' user additional ∈
      ((processRequest env (.add video videos url) context).run r).published) :
    ∃ named, request' = .add named videos url ∧ ∀ found, named = some found →
      ((processRequest env (.add video videos url) context).run r).state.videoIds.count
        found.toVideoId ≤ 1 := by
  cases hgranted : r.grants.granted context.role "manage-queue.add" with
  | false =>
    rw [processRequest, mediated_denied (.add video videos url) rfl hgranted] at h
    cases h
  | true =>
    have hrun : (processRequest env (.add video videos url) context).run r =
        (addToQueue env video videos url context).run r :=
      mediated_granted (.add video videos url) rfl hgranted _
    rw [hrun] at h ⊢
    simp only [addToQueue, Handler.run_bind, Handler.run_liftExcept] at h ⊢
    cases hresolved : resolvedVideo env video url with
    | error e =>
      rw [hresolved] at h
      cases h
    | ok named =>
      simp only [hresolved, Outcome.andThen_ok, List.nil_append] at h ⊢
      cases named with
      | some found =>
        obtain ⟨hrequest, hcount⟩ := addVideo_published h
        refine ⟨some found, hrequest, fun found' heq => ?_⟩
        cases heq
        exact hcount
      | none =>
        refine ⟨none, ?_, fun found heq => by cases heq⟩
        cases videos with
        | some list => exact addVideos_published h
        | none => cases h

end Add

/-! ## Updates -/

/-- Update ticks, one after the other. -/
def ticks (r : Room) (envs : List Env) : Room :=
  envs.foldl (fun r env => ((update env).run r).state) r

/-- However often the room is updated, no video comes in. -/
theorem ticks_fewer (r : Room) (envs : List Env) : Fewer r (r.ticks envs) := by
  induction envs generalizing r with
  | nil => exact refl_of Fewer r
  | cons env envs ih => exact trans_of Fewer (update_fewer env r) (ih _)

/-! ## The undo of an add -/

/-- **The purpose** of undoing an add: what was added and is still queued is removed, and what plays
goes on, unless it was added. -/
structure AddUndone (added : List VideoId) (s s' : Room) : Prop where
  queue : s'.queue = s.queue.filter (fun e => e.videoId ∉ added)
  currentSource : s'.currentSource = s.currentSource ∨
    s'.currentSource = none ∧ ∃ current, s.currentSource = some current ∧ current.videoId ∈ added

/-- What has to be the case when an add is to be undone. If something is queued and the request
names a video, then a queued video was added if it is that one, and only then. Otherwise nothing that
was added is queued, and what plays was added. -/
def Reversible (s : Room) (named : Option VideoAdd) (added : List VideoId) : Prop :=
  match s.queue, named with
  | _ :: _, some video => ∀ e ∈ s.queue, e.videoId ∈ added ↔ e.videoId = video.toVideoId
  | _, _ => (∀ e ∈ s.queue, e.videoId ∉ added) ∧
      ∀ current, s.currentSource = some current → current.videoId ∈ added

section Undo

variable {s : Room} {context : RoomRequestContext} {additional : RoomEventContext} {env : Env}

theorem evict_items (q : VideoQueue) (video : VideoId) :
    (q.evict video).items = q.eraseP (fun e => e.is video) := by
  rw [List.eraseP_eq_eraseIdx]
  unfold VideoQueue.evict VideoQueue.findIndex
  cases hidx : q.findIdx? (fun e => e.is video) with
  | none => rfl
  | some i =>
    obtain ⟨hi, -, -⟩ := List.findIdx?_eq_some_iff_getElem.mp hidx
    dsimp only
    rw [List.getElem?_eq_getElem hi]

theorem publishRoomEvent_state (request : RoomRequest) (context : RoomRequestContext)
    (additional : RoomEventContext) (s : Room) :
    ((publishRoomEvent request context additional).run s).state = s :=
  publishRoomEvent_keeps (R := Handler.SameOn id) request context additional s

/-- A video that is not queued cannot be removed. -/
theorem run_removeFromQueue_none {video : VideoId} (h : s.queue.contains video = false) :
    (removeFromQueue video context).run s = ⟨s, [], .error .videoNotFound⟩ := by
  simp only [removeFromQueue, Handler.run_bind, Handler.run_get, Outcome.andThen_ok, if_pos h]
  rfl

/-- One that is queued is, and the clients are told what it was and where. -/
theorem run_removeFromQueue_some {video : VideoId} {i : Nat} {e : QueueEntry}
    (hcontains : s.queue.contains video = true)
    (hevict : s.queue.evict video = ⟨s.queue.eraseIdx i, true, .ok (i, e)⟩) :
    (removeFromQueue video context).run s =
      (publishRoomEvent (.remove video) context
        { RoomEventContext.none with video := some e.item, queueIdx := some (i : ℚ) }).run
          (s.withQueue (s.queue.evict video)) := by
  have hnot : ¬ s.queue.contains video = false := by
    rw [hcontains]
    exact Bool.true_eq_false.mp
  simp only [removeFromQueue, Handler.run_bind, Handler.run_get, Outcome.andThen_ok, if_neg hnot,
    run_onQueue, hevict, List.nil_append]

/-- A removal takes out the first of the videos, if there is one. -/
theorem removeFromQueue_state (video : VideoId) (context : RoomRequestContext) (s : Room) :
    ((removeFromQueue video context).run s).state.queue = s.queue.eraseP (fun e => e.is video) ∧
    ((removeFromQueue video context).run s).state.currentSource = s.currentSource := by
  cases hcontains : s.queue.contains video with
  | false =>
    rw [run_removeFromQueue_none hcontains]
    refine ⟨(List.eraseP_of_forall_not ?_).symm, rfl⟩
    exact List.any_eq_false.mp hcontains
  | true =>
    obtain ⟨i, e, -, -, hevict⟩ := VideoQueue.evict_of_contains hcontains
    rw [run_removeFromQueue_some hcontains hevict, publishRoomEvent_state, withQueue_queue,
      withQueue_currentSource, evict_items]
    exact ⟨rfl, rfl⟩

/-- Filters of one list are equal if they keep the same. -/
theorem filter_eq_filter_iff {α : Type} {p p' : α → Bool} {l : List α} :
    l.filter p = l.filter p' ↔ ∀ a ∈ l, p a = p' a := by
  constructor
  · intro h a ha
    have hmem : a ∈ l.filter p ↔ a ∈ l.filter p' := by rw [h]
    rw [List.mem_filter, List.mem_filter] at hmem
    exact Bool.eq_iff_iff.mpr (by simpa [ha] using hmem)
  · exact List.filter_congr

/-- The undo of an add, for somebody who may remove videos. -/
theorem undo_add_state {named : Option VideoAdd} {videos : Option (List VideoAdd)}
    {url : Option String}
    (hgranted : s.grants.granted context.role "manage-queue.remove" = true) :
    ((processRequest env (.undo (.add named videos url) additional) context).run s).state =
      match s.queue, named with
      | _ :: _, some video => ((removeFromQueue video.toVideoId context).run s).state
      | _, _ => s.setCurrentSource none := by
  have hunlisted : (processRequest env (.undo (.add named videos url) additional) context).run s =
      (undo env (.add named videos url) additional context).run s :=
    mediated_unlisted (.undo (.add named videos url) additional) rfl _ s
  rw [hunlisted]
  simp only [undo, Handler.run_bind, Handler.run_get, Outcome.andThen_ok]
  cases s.queue with
  | nil => rfl
  | cons head tail =>
    cases named with
    | none => rfl
    | some video =>
      dsimp only
      rw [mediated_granted (.remove video.toVideoId) rfl hgranted]

/-- An undo that stops what plays. -/
theorem addUndone_stopped_iff {added : List VideoId} :
    AddUndone added s (s.setCurrentSource none) ↔ (∀ e ∈ s.queue, e.videoId ∉ added) ∧
      ∀ current, s.currentSource = some current → current.videoId ∈ added := by
  have hfilter : s.queue = s.queue.filter (fun e => e.videoId ∉ added) ↔
      ∀ e ∈ s.queue, e.videoId ∉ added := by
    rw [eq_comm, List.filter_eq_self]
    simp only [decide_eq_true_iff]
  constructor
  · intro h
    refine ⟨hfilter.mp h.queue, fun current hcurrent => ?_⟩
    rcases h.currentSource with hsame | ⟨-, playing, hplaying, hadded⟩
    · have hnone : s.currentSource = none := hsame.symm
      rw [hnone] at hcurrent
      cases hcurrent
    · rw [hcurrent] at hplaying
      cases hplaying
      exact hadded
  · rintro ⟨hqueue, hsource⟩
    refine ⟨hfilter.mpr hqueue, ?_⟩
    cases hcurrent : s.currentSource with
    | none => exact .inl rfl
    | some current => exact .inr ⟨rfl, current, rfl, hsource current hcurrent⟩

/-- An undo that removes a video. -/
theorem addUndone_removed_iff {video : VideoId} (context : RoomRequestContext)
    (added : List VideoId) (honce : s.videoIds.count video ≤ 1) :
    AddUndone added s ((removeFromQueue video context).run s).state ↔
      ∀ e ∈ s.queue, e.videoId ∈ added ↔ e.videoId = video := by
  obtain ⟨hqueue, hsource⟩ := removeFromQueue_state video context s
  have hcount : s.queue.countP (fun e => e.is video) ≤ 1 := by
    have hmap : s.queue.countP (fun e => e.is video) = (s.queue.map (·.videoId)).count video := by
      rw [List.count, List.countP_map]
      apply List.countP_congr
      intro e _
      rw [QueueEntry.is_iff, Function.comp_apply, beq_iff_eq]
    rw [videoIds_eq, List.count_append] at honce
    omega
  rw [eraseP_eq_filter_of_countP hcount] at hqueue
  have hsame : AddUndone added s ((removeFromQueue video context).run s).state ↔
      s.queue.filter (fun e => !e.is video) = s.queue.filter (fun e => e.videoId ∉ added) := by
    constructor
    · intro h
      rw [← hqueue]
      exact h.queue
    · intro h
      exact ⟨hqueue.trans h, .inl hsource⟩
  rw [hsame, filter_eq_filter_iff]
  refine forall_congr' fun e => imp_congr_right fun _ => ?_
  rw [Bool.eq_iff_iff, Bool.not_eq_true', decide_eq_true_iff, ← Bool.not_eq_true,
    QueueEntry.is_iff]
  exact not_iff_not.trans iff_comm

/-- **When an undo takes an add back.** -/
theorem addUndone_iff {named : Option VideoAdd} {videos : Option (List VideoAdd)}
    {url : Option String} {added : List VideoId}
    (honce : ∀ video, named = some video → s.videoIds.count video.toVideoId ≤ 1)
    (hgranted : s.grants.granted context.role "manage-queue.remove" = true) :
    AddUndone added s
        ((processRequest env (.undo (.add named videos url) additional) context).run s).state ↔
      s.Reversible named added := by
  rw [undo_add_state hgranted]
  unfold Reversible
  cases hq : s.queue with
  | nil =>
    have hstopped := @addUndone_stopped_iff s added
    rw [hq] at hstopped
    exact hstopped
  | cons head tail =>
    cases named with
    | none =>
      have hstopped := @addUndone_stopped_iff s added
      rw [hq] at hstopped
      exact hstopped
    | some video =>
      have hremoved := addUndone_removed_iff context added (honce video rfl)
      rw [hq] at hremoved
      exact hremoved

/-! ## The undo of a removal -/

/-- Put back where it was. -/
theorem insert_evicted {q : VideoQueue} {i : Nat} {e : QueueEntry} (hget : q[i]? = some e)
    (object : ObjectId) :
    (VideoQueue.insert (q.eraseIdx i) ⟨object, e.item⟩ (i : ℚ)).items.map (·.item) =
      q.map (·.item) := by
  obtain ⟨hi, hget⟩ := List.getElem?_eq_some_iff.mp hget
  have hfits : ¬ ((i : ℚ) < 0 ∨ (i : ℚ) > ((q.eraseIdx i).length : ℚ)) := by
    rw [not_or, not_lt, gt_iff_lt, not_lt, Nat.cast_le, List.length_eraseIdx_of_lt hi]
    exact ⟨Nat.cast_nonneg i, by omega⟩
  have hindex : VideoQueue.spliceIndex (i : ℚ) = i := by
    rw [VideoQueue.spliceIndex, Int.floor_natCast, Int.toNat_natCast]
  have hlength : (q.take i).length = i := by
    rw [List.length_take]
    omega
  unfold VideoQueue.insert
  rw [if_neg hfits, hindex]
  dsimp only
  rw [List.eraseIdx_eq_take_drop_succ, List.take_left' hlength, List.drop_left' hlength]
  conv_rhs => rw [← List.take_append_drop i q, List.drop_eq_getElem_cons hi, hget]
  simp

/-- **A removal that is undone right away** is taken back. -/
theorem undo_remove_restores {r : Room} {video : VideoId} {request' : RoomRequest}
    {user : RoomUserInfo}
    (h : .event request' user additional ∈
      ((processRequest env (.remove video) context).run r).published)
    (undoing : Env) (context' : RoomRequestContext) :
    ((processRequest undoing (.undo request' additional) context').run
      ((processRequest env (.remove video) context).run r).state).state.queue.map (·.item) =
        r.queue.map (·.item) ∧
    ((processRequest undoing (.undo request' additional) context').run
      ((processRequest env (.remove video) context).run r).state).state.currentSource =
        r.currentSource := by
  cases hgranted : r.grants.granted context.role "manage-queue.remove" with
  | false =>
    rw [processRequest, mediated_denied (.remove video) rfl hgranted] at h
    cases h
  | true =>
    have hrun : (processRequest env (.remove video) context).run r =
        (removeFromQueue video context).run r :=
      mediated_granted (.remove video) rfl hgranted _
    rw [hrun] at h ⊢
    cases hcontains : r.queue.contains video with
    | false =>
      rw [run_removeFromQueue_none hcontains] at h
      cases h
    | true =>
      obtain ⟨i, e, hget, -, hevict⟩ := VideoQueue.evict_of_contains hcontains
      rw [run_removeFromQueue_some hcontains hevict] at h ⊢
      obtain ⟨rfl, rfl⟩ := publishRoomEvent_published h
      rw [publishRoomEvent_state]
      have hqueue : (r.withQueue (r.queue.evict video)).queue = r.queue.eraseIdx i := by
        rw [withQueue_queue, hevict]
      have hundo : ((processRequest undoing (.undo (.remove video)
          { RoomEventContext.none with video := some e.item, queueIdx := some (i : ℚ) })
          context').run (r.withQueue (r.queue.evict video))).state =
          (r.withQueue (r.queue.evict video)).withQueue
            (VideoQueue.insert (r.queue.eraseIdx i) ⟨undoing.fresh, e.item⟩ (i : ℚ)) := by
        rw [← hqueue]
        exact congrArg Outcome.state (mediated_unlisted (.undo (.remove video) _) rfl _ _)
      rw [hundo, withQueue_queue, withQueue_currentSource, withQueue_currentSource]
      exact ⟨insert_evicted hget undoing.fresh, rfl⟩

end Undo

/-! ## One after the other -/

/-- **Exactly when an undo takes back an add**, whatever was updated meanwhile; and a removal that is
undone right away is always taken back. -/
theorem undo_exact_iff (r : Room) (env undoing : Env) (context context' : RoomRequestContext)
    (request' : RoomRequest) (user : RoomUserInfo) (additional : RoomEventContext) :
    (∀ (video : Option VideoAdd) (videos : Option (List VideoAdd)) (url : Option String),
      .event request' user additional ∈
        ((processRequest env (.add video videos url) context).run r).published →
      ∀ (envs : List Env) (s : Room),
        s = ((processRequest env (.add video videos url) context).run r).state.ticks envs →
        s.grants.granted context'.role "manage-queue.remove" = true →
        (AddUndone (addedBy additional) s
            ((processRequest undoing (.undo request' additional) context').run s).state ↔
          s.Reversible (namedVideo request') (addedBy additional))) ∧
    ∀ video : VideoId,
      .event request' user additional ∈
        ((processRequest env (.remove video) context).run r).published →
      ∀ s s' : Room,
        s = ((processRequest env (.remove video) context).run r).state →
        s' = ((processRequest undoing (.undo request' additional) context').run s).state →
        s'.queue.map (·.item) = r.queue.map (·.item) ∧ s'.currentSource = r.currentSource := by
  constructor
  · intro video videos url hevent envs s hs hgranted
    obtain ⟨named, rfl, hcount⟩ := add_published hevent
    apply addUndone_iff
    · intro found hfound
      rw [hs]
      exact ((ticks_fewer _ envs).count_le _).trans (hcount found hfound)
    · exact hgranted
  · rintro video hevent s s' rfl rfl
    exact undo_remove_restores hevent undoing context'

/-! ## Two rooms -/

/-- Every video is found. -/
def findingEnv : Env :=
  { emptyEnv 0 with
    getVideoInfo := fun video => .ok (some (.ofVideoId video))
    getManyVideoInfo := fun videos => .ok (videos.map (fun video =>
      some ⟨0, .ofVideoId video.toVideoId⟩)) }

def third : VideoAdd := ⟨⟨.youtube, "third"⟩, ⟨none, none, none⟩⟩

def hostInfo : RoomUserInfo := ⟨"host", "", false, .none, .unregisteredUser⟩

/-- The event of the third video. -/
def thirdAdded : RoomEventContext :=
  { RoomEventContext.none with video := some (.ofVideoId third.toVideoId) }

/-- A video that was added by itself is removed again. -/
theorem undo_exact_iff_third : ∃ s,
    .event (.add (some third) none none) hostInfo thirdAdded ∈
      ((processRequest findingEnv (.add (some third) none none) hostContext).run
        (watchedRoom false)).published ∧
    s = ((processRequest findingEnv (.add (some third) none none) hostContext).run
      (watchedRoom false)).state.ticks [emptyEnv 0, emptyEnv 1] ∧
    s.grants.granted hostContext.role "manage-queue.remove" = true ∧
    AddUndone (addedBy thirdAdded) s
      ((processRequest findingEnv (.undo (.add (some third) none none) thirdAdded)
        hostContext).run s).state := by
  refine ⟨_, by decide +kernel, rfl, by decide +kernel, ?_⟩
  refine ((undo_exact_iff (watchedRoom false) findingEnv findingEnv hostContext hostContext _
    hostInfo _).1 (some third) none none (by decide +kernel) [emptyEnv 0, emptyEnv 1] _ rfl
    (by decide +kernel)).mpr ?_
  have hqueue : (((processRequest findingEnv (.add (some third) none none) hostContext).run
      (watchedRoom false)).state.ticks [emptyEnv 0, emptyEnv 1]).queue =
      [⟨1, .ofVideoId ⟨.youtube, "second"⟩⟩, ⟨0, .ofVideoId third.toVideoId⟩] := by decide +kernel
  have hadded : ∀ e ∈ ([⟨1, .ofVideoId ⟨.youtube, "second"⟩⟩, ⟨0, .ofVideoId third.toVideoId⟩] :
      List QueueEntry), e.videoId ∈ addedBy thirdAdded ↔ e.videoId = third.toVideoId := by decide
  unfold Reversible
  rw [hqueue]
  exact hadded

/-- A list of one video stays queued, and what plays is stopped instead. -/
theorem not_undo_exact : ¬ ∀ (r : Room) (adding : Env) (context : RoomRequestContext)
    (video : Option VideoAdd) (videos : Option (List VideoAdd)) (url : Option String)
    (request' : RoomRequest) (user : RoomUserInfo) (additional : RoomEventContext),
    .event request' user additional ∈
      ((processRequest adding (.add video videos url) context).run r).published →
    ∀ (envs : List Env) (undoing : Env) (context' : RoomRequestContext) (s : Room),
      s = ((processRequest adding (.add video videos url) context).run r).state.ticks envs →
      s.grants.granted context'.role "manage-queue" = true →
      AddUndone (addedBy additional) s
        ((processRequest undoing (.undo request' additional) context').run s).state := by
  intro h
  have hundone := h (watchedRoom true) findingEnv hostContext none (some [third]) none
    (.add none (some [third]) none) hostInfo
    { RoomEventContext.none with videos := some [.ofVideoId third.toVideoId] } (by decide +kernel)
    [] findingEnv hostContext _ rfl (by decide +kernel)
  exact absurd hundone.queue (by decide +kernel)

end Room

end OpenTogetherTube.Server
