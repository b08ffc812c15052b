import OpenTogetherTube.Lib.Machine
import Mathlib.Data.List.Perm.Basic

/-!
# Cooperative tasks over a shared state

Asynchronous code runs in **segments**: a call runs without interruption until it awaits
something, and again from there when the awaited thing has settled. Between two segments any other
task may run. The same picture describes code that holds a lock only for a critical section: a
segment is then one critical section.

A `Program` says what the segments do. `start` is the first segment of a call, `resume` the segment
that follows an await, given the answer the await settled with (`none` when the answer is not one
that this await can settle with). A segment changes the shared state and leaves a `Progress`: the
task waits again, or it is done with a result. `environment` is what may happen to the shared state
from outside.

`Program.machine` is the transition system of a pool of such tasks under **every** interleaving: the
scheduler's choices are the events. A task keeps its place in the pool after it is done, so an
index names the same task for the whole run.
-/

namespace OpenTogetherTube.Lib

/-- How a task stands after a segment: suspended, or finished with a result. -/
inductive Progress (τ ρ : Type) where
  | waiting (task : τ)
  | done (result : ρ)
  deriving DecidableEq, Repr

/-- A task that is part of another program. -/
def Progress.map {τ τ' ρ ρ' : Type} (f : τ → τ') (g : ρ → ρ') : Progress τ ρ → Progress τ' ρ'
  | .waiting task => .waiting (f task)
  | .done result => .done (g result)

/-- The segments of an asynchronous program: calls `κ`, suspended tasks `τ`, answers `χ`,
environment events `ξ`, results `ρ`. -/
structure Program (σ κ τ χ ξ ρ : Type) where
  start : κ → σ → σ × Progress τ ρ
  resume : τ → χ → σ → Option (σ × Progress τ ρ)
  environment : ξ → σ → Option σ

/-- The shared state and every task started so far. -/
structure Pool (σ τ ρ : Type) where
  shared : σ
  tasks : List (Progress τ ρ)

/-- A choice of the scheduler. -/
inductive PoolEvent (κ χ ξ : Type) where
  | call (c : κ)
  | answer (i : Nat) (x : χ)
  | external (e : ξ)
  deriving DecidableEq, Repr

namespace Pool

variable {σ τ ρ : Type}

/-- A shared state on which nothing has been started. -/
def idle (s : σ) : Pool σ τ ρ := ⟨s, []⟩

/-- The tasks that are suspended, in the order in which they were started. -/
def suspended (p : Pool σ τ ρ) : List τ :=
  p.tasks.filterMap (fun t => match t with
    | .waiting task => some task
    | .done _ => none)

/-- The results of the tasks that have finished. -/
def results (p : Pool σ τ ρ) : List ρ :=
  p.tasks.filterMap (fun t => match t with
    | .waiting _ => none
    | .done r => some r)

@[simp] theorem suspended_idle (s : σ) : (idle s : Pool σ τ ρ).suspended = [] := rfl

@[simp] theorem shared_idle (s : σ) : (idle s : Pool σ τ ρ).shared = s := rfl

theorem mem_suspended {p : Pool σ τ ρ} {task : τ} :
    task ∈ p.suspended ↔ Progress.waiting task ∈ p.tasks := by
  rw [suspended, List.mem_filterMap]
  constructor
  · rintro ⟨t, ht, heq⟩
    cases t with
    | waiting task' => cases heq; exact ht
    | done r => cases heq
  · exact fun h => ⟨_, h, rfl⟩

theorem mem_results {p : Pool σ τ ρ} {r : ρ} : r ∈ p.results ↔ Progress.done r ∈ p.tasks := by
  rw [results, List.mem_filterMap]
  constructor
  · rintro ⟨t, ht, heq⟩
    cases t with
    | waiting task' => cases heq
    | done r' => cases heq; exact ht
  · exact fun h => ⟨_, h, rfl⟩

end Pool

namespace Program

variable {σ κ τ χ ξ ρ : Type}

/-- One scheduling step. -/
def poolStep (P : Program σ κ τ χ ξ ρ) (p : Pool σ τ ρ) :
    PoolEvent κ χ ξ → Option (Pool σ τ ρ)
  | .call c =>
      let r := P.start c p.shared
      some ⟨r.1, p.tasks ++ [r.2]⟩
  | .answer i x =>
      match p.tasks[i]? with
      | some (.waiting task) =>
          (P.resume task x p.shared).map (fun r => ⟨r.1, p.tasks.set i r.2⟩)
      | _ => none
  | .external e => (P.environment e p.shared).map (fun s => ⟨s, p.tasks⟩)

/-- The transition system of a pool of tasks under every interleaving. -/
def machine (P : Program σ κ τ χ ξ ρ) : Machine (Pool σ τ ρ) (PoolEvent κ χ ξ) := ⟨P.poolStep⟩

variable {P : Program σ κ τ χ ξ ρ}

/-- **Inversion of a scheduling step**: a call's first segment, a suspended task's next segment, or
the environment. -/
theorem step_cases {p p' : Pool σ τ ρ} {e : PoolEvent κ χ ξ} (h : P.machine.step p e = some p') :
    (∃ c, e = .call c ∧
      p' = ⟨(P.start c p.shared).1, p.tasks ++ [(P.start c p.shared).2]⟩) ∨
    (∃ i x task s pr, e = .answer i x ∧ p.tasks[i]? = some (.waiting task) ∧
      P.resume task x p.shared = some (s, pr) ∧ p' = ⟨s, p.tasks.set i pr⟩) ∨
    (∃ ev s, e = .external ev ∧ P.environment ev p.shared = some s ∧ p' = ⟨s, p.tasks⟩) := by
  change P.poolStep p e = some p' at h
  cases e with
  | call c =>
    simp only [poolStep, Option.some.injEq] at h
    exact .inl ⟨c, rfl, h.symm⟩
  | answer i x =>
    simp only [poolStep] at h
    split at h
    · next task ht =>
      obtain ⟨⟨s, pr⟩, hr, rfl⟩ := Option.map_eq_some_iff.mp h
      exact .inr (.inl ⟨i, x, task, s, pr, rfl, ht, hr, rfl⟩)
    · exact absurd h (by simp)
  | external ev =>
    simp only [poolStep] at h
    obtain ⟨s, hs, rfl⟩ := Option.map_eq_some_iff.mp h
    exact .inr (.inr ⟨ev, s, rfl, hs, rfl⟩)

/-- What is read off the tasks of a pool, before and after one of them runs: the task's part is
exchanged, and the rest stays. -/
theorem filterMap_set_perm {β : Type} (f : Progress τ ρ → Option β) {tasks : List (Progress τ ρ)}
    {i : Nat} {t : Progress τ ρ} (h : tasks[i]? = some t) (t' : Progress τ ρ) :
    ∃ rest, (tasks.filterMap f).Perm ((f t).toList ++ rest) ∧
      ((tasks.set i t').filterMap f).Perm ((f t').toList ++ rest) := by
  obtain ⟨hi, rfl⟩ := List.getElem?_eq_some_iff.mp h
  have hcons : ∀ t, (t :: tasks.eraseIdx i).filterMap f =
      (f t).toList ++ (tasks.eraseIdx i).filterMap f := by
    intro t
    rw [List.filterMap_cons]
    cases f t <;> rfl
  refine ⟨(tasks.eraseIdx i).filterMap f, ?_, ?_⟩
  · rw [← hcons]
    exact (List.getElem_cons_eraseIdx_perm hi).symm.filterMap f
  · rw [← hcons]
    exact (List.set_perm_cons_eraseIdx hi t').filterMap f

/-- Where what is read off is never the same twice, it says which task it was read off. -/
theorem eq_of_nodup_filterMap {β : Type} {f : Progress τ ρ → Option β} {tasks : List (Progress τ ρ)}
    (h : (tasks.filterMap f).Nodup) {t t' : Progress τ ρ} (ht : t ∈ tasks) (ht' : t' ∈ tasks)
    {b : β} (hb : f t = some b) (hb' : f t' = some b) : t = t' := by
  induction tasks with
  | nil => cases ht
  | cons a tasks ih =>
    have hmem : ∀ {t}, t ∈ tasks → f t = some b → b ∈ tasks.filterMap f :=
      fun ht hb => List.mem_filterMap.mpr ⟨_, ht, hb⟩
    rcases List.mem_cons.mp ht with rfl | hin
    · rcases List.mem_cons.mp ht' with rfl | hin'
      · rfl
      · rw [List.filterMap_cons_some hb, List.nodup_cons] at h
        exact absurd (hmem hin' hb') h.1
    · rcases List.mem_cons.mp ht' with rfl | hin'
      · rw [List.filterMap_cons_some hb', List.nodup_cons] at h
        exact absurd (hmem hin hb) h.1
      · exact ih (h.sublist ((List.sublist_cons_self a tasks).filterMap f)) hin hin'

/-- A suspended task is one of the pool's. -/
theorem mem_of_getElem? {tasks : List (Progress τ ρ)} {i : Nat} {task : τ}
    (h : tasks[i]? = some (.waiting task)) : Progress.waiting task ∈ tasks :=
  List.mem_of_getElem? h

/-! ### One place of the pool -/

/-- A task is started at the end of the pool, or goes on at its place: `t` is there now, and every
other place is what it was. -/
structure Advance (tasks : List (Progress τ ρ)) (i : Nat) (t : Progress τ ρ)
    (tasks' : List (Progress τ ρ)) : Prop where
  here : tasks'[i]? = some t
  elsewhere : ∀ k ≠ i, tasks'[k]? = tasks[k]?
  notDone : ∀ r, tasks[i]? ≠ some (.done r)

theorem advance_append (tasks : List (Progress τ ρ)) (t : Progress τ ρ) :
    Advance tasks tasks.length t (tasks ++ [t]) where
  here := List.getElem?_concat_length
  elsewhere k hk := by
    rcases Nat.lt_or_ge k tasks.length with hlt | hge
    · exact List.getElem?_append_left hlt
    · rw [List.getElem?_eq_none hge, List.getElem?_eq_none]
      simp only [List.length_append, List.length_singleton]
      omega
  notDone r h := by
    rw [List.getElem?_eq_none (Nat.le_refl _)] at h
    cases h

theorem advance_set {tasks : List (Progress τ ρ)} {i : Nat} {task : τ}
    (h : tasks[i]? = some (.waiting task)) (t : Progress τ ρ) :
    Advance tasks i t (tasks.set i t) where
  here := by
    obtain ⟨hi, -⟩ := List.getElem?_eq_some_iff.mp h
    exact List.getElem?_set_self hi
  elsewhere k hk := List.getElem?_set_ne (Ne.symm hk)
  notDone r hr := by
    rw [h] at hr
    cases hr

namespace Advance

variable {tasks tasks' : List (Progress τ ρ)} {i : Nat} {t t' : Progress τ ρ}

theorem mem (h : Advance tasks i t tasks') (ht : t' ∈ tasks') :
    t' = t ∨ ∃ k ≠ i, tasks[k]? = some t' := by
  obtain ⟨k, hk⟩ := List.mem_iff_getElem?.mp ht
  by_cases hki : k = i
  · rw [hki, h.here] at hk
    exact .inl (Option.some.inj hk).symm
  · rw [h.elsewhere k hki] at hk
    exact .inr ⟨k, hki, hk⟩

theorem mem_of_ne (h : Advance tasks i t tasks') {k : Nat} (hk : k ≠ i)
    (ht : tasks[k]? = some t') : t' ∈ tasks' :=
  List.mem_of_getElem? ((h.elsewhere k hk).trans ht)

theorem here_lt (h : Advance tasks i t tasks') : i < tasks'.length :=
  (List.getElem?_eq_some_iff.mp h.here).1

theorem lt_length (h : Advance tasks i t tasks') {k : Nat} (hk : k < tasks.length) :
    k < tasks'.length := by
  by_cases hki : k = i
  · rw [hki]
    exact h.here_lt
  · have hget := h.elsewhere k hki
    rw [List.getElem?_eq_getElem hk] at hget
    exact (List.getElem?_eq_some_iff.mp hget).1

/-- What is over stays over. -/
theorem mem_done (h : Advance tasks i t tasks') {r : ρ} (hr : .done r ∈ tasks) :
    .done r ∈ tasks' := by
  obtain ⟨k, hk⟩ := List.mem_iff_getElem?.mp hr
  by_cases hki : k = i
  · exact absurd (hki ▸ hk) (h.notDone r)
  · exact h.mem_of_ne hki hk

/-- The other tasks are what they were. -/
theorem eraseIdx_here (h : Advance tasks i t tasks') :
    t' ∈ tasks'.eraseIdx i ↔ t' ∈ tasks.eraseIdx i := by
  rw [List.mem_eraseIdx_iff_getElem?, List.mem_eraseIdx_iff_getElem?]
  refine exists_congr (fun k => and_congr_right (fun hk => ?_))
  rw [h.elsewhere k hk]

/-- Seen from another place, one task has changed. -/
theorem eraseIdx_elsewhere (h : Advance tasks i t tasks') {k : Nat}
    (ht : t' ∈ tasks'.eraseIdx k) : t' = t ∨ t' ∈ tasks.eraseIdx k := by
  obtain ⟨j, hj, hget⟩ := List.mem_eraseIdx_iff_getElem?.mp ht
  by_cases hji : j = i
  · rw [hji, h.here] at hget
    exact .inl (Option.some.inj hget).symm
  · rw [h.elsewhere j hji] at hget
    exact .inr (List.mem_eraseIdx_iff_getElem?.mpr ⟨j, hj, hget⟩)

end Advance

/-! ### What one task has at a time -/

/-- What `f` reads off a suspended task is nothing that another one has. -/
def Exclusive {κ : Type} (f : τ → Option κ) (tasks : List (Progress τ ρ)) : Prop :=
  ∀ (i j : Nat) (task task' : τ) (k : κ), tasks[i]? = some (.waiting task) →
    tasks[j]? = some (.waiting task') → f task = some k → f task' = some k → i = j

theorem exclusive_nil {κ : Type} {f : τ → Option κ} : Exclusive f ([] : List (Progress τ ρ)) := by
  intro i j task task' k ht
  rw [List.getElem?_nil] at ht
  cases ht

/-- It is enough to look at the task that has gone on. -/
theorem Advance.exclusive {κ : Type} {f : τ → Option κ} {tasks tasks' : List (Progress τ ρ)} {i : Nat}
    {t : Progress τ ρ} (h : Advance tasks i t tasks') (hex : Exclusive f tasks)
    (hnew : ∀ task k, t = .waiting task → f task = some k →
      ∀ j ≠ i, ∀ task', tasks[j]? = some (.waiting task') → f task' ≠ some k) :
    Exclusive f tasks' := by
  have hother : ∀ j task task' k, j ≠ i → tasks'[i]? = some (.waiting task) →
      tasks'[j]? = some (.waiting task') → f task = some k → f task' ≠ some k := by
    intro j task task' k hji ht ht' hk
    rw [h.here] at ht
    rw [h.elsewhere j hji] at ht'
    exact hnew task k (Option.some.inj ht) hk j hji task' ht'
  intro j j' task task' k ht ht' hk hk'
  by_cases hji : j = i
  · subst hji
    by_contra hne
    exact hother j' task task' k (Ne.symm hne) ht ht' hk hk'
  · by_cases hji' : j' = i
    · subst hji'
      exact absurd hk (hother j task' task k hji ht' ht hk')
    · rw [h.elsewhere j hji] at ht
      rw [h.elsewhere j' hji'] at ht'
      exact hex j j' task task' k ht ht' hk hk'

/-- A task that goes on keeps what it has, or has less. -/
theorem Exclusive.set {κ : Type} {f : τ → Option κ} {tasks : List (Progress τ ρ)} {i : Nat} {task : τ}
    {t : Progress τ ρ} (hex : Exclusive f tasks) (ht : tasks[i]? = some (.waiting task))
    (hkeep : ∀ task' k, t = .waiting task' → f task' = some k → f task = some k) :
    Exclusive f (tasks.set i t) := by
  refine (advance_set ht t).exclusive hex ?_
  intro task' k heq hk j hji task'' ht'' hk''
  exact hji (hex j i task'' task k ht'' ht hk'' (hkeep task' k heq hk))

/-! ### The history of a pool -/

/-- A segment of a suspended task, with the shared state before it and after it. -/
structure Turn (σ τ : Type) where
  place : Nat
  task : τ
  before : σ
  after : σ

/-- The segment that an event runs, if it runs one of a suspended task. -/
def turns (P : Program σ κ τ χ ξ ρ) (p : Pool σ τ ρ) : PoolEvent κ χ ξ → List (Turn σ τ)
  | .answer i x =>
      match p.tasks[i]? with
      | some (.waiting task) =>
          ((P.resume task x p.shared).map (fun r => ⟨i, task, p.shared, r.1⟩)).toList
      | _ => []
  | _ => []

/-- The pool, and the segments so far. -/
def history (P : Program σ κ τ χ ξ ρ) :
    Machine (Pool σ τ ρ × List (Turn σ τ)) (PoolEvent κ χ ξ) :=
  P.machine.logging P.turns

/-- A task is started or goes on, and what it does is written down in the second case; or the
environment acts. -/
theorem history_cases {t t' : Pool σ τ ρ × List (Turn σ τ)} {e : PoolEvent κ χ ξ}
    (h : P.history.step t e = some t') :
    (∃ c, e = .call c ∧
      t' = (⟨(P.start c t.1.shared).1, t.1.tasks ++ [(P.start c t.1.shared).2]⟩, t.2)) ∨
    (∃ i x task s pr, e = .answer i x ∧ t.1.tasks[i]? = some (.waiting task) ∧
      P.resume task x t.1.shared = some (s, pr) ∧
      t' = (⟨s, t.1.tasks.set i pr⟩, t.2 ++ [⟨i, task, t.1.shared, s⟩])) ∨
    (∃ ev s, e = .external ev ∧ P.environment ev t.1.shared = some s ∧
      t' = (⟨s, t.1.tasks⟩, t.2)) := by
  obtain ⟨hpool, hlog⟩ := Machine.step_logging.mp h
  rcases step_cases hpool with ⟨c, rfl, hp⟩ | ⟨i, x, task, s, pr, rfl, ht, hr, hp⟩ |
    ⟨ev, s, rfl, hs, hp⟩
  · exact .inl ⟨c, rfl, Prod.ext hp (hlog.trans (List.append_nil _))⟩
  · refine .inr (.inl ⟨i, x, task, s, pr, rfl, ht, hr, Prod.ext hp ?_⟩)
    rw [hlog, turns, ht]
    dsimp only
    rw [hr]
    rfl
  · exact .inr (.inr ⟨ev, s, rfl, hs, Prod.ext hp (hlog.trans (List.append_nil _))⟩)

/-! ### A task on its own -/

/-- A task runs to its end, and nothing else runs in between. -/
inductive Alone (P : Program σ κ τ χ ξ ρ) : Progress τ ρ → σ → σ → ρ → Prop where
  | done (r : ρ) (s : σ) : Alone P (.done r) s s r
  | resumed {task : τ} {x : χ} {s s' s'' : σ} {pr : Progress τ ρ} {r : ρ}
      (h : P.resume task x s = some (s', pr)) (hrest : Alone P pr s' s'' r) :
      Alone P (.waiting task) s s'' r

theorem alone_done {s s' : σ} {r r' : ρ} (h : P.Alone (.done r) s s' r') : s' = s ∧ r' = r := by
  cases h
  exact ⟨rfl, rfl⟩

/-- **It is a run of the pool**: the answers of a task on its own, given at its place. -/
theorem Alone.run {pr : Progress τ ρ} {s s' : σ} {r : ρ} (h : P.Alone pr s s' r)
    {tasks : List (Progress τ ρ)} {i : Nat} (hi : tasks[i]? = some pr) :
    ∃ answers : List χ, P.machine.run ⟨s, tasks⟩ (answers.map (PoolEvent.answer i)) =
      some ⟨s', tasks.set i (.done r)⟩ := by
  induction h generalizing tasks with
  | done r s =>
    refine ⟨[], ?_⟩
    obtain ⟨hlt, heq⟩ := List.getElem?_eq_some_iff.mp hi
    rw [List.map_nil, Machine.run_nil, ← heq, List.set_getElem_self]
  | @resumed task x s s' s'' pr r hstep _ ih =>
    obtain ⟨answers, hrun⟩ := ih (advance_set hi pr).here
    refine ⟨x :: answers, ?_⟩
    have hfirst : P.machine.step ⟨s, tasks⟩ (.answer i x) = some ⟨s', tasks.set i pr⟩ := by
      show P.poolStep ⟨s, tasks⟩ (.answer i x) = _
      simp only [poolStep, hi, hstep, Option.map_some]
    rw [List.set_set] at hrun
    rw [List.map_cons, Machine.run_cons_eq_some]
    exact ⟨_, hfirst, hrun⟩

/-! ### A task on its own, with given answers -/

/-- Where a task gets to that is given these answers, one for each await. -/
def runAlone (P : Program σ κ τ χ ξ ρ) : List χ → Progress τ ρ → σ → Option (σ × ρ)
  | [], .done r, s => some (s, r)
  | x :: answers, .waiting task, s =>
      (P.resume task x s).bind (fun (s', pr) => P.runAlone answers pr s')
  | _, _, _ => none

variable {answers : List χ} {o : σ × ρ} {s : σ}

theorem runAlone_done {r : ρ} (h : P.runAlone answers (.done r) s = some o) :
    answers = [] ∧ o = (s, r) := by
  cases answers with
  | nil => exact ⟨rfl, (Option.some.inj h).symm⟩
  | cons x answers => cases h

theorem runAlone_waiting {task : τ} (h : P.runAlone answers (.waiting task) s = some o) :
    ∃ x rest s' pr, answers = x :: rest ∧ P.resume task x s = some (s', pr) ∧
      P.runAlone rest pr s' = some o := by
  cases answers with
  | nil => cases h
  | cons x rest =>
    obtain ⟨⟨s', pr⟩, hstep, hrest⟩ := Option.bind_eq_some_iff.mp h
    exact ⟨x, rest, s', pr, rfl, hstep, hrest⟩

end Program

end OpenTogetherTube.Lib
