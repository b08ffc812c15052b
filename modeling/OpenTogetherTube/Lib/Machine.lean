import Mathlib.Tactic.Common

/-!
# Machines and their runs

A machine is a partial step function: `step s e = none` says that the event `e` cannot happen in
the state `s`. A run is a list of events, taken from a given state.

Two predicates on runs are used throughout, and they are read the same way:

* `Always P s es` — the predicate `P` holds in **every state** the run `es` from `s` reaches, the
  first one included;
* `Along C s es` — the condition `C` holds of **every step** the run takes, judged in the state
  before the step.

The rules below connect them. `always_of_along` is the induction behind every safety result: an
invariant that each step meeting the condition preserves holds in every state of a run whose steps
all meet it. `always_iff_along` is its exact form, for a condition that each single step needs.
-/

namespace OpenTogetherTube.Lib

/-- A labelled transition system with a deterministic, partial step function. -/
structure Machine (σ ε : Type) where
  step : σ → ε → Option σ

namespace Machine

variable {σ ε : Type} (M : Machine σ ε)

/-- The state a run ends in, if every event of it could happen. -/
def run : σ → List ε → Option σ
  | s, [] => some s
  | s, e :: es => (M.step s e).bind (fun s' => run s' es)

/-- `P` in every state the run reaches. -/
def Always (P : σ → Prop) : σ → List ε → Prop
  | s, [] => P s
  | s, e :: es => P s ∧ ∀ s', M.step s e = some s' → Always P s' es

/-- `C` of every step the run takes, judged before the step. -/
def Along (C : σ → ε → Prop) : σ → List ε → Prop
  | _, [] => True
  | s, e :: es => ∀ s', M.step s e = some s' → C s e ∧ Along C s' es

variable {M}

/-! ### Runs can be checked -/

instance decidableAlways {P : σ → Prop} [∀ s, Decidable (P s)] :
    (s : σ) → (es : List ε) → Decidable (M.Always P s es)
  | s, [] => inferInstanceAs (Decidable (P s))
  | s, e :: es =>
    match h : M.step s e with
    | none => decidable_of_iff (P s) ⟨fun hP => ⟨hP, fun s' hs => by simp [h] at hs⟩, fun ha => ha.1⟩
    | some s' =>
      have := decidableAlways (P := P) s' es
      decidable_of_iff (P s ∧ M.Always P s' es)
        ⟨fun ha => ⟨ha.1, fun s'' hs => by rw [h] at hs; cases hs; exact ha.2⟩,
          fun ha => ⟨ha.1, ha.2 s' h⟩⟩

instance decidableAlong {C : σ → ε → Prop} [∀ s e, Decidable (C s e)] :
    (s : σ) → (es : List ε) → Decidable (M.Along C s es)
  | _, [] => isTrue trivial
  | s, e :: es =>
    match h : M.step s e with
    | none => isTrue (fun s' hs => by simp [h] at hs)
    | some s' =>
      have := decidableAlong (C := C) s' es
      decidable_of_iff (C s e ∧ M.Along C s' es)
        ⟨fun ha s'' hs => by rw [h] at hs; cases hs; exact ha, fun ha => ha s' h⟩

@[simp] theorem run_nil (s : σ) : M.run s [] = some s := rfl

theorem run_cons_eq_some {s t : σ} {e : ε} {es : List ε} :
    M.run s (e :: es) = some t ↔ ∃ s', M.step s e = some s' ∧ M.run s' es = some t := by
  rw [run, Option.bind_eq_some_iff]

theorem Always.head {P : σ → Prop} {s : σ} {es : List ε} (h : M.Always P s es) : P s := by
  cases es with
  | nil => exact h
  | cons e es => exact h.1

/-- What holds always holds in the state the run ends in. -/
theorem Always.last {P : σ → Prop} {s t : σ} {es : List ε} (h : M.Always P s es)
    (hr : M.run s es = some t) : P t := by
  induction es generalizing s with
  | nil => cases hr; exact h
  | cons e es ih =>
    obtain ⟨s', hs, ht⟩ := run_cons_eq_some.mp hr
    exact ih (h.2 s' hs) ht

theorem Always.imp {P Q : σ → Prop} (hPQ : ∀ s, P s → Q s) {s : σ} {es : List ε}
    (h : M.Always P s es) : M.Always Q s es := by
  induction es generalizing s with
  | nil => exact hPQ s h
  | cons e es ih => exact ⟨hPQ s h.1, fun s' hs => ih (h.2 s' hs)⟩

/-- A run splits: the condition holds along it exactly if it holds along both parts. -/
theorem Along.of_append {C : σ → ε → Prop} {s u : σ} {es es' : List ε}
    (h : M.Along C s (es ++ es')) (hu : M.run s es = some u) : M.Along C u es' := by
  induction es generalizing s with
  | nil => cases hu; exact h
  | cons e es ih =>
    obtain ⟨s', hs, hu'⟩ := run_cons_eq_some.mp hu
    exact ih (h s' hs).2 hu'

/-- One step of a run that is given. -/
theorem along_cons {C : σ → ε → Prop} {s s' : σ} {e : ε} {es : List ε} (hs : M.step s e = some s')
    (hC : C s e) (hrest : M.Along C s' es) : M.Along C s (e :: es) := by
  intro t ht
  cases hs.symm.trans ht
  exact ⟨hC, hrest⟩

theorem Along.and {C D : σ → ε → Prop} {s : σ} {es : List ε} (h : M.Along C s es)
    (h' : M.Along D s es) : M.Along (fun s e => C s e ∧ D s e) s es := by
  induction es generalizing s with
  | nil => trivial
  | cons e es ih =>
    intro s' hs
    exact ⟨⟨(h s' hs).1, (h' s' hs).1⟩, ih (h s' hs).2 (h' s' hs).2⟩

/-- **The invariant rule.** An invariant that every step meeting `C` preserves holds in every state
of a run whose steps all meet `C`. -/
theorem always_of_along {C : σ → ε → Prop} {I : σ → Prop}
    (hstep : ∀ s e s', I s → C s e → M.step s e = some s' → I s')
    {s : σ} {es : List ε} (hI : I s) (h : M.Along C s es) : M.Always I s es := by
  induction es generalizing s with
  | nil => exact hI
  | cons e es ih =>
    refine ⟨hI, fun s' hs => ?_⟩
    obtain ⟨hC, hrest⟩ := h s' hs
    exact ih (hstep s e s' hI hC hs) hrest

/-- A condition on events alone holds along a run of such events. -/
theorem along_of_forall {C : ε → Prop} {s : σ} {es : List ε} (h : ∀ e ∈ es, C e) :
    M.Along (fun _ => C) s es := by
  induction es generalizing s with
  | nil => trivial
  | cons e es ih =>
    exact fun s' _ => ⟨h e List.mem_cons_self, ih (fun e he => h e (List.mem_cons_of_mem _ he))⟩

/-- The invariant rule for a property of steps. -/
theorem along_of_along {C D : σ → ε → Prop} {I : σ → Prop}
    (hstep : ∀ s e s', I s → C s e → M.step s e = some s' → I s')
    (hD : ∀ s e s', I s → C s e → M.step s e = some s' → D s e)
    {s : σ} {es : List ε} (hI : I s) (h : M.Along C s es) : M.Along D s es := by
  induction es generalizing s with
  | nil => trivial
  | cons e es ih =>
    intro s' hs
    obtain ⟨hC, hrest⟩ := h s' hs
    exact ⟨hD s e s' hI hC hs, ih (hstep s e s' hI hC hs) hrest⟩

/-- Two properties of steps come to the same along a run whose steps meet `C`. -/
theorem along_iff_along {C D E : σ → ε → Prop} {I : σ → Prop}
    (hstep : ∀ s e s', I s → C s e → M.step s e = some s' → I s')
    (hiff : ∀ s e s', I s → C s e → M.step s e = some s' → (D s e ↔ E s e))
    {s : σ} {es : List ε} (hI : I s) (h : M.Along C s es) : M.Along D s es ↔ M.Along E s es := by
  induction es generalizing s with
  | nil => exact Iff.rfl
  | cons e es ih =>
    refine forall_congr' fun s' => forall_congr' fun hs => ?_
    obtain ⟨hC, hrest⟩ := h s' hs
    exact and_congr (hiff s e s' hI hC hs) (ih (hstep s e s' hI hC hs) hrest)

/-- What the events of a run draw without repetition is new when it is drawn: a state knows only what
was drawn before. -/
theorem along_fresh {κ : Type} {draws : ε → Option κ} {Known : σ → κ → Prop}
    (hknown : ∀ s e s' k, M.step s e = some s' → Known s' k → Known s k ∨ draws e = some k)
    {s : σ} {es : List ε} (hnodup : (es.filterMap draws).Nodup)
    (hnew : ∀ k ∈ es.filterMap draws, ¬ Known s k) :
    M.Along (fun s e => ∀ k ∈ draws e, ¬ Known s k) s es := by
  induction es generalizing s with
  | nil => trivial
  | cons e es ih =>
    intro s' hs
    have hrest : ∀ k ∈ es.filterMap draws, k ∈ (e :: es).filterMap draws := by
      intro k hk
      obtain ⟨e', he', hdraws⟩ := List.mem_filterMap.mp hk
      exact List.mem_filterMap.mpr ⟨e', List.mem_cons_of_mem _ he', hdraws⟩
    have hhead : ∀ k ∈ draws e, k ∉ es.filterMap draws := by
      intro k hk
      rw [List.filterMap_cons_some hk, List.nodup_cons] at hnodup
      exact hnodup.1
    refine ⟨fun k hk => hnew k (List.mem_filterMap.mpr ⟨e, List.mem_cons_self, hk⟩), ih ?_ ?_⟩
    · exact hnodup.sublist ((List.sublist_cons_self e es).filterMap draws)
    · intro k hk hin
      rcases hknown s e s' k hs hin with hold | hdrawn
      · exact hnew k (hrest k hk) hold
      · exact hhead k hdrawn hk

/-- **The exact form.** Where each step keeps `P` if and only if it meets `C`, a run keeps `P`
throughout if and only if all its steps meet `C`. The steps are taken in states of an invariant `I`
that needs no condition. -/
theorem always_iff_along_of_step {C : σ → ε → Prop} {I P : σ → Prop}
    (hinv : ∀ s e s', I s → M.step s e = some s' → I s')
    (hstep : ∀ s e s', I s → P s → M.step s e = some s' → (P s' ↔ C s e))
    {s : σ} {es : List ε} (hI : I s) (hP : P s) : M.Always P s es ↔ M.Along C s es := by
  induction es generalizing s with
  | nil => exact iff_of_true hP trivial
  | cons e es ih =>
    constructor
    · intro h s' hs
      have hs' := h.2 s' hs
      exact ⟨(hstep s e s' hI hP hs).mp hs'.head, (ih (hinv s e s' hI hs) hs'.head).mp hs'⟩
    · intro h
      refine ⟨hP, fun s' hs => ?_⟩
      obtain ⟨hC, hrest⟩ := h s' hs
      exact (ih (hinv s e s' hI hs) ((hstep s e s' hI hP hs).mpr hC)).mpr hrest

/-- The exact form, where no other invariant is needed. -/
theorem always_iff_along {C : σ → ε → Prop} {P : σ → Prop}
    (hstep : ∀ s e s', P s → M.step s e = some s' → (P s' ↔ C s e))
    {s : σ} {es : List ε} (hP : P s) : M.Always P s es ↔ M.Along C s es :=
  always_iff_along_of_step (I := fun _ => True) (fun _ _ _ _ _ => trivial)
    (fun s e s' _ => hstep s e s') trivial hP

/-! ### History -/

/-- The machine with a history variable: `note` says what is written down of a step, judged before
the step. -/
def logging {α : Type} (M : Machine σ ε) (note : σ → ε → List α) : Machine (σ × List α) ε where
  step s e := (M.step s.1 e).map (fun s' => (s', s.2 ++ note s.1 e))

theorem step_logging {α : Type} {note : σ → ε → List α} {s s' : σ × List α} {e : ε} :
    (M.logging note).step s e = some s' ↔
      M.step s.1 e = some s'.1 ∧ s'.2 = s.2 ++ note s.1 e := by
  rw [logging, Option.map_eq_some_iff]
  constructor
  · rintro ⟨t, ht, rfl⟩
    exact ⟨ht, rfl⟩
  · rintro ⟨ht, hlog⟩
    exact ⟨s'.1, ht, Prod.ext rfl hlog.symm⟩

/-- The machine with a history variable that is computed from step to step. -/
def observing {η : Type} (M : Machine σ ε) (next : η → σ → ε → η) : Machine (σ × η) ε where
  step s e := (M.step s.1 e).map (fun s' => (s', next s.2 s.1 e))

theorem step_observing {η : Type} {next : η → σ → ε → η} {s s' : σ × η} {e : ε} :
    (M.observing next).step s e = some s' ↔ M.step s.1 e = some s'.1 ∧ s'.2 = next s.2 s.1 e := by
  rw [observing, Option.map_eq_some_iff]
  constructor
  · rintro ⟨t, ht, rfl⟩
    exact ⟨ht, rfl⟩
  · rintro ⟨ht, hnext⟩
    exact ⟨s'.1, ht, Prod.ext rfl hnext.symm⟩

end Machine

end OpenTogetherTube.Lib
