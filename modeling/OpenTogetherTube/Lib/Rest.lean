import OpenTogetherTube.Lib.Machine
import Mathlib.Data.Multiset.DershowitzManna

/-!
# Machines that come to rest

Of the events of a machine some are its own work (`Own`), and the others come from outside. Left alone,
a machine that can only do so much by itself comes to rest. Where it does is where no own event can
happen.

What there is to do is a multiset of tasks, each of a rank. An own step takes one task and puts any
number of tasks of smaller ranks in its place; it may also drop others (`Replaces`). By the order of
Dershowitz and Manna there is no end to such steps only if something comes from outside.
-/

namespace OpenTogetherTube.Lib

/-- A rank is replaced by smaller ones, and others may be dropped. -/
def Replaces {β : Type} [Preorder β] (before after : Multiset β) : Prop :=
  ∃ a new rest, before = a ::ₘ rest ∧ after ≤ new + rest ∧ ∀ b ∈ new, b < a

theorem Replaces.isDershowitzMannaLT {β : Type} [Preorder β] {before after : Multiset β}
    (h : Replaces before after) : Multiset.IsDershowitzMannaLT after before := by
  classical
  obtain ⟨a, new, rest, rfl, hafter, hless⟩ := h
  have hkept : after - (after - rest) ≤ rest := tsub_tsub_le
  have hnew : after - rest ≤ new := tsub_le_iff_right.mpr hafter
  have hbefore : a ::ₘ rest = (after - (after - rest)) + (a ::ₘ (rest - (after - (after - rest)))) := by
    rw [Multiset.add_cons, add_tsub_cancel_of_le hkept]
  refine ⟨_, after - rest, _, Multiset.cons_ne_zero, (tsub_add_cancel_of_le (Multiset.sub_le_self _ _)).symm,
    hbefore, fun b hb => ⟨a, Multiset.mem_cons_self _ _, hless b (Multiset.mem_of_le hnew hb)⟩⟩

namespace Replaces

variable {β : Type} [Preorder β] {before after : Multiset β}

/-- What is there besides does not matter. -/
theorem add_left (h : Replaces before after) (more : Multiset β) :
    Replaces (more + before) (more + after) := by
  obtain ⟨a, new, rest, rfl, hafter, hless⟩ := h
  refine ⟨a, new, more + rest, Multiset.add_cons _ _ _, ?_, hless⟩
  rw [add_left_comm]
  exact add_le_add_right hafter more

theorem trans_le {after' : Multiset β} (h : Replaces before after) (hle : after' ≤ after) :
    Replaces before after' := by
  obtain ⟨a, new, rest, hbefore, hafter, hless⟩ := h
  exact ⟨a, new, rest, hbefore, hle.trans hafter, hless⟩

end Replaces

namespace Machine

variable {σ ε β : Type} {M : Machine σ ε} {Own : ε → Prop}

/-- Nothing that the machine does by itself can happen. -/
def AtRest (M : Machine σ ε) (Own : ε → Prop) (s : σ) : Prop := ∀ e, Own e → M.step s e = none

/-- A step of the machine's own, read backwards. -/
def OwnStep (M : Machine σ ε) (Own : ε → Prop) (s' s : σ) : Prop :=
  ∃ e, Own e ∧ M.step s e = some s'

/-- **Own steps** that replace ranks by smaller ones come to an end. -/
theorem wellFounded_ownStep [Preorder β] [WellFoundedLT β] (toDo : σ → Multiset β)
    (h : ∀ s e s', Own e → M.step s e = some s' → Replaces (toDo s) (toDo s')) :
    WellFounded (M.OwnStep Own) := by
  refine Subrelation.wf (r := InvImage Multiset.IsDershowitzMannaLT toDo) ?_
    (InvImage.wf toDo Multiset.wellFounded_isDershowitzMannaLT)
  rintro s' s ⟨e, hown, hstep⟩
  exact (h s e s' hown hstep).isDershowitzMannaLT

/-- A machine that is left alone comes to rest. -/
theorem exists_run_to_rest (h : WellFounded (M.OwnStep Own)) (s : σ) :
    ∃ es s', (∀ e ∈ es, Own e) ∧ M.run s es = some s' ∧ M.AtRest Own s' := by
  induction s using h.induction with
  | _ s ih =>
    by_cases hrest : M.AtRest Own s
    · exact ⟨[], s, fun _ he => absurd he List.not_mem_nil, rfl, hrest⟩
    · obtain ⟨e, hown, hstep⟩ : ∃ e, Own e ∧ M.step s e ≠ none := by
        simpa [AtRest] using hrest
      obtain ⟨s₁, hs₁⟩ := Option.ne_none_iff_exists'.mp hstep
      obtain ⟨es, s', hes, hrun, hend⟩ := ih s₁ ⟨e, hown, hs₁⟩
      refine ⟨e :: es, s', ?_, run_cons_eq_some.mpr ⟨s₁, hs₁, hrun⟩, hend⟩
      intro e' he'
      rcases List.mem_cons.mp he' with rfl | hin
      · exact hown
      · exact hes e' hin

end Machine

end OpenTogetherTube.Lib
