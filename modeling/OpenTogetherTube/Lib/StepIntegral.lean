import Mathlib.MeasureTheory.Integral.IntervalIntegral.Basic

/-!
# Integrals of what changes from time to time

A quantity that is constant between events is put together piece by piece: up to a time it is what
it was, and from then on something else (`switch`). Its integral is put together the same way
(`integral_switch`), so that a value which moves at a known rate between events is the integral of
that rate over all of them (`Accumulates.switch_const`).
-/

namespace OpenTogetherTube.Lib

open MeasureTheory

/-- `f` before the time `t`, and `g` from then on. -/
noncomputable def switch (t : ℝ) (f g : ℝ → ℝ) : ℝ → ℝ := fun τ => if τ < t then f τ else g τ

section Switch

variable {a b t τ : ℝ} {f g h : ℝ → ℝ}

theorem switch_before (hτ : τ < t) : switch t f g τ = f τ := if_pos hτ

theorem switch_after (hτ : t ≤ τ) : switch t f g τ = g τ := if_neg (not_lt.mpr hτ)

theorem switch_self : switch t f f = f := by
  funext τ
  exact ite_self (f τ)

/-- The second of two switches is all that counts from its time on. -/
theorem switch_switch {t' : ℝ} (ht : t ≤ t') :
    switch t' (switch t f g) h = switch t f (switch t' g h) := by
  funext τ
  unfold switch
  grind

theorem integrable_switch_before (ha : a ≤ t) (hf : IntervalIntegrable f volume a t) :
    IntervalIntegrable (switch t f g) volume a t := by
  refine hf.congr_uIoo fun τ hτ => ?_
  rw [Set.uIoo_of_le ha] at hτ
  exact (switch_before hτ.2).symm

theorem integrable_switch_after (hb : t ≤ b) (hg : IntervalIntegrable g volume t b) :
    IntervalIntegrable (switch t f g) volume t b := by
  refine hg.congr_uIoo fun τ hτ => ?_
  rw [Set.uIoo_of_le hb] at hτ
  exact (switch_after hτ.1.le).symm

theorem integrable_switch (ha : a ≤ t) (hb : t ≤ b) (hf : IntervalIntegrable f volume a t)
    (hg : IntervalIntegrable g volume t b) : IntervalIntegrable (switch t f g) volume a b :=
  (integrable_switch_before ha hf).trans (integrable_switch_after hb hg)

/-- **The integral up to the switch, and the integral from then on.** -/
theorem integral_switch (ha : a ≤ t) (hb : t ≤ b) (hf : IntervalIntegrable f volume a t)
    (hg : IntervalIntegrable g volume t b) :
    ∫ τ in a..b, switch t f g τ = (∫ τ in a..t, f τ) + ∫ τ in t..b, g τ := by
  have hbefore : ∫ τ in a..t, switch t f g τ = ∫ τ in a..t, f τ :=
    intervalIntegral.integral_congr_Ioo_of_le ha fun τ hτ => switch_before hτ.2
  have hafter : ∫ τ in t..b, switch t f g τ = ∫ τ in t..b, g τ :=
    intervalIntegral.integral_congr_Ioo_of_le hb fun τ hτ => switch_after hτ.1.le
  rw [← hbefore, ← hafter]
  exact (intervalIntegral.integral_add_adjacent_intervals (integrable_switch_before ha hf)
    (integrable_switch_after hb hg)).symm

end Switch

/-! ## Values that move at a rate -/

/-- The value `x` at the time `t` is where the rate `f` has taken the value `base.1` since `base.2`. -/
structure Accumulates (f : ℝ → ℝ) (base : ℝ × ℝ) (t x : ℝ) : Prop where
  later : base.2 ≤ t
  integrable : IntervalIntegrable f volume base.2 t
  value : x = base.1 + ∫ τ in base.2..t, f τ

section Accumulates

variable {f : ℝ → ℝ} {base : ℝ × ℝ} {t t' x : ℝ}

/-- Nothing has happened since the base. -/
theorem accumulates_base : Accumulates f base base.2 base.1 := by
  refine ⟨le_rfl, IntervalIntegrable.refl, ?_⟩
  rw [intervalIntegral.integral_same, add_zero]

/-- **A constant rate goes on for a while.** -/
theorem Accumulates.switch_const (h : Accumulates f base t x) (ht : t ≤ t') (c : ℝ) :
    Accumulates (switch t f fun _ => c) base t' (x + (t' - t) * c) := by
  have hconst : IntervalIntegrable (fun _ : ℝ => c) volume t t' := intervalIntegrable_const
  refine ⟨h.later.trans ht, integrable_switch h.later ht h.integrable hconst, ?_⟩
  rw [integral_switch h.later ht h.integrable hconst, intervalIntegral.integral_const, h.value,
    smul_eq_mul]
  ring

end Accumulates

end OpenTogetherTube.Lib
