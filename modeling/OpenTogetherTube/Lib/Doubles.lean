import OpenTogetherTube.Lib.Operators
import Mathlib.Algebra.Order.Round
import Mathlib.Data.Int.Log
import Mathlib.Data.Rat.Floor

/-!
# Numbers of double precision

A double is a whole multiple of the place of its last bit, and it has 53 bits. `nearest` rounds to the
closest one, and to the even one of two. Arithmetic does it after each operation (`add`, `times`),
and gives an infinite number beyond the range.

What an algorithm computes in doubles is stated with `nearest` for an argument that is the identity
in what it computes exactly.
-/

namespace OpenTogetherTube.Lib.Double

open Number

/-! ## Rounding -/

/-- The closest whole number, the even one of two. -/
def roundEven (x : ℚ) : Int :=
  if x < ⌊x⌋ + 1 / 2 ∨ (x = ⌊x⌋ + 1 / 2 ∧ Even ⌊x⌋) then ⌊x⌋ else ⌊x⌋ + 1

/-- The place of the last of 53 bits, which is not below that of the smallest double. -/
def lastPlace (q : ℚ) : Int := max (Int.log 2 |q| - 52) (-1074)

/-- The closest double, the range apart. -/
def nearest (q : ℚ) : ℚ := roundEven (q / 2 ^ lastPlace q) * 2 ^ lastPlace q

/-- What rounding adds. -/
def error (q : ℚ) : ℚ := nearest q - q

/-- A result that was exact so far. -/
def rounded : Number → Number
  | .finite q => .finite (nearest q)
  | n => n

/-- The number that a result is rounded to. -/
def round (q : ℚ) : Number := rounded (Number.round q)

/-- `x + y`. -/
def add (x y : Number) : Number := rounded (x.add y)

/-- `x * y`. -/
def times (x y : Number) : Number := rounded (x.times y)

section RoundEven

variable {x : ℚ} {n : Int}

theorem roundEven_intCast (n : Int) : roundEven n = n := by
  unfold roundEven
  rw [Int.floor_intCast]
  exact if_pos (.inl (by linarith))

theorem floor_le_roundEven (x : ℚ) : ⌊x⌋ ≤ roundEven x := by
  unfold roundEven
  split <;> omega

theorem roundEven_le (x : ℚ) : roundEven x ≤ x + 1 / 2 := by
  have hfloor := Int.floor_le x
  unfold roundEven
  split
  · linarith
  · next hup =>
    have hhalf := not_lt.mp (fun h => hup (.inl h))
    push_cast
    linarith

/-- What is halfway to an even number is rounded to it. -/
theorem roundEven_lt_iff (hn : Even n) : roundEven x < n ↔ x < n - 1 / 2 := by
  have hfloor := Int.floor_le x
  have hceil := Int.lt_floor_add_one x
  have hcast : ∀ {a b : Int}, a ≤ b → (a : ℚ) ≤ b := fun h => Int.cast_le.mpr h
  unfold roundEven
  split
  · next hdown =>
    constructor
    · intro hlt
      rcases hdown with hbelow | ⟨hhalf, heven⟩
      · have hle := hcast (Int.le_sub_one_of_lt hlt)
        push_cast at hle
        linarith
      · -- the number below an even one is odd
        have hle := hcast (show ⌊x⌋ ≤ n - 2 by
          obtain ⟨k, hk⟩ := hn
          obtain ⟨l, hl⟩ := heven
          omega)
        push_cast at hle
        linarith
    · intro hlt
      exact Int.cast_lt.mp (show (⌊x⌋ : ℚ) < n by linarith)
  · next hup =>
    have hhalf := not_lt.mp (fun h => hup (.inl h))
    constructor
    · intro hlt
      have hle := hcast (show ⌊x⌋ ≤ n - 2 by omega)
      push_cast at hle
      linarith
    · intro hlt
      have hfloorLt : (⌊x⌋ : ℚ) < (n - 1 : Int) := by
        push_cast
        linarith
      have := Int.cast_lt.mp hfloorLt
      omega

end RoundEven

section Nearest

variable {p q k v : ℚ}

theorem nearest_of_multiple {n : Int} (h : q = n * 2 ^ lastPlace q) : nearest q = q := by
  have hpos : (0 : ℚ) < 2 ^ lastPlace q := zpow_pos two_pos _
  have hdiv : q / 2 ^ lastPlace q = n := (div_eq_iff hpos.ne').mpr h
  rw [nearest, hdiv, roundEven_intCast, ← h]

/-- **Whole numbers of 53 bits are doubles.** -/
theorem nearest_natCast {n : Nat} (h : n ≤ 2 ^ 53) : nearest n = n := by
  rcases h.lt_or_eq with hlt | rfl
  · have hlog : Int.log 2 |(n : ℚ)| ≤ 52 := by
      rw [Nat.abs_cast, Int.log_natCast]
      rcases Nat.eq_zero_or_pos n with rfl | hpos
      · simp
      · have := Nat.log_lt_of_lt_pow hpos.ne' hlt
        omega
    have hplace : lastPlace n ≤ 0 := by
      unfold lastPlace
      omega
    obtain ⟨k, hk⟩ := Int.eq_ofNat_of_zero_le (show 0 ≤ -lastPlace n by omega)
    apply nearest_of_multiple (n := n * 2 ^ k)
    rw [show lastPlace n = -(k : Int) by omega, zpow_neg, zpow_natCast]
    push_cast
    field_simp
  · decide +kernel

theorem nearest_nonneg (hq : 0 ≤ q) : 0 ≤ nearest q := by
  have hpos : (0 : ℚ) < 2 ^ lastPlace q := zpow_pos two_pos _
  have hfloor : 0 ≤ ⌊q / 2 ^ lastPlace q⌋ := Int.floor_nonneg.mpr (div_nonneg hq hpos.le)
  exact mul_nonneg (Int.cast_nonneg (hfloor.trans (floor_le_roundEven _))) hpos.le

/-- **Rounding does not leave the range**, and does not come back into it. -/
theorem inRange_nearest (hq : 0 ≤ q) : InRange (nearest q) ↔ InRange q := by
  rcases hq.eq_or_lt with rfl | hpos
  · decide +kernel
  have hlow : (2 : ℚ) ^ Int.log 2 q ≤ q := Int.zpow_log_le_self (by decide) hpos
  have hhigh : q < (2 : ℚ) ^ (Int.log 2 q + 1) := Int.lt_zpow_succ_log_self (by decide) q
  have hplace : lastPlace q = max (Int.log 2 q - 52) (-1074) := by
    rw [lastPlace, abs_of_pos hpos]
  have hmono : ∀ {a b : Int}, a ≤ b → (2 : ℚ) ^ a ≤ 2 ^ b := zpow_le_zpow_right₀ one_le_two
  have hunit : (0 : ℚ) < 2 ^ lastPlace q := zpow_pos two_pos _
  have hq' : q = q / 2 ^ lastPlace q * 2 ^ lastPlace q := (div_mul_cancel₀ q hunit.ne').symm
  -- all powers of two in units of the last place below the range
  obtain ⟨unit, hunit970, hpower⟩ : ∃ unit : ℚ, overflow = unit * (2 ^ 54 - 1) ∧
      ∀ k : Nat, (2 : ℚ) ^ (970 + k : Int) = unit * 2 ^ k :=
    ⟨2 ^ 970, rfl, fun k => by rw [zpow_add₀ two_ne_zero, zpow_natCast]; rfl⟩
  have hunitPos : 0 < unit := by
    have hzero := hpower 0
    rw [pow_zero, mul_one] at hzero
    exact hzero ▸ zpow_pos two_pos _
  unfold InRange
  rw [hunit970]
  rcases lt_trichotomy (Int.log 2 q) 1023 with hsmall | hlast | hlarge
  · -- less than half of the range
    have hbound := hhigh.trans_le ((hmono (show _ ≤ (970 + (53 : Nat) : Int) by omega)).trans_eq
      (hpower 53))
    have hstep := (hmono (show lastPlace q ≤ (970 + (0 : Nat) : Int) by omega)).trans_eq (hpower 0)
    have hnear := mul_le_mul_of_nonneg_right (roundEven_le (q / 2 ^ lastPlace q)) hunit.le
    rw [add_mul, ← hq'] at hnear
    unfold nearest
    exact iff_of_true (by linarith) (by linarith)
  · -- the last power of two: what is halfway to the next one is too much
    have hunit971 : (2 : ℚ) ^ lastPlace q = unit * 2 ^ 1 := by
      rw [← hpower, hplace, hlast]
      rfl
    have hscale : ∀ y : ℚ, y * 2 ^ lastPlace q < unit * (2 ^ 54 - 1) ↔ y < 2 ^ 53 - 1 / 2 := by
      intro y
      rw [hunit971, show y * (unit * 2 ^ 1) = unit * (2 * y) by ring,
        mul_lt_mul_iff_right₀ hunitPos]
      constructor <;> intro h <;> linarith
    have hwhole : ∀ n : Int, (n : ℚ) < 2 ^ 53 - 1 / 2 ↔ n < 2 ^ 53 := by
      intro n
      constructor
      · intro h
        exact Int.cast_lt.mp (show (n : ℚ) < (2 ^ 53 : Int) by push_cast; linarith)
      · intro h
        have hle := Int.cast_le (R := ℚ).mpr (Int.le_sub_one_of_lt h)
        push_cast at hle
        linarith
    have heven := roundEven_lt_iff (x := q / 2 ^ lastPlace q) (n := 2 ^ 53) (by decide)
    rw [nearest, hscale, hwhole, heven]
    conv_rhs => rw [hq', hscale]
    norm_num
  · -- beyond the range
    have hpowers := (hpower 54).symm.trans_le (hmono (show _ ≤ Int.log 2 q by omega))
    have hscale : (2 : ℚ) ^ 52 * 2 ^ lastPlace q = 2 ^ Int.log 2 q := by
      rw [← zpow_natCast, ← zpow_add₀ two_ne_zero]
      exact congrArg _ (by omega)
    have hfloor : (2 ^ 52 : Int) ≤ ⌊q / 2 ^ lastPlace q⌋ := by
      rw [Int.le_floor, le_div_iff₀ hunit]
      push_cast
      exact hscale.trans_le hlow
    have hround := Int.cast_le (R := ℚ).mpr (hfloor.trans (floor_le_roundEven _))
    have hnear := mul_le_mul_of_nonneg_right hround hunit.le
    rw [Int.cast_pow, Int.cast_ofNat, hscale] at hnear
    unfold nearest
    exact iff_of_false (by linarith) (by linarith)

/-! ## Arithmetic -/

theorem round_of_inRange (hq : 0 ≤ q) (h : InRange q) : round q = .finite (nearest q) := by
  rw [round, Number.round_of_inRange hq h, rounded]

theorem round_of_not_inRange (h : ¬ InRange q) : round q = .infinite false := by
  rw [round, Number.round_of_not_inRange h]
  rfl

/-- A result is the double next to it, if it is in the range. -/
theorem round_eq_finite_iff (hq : 0 ≤ q) : round q = .finite v ↔ InRange v ∧ nearest q = v := by
  by_cases h : InRange q
  · rw [round_of_inRange hq h, Number.finite.injEq]
    exact ⟨fun heq => ⟨heq ▸ (inRange_nearest hq).mpr h, heq⟩, And.right⟩
  · rw [round_of_not_inRange h]
    exact iff_of_false (by simp) (fun hv => h ((inRange_nearest hq).mp (hv.2 ▸ hv.1)))

theorem round_ne_nan (q : ℚ) : round q ≠ .nan := by
  unfold round Number.round
  split
  · exact fun h => by cases h
  · split <;> exact fun h => by cases h

/-- **A sum of rounded numbers** is rounded once more. -/
theorem add_round (hp : 0 ≤ p) (hq : 0 ≤ q) :
    add (round p) (round q) = round (nearest p + nearest q) := by
  have hp' := nearest_nonneg hp
  have hq' := nearest_nonneg hq
  by_cases hprange : InRange p
  · by_cases hqrange : InRange q
    · rw [round_of_inRange hp hprange, round_of_inRange hq hqrange]
      rfl
    · have hsum : ¬ InRange (nearest p + nearest q) := fun h =>
        hqrange ((inRange_nearest hq).mp (lt_of_le_of_lt (le_add_of_nonneg_left hp') h))
      rw [round_of_inRange hp hprange, round_of_not_inRange hqrange, round_of_not_inRange hsum]
      rfl
  · have hsum : ¬ InRange (nearest p + nearest q) := fun h =>
      hprange ((inRange_nearest hp).mp (lt_of_le_of_lt (le_add_of_nonneg_right hq') h))
    rw [round_of_not_inRange hprange, round_of_not_inRange hsum]
    by_cases hqrange : InRange q
    · rw [round_of_inRange hq hqrange]
      rfl
    · rw [round_of_not_inRange hqrange]
      rfl

/-- So is a product. -/
theorem times_round (hp : 0 ≤ p) (hk : 1 ≤ k) :
    times (round p) (.finite k) = round (nearest p * k) := by
  by_cases hrange : InRange p
  · rw [round_of_inRange hp hrange]
    rfl
  · have hproduct : ¬ InRange (nearest p * k) := fun h => hrange ((inRange_nearest hp).mp
      (lt_of_le_of_lt (le_mul_of_one_le_right (nearest_nonneg hp) hk) h))
    have hpos : 0 < k := lt_of_lt_of_le one_pos hk
    rw [round_of_not_inRange hrange, round_of_not_inRange hproduct]
    simp [times, rounded, Number.times, Number.mul, hpos.ne', not_lt.mpr hpos.le]

end Nearest

end OpenTogetherTube.Lib.Double
