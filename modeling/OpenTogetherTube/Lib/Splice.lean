import Mathlib.Algebra.Order.Group.Multiset
import Mathlib.Data.Rat.Floor
import Mathlib.Tactic.Abel

/-!
# Numbers as indices, and `splice`

An index that comes out of a JavaScript program is a number: it can have a fraction, and it can be
`NaN` or infinite. Comparisons with `NaN` are false, and so a check of bounds lets it pass. `splice`
takes any of these: it drops the fraction, reads `NaN` as 0, counts a negative start from the end and
clamps the rest to the array.
-/

namespace OpenTogetherTube.Lib

/-- A number. The two zeros are one. -/
inductive Number where
  | nan
  | finite (q : ℚ)
  | infinite (negative : Bool)
  deriving DecidableEq, Repr

namespace Number

def ofNat (n : Nat) : Number := .finite n

/-- `x < y`. -/
def lt : Number → Number → Bool
  | .nan, _ | _, .nan => false
  | .finite p, .finite q => p < q
  | .infinite negative, .finite _ => negative
  | .finite _, .infinite negative => !negative
  | .infinite negative, .infinite negative' => negative && !negative'

/-- `x === y`. -/
def same : Number → Number → Bool
  | .nan, _ => false
  | x, y => x = y

/-- `x >= y`. -/
def ge (x y : Number) : Bool := y.lt x || x.same y

/-- The fraction is dropped. -/
def truncate (q : ℚ) : Int := if q < 0 then ⌈q⌉ else ⌊q⌋

/-- A count, as `splice` takes it: between 0 and what there is. -/
def clamp (bound : Nat) : Number → Nat
  | .nan => 0
  | .finite q => min (truncate q).toNat bound
  | .infinite negative => if negative then 0 else bound

/-- A start, as `splice` takes it. -/
def start (length : Nat) : Number → Nat
  | .finite q => if truncate q < 0 then (length + truncate q).toNat else min (truncate q).toNat length
  | x => x.clamp length

theorem clamp_le (bound : Nat) (x : Number) : x.clamp bound ≤ bound := by
  cases x with
  | nan => exact Nat.zero_le bound
  | finite q => exact Nat.min_le_right _ _
  | infinite negative => cases negative <;> simp [clamp]

theorem start_le (length : Nat) (x : Number) : x.start length ≤ length := by
  cases x with
  | nan => exact Nat.zero_le length
  | finite q =>
    simp only [start]
    split
    · omega
    · exact Nat.min_le_right _ _
  | infinite negative => exact clamp_le length (.infinite negative)

/-- What passes a check of bounds is a start in them; `NaN` passes, too. -/
theorem start_lt_of_not_lt {n : Number} {length : Nat} (hpos : 0 < length)
    (hlow : n.lt (ofNat 0) = false) (hhigh : n.ge (ofNat length) = false) : n.start length < length := by
  cases n with
  | nan => exact hpos
  | infinite negative =>
    cases negative with
    | false => cases hhigh
    | true => cases hlow
  | finite q =>
    unfold ge lt ofNat at hhigh
    unfold lt ofNat at hlow
    have hnonneg : ¬ q < 0 := by simpa using hlow
    have hless : ¬ (length : ℚ) < q ∧ q ≠ length := by simpa [same] using hhigh
    have hlt : q < length := lt_of_le_of_ne (not_lt.mp hless.1) hless.2
    have hfloor : ⌊q⌋ < (length : Int) := Int.floor_lt.mpr (by exact_mod_cast hlt)
    have hfloor' : 0 ≤ ⌊q⌋ := Int.floor_nonneg.mpr (not_lt.mp hnonneg)
    have htruncate : truncate q = ⌊q⌋ := if_neg hnonneg
    show (if truncate q < 0 then _ else min (truncate q).toNat length) < length
    rw [htruncate, if_neg (by omega)]
    omega

/-- Nothing but `NaN` passes a check of bounds that leave nothing. -/
theorem eq_nan_of_not_lt {n : Number} (hlow : n.lt (ofNat 0) = false)
    (hhigh : n.ge (ofNat 0) = false) : n = .nan := by
  cases n with
  | nan => rfl
  | infinite negative =>
    cases negative with
    | false => cases hhigh
    | true => cases hlow
  | finite q =>
    unfold ge lt ofNat at hhigh
    unfold lt ofNat at hlow
    have hnonneg : ¬ q < 0 := by simpa using hlow
    have hless : ¬ 0 < q ∧ q ≠ 0 := by simpa [same] using hhigh
    exact absurd (lt_of_le_of_ne (not_lt.mp hnonneg) (Ne.symm hless.2)) hless.1

theorem truncate_natCast (n : Nat) : truncate n = n := by
  have hpos : ¬ (n : ℚ) < 0 := not_lt.mpr (Nat.cast_nonneg n)
  rw [truncate, if_neg hpos, Int.floor_natCast]

@[simp] theorem clamp_ofNat (n bound : Nat) : (ofNat n).clamp bound = min n bound := by
  show min (truncate n).toNat bound = min n bound
  rw [truncate_natCast, Int.toNat_natCast]

@[simp] theorem start_ofNat (n length : Nat) : (ofNat n).start length = min n length := by
  have hpos : ¬ truncate n < 0 := by
    rw [truncate_natCast]
    omega
  show (if truncate n < 0 then _ else min (truncate n).toNat length) = min n length
  rw [if_neg hpos, truncate_natCast, Int.toNat_natCast]

end Number

/-- `array.splice(start, count, ...items)`: what is returned, and what is left in the array. -/
def splice {α : Type} (xs : List α) (start count : Number) (items : List α) : List α × List α :=
  let i := start.start xs.length
  let n := count.clamp (xs.length - i)
  ((xs.drop i).take n, xs.take i ++ items ++ xs.drop (i + n))

variable {α : Type}

/-- **Nothing is lost and nothing appears.** -/
theorem splice_perm (xs : List α) (start count : Number) (items : List α) :
    ((splice xs start count items).1 ++ (splice xs start count items).2).Perm (xs ++ items) := by
  let i := start.start xs.length
  let n := count.clamp (xs.length - i)
  have hparts : xs.take i ++ ((xs.drop i).take n ++ xs.drop (i + n)) = xs := by
    rw [← List.drop_drop, List.take_append_drop, List.take_append_drop]
  show ((xs.drop i).take n ++ (xs.take i ++ items ++ xs.drop (i + n))).Perm (xs ++ items)
  apply Multiset.coe_eq_coe.mp
  conv_rhs => rw [← hparts]
  simp only [← Multiset.coe_add]
  abel

theorem mem_of_mem_splice {xs : List α} {start count : Number} {items : List α} {x : α}
    (h : x ∈ (splice xs start count items).1 ∨ x ∈ (splice xs start count items).2) :
    x ∈ xs ∨ x ∈ items :=
  List.mem_append.mp ((splice_perm xs start count items).mem_iff.mp (List.mem_append.mpr h))

/-- Nothing is returned when nothing is to be removed. -/
theorem splice_zero (xs : List α) (start : Number) (items : List α) :
    (splice xs start (.ofNat 0) items).1 = [] := by
  simp only [splice, Number.clamp_ofNat, Nat.zero_min, List.take_zero]

/-- One element is returned, if the array goes that far. -/
theorem splice_one (xs : List α) (start : Number) :
    (splice xs start (.ofNat 1) []).1 = (xs[start.start xs.length]?).toList := by
  have hle := start.start_le xs.length
  show ((xs.drop _).take ((Number.ofNat 1).clamp _)) = _
  rw [Number.clamp_ofNat]
  by_cases hi : start.start xs.length < xs.length
  · rw [Nat.min_eq_left (by omega), List.getElem?_eq_getElem hi, List.drop_eq_getElem_cons hi]
    rfl
  · rw [List.getElem?_eq_none (by omega), List.drop_eq_nil_of_le (by omega), List.take_nil]
    rfl

/-- One element is taken out. -/
theorem splice_remove {xs : List α} {i : Nat} (hi : i < xs.length) :
    (splice xs (.finite i) (.ofNat 1) []).2 = xs.eraseIdx i := by
  have hstart : (Number.finite i).start xs.length = i := by
    rw [show Number.finite i = .ofNat i from rfl, Number.start_ofNat]
    omega
  have hcount : (Number.ofNat 1).clamp (xs.length - i) = 1 := by
    rw [Number.clamp_ofNat]
    omega
  unfold splice
  dsimp only
  rw [hstart, hcount, List.append_nil, List.eraseIdx_eq_take_drop_succ]

/-- The place before the first one is the last one. -/
theorem splice_last (xs : List α) : (splice xs (.finite (-1)) (.ofNat 1) []).2 = xs.dropLast := by
  have htruncate : Number.truncate (-1) = -1 := by decide +kernel
  have hstart : (Number.finite (-1)).start xs.length = xs.length - 1 := by
    unfold Number.start
    dsimp only
    rw [htruncate, if_pos (by decide)]
    omega
  unfold splice
  dsimp only
  rw [hstart, Number.clamp_ofNat, List.append_nil, List.dropLast_eq_take]
  have hrest : xs.drop (xs.length - 1 + min 1 (xs.length - (xs.length - 1))) = [] := by
    apply List.drop_eq_nil_of_le
    omega
  rw [hrest, List.append_nil]

end OpenTogetherTube.Lib
