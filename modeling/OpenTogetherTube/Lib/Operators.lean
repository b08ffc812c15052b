import OpenTogetherTube.Lib.Json
import Mathlib.Algebra.Order.Group.Abs
import Mathlib.Algebra.Order.Ring.Rat
import Mathlib.Tactic.Linarith
import Mathlib.Tactic.NormNum

/-!
# Operators on values that were read without a check

What `+`, `*`, `>` and `===` do with values of any shape. `+` makes a string as soon as one of its
operands is a string, an array or an object; the others convert to numbers, and an object that has a
property called `toString` is a `TypeError`, which is `none` here.

The numbers are those of double precision as far as their range goes: a result that is too large is
infinite. Inside the range a result is taken to be exact. `InRange` is the range, and a sum or a
product of finite numbers is finite exactly in it (`add_finite`, `times_finite`).
-/

namespace OpenTogetherTube.Lib

/-! ## Numbers of bounded range -/

namespace Number

/-- Halfway between the largest number and the next power of two: what comes closer to the power is
rounded to infinity. -/
def overflow : ℚ := 2 ^ 970 * (2 ^ 54 - 1)

/-- The number that a result is rounded to. -/
def round (q : ℚ) : Number :=
  if q ≥ overflow then .infinite false else if q ≤ -overflow then .infinite true else .finite q

/-- A result that is not negative is finite. -/
def InRange (q : ℚ) : Prop := q < overflow

instance (q : ℚ) : Decidable (InRange q) := inferInstanceAs (Decidable (q < overflow))

/-- `x + y`. -/
def add : Number → Number → Number
  | .nan, _ | _, .nan => .nan
  | .finite p, .finite q => round (p + q)
  | .finite _, .infinite negative | .infinite negative, .finite _ => .infinite negative
  | .infinite negative, .infinite negative' =>
    if negative = negative' then .infinite negative else .nan

/-- `x * y`. -/
def times (x y : Number) : Number :=
  match x, y with
  | .finite p, .finite q => round (p * q)
  | x, y => x.mul y

/-- A finite number that is not negative. -/
def isNonneg : Number → Bool
  | .finite q => 0 ≤ q
  | _ => false

theorem overflow_pos : 0 < overflow :=
  mul_pos (pow_pos two_pos _) (by norm_num)

theorem round_of_inRange {q : ℚ} (hq : 0 ≤ q) (h : InRange q) : round q = .finite q := by
  have hpos := overflow_pos
  have hlarge : ¬ q ≥ overflow := not_le.mpr h
  have hsmall : ¬ q ≤ -overflow := by linarith
  rw [round, if_neg hlarge, if_neg hsmall]

theorem round_of_not_inRange {q : ℚ} (h : ¬ InRange q) : round q = .infinite false := by
  have hlarge : q ≥ overflow := not_lt.mp h
  rw [round, if_pos hlarge]

/-- What is not negative is rounded to a finite number exactly in the range. -/
theorem isNonneg_round {q : ℚ} (hq : 0 ≤ q) : (round q).isNonneg = true ↔ InRange q := by
  by_cases h : InRange q
  · rw [round_of_inRange hq h]
    exact iff_of_true (decide_eq_true hq) h
  · rw [round_of_not_inRange h]
    exact iff_of_false (by simp [isNonneg]) h

theorem inRange_zero : InRange 0 := overflow_pos

theorem le_of_finite_ge {p q : ℚ} (h : (finite q).ge (finite p) = true) : p ≤ q := by
  unfold ge lt same at h
  rcases Bool.or_eq_true_iff.mp h with hlt | heq
  · exact (of_decide_eq_true hlt).le
  · have hsame : finite q = finite p := of_decide_eq_true heq
    cases hsame
    exact le_rfl

theorem not_finite_ge_infinite (q : ℚ) : (finite q).ge (infinite false) = false := by
  simp [ge, lt, same]

/-- What a finite number bounds is no overflow. -/
theorem inRange_of_ge_round {q e : ℚ} (h : (finite e).ge (round q) = true) : InRange q := by
  by_contra hrange
  rw [round_of_not_inRange hrange, not_finite_ge_infinite] at h
  cases h

/-- A sum that a finite number bounds is no overflow, nor is what was added. -/
theorem le_of_ge_add {p d e : ℚ} (hp : 0 ≤ p) (hd : 0 ≤ d)
    (h : (finite e).ge ((finite p).add (round d)) = true) : InRange d ∧ p + d ≤ e := by
  have hrange : InRange d := by
    by_contra hno
    rw [round_of_not_inRange hno, add, not_finite_ge_infinite] at h
    cases h
  rw [round_of_inRange hd hrange, add] at h
  have hsum := inRange_of_ge_round h
  rw [round_of_inRange (add_nonneg hp hd) hsum] at h
  exact ⟨hrange, le_of_finite_ge h⟩

end Number

/-! ## Text -/

/-- The code units of a character. -/
def codeUnits (c : Char) : List Nat :=
  if c.toNat < 0x10000 then [c.toNat]
  else [0xD800 + (c.toNat - 0x10000) / 0x400, 0xDC00 + (c.toNat - 0x10000) % 0x400]

/-- A string, as it is indexed and compared. -/
def units (s : String) : List Nat := s.toList.flatMap codeUnits

/-! ## Values -/

namespace Json

/-- `v ?? d`. -/
def nullish (v : Value) (d : Json) : Json :=
  match v with
  | none | some .null => d
  | some v => v

/-- `v === w`. Two objects that were read apart are two. -/
def same : Value → Value → Bool
  | none, none | some .null, some .null => true
  | some (.bool b), some (.bool b') => b = b'
  | some (.num n), some (.num n') => n.same n'
  | some (.str s), some (.str s') => s = s'
  | _, _ => false

/-- `Number(v)`, of a value that can be `undefined`. -/
def asNumber? (c : Conversions) (v : Value) : Option Number :=
  match v with
  | none => some .nan
  | some v => v.toNumber? c

/-- Arrays and objects, which a property can be set on. -/
def hasProperties : Json → Bool
  | .arr _ | .obj _ => true
  | _ => false

/-- The length that strings and arrays have. -/
def length? : Json → Option Nat
  | .str s => some (units s).length
  | .arr items => some items.length
  | _ => none

/-- The properties that a copy of the value gets. -/
def properties : Json → List (String × Json)
  | .obj fields => fields
  | .arr items => items.zipIdx.map (fun entry => (toString entry.2, entry.1))
  | .str s => s.toList.zipIdx.map (fun entry => (toString entry.2, .str entry.1.toString))
  | _ => []

/-- A property of a value that is not `null`, with the elements and the length of strings and
arrays. -/
def property? (v : Json) (name : String) : Value :=
  match v.length? with
  | some n => if name = "length" then some (.num (.ofNat n)) else (obj v.properties).get? name
  | none => (obj v.properties).get? name

theorem get?_obj (fields : List (String × Json)) (name : String) :
    (obj fields).get? name = (fields.reverse.find? (fun field => field.1 = name)).map (·.2) := rfl

/-- What was put behind comes first. -/
theorem get?_append (fields fields' : List (String × Json)) (name : String) :
    (obj (fields ++ fields')).get? name = ((obj fields').get? name <|> (obj fields).get? name) := by
  rw [get?_obj, List.reverse_append, List.find?_append, get?_obj, get?_obj]
  cases fields'.reverse.find? (fun field => field.1 = name) <;> rfl

/-- A property that is kept is what it was. -/
theorem get?_filter (fields : List (String × Json)) {name : String} {p : String × Json → Bool}
    (hp : ∀ field : String × Json, field.1 = name → p field = true) :
    (obj (fields.filter p)).get? name = (obj fields).get? name := by
  rw [get?_obj, ← List.filter_reverse, List.find?_filter, get?_obj]
  congr 2
  funext field
  by_cases hname : field.1 = name
  · simp [hname, hp field hname]
  · simp [hname]

theorem get?_eq_none {fields : List (String × Json)} {name : String}
    (h : ∀ field ∈ fields, field.1 ≠ name) : (obj fields).get? name = none := by
  rw [get?_obj, Option.map_eq_none_iff, List.find?_eq_none]
  intro field hfield
  simpa using h field (List.mem_reverse.mp hfield)

/-- The number of an element is no other name. -/
theorem toString_ne {n : Nat} {name : String} (h : name.toList.all Char.isDigit = false) :
    toString n ≠ name := by
  rintro rfl
  have hdigits : (toString n).toList.all Char.isDigit = true := by
    rw [List.all_eq_true]
    intro c hc
    have hmem : c ∈ Nat.toDigits 10 n := by simpa [toString, Nat.repr] using hc
    exact Nat.isDigit_of_mem_toDigits (by decide) (by decide) hmem
  rw [h] at hdigits
  cases hdigits

/-- A name that is no number is copied only from an object. -/
theorem get?_properties {v : Json} {name : String} (h : name.toList.all Char.isDigit = false) :
    (obj v.properties).get? name = v.get? name := by
  have hindexed : ∀ {α : Type} (xs : List (α × Nat)) (f : α → Json),
      (obj (xs.map (fun entry => (toString entry.2, f entry.1)))).get? name = none := by
    intro α xs f
    refine get?_eq_none (fun field hfield => ?_)
    obtain ⟨entry, -, rfl⟩ := List.mem_map.mp hfield
    exact toString_ne h
  cases v with
  | obj fields => rfl
  | arr items => exact hindexed items.zipIdx id
  | str s => exact hindexed s.toList.zipIdx (fun c => .str c.toString)
  | null => rfl
  | bool => rfl
  | num => rfl

section Operators

variable (c : Conversions)

/-- A value that is no object, as operators take it. -/
def primitive? (v : Json) : Option Json :=
  if v.hasProperties then (v.toString? c).map .str else some v

/-- `v + n`. -/
def plus? (v : Json) (n : Number) : Option Json := do
  match ← v.primitive? c with
  | .str s => pure (.str (s ++ c.numberToString n))
  | v => (v.toNumber? c).map (fun m => .num (m.add n))

/-- `v > w`. -/
def gt? (v w : Json) : Option Bool := do
  let v ← v.primitive? c
  let w ← w.primitive? c
  match v, w with
  | .str s, .str t => pure (decide (units t < units s))
  | v, w => do
    let m ← v.toNumber? c
    let n ← w.toNumber? c
    pure (n.lt m)

/-- `v >= q`. -/
def ge? (v : Json) (q : ℚ) : Option Bool := (v.toNumber? c).map (fun m => m.ge (.finite q))

@[simp] theorem ge?_num (m : Number) (q : ℚ) : (num m).ge? c q = some (m.ge (.finite q)) := rfl

end Operators

end Json

end OpenTogetherTube.Lib
