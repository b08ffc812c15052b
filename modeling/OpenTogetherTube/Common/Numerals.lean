import OpenTogetherTube.Common.AnyGrants
import OpenTogetherTube.Lib.Doubles
import Mathlib.Data.List.DropRight
import Mathlib.Data.List.ReduceOption

/-!
# Numbers that are read from decimal digits

`parseInt(s, 10)` reads the digits at the start of a text and passes over what follows them, and so
does `parseFloat`, which takes a fraction as well. The number is the closest double; one that is too
large is infinite.
-/

namespace OpenTogetherTube.Common

open OpenTogetherTube.Lib

/-- The value of decimal digits. -/
abbrev ofDigits (ds : List Char) : Nat := Nat.ofDigitChars 10 ds 0

/-- `parseInt(s, 10)`. -/
def parseInt10 (s : String) : Number :=
  let read := fun cs sign => match digits 10 cs with
    | .finite q => Double.round (sign * q)
    | n => n
  match s.toList.dropWhile isSpace with
  | '-' :: cs => read cs (-1)
  | '+' :: cs => read cs 1
  | cs => read cs 1

/-- The number that is written at the start of a text that has digits and dots only. -/
def decimal? (cs : List Char) : Option ℚ :=
  let whole := cs.takeWhile Char.isDigit
  let fraction := match cs.dropWhile Char.isDigit with
    | '.' :: rest => rest.takeWhile Char.isDigit
    | _ => []
  if whole = [] ∧ fraction = [] then none
  else some (ofDigits (whole ++ fraction) / 10 ^ fraction.length)

/-- `parseFloat(s)`, of such a text. -/
def parseFloat (s : String) : Number :=
  match decimal? s.toList with
  | some q => Double.round q
  | none => .nan

/-! ## Digits -/

section Digits

variable {c : Char} {ds rest : List Char}

theorem isDigit_bounds (h : c.isDigit = true) : 48 ≤ c.toNat ∧ c.toNat ≤ 57 := by
  unfold Char.isDigit at h
  simp only [Bool.and_eq_true, decide_eq_true_eq] at h
  exact ⟨UInt32.le_iff_toNat_le.mp h.1, UInt32.le_iff_toNat_le.mp h.2⟩

theorem digit?_of_isDigit (h : c.isDigit = true) : digit? 10 c = some (c.toNat - 48) := by
  have hbounds := isDigit_bounds h
  unfold digit?
  rw [if_pos h, Option.filter_some, if_pos]
  exact decide_eq_true (by omega)

/-- A letter is no digit in base ten. -/
theorem digit?_of_not_isDigit (h : c.isDigit = false) : digit? 10 c = none := by
  have hlarge : ∀ {k n : Nat}, k + 10 ≤ n → Option.filter (· < 10) (some (n - k)) = none := by
    intro k n hle
    rw [Option.filter_some, if_neg]
    rw [decide_eq_true_eq]
    omega
  unfold digit?
  rw [if_neg (by rw [h]; exact Bool.false_ne_true)]
  dsimp only
  split
  · next hlower =>
    simp only [Bool.and_eq_true, decide_eq_true_eq] at hlower
    have hle : 97 ≤ c.toNat := UInt32.le_iff_toNat_le.mp hlower.1
    exact hlarge (by omega)
  · split
    · next hupper =>
      simp only [Bool.and_eq_true, decide_eq_true_eq] at hupper
      have hle : 65 ≤ c.toNat := UInt32.le_iff_toNat_le.mp hupper.1
      exact hlarge (by omega)
    · rfl

/-- **The digits at the start are read.** -/
theorem digits_append (hne : ds ≠ []) (hds : ∀ c ∈ ds, c.isDigit = true)
    (hrest : ∀ c ∈ rest.head?, c.isDigit = false) :
    digits 10 (ds ++ rest) = .ofNat (ofDigits ds) := by
  have hread : (((ds ++ rest).map (digit? 10)).takeWhile Option.isSome).reduceOption =
      ds.map (fun c => c.toNat - 48) := by
    clear hne
    induction ds with
    | nil =>
      cases rest with
      | nil => rfl
      | cons c rest => simp [digit?_of_not_isDigit (hrest c rfl)]
    | cons d ds ih =>
      have hd := digit?_of_isDigit (hds d List.mem_cons_self)
      simpa [hd] using ih (fun c hc => hds c (List.mem_cons_of_mem _ hc))
  have hfold : ∀ (ds : List Char) (n : Nat),
      (ds.map (fun c => c.toNat - 48)).foldl (fun n d => n * 10 + d) n = Nat.ofDigitChars 10 ds n := by
    intro ds
    induction ds with
    | nil => exact fun n => rfl
    | cons d ds ih =>
      intro n
      rw [List.map_cons, List.foldl_cons, ih, Nat.mul_comm]
      rfl
  unfold digits
  rw [hread]
  cases ds with
  | nil => exact absurd rfl hne
  | cons d ds => exact congrArg Number.ofNat (hfold (d :: ds) 0)

/-- What begins with a digit has no white space and no sign in front. -/
theorem dropWhile_isSpace (hc : c.isDigit = true) : (c :: rest).dropWhile isSpace = c :: rest := by
  have hbounds := isDigit_bounds hc
  apply List.dropWhile_cons_of_neg
  simp [isSpace]
  omega

theorem parseInt10_append (hne : ds ≠ []) (hds : ∀ c ∈ ds, c.isDigit = true)
    (hrest : ∀ c ∈ rest.head?, c.isDigit = false) :
    parseInt10 (String.ofList (ds ++ rest)) = Double.round (ofDigits ds) := by
  have hread := digits_append hne hds hrest
  cases ds with
  | nil => exact absurd rfl hne
  | cons d ds =>
    have hd := hds d List.mem_cons_self
    have hdrop : (d :: (ds ++ rest)).dropWhile isSpace = d :: (ds ++ rest) := dropWhile_isSpace hd
    unfold parseInt10
    rw [String.toList_ofList, List.cons_append, hdrop]
    dsimp only
    split
    · next heq =>
      cases (List.cons.inj heq).1
      cases hd
    · next heq =>
      cases (List.cons.inj heq).1
      cases hd
    · rw [← List.cons_append, hread]
      show Double.round (1 * _) = _
      rw [one_mul]

/-- A number that is written with a fraction. -/
theorem decimal?_fraction {fraction : List Char} (hne : ds ≠ [])
    (hds : ∀ c ∈ ds, c.isDigit = true) (hfraction : ∀ c ∈ fraction, c.isDigit = true) :
    decimal? (ds ++ '.' :: fraction) =
      some (ofDigits (ds ++ fraction) / 10 ^ fraction.length : ℚ) := by
  unfold decimal?
  rw [List.takeWhile_append_of_pos hds, List.dropWhile_append_of_pos hds]
  have hdot : '.'.isDigit = false := rfl
  simp only [List.takeWhile_cons, List.dropWhile_cons, hdot, Bool.false_eq_true, if_false,
    List.append_nil]
  rw [List.takeWhile_eq_self_iff.mpr hfraction, if_neg (fun h => hne h.1)]

theorem decimal?_whole (hne : ds ≠ []) (hds : ∀ c ∈ ds, c.isDigit = true) :
    decimal? ds = some (ofDigits ds : ℚ) := by
  unfold decimal?
  rw [List.takeWhile_eq_self_iff.mpr hds, List.dropWhile_eq_nil_iff.mpr hds]
  dsimp only
  rw [if_neg (fun h => hne h.1), List.append_nil, List.length_nil, pow_zero, div_one]

end Digits

end OpenTogetherTube.Common
