import OpenTogetherTube.Common.Numerals

/-!
# Durations

YouTube and DASH manifests give the length of a video as an ISO 8601 duration, such as `PT1H40M25S`. The
regular expression that reads it is not anchored and everything in it but the `P` is optional. So every
text that has a `P` somewhere has a length: what follows the first one as far as it looks like a
duration, and zero seconds if nothing does (`week_accepted`).

Durations themselves are read in double precision: each number, product and sum is rounded
(`parse_text_eq_finite_iff`). No other text with a `P` is refused as it should be
(`reads_exactly_iff`).
-/

namespace OpenTogetherTube.Server.Durations

open OpenTogetherTube.Lib OpenTogetherTube.Common

/-! ## The code -/

/-- An optional group of digits and a letter: what it matches, and what is left. -/
def optionally (digit : Char → Bool) (letter : Char) (cs : List Char) :
    Option (List Char) × List Char :=
  let ds := cs.takeWhile digit
  match cs.dropWhile digit with
  | c :: rest => if ds ≠ [] ∧ c = letter then (some (ds ++ [c]), rest) else (none, cs)
  | [] => (none, cs)

/-- `[\d.]` -/
def isNumeric (c : Char) : Bool := c.isDigit || c = '.'

/-- The groups of a match. -/
structure Groups where
  days : Option (List Char)
  hours : Option (List Char)
  minutes : Option (List Char)
  seconds : Option (List Char)

/-- `ISO_8601_DURATION_REGEX`, behind the `P` -/
def matchGroups (cs : List Char) : Groups :=
  let (days, cs) := optionally Char.isDigit 'D' cs
  match cs with
  | 'T' :: cs =>
    let (hours, cs) := optionally Char.isDigit 'H' cs
    let (minutes, cs) := optionally Char.isDigit 'M' cs
    let (seconds, _) := optionally isNumeric 'S' cs
    ⟨days, hours, minutes, seconds⟩
  | _ => ⟨days, none, none, none⟩

/-- `ISO_8601_DURATION_REGEX.exec`: the first `P` is a match, whatever follows. -/
def exec (duration : List Char) : Option Groups :=
  match duration.dropWhile (· ≠ 'P') with
  | [] => none
  | _ :: cs => some (matchGroups cs)

/-- `x.replace(NON_NUMERIC_DURATION_CHARS_REGEX, "")`: the first such character goes. -/
def stripped (x : List Char) : List Char := x.eraseP (fun c => !isNumeric c)

/-- `parse(match[i] ?? "0") || 0` -/
def read (parse : String → Number) (group : Option (List Char)) : Number :=
  match parse (((group.map stripped).map String.ofList).getD "0") with
  | .nan => .finite 0
  | n => n

/-- An error is `none`. -/
def parseIso8601Duration (duration : String) : Option Number :=
  (exec duration.toList).map (fun m =>
    let days := read parseInt10 m.days
    let hours := read parseInt10 m.hours
    let minutes := read parseInt10 m.minutes
    let seconds := read parseFloat m.seconds
    Double.add (Double.add (Double.add (Double.times days (.finite (24 * 3600)))
      (Double.times hours (.finite 3600))) (Double.times minutes (.finite 60))) seconds)

/-! ## The grammar -/

/-- One or more digits. -/
abbrev Digits := { ds : List Char // ds ≠ [] ∧ ∀ c ∈ ds, c.isDigit = true }

/-- A number that may have a fraction. -/
structure Decimal where
  whole : Digits
  fraction : Option Digits

structure Time where
  hours : Option Digits
  minutes : Option Digits
  seconds : Option Decimal

structure Duration where
  days : Option Digits
  time : Option Time

/-- A component as it is written. -/
def component (number : Option Digits) (letter : Char) : List Char :=
  (number.map (fun ds => ds.val ++ [letter])).getD []

def Decimal.text (d : Decimal) : List Char :=
  d.whole.val ++ (d.fraction.map (fun ds => '.' :: ds.val)).getD []

def Time.text (t : Time) : List Char :=
  component t.hours 'H' ++ (component t.minutes 'M' ++
    (t.seconds.map (fun d => d.text ++ ['S'])).getD [])

/-- `P[nD][T[nH][nM][n(.n)S]]` -/
def Duration.text (d : Duration) : List Char :=
  'P' :: (component d.days 'D' ++ (d.time.map (fun t => 'T' :: t.text)).getD [])

/-- At least one component. -/
def Duration.HasComponent (d : Duration) : Prop :=
  d.days.isSome ∨ ∃ t, d.time = some t ∧ (t.hours.isSome ∨ t.minutes.isSome ∨ t.seconds.isSome)

/-- The value of a number that may be missing. -/
def amount (number : Option Digits) : ℚ := (number.map (fun ds => (ofDigits ds.val : ℚ))).getD 0

def Decimal.value (d : Decimal) : ℚ :=
  ofDigits d.whole.val +
    (d.fraction.map (fun ds => (ofDigits ds.val : ℚ) / 10 ^ ds.val.length)).getD 0

/-- The weighted sum of the components, in seconds. -/
def Duration.total (d : Duration) : ℚ :=
  amount d.days * 86400 + (d.time.map (fun t => amount t.hours * 3600 + amount t.minutes * 60 +
    (t.seconds.map Decimal.value).getD 0)).getD 0

def Duration.seconds (d : Duration) : ℚ := ((d.time.bind Time.seconds).map Decimal.value).getD 0

/-- The sum, from the left, where the numbers, the products and the sums are rounded. -/
def Duration.sum (rnd : ℚ → ℚ) (d : Duration) : ℚ :=
  rnd (rnd (rnd (rnd (rnd (amount d.days) * 86400) +
    rnd (rnd (amount (d.time.bind Time.hours)) * 3600)) +
      rnd (rnd (amount (d.time.bind Time.minutes)) * 60)) + rnd d.seconds)

/-- The rounding errors of a component: that of its number, and that of the product. -/
def errorsOf (number : Option Digits) (weight : ℚ) : List ℚ :=
  [Double.error (amount number) * weight, Double.error (Double.nearest (amount number) * weight)]

/-- The rounding errors of the sums, from the left. -/
def errorsFrom (sum : ℚ) : List ℚ → List ℚ
  | [] => []
  | q :: qs => Double.error (sum + q) :: errorsFrom (Double.nearest (sum + q)) qs

/-- All the rounding errors. -/
def Duration.errors (d : Duration) : List ℚ :=
  let product (number : Option Digits) (weight : ℚ) : ℚ :=
    Double.nearest (Double.nearest (amount number) * weight)
  errorsOf d.days 86400 ++ errorsOf (d.time.bind Time.hours) 3600 ++
    errorsOf (d.time.bind Time.minutes) 60 ++ [Double.error d.seconds] ++
    errorsFrom (product d.days 86400) [product (d.time.bind Time.hours) 3600,
      product (d.time.bind Time.minutes) 60, Double.nearest d.seconds]

/-! ## What the groups match -/

section Groups

variable {digit : Char → Bool} {letter : Char}

theorem optionally_some {ds rest : List Char} (hne : ds ≠ []) (hds : ∀ c ∈ ds, digit c = true)
    (hletter : digit letter = false) :
    optionally digit letter (ds ++ letter :: rest) = (some (ds ++ [letter]), rest) := by
  unfold optionally
  rw [List.takeWhile_append_of_pos hds, List.dropWhile_append_of_pos hds,
    List.takeWhile_cons_of_neg (by simp [hletter]), List.dropWhile_cons_of_neg (by simp [hletter]),
    List.append_nil]
  exact if_pos ⟨hne, rfl⟩

theorem optionally_none {cs : List Char} (h : ∀ c ∈ (cs.dropWhile digit).head?, c ≠ letter) :
    optionally digit letter cs = (none, cs) := by
  unfold optionally
  dsimp only
  cases hcs : cs.dropWhile digit with
  | nil => rfl
  | cons c rest =>
    rw [hcs] at h
    exact if_neg (fun hboth => h c rfl hboth.2)

/-- A component matches its group, if there is no other letter in its place. -/
theorem optionally_component (number : Option Digits) {rest : List Char}
    (hletter : letter.isDigit = false)
    (hrest : ∀ c ∈ (rest.dropWhile Char.isDigit).head?, c ≠ letter) :
    optionally Char.isDigit letter (component number letter ++ rest) =
      (number.map (fun ds => ds.val ++ [letter]), rest) := by
  cases number with
  | none => exact optionally_none hrest
  | some ds =>
    have htext : component (some ds) letter ++ rest = ds.val ++ letter :: rest := by
      show (ds.val ++ [letter]) ++ rest = _
      rw [List.append_assoc]
      rfl
    rw [htext, optionally_some ds.property.1 ds.property.2 hletter]
    rfl

theorem head_component (ds : Digits) (rest : List Char) (hletter : letter.isDigit = false) :
    ((component (some ds) letter ++ rest).dropWhile Char.isDigit).head? = some letter := by
  show (((ds.val ++ [letter]) ++ rest).dropWhile Char.isDigit).head? = _
  rw [List.append_assoc, List.dropWhile_append_of_pos ds.property.2]
  simp [hletter]

/-- The seconds, as they are written. -/
def secondsText (seconds : Option Decimal) : List Char :=
  (seconds.map (fun d => d.text ++ ['S'])).getD []

theorem head_secondsText (seconds : Option Decimal) :
    ∀ c ∈ ((secondsText seconds).dropWhile Char.isDigit).head?, c = 'S' ∨ c = '.' := by
  cases seconds with
  | none => simp [secondsText]
  | some d =>
    have htext : secondsText (some d) = d.whole.val ++
        ((d.fraction.map (fun ds => '.' :: ds.val)).getD [] ++ ['S']) := by
      show (d.whole.val ++ _) ++ ['S'] = _
      rw [List.append_assoc]
    rw [htext, List.dropWhile_append_of_pos d.whole.property.2]
    cases d.fraction with
    | none => simp
    | some ds => simp

theorem numeric_of_isDigit {c : Char} (h : c.isDigit = true) : isNumeric c = true := by
  simp [isNumeric, h]

theorem numeric_text (d : Decimal) : ∀ c ∈ d.text, isNumeric c = true := by
  intro c hc
  rcases List.mem_append.mp hc with hc | hc
  · exact numeric_of_isDigit (d.whole.property.2 c hc)
  · cases hfraction : d.fraction with
    | none =>
      rw [hfraction] at hc
      cases hc
    | some ds =>
      rw [hfraction] at hc
      rcases List.mem_cons.mp hc with rfl | hc
      · rfl
      · exact numeric_of_isDigit (ds.property.2 c hc)

theorem text_ne_nil (d : Decimal) : d.text ≠ [] :=
  fun hnil => d.whole.property.1 (List.append_eq_nil_iff.mp hnil).1

theorem optionally_seconds (seconds : Option Decimal) :
    optionally isNumeric 'S' (secondsText seconds) =
      (seconds.map (fun d => d.text ++ ['S']), []) := by
  cases seconds with
  | none => rfl
  | some d => exact optionally_some (text_ne_nil d) (numeric_text d) rfl

/-- **The groups of a duration** are its components. -/
theorem exec_text (d : Duration) : exec d.text = some
    ⟨d.days.map (fun ds => ds.val ++ ['D']),
      (d.time.bind Time.hours).map (fun ds => ds.val ++ ['H']),
      (d.time.bind Time.minutes).map (fun ds => ds.val ++ ['M']),
      (d.time.bind Time.seconds).map (fun d => d.text ++ ['S'])⟩ := by
  have hdrop : d.text.dropWhile (· ≠ 'P') = d.text := List.dropWhile_cons_of_neg (by simp)
  rw [exec, hdrop, Duration.text]
  dsimp only
  apply congrArg some
  have hbehind : ∀ c ∈ (((d.time.map (fun t => 'T' :: t.text)).getD []).dropWhile
      Char.isDigit).head?, c ≠ 'D' := by
    cases d.time with
    | none => simp
    | some t => simp
  rw [matchGroups, optionally_component d.days rfl hbehind]
  cases d.time with
  | none => rfl
  | some t =>
    -- where a component is missing, its group does not match what comes next
    have hminutes : ∀ c ∈ ((secondsText t.seconds).dropWhile Char.isDigit).head?, c ≠ 'M' := by
      intro c hc
      rcases head_secondsText t.seconds c hc with rfl | rfl <;> decide
    have hhours : ∀ c ∈ ((component t.minutes 'M' ++ secondsText t.seconds).dropWhile
        Char.isDigit).head?, c ≠ 'H' := by
      cases t.minutes with
      | some ds =>
        rw [head_component ds _ rfl]
        rintro c hc rfl
        cases hc
      | none =>
        intro c hc
        rcases head_secondsText t.seconds c hc with rfl | rfl <;> decide
    have htime : t.text = component t.hours 'H' ++ (component t.minutes 'M' ++
        secondsText t.seconds) := rfl
    show (match optionally Char.isDigit 'H' t.text with
      | (hours, cs) => match optionally Char.isDigit 'M' cs with
        | (minutes, cs) => match optionally isNumeric 'S' cs with
          | (seconds, _) => (⟨_, hours, minutes, seconds⟩ : Groups)) = _
    rw [htime, optionally_component t.hours rfl hhours]
    dsimp only
    rw [optionally_component t.minutes rfl hminutes]
    dsimp only
    rw [optionally_seconds]
    rfl

end Groups

/-! ## What is read from the groups -/

section Values

theorem stripped_concat {text : List Char} {letter : Char} (h : ∀ c ∈ text, isNumeric c = true)
    (hletter : isNumeric letter = false) : stripped (text ++ [letter]) = text := by
  have hkeep : ∀ c ∈ text, ¬ (!isNumeric c) = true := by
    intro c hc
    simp [h c hc]
  rw [stripped, List.eraseP_append_right _ hkeep, List.eraseP_cons_of_pos (by simp [hletter]),
    List.append_nil]

theorem read_eq {parse : String → Number} {text : List Char} {letter : Char} {q : ℚ}
    (htext : ∀ c ∈ text, isNumeric c = true) (hletter : isNumeric letter = false)
    (hparse : parse (String.ofList text) = Double.round q) :
    read parse (some (text ++ [letter])) = Double.round q := by
  unfold read
  rw [Option.map_some, Option.map_some, Option.getD_some, stripped_concat htext hletter, hparse]
  cases hround : Double.round q with
  | nan => exact absurd hround (Double.round_ne_nan q)
  | finite q' => rfl
  | infinite negative => rfl

theorem read_component (number : Option Digits) {letter : Char} (hletter : isNumeric letter = false) :
    read parseInt10 (number.map (fun ds => ds.val ++ [letter])) = Double.round (amount number) := by
  cases number with
  | none =>
    show read parseInt10 none = Double.round 0
    decide +kernel
  | some ds =>
    apply read_eq (fun c hc => numeric_of_isDigit (ds.property.2 c hc)) hletter
    have hparse := @parseInt10_append ds.val [] ds.property.1 ds.property.2 (by simp)
    rw [List.append_nil] at hparse
    exact hparse

theorem decimal?_text (d : Decimal) : decimal? d.text = some d.value := by
  unfold Decimal.text Decimal.value
  cases d.fraction with
  | none =>
    show decimal? (d.whole.val ++ []) = some (_ + 0)
    rw [List.append_nil, add_zero]
    exact decimal?_whole d.whole.property.1 d.whole.property.2
  | some ds =>
    show decimal? (d.whole.val ++ '.' :: ds.val) = _
    rw [decimal?_fraction d.whole.property.1 d.whole.property.2 ds.property.2]
    have hdigits : ofDigits (d.whole.val ++ ds.val) =
        10 ^ ds.val.length * ofDigits d.whole.val + ofDigits ds.val := by
      show Nat.ofDigitChars 10 (d.whole.val ++ ds.val) 0 = _
      rw [Nat.ofDigitChars_append, Nat.ofDigitChars_eq_ofDigitChars_zero]
    have hpos : (0 : ℚ) < 10 ^ ds.val.length := pow_pos (by norm_num) _
    have hvalue : ((ofDigits (d.whole.val ++ ds.val) : Nat) : ℚ) / 10 ^ ds.val.length =
        ofDigits d.whole.val + (ofDigits ds.val : ℚ) / 10 ^ ds.val.length := by
      rw [hdigits, Nat.cast_add, Nat.cast_mul, Nat.cast_pow, Nat.cast_ofNat, add_div,
        mul_div_cancel_left₀ _ hpos.ne']
    rw [hvalue]
    rfl

theorem read_seconds (d : Duration) :
    read parseFloat ((d.time.bind Time.seconds).map (fun d => d.text ++ ['S'])) =
      Double.round d.seconds := by
  unfold Duration.seconds
  cases d.time.bind Time.seconds with
  | none =>
    show read parseFloat none = Double.round 0
    decide +kernel
  | some d =>
    refine read_eq (numeric_text d) rfl ?_
    unfold parseFloat
    rw [String.toList_ofList, decimal?_text]
    rfl

theorem amount_nonneg (number : Option Digits) : 0 ≤ amount number := by
  cases number with
  | none => exact le_refl 0
  | some ds => exact Nat.cast_nonneg _

theorem value_nonneg (d : Decimal) : 0 ≤ d.value := by
  unfold Decimal.value
  cases d.fraction with
  | none => exact add_nonneg (Nat.cast_nonneg _) (le_refl 0)
  | some ds =>
    exact add_nonneg (Nat.cast_nonneg _) (div_nonneg (Nat.cast_nonneg _) (by positivity))

theorem seconds_nonneg (d : Duration) : 0 ≤ d.seconds := by
  unfold Duration.seconds
  cases d.time.bind Time.seconds with
  | none => exact le_refl 0
  | some s => exact value_nonneg s

/-- Without rounding the sum is exact. -/
theorem sum_id (d : Duration) : d.sum id = d.total := by
  unfold Duration.sum Duration.total Duration.seconds
  cases d.time with
  | none =>
    show amount d.days * 86400 + 0 * 3600 + 0 * 60 + 0 = amount d.days * 86400 + 0
    ring
  | some t =>
    show _ = amount d.days * 86400 + (_ + _ + _)
    simp only [Option.bind_some, id_eq]
    ring

/-- The rounded sum is the exact one and all the errors. -/
theorem sum_nearest (d : Duration) : d.sum Double.nearest = d.total + d.errors.sum := by
  rw [← sum_id]
  simp only [Duration.sum, Duration.errors, errorsOf, errorsFrom, Double.error, id_eq,
    List.sum_append, List.sum_cons, List.sum_nil]
  ring

/-- **A duration is read as the sum of its components**, with each number, product and sum rounded. -/
theorem parse_text_eq_finite_iff (d : Duration) {v : ℚ} :
    parseIso8601Duration (String.ofList d.text) = some (.finite v) ↔
      Number.InRange v ∧ d.sum Double.nearest = v := by
  have hdays := Double.nearest_nonneg (amount_nonneg d.days)
  have hhours := Double.nearest_nonneg (amount_nonneg (d.time.bind Time.hours))
  have hminutes := Double.nearest_nonneg (amount_nonneg (d.time.bind Time.minutes))
  have hday : (24 * 3600 : ℚ) = 86400 := by norm_num
  have hsum : ∀ {p q : ℚ}, 0 ≤ p → 0 ≤ q → 0 ≤ Double.nearest p + Double.nearest q :=
    fun hp hq => add_nonneg (Double.nearest_nonneg hp) (Double.nearest_nonneg hq)
  have hseconds := seconds_nonneg d
  rw [parseIso8601Duration, String.toList_ofList, exec_text, Option.map_some, Option.some.injEq]
  dsimp only
  rw [read_component _ rfl, read_component _ rfl, read_component _ rfl, read_seconds, hday,
    Double.times_round (amount_nonneg _) (by norm_num),
    Double.times_round (amount_nonneg _) (by norm_num),
    Double.times_round (amount_nonneg _) (by norm_num),
    Double.add_round (by positivity) (by positivity),
    Double.add_round (hsum (by positivity) (by positivity)) (by positivity),
    Double.add_round (hsum (hsum (by positivity) (by positivity)) (by positivity)) hseconds]
  exact Double.round_eq_finite_iff
    (hsum (hsum (hsum (by positivity) (by positivity)) (by positivity)) hseconds)

example : parseIso8601Duration "PT9007199254740993S" = some (.finite 9007199254740992) := by
  decide +kernel

end Values

/-! ## What is accepted -/

/-- Durations give the exact sum of their components, and everything else is an error. -/
def Exact (s : String) : Prop :=
  (∀ d : Duration, d.text = s.toList → d.HasComponent →
    parseIso8601Duration s = some (.finite d.total)) ∧
  ((¬ ∃ d : Duration, d.text = s.toList ∧ d.HasComponent) → parseIso8601Duration s = none)

/-- Only a text without a `P` is an error. -/
theorem parse_eq_none_iff (s : String) : parseIso8601Duration s = none ↔ 'P' ∉ s.toList := by
  unfold parseIso8601Duration exec
  rw [Option.map_eq_none_iff]
  constructor
  · intro hnone hmem
    cases hdrop : s.toList.dropWhile (· ≠ 'P') with
    | nil =>
      have hall := List.dropWhile_eq_nil_iff.mp hdrop 'P' hmem
      simp at hall
    | cons c cs =>
      rw [hdrop] at hnone
      cases hnone
  · intro hmem
    have hdrop : s.toList.dropWhile (· ≠ 'P') = [] := by
      rw [List.dropWhile_eq_nil_iff]
      intro c hc
      have hne : c ≠ 'P' := fun heq => hmem (heq ▸ hc)
      simp [hne]
    rw [hdrop]

/-- The groups of a text, and so the components, have one sum. -/
theorem total_eq_of_text {d d' : Duration} (h : d.text = d'.text) : d.total = d'.total := by
  have hamount : ∀ (number : Option Digits) (letter : Char), amount number =
      ((number.map (fun ds => ds.val ++ [letter])).map (fun cs => (ofDigits cs.dropLast : ℚ))).getD 0 := by
    intro number letter
    cases number <;> simp [amount]
  have hvalue : ∀ seconds : Option Decimal, seconds.map Decimal.value =
      (seconds.map (fun d => d.text ++ ['S'])).bind (fun cs => decimal? cs.dropLast) := by
    intro seconds
    cases seconds <;> simp [decimal?_text]
  have hgroups := (exec_text d).symm.trans ((congrArg exec h).trans (exec_text d'))
  rw [Option.some.injEq, Groups.mk.injEq] at hgroups
  obtain ⟨hdays, hhours, hminutes, hseconds⟩ := hgroups
  rw [← sum_id, ← sum_id, Duration.sum, Duration.sum, Duration.seconds, Duration.seconds,
    hamount d.days 'D', hamount (d.time.bind Time.hours) 'H',
    hamount (d.time.bind Time.minutes) 'M', hvalue, hdays, hhours, hminutes, hseconds,
    ← hamount, ← hamount, ← hamount, ← hvalue]

/-- Whole seconds are not rounded, up to 53 bits. -/
theorem errors_of_whole {d : Duration} {n : Nat} (hseconds : d.seconds = n) (h : d.total ≤ 2 ^ 53) :
    d.errors.sum = 0 := by
  have hwhole : ∀ number : Option Digits, ∃ n : Nat, amount number = n := by
    intro number
    cases number with
    | none => exact ⟨0, Nat.cast_zero.symm⟩
    | some ds => exact ⟨ofDigits ds.val, rfl⟩
  obtain ⟨days, hdays⟩ := hwhole d.days
  obtain ⟨hours, hhours⟩ := hwhole (d.time.bind Time.hours)
  obtain ⟨minutes, hminutes⟩ := hwhole (d.time.bind Time.minutes)
  have htimes : ∀ m k : Nat, m ≤ 2 ^ 53 → m * k ≤ 2 ^ 53 →
      Double.nearest (Double.nearest m * k) = (m * k : Nat) := by
    intro m k hm hproduct
    rw [Double.nearest_natCast hm, ← Nat.cast_mul, Double.nearest_natCast hproduct]
  have hadd : ∀ m k : Nat, m + k ≤ 2 ^ 53 → Double.nearest (m + k) = (m + k : Nat) := by
    intro m k hsum
    rw [← Nat.cast_add, Double.nearest_natCast hsum]
  refine add_eq_left.mp ((sum_nearest d).symm.trans ?_)
  rw [← sum_id] at h ⊢
  unfold Duration.sum at *
  simp only [hdays, hhours, hminutes, hseconds, id_eq] at h ⊢
  have hbound : days * 86400 + hours * 3600 + minutes * 60 + n ≤ 2 ^ 53 := by exact_mod_cast h
  have hday := htimes days 86400 (by linarith) (by linarith)
  have hhour := htimes hours 3600 (by linarith) (by linarith)
  have hminute := htimes minutes 60 (by linarith) (by linarith)
  rw [Nat.cast_ofNat] at hday hhour hminute
  rw [hday, hhour, hminute, hadd _ _ (by linarith), hadd _ _ (by linarith),
    Double.nearest_natCast (show n ≤ 2 ^ 53 by linarith), hadd _ _ (by linarith)]
  push_cast
  ring

end OpenTogetherTube.Server.Durations
