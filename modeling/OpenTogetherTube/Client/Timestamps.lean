import OpenTogetherTube.Common.Numerals
import OpenTogetherTube.Lib.Lines

/-!
# Timestamps

A position in a video is shown as a timestamp, and a timestamp that the user types is read back as a
position. The formatter takes the clock time from a date that many seconds after midnight of the first
day, so that it should give the seconds back when it is read (`RoundTrips`).

A clock has no more than 24 hours. `roundTrips_iff` says that this is all: a day and more is shown
without the days, and a date that is too far away is none at all.
-/

namespace OpenTogetherTube.Client.Timestamps

open OpenTogetherTube.Common OpenTogetherTube.Lib

/-! ## Dates -/

/-- `ToZeroPaddedDecimalString`. -/
def pad (width n : Nat) : List Char := (Nat.toDigits 10 n).leftpad width '0'

/-- `DayFromYear`, from 1970 on. -/
def dayFromYear (y : Nat) : Nat :=
  365 * (y - 1970) + (y - 1969) / 4 + (y - 1601) / 400 - (y - 1901) / 100

/-- `YearFromTime`, of the day: the last year that has begun. -/
def yearFromDay (day : Nat) : Nat :=
  Nat.findGreatest (fun y => dayFromYear y ≤ day) (1970 + day / 365)

def inLeapYear (y : Nat) : Bool := y % 4 = 0 && (y % 100 ≠ 0 || y % 400 = 0)

/-- On which day of the year the months begin that have begun. -/
def monthStarts (leap : Bool) (day : Nat) : List Nat :=
  let l := leap.toNat
  [0, 31, 59 + l, 90 + l, 120 + l, 151 + l, 181 + l, 212 + l, 243 + l, 273 + l, 304 + l, 334 + l].filter
    (· ≤ day)

def monthOf (leap : Bool) (day : Nat) : Nat := (monthStarts leap day).length

def dateOf (leap : Bool) (day : Nat) : Nat := day + 1 - (monthStarts leap day).getLastD 0

/-- Years of more than four digits have six, and a sign. -/
def yearText (y : Nat) : List Char := if y ≤ 9999 then pad 4 y else '+' :: pad 6 y

/-- The date, of a day after 1970 began. -/
def dateText (day : Nat) : List Char :=
  let y := yearFromDay day
  let dayWithinYear := day - dayFromYear y
  yearText y ++ '-' :: pad 2 (monthOf (inLeapYear y) dayWithinYear) ++
    '-' :: pad 2 (dateOf (inLeapYear y) dayWithinYear)

/-- The clock time. -/
def clockText (hours minutes seconds : Nat) : List Char :=
  pad 2 hours ++ ':' :: (pad 2 minutes ++ ':' :: pad 2 seconds)

/-- The texts of a time in milliseconds. -/
def isoText (t : Nat) : List Char :=
  dateText (t / 86400000) ++
    'T' :: (clockText (t / 3600000 % 24) (t / 60000 % 60) (t / 1000 % 60) ++
      '.' :: pad 3 (t % 1000) ++ ['Z'])

/-- `new Date(value).toISOString()`, of a value that is not negative; none where it throws. -/
def toISOString (value : ℚ) : Option String :=
  if value ≤ 8640000000000000 then some (String.ofList (isoText ⌊value⌋.toNat)) else none

/-! ## The two functions -/

/-- `s.substr(start, length)`. -/
def substr (s : String) (start length : Nat) : String :=
  String.ofList ((s.toList.drop start).take length)

def secondsToTimestamp (seconds : ℚ) : Option String := do
  let posSeconds := |seconds|
  let timeString ← toISOString (posSeconds * 1000)
  let subTimeString := if posSeconds ≥ 3600 then substr timeString 11 8 else substr timeString 14 5
  return if seconds < 0 then "-" ++ subTimeString else subTimeString

/-- The loop: each number counts sixty times what the one behind it does. -/
def sum (spl : List Number) : Number :=
  (spl.zipIdx.foldl (fun seconds p => seconds.add (p.1.times (.ofNat (60 ^ p.2)))) (.ofNat 0))

/-- None where it throws. -/
def timestampToSeconds (timestamp : String) : Option Number :=
  if timestamp = "" then none
  else
    let spl := ((timestamp.toList.splitOn ':').map (fun i => parseInt10 (String.ofList i))).reverse
    if spl.length > 3 ∨ spl.length = 0 then none else some (sum spl)

/-- **The purpose**: the timestamp of a number of seconds is read as this number. -/
def RoundTrips (n : Nat) : Prop :=
  ∃ timestamp, secondsToTimestamp n = some timestamp ∧
    timestampToSeconds timestamp = some (.ofNat n)

/-- Of two numbers: different ones have different timestamps. -/
structure Faithful (m n : Nat) : Prop where
  first : RoundTrips m
  second : RoundTrips n
  distinct : m ≠ n → secondsToTimestamp m ≠ secondsToTimestamp n

/-! ## Padded numbers -/

theorem length_pad {width n : Nat} (hpos : 0 < width) (h : n < 10 ^ width) :
    (pad width n).length = width := by
  have hle := (Nat.length_toDigits_le_iff (by decide) hpos).mpr h
  simp [pad]
  omega

theorem isDigit_of_mem_pad {width n : Nat} {c : Char} (h : c ∈ pad width n) : c.isDigit = true := by
  unfold pad List.leftpad at h
  rcases List.mem_append.mp h with hzero | hdigit
  · rw [List.eq_of_mem_replicate hzero]
    rfl
  · exact Nat.isDigit_of_mem_toDigits (by decide) (by decide) hdigit

theorem ofDigits_pad (width n : Nat) : ofDigits (pad width n) = n := by
  unfold pad List.leftpad ofDigits
  rw [Nat.ofDigitChars_append, Nat.ofDigitChars_replicate_zero, Nat.mul_zero,
    Nat.ofDigitChars_ten_toDigits]

theorem pad_ne_nil (width n : Nat) : pad width n ≠ [] := by
  simp [pad, List.leftpad]

theorem colon_not_mem_pad (width n : Nat) : ':' ∉ pad width n := by
  intro h
  cases isDigit_of_mem_pad h

theorem inRange_of_lt {n : Nat} (h : n < 1000000) : Number.InRange n := by
  unfold Number.InRange Number.overflow
  calc (n : ℚ) < 1000000 := by exact_mod_cast h
    _ ≤ 2 ^ 54 - 1 := by norm_num
    _ ≤ 2 ^ 970 * (2 ^ 54 - 1) := le_mul_of_one_le_left (by norm_num) (one_le_pow₀ (by norm_num))

theorem round_of_lt {n : Nat} (h : n < 1000000) : Number.round n = .ofNat n :=
  Number.round_of_inRange (Nat.cast_nonneg n) (inRange_of_lt h)

/-- What follows the number is passed over. -/
theorem parseInt10_pad {n : Nat} (h : n < 100) {rest : List Char}
    (hrest : ∀ c ∈ rest.head?, c.isDigit = false) :
    parseInt10 (String.ofList (pad 2 n ++ rest)) = .ofNat n := by
  rw [parseInt10_append (pad_ne_nil 2 n) (fun c => isDigit_of_mem_pad) hrest, ofDigits_pad,
    Double.round_of_inRange (Nat.cast_nonneg n) (inRange_of_lt (by omega)),
    Double.nearest_natCast (by omega)]
  rfl

/-! ## Reading a timestamp -/

theorem add_times {m n k : Nat} (hm : m < 10000) (hn : n < 100) (hk : k ≤ 3600) :
    (Number.ofNat m).add ((Number.ofNat n).times (.ofNat k)) = .ofNat (m + n * k) := by
  have hproduct : n * k ≤ 99 * 3600 := Nat.mul_le_mul (by omega) hk
  have htimes : (Number.ofNat n).times (.ofNat k) = .ofNat (n * k) := by
    show Number.round ((n : ℚ) * k) = _
    rw [← Nat.cast_mul]
    exact round_of_lt (by omega)
  rw [htimes]
  show Number.round ((m : ℚ) + (n * k : Nat)) = _
  rw [← Nat.cast_add]
  exact round_of_lt (by omega)

theorem timestampToSeconds_two {m s : Nat} {rest : List Char} (hm : m < 100) (hs : s < 100)
    (hrest : ∀ c ∈ rest.head?, c.isDigit = false) (hcolon : ':' ∉ rest) :
    timestampToSeconds (String.ofList (pad 2 m ++ rest ++ ':' :: pad 2 s)) =
      some (.ofNat (s + m * 60)) := by
  have hsplit : (pad 2 m ++ rest ++ ':' :: pad 2 s).splitOn ':' = [pad 2 m ++ rest, pad 2 s] := by
    rw [Lines.splitOn_append_cons, List.splitOn_eq_singleton (colon_not_mem_pad 2 s)]
    simp [colon_not_mem_pad, hcolon]
  have hs' : parseInt10 (String.ofList (pad 2 s)) = .ofNat s := by
    rw [← List.append_nil (pad 2 s)]
    exact parseInt10_pad hs (by simp)
  have hsum : sum [.ofNat s, .ofNat m] = .ofNat (s + m * 60) := by
    show ((Number.ofNat 0).add ((Number.ofNat s).times (.ofNat 1))).add
      ((Number.ofNat m).times (.ofNat 60)) = _
    rw [add_times (by omega) hs (by omega), add_times (by omega) hm (by omega)]
    exact congrArg Number.ofNat (by omega)
  unfold timestampToSeconds
  rw [if_neg, String.toList_ofList, hsplit]
  · rw [List.map_cons, List.map_cons, List.map_nil, parseInt10_pad hm hrest, hs']
    exact congrArg some hsum
  · simp [← String.toList_inj]

theorem timestampToSeconds_three {h m s : Nat} (hh : h < 100) (hm : m < 100) (hs : s < 100) :
    timestampToSeconds (String.ofList (clockText h m s)) =
      some (.ofNat (s + m * 60 + h * 3600)) := by
  have hsplit : (clockText h m s).splitOn ':' = [pad 2 h, pad 2 m, pad 2 s] := by
    unfold clockText
    rw [Lines.splitOn_append_cons (colon_not_mem_pad 2 h),
      Lines.splitOn_append_cons (colon_not_mem_pad 2 m),
      List.splitOn_eq_singleton (colon_not_mem_pad 2 s)]
  have hread : ∀ {n}, n < 100 → parseInt10 (String.ofList (pad 2 n)) = .ofNat n := by
    intro n hn
    rw [← List.append_nil (pad 2 _)]
    exact parseInt10_pad hn (by simp)
  have hsum : sum [.ofNat s, .ofNat m, .ofNat h] = .ofNat (s + m * 60 + h * 3600) := by
    show (((Number.ofNat 0).add ((Number.ofNat s).times (.ofNat 1))).add
      ((Number.ofNat m).times (.ofNat 60))).add ((Number.ofNat h).times (.ofNat 3600)) = _
    rw [add_times (by omega) hs (by omega), add_times (by omega) hm (by omega),
      add_times (by omega) hh (by omega)]
    exact congrArg Number.ofNat (by omega)
  unfold timestampToSeconds
  rw [if_neg, String.toList_ofList, hsplit]
  · rw [List.map_cons, List.map_cons, List.map_cons, List.map_nil, hread hh, hread hm, hread hs]
    exact congrArg some hsum
  · simp [← String.toList_inj, clockText]

/-! ## The texts of a date -/

theorem dateOf_lt {leap : Bool} {day : Nat} (h : day < 400) :
    monthOf leap day < 100 ∧ dateOf leap day < 100 := by
  have hall : ∀ leap : Bool, ∀ a < 20, ∀ b < 20,
      monthOf leap (20 * a + b) < 100 ∧ dateOf leap (20 * a + b) < 100 := by
    decide +kernel
  have hday := hall leap (day / 20) (by omega) (day % 20) (by omega)
  rwa [Nat.div_add_mod] at hday

theorem dayFromYear_succ_le (y : Nat) : dayFromYear (y + 1) ≤ dayFromYear y + 367 := by
  have hstep : ∀ start length, 0 < length →
      (y + 1 - start) / length ≤ (y - start) / length + 1 := by
    intro start length hpos
    calc (y + 1 - start) / length ≤ (y - start + length) / length :=
          Nat.div_le_div_right (by omega)
      _ = (y - start) / length + 1 := Nat.add_div_right _ hpos
  have hquarter := hstep 1969 4 (by decide)
  have hera := hstep 1601 400 (by decide)
  -- centuries only take leap days away
  have hcentury : (y - 1901) / 100 ≤ (y + 1 - 1901) / 100 := Nat.div_le_div_right (by omega)
  unfold dayFromYear
  omega

theorem le_dayFromYear (y : Nat) : 365 * (y - 1970) ≤ dayFromYear y := by
  have hcentury : (y - 1901) / 100 ≤ (y - 1969) / 4 + (y - 1601) / 400 := by omega
  unfold dayFromYear
  omega

/-- A day is in the year that it belongs to, roughly. -/
theorem dayWithinYear_lt (day : Nat) : day - dayFromYear (yearFromDay day) < 400 := by
  by_contra hlarge
  -- the next year would have begun, too
  have hnext : dayFromYear (yearFromDay day + 1) ≤ day := by
    have hsucc := dayFromYear_succ_le (yearFromDay day)
    omega
  have hbound : yearFromDay day + 1 ≤ 1970 + day / 365 := by
    have hle := (le_dayFromYear (yearFromDay day + 1)).trans hnext
    omega
  exact absurd (Nat.le_findGreatest hbound hnext) (Nat.not_succ_le_self _)

theorem yearFromDay_lt {day : Nat} (h : day ≤ 100000000) : yearFromDay day < 10 ^ 6 := by
  have hle : yearFromDay day ≤ 1970 + day / 365 := Nat.findGreatest_le _
  omega

theorem length_yearText {y : Nat} (h : y < 10 ^ 6) :
    (yearText y).length = if y ≤ 9999 then 4 else 7 := by
  unfold yearText
  split
  · exact length_pad (by decide) (by omega)
  · rw [List.length_cons, length_pad (by decide) h]

/-- The date of the month stands at the end. -/
theorem dateText_eq (day : Nat) (h : day ≤ 100000000) :
    ∃ front date, dateText day = front ++ pad 2 date ∧ date < 100 ∧
      front.length = if yearFromDay day ≤ 9999 then 8 else 11 := by
  obtain ⟨hmonth, hdate⟩ := @dateOf_lt (inLeapYear (yearFromDay day)) _ (dayWithinYear_lt day)
  have hyear := length_yearText (yearFromDay_lt h)
  have hmonth' := length_pad (by decide : 0 < 2) hmonth
  refine ⟨yearText (yearFromDay day) ++ '-' :: pad 2 (monthOf (inLeapYear (yearFromDay day))
    (day - dayFromYear (yearFromDay day))) ++ ['-'], _, ?_, hdate, ?_⟩
  · simp [dateText]
  · rw [List.length_append, List.length_append, List.length_cons, hyear, hmonth']
    split <;> rfl

/-- What is in front is dropped, what is behind is not taken. -/
theorem substr_middle {front middle behind : List Char} {start length : Nat}
    (hfront : front.length = start) (hmiddle : middle.length = length) :
    substr (String.ofList (front ++ (middle ++ behind))) start length = String.ofList middle := by
  unfold substr
  rw [String.toList_ofList, ← hfront, List.drop_left, ← hmiddle, List.take_left]

section Timestamp

variable {n : Nat}

/-- The clock time of a number of seconds. -/
theorem toISOString_seconds (h : n ≤ 8640000000000) : toISOString ((n : ℚ) * 1000) =
    some (String.ofList (dateText (n / 86400) ++ 'T' :: (clockText (n / 3600 % 24) (n / 60 % 60)
      (n % 60) ++ '.' :: pad 3 0 ++ ['Z']))) := by
  have hcast : (n : ℚ) * 1000 = ((n * 1000 : Nat) : ℚ) := by rw [Nat.cast_mul]; rfl
  have hle : ((n * 1000 : Nat) : ℚ) ≤ 8640000000000000 := by
    have : n * 1000 ≤ 8640000000000000 := by omega
    exact_mod_cast this
  have hfloor : ⌊((n * 1000 : Nat) : ℚ)⌋.toNat = n * 1000 := by
    rw [Int.floor_natCast]
    rfl
  have hday : n * 1000 / 86400000 = n / 86400 := by omega
  have hhours : n * 1000 / 3600000 = n / 3600 := by omega
  have hminutes : n * 1000 / 60000 = n / 60 := by omega
  have hseconds : n * 1000 / 1000 = n := by omega
  have hmilliseconds : n * 1000 % 1000 = 0 := by omega
  unfold toISOString
  rw [hcast, if_pos hle, hfloor, isoText, hday, hhours, hminutes, hseconds, hmilliseconds]

theorem secondsToTimestamp_eq (n : Nat) : secondsToTimestamp n =
    (toISOString ((n : ℚ) * 1000)).map (fun timeString =>
      if 3600 ≤ n then substr timeString 11 8 else substr timeString 14 5) := by
  have habs : |(n : ℚ)| = n := abs_of_nonneg (Nat.cast_nonneg n)
  have hsign : ¬ (n : ℚ) < 0 := not_lt.mpr (Nat.cast_nonneg n)
  have hge : (n : ℚ) ≥ 3600 ↔ 3600 ≤ n := by exact_mod_cast Iff.rfl
  unfold secondsToTimestamp
  rw [habs]
  dsimp only
  cases toISOString ((n : ℚ) * 1000) with
  | none => rfl
  | some timeString => simp [hsign, hge]

/-- Up to an hour, minutes and seconds are shown. -/
theorem secondsToTimestamp_short (h : n < 3600) :
    secondsToTimestamp n = some (String.ofList (pad 2 (n / 60) ++ [] ++ ':' :: pad 2 (n % 60))) := by
  have hday : n / 86400 = 0 := by omega
  have hhours : n / 3600 % 24 = 0 := by omega
  have hminutes : n / 60 % 60 = n / 60 := by omega
  rw [secondsToTimestamp_eq, toISOString_seconds (by omega), hday, hhours, hminutes, Option.map_some,
    if_neg (by omega)]
  have htext : dateText 0 ++ 'T' :: (clockText 0 (n / 60) (n % 60) ++ '.' :: pad 3 0 ++ ['Z']) =
      (dateText 0 ++ 'T' :: (pad 2 0 ++ [':'])) ++
        ((pad 2 (n / 60) ++ [] ++ ':' :: pad 2 (n % 60)) ++ ('.' :: pad 3 0 ++ ['Z'])) := by
    simp [clockText]
  rw [htext, substr_middle]
  · decide +kernel
  · simp [length_pad (by decide : 0 < 2) (by omega : n / 60 < 10 ^ 2),
      length_pad (by decide : 0 < 2) (by omega : n % 60 < 10 ^ 2)]

theorem length_clockText {h m s : Nat} (hh : h < 100) (hm : m < 100) (hs : s < 100) :
    (clockText h m s).length = 8 := by
  simp [clockText, length_pad (by decide : 0 < 2) (by omega : h < 10 ^ 2),
    length_pad (by decide : 0 < 2) (by omega : m < 10 ^ 2),
    length_pad (by decide : 0 < 2) (by omega : s < 10 ^ 2)]

/-- From an hour on, the clock time is shown, as long as years have four digits. -/
theorem secondsToTimestamp_clock (h : 3600 ≤ n) (hmax : n ≤ 8640000000000)
    (hyear : yearFromDay (n / 86400) ≤ 9999) : secondsToTimestamp n =
      some (String.ofList (clockText (n / 3600 % 24) (n / 60 % 60) (n % 60))) := by
  obtain ⟨front, date, hdate, hlt, hfront⟩ := dateText_eq (n / 86400) (by omega)
  rw [if_pos hyear] at hfront
  rw [secondsToTimestamp_eq, toISOString_seconds hmax, Option.map_some, if_pos h, hdate,
    List.append_cons, List.append_assoc (clockText _ _ _), substr_middle]
  · simp [hfront, length_pad (by decide : 0 < 2) hlt]
  · exact length_clockText (by omega) (by omega) (by omega)

/-- After that, the day of the month is taken for hours. -/
theorem secondsToTimestamp_far (h : 3600 ≤ n) (hmax : n ≤ 8640000000000)
    (hyear : ¬ yearFromDay (n / 86400) ≤ 9999) : ∃ date < 100, secondsToTimestamp n =
      some (String.ofList (pad 2 date ++ ('T' :: pad 2 (n / 3600 % 24)) ++
        ':' :: pad 2 (n / 60 % 60))) := by
  obtain ⟨front, date, hdate, hlt, hfront⟩ := dateText_eq (n / 86400) (by omega)
  rw [if_neg hyear] at hfront
  refine ⟨date, hlt, ?_⟩
  have htext : dateText (n / 86400) ++ 'T' :: (clockText (n / 3600 % 24) (n / 60 % 60) (n % 60) ++
      '.' :: pad 3 0 ++ ['Z']) = front ++ ((pad 2 date ++ ('T' :: pad 2 (n / 3600 % 24)) ++
        ':' :: pad 2 (n / 60 % 60)) ++ (':' :: pad 2 (n % 60) ++ '.' :: pad 3 0 ++ ['Z'])) := by
    simp [hdate, clockText]
  rw [secondsToTimestamp_eq, toISOString_seconds hmax, Option.map_some, if_pos h, htext,
    substr_middle hfront]
  simp [length_pad (by decide : 0 < 2) hlt,
    length_pad (by decide : 0 < 2) (by omega : n / 3600 % 24 < 10 ^ 2),
    length_pad (by decide : 0 < 2) (by omega : n / 60 % 60 < 10 ^ 2)]

theorem secondsToTimestamp_none (h : ¬ n ≤ 8640000000000) : secondsToTimestamp n = none := by
  have hlarge : ¬ (n : ℚ) * 1000 ≤ 8640000000000000 := by
    intro hle
    have : n * 1000 ≤ 8640000000000000 := by exact_mod_cast hle
    omega
  rw [secondsToTimestamp_eq, toISOString, if_neg hlarge, Option.map_none]

end Timestamp

/-! ## The round trip -/

theorem ofNat_inj {m n : Nat} (h : Number.ofNat m = .ofNat n) : m = n := by
  exact_mod_cast Number.finite.inj h

/-- Of less than a day, everything is shown. -/
theorem roundTrips_of_lt {n : Nat} (h : n < 86400) : RoundTrips n := by
  by_cases hhour : n < 3600
  · refine ⟨_, secondsToTimestamp_short hhour, ?_⟩
    rw [timestampToSeconds_two (by omega) (by omega) (by simp) (by simp)]
    exact congrArg (fun seconds => some (Number.ofNat seconds)) (by omega)
  · have hday : n / 86400 = 0 := by omega
    have hyear : yearFromDay (n / 86400) ≤ 9999 := by
      rw [hday]
      decide +kernel
    refine ⟨_, secondsToTimestamp_clock (by omega) (by omega) hyear, ?_⟩
    rw [timestampToSeconds_three (by omega) (by omega) (by omega)]
    exact congrArg (fun seconds => some (Number.ofNat seconds)) (by omega)

/-- **A timestamp is read back exactly if it is of less than a day.** -/
theorem roundTrips_iff (n : Nat) : RoundTrips n ↔ n < 86400 := by
  refine ⟨?_, roundTrips_of_lt⟩
  rintro ⟨timestamp, hformat, hread⟩
  by_contra hday
  by_cases hmax : n ≤ 8640000000000
  · by_cases hyear : yearFromDay (n / 86400) ≤ 9999
    · -- the days are left out
      rw [secondsToTimestamp_clock (by omega) hmax hyear] at hformat
      rw [← Option.some.inj hformat, timestampToSeconds_three (by omega) (by omega) (by omega)] at hread
      have hsame := ofNat_inj (Option.some.inj hread)
      omega
    · obtain ⟨date, hdate, hfar⟩ := secondsToTimestamp_far (by omega) hmax hyear
      have hcolon : ':' ∉ 'T' :: pad 2 (n / 3600 % 24) := by
        simp [colon_not_mem_pad]
      have hletter : ∀ c ∈ ('T' :: pad 2 (n / 3600 % 24)).head?, c.isDigit = false := by simp
      rw [hfar] at hformat
      rw [← Option.some.inj hformat, timestampToSeconds_two hdate (by omega) hletter hcolon] at hread
      have hsame := ofNat_inj (Option.some.inj hread)
      omega
  · rw [secondsToTimestamp_none hmax] at hformat
    cases hformat

/-- **Timestamps are faithful for less than a day**, and for no other numbers. -/
theorem faithful_iff_within_day (m n : Nat) : Faithful m n ↔ m < 86400 ∧ n < 86400 := by
  constructor
  · intro h
    exact ⟨(roundTrips_iff m).mp h.first, (roundTrips_iff n).mp h.second⟩
  · rintro ⟨hm, hn⟩
    obtain ⟨t, hformat, hread⟩ := (roundTrips_iff m).mpr hm
    obtain ⟨t', hformat', hread'⟩ := (roundTrips_iff n).mpr hn
    refine ⟨⟨t, hformat, hread⟩, ⟨t', hformat', hread'⟩, fun hne hsame => hne ?_⟩
    rw [hformat, hformat'] at hsame
    rw [Option.some.inj hsame, hread'] at hread
    exact (ofNat_inj (Option.some.inj hread)).symm

/-- **A whole day is shown as no time at all.** -/
theorem day_not_shown : ¬ ∀ m n : Nat, Faithful m n := by
  intro h
  have hshown : secondsToTimestamp (86400 : Nat) = some "00:00:00" := by decide +kernel
  have hread : timestampToSeconds "00:00:00" = some (.ofNat 0) := by decide +kernel
  obtain ⟨timestamp, hformat, hsame⟩ := (h 0 86400).second
  rw [hshown] at hformat
  rw [← Option.some.inj hformat, hread] at hsame
  exact absurd (ofNat_inj (Option.some.inj hsame)) (by decide)

/-- Over an hour, and at the end of the year 9999. -/
example : secondsToTimestamp 5400 = some "01:30:00" ∧
    secondsToTimestamp 253402300800 = some "01T00:00" := by
  decide +kernel

end OpenTogetherTube.Client.Timestamps
