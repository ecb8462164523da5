import LinuxMonitor.Library.Number

/-!
# `localtime` and `strftime`

The broken-down time of the Gregorian calendar, from seconds since the epoch and the
offset of the local zone, and the two formats in which it is printed.

The days are counted in eras of 400 years that begin in March, so that a leap day is the
last day of its year.

* `strfHour_eq`: the time truncated to the hour is printed as the start of its hour is.
* `civilDays_civilDate`: **the date of a day determines the day**, and with the clock the
  time (`localSeconds_brokenDown`).
* `readSeconds_strfSeconds`: a printed time of a four-digit year is read back.
-/

set_option autoImplicit false

namespace LinuxMonitor.Library

/-- `struct tm`, with the full year and the month from one on. -/
structure Tm where
  year : ℤ
  month : ℕ
  day : ℕ
  hour : ℕ
  min : ℕ
  sec : ℕ
deriving DecidableEq, Repr

/-- The date of a day, counted from the first of January 1970. -/
def civilDate (days : ℤ) : ℤ × ℕ × ℕ :=
  let z := days + 719468
  let era := z.fdiv 146097
  let dayOfEra := (z.fmod 146097).toNat
  let yearOfEra := (dayOfEra - dayOfEra / 1460 + dayOfEra / 36524 - dayOfEra / 146096) / 365
  let dayOfYear := dayOfEra - (365 * yearOfEra + yearOfEra / 4 - yearOfEra / 100)
  let shifted := (5 * dayOfYear + 2) / 153
  let day := dayOfYear - (153 * shifted + 2) / 5 + 1
  let month := if shifted < 10 then shifted + 3 else shifted - 9
  let year := yearOfEra + era * 400 + if month ≤ 2 then 1 else 0
  (year, month, day)

/-- The broken-down time of a number of local seconds. -/
def brokenDown (localSeconds : ℤ) : Tm :=
  let (year, month, day) := civilDate (localSeconds.fdiv 86400)
  let second := (localSeconds.fmod 86400).toNat
  ⟨year, month, day, second / 3600, second / 60 % 60, second % 60⟩

example : brokenDown 951827696 = ⟨2000, 2, 29, 12, 34, 56⟩ := by decide

/-- `%Y-%m-%d` and a blank. -/
def strfDate (tm : Tm) : Text :=
  signedDecimal tm.year ++ '-' :: (padZero 2 (decimal tm.month) ++ '-' ::
    (padZero 2 (decimal tm.day) ++ [' ']))

/-- `strftime` with `%Y-%m-%d %H:%M:%S` -/
def strfSeconds (tm : Tm) : Text :=
  strfDate tm ++ (padZero 2 (decimal tm.hour) ++ ':' :: (padZero 2 (decimal tm.min) ++
    ':' :: padZero 2 (decimal tm.sec)))

/-- `strftime` with `%Y-%m-%d %H:00:00` -/
def strfHour (tm : Tm) : Text := strfDate tm ++ (padZero 2 (decimal tm.hour) ++ ":00:00".toList)

/-- The whole hour at or before a time. -/
def hourStart (time : ℤ) : ℤ := time - time % 3600

theorem hourStart_spec (time : ℤ) :
    3600 ∣ hourStart time ∧ hourStart time ≤ time ∧ time < hourStart time + 3600 := by
  rw [hourStart]
  omega

/-- **A truncated time is the time of the whole hour.** -/
theorem strfHour_eq (time : ℤ) :
    strfHour (brokenDown time) = strfSeconds (brokenDown (hourStart time)) := by
  have day : (hourStart time).fdiv 86400 = time.fdiv 86400 := by
    rw [hourStart, Int.fdiv_eq_ediv_of_nonneg _ (by decide),
      Int.fdiv_eq_ediv_of_nonneg _ (by decide)]
    omega
  have second : ((hourStart time).fmod 86400).toNat =
      (time.fmod 86400).toNat / 3600 * 3600 := by
    rw [hourStart, Int.fmod_eq_emod_of_nonneg _ (by decide),
      Int.fmod_eq_emod_of_nonneg _ (by decide)]
    omega
  have whole : ∀ hours : ℕ, hours * 3600 / 3600 = hours ∧ hours * 3600 / 60 % 60 = 0 ∧
      hours * 3600 % 60 = 0 := by
    intro hours
    omega
  obtain ⟨hour, min, sec⟩ := whole ((time.fmod 86400).toNat / 3600)
  simp only [brokenDown, strfHour, strfSeconds, strfDate, day, second, hour, min, sec]
  rfl

theorem plain_strfDate (tm : Tm) : Plain (strfDate tm) := by
  have day := (plain_padZero 2 (plain_decimal tm.day)).append (t := [' ']) (by decide)
  have month := (plain_padZero 2 (plain_decimal tm.month)).append
    (day.cons (c := '-') (by decide))
  exact (plain_signedDecimal tm.year).append (month.cons (by decide))

theorem plain_strfSeconds (tm : Tm) : Plain (strfSeconds tm) := by
  have sec := (plain_padZero 2 (plain_decimal tm.sec)).cons (c := ':') (by decide)
  have min := ((plain_padZero 2 (plain_decimal tm.min)).append sec).cons (c := ':') (by decide)
  exact (plain_strfDate tm).append ((plain_padZero 2 (plain_decimal tm.hour)).append min)

/-! ## The date back to the day -/

/-- The day of a date, counted from the first of January 1970. -/
def civilDays (year : ℤ) (month day : ℕ) : ℤ :=
  let y := if month ≤ 2 then year - 1 else year
  let yearOfEra := (y.fmod 400).toNat
  let shifted := if month ≤ 2 then month + 9 else month - 3
  let dayOfYear := (153 * shifted + 2) / 5 + day - 1
  let dayOfEra := 365 * yearOfEra + yearOfEra / 4 - yearOfEra / 100 + dayOfYear
  y.fdiv 400 * 146097 + dayOfEra - 719468

/-- The number of local seconds of a broken-down time. -/
def localSeconds (tm : Tm) : ℤ :=
  86400 * civilDays tm.year tm.month tm.day + (3600 * tm.hour + 60 * tm.min + tm.sec : ℕ)

/-- A day of an era lies in a century, a cycle of four years and a year of these.  Only the
last day of a cycle is the day 365 of its year, and only the last century's last cycle ends
with it. -/
structure InCycles (dayOfEra century cycle year day : ℕ) : Prop where
  century_lt : century < 4
  cycle_lt : cycle < 25
  year_lt : year < 4
  day_lt : day < 366
  leap : day = 365 → year = 3 ∧ (cycle < 24 ∨ century = 3)
  sum : dayOfEra = 36524 * century + 1461 * cycle + 365 * year + day

theorem exists_inCycles {dayOfEra : ℕ} (inside : dayOfEra < 146097) :
    ∃ century cycle year day, InCycles dayOfEra century cycle year day := by
  obtain ⟨century, centuryEq⟩ : ∃ c, c = min (dayOfEra / 36524) 3 := ⟨_, rfl⟩
  obtain ⟨rest, restEq⟩ : ∃ r, r = dayOfEra - 36524 * century := ⟨_, rfl⟩
  obtain ⟨year, yearEq⟩ : ∃ y, y = min (rest % 1461 / 365) 3 := ⟨_, rfl⟩
  have whole := Nat.div_add_mod rest 1461
  have short := Nat.mod_lt rest (y := 1461) (by decide)
  refine ⟨century, rest / 1461, year, rest % 1461 - 365 * year, ?_, ?_, ?_, ?_, ?_, ?_⟩
  all_goals generalize rest / 1461 = cycle at *; generalize rest % 1461 = part at *; omega

namespace InCycles

variable {dayOfEra century cycle year day : ℕ} (inside : InCycles dayOfEra century cycle year day)

include inside

/-- The corrections for the leap days give the year of the era. -/
theorem yearOfEra_eq : (dayOfEra - dayOfEra / 1460 + dayOfEra / 36524 - dayOfEra / 146096) / 365 =
    100 * century + 4 * cycle + year := by
  obtain ⟨_, _, _, _, leap, sum⟩ := inside
  have centuries : dayOfEra / 36524 - dayOfEra / 146096 = century ∧
      dayOfEra / 146096 ≤ dayOfEra / 36524 := by
    omega
  have small : dayOfEra / 1460 ≤ dayOfEra := Nat.div_le_self _ _
  -- the leap days before the cycle's end let the count of cycles run ahead by one
  have cycles : (dayOfEra / 1460 = 25 * century + cycle ∧ day < 365) ∨
      (dayOfEra / 1460 = 25 * century + cycle + 1 ∧ 0 < day) := by
    rcases Nat.lt_or_ge (24 * century + cycle + 365 * year + day) 1460 with early | late
    · left
      omega
    · right
      omega
  rcases cycles with ⟨count, room⟩ | ⟨count, room⟩
  · have days : dayOfEra - dayOfEra / 1460 + dayOfEra / 36524 - dayOfEra / 146096 =
        365 * (100 * century + 4 * cycle + year) + day := by
      omega
    rw [days]
    omega
  · have days : dayOfEra - dayOfEra / 1460 + dayOfEra / 36524 - dayOfEra / 146096 =
        365 * (100 * century + 4 * cycle + year) + (day - 1) := by
      omega
    rw [days]
    omega

/-- The days of an era before a year. -/
theorem yearStart_eq : 365 * (100 * century + 4 * cycle + year) +
      (100 * century + 4 * cycle + year) / 4 - (100 * century + 4 * cycle + year) / 100 + day =
    dayOfEra := by
  obtain ⟨_, _, _, _, _, sum⟩ := inside
  omega

end InCycles

/-- A day of a year is found again from its month and the day of the month. -/
theorem dayOfYear_eq {dayOfYear : ℕ} (inside : dayOfYear < 366) :
    let shifted := (5 * dayOfYear + 2) / 153
    shifted < 12 ∧
      (153 * shifted + 2) / 5 + (dayOfYear - (153 * shifted + 2) / 5 + 1) - 1 = dayOfYear := by
  intro shifted
  omega

/-- January and February belong to the year that began in the March before. -/
theorem civilDays_shifted {yearOfEra shifted : ℕ} (leap : yearOfEra < 400) (months : shifted < 12)
    (era : ℤ) (day : ℕ) :
    let month := if shifted < 10 then shifted + 3 else shifted - 9
    civilDays (yearOfEra + era * 400 + if month ≤ 2 then 1 else 0) month day =
      era * 146097 + ((365 * yearOfEra + yearOfEra / 4 - yearOfEra / 100 +
        ((153 * shifted + 2) / 5 + day - 1) : ℕ) : ℤ) - 719468 := by
  have eraOf : (yearOfEra + era * 400 : ℤ).fdiv 400 = era := by
    rw [Int.fdiv_eq_ediv_of_nonneg _ (by decide)]
    omega
  have yearOf : ((yearOfEra + era * 400 : ℤ).fmod 400).toNat = yearOfEra := by
    rw [Int.fmod_eq_emod_of_nonneg _ (by decide)]
    omega
  intro month
  have marchYear : (if month ≤ 2 then (yearOfEra + era * 400 + if month ≤ 2 then 1 else 0 : ℤ) - 1
      else yearOfEra + era * 400 + if month ≤ 2 then 1 else 0) = yearOfEra + era * 400 := by
    split <;> omega
  have again : (if month ≤ 2 then month + 9 else month - 3) = shifted := by
    rcases Nat.lt_or_ge shifted 10 with early | late
    · have later : month = shifted + 3 := if_pos early
      rw [if_neg (by omega)]
      omega
    · have sooner : month = shifted - 9 := if_neg (Nat.not_lt.mpr late)
      rw [if_pos (by omega)]
      omega
  rw [civilDays, marchYear, again, eraOf, yearOf]

/-- **A date is the date of one day only.** -/
theorem civilDays_civilDate (days : ℤ) :
    civilDays (civilDate days).1 (civilDate days).2.1 (civilDate days).2.2 = days := by
  rw [civilDate, Int.fmod_eq_emod_of_nonneg _ (by decide),
    Int.fdiv_eq_ediv_of_nonneg _ (by decide)]
  obtain ⟨dayOfEra, dayEq⟩ : ∃ d, d = ((days + 719468) % 146097).toNat := ⟨_, rfl⟩
  have inEra : dayOfEra < 146097 := by omega
  obtain ⟨century, cycle, year, day, inside⟩ := exists_inCycles inEra
  have yearOfEra := inside.yearOfEra_eq
  have start := inside.yearStart_eq
  have leap : 100 * century + 4 * cycle + year < 400 := by
    have := inside.century_lt
    have := inside.cycle_lt
    have := inside.year_lt
    omega
  generalize 100 * century + 4 * cycle + year = y at yearOfEra start leap
  have dayOfYear : dayOfEra - (365 * y + y / 4 - y / 100) = day := by omega
  obtain ⟨months, again⟩ := dayOfYear_eq inside.day_lt
  dsimp only
  rw [← dayEq, yearOfEra, dayOfYear]
  generalize (5 * day + 2) / 153 = shifted at months again
  rw [civilDays_shifted leap months, again, start]
  omega

theorem localSeconds_brokenDown (time : ℤ) : localSeconds (brokenDown time) = time := by
  rw [localSeconds, brokenDown, Int.fmod_eq_emod_of_nonneg _ (by decide),
    Int.fdiv_eq_ediv_of_nonneg _ (by decide)]
  dsimp only
  rw [civilDays_civilDate]
  omega

/-! ## Printed times -/

/-- The time that a text `YYYY-MM-DD hh:mm:ss` names. -/
def readSeconds (t : Text) : Option ℤ := do
  let [date, clock] := t.splitOn ' ' | none
  let [year, month, day] := date.splitOn '-' | none
  let [hour, min, sec] := clock.splitOn ':' | none
  let tm : Tm := ⟨digitsValue year, digitsValue month, digitsValue day, digitsValue hour,
    digitsValue min, digitsValue sec⟩
  if year.length = 4 ∧ (∀ n ∈ [year, month, day, hour, min, sec], IsNumeral n) ∧
      brokenDown (localSeconds tm) = tm then
    some (localSeconds tm)
  else none

theorem length_decimal_four {n : ℕ} (least : 1000 ≤ n) (most : n ≤ 9999) :
    (decimal n).length = 4 := by
  have atMost : (decimal n).length ≤ 4 :=
    (Nat.length_toDigits_le_iff (by decide) (by decide)).mpr (by omega)
  have more : ¬(decimal n).length ≤ 3 := fun short => by
    have small := (Nat.length_toDigits_le_iff (b := 10) (by decide) (by decide)).mp short
    omega
  omega

/-- The years that are printed with four digits. -/
def FourDigitYear (time : ℤ) : Prop :=
  1000 ≤ (brokenDown time).year ∧ (brokenDown time).year ≤ 9999

instance : DecidablePred FourDigitYear := fun time =>
  inferInstanceAs (Decidable (1000 ≤ (brokenDown time).year ∧ (brokenDown time).year ≤ 9999))

/-- **A printed time is read back.** -/
theorem readSeconds_strfSeconds {time : ℤ} (fourDigits : FourDigitYear time) :
    readSeconds (strfSeconds (brokenDown time)) = some time := by
  obtain ⟨least, most⟩ := fourDigits
  have again := localSeconds_brokenDown time
  generalize tmEq : brokenDown time = tm at least most again
  obtain ⟨year, month, day, hour, min, sec⟩ := tm
  change 1000 ≤ year at least
  change year ≤ 9999 at most
  obtain ⟨y, rfl⟩ := Int.eq_ofNat_of_zero_le (a := year) (by omega)
  have numeral : ∀ n, IsNumeral (padZero 2 (decimal n)) := fun n => isNumeral_padZero
  have yearNumeral := isNumeral_decimal y
  have blank : ' ' ∉ decimal y ++ '-' :: (padZero 2 (decimal month) ++ '-' ::
      padZero 2 (decimal day)) := by
    simp [yearNumeral.not_mem, (numeral month).not_mem, (numeral day).not_mem]
  have blank' : ' ' ∉ padZero 2 (decimal hour) ++ ':' :: (padZero 2 (decimal min) ++ ':' ::
      padZero 2 (decimal sec)) := by
    simp [(numeral hour).not_mem, (numeral min).not_mem, (numeral sec).not_mem]
  have text : strfSeconds ⟨y, month, day, hour, min, sec⟩ =
      (decimal y ++ '-' :: (padZero 2 (decimal month) ++ '-' :: padZero 2 (decimal day))) ++
        ' ' :: (padZero 2 (decimal hour) ++ ':' :: (padZero 2 (decimal min) ++ ':' ::
          padZero 2 (decimal sec))) := by
    simp [strfSeconds, strfDate, signedDecimal]
  rw [text, readSeconds, List.splitOn_append_cons_self_of_not_mem blank,
    List.splitOn_eq_singleton blank']
  dsimp only
  rw [List.splitOn_append_cons_self_of_not_mem (yearNumeral.not_mem rfl),
    List.splitOn_append_cons_self_of_not_mem ((numeral month).not_mem rfl),
    List.splitOn_eq_singleton ((numeral day).not_mem rfl),
    List.splitOn_append_cons_self_of_not_mem ((numeral hour).not_mem rfl),
    List.splitOn_append_cons_self_of_not_mem ((numeral min).not_mem rfl),
    List.splitOn_eq_singleton ((numeral sec).not_mem rfl)]
  dsimp only
  rw [digitsValue_decimal, digitsValue_padZero, digitsValue_padZero, digitsValue_padZero,
    digitsValue_padZero, digitsValue_padZero, again]
  refine if_pos ⟨length_decimal_four (by omega) (by omega), ?_, tmEq⟩
  simp [numeral, yearNumeral]

end LinuxMonitor.Library
