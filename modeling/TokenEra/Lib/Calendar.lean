import TokenEra.Lib.Int64

/-!
# Civil dates and time zones

Day numbers count from 1970-01-01 and instants are Unix seconds. `civilFromDays` and
`daysFromCivil` convert between day numbers and dates of the proleptic Gregorian calendar; a month
outside `1..12` or a day outside its month is normalized the way Go's `time.Date` does it. The year
starts in March inside both, so that the leap day is the last day of its year.

A `Location` is what the zone database answers: for every instant the offset in use and the interval
it is in use for. `Location.resolve` is Go's search for the instant of a wall-clock reading, and
`date` and `addDate` are `time.Date` and `Time.AddDate` on top of it. A zone in which some local
midnight is skipped or repeated gives surprising answers there; `Location.Regular` excludes that,
and every fixed offset is regular (`fixed_regular`).

A duration is a number of nanoseconds in an `int64`, so a product of a count and a unit wraps around
(`duration`).
-/

namespace TokenEra.Lib.Calendar

/-! ### The 400-year era -/

/-- Days of an era before its year `yoe`. -/
def dayOfEra (yoe : Int) : Int := 365 * yoe + yoe / 4 - yoe / 100

def centuryOf (doe : Int) : Int := min (doe / 36524) 3

def quadOf (doe : Int) : Int := (doe - 36524 * centuryOf doe) / 1461

def yearOfQuad (doe : Int) : Int := min ((doe - 36524 * centuryOf doe - 1461 * quadOf doe) / 365) 3

/-- The year of the era that its day `doe` belongs to: centuries of 36524 days, cycles of 1461,
years of 365, where the last century and the last year of a cycle have one day more. -/
def yearOfEra (doe : Int) : Int := 100 * centuryOf doe + 4 * quadOf doe + yearOfQuad doe

theorem dayOfEra_parts {c q y : Int} (hq : 0 ≤ q) (hq' : q ≤ 24) (hy : 0 ≤ y) (hy' : y ≤ 3) :
    dayOfEra (100 * c + 4 * q + y) = 36524 * c + 1461 * q + 365 * y := by
  have h4 : (100 * c + 4 * q + y) / 4 = 25 * c + q := by omega
  have h100 : (100 * c + 4 * q + y) / 100 = c := by omega
  rw [dayOfEra, h4, h100]
  ring

theorem dayOfEra_next_cycle {c q : Int} (hq : 0 ≤ q) (hq' : q ≤ 24) :
    dayOfEra (100 * c + 4 * q + 3 + 1) = 36524 * c + 1461 * (q + 1) - (if q = 24 then 1 else 0) := by
  have h4 : (100 * c + 4 * q + 3 + 1) / 4 = 25 * c + q + 1 := by omega
  have h100 : (100 * c + 4 * q + 3 + 1) / 100 = c + (if q = 24 then 1 else 0) := by
    split_ifs <;> omega
  rw [dayOfEra, h4, h100]
  split_ifs <;> omega

theorem dayOfEra_mono {a b : Int} (h : a ≤ b) : dayOfEra a ≤ dayOfEra b := by
  unfold dayOfEra
  omega

theorem yearOfEra_spec {doe : Int} (h0 : 0 ≤ doe) (h1 : doe < 146097) :
    0 ≤ yearOfEra doe ∧ yearOfEra doe ≤ 399 ∧ dayOfEra (yearOfEra doe) ≤ doe ∧
      doe < dayOfEra (yearOfEra doe + 1) + (yearOfEra doe + 1) / 400 := by
  have hc : 0 ≤ centuryOf doe ∧ centuryOf doe ≤ 3 ∧ 36524 * centuryOf doe ≤ doe ∧
      (centuryOf doe < 3 → doe < 36524 * centuryOf doe + 36524) := by
    unfold centuryOf
    omega
  have hq : 0 ≤ quadOf doe ∧ quadOf doe ≤ 24 ∧ 36524 * centuryOf doe + 1461 * quadOf doe ≤ doe ∧
      doe < 36524 * centuryOf doe + 1461 * quadOf doe + 1461 := by
    unfold quadOf
    omega
  have hy : 0 ≤ yearOfQuad doe ∧ yearOfQuad doe ≤ 3 ∧
      36524 * centuryOf doe + 1461 * quadOf doe + 365 * yearOfQuad doe ≤ doe ∧
      (yearOfQuad doe < 3 →
        doe < 36524 * centuryOf doe + 1461 * quadOf doe + 365 * yearOfQuad doe + 365) := by
    unfold yearOfQuad
    omega
  unfold yearOfEra
  generalize centuryOf doe = c at *
  generalize quadOf doe = q at *
  generalize yearOfQuad doe = y at *
  rw [dayOfEra_parts hq.1 hq.2.1 hy.1 hy.2.1]
  refine ⟨by omega, by omega, by omega, ?_⟩
  rcases lt_or_eq_of_le hy.2.1 with hlt | rfl
  · have hnext := dayOfEra_parts (c := c) hq.1 hq.2.1 (show 0 ≤ y + 1 by omega) (by omega)
    rw [← add_assoc] at hnext
    omega
  · rw [dayOfEra_next_cycle hq.1 hq.2.1]
    split_ifs <;> omega

theorem yearOfEra_unique {doe y : Int} (h0 : 0 ≤ y) (h1 : y ≤ 399) (hle : dayOfEra y ≤ doe)
    (hlt : doe < dayOfEra (y + 1) + (y + 1) / 400) : yearOfEra doe = y := by
  have hpos : 0 ≤ doe := le_trans (by unfold dayOfEra; omega) hle
  have hera : doe < 146097 := by
    have := dayOfEra_mono (show y + 1 ≤ 400 by omega)
    have h400 : dayOfEra 400 = 146096 := by decide
    omega
  obtain ⟨-, hy399, hyle, hylt⟩ := yearOfEra_spec hpos hera
  rcases lt_trichotomy (yearOfEra doe) y with h | h | h
  · have := dayOfEra_mono (show yearOfEra doe + 1 ≤ y by omega)
    omega
  · exact h
  · have := dayOfEra_mono (show y + 1 ≤ yearOfEra doe by omega)
    omega

/-! ### Dates -/

structure Civil where
  year : Int
  month : Int
  day : Int
deriving DecidableEq, Repr

/-- First day of month `mp` (March is `0`) of the March-based year `ym`. -/
def monthStart (ym mp : Int) : Int :=
  146097 * (ym / 400) + dayOfEra (ym % 400) + (153 * mp + 2) / 5 - 719468

/-- Day number of a date; the month may lie outside `1..12` and the day outside its month. -/
def daysFromCivil (year month day : Int) : Int :=
  let y := year + (month - 1) / 12
  let m := (month - 1) % 12 + 1
  monthStart (if m ≤ 2 then y - 1 else y) ((m + 9) % 12) + (day - 1)

def civilFromDays (z : Int) : Civil :=
  let doe := (z + 719468) % 146097
  let yoe := yearOfEra doe
  let doy := doe - dayOfEra yoe
  let mp := (5 * doy + 2) / 153
  let month := if mp < 10 then mp + 3 else mp - 9
  { year := 400 * ((z + 719468) / 146097) + yoe + (if month ≤ 2 then 1 else 0)
    month := month
    day := doy - (153 * mp + 2) / 5 + 1 }

/-- Day of the week, Sunday is `0`; day `0` was a Thursday. -/
def weekdayOf (z : Int) : Int := (z + 4) % 7

/-- Where day `z` sits: March-based year `ym`, month `mp`, and its first day. -/
theorem civilFromDays_spec (z : Int) :
    ∃ ym mp : Int, 0 ≤ mp ∧ mp ≤ 11 ∧
      (civilFromDays z).month = (if mp < 10 then mp + 3 else mp - 9) ∧
      (civilFromDays z).year = (if mp < 10 then ym else ym + 1) ∧
      z = monthStart ym mp + ((civilFromDays z).day - 1) ∧ 1 ≤ (civilFromDays z).day ∧
      (mp < 11 → z < monthStart ym (mp + 1)) ∧ (mp = 11 → z < monthStart (ym + 1) 0) := by
  obtain ⟨doe, hdoe⟩ : ∃ doe, doe = (z + 719468) % 146097 := ⟨_, rfl⟩
  have h0 : 0 ≤ doe := by omega
  have h1 : doe < 146097 := by omega
  obtain ⟨hy0, hy1, hle, hlt⟩ := yearOfEra_spec h0 h1
  obtain ⟨yoe, hyoe⟩ : ∃ yoe, yoe = yearOfEra doe := ⟨_, rfl⟩
  rw [← hyoe] at hy0 hy1 hle hlt
  have hlen : dayOfEra (yoe + 1) + (yoe + 1) / 400 ≤ dayOfEra yoe + 366 := by
    unfold dayOfEra
    omega
  have hdiv : (400 * ((z + 719468) / 146097) + yoe) / 400 = (z + 719468) / 146097 := by omega
  have hmod : (400 * ((z + 719468) / 146097) + yoe) % 400 = yoe := by omega
  refine ⟨400 * ((z + 719468) / 146097) + yoe, (5 * (doe - dayOfEra yoe) + 2) / 153, by omega,
    by omega, ?_, ?_, ?_, ?_, ?_, ?_⟩
  · simp only [civilFromDays, ← hdoe, ← hyoe]
  · simp only [civilFromDays, ← hdoe, ← hyoe]
    split_ifs <;> omega
  · simp only [civilFromDays, ← hdoe, ← hyoe, monthStart, hdiv, hmod]
    omega
  · simp only [civilFromDays, ← hdoe, ← hyoe]
    omega
  · intro hmp
    simp only [monthStart, hdiv, hmod]
    omega
  · intro hmp
    simp only [monthStart]
    rcases lt_or_eq_of_le hy1 with hlast | rfl
    · rw [show (400 * ((z + 719468) / 146097) + yoe + 1) / 400 = (z + 719468) / 146097 by omega,
        show (400 * ((z + 719468) / 146097) + yoe + 1) % 400 = yoe + 1 by omega]
      omega
    · rw [show (400 * ((z + 719468) / 146097) + 399 + 1) / 400 = (z + 719468) / 146097 + 1 by omega,
        show (400 * ((z + 719468) / 146097) + 399 + 1) % 400 = 0 by omega]
      have hzero : dayOfEra 0 = 0 := by decide
      omega

theorem civilFromDays_monthStart (ym mp : Int) (h0 : 0 ≤ mp) (h1 : mp ≤ 11) :
    civilFromDays (monthStart ym mp) =
      ⟨if mp < 10 then ym else ym + 1, if mp < 10 then mp + 3 else mp - 9, 1⟩ := by
  have hmod0 : 0 ≤ ym % 400 := by omega
  have hmod1 : ym % 400 ≤ 399 := by omega
  have hbelow : (153 * mp + 2) / 5 < 365 := by omega
  have hnext : dayOfEra (ym % 400) + 365 ≤ dayOfEra (ym % 400 + 1) + (ym % 400 + 1) / 400 := by
    unfold dayOfEra
    omega
  have hlast : dayOfEra (ym % 400 + 1) + (ym % 400 + 1) / 400 ≤ 146097 := by
    have := dayOfEra_mono (show ym % 400 + 1 ≤ 400 by omega)
    have h400 : dayOfEra 400 = 146096 := by decide
    omega
  have hfirst : 0 ≤ dayOfEra (ym % 400) := by
    unfold dayOfEra
    omega
  have hsum : monthStart ym mp + 719468 =
      146097 * (ym / 400) + (dayOfEra (ym % 400) + (153 * mp + 2) / 5) := by
    unfold monthStart
    ring
  have hdiv : (monthStart ym mp + 719468) / 146097 = ym / 400 := by omega
  have hrem : (monthStart ym mp + 719468) % 146097 = dayOfEra (ym % 400) + (153 * mp + 2) / 5 := by
    omega
  have hyear : yearOfEra (dayOfEra (ym % 400) + (153 * mp + 2) / 5) = ym % 400 :=
    yearOfEra_unique hmod0 hmod1 (by omega) (by omega)
  have hmonth : (5 * ((153 * mp + 2) / 5) + 2) / 153 = mp := by omega
  simp only [civilFromDays, hdiv, hrem, hyear, add_sub_cancel_left, hmonth, Civil.mk.injEq]
  refine ⟨?_, trivial, by omega⟩
  split_ifs <;> omega

theorem daysFromCivil_monthStart (ym mp day : Int) (h0 : 0 ≤ mp) (h1 : mp ≤ 11) :
    daysFromCivil (if mp < 10 then ym else ym + 1) (if mp < 10 then mp + 3 else mp - 9) day =
      monthStart ym mp + (day - 1) := by
  simp only [daysFromCivil]
  rw [show (if ((if mp < 10 then mp + 3 else mp - 9) - 1) % 12 + 1 ≤ 2 then _ else _) = ym by
      split_ifs <;> omega,
    show (((if mp < 10 then mp + 3 else mp - 9) - 1) % 12 + 1 + 9) % 12 = mp by split_ifs <;> omega]

theorem daysFromCivil_civilFromDays (z : Int) :
    daysFromCivil (civilFromDays z).year (civilFromDays z).month (civilFromDays z).day = z := by
  obtain ⟨ym, mp, h0, h1, hm, hy, hz, -, -, -⟩ := civilFromDays_spec z
  rw [hm, hy, daysFromCivil_monthStart ym mp _ h0 h1]
  exact hz.symm

theorem daysFromCivil_add_day (year month day k : Int) :
    daysFromCivil year month (day + k) = daysFromCivil year month day + k := by
  simp only [daysFromCivil]
  ring

theorem lt_daysFromCivil_next_month (z : Int) :
    z < daysFromCivil (civilFromDays z).year ((civilFromDays z).month + 1) 1 := by
  obtain ⟨ym, mp, h0, h1, hm, hy, -, -, hnext, hlast⟩ := civilFromDays_spec z
  rw [hm, hy]
  simp only [daysFromCivil, sub_self, add_zero]
  by_cases hmp : mp = 11
  · subst hmp
    norm_num
    exact hlast rfl
  · rw [show (if ((if mp < 10 then mp + 3 else mp - 9) + 1 - 1) % 12 + 1 ≤ 2 then _ else _) = ym by
        split_ifs <;> omega,
      show (((if mp < 10 then mp + 3 else mp - 9) + 1 - 1) % 12 + 1 + 9) % 12 = mp + 1 by
        split_ifs <;> omega]
    exact hnext (by omega)

theorem civilFromDays_first (z : Int) :
    civilFromDays (daysFromCivil (civilFromDays z).year (civilFromDays z).month 1) =
      ⟨(civilFromDays z).year, (civilFromDays z).month, 1⟩ := by
  obtain ⟨ym, mp, h0, h1, hm, hy, -, -, -, -⟩ := civilFromDays_spec z
  rw [hm, hy, daysFromCivil_monthStart ym mp 1 h0 h1, sub_self, add_zero,
    civilFromDays_monthStart ym mp h0 h1]

example : civilFromDays 19782 = ⟨2024, 2, 29⟩ ∧ daysFromCivil 2023 14 29 = 19782 := by decide

/-! ### Durations -/

/-- `time.Duration(count) * unit`, the unit in nanoseconds. -/
def duration (count unit : Int) : Int := wrap64 (count * unit)

/-- `Time.Add` on an instant without nanoseconds, read back in seconds. -/
def addDuration (t d : Int) : Int := t + d / 10 ^ 9

theorem addDuration_seconds {t n : Int} (h : -2 ^ 63 ≤ n * 10 ^ 9) (h' : n * 10 ^ 9 < 2 ^ 63) :
    addDuration t (duration n (10 ^ 9)) = t + n := by
  rw [addDuration, duration, wrap64_of_fits h h']
  omega

/-! ### Locations -/

/-- An offset east of UTC in seconds and the instants `start ≤ t < stop` it is in use for. -/
structure Zone where
  offset : Int
  start : Int
  stop : Int

structure Location where
  lookup : Int → Zone

namespace Location

variable (loc : Location)

/-- The wall-clock reading at an instant, as seconds since 1970-01-01 00:00 on that clock. -/
def wall (t : Int) : Int := t + (loc.lookup t).offset

/-- The instant of a wall-clock reading. The zone is first looked up as if the reading were UTC, and
again at the instant found when that zone is not in use there. -/
def resolve (w : Int) : Int :=
  let zone := loc.lookup w
  if zone.offset = 0 then w
  else
    let utc := w - zone.offset
    if utc < zone.start ∨ zone.stop ≤ utc then w - (loc.lookup utc).offset else utc

def dayNumber (t : Int) : Int := loc.wall t / 86400

def civil (t : Int) : Civil := civilFromDays (loc.dayNumber t)

def weekday (t : Int) : Int := weekdayOf (loc.dayNumber t)

/-- Seconds since midnight on the wall clock. -/
def clock (t : Int) : Int := loc.wall t % 86400

/-- `time.Date`, the time of day given in seconds. -/
def date (year month day seconds : Int) : Int :=
  loc.resolve (86400 * daysFromCivil year month day + seconds)

/-- `Time.AddDate`. -/
def addDate (t years months days : Int) : Int :=
  loc.date ((loc.civil t).year + years) ((loc.civil t).month + months) ((loc.civil t).day + days)
    (loc.clock t)

/-- `time.FixedZone`. -/
def fixed (offset : Int) : Location := ⟨fun _ => ⟨offset, -2 ^ 63, 2 ^ 63 - 1⟩⟩

def monthDay (t : Int) : Int := daysFromCivil (loc.civil t).year (loc.civil t).month 1

/-- From the months of the instants after `0` on, no local midnight is skipped or repeated. -/
structure Regular : Prop where
  midnight : ∀ t d, 0 < t → loc.monthDay t ≤ d → loc.wall (loc.resolve (86400 * d)) = 86400 * d
  before : ∀ t d, 0 < t → loc.wall t < 86400 * d → t < loc.resolve (86400 * d)

theorem fixed_resolve (offset w : Int) : (fixed offset).resolve w = w - offset := by
  simp only [resolve, fixed]
  split_ifs <;> omega

theorem fixed_regular (offset : Int) : (fixed offset).Regular where
  midnight _ d _ _ := by
    rw [fixed_resolve]
    simp [wall, fixed]
  before t d _ h := by
    rw [fixed_resolve]
    simp only [wall, fixed] at h
    omega

def dayStart (d : Int) : Int := loc.resolve (86400 * d)

variable {loc} {t d : Int}

theorem monthDay_le (t : Int) : loc.monthDay t ≤ loc.dayNumber t := by
  obtain ⟨-, -, -, -, -, -, -, hday, -⟩ := civilFromDays_spec (loc.dayNumber t)
  have hsame := daysFromCivil_civilFromDays (loc.dayNumber t)
  have hfirst := daysFromCivil_add_day (loc.civil t).year (loc.civil t).month 1
    ((loc.civil t).day - 1)
  rw [add_sub_cancel] at hfirst
  simp only [monthDay, civil] at hfirst ⊢
  omega

theorem Regular.dayNumber_dayStart (h : loc.Regular) (ht : 0 < t) (hd : loc.monthDay t ≤ d) :
    loc.dayNumber (loc.dayStart d) = d := by
  simp only [dayNumber, dayStart, h.midnight t d ht hd]
  omega

theorem Regular.clock_dayStart (h : loc.Regular) (ht : 0 < t) (hd : loc.monthDay t ≤ d) :
    loc.clock (loc.dayStart d) = 0 := by
  simp only [clock, dayStart, h.midnight t d ht hd]
  omega

theorem Regular.lt_dayStart (h : loc.Regular) (ht : 0 < t) (hd : loc.dayNumber t < d) :
    t < loc.dayStart d := by
  refine h.before t d ht ?_
  simp only [dayNumber] at hd
  omega

theorem date_today (t : Int) :
    loc.date (loc.civil t).year (loc.civil t).month (loc.civil t).day 0 =
      loc.dayStart (loc.dayNumber t) := by
  simp only [date, civil, daysFromCivil_civilFromDays, add_zero, dayStart]

theorem date_first (t : Int) :
    loc.date (loc.civil t).year (loc.civil t).month 1 0 = loc.dayStart (loc.monthDay t) := by
  simp only [date, add_zero, dayStart, monthDay]

/-- The instant whose reading is `k` days ahead. -/
theorem addDate_days (t k : Int) : loc.addDate t 0 0 k = loc.resolve (loc.wall t + 86400 * k) := by
  rw [addDate, date]
  simp only [civil, clock, add_zero, daysFromCivil_add_day, daysFromCivil_civilFromDays, dayNumber]
  congr 1
  omega

/-- A month after the first of a month is the first of the next one. -/
theorem Regular.addDate_month (h : loc.Regular) (ht : 0 < t) :
    loc.addDate (loc.dayStart (loc.monthDay t)) 0 1 0 =
      loc.dayStart (daysFromCivil (loc.civil t).year ((loc.civil t).month + 1) 1) := by
  have hcivil : loc.civil (loc.dayStart (loc.monthDay t)) =
      ⟨(loc.civil t).year, (loc.civil t).month, 1⟩ := by
    rw [civil, h.dayNumber_dayStart ht le_rfl]
    exact civilFromDays_first (loc.dayNumber t)
  rw [addDate, hcivil, h.clock_dayStart ht le_rfl]
  simp only [date, add_zero, dayStart]

end Location

end TokenEra.Lib.Calendar
