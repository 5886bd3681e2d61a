import Mathlib

/-!
# The proleptic Gregorian calendar

Days are counted from 1 January 1970 and a date is a year, a month and a day of the month, as
ECMAScript has them for its time values. `civilOfDay` and `dayOfCivil` are inverse
(`dayOfCivil_civilOfDay`, `civilOfDay_first` for the first day of a month), and the days of a month
are an interval (`inMonth_iff`).
-/
namespace KNex.Core.CivilCalendar

/-- `DayFromYear`: the number of the first day of the year. -/
def dayFromYear (y : Int) : Int :=
  365 * (y - 1970) + (y - 1969) / 4 - (y - 1901) / 100 + (y - 1601) / 400

def isLeap (y : Int) : Bool := y % 4 = 0 && (y % 100 ≠ 0 || y % 400 = 0)

/-- The days of the year before the first of the month. -/
def daysBeforeMonth (y m : Int) : Int :=
  (367 * m - 362) / 12 - (if m ≤ 2 then 0 else if isLeap y then 1 else 2)

/-- `MakeDay` of a month from 1 to 12. -/
def dayOfCivil (y m d : Int) : Int := dayFromYear y + daysBeforeMonth y m + (d - 1)

/-- `YearFromTime` of a day: the estimate from the mean length of a year is off by one at most. -/
def yearOfDay (n : Int) : Int :=
  let y := 1970 + 400 * n / 146097
  if n < dayFromYear y then y - 1 else if dayFromYear (y + 1) ≤ n then y + 1 else y

/-- `MonthFromTime` of the day `doy` of the year `y`, counted from zero. -/
def monthOfYearDay (y doy : Int) : Int :=
  let leap := if isLeap y then 1 else 0
  (12 * (doy + if doy < 59 + leap then 0 else 2 - leap) + 373) / 367

structure Civil where
  year : Int
  month : Int
  day : Int
  deriving DecidableEq, Repr

def civilOfDay (n : Int) : Civil :=
  let y := yearOfDay n
  let doy := n - dayFromYear y
  let m := monthOfYearDay y doy
  { year := y, month := m, day := doy - daysBeforeMonth y m + 1 }

example : civilOfDay 19782 = ⟨2024, 2, 29⟩ := by decide
example : civilOfDay (-1) = ⟨1969, 12, 31⟩ := by decide

/-! ## Years -/

theorem isLeap_iff (y : Int) : isLeap y = true ↔ y % 4 = 0 ∧ (y % 100 ≠ 0 ∨ y % 400 = 0) := by
  simp [isLeap]

theorem dayFromYear_succ (y : Int) :
    dayFromYear (y + 1) = dayFromYear y + if isLeap y then 366 else 365 := by
  unfold dayFromYear
  by_cases h : isLeap y = true
  · rw [if_pos h]
    rw [isLeap_iff] at h
    omega
  · rw [if_neg h]
    rw [isLeap_iff] at h
    omega

theorem dayFromYear_mono {y y' : Int} (h : y ≤ y') : dayFromYear y ≤ dayFromYear y' := by
  unfold dayFromYear
  omega

theorem yearOfDay_bounds (n : Int) :
    dayFromYear (yearOfDay n) ≤ n ∧ n < dayFromYear (yearOfDay n + 1) := by
  unfold yearOfDay
  dsimp only
  split
  · rename_i h
    refine ⟨?_, by rwa [sub_add_cancel]⟩
    unfold dayFromYear
    omega
  · rename_i h
    split
    · rename_i h'
      refine ⟨h', ?_⟩
      unfold dayFromYear
      omega
    · omega

/-! ## Months -/

theorem daysBeforeMonth_one (y : Int) : daysBeforeMonth y 1 = 0 := rfl

theorem daysBeforeMonth_mono {y m m' : Int} (h : m < m') :
    daysBeforeMonth y m + 28 ≤ daysBeforeMonth y m' := by
  unfold daysBeforeMonth
  cases isLeap y
  · simp only [Bool.false_eq_true, if_false]
    split <;> split <;> omega
  · simp only [if_true]
    split <;> split <;> omega

theorem monthOfYearDay_bounds {y doy : Int} (h₀ : 0 ≤ doy)
    (h : doy < if isLeap y then 366 else 365) :
    1 ≤ monthOfYearDay y doy ∧ monthOfYearDay y doy ≤ 12 ∧
      daysBeforeMonth y (monthOfYearDay y doy) ≤ doy ∧
      (monthOfYearDay y doy < 12 → doy < daysBeforeMonth y (monthOfYearDay y doy + 1)) ∧
      doy < daysBeforeMonth y (monthOfYearDay y doy) + 31 := by
  obtain ⟨m, hm⟩ : ∃ m, m = monthOfYearDay y doy := ⟨_, rfl⟩
  rw [← hm]
  unfold monthOfYearDay at hm
  unfold daysBeforeMonth
  cases hleap : isLeap y
  · rw [hleap] at h hm
    simp only [Bool.false_eq_true, if_false] at h hm ⊢
    split at hm <;> refine ⟨by omega, by omega, ?_, ?_, ?_⟩ <;> split <;> omega
  · rw [hleap] at h hm
    simp only [if_true] at h hm ⊢
    split at hm <;> refine ⟨by omega, by omega, ?_, ?_, ?_⟩ <;> split <;> omega

/-- The first day of the month after `m` of `y`. -/
def nextMonthStart (y m : Int) : Int :=
  if m = 12 then dayOfCivil (y + 1) 1 1 else dayOfCivil y (m + 1) 1

theorem dayOfCivil_first (y m : Int) : dayOfCivil y m 1 = dayFromYear y + daysBeforeMonth y m := by
  unfold dayOfCivil
  omega

theorem nextMonthStart_le {y m : Int} (h₁ : 1 ≤ m) (h₁₂ : m ≤ 12) :
    dayOfCivil y m 1 + 28 ≤ nextMonthStart y m ∧ nextMonthStart y m ≤ dayFromYear (y + 1) := by
  have hyear := dayFromYear_succ y
  unfold nextMonthStart
  by_cases hm : m = 12
  · subst hm
    rw [if_pos rfl, dayOfCivil_first, dayOfCivil_first, daysBeforeMonth_one]
    unfold daysBeforeMonth
    cases hleap : isLeap y
    · rw [hleap, if_neg (by decide)] at hyear
      norm_num
      omega
    · rw [hleap, if_pos rfl] at hyear
      norm_num
      omega
  · rw [if_neg hm, dayOfCivil_first, dayOfCivil_first]
    have hlast := daysBeforeMonth_mono (y := y) (lt_add_one m)
    refine ⟨by omega, ?_⟩
    unfold daysBeforeMonth
    cases hleap : isLeap y
    · rw [hleap, if_neg (by decide)] at hyear
      simp only [Bool.false_eq_true, if_false]
      split <;> omega
    · rw [hleap, if_pos rfl] at hyear
      simp only [if_true]
      split <;> omega

/-! ## Dates -/

theorem civilOfDay_bounds (n : Int) :
    1 ≤ (civilOfDay n).month ∧ (civilOfDay n).month ≤ 12 ∧
      1 ≤ (civilOfDay n).day ∧ (civilOfDay n).day ≤ 31 ∧
      dayOfCivil (civilOfDay n).year (civilOfDay n).month 1 ≤ n ∧
      n < nextMonthStart (civilOfDay n).year (civilOfDay n).month := by
  obtain ⟨hlow, hhigh⟩ := yearOfDay_bounds n
  rw [dayFromYear_succ] at hhigh
  obtain ⟨h₁, h₁₂, hstart, hnext, hlength⟩ :=
    monthOfYearDay_bounds (y := yearOfDay n)
      (show 0 ≤ n - dayFromYear (yearOfDay n) by omega)
      (by split at hhigh <;> simp_all <;> omega)
  unfold civilOfDay nextMonthStart
  dsimp only
  rw [dayOfCivil_first, dayOfCivil_first, dayOfCivil_first, daysBeforeMonth_one]
  refine ⟨h₁, h₁₂, by omega, by omega, by omega, ?_⟩
  split
  · rw [dayFromYear_succ]
    omega
  · have := hnext (by omega)
    omega

theorem dayOfCivil_civilOfDay (n : Int) :
    dayOfCivil (civilOfDay n).year (civilOfDay n).month (civilOfDay n).day = n := by
  unfold civilOfDay dayOfCivil
  dsimp only
  omega

/-- **The days of a month are an interval.** -/
theorem inMonth_iff {y m n : Int} (h₁ : 1 ≤ m) (h₁₂ : m ≤ 12) :
    (civilOfDay n).year = y ∧ (civilOfDay n).month = m ↔
      dayOfCivil y m 1 ≤ n ∧ n < nextMonthStart y m := by
  obtain ⟨hm₁, hm₁₂, -, -, hlow, hhigh⟩ := civilOfDay_bounds n
  constructor
  · rintro ⟨rfl, rfl⟩
    exact ⟨hlow, hhigh⟩
  · intro ⟨hlow', hhigh'⟩
    have hnext := (nextMonthStart_le (y := y) h₁ h₁₂).2
    have hnext' := (nextMonthStart_le (y := (civilOfDay n).year) hm₁ hm₁₂).2
    rw [dayOfCivil_first] at hlow hlow'
    have hbefore : ∀ y m, 1 ≤ m → m ≤ 12 → 0 ≤ daysBeforeMonth y m := by
      intro y m _ _
      unfold daysBeforeMonth
      split <;> omega
    have hb := hbefore y m h₁ h₁₂
    have hb' := hbefore (civilOfDay n).year (civilOfDay n).month hm₁ hm₁₂
    have hyear : (civilOfDay n).year = y := by
      rcases lt_trichotomy (civilOfDay n).year y with hlt | heq | hgt
      · have := dayFromYear_mono (show (civilOfDay n).year + 1 ≤ y by omega)
        omega
      · exact heq
      · have := dayFromYear_mono (show y + 1 ≤ (civilOfDay n).year by omega)
        omega
    refine ⟨hyear, ?_⟩
    rw [hyear] at hlow hhigh
    unfold nextMonthStart at hhigh hhigh'
    rcases lt_trichotomy (civilOfDay n).month m with hlt | heq | hgt
    · rw [if_neg (by omega), dayOfCivil_first] at hhigh
      rcases eq_or_lt_of_le (show (civilOfDay n).month + 1 ≤ m by omega) with hs | hs
      · rw [hs] at hhigh
        omega
      · have := daysBeforeMonth_mono (y := y) hs
        omega
    · exact heq
    · rw [if_neg (by omega), dayOfCivil_first] at hhigh'
      rcases eq_or_lt_of_le (show m + 1 ≤ (civilOfDay n).month by omega) with hs | hs
      · rw [hs] at hhigh'
        omega
      · have := daysBeforeMonth_mono (y := y) hs
        omega

theorem civilOfDay_first {y m : Int} (h₁ : 1 ≤ m) (h₁₂ : m ≤ 12) :
    civilOfDay (dayOfCivil y m 1) = ⟨y, m, 1⟩ := by
  have hnext := (nextMonthStart_le (y := y) h₁ h₁₂).1
  obtain ⟨hy, hm⟩ := (inMonth_iff (n := dayOfCivil y m 1) h₁ h₁₂).mpr ⟨le_rfl, by omega⟩
  have hself := dayOfCivil_civilOfDay (dayOfCivil y m 1)
  rw [hy, hm] at hself
  have hd : (civilOfDay (dayOfCivil y m 1)).day = 1 := by
    unfold dayOfCivil at hself ⊢
    omega
  calc civilOfDay (dayOfCivil y m 1)
      = ⟨(civilOfDay (dayOfCivil y m 1)).year, (civilOfDay (dayOfCivil y m 1)).month,
          (civilOfDay (dayOfCivil y m 1)).day⟩ := rfl
    _ = ⟨y, m, 1⟩ := by rw [hy, hm, hd]

end KNex.Core.CivilCalendar
