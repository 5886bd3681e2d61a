import KNex.Core.CivilCalendar
import KNex.Core.Except
import KNex.Core.JsonText
import KNex.Core.ZoneClock

/-!
# The reporting month (`modules/sales/src/contracts.ts`)

A calendar view without a range takes the month of the reporting timezone. Both ends are local
midnights, which `utcAtZonedMidnight` looks for from the instant that has the same fields in UTC, in
four attempts. Where the clock of the zone passes each midnight once the attempts suffice and the
range is the local month. A midnight that the clock skips is reported as an invalid timezone, and
where the clock is turned back over a midnight the attempts may settle on the wrong one of two
(`OrdinaryMonth` says when they do not).

Instants are milliseconds; the ISO texts of the range stand for them.
-/
namespace KNex.Sales.CalendarRange

open KNex.Core KNex.Core.JsonText KNex.Core.CivilCalendar KNex.Core.ZoneClock

/-! ## Time values -/

/-- `Date.UTC(year, month - 1, day, hour, minute, second)`; years below 100 are of the last century. -/
def dateUTC (year month day hour minute second : Int) : Int :=
  let fullYear := if 0 ≤ year ∧ year ≤ 99 then 1900 + year else year
  dayOfCivil fullYear month day * dayMs + hour * 3600000 + minute * 60000 + second * 1000

structure Parts where
  year : Int
  month : Int
  day : Int
  hour : Int
  minute : Int
  second : Int
  deriving DecidableEq, Repr

/-- What `Intl.DateTimeFormat` reports: the fields that the clock of the zone shows. -/
def formatToParts (z : Zone) (date : Int) : Parts :=
  let wall := z.wall date
  let civil := civilOfDay (wall / dayMs)
  { year := civil.year, month := civil.month, day := civil.day,
    hour := wall / 3600000 % 24, minute := wall / 60000 % 60, second := wall / 1000 % 60 }

inductive CalendarError where
  /-- `Sales reporting timezone conversion is invalid.` -/
  | conversionInvalid
  /-- `Sales reporting timezone midnight is invalid.` -/
  | midnightInvalid
  /-- `Sales reporting timezone is invalid.` -/
  | timezoneInvalid
  deriving DecidableEq, Repr

/-- mirrors modules/sales/src/contracts.ts:337-342 -/
def calendarParts (date : Int) (timezone : Zone) : Except CalendarError Parts :=
  let p := formatToParts timezone date
  if p.month < 1 ∨ p.month > 12 ∨ p.day < 1 ∨ p.day > 31 ∨ p.hour < 0 ∨ p.hour > 24 ∨ p.minute < 0 ∨
      p.minute > 59 ∨ p.second < 0 ∨ p.second > 59 then .error .conversionInvalid
  else .ok { p with hour := if p.hour = 24 then 0 else p.hour }

/-- mirrors modules/sales/src/contracts.ts:345-353, the rounds of the loop that are left -/
def midnightAttempts (year month day : Int) (timezone : Zone) (expected : Int) :
    Nat → Int → Except CalendarError Int
  | 0, _ => .error .midnightInvalid
  | attempts + 1, candidate => do
    let actual ← calendarParts candidate timezone
    let actualEpoch :=
      dateUTC actual.year actual.month actual.day actual.hour actual.minute actual.second
    let adjustment := expected - actualEpoch
    if adjustment = 0 then
      if actual.year ≠ year ∨ actual.month ≠ month ∨ actual.day ≠ day ∨ actual.hour ≠ 0 ∨
          actual.minute ≠ 0 ∨ actual.second ≠ 0 then .error .midnightInvalid
      else .ok candidate
    else midnightAttempts year month day timezone expected attempts (candidate + adjustment)

/-- mirrors modules/sales/src/contracts.ts:343-355 -/
def utcAtZonedMidnight (year month day : Int) (timezone : Zone) : Except CalendarError Int :=
  let expected := dateUTC year month day 0 0 0
  midnightAttempts year month day timezone expected 4 expected

/-- mirrors modules/sales/src/contracts.ts:356-359 -/
def calendarDaysBetween (start stop : Int) (timezone : Zone) : Except CalendarError Int := do
  let first ← calendarParts start timezone
  let last ← calendarParts stop timezone
  return (dateUTC last.year last.month last.day 0 0 0 -
    dateUTC first.year first.month first.day 0 0 0) / dayMs

/-! ## The range -/

/-- mirrors modules/sales/src/contracts.ts:314 -/
structure ReportingTimezone where
  timezone : Str
  revision : Int
  deriving DecidableEq

structure Range where
  start : Int
  stop : Int
  timezone : Str
  deriving DecidableEq

/-- mirrors modules/sales/src/contracts.ts:329 -/
def positiveSafeInteger (value : Int) : Bool := 0 < value && value ≤ 9007199254740991

def monthAfter (month : Int × Int) : Int × Int :=
  if month.2 = 12 then (month.1 + 1, 1) else (month.1, month.2 + 1)

/-- `intl` gives the zones of the canonical IANA names; `now` is `none` where it is an invalid date.
mirrors modules/sales/src/contracts.ts:360-364 -/
def canonicalSalesCalendarRange (intl : Str → Option Zone) (reporting : ReportingTimezone)
    (now : Option Int) : Except CalendarError Range :=
  match intl reporting.timezone, now with
  | some zone, some now =>
    if ¬ positiveSafeInteger reporting.revision then .error .timezoneInvalid
    else do
      let current ← calendarParts now zone
      let next := monthAfter (current.year, current.month)
      let start ← utcAtZonedMidnight current.year current.month 1 zone
      let stop ← utcAtZonedMidnight next.1 next.2 1 zone
      return { start, stop, timezone := reporting.timezone }
  | _, _ => .error .timezoneInvalid

/-! ## Months of the zone -/

/-- The month that the clock of the zone shows. -/
def localMonth (z : Zone) (t : Int) : Int × Int :=
  let civil := civilOfDay (z.wall t / dayMs)
  (civil.year, civil.month)

/-- The first reading of the clock in a month. -/
def startOfMonth (month : Int × Int) : Int := dayOfCivil month.1 month.2 1 * dayMs

/-- An instant of the years 1970 to 9998. -/
def InYears (t : Int) : Prop := 0 ≤ t ∧ t < dateUTC 9999 1 1 0 0 0

theorem localMonth_range (z : Zone) (t : Int) :
    1 ≤ (localMonth z t).2 ∧ (localMonth z t).2 ≤ 12 := by
  obtain ⟨h₁, h₁₂, -⟩ := civilOfDay_bounds (z.wall t / dayMs)
  exact ⟨h₁, h₁₂⟩

theorem monthAfter_range {month : Int × Int} (h₁ : 1 ≤ month.2) (h₁₂ : month.2 ≤ 12) :
    1 ≤ (monthAfter month).2 ∧ (monthAfter month).2 ≤ 12 ∧ month.1 ≤ (monthAfter month).1 := by
  unfold monthAfter
  split <;> dsimp only <;> omega

theorem nextMonthStart_eq (month : Int × Int) :
    nextMonthStart month.1 month.2 * dayMs = startOfMonth (monthAfter month) := by
  unfold nextMonthStart startOfMonth monthAfter
  split <;> rfl

theorem startOfMonth_after {month : Int × Int} (h₁ : 1 ≤ month.2) (h₁₂ : month.2 ≤ 12) :
    startOfMonth month + 28 * dayMs ≤ startOfMonth (monthAfter month) := by
  have h := (nextMonthStart_le (y := month.1) h₁ h₁₂).1
  rw [← nextMonthStart_eq]
  unfold startOfMonth dayMs
  omega

theorem localMonth_eq_iff {z : Zone} {t : Int} {month : Int × Int} (h₁ : 1 ≤ month.2)
    (h₁₂ : month.2 ≤ 12) : localMonth z t = month ↔
      startOfMonth month ≤ z.wall t ∧ z.wall t < startOfMonth (monthAfter month) := by
  have h := inMonth_iff (y := month.1) (n := z.wall t / dayMs) h₁ h₁₂
  rw [← nextMonthStart_eq]
  unfold startOfMonth dayMs at *
  rw [show localMonth z t = month ↔ (localMonth z t).1 = month.1 ∧ (localMonth z t).2 = month.2 from
    Prod.ext_iff]
  unfold localMonth dayMs
  dsimp only
  rw [h]
  constructor
  · intro ⟨hlow, hhigh⟩
    omega
  · intro ⟨hlow, hhigh⟩
    omega

theorem localMonth_bounds (z : Zone) (t : Int) :
    startOfMonth (localMonth z t) ≤ z.wall t ∧
      z.wall t < startOfMonth (monthAfter (localMonth z t)) :=
  have hmonth := localMonth_range z t
  (localMonth_eq_iff hmonth.1 hmonth.2).mp rfl

/-! ## The attempts -/

theorem calendarParts_eq (date : Int) (z : Zone) :
    calendarParts date z = .ok (formatToParts z date) := by
  obtain ⟨h₁, h₁₂, hd₁, hd₃₁, -⟩ := civilOfDay_bounds (z.wall date / dayMs)
  unfold calendarParts formatToParts
  dsimp only
  rw [if_neg (by omega), if_neg (by omega)]

theorem year_ge {n : Int} (h : -400 ≤ n) : 1968 ≤ (civilOfDay n).year := by
  have hb := (yearOfDay_bounds n).2
  show 1968 ≤ yearOfDay n
  unfold dayFromYear at hb
  omega

/-- The fields of a whole second give back what the clock shows. -/
theorem dateUTC_formatToParts {z : Zone} {date : Int} (hwhole : date % 1000 = 0)
    (hlate : -400 * dayMs ≤ z.wall date) :
    dateUTC (formatToParts z date).year (formatToParts z date).month (formatToParts z date).day
      (formatToParts z date).hour (formatToParts z date).minute (formatToParts z date).second =
      z.wall date := by
  have hoffset := z.whole date
  have hyear := year_ge (n := z.wall date / dayMs) (by unfold dayMs at *; omega)
  have hself := dayOfCivil_civilOfDay (z.wall date / dayMs)
  unfold dateUTC formatToParts
  dsimp only
  rw [if_neg (by omega), hself]
  unfold Zone.wall dayMs
  omega

theorem dateUTC_first {month : Int × Int} (h : 100 ≤ month.1) :
    dateUTC month.1 month.2 1 0 0 0 = startOfMonth month := by
  unfold dateUTC startOfMonth
  dsimp only
  rw [if_neg (by omega)]
  omega

theorem formatToParts_first {z : Zone} {date : Int} {month : Int × Int} (h₁ : 1 ≤ month.2)
    (h₁₂ : month.2 ≤ 12) (h : z.wall date = startOfMonth month) :
    formatToParts z date = ⟨month.1, month.2, 1, 0, 0, 0⟩ := by
  have hday : z.wall date / dayMs = dayOfCivil month.1 month.2 1 := by
    rw [h]
    unfold startOfMonth dayMs
    omega
  unfold formatToParts
  dsimp only
  rw [hday, civilOfDay_first h₁ h₁₂, h]
  unfold startOfMonth dayMs
  congr 1 <;> omega

/-- The attempts are those of the search for the instant of a reading. -/
theorem midnightAttempts_eq {z : Zone} {month : Int × Int} (h₁ : 1 ≤ month.2) (h₁₂ : month.2 ≤ 12)
    (hlate : -370 * dayMs ≤ startOfMonth month) : ∀ (attempts : Nat) (candidate : Int),
    candidate % 1000 = 0 → startOfMonth month - dayMs ≤ candidate →
    candidate ≤ startOfMonth month + dayMs →
    midnightAttempts month.1 month.2 1 z (startOfMonth month) attempts candidate =
      match z.settle (startOfMonth month) attempts candidate with
      | some s => .ok s
      | none => .error .midnightInvalid
  | 0, _, _, _, _ => rfl
  | attempts + 1, candidate, hwhole, hlow, hhigh => by
    have hday := z.day candidate
    have hoffset := z.whole candidate
    have hepoch := dateUTC_formatToParts (z := z) hwhole (by unfold Zone.wall dayMs at *; omega)
    have hstart : startOfMonth month % 1000 = 0 := by
      unfold startOfMonth dayMs
      omega
    rw [midnightAttempts, calendarParts_eq, Zone.settle]
    show (if _ then _ else _) = _
    rw [hepoch]
    split
    · rename_i hzero
      have hwall : z.wall candidate = startOfMonth month := by omega
      rw [if_pos hwall, if_neg]
      rw [formatToParts_first h₁ h₁₂ hwall]
      simp
    · rename_i hne
      rw [if_neg (by omega)]
      have hnext : candidate + (startOfMonth month - z.wall candidate) =
          startOfMonth month - z.offset candidate := by
        unfold Zone.wall
        omega
      rw [hnext]
      exact midnightAttempts_eq h₁ h₁₂ hlate attempts _ (by omega) (by omega) (by omega)

theorem utcAtZonedMidnight_eq {z : Zone} {month : Int × Int} (h₁ : 1 ≤ month.2) (h₁₂ : month.2 ≤ 12)
    (hyear : 1969 ≤ month.1) : utcAtZonedMidnight month.1 month.2 1 z =
      match z.settle (startOfMonth month) 4 (startOfMonth month) with
      | some s => .ok s
      | none => .error .midnightInvalid := by
  have hbefore : 0 ≤ daysBeforeMonth month.1 month.2 := by
    unfold daysBeforeMonth
    split <;> omega
  have hfirst := dayFromYear_mono hyear
  have hlate : -370 * dayMs ≤ startOfMonth month := by
    unfold startOfMonth dayMs
    rw [dayOfCivil_first]
    rw [show dayFromYear 1969 = -365 by decide] at hfirst
    omega
  have hwhole : startOfMonth month % 1000 = 0 := by
    unfold startOfMonth dayMs
    omega
  unfold utcAtZonedMidnight
  rw [dateUTC_first (by omega)]
  exact midnightAttempts_eq h₁ h₁₂ hlate 4 _ hwhole (by unfold dayMs; omega) (by unfold dayMs; omega)

theorem settle_of_midnight {z : Zone} {month : Int × Int} (h₁ : 1 ≤ month.2) (h₁₂ : month.2 ≤ 12)
    (hyear : 1969 ≤ month.1) {s : Int} : utcAtZonedMidnight month.1 month.2 1 z = .ok s ↔
      z.settle (startOfMonth month) 4 (startOfMonth month) = some s := by
  rw [utcAtZonedMidnight_eq h₁ h₁₂ hyear]
  split <;> simp [*]

theorem year_localMonth {z : Zone} {t : Int} (h : InYears t) : 1969 ≤ (localMonth z t).1 := by
  have hday := z.day t
  have hb := (yearOfDay_bounds (z.wall t / dayMs)).2
  obtain ⟨h₀, -⟩ := h
  show 1969 ≤ yearOfDay (z.wall t / dayMs)
  have hlow : -1 ≤ z.wall t / dayMs := by
    unfold Zone.wall dayMs at *
    omega
  unfold dayFromYear at hb
  omega

/-! ## When the range is the month -/

/-- The range has the instant `now`, and all its instants are of the month of `now`. -/
structure CoversMonth (z : Zone) (now : Int) (r : Range) : Prop where
  start_le : r.start ≤ now
  lt_stop : now < r.stop
  inMonth : ∀ t, r.start ≤ t → t < r.stop → localMonth z t = localMonth z now

/-- What the clock does at the two ends of the month of `now`. It skips neither midnight. If it is
turned back over the first midnight, then either after the instant of that name in UTC and to that
midnight itself, or not after it and not after `now`; if over the last one, then after the instant of
that name in UTC and after `now`. -/
structure OrdinaryMonth (z : Zone) (now : Int) : Prop where
  startShown : ∀ T, ¬ z.Skips (startOfMonth (localMonth z now)) T
  stopShown : ∀ T, ¬ z.Skips (startOfMonth (monthAfter (localMonth z now))) T
  startBack : ∀ T, z.TurnsBack (startOfMonth (localMonth z now)) T →
    startOfMonth (localMonth z now) < T ∧ T + z.offset T = startOfMonth (localMonth z now) ∨
      T ≤ startOfMonth (localMonth z now) ∧ T ≤ now
  stopBack : ∀ T, z.TurnsBack (startOfMonth (monthAfter (localMonth z now))) T →
    startOfMonth (monthAfter (localMonth z now)) < T ∧ now < T

theorem OrdinaryMonth.exists_start {z : Zone} {now : Int} (h : OrdinaryMonth z now) :
    ∃ s, z.settle (startOfMonth (localMonth z now)) 4 (startOfMonth (localMonth z now)) = some s ∧
      s ≤ now ∧ ∀ t, s ≤ t → startOfMonth (localMonth z now) ≤ z.wall t := by
  have hnow := (localMonth_bounds z now).1
  by_cases hback : ∃ T, z.TurnsBack (startOfMonth (localMonth z now)) T
  · obtain ⟨T, hT⟩ := hback
    refine ⟨_, Zone.settle_turnsBack hT 2, ?_⟩
    rcases h.startBack T hT with ⟨hlate, hexact⟩ | ⟨hearly, hpast⟩
    · have hdivides := Zone.divides_of_turnsBack hT hexact
      rw [if_pos hlate]
      exact ⟨(hdivides now).mpr hnow, fun t => (hdivides t).mp⟩
    · rw [if_neg (by omega)]
      refine ⟨(Zone.reading_after hT hpast).mpr hnow, fun t ht => ?_⟩
      have hafter : T ≤ t := by
        have := hT.1
        omega
      exact (Zone.reading_after hT hafter).mp ht
  · obtain ⟨s, hs, hdivides⟩ := Zone.settle_divides h.startShown (not_exists.mp hback) 1
    exact ⟨s, hs, (hdivides now).mpr hnow, fun t => (hdivides t).mp⟩

theorem OrdinaryMonth.exists_stop {z : Zone} {now : Int} (h : OrdinaryMonth z now) :
    ∃ s, z.settle (startOfMonth (monthAfter (localMonth z now))) 4
        (startOfMonth (monthAfter (localMonth z now))) = some s ∧
      now < s ∧ ∀ t, t < s → z.wall t < startOfMonth (monthAfter (localMonth z now)) := by
  have hnow := (localMonth_bounds z now).2
  by_cases hback : ∃ T, z.TurnsBack (startOfMonth (monthAfter (localMonth z now))) T
  · obtain ⟨T, hT⟩ := hback
    obtain ⟨hlate, hbefore⟩ := h.stopBack T hT
    refine ⟨_, Zone.settle_turnsBack hT 2, ?_⟩
    rw [if_pos hlate]
    refine ⟨?_, fun t ht => ?_⟩
    · have := mt (Zone.reading_before hT hbefore).mp (by omega)
      omega
    · have hearly : t < T := by
        have := hT.2
        omega
      have := mt (Zone.reading_before hT hearly).mpr (by omega)
      omega
  · obtain ⟨s, hs, hdivides⟩ := Zone.settle_divides h.stopShown (not_exists.mp hback) 1
    refine ⟨s, hs, ?_, fun t ht => ?_⟩
    · have := mt (hdivides now).mp (by omega)
      omega
    · have := mt (hdivides t).mpr (by omega)
      omega

section Range

variable {intl : Str → Option Zone} {reporting : ReportingTimezone} {z : Zone}

/-- What the range is made of. -/
theorem canonicalSalesCalendarRange_eq_ok (hzone : intl reporting.timezone = some z)
    (hrevision : positiveSafeInteger reporting.revision = true) {now : Int} (hnow : InYears now)
    {r : Range} : canonicalSalesCalendarRange intl reporting (some now) = .ok r ↔
      z.settle (startOfMonth (localMonth z now)) 4 (startOfMonth (localMonth z now)) = some r.start ∧
      z.settle (startOfMonth (monthAfter (localMonth z now))) 4
        (startOfMonth (monthAfter (localMonth z now))) = some r.stop ∧
      r.timezone = reporting.timezone := by
  obtain ⟨h₁, h₁₂⟩ := localMonth_range z now
  have hyear := year_localMonth (z := z) hnow
  obtain ⟨h₁', h₁₂', hle⟩ := monthAfter_range h₁ h₁₂
  unfold canonicalSalesCalendarRange
  rw [hzone]
  dsimp only
  rw [if_neg (by simpa using hrevision), calendarParts_eq]
  show (utcAtZonedMidnight (localMonth z now).1 (localMonth z now).2 1 z >>= fun start =>
    utcAtZonedMidnight (monthAfter (localMonth z now)).1 (monthAfter (localMonth z now)).2 1 z >>=
      fun stop => pure (Range.mk start stop reporting.timezone)) = .ok r ↔ _
  rw [bind_eq_ok]
  constructor
  · intro ⟨start, hstart, h⟩
    obtain ⟨stop, hstop, h⟩ := bind_eq_ok.mp h
    cases h
    exact ⟨(settle_of_midnight h₁ h₁₂ hyear).mp hstart,
      (settle_of_midnight h₁' h₁₂' (hyear.trans hle)).mp hstop, rfl⟩
  · intro ⟨hstart, hstop, htimezone⟩
    refine ⟨r.start, (settle_of_midnight h₁ h₁₂ hyear).mpr hstart, bind_eq_ok.mpr ⟨r.stop,
      (settle_of_midnight h₁' h₁₂' (hyear.trans hle)).mpr hstop, ?_⟩⟩
    rw [← htimezone]
    rfl

theorem OrdinaryMonth.covered (hzone : intl reporting.timezone = some z)
    (hrevision : positiveSafeInteger reporting.revision = true) {now : Int} (hnow : InYears now)
    (h : OrdinaryMonth z now) :
    ∃ r, canonicalSalesCalendarRange intl reporting (some now) = .ok r ∧ CoversMonth z now r := by
  obtain ⟨start, hstart, hle, hfrom⟩ := h.exists_start
  obtain ⟨stop, hstop, hlt, huntil⟩ := h.exists_stop
  have hmonth := localMonth_range z now
  refine ⟨⟨start, stop, reporting.timezone⟩,
    (canonicalSalesCalendarRange_eq_ok hzone hrevision hnow).mpr ⟨hstart, hstop, rfl⟩,
    hle, hlt, fun t h₁ h₂ => ?_⟩
  exact (localMonth_eq_iff hmonth.1 hmonth.2).mpr ⟨hfrom t h₁, huntil t h₂⟩

theorem CoversMonth.ordinary {now start stop : Int} {timezone : Str}
    (h : CoversMonth z now ⟨start, stop, timezone⟩)
    (hstart : z.settle (startOfMonth (localMonth z now)) 4 (startOfMonth (localMonth z now)) =
      some start)
    (hstop : z.settle (startOfMonth (monthAfter (localMonth z now))) 4
      (startOfMonth (monthAfter (localMonth z now))) = some stop) : OrdinaryMonth z now := by
  obtain ⟨hle, hlt, hmonth⟩ := h
  dsimp only at hle hlt hmonth
  obtain ⟨h₁, h₁₂⟩ := localMonth_range z now
  have hlong := startOfMonth_after h₁ h₁₂
  have hnearStart := Zone.near_of_wall (Zone.wall_of_settle hstart)
  have hnearStop := Zone.near_of_wall (Zone.wall_of_settle hstop)
  have hinside : ∀ t, start ≤ t → t < stop → startOfMonth (localMonth z now) ≤ z.wall t ∧
      z.wall t < startOfMonth (monthAfter (localMonth z now)) :=
    fun t ht ht' => (localMonth_eq_iff h₁ h₁₂).mp (hmonth t ht ht')
  constructor
  · intro T hT
    rw [Zone.settle_skips hT] at hstart
    cases hstart
  · intro T hT
    rw [Zone.settle_skips hT] at hstop
    cases hstop
  · intro T hT
    have hdayT := z.day T
    rw [Zone.settle_turnsBack hT 2] at hstart
    cases hstart
    obtain ⟨hback, hpassed⟩ := hT
    split at hle
    · rename_i hlate
      rw [if_pos hlate] at hinside
      have := (hinside T (by omega) (by unfold dayMs at *; omega)).1
      unfold Zone.wall at this
      exact .inl ⟨hlate, by omega⟩
    · exact .inr ⟨by omega, by omega⟩
  · intro T hT
    have hdayT := z.day (T - 1)
    rw [Zone.settle_turnsBack hT 2] at hstop
    cases hstop
    obtain ⟨hback, hpassed⟩ := hT
    split at hlt
    · rename_i hlate
      exact ⟨hlate, by omega⟩
    · rename_i hearly
      rw [if_neg hearly] at hinside
      have := (hinside (T - 1) (by unfold dayMs at *; omega) (by omega)).2
      unfold Zone.wall at this
      omega

theorem covered_iff (hzone : intl reporting.timezone = some z)
    (hrevision : positiveSafeInteger reporting.revision = true) {now : Int} (hnow : InYears now) :
    (∃ r, canonicalSalesCalendarRange intl reporting (some now) = .ok r ∧ CoversMonth z now r) ↔
      OrdinaryMonth z now := by
  constructor
  · intro ⟨r, hr, hcovers⟩
    obtain ⟨hstart, hstop, -⟩ := (canonicalSalesCalendarRange_eq_ok hzone hrevision hnow).mp hr
    exact hcovers.ordinary hstart hstop
  · exact OrdinaryMonth.covered hzone hrevision hnow

/-- Of two instants of one zone: each has a range that is its local month, the two ranges are equal or
disjoint, and the range of a month ends where that of the next month starts. -/
def MonthRanges (intl : Str → Option Zone) (reporting : ReportingTimezone) (z : Zone)
    (now now' : Int) : Prop :=
  ∃ r r', canonicalSalesCalendarRange intl reporting (some now) = .ok r ∧
    canonicalSalesCalendarRange intl reporting (some now') = .ok r' ∧
    CoversMonth z now r ∧ CoversMonth z now' r' ∧
    (r = r' ∨ ∀ t, ¬ (r.start ≤ t ∧ t < r.stop ∧ r'.start ≤ t ∧ t < r'.stop)) ∧
    (localMonth z now' = monthAfter (localMonth z now) → r.stop = r'.start)

/-- **When the reporting ranges are the local months.** Of any two instants of the years 1970 to 9998
the ranges are local months, equal or disjoint and adjacent where the months are, exactly if the
months of both are ordinary for the zone. -/
theorem monthRanges_iff (hzone : intl reporting.timezone = some z)
    (hrevision : positiveSafeInteger reporting.revision = true) {now now' : Int}
    (hnow : InYears now) (hnow' : InYears now') :
    MonthRanges intl reporting z now now' ↔ OrdinaryMonth z now ∧ OrdinaryMonth z now' := by
  constructor
  · intro ⟨r, r', hr, hr', hcovers, hcovers', _⟩
    exact ⟨(covered_iff hzone hrevision hnow).mp ⟨r, hr, hcovers⟩,
      (covered_iff hzone hrevision hnow').mp ⟨r', hr', hcovers'⟩⟩
  · intro ⟨hordinary, hordinary'⟩
    obtain ⟨r, hr, hcovers⟩ := (covered_iff hzone hrevision hnow).mpr hordinary
    obtain ⟨r', hr', hcovers'⟩ := (covered_iff hzone hrevision hnow').mpr hordinary'
    obtain ⟨hstart, hstop, -⟩ := (canonicalSalesCalendarRange_eq_ok hzone hrevision hnow).mp hr
    obtain ⟨hstart', -, -⟩ := (canonicalSalesCalendarRange_eq_ok hzone hrevision hnow').mp hr'
    refine ⟨r, r', hr, hr', hcovers, hcovers', ?_, fun hmonth => ?_⟩
    · by_cases hmonth : localMonth z now = localMonth z now'
      · left
        rw [canonicalSalesCalendarRange_eq_ok hzone hrevision hnow, hmonth,
          ← canonicalSalesCalendarRange_eq_ok hzone hrevision hnow', hr'] at hr
        exact (Except.ok.inj hr).symm
      · right
        intro t ⟨h₁, h₂, h₃, h₄⟩
        exact hmonth ((hcovers.inMonth t h₁ h₂).symm.trans (hcovers'.inMonth t h₃ h₄))
    · rw [hmonth] at hstart'
      exact Option.some.inj (hstop.symm.trans hstart')

end Range

/-- No offset at all. -/
def utc : Zone where
  offset _ := 0
  whole _ := rfl
  day _ := by decide
  week _ _ h := absurd rfl h

/-- Two instants of the first month of 1970. -/
theorem monthRanges_utc :
    MonthRanges (fun _ => some utc) ⟨units "UTC", 1⟩ utc 0 1000 := by
  have hzero : ∀ t, utc.offset t = 0 := fun _ => rfl
  have hordinary : ∀ now, OrdinaryMonth utc now := fun now =>
    { startShown T h := by
        obtain ⟨h₁, h₂⟩ := h
        rw [hzero] at h₁ h₂
        omega
      stopShown T h := by
        obtain ⟨h₁, h₂⟩ := h
        rw [hzero] at h₁ h₂
        omega
      startBack T h := by
        obtain ⟨h₁, h₂⟩ := h
        rw [hzero] at h₁ h₂
        omega
      stopBack T h := by
        obtain ⟨h₁, h₂⟩ := h
        rw [hzero] at h₁ h₂
        omega }
  exact (@monthRanges_iff (fun _ => some utc) ⟨units "UTC", 1⟩ utc rfl (by decide) 0 1000
    (by unfold InYears; decide) (by unfold InYears; decide)).mpr ⟨hordinary 0, hordinary 1000⟩

/-- The clock goes from two hours ahead to three at 2011-03-31T22:00:00Z, which is midnight. -/
def springAtMidnight : Zone where
  offset t := if t < 1301608800000 then 7200000 else 10800000
  whole t := by split <;> rfl
  day t := by split <;> decide
  week t t' h h' hlt := by
    split at h <;> split at h <;> split at h' <;> split at h' <;> omega

/-- In April 2011 the first midnight of the month was skipped there. -/
theorem monthRanges_skipped :
    canonicalSalesCalendarRange (fun _ => some springAtMidnight) ⟨units "Asia/Amman", 1⟩
      (some 1302868800000) = .error .midnightInvalid ∧ InYears 1302868800000 ∧
    ¬ MonthRanges (fun _ => some springAtMidnight) ⟨units "Asia/Amman", 1⟩ springAtMidnight
      1302868800000 1302868800000 := by
  have herror : canonicalSalesCalendarRange (fun _ => some springAtMidnight)
      ⟨units "Asia/Amman", 1⟩ (some 1302868800000) = .error .midnightInvalid := by decide
  refine ⟨herror, by unfold InYears; decide, fun ⟨r, r', hr, _⟩ => ?_⟩
  rw [herror] at hr
  cases hr

end KNex.Sales.CalendarRange
