import Mathlib.Data.List.Induction
import Mathlib.Data.List.TakeWhile
import Mathlib.Tactic.IntervalCases
import ResourceServer.Moment

/-!
# Different moments

Days are counted by years that begin in March, so that the day that only some years have is the last one.
Every month begins after all days of the months before it, and every year after all days of the years
before it: dates with one number are one date, and moments in universal time that name one instant are
one moment.  A moment that is read from a text is in the calendar.
-/

namespace ResourceServer

namespace Moment

/-- Days before a year that begins in March. -/
def daysBeforeYear (year : Int) : Int := 365 * year + year / 4 - year / 100 + year / 400

/-- Days of a year that begins in March before a month of it; March is month zero. -/
def daysBeforeMonth (month : Int) : Int := (153 * month + 2) / 5

/-- The year, beginning in March, of a date. -/
def marchYear (moment : Moment) : Int :=
  if moment.month ≤ 2 then (moment.year : Int) - 1 else moment.year

/-- The month of a date, counted from March on. -/
def marchMonth (moment : Moment) : Int := (moment.month + 9) % 12

theorem dayNumber_eq (moment : Moment) :
    moment.dayNumber = daysBeforeYear moment.marchYear + daysBeforeMonth moment.marchMonth +
      moment.day := by
  unfold dayNumber daysBeforeYear daysBeforeMonth marchYear marchMonth
  dsimp only

/-- Whether a date is in the calendar. -/
structure IsDate (moment : Moment) : Prop where
  month : 1 ≤ moment.month ∧ moment.month ≤ 12
  day : 1 ≤ moment.day ∧ moment.day ≤ daysOfMonth moment.year moment.month

variable {first second : Moment}

theorem day_le_of_isDate (isDate : first.IsDate) (notLast : first.marchMonth < 11) :
    first.day + daysBeforeMonth first.marchMonth ≤ daysBeforeMonth (first.marchMonth + 1) := by
  obtain ⟨⟨positive, atMost⟩, _, day⟩ := isDate
  unfold daysOfMonth at day
  unfold marchMonth daysBeforeMonth at *
  generalize first.month = month at *
  interval_cases month <;> simp at * <;> omega

theorem day_le_year (isDate : first.IsDate) :
    daysBeforeYear first.marchYear + daysBeforeMonth first.marchMonth + first.day ≤
      daysBeforeYear (first.marchYear + 1) := by
  obtain ⟨⟨positive, atMost⟩, _, day⟩ := isDate
  unfold daysOfMonth at day
  unfold marchMonth marchYear daysBeforeMonth daysBeforeYear at *
  generalize first.month = month at *
  generalize first.year = year at *
  generalize first.day = day at *
  interval_cases month <;> simp at * <;> try omega
  split at day <;> omega

theorem daysBeforeYear_mono {first second : Int} (earlier : first ≤ second) :
    daysBeforeYear first ≤ daysBeforeYear second := by
  unfold daysBeforeYear
  omega

theorem daysBeforeMonth_mono {first second : Int} (earlier : first ≤ second) :
    daysBeforeMonth first ≤ daysBeforeMonth second := by
  unfold daysBeforeMonth
  omega

theorem dayNumber_lt_of_marchYear_lt (isDate : first.IsDate) (isDateSecond : second.IsDate)
    (earlier : first.marchYear < second.marchYear) : first.dayNumber < second.dayNumber := by
  have within := day_le_year isDate
  have later := daysBeforeYear_mono (show first.marchYear + 1 ≤ second.marchYear by omega)
  have month : 0 ≤ daysBeforeMonth second.marchMonth := by
    unfold daysBeforeMonth marchMonth
    omega
  have day := isDateSecond.day.1
  rw [dayNumber_eq, dayNumber_eq]
  omega

theorem dayNumber_lt_of_marchMonth_lt (isDate : first.IsDate) (isDateSecond : second.IsDate)
    (sameYear : first.marchYear = second.marchYear)
    (earlier : first.marchMonth < second.marchMonth) : first.dayNumber < second.dayNumber := by
  have notLast : first.marchMonth < 11 := by
    unfold marchMonth at earlier ⊢
    omega
  have within := day_le_of_isDate isDate notLast
  have later := daysBeforeMonth_mono (show first.marchMonth + 1 ≤ second.marchMonth by omega)
  have day := isDateSecond.day.1
  rw [dayNumber_eq, dayNumber_eq, sameYear]
  omega

/-- Different dates have different numbers. -/
theorem date_eq_of_dayNumber_eq (isDate : first.IsDate) (isDateSecond : second.IsDate)
    (same : first.dayNumber = second.dayNumber) :
    first.year = second.year ∧ first.month = second.month ∧ first.day = second.day := by
  have sameYear : first.marchYear = second.marchYear := by
    obtain earlier | sameYear | later := lt_trichotomy first.marchYear second.marchYear
    · exact absurd same (dayNumber_lt_of_marchYear_lt isDate isDateSecond earlier).ne
    · exact sameYear
    · exact absurd same (dayNumber_lt_of_marchYear_lt isDateSecond isDate later).ne'
  have sameMonth : first.marchMonth = second.marchMonth := by
    obtain earlier | sameMonth | later := lt_trichotomy first.marchMonth second.marchMonth
    · exact absurd same (dayNumber_lt_of_marchMonth_lt isDate isDateSecond sameYear earlier).ne
    · exact sameMonth
    · exact absurd same
        (dayNumber_lt_of_marchMonth_lt isDateSecond isDate sameYear.symm later).ne'
  rw [dayNumber_eq, dayNumber_eq, sameYear, sameMonth] at same
  have months := isDate.month
  have monthsSecond := isDateSecond.month
  unfold marchMonth at sameMonth
  unfold marchYear at sameYear
  refine ⟨?_, by omega, by omega⟩
  split at sameYear <;> split at sameYear <;> omega

/-- A moment whose date and time of day are in range. -/
structure IsProper (moment : Moment) : Prop where
  isDate : moment.IsDate
  hour : moment.hour < 24
  minute : moment.minute < 60
  second : moment.second < 60
  microsecond : moment.microsecond < 1000000

/-- Moments in universal time that name one instant are one moment. -/
theorem eq_of_order? (proper : first.IsProper) (properSecond : second.IsProper)
    (universal : first.offset = some 0) (universalSecond : second.offset = some 0)
    (same : first.order? second = some .eq) : first = second := by
  rw [order?, universal, universalSecond] at same
  simp only [Option.some.injEq, Std.LawfulEqCmp.compare_eq_iff_eq] at same
  have sameClock : first.clockMicroseconds = second.clockMicroseconds := by omega
  unfold clockMicroseconds at sameClock
  have hours := proper.hour
  have minutes := proper.minute
  have seconds := proper.second
  have microseconds := proper.microsecond
  have hoursSecond := properSecond.hour
  have minutesSecond := properSecond.minute
  have secondsSecond := properSecond.second
  have microsecondsSecond := properSecond.microsecond
  dsimp only at sameClock
  obtain ⟨year, month, day⟩ :=
    date_eq_of_dayNumber_eq proper.isDate properSecond.isDate (by omega)
  obtain ⟨hour, minute, isSecond, microsecond⟩ : first.hour = second.hour ∧
      first.minute = second.minute ∧ first.second = second.second ∧
      first.microsecond = second.microsecond := by omega
  obtain ⟨⟩ := first
  obtain ⟨⟩ := second
  simp_all

/-! ## Moments that are read -/

theorem isProper_of_wrongPart? {moment : Moment} (inRange : moment.wrongPart? = none)
    (microsecond : moment.microsecond < 1000000) : moment.IsProper := by
  unfold wrongPart? at inRange
  have isDate : moment.IsDate := by
    constructor <;> grind
  exact ⟨isDate, by grind, by grind, by grind, microsecond⟩

theorem numberOf_lt {digits : List Char} (areDigits : ∀ digit ∈ digits, digit.isDigit = true) :
    Text.numberOf digits < 10 ^ digits.length := by
  induction digits using List.reverseRecOn with
  | nil => exact Nat.one_pos
  | append_singleton digits digit induction =>
      simp only [List.mem_append, List.mem_singleton] at areDigits
      have before := induction fun digit member => areDigits digit (.inl member)
      have atMost : digit.toNat - '0'.toNat ≤ 9 := by
        have isDigit := areDigits digit (.inr rfl)
        simp only [Char.isDigit, Bool.and_eq_true, decide_eq_true_eq] at isDigit
        have upper : digit.toNat ≤ '9'.toNat := isDigit.2
        change digit.toNat ≤ 57 at upper
        change digit.toNat - 48 ≤ 9
        omega
      rw [Text.numberOf, List.foldl_append, List.foldl_cons, List.foldl_nil, List.length_append,
        List.length_singleton, pow_succ]
      rw [Text.numberOf] at before
      omega

theorem readFraction_lt (characters : List Char) : (readFraction characters).1 < 1000000 := by
  unfold readFraction
  dsimp only
  have atMost : ((characters.takeWhile Char.isDigit).take 6).length ≤ 6 := by
    simp
  have digits : ∀ digit ∈ (characters.takeWhile Char.isDigit).take 6, digit.isDigit = true :=
    fun digit member => List.mem_takeWhile_imp (List.mem_of_mem_take member)
  generalize (characters.takeWhile Char.isDigit).take 6 = kept at atMost digits
  calc Text.numberOf kept * Nat.pow 10 (6 - kept.length)
      < 10 ^ kept.length * 10 ^ (6 - kept.length) :=
        Nat.mul_lt_mul_of_pos_right (numberOf_lt digits) (Nat.pow_pos (by omega))
    _ = 10 ^ 6 := by rw [← pow_add, Nat.add_sub_cancel' atMost]
    _ = 1000000 := rfl

theorem isProper_of_clock {date moment : Moment} {hour minute second : Nat}
    {fraction : Nat × List Char} (small : fraction.1 < 1000000)
    (read : (do
      let offset ← readOffset? fraction.2
      let moment : Moment := { date with hour, minute, second, microsecond := fraction.1, offset }
      if moment.wrongPart?.isNone then some moment else none) = some moment) :
    moment.IsProper := by
  obtain ⟨offset, _, read⟩ := Option.bind_eq_some_iff.mp read
  dsimp only at read
  split at read
  · rename_i inRange
    cases read
    exact isProper_of_wrongPart? (Option.isNone_iff_eq_none.mp inRange) small
  · cases read

theorem readClock?_isProper {date moment : Moment} {characters : List Char}
    (read : readClock? date characters = some moment) : moment.IsProper := by
  obtain ⟨⟨hour, rest⟩, _, read⟩ := Option.bind_eq_some_iff.mp read
  dsimp only at read
  split at read
  · obtain ⟨⟨minute, rest⟩, _, read⟩ := Option.bind_eq_some_iff.mp read
    dsimp only at read
    split at read
    · obtain ⟨⟨second, rest⟩, _, read⟩ := Option.bind_eq_some_iff.mp read
      refine isProper_of_clock ?_ read
      split
      · exact readFraction_lt _
      · exact Nat.zero_lt_succ _
    · refine isProper_of_clock ?_ read
      split
      · exact readFraction_lt _
      · exact Nat.zero_lt_succ _
  · cases read

theorem ofIso?_isProper {text : String} {moment : Moment} (read : ofIso? text = some moment) :
    moment.IsProper := by
  obtain ⟨⟨year, rest⟩, _, read⟩ := Option.bind_eq_some_iff.mp read
  dsimp only at read
  split at read
  · obtain ⟨⟨month, rest⟩, _, read⟩ := Option.bind_eq_some_iff.mp read
    dsimp only at read
    split at read
    · obtain ⟨⟨day, rest⟩, _, read⟩ := Option.bind_eq_some_iff.mp read
      dsimp only at read
      split at read
      · split at read
        · rename_i inRange
          cases read
          exact isProper_of_wrongPart? (Option.isNone_iff_eq_none.mp inRange) (Nat.zero_lt_succ _)
        · cases read
      · exact readClock?_isProper read
    · cases read
  · cases read

end Moment

end ResourceServer
