import ResourceServer.Text.Digit

/-!
# Moments in time

A moment is a calendar date, a time of day and possibly an offset from Coordinated Universal Time.
Two moments with an offset are compared by the instant they name. A moment with an offset and one
without are never equal and cannot be ordered.
-/

namespace ResourceServer

/-- A date and time. The offset is counted in seconds east of Greenwich. -/
structure Moment where
  year : Nat
  month : Nat
  day : Nat
  hour : Nat := 0
  minute : Nat := 0
  second : Nat := 0
  microsecond : Nat := 0
  offset : Option Int := none
deriving DecidableEq, Repr, Inhabited

namespace Moment

/-- Number of days of a date since the first of March of the year zero. -/
def dayNumber (moment : Moment) : Int :=
  let year : Int := if moment.month ≤ 2 then (moment.year : Int) - 1 else moment.year
  let month : Int := (moment.month + 9) % 12
  365 * year + year / 4 - year / 100 + year / 400 + (153 * month + 2) / 5 + moment.day

/-- Microseconds on the wall clock, counted from a fixed day. -/
def clockMicroseconds (moment : Moment) : Int :=
  let seconds := ((moment.dayNumber * 24 + moment.hour) * 60 + moment.minute) * 60 + moment.second
  seconds * 1000000 + moment.microsecond

/-- The order of two moments; `none` when only one of them has an offset. -/
def order? (left right : Moment) : Option Ordering :=
  match left.offset, right.offset with
  | none, none => some (compare left.clockMicroseconds right.clockMicroseconds)
  | some leftOffset, some rightOffset =>
      some (compare (left.clockMicroseconds - leftOffset * 1000000)
        (right.clockMicroseconds - rightOffset * 1000000))
  | _, _ => none

/-- The date of a day number. A cycle of 400 years has 146097 days; inside it every fourth year but three
of the hundredth ones has a day more, which comes last, for years begin in March here. -/
def ofDayNumber (number : Int) : Moment :=
  let cycle := (number - 1) / 146097
  let dayOfCycle := ((number - 1) % 146097).toNat
  let yearOfCycle := (dayOfCycle - dayOfCycle / 1460 + dayOfCycle / 36524 - dayOfCycle / 146096) / 365
  let dayOfYear := dayOfCycle - (365 * yearOfCycle + yearOfCycle / 4 - yearOfCycle / 100)
  let month := (5 * dayOfYear + 2) / 153
  let year := (yearOfCycle + cycle * 400).toNat
  { year := if month < 10 then year else year + 1
    month := if month < 10 then month + 3 else month - 9
    day := dayOfYear - (153 * month + 2) / 5 + 1 }

/-- The same instant in universal time. A moment without an offset stays as it is. -/
def universal (moment : Moment) : Moment :=
  match moment.offset with
  | none | some 0 => moment
  | some offset =>
      let seconds := moment.clockMicroseconds / 1000000 - offset
      let clock := (seconds % 86400).toNat
      { ofDayNumber (seconds / 86400) with
        hour := clock / 3600
        minute := clock / 60 % 60
        second := clock % 60
        microsecond := moment.microsecond
        offset := some 0 }

/-- A number with zeros in front up to a width. -/
def padded (width value : Nat) : String :=
  let digits := toString value
  String.ofList (List.replicate (width - digits.length) '0') ++ digits

/-- The text of an offset, `+02:00` for two hours east. -/
def offsetText (offset : Int) : String :=
  let seconds := offset.natAbs
  let base := (if offset < 0 then "-" else "+") ++ padded 2 (seconds / 3600) ++ ":"
    ++ padded 2 (seconds / 60 % 60)
  if seconds % 60 = 0 then base else base ++ ":" ++ padded 2 (seconds % 60)

/-- The date of a moment. -/
def dateText (moment : Moment) : String :=
  padded 4 moment.year ++ "-" ++ padded 2 moment.month ++ "-" ++ padded 2 moment.day

/-- The time of day up to seconds. -/
def timeText (moment : Moment) : String :=
  padded 2 moment.hour ++ ":" ++ padded 2 moment.minute ++ ":" ++ padded 2 moment.second

/-- The interchange form of a moment, with a chosen separator between date and time. Microseconds
are left out when there are none. -/
def isoText (separator : String) (moment : Moment) : String :=
  moment.dateText ++ separator ++ moment.timeText
    ++ (if moment.microsecond = 0 then "" else "." ++ padded 6 moment.microsecond)
    ++ (match moment.offset with
        | none => ""
        | some offset => offsetText offset)

/-- The date and the time of day without an offset, always with six digits of a second. -/
def clockText (moment : Moment) : String :=
  moment.dateText ++ " " ++ moment.timeText ++ "." ++ padded 6 moment.microsecond

/-- The form in which a database without a time type keeps a moment: in universal time without an offset. A
moment without an offset has none, and neither has one whose year in universal time is out of range. -/
def storedText? (moment : Moment) : Option String :=
  let kept := moment.universal
  if moment.offset.isSome && 0 < kept.year && kept.year ≤ 9999 then some kept.clockText else none

/-- A span of time inside messages: days, which may be negative, and the seconds beyond them. -/
def spanText (seconds : Int) : String :=
  let days := seconds / 86400
  let rest := seconds % 86400
  let parts := (if days = 0 then [] else [s!"days={days}"]) ++ (if rest = 0 then [] else [s!"seconds={rest}"])
  "datetime.timedelta(" ++ (if parts.isEmpty then "0" else String.intercalate ", " parts) ++ ")"

/-- The moment as it is written inside messages. -/
def describe (moment : Moment) : String :=
  let clock :=
    if moment.microsecond ≠ 0 then [moment.hour, moment.minute, moment.second, moment.microsecond]
    else if moment.second ≠ 0 then [moment.hour, moment.minute, moment.second]
    else [moment.hour, moment.minute]
  let parts := ([moment.year, moment.month, moment.day] ++ clock).map toString
  let zone :=
    match moment.offset with
    | none => []
    | some 0 => ["tzinfo=datetime.timezone.utc"]
    | some offset => ["tzinfo=datetime.timezone(" ++ spanText offset ++ ")"]
  "datetime.datetime(" ++ String.intercalate ", " (parts ++ zone) ++ ")"

/-- Reads a fixed number of digits. -/
def takeDigits? (count : Nat) (characters : List Char) : Option (Nat × List Char) :=
  let digits := characters.take count
  if digits.length = count ∧ digits.all Char.isDigit then
    some (Text.numberOf digits, characters.drop count)
  else none

/-- Number of days of a month. -/
def daysOfMonth (year month : Nat) : Nat :=
  if month = 2 then
    if year % 4 = 0 ∧ (year % 100 ≠ 0 ∨ year % 400 = 0) then 29 else 28
  else if month = 4 ∨ month = 6 ∨ month = 9 ∨ month = 11 then 30
  else 31

/-- A part of a date or of a time of day. -/
inductive Part
  | year
  | month
  | day
  | hour
  | minute
  | second
deriving DecidableEq, Repr

/-- The first part of a moment that lies outside of its range. -/
def wrongPart? (moment : Moment) : Option Part :=
  if moment.year = 0 ∨ 9999 < moment.year then some .year
  else if moment.month = 0 ∨ 12 < moment.month then some .month
  else if moment.day = 0 ∨ daysOfMonth moment.year moment.month < moment.day then some .day
  else if 24 ≤ moment.hour then some .hour
  else if 60 ≤ moment.minute then some .minute
  else if 60 ≤ moment.second then some .second
  else none

/-- Reads an offset: `Z`, or a sign with hours, minutes and possibly seconds. -/
def readOffset? : List Char → Option (Option Int)
  | [] => some none
  | ['Z'] => some (some 0)
  | sign :: rest => do
      let factor : Int ← if sign = '+' then some 1 else if sign = '-' then some (-1) else none
      let (hours, rest) ← takeDigits? 2 rest
      match rest with
      | ':' :: rest =>
          let (minutes, rest) ← takeDigits? 2 rest
          match rest with
          | [] => some (some (factor * (hours * 3600 + minutes * 60 : Nat)))
          | ':' :: rest =>
              let (seconds, rest) ← takeDigits? 2 rest
              if rest.isEmpty then
                some (some (factor * (hours * 3600 + minutes * 60 + seconds : Nat)))
              else none
          | _ => none
      | _ => none

/-- Reads the digits of a fraction of a second; digits beyond the sixth are dropped. -/
def readFraction (characters : List Char) : Nat × List Char :=
  let digits := characters.takeWhile Char.isDigit
  let kept := digits.take 6
  (Text.numberOf kept * Nat.pow 10 (6 - kept.length), characters.dropWhile Char.isDigit)

/-- Reads the time of day and the offset that follow a date. -/
def readClock? (date : Moment) (characters : List Char) : Option Moment := do
  let (hour, rest) ← takeDigits? 2 characters
  let (minute, rest) ←
    match rest with
    | ':' :: rest => takeDigits? 2 rest
    | _ => none
  let (second, rest) ←
    match rest with
    | ':' :: rest => takeDigits? 2 rest
    | _ => some (0, rest)
  let (microsecond, rest) :=
    match rest with
    | '.' :: rest => readFraction rest
    | _ => (0, rest)
  let offset ← readOffset? rest
  let moment := { date with hour, minute, second, microsecond, offset }
  if moment.wrongPart?.isNone then some moment else none

/-- Reads the interchange form of a date, with or without a time of day. -/
def ofIso? (text : String) : Option Moment := do
  let (year, rest) ← takeDigits? 4 text.toList
  let (month, rest) ←
    match rest with
    | '-' :: rest => takeDigits? 2 rest
    | _ => none
  let (day, rest) ←
    match rest with
    | '-' :: rest => takeDigits? 2 rest
    | _ => none
  let date : Moment := { year, month, day }
  match rest with
  | [] => if date.wrongPart?.isNone then some date else none
  | _ :: rest => readClock? date rest

end Moment

end ResourceServer
