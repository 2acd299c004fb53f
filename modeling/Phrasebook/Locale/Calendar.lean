/-!
The calendar: days and times of day of a moment counted in milliseconds.
-/
namespace Phrasebook

/-- A moment in universal time. Months and days count from one, weekdays from Sunday as zero. -/
structure Moment where
  year : Int
  month : Nat
  day : Nat
  weekday : Nat
  hour : Nat
  minute : Nat
  second : Nat
  millisecond : Nat
  deriving DecidableEq

namespace Moment

def isLeap (year : Int) : Bool :=
  (year % 4 == 0 && year % 100 != 0) || year % 400 == 0

def monthLengths (leap : Bool) : List Nat :=
  [31, if leap then 29 else 28, 31, 30, 31, 30, 31, 31, 30, 31, 30, 31]

/-- Days from the start of year 0 to the start of `year`. -/
def daysBefore (year : Int) : Int :=
  let y := year - 1
  365 * year + y / 4 - y / 100 + y / 400 + 1

/-- The year that holds a day, counted from the start of year 0: the first guess is at most one
off. -/
def yearOf (days : Int) : Int :=
  let guess := days * 400 / 146097
  if days < daysBefore guess then guess - 1
  else if days ≥ daysBefore (guess + 1) then guess + 1
  else guess

/-- Month and day, from the day of the year. -/
def monthDay : List Nat → Nat → Nat → Nat × Nat
  | [], month, rest => (month, rest + 1)
  | length :: r, month, rest =>
    if rest < length then (month, rest + 1) else monthDay r (month + 1) (rest - length)

/-- Days from the start of year 0 to the start of 1970, where milliseconds count from. -/
def epoch : Int := 719528

def ofMillis (ms : Int) : Moment :=
  let seconds := ms / 1000
  let days := seconds / 86400
  let clock := (seconds % 86400).toNat
  let fromZero := days + epoch
  let year := yearOf fromZero
  let (month, day) := monthDay (monthLengths (isLeap year)) 1 (fromZero - daysBefore year).toNat
  { year
    month
    day
    weekday := ((days + 4) % 7).toNat
    hour := clock / 3600
    minute := clock / 60 % 60
    second := clock % 60
    millisecond := (ms % 1000).toNat }

def monthNames : List String :=
  ["January", "February", "March", "April", "May", "June", "July", "August", "September",
    "October", "November", "December"]

def weekdayNames : List String :=
  ["Sunday", "Monday", "Tuesday", "Wednesday", "Thursday", "Friday", "Saturday"]

/-- At least `width` digits, behind a sign if there is one. -/
def padded (width : Nat) (n : Int) : String :=
  let digits := toString n.natAbs
  let zeros := String.ofList (List.replicate (width - digits.length) '0')
  (if n < 0 then "-" else "") ++ zeros ++ digits

def monthName (m : Moment) : String :=
  monthNames.getD (m.month - 1) ""

def weekdayName (m : Moment) : String :=
  weekdayNames.getD m.weekday ""

/-- The first three letters of a name. -/
def short (name : String) : String :=
  String.ofList (name.toList.take 3)

/-- Hours on a clock face: from 1 to 12. -/
def clockHour (m : Moment) : Nat :=
  if m.hour % 12 = 0 then 12 else m.hour % 12

/-- Date and time with the zone; milliseconds only if there are any, without zeros at the end. -/
def stamp (m : Moment) : String :=
  let millis := padded 3 m.millisecond
  let millis := String.ofList (millis.toList.reverse.dropWhile (· == '0')).reverse
  padded 4 m.year ++ "-" ++ padded 2 m.month ++ "-" ++ padded 2 m.day ++ " " ++ padded 2 m.hour ++
    ":" ++ padded 2 m.minute ++ ":" ++ padded 2 m.second ++
    (if m.millisecond = 0 then "" else "." ++ millis) ++ " +0000 UTC"

end Moment

end Phrasebook
