import Phrasebook.Locale.Calendar
import Phrasebook.Text.Blank

/-!
Dates and times of day as text. The order of the parts is always month, day, year.
-/
namespace Phrasebook

/-- How each part of a date is asked for; an empty text leaves the part out. -/
structure DateFormat where
  year : String
  month : String
  day : String
  weekday : String
  hour : String
  minute : String
  second : String
  zone : String
  deriving DecidableEq

namespace DateFormat

def showsDate (f : DateFormat) : Bool :=
  f.year != "" || f.month != "" || f.day != "" || f.weekday != ""

def showsTime (f : DateFormat) : Bool :=
  f.hour != "" || f.minute != "" || f.second != ""

/-- A number in full or in two digits; any other wish leaves it out. -/
def numeral (wish full two : String) : String :=
  match wish with
  | "numeric" => full
  | "2-digit" => two
  | _ => ""

def yearText (f : DateFormat) (m : Moment) : String :=
  numeral f.year (Moment.padded 4 m.year)
    (Moment.padded 2 (if m.year < 0 then 0 else m.year % 100))

def dayText (f : DateFormat) (m : Moment) : String :=
  numeral f.day (toString m.day) (Moment.padded 2 m.day)

def datePart (f : DateFormat) (m : Moment) : String :=
  let year := f.yearText m
  let day := f.dayText m
  let date :=
    if f.month == "numeric" || f.month == "2-digit" || f.month == "" then
      let month := numeral f.month (toString m.month) (Moment.padded 2 m.month)
      Text.join "/" ([month, day, year].filter (· != ""))
    else
      let name := if f.month == "short" then Moment.short m.monthName else m.monthName
      name ++ (if day != "" then " " ++ day else "") ++ (if year != "" then ", " ++ year else "")
  let weekday := match f.weekday with
    | "long" => m.weekdayName
    | "short" => Moment.short m.weekdayName
    | _ => ""
  Text.join ", " ([weekday, date].filter (· != ""))

def timePart (f : DateFormat) (m : Moment) : String :=
  toString m.clockHour ++
    (if f.minute != "" then ":" ++ Moment.padded 2 m.minute else "") ++
    (if f.second != "" then ":" ++ Moment.padded 2 m.second else "") ++
    (if m.hour < 12 then " AM" else " PM") ++
    (if f.zone != "" then " UTC" else "")

/-- A moment as text. A format that asks for nothing shows the date in numbers. -/
def format (f : DateFormat) (m : Moment) : String :=
  if !f.showsDate && !f.showsTime then
    toString m.month ++ "/" ++ toString m.day ++ "/" ++ Moment.padded 4 m.year
  else
    Text.join ", " ((if f.showsDate then [f.datePart m] else []) ++
      (if f.showsTime then [f.timePart m] else []))

end DateFormat

end Phrasebook
