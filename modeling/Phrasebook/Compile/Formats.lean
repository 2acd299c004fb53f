import Phrasebook.Message.Node

/-!
Named format styles. A style of the user replaces the built-in one of the same name as a whole.
-/
namespace Phrasebook

/-- Style names and their options. -/
abbrev StyleTable := List (String × FormatOptions)

structure Formats where
  number : StyleTable
  date : StyleTable
  time : StyleTable

namespace StyleTable

def get? (t : StyleTable) (name : String) : Option FormatOptions :=
  (t.find? (·.1 == name)).map (·.2)

/-- Styles of `top` hide those of `base`. -/
def overlay (base top : StyleTable) : StyleTable :=
  base.filter (fun p => (top.get? p.1).isNone) ++ top

end StyleTable

namespace Formats

def empty : Formats := ⟨[], [], []⟩

def texts (pairs : List (String × String)) : FormatOptions :=
  pairs.map fun (k, v) => (k, .text v)

/-- The built-in styles. -/
def standard : Formats where
  number := [
    ("integer", [("maximumFractionDigits", .number 0)]),
    ("currency", texts [("style", "currency"), ("currency", "USD")]),
    ("percent", texts [("style", "percent")])]
  date := [
    ("short", texts [("month", "numeric"), ("day", "numeric"), ("year", "2-digit")]),
    ("medium", texts [("month", "short"), ("day", "numeric"), ("year", "numeric")]),
    ("long", texts [("month", "long"), ("day", "numeric"), ("year", "numeric")]),
    ("full", texts [("weekday", "long"), ("month", "long"), ("day", "numeric"),
      ("year", "numeric")])]
  time := [
    ("short", texts [("hour", "numeric"), ("minute", "numeric")]),
    ("medium", texts [("hour", "numeric"), ("minute", "numeric"), ("second", "numeric")]),
    ("long", texts [("hour", "numeric"), ("minute", "numeric"), ("second", "numeric"),
      ("timeZoneName", "short")]),
    ("full", texts [("hour", "numeric"), ("minute", "numeric"), ("second", "numeric"),
      ("timeZoneName", "short")])]

def overlay (base top : Formats) : Formats :=
  ⟨base.number.overlay top.number, base.date.overlay top.date, base.time.overlay top.time⟩

def table (f : Formats) : FormatKind → StyleTable
  | .number => f.number
  | .date => f.date
  | .time => f.time

/-- The options of a named style. `decimal` is the plain number format unless it is redefined. -/
def lookup? (f : Formats) (kind : FormatKind) (name : String) : Option FormatOptions :=
  match (f.table kind).get? name with
  | some o => some o
  | none => if kind = .number && name = "decimal" then some [] else none

end Formats

end Phrasebook
