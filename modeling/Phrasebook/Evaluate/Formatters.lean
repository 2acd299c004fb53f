import Phrasebook.Evaluate.Value

/-!
Constructing formatters from the arguments a program gives: a locale and an object of options.
-/
namespace Phrasebook

/-- The options that an argument holds; anything but an object holds none. -/
def Value.entries : Value → List (String × Value)
  | .object _ entries => entries
  | _ => []

namespace Evaluate

def option? (entries : List (String × Value)) (key : String) : Option Value :=
  (entries.find? (·.1 == key)).map (·.2)

/-- An option that is a text; any other reads as empty. -/
def textOption (entries : List (String × Value)) (key : String) : String :=
  match option? entries key with
  | some (.text s) => s
  | _ => ""

/-- An option that is a number, cut to its whole part. -/
def countOption? (entries : List (String × Value)) (key : String) : Option Int :=
  match option? entries key with
  | some (.number x) => some (Value.wholeOf x)
  | _ => none

def numberStyle (entries : List (String × Value)) : NumberStyle :=
  match textOption entries "style" with
  | "percent" => .percent
  | "currency" => .currency (textOption entries "currency")
  | _ => .decimal

def numberOptions (entries : List (String × Value)) : NumberOptions :=
  { style := numberStyle entries
    maxFraction := countOption? entries "maximumFractionDigits"
    minFraction := countOption? entries "minimumFractionDigits"
    minInteger := countOption? entries "minimumIntegerDigits"
    grouping := match option? entries "useGrouping" with
      | some (.flag b) => b
      | _ => true }

def dateFormat (entries : List (String × Value)) : DateFormat :=
  let field := textOption entries
  { year := field "year"
    month := field "month"
    day := field "day"
    weekday := field "weekday"
    hour := field "hour"
    minute := field "minute"
    second := field "second"
    zone := field "timeZoneName" }

/-- A formatter of a class for a locale, by its options. -/
def construct (c : FormatterClass) (locale : Locale) (entries : List (String × Value)) :
    Formatter :=
  match c with
  | .number => .number ⟨locale, numberOptions entries⟩
  | .date => .date (dateFormat entries)
  | .plural => .plural ⟨locale, textOption entries "type" == "ordinal"⟩

end Evaluate

/-- Applies a formatter to the first argument of a call. -/
def Formatter.apply [LocaleData] (f : Formatter) (args : List Value) : String :=
  match f, args with
  | .number _, [] => "NaN"
  | .number f, v :: _ => f.format v.toNumber
  | .date _, [] => "Invalid Date"
  | .date f, v :: _ => (v.moment?.map f.format).getD "Invalid Date"
  | .plural _, [] => Plural.Category.other.name
  | .plural rules, v :: _ => (rules.select v.toNumber).name

/-- The name of the one method a formatter has. -/
def Formatter.methodName : Formatter → String
  | .number _ | .date _ => "format"
  | .plural _ => "select"

end Phrasebook
