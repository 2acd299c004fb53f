import Phrasebook.Locale.Data

/-!
Formats of numbers: as they are, as a percentage or as an amount of money.
-/
namespace Phrasebook

inductive NumberStyle where
  | decimal
  | percent
  | currency (code : String)
  deriving DecidableEq

/-- The options of a number format. Digit counts are as they were asked for. -/
structure NumberOptions where
  style : NumberStyle
  maxFraction : Option Int
  minFraction : Option Int
  minInteger : Option Int
  grouping : Bool
  deriving DecidableEq

/-- The wishes about digits in the order in which they are passed on. -/
def NumberOptions.wishes (o : NumberOptions) : List DigitOption :=
  (o.maxFraction.map DigitOption.maxFraction).toList ++
    (o.minFraction.map DigitOption.minFraction).toList ++
    (o.minInteger.map DigitOption.minInteger).toList ++
    if o.grouping then [] else [.noSeparator]

structure NumberFormat where
  locale : Locale
  options : NumberOptions
  deriving DecidableEq

namespace NumberFormat

variable [LocaleData]

/-- An amount of money: the symbol stands between sign and digits. Without any wish for fraction
digits it has those of its currency. -/
def amount (f : NumberFormat) (unit : Currency) (x : Float) : String :=
  let own := f.options.maxFraction.isNone && f.options.minFraction.isNone
  let places : Int := LocaleData.places unit
  let wishes := f.options.wishes ++
    if own then [.minFraction places, .maxFraction places] else []
  let digits (x : Float) := LocaleData.symbol f.locale unit ++ LocaleData.decimal f.locale wishes x
  if x < 0 then "-" ++ digits (-x) else digits x

/-- A number in its locale. What is no currency is written as a plain number. -/
def format (f : NumberFormat) (x : Float) : String :=
  if x.isNaN then "NaN"
  else
    match f.options.style with
    | .decimal => LocaleData.decimal f.locale f.options.wishes x
    | .percent => LocaleData.percent f.locale f.options.wishes x
    | .currency code =>
      match LocaleData.currency? code with
      | some unit => f.amount unit x
      | none => LocaleData.decimal f.locale f.options.wishes x

end NumberFormat

end Phrasebook
