import Phrasebook.Decimal.Fixed
import Phrasebook.Locale.Data

/-!
Numbers in the languages that have tables of their own here: rounded to so many places, and grouped
by thousands. Any other language writes them as English does.
-/
namespace Phrasebook.CommonLocales

/-- The signs a language writes numbers with. -/
structure NumberSigns where
  point : String
  group : String
  percent : String
  deriving DecidableEq

def noBreakSpace : String := "\u00a0"

def NumberSigns.of (language : String) : NumberSigns :=
  match language with
  | "de" => ⟨",", ".", noBreakSpace ++ "%"⟩
  | "fr" | "ru" => ⟨",", noBreakSpace, noBreakSpace ++ "%"⟩
  | "pl" => ⟨",", noBreakSpace, "%"⟩
  | _ => ⟨".", ",", "%"⟩

/-- The currencies with a known symbol; letter case does not matter. -/
def currency? (code : String) : Option Currency :=
  let code := code.toUpper
  if ["USD", "EUR", "GBP", "JPY"].contains code then some ⟨code⟩ else none

def currencySymbol (unit : Currency) : String :=
  match unit.code with
  | "USD" => "$"
  | "EUR" => "€"
  | "GBP" => "£"
  | "JPY" => "¥"
  | code => code

def currencyPlaces (unit : Currency) : Nat :=
  if unit.code = "JPY" then 0 else 2

/-- What the wishes about digits come to. Digit counts are as they were asked for; a negative
`maxFraction` means that nothing is rounded. -/
structure DigitOptions where
  maxFraction : Option Int
  minFraction : Option Int
  minInteger : Option Int
  grouping : Bool

def DigitOptions.add (o : DigitOptions) : DigitOption → DigitOptions
  | .maxFraction n => { o with maxFraction := some n }
  | .minFraction n => { o with minFraction := some n }
  | .minInteger n => { o with minInteger := some n }
  | .noSeparator => { o with grouping := false }

def DigitOptions.of (wishes : List DigitOption) : DigitOptions :=
  wishes.foldl DigitOptions.add ⟨none, none, none, true⟩

/-- Counts are kept in one byte: larger ones are cut to the largest, negative ones wrap. -/
def byteCount (n : Int) : Nat :=
  if n ≥ 256 then 255 else (n % 256).toNat

/-- The largest number of places is kept in two bytes, with a sign. -/
def placeCount (n : Int) : Int :=
  if n ≥ 32768 then 32767 else Int.bmod n 65536

/-- The digits of `|x| × 10 ^ shift` rounded to `places` places. The exact value of `x` is
rounded, not its shortest decimal. -/
def rounded (x : Float) (shift places : Nat) : Decimal.Digits :=
  let n := Decimal.scaled x (places + shift)
  if n = 0 then ⟨[], 0⟩
  else
    let ds := Decimal.digitsOf n
    ⟨Decimal.stripZeros ds, (ds.length : Int) - places⟩

/-- Puts `sep` between groups of three digits, counted from the end. -/
def group (sep : String) : List Nat → String
  | [] => ""
  | d :: r =>
    Decimal.digitText [d] ++ (if r.length % 3 == 0 && !r.isEmpty then sep else "") ++ group sep r

/-- Writes digits with at least `minInteger` digits before the point and `minFraction` after it.
-/
def layout (signs : NumberSigns) (grouping : Bool) (minInteger minFraction : Nat)
    (d : Decimal.Digits) : String :=
  let before := d.point.toNat
  let shown := max ((d.digits.length : Int) - d.point).toNat minFraction
  let whole := d.digits.take before
  let whole := whole ++ List.replicate (before - whole.length) 0
  let least := if minInteger = 0 && shown = 0 then 1 else minInteger
  let whole := List.replicate (least - whole.length) 0 ++ whole
  let fraction := List.replicate (-d.point).toNat 0 ++ d.digits.drop before
  let fraction := fraction ++ List.replicate (shown - fraction.length) 0
  (if grouping then group signs.group whole else Decimal.digitText whole) ++
    if shown = 0 then "" else signs.point ++ Decimal.digitText fraction

/-- A number without its sign, of which `shift` places move before the point, and with
`defaultPlaces` places unless the wishes say otherwise. -/
def magnitude (signs : NumberSigns) (o : DigitOptions) (defaultPlaces shift : Nat) (x : Float) :
    String :=
  let places := (o.maxFraction.map placeCount).getD defaultPlaces
  let minFraction := (o.minFraction.map byteCount).getD 0
  let minInteger := (o.minInteger.map byteCount).getD 1
  if x.isInf then "∞"
  else
    let digits :=
      if places < 0 then
        let d := Decimal.shortest (Decimal.Magnitude.ofFloat x)
        if d.digits.isEmpty then d else ⟨d.digits, d.point + shift⟩
      else rounded x shift places.toNat
    layout signs o.grouping minInteger minFraction digits

def sign (x : Float) : String :=
  if x < 0 then "-" else ""

def decimal (l : Locale) (wishes : List DigitOption) (x : Float) : String :=
  sign x ++ magnitude (.of l.name) (.of wishes) 3 0 x

def percent (l : Locale) (wishes : List DigitOption) (x : Float) : String :=
  sign x ++ magnitude (.of l.name) (.of wishes) 0 2 x ++ (NumberSigns.of l.name).percent

end Phrasebook.CommonLocales
