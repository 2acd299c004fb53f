import Phrasebook.Decimal.Layout

/-!
What languages make of numbers. The tables behind it are not part of the program: it takes them as
they are given, and holds for any of them.
-/
namespace Phrasebook

/-- A locale, told by its name. -/
structure Locale where
  name : String
  deriving DecidableEq

def Locale.english : Locale := ⟨"en"⟩

/-- A currency, told by its code. -/
structure Currency where
  code : String
  deriving DecidableEq

/-- A wish about the digits of a number. Of two wishes for one thing the later counts. -/
inductive DigitOption where
  | maxFraction (n : Int)
  | minFraction (n : Int)
  | minInteger (n : Int)
  | noSeparator
  deriving DecidableEq

namespace Plural

/-- The forms a noun takes with numbers. -/
inductive Category where
  | zero | one | two | few | many | other
  deriving DecidableEq

def Category.name : Category → String
  | .zero => "zero"
  | .one => "one"
  | .two => "two"
  | .few => "few"
  | .many => "many"
  | .other => "other"

/-- What plural rules look at, under the letters the rules have for it: the whole part of a number,
how many digits it shows behind the point, with and without the zeros at the end, and these digits
read as a number, with and without the zeros. -/
structure Operands where
  i : Nat
  v : Nat
  w : Nat
  f : Nat
  t : Nat
  deriving DecidableEq

/-- The number of some digits; numbers are counted up to the largest of 63 bits. -/
def wordOf (digits : List Nat) : Nat :=
  min (digits.foldl (fun n d => n * 10 + d) 0) 0x7FFFFFFFFFFFFFFF

/-- The operands of a finite number, taken from its shortest decimal. Its sign does not matter. -/
def Operands.ofFloat (x : Float) : Operands :=
  let d := Decimal.shortest (Decimal.Magnitude.ofFloat x)
  let before := d.point.toNat
  let whole := d.digits.take before
  let fraction := List.replicate (-d.point).toNat 0 ++ d.digits.drop before
  let kept := Decimal.stripZeros fraction
  ⟨wordOf (whole ++ List.replicate (before - whole.length) 0), fraction.length, kept.length,
    wordOf fraction, wordOf kept⟩

end Plural

/-- The data of locales: which names are locales, or else what is wrong with one; numbers, also as
percentages, with wishes about their digits; the currency of a code, its symbol, and how many places
its amounts have; the plural category of a number, in counting or in ranking. -/
class LocaleData where
  parse : String → Except String Locale
  decimal : Locale → List DigitOption → Float → String
  percent : Locale → List DigitOption → Float → String
  currency? : String → Option Currency
  symbol : Locale → Currency → String
  places : Currency → Nat
  category : Locale → (ranking : Bool) → Plural.Operands → Plural.Category

end Phrasebook
