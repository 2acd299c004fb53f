import Phrasebook.Locale.Data

/-!
Plural rules: which form of a noun goes with a number, in counting or in ranking.
-/
namespace Phrasebook

structure PluralRules where
  locale : Locale
  ranking : Bool
  deriving DecidableEq

/-- The category of a number; one that is not finite is `other`. -/
def PluralRules.select [LocaleData] (rules : PluralRules) (x : Float) : Plural.Category :=
  if x.isNaN || x.isInf then .other
  else LocaleData.category rules.locale rules.ranking (.ofFloat x)

end Phrasebook
