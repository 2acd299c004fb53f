import Phrasebook.Locale.Common.Numbers
import Phrasebook.Locale.Common.Plurals
import Phrasebook.Locale.Common.Tag

/-!
The locale data the program comes with: a few languages and currencies, and the names of locales.
-/
namespace Phrasebook

/-- The data of the common locales. -/
@[reducible] def LocaleData.common : LocaleData where
  parse name := (CommonLocales.parse name).mapError CommonLocales.Fault.message
  decimal := CommonLocales.decimal
  percent := CommonLocales.percent
  currency? := CommonLocales.currency?
  symbol _ := CommonLocales.currencySymbol
  places := CommonLocales.currencyPlaces
  category l ranking o :=
    if ranking then CommonLocales.ordinal l.name o else CommonLocales.cardinal l.name o

instance : Inhabited LocaleData := ⟨.common⟩

end Phrasebook
