import Phrasebook.Locale.Data

/-!
Plural categories in the languages that have rules of their own here, in counting and in ranking.
Any other language counts as English does, and has no ranks.
-/
namespace Phrasebook.CommonLocales

open Plural

def within (low high n : Nat) : Bool :=
  low ≤ n && n ≤ high

/-- Categories in counting: 1 apple, 2 apples. -/
def cardinal (language : String) (o : Operands) : Category :=
  let n := o.i
  let isWhole := o.v == 0
  match language with
  | "ja" => .other
  | "fr" => if n ≤ 1 then .one else .other
  | "ru" =>
    if !isWhole then .other
    else if n % 10 == 1 && n % 100 != 11 then .one
    else if within 2 4 (n % 10) && !within 12 14 (n % 100) then .few
    else .many
  | "pl" =>
    if !isWhole then .other
    else if n == 1 then .one
    else if within 2 4 (n % 10) && !within 12 14 (n % 100) then .few
    else .many
  | "ar" =>
    if !isWhole then .other
    else if n == 0 then .zero
    else if n == 1 then .one
    else if n == 2 then .two
    else if within 3 10 (n % 100) then .few
    else if within 11 99 (n % 100) then .many
    else .other
  | _ => if isWhole && n == 1 then .one else .other

/-- Categories in ranking: 1st, 2nd. -/
def ordinal (language : String) (o : Operands) : Category :=
  let n := o.i
  if o.v != 0 then .other
  else
    match language with
    | "en" =>
      if n % 10 == 1 && n % 100 != 11 then .one
      else if n % 10 == 2 && n % 100 != 12 then .two
      else if n % 10 == 3 && n % 100 != 13 then .few
      else .other
    | "fr" => if n == 1 then .one else .other
    | _ => .other

end Phrasebook.CommonLocales
