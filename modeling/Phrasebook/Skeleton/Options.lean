import Phrasebook.Decimal.Layout
import Phrasebook.Text.Blank
import Phrasebook.Text.Quoted

/-!
Formatter options: an ordered object whose values are texts, numbers and truth values. Its
canonical text does not depend on the order of the keys.
-/
namespace Phrasebook

/-- A value of a formatter option. A `foreign` value is one that no formatter takes; it keeps how
it is shown and the name of its type. -/
inductive OptionValue where
  | text (s : String)
  | number (x : Float)
  | flag (b : Bool)
  | foreign (shown type : String)

namespace OptionValue

/-- No value at all. -/
def missing : OptionValue := .foreign "<nil>" "<nil>"

/-- The value with a mark of its type in front. -/
def canonical : OptionValue → String
  | .text s => "s" ++ Text.quote s
  | .number x => "n" ++ Decimal.literal x
  | .flag b => "b" ++ toString b
  | .foreign shown _ => "?" ++ shown

end OptionValue

/-- An ordered option object. -/
abbrev FormatOptions := List (String × OptionValue)

/-- Texts are ordered by their bytes, which is the order of their characters. -/
def textLe (a b : String) : Bool :=
  a ≤ b

namespace FormatOptions

def get? (o : FormatOptions) (key : String) : Option OptionValue :=
  (o.find? (·.1 == key)).map (·.2)

/-- Replaces the value under the first occurrence of a key, or adds the key at the end. -/
def set (o : FormatOptions) (key : String) (value : OptionValue) : FormatOptions :=
  match o with
  | [] => [(key, value)]
  | (k, v) :: r => if k = key then (k, value) :: r else (k, v) :: set r key value

def setText (o : FormatOptions) (key value : String) : FormatOptions :=
  o.set key (.text value)

def setCount (o : FormatOptions) (key : String) (n : Nat) : FormatOptions :=
  o.set key (.number n.toFloat)

/-- The options with their keys in ascending order, equal keys as they stand. -/
def sorted (o : FormatOptions) : FormatOptions :=
  List.mergeSort o fun a b => textLe a.1 b.1

/-- The same for any order of the keys. -/
def canonical (o : FormatOptions) : String :=
  "\x7b" ++ Text.join "," (o.sorted.map fun (k, v) => Text.quote k ++ ":" ++ v.canonical) ++ "\x7d"

/-- A value that no formatter takes. -/
structure ForeignValue where
  key : String
  shown : String
  type : String

def ForeignValue.message (e : ForeignValue) : String :=
  s!"option {Text.quote e.key}: unsupported value {e.shown} ({e.type})"

/-- The options of a table, keys ascending. The first foreign value is refused. -/
def ofTable (table : List (String × OptionValue)) : Except ForeignValue FormatOptions :=
  (List.mergeSort table fun a b => textLe a.1 b.1).mapM fun (k, v) =>
    match v with
    | .foreign shown type => .error ⟨k, shown, type⟩
    | v => .ok (k, v)

end FormatOptions

end Phrasebook
