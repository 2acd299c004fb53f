import Phrasebook.Decimal.Layout
import Phrasebook.Settings.Basic

/-!
Settings as the text of a settings file.
-/
namespace Phrasebook.Settings

/-- A number with a decimal point. -/
def floatText (x : Float) : String :=
  if x.isNaN then "nan"
  else if x.isInf then if Decimal.isNegative x then "-inf" else "+inf"
  else
    let digits := (Decimal.shortest (Decimal.Magnitude.ofFloat x)).positional
    (if Decimal.isNegative x then "-" else "") ++
      (if digits.toList.contains '.' then digits else digits ++ ".0")

/-- A value of an option. Valid settings hold no others. -/
def valueText : Toml.Value → String
  | .text s => Toml.quote s
  | .integer n => toString n
  | .float x => floatText x
  | .bool b => toString b
  | v => v.show

def entry (indent name value : String) : String :=
  s!"{indent}{Toml.showPart name} = {value}\n"

/-- The table of one style, two steps below the formats. -/
def styleText (kind name : String) (t : Toml.Table) : String :=
  "    [" ++ Toml.Key.show ["formats", kind, name] ++ "]\n" ++
    String.join ((List.mergeSort t fun a b => textLe a.1 b.1).map fun (k, v) =>
      entry "      " k (valueText v))

/-- The styles of a kind, names ascending; nothing without styles. -/
def stylesText (kind : String) (s : StyleSettings) : String :=
  if s.isEmpty then ""
  else s!"  [formats.{kind}]\n" ++ String.join (s.sorted.map fun (name, table) =>
    match table with
    | some t => styleText kind name t
    | none => "")

/-- The text of a settings file that holds these settings. -/
def text (s : Settings) : String :=
  let c := s.compile
  let line := entry "  "
  let inputs := match c.inputs with
    | some ts => line "inputs" ("[" ++ Text.join ", " (ts.map Toml.quote) ++ "]")
    | none => ""
  "[compile]\n" ++ line "locale" (Toml.quote c.locale) ++ line "target" (Toml.quote c.target) ++
    line "typescript" (toString c.types) ++ line "jsx" (Toml.quote c.markup) ++
    line "declarations" (toString c.declarations) ++ line "out_dir" (Toml.quote c.outDir) ++
    inputs ++ line "jobs" (toString c.jobs) ++ line "cache_dir" (Toml.quote c.cacheDir) ++
    "\n[formats]\n" ++ stylesText "number" s.number ++ stylesText "date" s.date ++
    stylesText "time" s.time ++ "\n[log]\n" ++ line "level" (Toml.quote s.logLevel)

end Phrasebook.Settings
