import Phrasebook.Compile.Module
import Phrasebook.Disk.Basic
import Phrasebook.Locale.Data
import Phrasebook.Program.Print
import Phrasebook.Toml.Document

/-!
The settings of a project and what makes them valid. Texts are kept as the user wrote them and
read when they are used.
-/
namespace Phrasebook

/-- The options of named styles. A style that is no table has no options. -/
abbrev StyleSettings := List (String × Option Toml.Table)

structure CompileSettings where
  locale : String
  target : String
  types : Bool
  markup : String
  declarations : Bool
  outDir : String
  inputs : Option (List String)
  jobs : Int
  cacheDir : String

structure Settings where
  /-- The file that they were read from, empty without one. -/
  path : String
  /-- The directory that relative paths start from. -/
  root : String
  compile : CompileSettings
  number : StyleSettings
  date : StyleSettings
  time : StyleSettings
  logLevel : String

/-- An environment variable that could not be read into the setting `name`. -/
structure VariableFault where
  name : String
  type : String
  reason : String

def VariableFault.message (f : VariableFault) : String :=
  s!"parse error on field {Text.quote f.name} of type {Text.quote f.type}: {f.reason}"

/-- What is wrong with settings. -/
inductive SettingsFault where
  | unreadable (e : DiskError)
  | malformed
  | unknownKeys (keys : List Toml.Key)
  | locale (name reason : String)
  | target (name : String)
  | markup (name : String)
  | negativeJobs (jobs : Int)
  | style (kind name : String) (value : FormatOptions.ForeignValue)
  | environment (faults : List VariableFault)

namespace SettingsFault

def code : SettingsFault → Code
  | .unknownKeys _ => .unknownSetting
  | .locale .. => .invalidLocale
  | .target _ | .markup _ => .invalidTarget
  | _ => .invalidSettings

/-- The words that a message about an unreadable file begins with. -/
def unreadableText : String := "failed to parse TOML"

/-- The word that a message about environment variables begins with. -/
def environmentText : String := "environment"

def message : SettingsFault → String
  | .unreadable e => s!"{unreadableText}: {e.message}"
  | .malformed => unreadableText
  | .unknownKeys keys => "unknown keys: " ++ Text.join ", " (keys.map Toml.Key.show)
  | .locale name reason => s!"locale {Text.quote name}: {reason}"
  | .target name => Compile.Target.unknownName name
  | .markup name => Program.MarkupMode.unknownName name
  | .negativeJobs jobs => s!"jobs must not be negative, got {jobs}"
  | .style kind name value => s!"[formats.{kind}.{name}]: {value.message}"
  | .environment faults =>
    environmentText ++ ": env: " ++ Text.join "; " (faults.map VariableFault.message)

end SettingsFault

/-- A fault with the file that it comes from. -/
structure SettingsError where
  path : String
  fault : SettingsFault

def SettingsError.message (e : SettingsError) : String :=
  let place := if e.path = "" then "" else " " ++ e.path
  s!"{e.fault.code.id}{place}: {e.fault.message}"

/-- A value of an option, if formatters take it. -/
def Toml.Value.toOption : Toml.Value → OptionValue
  | .text s => .text s
  | .integer n => .number (Float.ofInt n)
  | .float x => .number x
  | .bool b => .flag b
  | v => .foreign v.show v.typeName

namespace StyleSettings

def sorted (s : StyleSettings) : StyleSettings :=
  List.mergeSort s fun a b => textLe a.1 b.1

/-- The options of all styles of a kind. -/
def options (kind : String) (s : StyleSettings) : Except SettingsFault StyleTable :=
  s.sorted.mapM fun (name, table) =>
    match FormatOptions.ofTable ((table.getD []).map fun (k, v) => (k, v.toOption)) with
    | .ok o => .ok (name, o)
    | .error e => .error (.style kind name e)

end StyleSettings

namespace Settings

/-- The name of the settings file of a project. -/
def fileName : String := "icuc.toml"

def standard : Settings where
  path := ""
  root := ""
  compile := {
    locale := "en", target := Compile.Target.tree.name, types := false
    markup := Program.MarkupMode.preserve.name, declarations := false, outDir := ""
    inputs := none, jobs := 0, cacheDir := "" }
  number := []
  date := []
  time := []
  logLevel := "info"

def formats (s : Settings) : Except SettingsFault Formats := do
  return ⟨← s.number.options "number", ← s.date.options "date", ← s.time.options "time"⟩

/-- The first fault of settings. -/
def fault? [LocaleData] (s : Settings) : Option SettingsFault :=
  let c := s.compile
  match LocaleData.parse c.locale with
  | .error reason => some (.locale c.locale reason)
  | .ok _ =>
    if (Compile.Target.ofName? c.target).isNone then some (.target c.target)
    else if (Program.MarkupMode.ofName? c.markup).isNone then some (.markup c.markup)
    else if c.jobs < 0 then some (.negativeJobs c.jobs)
    else
      match s.formats with
      | .error f => some f
      | .ok _ => none

/-- The settings themselves if nothing is wrong with them. -/
def validate [LocaleData] (s : Settings) : Except SettingsError Settings :=
  match s.fault? with
  | some f => .error ⟨s.path, f⟩
  | none => .ok s

def compileOptions (s : Settings) : Except SettingsFault Compile.Options := do
  let some target := Compile.Target.ofName? s.compile.target | .error (.target s.compile.target)
  return { locale := s.compile.locale, formats := ← s.formats, target, file := "" }

def printStyle (s : Settings) : Except SettingsFault Program.PrintStyle :=
  match Program.MarkupMode.ofName? s.compile.markup with
  | some markup => .ok { types := s.compile.types, markup, namespaceName := "" }
  | none => .error (.markup s.compile.markup)

/-- A path seen from the root of the project. -/
def resolve (s : Settings) (p : String) : String :=
  if p = "" || Path.isAbsolute p || s.root = "" then p else Path.join [s.root, p]

end Settings

end Phrasebook
