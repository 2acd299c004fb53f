import Phrasebook.Decimal.Whole
import Phrasebook.Settings.Basic

/-!
Environment variables, and the settings that they override. An empty one counts as unset.
-/
namespace Phrasebook

abbrev Environment := List (String × String)

namespace Environment

def get (e : Environment) (name : String) : String :=
  ((e.find? (·.1 == name)).map (·.2)).getD ""

def get? (e : Environment) (name : String) : Option String :=
  let v := e.get name
  if v = "" then none else some v

end Environment

namespace Settings

/-- Overrides one setting, unless its variable is unset; a refused value is noted. -/
def override {α : Type} (e : Environment) (key name type : String)
    (read : String → Except String α) (set : CompileSettings → α → CompileSettings)
    (s : CompileSettings × List VariableFault) : CompileSettings × List VariableFault :=
  match e.get? key with
  | none => s
  | some v =>
    match read v with
    | .ok a => (set s.1 a, s.2)
    | .error reason => (s.1, s.2 ++ [⟨name, type, reason⟩])

def overrideText (e : Environment) (key name : String)
    (set : CompileSettings → String → CompileSettings) :
    CompileSettings × List VariableFault → CompileSettings × List VariableFault :=
  override e key name "string" .ok set

def overrideFlag (e : Environment) (key name : String)
    (set : CompileSettings → Bool → CompileSettings) :
    CompileSettings × List VariableFault → CompileSettings × List VariableFault :=
  override e key name "bool"
    (fun v => (Decimal.truth v).mapError (Decimal.truthMessage v)) set

/-- All overrides, in the order in which their faults are told. -/
def overrideCompile (e : Environment) (c : CompileSettings) :
    CompileSettings × List VariableFault :=
  let s := (c, [])
  let s := overrideText e "ICUC_LOCALE" "Locale" (fun c v => { c with locale := v }) s
  let s := overrideText e "ICUC_TARGET" "Target" (fun c v => { c with target := v }) s
  let s := overrideFlag e "ICUC_TYPESCRIPT" "TypeScript" (fun c b => { c with types := b }) s
  let s := overrideText e "ICUC_JSX" "JSX" (fun c v => { c with markup := v }) s
  let s := overrideFlag e "ICUC_DECLARATIONS" "Declarations"
    (fun c b => { c with declarations := b }) s
  let s := overrideText e "ICUC_OUT_DIR" "OutDir" (fun c v => { c with outDir := v }) s
  let s := overrideText e "ICUC_INPUTS" "Inputs" (fun c v =>
    { c with inputs := some ((Text.splitAt ',' v.toList).map String.ofList) }) s
  let s := override e "ICUC_JOBS" "Jobs" "int"
    (fun v => (Decimal.signed false 32 v).mapError (Decimal.signedMessage v))
    (fun c n => { c with jobs := n }) s
  overrideText e "ICUC_CACHE_DIR" "CacheDir" (fun c v => { c with cacheDir := v }) s

/-- The settings with all overrides, if they are valid then. -/
def applyEnvironment [LocaleData] (e : Environment) (s : Settings) :
    Except SettingsError Settings :=
  match overrideCompile e s.compile with
  | (compile, []) =>
    validate { s with compile, logLevel := (e.get? "ICUC_LOG_LEVEL").getD s.logLevel }
  | (_, faults) => .error ⟨"", .environment faults⟩

end Settings

end Phrasebook
