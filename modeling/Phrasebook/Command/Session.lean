import Phrasebook.Build.Findings
import Phrasebook.Build.Inputs
import Phrasebook.Command.Flags
import Phrasebook.Command.Logger
import Phrasebook.Release
import Phrasebook.Settings.Load

/-!
What the commands that compile have in common: profiles, settings, a log, inputs and a cache.
-/
namespace Phrasebook.Command

open Effect

structure Session where
  settings : Settings
  log : Logger

/-! ### Profiles -/

/-- Stands for the content of a profile. -/
def profileContent : Bytes := Bytes.ofText "profile"

/-- Writes a profile if a path is given for it. -/
def writeProfile (path : String) : Effect (Option DiskError) := do
  if path = "" then return none
  match (← disk).write path profileContent with
  | .ok d => setDisk d; return none
  | .error e => return some e

/-- Begins the profiles of a run. -/
def startProfiles (g : Given) : Effect Unit := do
  if let some e ← writeProfile (g.text "cpu-profile" "") then
    stop s!"failed to start cpu profile: {e.message}"
  if let some e ← writeProfile (g.text "runtime-trace" "") then
    stop s!"failed to start trace: {e.message}"

/-- Ends the profiles of a run; this never fails. -/
def stopProfiles (g : Given) : Effect Unit := do
  if let some e ← writeProfile (g.text "mem-profile" "") then
    report s!"profiling: failed to write heap profile: {e.message}\n"

/-- Runs a command between the begin and the end of its profiles. -/
def profiled (g : Given) (body : Effect Unit) : Effect Unit := do
  startProfiles g
  try
    body
  catch e =>
    stopProfiles g
    throw e
  stopProfiles g

/-! ### Settings -/

/-- The settings that a command line asks for, and the log. -/
def openSession [LocaleData] (env : Environment) (g : Given) : Effect Session := do
  let d ← disk
  let path := g.text "config" ""
  let settings ←
    if path = "" then lift SettingsRefusal.message (Settings.discover d env d.cwd)
    else lift SettingsError.message ((Settings.load d path).bind (Settings.applyEnvironment env))
  let named := g.text "log-level" ""
  let level := if named = "" then settings.logLevel else named
  let refusal (e : Logger.LevelFault) := s!"invalid log level {Text.quote level}: {e.message}"
  let log ← lift refusal (Logger.ofText level)
  if settings.path ≠ "" then
    log.write ⟨.debug, [("path", .text settings.path)], "config loaded"⟩
  return ⟨settings, log⟩

/-- The settings with those that flags override. -/
def overrideFlags (g : Given) (s : Settings) : Settings :=
  let c := s.compile
  let flag (name : String) (old : Bool) : Bool :=
    if (g.value? name).isSome then g.truth name else old
  { s with compile := { c with
      locale := g.text "locale" c.locale
      target := g.text "target" c.target
      types := flag "ts" c.types
      markup := g.text "jsx" c.markup
      declarations := flag "declarations" c.declarations
      outDir := g.text "out-dir" c.outDir
      jobs := g.whole "jobs" c.jobs } }

def Session.override [LocaleData] (g : Given) (s : Session) : Effect Session := do
  let settings ← lift SettingsError.message (overrideFlags g s.settings).validate
  return { s with settings }

/-- The files to compile: those named, or else those of the settings. -/
def Session.inputs (s : Session) (words : List String) : Effect (List String) := do
  let d ← disk
  if !words.isEmpty then lift Build.InputError.message (Build.expandInputs d d.cwd words)
  else
    match s.settings.compile.inputs.getD [] with
    | [] => stop s!"no inputs: pass message files or set [compile] inputs in {Settings.fileName}"
    | inputs => lift Build.InputError.message (Build.expandInputs d s.settings.root inputs)

/-- How the settings have catalogs built. -/
def Session.buildOptions (s : Session) (g : Given) : Effect Build.Options := do
  let compile ← lift SettingsFault.message s.settings.compileOptions
  let print ← lift SettingsFault.message s.settings.printStyle
  return {
    compile, print
    declarations := s.settings.compile.declarations
    outDir := s.settings.resolve s.settings.compile.outDir
    baseDir := s.settings.root
    write := false
    keepGoing := false
    maxDiagnostics := g.whole "max-diagnostics" 100
    cache := none
    timings := false }

/-- The directory of the cache: the one of the settings, or one for the user. -/
def Session.cacheDirectory (s : Session) (env : Environment) : Except String String :=
  let own := s.settings.compile.cacheDir
  if own ≠ "" then .ok (Path.clean (s.settings.resolve own))
  else
    match env.get? "XDG_CACHE_HOME", env.get? "HOME" with
    | some base, _ => .ok (Path.join [base, toolName])
    | none, some home => .ok (Path.join [home, ".cache", toolName])
    | none, none => .error "$HOME is not defined"

/-- Opens the cache. One that cannot be opened is done without. -/
def Session.openCache (s : Session) (env : Environment) : Effect (Option String) := do
  let d ← disk
  let opened : Except String (String × Disk) := do
    let dir ← s.cacheDirectory env
    match Build.Cache.openAt d dir with
    | .ok d => .ok (dir, d)
    | .error e => .error e.message
  match opened with
  | .ok (dir, d) =>
    setDisk d
    s.log.write ⟨.debug, [("dir", .text dir)], "disk cache"⟩
    return some dir
  | .error message =>
    s.log.write ⟨.warn, [("error", .text message)], "disk cache disabled"⟩
    return none

/-- Whether output is coloured. Nothing is written to a terminal. -/
def isColored (g : Given) : Bool :=
  g.text "color" "auto" == "on"

end Phrasebook.Command
