import Phrasebook.Settings.Environment
import Phrasebook.Settings.Read

/-!
Settings of a project on disk: the nearest settings file at or above a directory, then the
environment.
-/
namespace Phrasebook

/-- Why there are no settings. -/
inductive SettingsRefusal where
  | unreachable (e : DiskError)
  | invalid (e : SettingsError)

def SettingsRefusal.message : SettingsRefusal → String
  | .unreachable e => s!"failed to stat {Text.quote e.path}: {e.message}"
  | .invalid e => e.message

namespace Settings

/-- The settings file in the first of some directories that has one. -/
def findIn (d : Disk) : List String → Except DiskError (Option String)
  | [] => .ok none
  | dir :: dirs =>
    let candidate := Path.join [dir, fileName]
    match d.lookup candidate with
    | .ok _ => .ok (some candidate)
    | .error .missing => findIn d dirs
    | .error f => .error ⟨"stat", candidate, f⟩

/-- The nearest settings file, from a directory upwards. -/
def find (d : Disk) (start : String) : Except DiskError (Option String) :=
  let dir := Path.absolute d.cwd start
  findIn d (dir :: (Disk.ancestors dir).reverse)

/-- Reads a settings file over the standard settings. -/
def load [LocaleData] (d : Disk) (path : String) : Except SettingsError Settings :=
  match d.read path with
  | .error e => .error ⟨path, .unreadable e⟩
  | .ok content =>
    match (Utf8.decode? content).bind Toml.Document.read? with
    | none => .error ⟨path, .malformed⟩
    | some document =>
      match ofDocument document with
      | .error f => .error ⟨path, f⟩
      | .ok s => validate { s with path, root := Path.dir path }

/-- The settings for a directory: those of the nearest file or else the standard ones, and the
overrides of the environment. -/
def discover [LocaleData] (d : Disk) (e : Environment) (start : String) :
    Except SettingsRefusal Settings :=
  match find d start with
  | .error err => .error (.unreachable err)
  | .ok found =>
    let base : Except SettingsError Settings := match found with
      | some path => load d path
      | none => .ok { standard with root := Path.absolute d.cwd start }
    (base.bind (applyEnvironment e)).mapError .invalid

end Settings

end Phrasebook
