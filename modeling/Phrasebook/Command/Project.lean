import Phrasebook.Command.Console
import Phrasebook.Command.Flags
import Phrasebook.Settings.Write

/-!
Setting up a project: a settings file and a first catalog.
-/
namespace Phrasebook.Command

open Effect

def sampleCatalog : String :=
  "\x7b\n  \"greeting\": \"Hello, \x7bname\x7d!\",\n" ++
    "  \"inbox\": \"You have \x7bcount, plural, =0 \x7bno messages\x7d one \x7bone message\x7d " ++
    "other \x7b# messages\x7d\x7d.\"\n\x7d\n"

/-- The text of the settings file of a new project. -/
def sampleSettings : String :=
  let s := Settings.standard
  "# icuc project manifest\n" ++ Settings.text { s with
    compile := { s.compile with inputs := some ["messages"], outDir := "generated" } }

/-- Makes sure that there is a directory under an absolute path. -/
def openDirectory (target : String) : Effect Unit := do
  let d ← disk
  match d.lookup target with
  | .ok e => if !e.isDirectory then stop s!"{Text.quote target} is not a directory"
  | .error .missing =>
    setDisk (← lift (fun e => s!"failed to create directory {Text.quote target}: {e.message}")
      (d.makeDirectories target))
  | .error f => stop (DiskError.message ⟨"stat", target, f⟩)

/-- Writes the sample catalog unless there is one, and says whether it did. -/
def addCatalog (path : String) : Effect Bool := do
  let d ← disk
  match d.lookup path with
  | .error .missing =>
    let d ← lift DiskError.message (d.makeDirectories (Path.dir path))
    setDisk d
    setDisk (← lift (fun e => s!"failed to write sample catalog: {e.message}")
      (d.write path (Bytes.ofText sampleCatalog)))
    return true
  | _ => return false

/-- Sets up a project. Settings that are there already are only replaced by force. -/
def initProject (g : Given) : Effect Unit := do
  let cwd := (← disk).cwd
  let target := Path.absolute cwd (g.words.head?.getD ".")
  openDirectory target
  let settings := Path.join [target, Settings.fileName]
  let d ← disk
  if d.exists? settings && !g.truth "force" then
    stop s!"project already initialized: {settings} exists"
  setDisk (← lift (fun e => s!"failed to write manifest: {e.message}")
    (d.write settings (Bytes.ofText sampleSettings)))
  let created ← addCatalog (Path.join [target, "messages", "en.json"])
  print (s!"Initialized icuc project in {(Path.relative? cwd target).getD target}\n" ++
    s!"  - {Settings.fileName}\n" ++
    (if created then "  - messages/en.json\n" else "  - messages/en.json (existing)\n"))

end Phrasebook.Command
