import Phrasebook.Command.Run
import Phrasebook.Locale.Common

/-!
The tool on a real disk. What a command may read is loaded first; what it changed is written back.
-/
namespace Phrasebook.Main

/-- The variables that commands look at. -/
def variableNames : List String :=
  ["ICUC_LOCALE", "ICUC_TARGET", "ICUC_TYPESCRIPT", "ICUC_JSX", "ICUC_DECLARATIONS",
    "ICUC_OUT_DIR", "ICUC_INPUTS", "ICUC_JOBS", "ICUC_CACHE_DIR", "ICUC_LOG_LEVEL",
    "XDG_CACHE_HOME", "HOME"]

def environment : IO Environment :=
  variableNames.filterMapM fun name => do
    return (← IO.getEnv name).map (name, ·)

/-- Loads a file, or a directory with all that is at most `depth` levels below it. -/
def load (depth : Nat) (d : Disk) (path : String) : IO Disk := do
  match depth with
  | 0 => return d
  | depth + 1 =>
    try
      let here ← IO.FS.realPath path
      if ← here.isDir then
        (← here.readDir).foldlM (fun d e => load depth d (path ++ "/" ++ e.fileName))
          (d.add path .directory)
      else
        let content ← IO.FS.readBinFile path
        return d.add path (.file content.toList)
    catch _ => return d

/-- The paths outside of the working directory that a command may read. -/
def outside (env : Environment) (cwd : String) (words : List String) : List String :=
  let above := (Disk.ancestors cwd).map fun dir => Path.join [dir, Settings.fileName]
  let caches := (env.get? "XDG_CACHE_HOME").toList.map (Path.join [·, toolName]) ++
    (env.get? "HOME").toList.map (Path.join [·, ".cache", toolName])
  let named := (words.map (Path.absolute cwd)).filter fun p => !Disk.isWithin cwd p && p != "/"
  above ++ caches ++ named

/-- How deep directories are read. -/
def depth : Nat := 64

def run (words : List String) : IO UInt32 := do
  let cwd := (← IO.currentDir).toString
  let env ← environment
  let before ← (cwd :: outside env cwd words).foldlM (load depth) (Disk.empty cwd)
  let o := @Command.run .common env before words
  for (path, content) in before.changes o.disk do
    IO.FS.createDirAll (Path.dir path)
    IO.FS.writeBinFile path ⟨content.toArray⟩
  (← IO.getStdout).putStr o.out
  (← IO.getStderr).putStr o.err
  return o.exit.toUInt32

end Phrasebook.Main

def main (words : List String) : IO UInt32 :=
  Phrasebook.Main.run words
