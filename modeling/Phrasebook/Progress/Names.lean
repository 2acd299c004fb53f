import Phrasebook.Skeleton.Options
import Phrasebook.Source.Path
import Phrasebook.Text.Blank

/-!
The names that progress is reported under.
-/
namespace Phrasebook.Progress

/-- The name of a file as seen from the directory `base`, which is absolute or empty. Below the
directory it is relative. -/
def nameFrom (cwd base file : String) : String :=
  let path := Path.clean file
  if base = "" then path
  else
    let target := Path.absolute cwd path
    match Path.relative? base target with
    | some r => if r = "." || "..".isPrefixOf r then target else r
    | none => target

/-- The directory that names are seen from, without white space around it. -/
def baseOf (cwd base : String) : String :=
  let b := Text.trimText base
  if b = "" then "" else Path.absolute cwd b

/-- The names of all files, ascending and each once; empty paths have none. -/
def names (cwd base : String) (files : List String) : List String :=
  List.mergeSort ((files.filter (· ≠ "")).map (nameFrom cwd (baseOf cwd base))).eraseDups textLe

/-- The name of one file. -/
def name (cwd base file : String) : String :=
  if file = "" then file else nameFrom cwd (baseOf cwd base) file

end Phrasebook.Progress
