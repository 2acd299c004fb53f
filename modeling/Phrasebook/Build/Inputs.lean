import Phrasebook.Disk.Glob
import Phrasebook.Text.Quoted

/-!
What a build reads: files, directories and patterns become a list of message catalogs.
-/
namespace Phrasebook.Build

/-- The extension of catalogs found in directories. -/
def catalogExtension : String := ".json"

inductive InputError where
  | badPattern (input : String)
  | noMatch (input : String)
  | disk (e : DiskError)

def InputError.message : InputError → String
  | .badPattern input => s!"bad input pattern {Text.quote input}: syntax error in pattern"
  | .noMatch input => s!"input {Text.quote input} matched no files"
  | .disk e => e.message

/-- The catalogs in a directory and in those below it. -/
def catalogsBelow (d : Disk) (dir : String) : List String :=
  let root := Path.absolute d.cwd dir
  d.files.filterMap fun (p, _) =>
    if Disk.isWithin root p && p.endsWith catalogExtension then
      (Path.relative? root p).map fun r => Path.join [dir, r]
    else none

/-- The files that one input stands for. -/
def expandInput (d : Disk) (base input : String) : Except InputError (List String) :=
  if Text.trimText input = "" then .ok []
  else
    let pattern :=
      if base ≠ "" && !Path.isAbsolute input then Path.join [base, input] else input
    match d.glob? pattern with
    | none => .error (.badPattern input)
    | some [] => .error (.noMatch input)
    | some found => do
      let lists ← found.mapM fun p =>
        match d.isDirectory p with
        | .ok true => Except.ok (catalogsBelow d p)
        | .ok false => .ok [p]
        | .error e => .error (.disk e)
      return lists.flatten

/-- All files that the inputs stand for, ascending and each once. Relative inputs start from
`base`. -/
def expandInputs (d : Disk) (base : String) (inputs : List String) :
    Except InputError (List String) := do
  let lists ← inputs.mapM (expandInput d base)
  return List.mergeSort (lists.flatten.map Path.clean).eraseDups textLe

end Phrasebook.Build
