import Phrasebook.Build.File

/-!
Building many catalogs, one after the other.
-/
namespace Phrasebook.Build

/-- What came of every catalog, in the order they were given; a catalog that was never reached has
no report. -/
structure RunReport where
  files : List (Option FileReport)
  failure : Option String

namespace RunReport

def reports (r : RunReport) : List FileReport :=
  r.files.filterMap id

def failed (r : RunReport) : List FileReport :=
  r.reports.filter (·.failed)

end RunReport

/-- All failures in one text. -/
def failureText (failures : List String) : String :=
  let n := failures.length
  (if n = 1 then "1 error occurred:" else s!"{n} errors occurred:") ++ "\n" ++
    String.join (failures.map fun f => "\t* " ++ f ++ "\n") ++ "\n"

/-- The failures of a run as one text, if there are any. -/
def runFailure? (reports : List FileReport) : Option String :=
  match reports.filterMap fun r => r.failure.map fun f => r.path ++ ": " ++ f.message with
  | [] => none
  | failures => some (failureText failures)

/-- Builds the catalogs in order on one disk. -/
def compileEach (d : Disk) (o : Options) : List String → Disk × List FileReport
  | [] => (d, [])
  | path :: rest =>
    let (d, r) := compileFile d o false path
    let (d, rs) := compileEach d o rest
    (d, r :: rs)

/-- Builds all catalogs. A run that is cancelled from the start reaches none of them. -/
def compileFiles (d : Disk) (o : Options) (cancelled : Bool) (paths : List String) :
    Disk × RunReport :=
  if paths.isEmpty then (d, ⟨[], none⟩)
  else if cancelled then (d, ⟨paths.map fun _ => none, some Failure.cancelled.message⟩)
  else
    let (d, rs) := compileEach d o paths
    (d, ⟨rs.map some, runFailure? rs⟩)

end Phrasebook.Build
