import Phrasebook.Compile.Module
import Phrasebook.Program.Print

/-!
How a build compiles catalogs, and where the generated modules go.
-/
namespace Phrasebook.Build

/-- How catalogs are compiled and written. An empty output directory writes next to each catalog;
an empty base directory is the working directory. -/
structure Options where
  compile : Compile.Options
  print : Program.PrintStyle
  declarations : Bool
  outDir : String
  baseDir : String
  write : Bool
  /-- Go on with the other messages of a catalog after one has failed. -/
  keepGoing : Bool
  maxDiagnostics : Int
  /-- The directory of the cache, if there is one. -/
  cache : Option String
  /-- Add a diagnostic about the time taken to every file. -/
  timings : Bool

namespace Options

/-- Typed modules need no declarations beside them. -/
def wantsDeclarations (o : Options) : Bool :=
  o.declarations && !o.print.types

def diagnosticLimit (o : Options) : Int :=
  if o.maxDiagnostics ≤ 0 then 100 else o.maxDiagnostics

end Options

/-- The extension of generated declarations. -/
def declarationsExtension : String := ".d.ts"

/-- The path of a file inside of `base`. -/
def insideOf? (cwd base path : String) : Option String :=
  (Path.relative? (Path.absolute cwd base) (Path.absolute cwd path)).filter (!Path.leaves ·)

/-- A path without its extension. -/
def stem (path : String) : String :=
  String.ofList (path.toList.take (path.length - (Path.extension path).length))

/-- Where the module of a catalog goes, without extension. In an output directory it keeps its
place below the base directory; a catalog from elsewhere keeps its last name only. -/
def outputStem (cwd : String) (o : Options) (input : String) : String :=
  let s := stem input
  if o.outDir = "" then s
  else
    let rel := if o.baseDir = "" then Path.base s
      else (insideOf? cwd o.baseDir s).getD (Path.base s)
    Path.join [o.outDir, rel]

/-- The name of a catalog in reports: relative to the base directory if it is inside. -/
def displayPath (cwd base path : String) : String :=
  (Path.relativeTo cwd (if base = "" then "." else base) path).getD path

end Phrasebook.Build
