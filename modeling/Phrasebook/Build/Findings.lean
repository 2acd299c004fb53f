import Phrasebook.Build.Run
import Phrasebook.Diagnostic.Document
import Phrasebook.Diagnostic.Pretty
import Phrasebook.Diagnostic.Short

/-!
What a build has to say: the diagnostics of all its files in one text, and the arguments that the
generated functions take.
-/
namespace Phrasebook.Build

/-- How diagnostics are written. -/
inductive FindingsFormat where
  | pretty
  | json
  | short
  deriving DecidableEq

namespace FindingsFormat

def name : FindingsFormat → String
  | .pretty => "pretty"
  | .json => "json"
  | .short => "short"

/-- Letter case and white space around a name do not matter. -/
def ofName? (s : String) : Option FindingsFormat :=
  match Text.lowerText (Text.trimText s) with
  | "" | "pretty" => some .pretty
  | "json" => some .json
  | "short" => some .short
  | _ => none

def unknownName (s : String) : String :=
  s!"unknown format {Text.quote s} (expected pretty|json|short)"

end FindingsFormat

structure FindingsStyle where
  format : FindingsFormat
  color : Bool
  notes : Bool
  fixes : Bool
  fullPaths : Bool
  /-- Diagnostics below this severity are left out; errors never are. -/
  least : Severity

namespace FindingsStyle

def paths (s : FindingsStyle) : PathMode :=
  if s.fullPaths then .absolute else .auto

def hides (s : FindingsStyle) (d : Diagnostic) : Bool :=
  !(d.severity.reaches s.least || d.severity.reaches .error)

end FindingsStyle

/-- Leaves out what is not severe enough, and sorts the rest. -/
def arrange (s : FindingsStyle) (r : FileReport) : FileReport :=
  { r with bag := (r.bag.filter (!s.hides ·)).sort }

/-- The diagnostics of files that were arranged. -/
def findings (cwd : String) (s : FindingsStyle) (reports : List FileReport) : String :=
  let reported := reports.filter (·.bag.size ≠ 0)
  match s.format with
  | .json =>
    let style : Document.Style := ⟨true, s.paths, 0, s.notes, s.fixes, false⟩
    let all := reports.flatMap fun r => Document.items r.files cwd style r.bag
    (Json.object [("diagnostics", .array all), ("count", .ofNat all.length)]).pretty ++ "\n"
  | .short =>
    String.join ((reported.map fun r => Short.text r.files cwd s.notes r.bag.items).filter (· ≠ "")
      |>.map (· ++ "\n"))
  | .pretty =>
    let style : Pretty.Style := ⟨s.color, 2, s.paths, 0, s.notes, s.fixes, false⟩
    "\n".intercalate (reported.map fun r => Pretty.text r.files cwd style r.bag)

/-- How many diagnostics are errors, and how many are not. -/
def countFindings (reports : List FileReport) : Nat × Nat :=
  let all := reports.flatMap (·.bag.items)
  ((all.filter (·.severity.reaches .error)).length,
    (all.filter (!·.severity.reaches .error)).length)

/-! ### Arguments -/

/-- The path of the catalog as seen from the base directory. -/
def FileReport.shownPath (cwd : String) (r : FileReport) : String :=
  match r.files.get? 0 with
  | some f => f.showPath cwd .relative (r.files.baseDir cwd)
  | none => r.path

/-- Members with ascending keys; of two members with one key the later stays. -/
def sortedMembers {α : Type} (members : List (String × α)) : List (String × α) :=
  let last := members.foldl (fun kept m => kept.filter (·.1 != m.1) ++ [m]) []
  List.mergeSort last fun a b => textLe a.1 b.1

/-- The arguments of all messages of the files that compiled. In colour the members of an argument
are sorted, too, and keys are not escaped. -/
def argumentsText (cwd : String) (color : Bool) (reports : List FileReport) : String :=
  let argument (a : Argument) : Json :=
    let name := ("name", Json.string a.name)
    let binding := ("local", Json.string a.binding)
    .object ((if color then [binding, name] else [name, binding]) ++
      [("type", .string a.type.name)])
  let files := (reports.filter (!·.failed)).map fun r =>
    (r.shownPath cwd, Json.object (sortedMembers (r.arguments.map fun (name, as) =>
      (name.toText, Json.array (as.map argument)))))
  (Json.object (sortedMembers files)).prettyWith (if color then .bareKeys else .safe) ""

end Phrasebook.Build
