import Phrasebook.Build.Run
import Phrasebook.Progress.Names

/-!
Progress of a build: every file is queued, goes through its stages, and ends well or badly. The
last event is about the build as a whole.
-/
namespace Phrasebook.Progress

open Build

/-- What a file is being put through. -/
inductive Stage where
  | parse
  | compile
  | emit
  deriving DecidableEq

namespace Stage

def name : Stage → String
  | .parse => "parse"
  | .compile => "compile"
  | .emit => "emit"

def all : List Stage := [.parse, .compile, .emit]

def ofName? (s : String) : Option Stage :=
  all.find? (·.name == s)

/-- The stage that a phase of a build belongs to. -/
def ofPhase : Phase → Stage
  | .load | .cache | .parse => .parse
  | .compile => .compile
  | .emit | .write => .emit

end Stage

inductive Status where
  | queued
  | working
  | done
  | error
  deriving DecidableEq

def Status.name : Status → String
  | .queued => "queued"
  | .working => "working"
  | .done => "done"
  | .error => "error"

def Status.ofName? (s : String) : Option Status :=
  [Status.queued, .working, .done, .error].find? (·.name == s)

/-- Whether a file is through, well or badly. -/
def Status.isFinal : Status → Bool
  | .done | .error => true
  | .queued | .working => false

/-- An event of one file, or of the whole build if the file is empty. -/
structure Event where
  file : String
  stage : Stage
  status : Status
  error : Option String
  deriving DecidableEq

/-- The stages that files have reached. -/
abbrev Reached := List (String × Stage)

def Reached.get? (r : Reached) (file : String) : Option Stage :=
  (r.find? (·.1 == file)).map (·.2)

/-- A phase of a file begins. Only a change of stage is an event. -/
def begin (reached : Reached) (file : String) (phase : Phase) : Reached × List Event :=
  let stage := Stage.ofPhase phase
  if reached.get? file = some stage then (reached, [])
  else ((file, stage) :: reached.filter (·.1 != file), [⟨file, stage, .working, none⟩])

def observe (reached : Reached) : List (String × Phase) → Reached × List Event
  | [] => (reached, [])
  | (file, phase) :: rest =>
    let (reached, es) := begin reached file phase
    let (reached, more) := observe reached rest
    (reached, es ++ more)

/-- The phases of a run in the order they began. -/
def phasesOf (reports : List FileReport) : List (String × Phase) :=
  reports.flatMap fun r => r.steps.map fun s => (r.display, s.phase)

/-- How a file ended, at the last stage that it reached. -/
def ending (cwd base : String) (reached : Reached) (r : FileReport) : Event :=
  let name := Progress.name cwd base r.path
  let stage := (reached.get? name).getD .parse
  match r.failure with
  | some f => ⟨name, stage, .error, some f.message⟩
  | none => ⟨name, stage, .done, none⟩

/-- Why a build with progress was not started. -/
inductive Refusal where
  | noRequest
  | noFiles

def Refusal.message : Refusal → String
  | .noRequest => "missing compile request"
  | .noFiles => "no message files to compile"

/-- A build with its progress. -/
structure Run where
  report : RunReport
  events : List Event
  /-- The stages that took time. -/
  timed : List Stage

/-- Builds the files and reports the progress. The base directory of the options is replaced by
`base`, or by the working directory. -/
def run (d : Disk) (o : Options) (cancelled : Bool) (base : String) (files : List String) :
    Except Refusal (Disk × Run) :=
  if files.isEmpty then .error .noFiles
  else
    let base := if base = "" then d.cwd else base
    let queued : List Event := (names d.cwd base files).map fun f => ⟨f, .parse, .queued, none⟩
    let (after, report) := compileFiles d { o with baseDir := base } cancelled files
    let (reached, working) := observe [] (phasesOf report.reports)
    let ended := (report.reports.filter (·.path ≠ "")).map (ending d.cwd base reached)
    let last : Event :=
      ⟨"", .emit, if report.failure.isSome then .error else .done, report.failure⟩
    let timed := Stage.all.filter fun s =>
      report.reports.any fun r => r.steps.any fun t => Stage.ofPhase t.phase = s
    .ok (after, ⟨report, queued ++ working ++ ended ++ [last], timed⟩)

end Phrasebook.Progress
